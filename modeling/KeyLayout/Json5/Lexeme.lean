/-
The smallest parts of a JSON5 document.

* between them there may be blanks and comments (`skipGap`);
* a text stands in quotation marks or in apostrophes and may go on behind a line end
  that is escaped (`readText`);
* a number may have a sign, be hexadecimal, or start or end with its point
  (`readNumber`);
* a name needs no quotes (`readName`).
-/
import KeyLayout.Decimal.Numeral
import KeyLayout.Document.Scan
import KeyLayout.Text.Hexadecimal
import KeyLayout.Text.NameCharacter

namespace KeyLayout.Json5

open Document

def isLineEnd (c : Char) : Bool :=
  c == '\n' || c == '\r' || c == '\u2028' || c == '\u2029'

/-- Whether a character is blank: a line end, or a space of any kind. -/
def isBlank (c : Char) : Bool :=
  isLineEnd c || c == ' ' || c == '\t' || c == '\x0b' || c == '\x0c' || c == '\u00a0' ||
    c == '\u1680' || ('\u2000' ≤ c && c ≤ '\u200a') || c == '\u202f' || c == '\u205f' ||
    c == '\u3000' || c == '\ufeff'

/-- What a gap consists of at some place. -/
inductive Gap
  | blank
  | lineComment
  | blockComment
deriving DecidableEq

/-- Skips the rest of a gap: blanks and comments. -/
def skipGap : Gap → List Char → Except Break (List Char)
  | .blank, '/' :: '/' :: rest => skipGap .lineComment rest
  | .blank, '/' :: '*' :: rest => skipGap .blockComment rest
  | .blank, c :: rest => if isBlank c then skipGap .blank rest else .ok (c :: rest)
  | .lineComment, c :: rest => skipGap (if isLineEnd c then .blank else .lineComment) rest
  | .blockComment, '*' :: '/' :: rest => skipGap .blank rest
  | .blockComment, _ :: rest => skipGap .blockComment rest
  | .blockComment, [] => .error ⟨.endInComment, []⟩
  | _, [] => .ok []

/-- What an escape stands for. -/
structure Escape where
  text : List Char
  /-- How many characters it takes behind the backslash. -/
  size : Nat
deriving DecidableEq

/-- The escape of a code point: four digits, or two times four digits for a pair of code units. -/
def unitEscape? (digits : List Char) : Option Escape := do
  let high ← Text.leadingHex? 4 digits
  match Text.character? high, digits.drop 4 with
  | some c, _ => return ⟨[c], 5⟩
  | none, '\\' :: 'u' :: more =>
    let c ← Text.pairedCharacter? high (← Text.leadingHex? 4 more)
    return ⟨[c], 11⟩
  | none, _ => none

/-- The escape behind a backslash. An escaped line end stands for nothing, and most characters for
themselves. -/
def escape? : List Char → Option Escape
  | [] => none
  | 'x' :: digits => do
    let c ← Text.character? (← Text.leadingHex? 2 digits)
    return ⟨[c], 3⟩
  | 'u' :: digits => unitEscape? digits
  | '\r' :: '\n' :: _ => some ⟨[], 2⟩
  | '0' :: rest =>
    match rest with
    | d :: _ => if Decimal.isDigit d then none else some ⟨['\x00'], 1⟩
    | [] => some ⟨['\x00'], 1⟩
  | c :: _ =>
    if isLineEnd c then some ⟨[], 1⟩
    else if Decimal.isDigit c then none
    else if c = 'b' then some ⟨['\x08'], 1⟩
    else if c = 'f' then some ⟨['\x0c'], 1⟩
    else if c = 'n' then some ⟨['\n'], 1⟩
    else if c = 'r' then some ⟨['\r'], 1⟩
    else if c = 't' then some ⟨['\t'], 1⟩
    else if c = 'v' then some ⟨['\x0b'], 1⟩
    else some ⟨[c], 1⟩

/-- Reads a text up to its closing quote; `skip` characters still belong to an escape. -/
def readText (quote : Char) : Nat → Scan (List Char)
  | _, [] => .error ⟨.endInText, []⟩
  | skip + 1, _ :: rest => readText quote skip rest
  | 0, c :: rest =>
    if c = quote then .ok ([], rest)
    else if c = '\\' then
      match escape? rest with
      | none => .error ⟨.badEscape, rest⟩
      | some e => (readText quote e.size rest).map fun (text, rest) => (e.text ++ text, rest)
    else if c = '\n' ∨ c = '\r' then .error ⟨.lineEndInText, c :: rest⟩
    else (readText quote 0 rest).map fun (text, rest) => (c :: text, rest)

/-- An integer, as far as 64 bits go, or else the nearest double. -/
def integer (negative : Bool) (n : Nat) : Scalar :=
  let value : Int := if negative then -n else n
  if Decimal.fitsBits 64 value then .int value
  else .float (if negative then -Float.ofNat n else Float.ofNat n)

/-- Splits off the exponent at the front of a text; without one it is empty. -/
def spanExponent (text : List Char) : Option (List Char × List Char) :=
  match text with
  | c :: rest =>
    if c = 'e' ∨ c = 'E' then
      let (sign, rest) :=
        match rest with
        | '-' :: rest => (['-'], rest)
        | '+' :: rest => (['+'], rest)
        | rest => ([], rest)
      let (digits, rest) := Decimal.spanDigits rest
      if digits.isEmpty then none else some ('e' :: (sign ++ digits), rest)
    else some ([], text)
  | [] => some ([], [])

/-- Reads a decimal number without a sign. -/
def readDecimal (negative : Bool) (text : List Char) : Except Break (Scalar × List Char) :=
  let (whole, rest) := Decimal.spanDigits text
  let (point, fraction, rest) :=
    match rest with
    | '.' :: rest =>
      let (fraction, rest) := Decimal.spanDigits rest
      (['.'], fraction, rest)
    | _ => ([], [], rest)
  match spanExponent rest with
  | none => .error ⟨.badNumber, rest⟩
  | some (exponent, rest) =>
    if whole.isEmpty && fraction.isEmpty then .error ⟨.badNumber, text⟩
    else if whole.head? == some '0' && whole.length != 1 then .error ⟨.badNumber, text⟩
    else if point.isEmpty && exponent.isEmpty then
      .ok (integer negative (Decimal.ofDigits whole), rest)
    else
      match Decimal.readNumeral (whole ++ point ++ fraction ++ exponent) with
      | .ok x => .ok (.float (if negative then -x else x), rest)
      | .error _ => .error ⟨.badNumber, text⟩

/-- Reads a number without a sign. -/
def readUnsigned (negative : Bool) : List Char → Except Break (Scalar × List Char)
  | 'I' :: 'n' :: 'f' :: 'i' :: 'n' :: 'i' :: 't' :: 'y' :: rest =>
    .ok (.float (if negative then -1.0 / 0.0 else 1.0 / 0.0), rest)
  | 'N' :: 'a' :: 'N' :: rest => .ok (.float (0.0 / 0.0), rest)
  | '0' :: x :: rest =>
    if x = 'x' ∨ x = 'X' then
      let (digits, rest) := rest.span fun c => (Text.hexValue? c).isSome
      match Text.hexNumber? 0 digits with
      | some n =>
        if digits.isEmpty then .error ⟨.badNumber, rest⟩ else .ok (integer negative n, rest)
      | none => .error ⟨.badNumber, rest⟩
    else readDecimal negative ('0' :: x :: rest)
  | text => readDecimal negative text

def readNumber : Scan Scalar
  | '-' :: rest => readUnsigned true rest
  | '+' :: rest => readUnsigned false rest
  | text => readUnsigned false text

/-- Reads the rest of a name; `skip` characters still belong to an escape. -/
def readNameFrom : Nat → Scan (List Char)
  | _, [] => .ok ([], [])
  | skip + 1, _ :: rest => readNameFrom skip rest
  | 0, c :: rest =>
    if c = '\\' then
      match rest with
      | 'u' :: digits =>
        match unitEscape? digits with
        | some e =>
          if e.text.all Text.inName then
            (readNameFrom e.size rest).map fun (name, rest) => (e.text ++ name, rest)
          else .error ⟨.badName, c :: rest⟩
        | none => .error ⟨.badEscape, rest⟩
      | _ => .error ⟨.badEscape, rest⟩
    else if Text.inName c then (readNameFrom 0 rest).map fun (name, rest) => (c :: name, rest)
    else .ok ([], c :: rest)

/-- Reads a name without quotes. -/
def readName : Scan (List Char)
  | text => do
    let (name, rest) ← readNameFrom 0 text
    match name with
    | c :: _ => if Text.startsName c then return (name, rest) else throw ⟨.badName, text⟩
    | [] => throw ⟨.badName, text⟩

end KeyLayout.Json5

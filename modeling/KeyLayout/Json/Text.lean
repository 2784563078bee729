/-
Texts of a JSON document.

A text is read one character at a time.  What the next character means depends only
on a small state: in plain text, behind a backslash, or inside the four digits of a
code unit.  Code points above U+FFFF are written as two code units, so behind the
first of such a pair nothing but the second may stand.

* `readText` gives the characters of a text;
* `skipText` only finds its end.  It does not look at the code units it passes, so
  it also passes a half of a pair that stands alone.

Both are told the place of the first character behind the opening quote.
-/
import KeyLayout.Document.Complaint
import KeyLayout.Decimal.Numeral
import KeyLayout.Text.Hexadecimal

namespace KeyLayout.Json

open KeyLayout.Document

/-- What is left of a text, and where that starts. -/
structure Cursor where
  place : Offset
  rest : List Char
deriving DecidableEq

def byteCount (text : List Char) : Nat :=
  text.foldl (fun n c => n + c.utf8Size) 0

/-- The character that a letter behind a backslash stands for. -/
def shortEscape? (c : Char) : Option Char :=
  if c = '"' || c = '\\' || c = '/' then some c
  else if c = 'b' then some '\x08'
  else if c = 'f' then some '\x0c'
  else if c = 'n' then some '\n'
  else if c = 'r' then some '\r'
  else if c = 't' then some '\t'
  else none

/-- Digits of a code unit that are already read: where they start, how many, and their value. -/
structure UnitDigits where
  start : Offset
  count : Nat
  value : Nat
deriving DecidableEq

/-- No digit is read yet. -/
def UnitDigits.from (start : Offset) : UnitDigits := ⟨start, 0, 0⟩

/-- Takes the next digit. -/
def UnitDigits.push (d : UnitDigits) (place : Offset) (c : Char) (rest : List Char) :
    Except Complaint UnitDigits :=
  match Text.hexValue? c with
  | some v => .ok ⟨d.start, d.count + 1, d.value * 16 + v⟩
  | none =>
    -- four bytes belong to a code unit, whatever stands in them
    let stop := place + c.utf8Size + byteCount rest
    if stop < d.start + 4 then .error (.flaw .endInText stop)
    else .error (.flaw .badEscape (d.start + 4))

/-- Whether a code unit is the first of a pair. -/
def isHighUnit (n : Nat) : Bool := 0xD800 ≤ n && n ≤ 0xDBFF

/-- Whether a code unit is the second of a pair. -/
def isLowUnit (n : Nat) : Bool := 0xDC00 ≤ n && n ≤ 0xDFFF

/-- The code point of a pair of code units. -/
def pairValue (high low : Nat) : Nat :=
  0x10000 + (high - 0xD800) * 0x400 + (low - 0xDC00)

/-- What the next character of a text belongs to. -/
inductive TextState
  | plain
  | escape
  | digits (d : UnitDigits) (high : Option Nat)
  /-- A backslash has to follow, for the second unit of a pair. -/
  | pairSlash (high : Nat)
  /-- A `u` has to follow. -/
  | pairLetter (high : Nat)
deriving DecidableEq

/-- What a complete code unit leads to: a character, or the wait for the second unit of a pair. -/
def afterUnit (place : Offset) (value : Nat) : Option Nat → Except Complaint (Char ⊕ Nat)
  | none =>
    if isLowUnit value then .error (.flaw .loneSurrogate place)
    else if isHighUnit value then .ok (.inr value)
    else .ok (.inl (Char.ofNat value))
  | some high =>
    if isLowUnit value then .ok (.inl (Char.ofNat (pairValue high value)))
    else .error (.flaw .loneSurrogate place)

/-- Reads a text up to its closing quote. -/
def readText (state : TextState) (place : Offset) :
    List Char → Except Complaint (List Char × Cursor)
  | [] => .error (.flaw .endInText place)
  | c :: rest =>
    let next := place + c.utf8Size
    let push (x : Char) (r : Except Complaint (List Char × Cursor)) :=
      r.map fun (text, cursor) => (x :: text, cursor)
    match state with
    | .plain =>
      if c = '"' then .ok ([], ⟨next, rest⟩)
      else if c = '\\' then readText .escape next rest
      else if c.toNat < 0x20 then .error (.flaw .controlCharacter next)
      else push c (readText .plain next rest)
    | .escape =>
      if c = 'u' then readText (.digits (.from next) none) next rest
      else
        match shortEscape? c with
        | some x => push x (readText .plain next rest)
        | none => .error (.flaw .badEscape (place + 1))
    | .digits d high =>
      match d.push place c rest with
      | .error e => .error e
      | .ok d =>
        if d.count < 4 then readText (.digits d high) next rest
        else
          match afterUnit next d.value high with
          | .error e => .error e
          | .ok (.inl x) => push x (readText .plain next rest)
          | .ok (.inr high) => readText (.pairSlash high) next rest
    | .pairSlash high =>
      if c = '\\' then readText (.pairLetter high) next rest
      else .error (.flaw .unfinishedSurrogate (place + 1))
    | .pairLetter high =>
      if c = 'u' then readText (.digits (.from next) (some high)) next rest
      else .error (.flaw .unfinishedSurrogate (place + 1))

/-- Finds the end of a text. -/
def skipText (state : TextState) (place : Offset) : List Char → Except Complaint Cursor
  | [] => .error (.flaw .endInText place)
  | c :: rest =>
    let next := place + c.utf8Size
    match state with
    | .escape =>
      if c = 'u' then skipText (.digits (.from next) none) next rest
      else if (shortEscape? c).isSome then skipText .plain next rest
      else .error (.flaw .badEscape (place + 1))
    | .digits d high =>
      match d.push place c rest with
      | .error e => .error e
      | .ok d => skipText (if d.count < 4 then .digits d high else .plain) next rest
    | _ =>
      if c = '"' then .ok ⟨next, rest⟩
      else if c = '\\' then skipText .escape next rest
      else if c.toNat < 0x20 then .error (.flaw .controlCharacter place)
      else skipText .plain next rest

end KeyLayout.Json

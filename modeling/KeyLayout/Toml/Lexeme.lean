/-
The smallest parts of a TOML document.

* lines end with `\n` or `\r\n`, and a comment goes on to the end of its line
  (`skipComment`, `endOfLine`);
* a text stands in quotation marks, with escapes, or in apostrophes, without; three of
  them enclose a text of several lines (`readText`);
* a key is a text on one line, or bare letters, digits, dashes and underscores, and
  several of them may be joined by dots (`readPath`).
-/
import KeyLayout.Document.Scan
import KeyLayout.Text.Hexadecimal

namespace KeyLayout.Toml

open Document

/-- Whether a character may not be written: all control characters but the tab. -/
def isControl (c : Char) : Bool := (c.toNat < 0x20 && c != '\t') || c.toNat == 0x7F

def skipSpace (text : List Char) : List Char := text.dropWhile fun c => c = ' ' ∨ c = '\t'

def takeLineEnd? : List Char → Option (List Char)
  | '\n' :: rest => some rest
  | '\r' :: '\n' :: rest => some rest
  | _ => none

/-- Skips a comment, if there is one, up to the end of its line. -/
def skipComment : List Char → Except Break (List Char)
  | '#' :: rest =>
    let rest := rest.dropWhile fun c => !isControl c
    if rest.isEmpty || (takeLineEnd? rest).isSome then .ok rest
    else .error ⟨.controlCharacter, rest⟩
  | text => .ok text

/-- Skips what may stand behind an expression, and the line end. -/
def endOfLine (text : List Char) : Except Break (List Char) := do
  let rest ← skipComment (skipSpace text)
  match rest, takeLineEnd? rest with
  | [], _ => return []
  | _, some rest => return rest
  | _, none => throw ⟨.trailingText, rest⟩

/-- Skips spaces, comments and line ends; `bound` limits the number of lines. -/
def skipLines : Nat → List Char → Except Break (List Char)
  | 0, text => .ok text
  | bound + 1, text => do
    let rest ← skipComment (skipSpace text)
    match takeLineEnd? rest with
    | some rest => skipLines bound rest
    | none => return rest

/-- Skips a gap: spaces, comments and line ends. -/
def skipGap (text : List Char) : Except Break (List Char) := skipLines (text.length + 1) text

/-- What an escape stands for. -/
structure Escape where
  text : List Char
  /-- How many characters it takes behind the backslash. -/
  size : Nat
deriving DecidableEq

/-- An escape of a code point in `count` digits. -/
def codeEscape? (count : Nat) (digits : List Char) : Option Escape := do
  let c ← Text.character? (← Text.leadingHex? count digits)
  return ⟨[c], count + 1⟩

/-- How many blank characters and line ends there are at the front of a text. -/
def blankCount (text : List Char) : Nat :=
  (text.takeWhile fun c => c = ' ' ∨ c = '\t' ∨ c = '\n' ∨ c = '\r').length

/-- An escaped line end stands for nothing, together with all blanks and lines ends behind it. -/
def lineEscape? (text : List Char) : Option Escape :=
  if (takeLineEnd? (skipSpace text)).isSome then some ⟨[], blankCount text⟩ else none

/-- The escape behind a backslash. -/
def escape? (multiline : Bool) : List Char → Option Escape
  | 'b' :: _ => some ⟨['\x08'], 1⟩
  | 't' :: _ => some ⟨['\t'], 1⟩
  | 'n' :: _ => some ⟨['\n'], 1⟩
  | 'f' :: _ => some ⟨['\x0c'], 1⟩
  | 'r' :: _ => some ⟨['\r'], 1⟩
  | 'e' :: _ => some ⟨['\x1b'], 1⟩
  | '"' :: _ => some ⟨['"'], 1⟩
  | '\\' :: _ => some ⟨['\\'], 1⟩
  | 'x' :: digits => codeEscape? 2 digits
  | 'u' :: digits => codeEscape? 4 digits
  | 'U' :: digits => codeEscape? 8 digits
  | text => if multiline then lineEscape? text else none

/-- Reads a text on one line up to its closing quote; `skip` characters still
belong to an escape. -/
def readLine (quote : Char) : Nat → Scan (List Char)
  | _, [] => .error ⟨.endInText, []⟩
  | skip + 1, _ :: rest => readLine quote skip rest
  | 0, c :: rest =>
    if c = quote then .ok ([], rest)
    else if c = '\\' ∧ quote = '"' then
      match escape? false rest with
      | none => .error ⟨.badEscape, rest⟩
      | some e => (readLine quote e.size rest).map fun (text, rest) => (e.text ++ text, rest)
    else if isControl c then .error ⟨.controlCharacter, c :: rest⟩
    else (readLine quote 0 rest).map fun (text, rest) => (c :: text, rest)

/-- The number of quotes at the front of a text, five at most. -/
def quoteRun (quote : Char) (text : List Char) : Nat := ((text.take 5).takeWhile (· = quote)).length

/-- Reads a text of several lines up to its three closing quotes, right before which two more may
stand. -/
def readLines (quote : Char) : Nat → Scan (List Char)
  | _, [] => .error ⟨.endInText, []⟩
  | skip + 1, _ :: rest => readLines quote skip rest
  | 0, c :: rest =>
    let run := quoteRun quote (c :: rest)
    -- quotes before the last three are part of the text
    if 3 ≤ run then .ok (List.replicate (run - 3) quote, (c :: rest).drop run)
    else if c = '\\' ∧ quote = '"' then
      match escape? true rest with
      | none => .error ⟨.badEscape, rest⟩
      | some e => (readLines quote e.size rest).map fun (text, rest) => (e.text ++ text, rest)
    else
      match takeLineEnd? (c :: rest) with
      | some after =>
        -- a line end of two characters stands for one
        (readLines quote (rest.length - after.length) rest).map fun (text, rest) =>
          ('\n' :: text, rest)
      | none =>
        if isControl c then .error ⟨.controlCharacter, c :: rest⟩
        else (readLines quote 0 rest).map fun (text, rest) => (c :: text, rest)

/-- Reads a text of several lines; a line end right behind the opening quotes is no part of it. -/
def readBlock (quote : Char) (text : List Char) : Except Break (List Char × List Char) :=
  readLines quote 0 ((takeLineEnd? text).getD text)

/-- Reads a text, if there is one. -/
def readText? : List Char → Option (Except Break (List Char × List Char))
  | '"' :: '"' :: '"' :: rest => some (readBlock '"' rest)
  | '\'' :: '\'' :: '\'' :: rest => some (readBlock '\'' rest)
  | '"' :: rest => some (readLine '"' 0 rest)
  | '\'' :: rest => some (readLine '\'' 0 rest)
  | _ => none

/-- Whether a character may stand in a bare key. -/
def inBareKey (c : Char) : Bool := c.isAlphanum || c == '-' || c == '_'

def readKey : Scan String
  | '"' :: rest => (readLine '"' 0 rest).map fun (name, rest) => (String.ofList name, rest)
  | '\'' :: rest => (readLine '\'' 0 rest).map fun (name, rest) => (String.ofList name, rest)
  | text =>
    let (name, rest) := text.span inBareKey
    if name.isEmpty then .error ⟨.badName, text⟩ else .ok (String.ofList name, rest)

/-- Keys that lead from table to table, the last of them apart. -/
structure Path where
  front : List String
  last : String
deriving DecidableEq

/-- Reads keys that are joined by dots; `bound` limits their number. -/
def readPathWithin : Nat → Scan Path
  | 0, text => .error ⟨.badName, text⟩
  | bound + 1, text => do
    let (name, rest) ← readKey (skipSpace text)
    match skipSpace rest with
    | '.' :: rest =>
      let (path, rest) ← readPathWithin bound rest
      return (⟨name :: path.front, path.last⟩, rest)
    | rest => return (⟨[], name⟩, rest)

/-- Reads keys that are joined by dots, and the spaces around them. -/
def readPath (text : List Char) : Except Break (Path × List Char) :=
  readPathWithin (text.length + 1) text

end KeyLayout.Toml

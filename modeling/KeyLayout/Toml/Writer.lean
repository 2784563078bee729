/-
Writing TOML.

A text stands between quotation marks as long as nothing in it needs an escape, else
between apostrophes, where no escape is needed at all.  Texts that allow neither, and
texts of several lines, stand between triple quotation marks; only a text with control
characters on one line is written with escapes between single ones.

* `Form.of` chooses the form of a text;
* `quote` writes a text in its form.
-/
import KeyLayout.Text.Quoted

namespace KeyLayout.Toml

/-- The length of the longest run of `c`; `current` is the length of the run that ends here. -/
def longestRun (c : Char) (current : Nat) : List Char → Nat
  | [] => current
  | d :: rest => if d = c then longestRun c (current + 1) rest else max current (longestRun c 0 rest)

/-- Whether a character can only be written as an escape. -/
def needsEscape (c : Char) : Bool :=
  (c.toNat < 0x20 && c != '\t' && c != '\n') || c.toNat == 0x7F

/-- The four ways to write a text. -/
inductive Form
  | basic
  | literal
  | multilineBasic
  | multilineLiteral
deriving DecidableEq

namespace Form

/-- The form of a text: the first that takes the text without an escape, or else a basic one. -/
def of (text : List Char) : Form :=
  let control := text.any needsEscape
  let backslash := text.contains '\\'
  let newline := text.contains '\n'
  let quotes := longestRun '"' 0 text
  let apostrophes := longestRun '\'' 0 text
  if !control && !backslash && quotes == 0 && !newline then basic
  else if !control && apostrophes == 0 && !newline then literal
  else if !control && !backslash && quotes ≤ 2 then multilineBasic
  else if !control && apostrophes ≤ 2 then multilineLiteral
  else if newline then multilineBasic
  else basic

/-- What stands before and after a text. -/
def delimiter : Form → List Char
  | basic => ['"']
  | literal => ['\'']
  | multilineBasic => ['"', '"', '"']
  | multilineLiteral => ['\'', '\'', '\'']

end Form

/-- A code point of at most four hexadecimal digits, as an escape. -/
def hexEscape (c : Char) : List Char :=
  let digits := (Text.hexDigits c.toNat).map Char.toUpper
  '\\' :: 'u' :: (List.replicate (4 - digits.length) '0' ++ digits)

/-- A character between quotation marks; `quotes` is how many quotation marks stand before it
unescaped. -/
def basicChar (multiline : Bool) (quotes : Nat) (c : Char) : List Char :=
  if c = '"' then
    if quotes < (if multiline then 2 else 0) then ['"'] else ['\\', '"']
  else if c = '\\' then ['\\', '\\']
  else if c = '\t' then ['\\', 't']
  else if c = '\n' then (if multiline then ['\n'] else ['\\', 'n'])
  else if c = '\x08' then ['\\', 'b']
  else if c = '\x0c' then ['\\', 'f']
  else if c = '\r' then ['\\', 'r']
  else if needsEscape c then hexEscape c
  else [c]

/-- A text between quotation marks. -/
def basicText (multiline : Bool) (quotes : Nat) : List Char → List Char
  | [] => []
  | c :: rest =>
    let written := basicChar multiline quotes c
    written ++ basicText multiline (if written = ['"'] then quotes + 1 else 0) rest

/-- A text in its form; a line end may stand before the first of several lines without being part of
it. -/
def quote (text : String) : String :=
  let chars := text.toList
  let form := Form.of chars
  let opening : List Char := match form with
    | .multilineBasic | .multilineLiteral => if chars.contains '\n' then ['\n'] else []
    | .basic | .literal => []
  let body := match form with
    | .basic => basicText false 0 chars
    | .multilineBasic => basicText true 0 chars
    | .literal | .multilineLiteral => chars
  String.ofList (form.delimiter ++ opening ++ body ++ form.delimiter)

end KeyLayout.Toml

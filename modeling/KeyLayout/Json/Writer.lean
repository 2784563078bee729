/-
Writing JSON.

* `quote` writes a text: quotes, backslashes and control characters are escaped,
  everything else stands for itself;
* `compact` writes a value without any space;
* `pretty` puts every item and every member on a line of its own, two spaces deeper
  than what holds it; an empty list or object stays on one line.

A number that is not finite has no written form and becomes `null`.
-/
import KeyLayout.Json.Value
import KeyLayout.Decimal.Notation
import KeyLayout.Text.Quoted

namespace KeyLayout.Json

/-- A control character as four hexadecimal digits. -/
def hexEscape (c : Char) : List Char :=
  let digits := Text.hexDigits c.toNat
  '\\' :: 'u' :: (List.replicate (4 - digits.length) '0' ++ digits)

def quoteChar (c : Char) : List Char :=
  if c = '"' then ['\\', '"']
  else if c = '\\' then ['\\', '\\']
  else if c = '\n' then ['\\', 'n']
  else if c = '\r' then ['\\', 'r']
  else if c = '\t' then ['\\', 't']
  else if c = '\x08' then ['\\', 'b']
  else if c = '\x0c' then ['\\', 'f']
  else if c.toNat < 0x20 then hexEscape c
  else [c]

def quote (text : String) : List Char :=
  '"' :: (text.toList.flatMap quoteChar ++ ['"'])

def intText (n : Int) : List Char :=
  Decimal.signed (n < 0) (Decimal.digitsOf n.natAbs)

def floatText (x : Float) : List Char :=
  match Decimal.marked? x with
  | some text => text.toList
  | none => ['n', 'u', 'l', 'l']

/-- What stands between the parts of a list or an object at a given depth. -/
structure Spacing where
  /-- After the opening bracket, before the closing one and after every comma. -/
  lineBreak : Nat → List Char
  /-- After a colon. -/
  gap : List Char

/-- No space at all. -/
def Spacing.none : Spacing := ⟨fun _ => [], []⟩

/-- One line for each part, two spaces for each level. -/
def Spacing.lines : Spacing := ⟨fun depth => '\n' :: List.replicate (2 * depth) ' ', [' ']⟩

mutual

/-- Writes a value that stands at a given depth. -/
def write (sp : Spacing) (depth : Nat) : Value → List Char
  | .null => ['n', 'u', 'l', 'l']
  | .bool true => ['t', 'r', 'u', 'e']
  | .bool false => ['f', 'a', 'l', 's', 'e']
  | .int n => intText n
  | .float x => floatText x
  | .text s => quote s
  | .list [] => ['[', ']']
  | .list (v :: items) =>
    '[' :: (sp.lineBreak (depth + 1) ++ write sp (depth + 1) v ++ writeItems sp (depth + 1) items
      ++ sp.lineBreak depth ++ [']'])
  | .record [] => ['\x7b', '\x7d']
  | .record ((name, v) :: members) =>
    '\x7b' :: (sp.lineBreak (depth + 1) ++ quote name ++ ':' :: sp.gap ++ write sp (depth + 1) v
      ++ writeMembers sp (depth + 1) members ++ sp.lineBreak depth ++ ['\x7d'])

/-- Writes the further items of a list, each after a comma. -/
def writeItems (sp : Spacing) (depth : Nat) : List Value → List Char
  | [] => []
  | v :: items => ',' :: (sp.lineBreak depth ++ write sp depth v ++ writeItems sp depth items)

/-- Writes the further members of an object, each after a comma. -/
def writeMembers (sp : Spacing) (depth : Nat) : List (String × Value) → List Char
  | [] => []
  | (name, v) :: members =>
    ',' :: (sp.lineBreak depth ++ quote name ++ ':' :: sp.gap ++ write sp depth v
      ++ writeMembers sp depth members)

end

/-- Writes a value without any space. -/
def compact (v : Value) : String := String.ofList (write .none 0 v)

/-- Writes a value with one line for each part. -/
def pretty (v : Value) : String := String.ofList (write .lines 0 v)

end KeyLayout.Json

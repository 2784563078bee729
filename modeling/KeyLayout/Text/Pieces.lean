/-
Cutting a text into pieces and putting pieces together.

* `pieces sep` cuts at every occurrence of one character, so there is always one
  piece more than there are separators; it cuts rows of bytes as well;
* `joinWith` puts a separator between pieces;
* `firstLine` and `lines` know the two line ends `\n` and `\r\n`;
* `replaceAll` replaces every occurrence of a pattern, left to right, without
  looking again at what it has written.

Everything works on lists, which is the form the rest of the library reasons about.
-/
namespace KeyLayout.Text

section pieces

variable {α : Type} [DecidableEq α]

/-- Cuts a text at every `sep`. -/
def pieces (sep : α) : List α → List (List α)
  | [] => [[]]
  | c :: rest =>
    if c = sep then [] :: pieces sep rest
    else
      match pieces sep rest with
      | [] => [[c]]
      | piece :: more => (c :: piece) :: more

/-- The pieces with `sep` between neighbours. -/
def joinWith (sep : List α) : List (List α) → List α
  | [] => []
  | [piece] => piece
  | piece :: more => piece ++ sep ++ joinWith sep more

end pieces

/-- What separates the lines of a text on a key. -/
abbrev lineEnd : List Char := ['\n']

/-- A line as it stands before its `\n`: a carriage return right before it
belongs to the line end. -/
def dropReturn (line : List Char) : List Char :=
  match line.getLast? with
  | some '\r' => line.dropLast
  | _ => line

/-- The text before the first line end, all of it when there is none. -/
def firstLine (text : List Char) : List Char :=
  match pieces '\n' text with
  | line :: _ :: _ => dropReturn line
  | _ => text

/-- The lines of a text; a line end at the very end opens no further line. -/
def lines (text : List Char) : List (List Char) :=
  go (pieces '\n' text)
where
  /-- Every piece but the last was ended by `\n`. -/
  go : List (List Char) → List (List Char)
    | [] => []
    | [last] => if last.isEmpty then [] else [last]
    | line :: more => dropReturn line :: go more

/-- Replaces `pattern`, which is not empty, by `replacement`; `skip` characters are still part of
the last match. -/
def replaceFrom (pattern replacement : List Char) : Nat → List Char → List Char
  | _, [] => []
  | skip + 1, _ :: rest => replaceFrom pattern replacement skip rest
  | 0, c :: rest =>
    if pattern.isPrefixOf (c :: rest) then
      replacement ++ replaceFrom pattern replacement (pattern.length - 1) rest
    else
      c :: replaceFrom pattern replacement 0 rest

/-- Replaces every occurrence of `pattern` by `replacement`, from left to right. -/
def replaceAll (pattern replacement text : List Char) : List Char :=
  replaceFrom pattern replacement 0 text

/-- The texts with `sep` between neighbours. -/
def join (sep : String) (texts : List String) : String :=
  String.ofList (joinWith sep.toList (texts.map String.toList))

end KeyLayout.Text

/-
A place in a YAML document, with the text that is left.

Layout counts in YAML, so a place is known by its line and its column.  A line ends
with `\n`, `\r`, both together, or one of three further characters; the text of a value
has `\n` for all of them but the line and paragraph separators, which stay.
-/
import KeyLayout.Document.Scan

namespace KeyLayout.Yaml

open Document

/-- What is left of a text, and where that starts. -/
structure Cursor where
  rest : List Char
  /-- The number of characters before. -/
  index : Nat
  line : Nat
  column : Nat
deriving DecidableEq

def isSpace (c : Char) : Bool := c == ' ' || c == '\t'

def isLineEnd (c : Char) : Bool :=
  c == '\n' || c == '\r' || c == '\u0085' || c == '\u2028' || c == '\u2029'

/-- Whether a character is a space, a tab, or the end of a line. -/
def isBlank (c : Char) : Bool := isSpace c || isLineEnd c

/-- Whether a text is over or goes on with a blank. -/
def blankNext : List Char → Bool
  | [] => true
  | c :: _ => isBlank c

/-- Whether a character may stand in the name of an anchor. -/
def inAnchor (c : Char) : Bool := c.isAlphanum || c == '_' || c == '-'

/-- Whether a character may stand in a document at all. -/
def isPrintable (c : Char) : Bool :=
  let n := c.toNat
  n == 0x09 || n == 0x0A || n == 0x0D || (0x20 ≤ n && n ≤ 0x7E) || n == 0x85 ||
    (0xA0 ≤ n && n ≤ 0xFFFD) || 0x10000 ≤ n

namespace Cursor

def start (text : List Char) : Cursor := ⟨text, 0, 0, 0⟩

def next? (c : Cursor) : Option Char := c.rest.head?

/-- Passes some characters of the line. -/
def skip (count : Nat) (c : Cursor) : Cursor :=
  ⟨c.rest.drop count, c.index + count, c.line, c.column + count⟩

/-- Passes a line end; gives what it means in a text. -/
def skipLine (c : Cursor) : List Char × Cursor :=
  match c.rest with
  | '\r' :: '\n' :: rest => (['\n'], ⟨rest, c.index + 2, c.line + 1, 0⟩)
  | e :: rest =>
    (if e == '\u2028' || e == '\u2029' then [e] else ['\n'], ⟨rest, c.index + 1, c.line + 1, 0⟩)
  | [] => ([], c)

/-- Passes characters of the line while they have some property. -/
def skipWhile (p : Char → Bool) (c : Cursor) : Cursor :=
  c.skip (c.rest.takeWhile p).length

/-- Passes a comment, if there is one. -/
def skipComment (c : Cursor) : Cursor :=
  match c.next? with
  | some '#' => c.skipWhile fun d => !isLineEnd d
  | _ => c

/-- Whether three dashes or dots stand alone at the start of the line. -/
def atMark (c : Cursor) : Bool :=
  c.column == 0 &&
    match c.rest with
    | '-' :: '-' :: '-' :: rest => blankNext rest
    | '.' :: '.' :: '.' :: rest => blankNext rest
    | _ => false

def stuck {α : Type} (c : Cursor) (flaw : Flaw) : Except Break α := .error ⟨flaw, c.rest⟩

end Cursor

end KeyLayout.Yaml

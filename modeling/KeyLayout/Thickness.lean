/-
The thickness of a frame: the border of the keyboard or the margin of a symbol.

A thickness has four edges.  It is written as one number for all edges, as two for
the horizontal and the vertical ones, or as four, separated by commas.

* `ofText` reads the three forms and names what is wrong with any other text;
* `text` writes all four edges.
-/
import KeyLayout.Text.Blank
import KeyLayout.Text.Pieces
import KeyLayout.Decimal.Notation
import KeyLayout.Decimal.Numeral

namespace KeyLayout

/-- Thickness of the four edges of a frame. -/
structure Thickness where
  left : Float
  top : Float
  right : Float
  bottom : Float
deriving DecidableEq

namespace Thickness

/-- The same thickness on every edge. -/
def uniform (x : Float) : Thickness := ⟨x, x, x, x⟩

/-- Why a text is no thickness. -/
inductive Error
  /-- A component, given without the white space around it, is no number. -/
  | component (text : String) (cause : Decimal.NumeralError)
  /-- The components of the whole text are numbers, but there are not one, two or four. -/
  | count (text : String)
deriving DecidableEq

/-- The wording of a refusal, without its cause. -/
def Error.message : Error → String
  | .component text _ => s!"Invalid thickness component '{text}'"
  | .count text => s!"Invalid thickness '{text}'. Expected 1, 2 or 4 comma separated numbers"

/-- The wording of a refusal followed by its cause. -/
def Error.chain (e : Error) : String :=
  match e with
  | .component _ cause => s!"{e.message}: {cause.message}"
  | .count _ => e.message

def readComponent (part : List Char) : Except Error Float :=
  let part := Text.trim part
  match Decimal.readNumeral part with
  | .ok x => .ok x
  | .error cause => .error (.component (String.ofList part) cause)

/-- Reads the components in order and stops at the first that is no number. -/
def readComponents : List (List Char) → Except Error (List Float)
  | [] => .ok []
  | part :: parts =>
    match readComponent part with
    | .error e => .error e
    | .ok x => (readComponents parts).map (x :: ·)

def ofText (text : String) : Except Error Thickness :=
  match readComponents (Text.pieces ',' text.toList) with
  | .error e => .error e
  | .ok [all] => .ok (uniform all)
  | .ok [horizontal, vertical] => .ok ⟨horizontal, vertical, horizontal, vertical⟩
  | .ok [left, top, right, bottom] => .ok ⟨left, top, right, bottom⟩
  | .ok _ => .error (.count text)

/-- Writes the four edges with commas between them. -/
def text (t : Thickness) : String :=
  s!"{Decimal.plain t.left},{Decimal.plain t.top},{Decimal.plain t.right},{Decimal.plain t.bottom}"

end Thickness

end KeyLayout

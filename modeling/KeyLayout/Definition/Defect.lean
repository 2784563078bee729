/-
What makes a definition useless as a whole.

A definition can be built into a keyboard when it has a grid of at least one row and
one column and at least one key, and when no two keys have the same anchor cell.
Cells that keys cover beyond their anchors may be shared.

* `conflicts` finds the anchors that several keys share, in the order in which these
  anchors first appear;
* `Definition.validate` checks everything, in a fixed order, and gives the dimensions
  of a definition without a defect.
-/
import KeyLayout.Definition
import KeyLayout.Text.Pieces

namespace KeyLayout

/-- Keys with the same anchor. -/
structure Conflict where
  anchor : Cell
  /-- What the keys are called, in their order; a key without a name has an empty one. -/
  keys : List String
deriving DecidableEq

/-- How messages show a conflict. -/
def Conflict.text (c : Conflict) : String := Text.join ", " c.keys ++ " " ++ c.anchor.text

/-- The keys at one anchor. -/
structure AnchorGroup where
  anchor : Cell
  keys : List KeySpec

namespace AnchorGroup

/-- Adds a key behind the others at its anchor; a new anchor comes last. -/
def add (spec : KeySpec) : List AnchorGroup → List AnchorGroup
  | [] => [⟨spec.anchor, [spec]⟩]
  | group :: more =>
    if group.anchor = spec.anchor then { group with keys := group.keys ++ [spec] } :: more
    else group :: add spec more

/-- Keys by anchor. -/
def ofSpecs (specs : List KeySpec) : List AnchorGroup :=
  specs.foldl (fun groups spec => add spec groups) []

/-- A group of two or more keys is a conflict. -/
def conflict? (group : AnchorGroup) : Option Conflict :=
  if 1 < group.keys.length then
    some ⟨group.anchor, group.keys.map fun spec => spec.identifier.getD ""⟩
  else none

end AnchorGroup

def conflicts (specs : List KeySpec) : List Conflict :=
  (AnchorGroup.ofSpecs specs).filterMap AnchorGroup.conflict?

/-- Why a definition cannot be built into a keyboard. -/
inductive Defect
  | noGrid
  | noKeys
  | badDimensions (dimensions : Dimensions)
  | conflicting (conflicts : List Conflict)
deriving DecidableEq

namespace Defect

/-- What kind of defect it is, in a few words. -/
def heading : Defect → String
  | noGrid => "Invalid keyboard file"
  | noKeys => "Invalid keyboard file"
  | badDimensions _ => "Incorrect grid definition"
  | conflicting _ => "Duplicate row/column values for keys"

/-- What exactly is wrong. -/
def detail : Defect → String
  | noGrid => "No grid definition found"
  | noKeys => "No key definitions found"
  | badDimensions d => s!"Grid size is {d.rows} rows and {d.cols} columns"
  | conflicting conflicts => Text.join ", " (conflicts.map Conflict.text)

def message (d : Defect) : String := s!"{d.heading}: {d.detail}"

end Defect

/-- The dimensions of a definition that can be built into a keyboard, or else its first defect. -/
def Definition.validate (d : Definition) : Except Defect Dimensions :=
  match d.dimensions with
  | none => .error .noGrid
  | some dimensions =>
    if d.keyCount = 0 then .error .noKeys
    else if dimensions.rows < 1 ∨ dimensions.cols < 1 then .error (.badDimensions dimensions)
    else
      match conflicts d.specs with
      | [] => .ok dimensions
      | found => .error (.conflicting found)

end KeyLayout

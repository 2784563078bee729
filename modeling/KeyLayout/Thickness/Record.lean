/-
The written form of a thickness.

A thickness is written as a record of its four edges, but it is read only from a
number or a text.  The value is read whole before its form is looked at, so a
complaint about it has no place of its own.
-/
import KeyLayout.Document.Reading
import KeyLayout.Json.Value

namespace KeyLayout

open Document

/-- A thickness as JSON, edge by edge. -/
def Thickness.toJson (t : Thickness) : Json.Value :=
  .record [("left", .float t.left), ("top", .float t.top), ("right", .float t.right),
    ("bottom", .float t.bottom)]

/-- A thickness, as a number or as a text. -/
def Document.Reading.thickness : Reading Thickness
  | depth, node => do
    match ← node.detach depth with
    | .scalar (.int n) _ _ => return .uniform (Float.ofInt n)
    | .scalar (.float x) _ _ => return .uniform x
    | .scalar (.text s) _ _ =>
      match Thickness.ofText s with
      | .ok t => return t
      | .error e => throw ⟨.thickness e, none⟩
    | _ => throw ⟨.noForm "ThicknessRepr", none⟩

end KeyLayout

/-
The grid that is shown when there is no keyboard to show.

It has four rows and four columns.  A heading stands in the middle of the top row,
the detail on the two rows below it, and a key that leads back at the bottom right;
blank keys fill the other cells.

```text
+------+-------------+------+
|      |   heading   |      |
+------+-------------+------+
|          detail           |
|                           |
+------+-------------+------+
|      |             | back |
+------+-------------+------+
```
-/
import KeyLayout.Catalog
import KeyLayout.KeyGrid.Layout

namespace KeyLayout.KeyGrid

/-- The key that leads back to the keyboard before. -/
def backKey (catalog : Catalog) : Key :=
  { Key.inert (.plain (catalog.string "BACK")) 1 1 with
    symbol := catalog.symbol? "BackIcon"
    value := .back }

/-- The keys of the error screen and their cells. -/
def errorKeys (heading detail : String) (catalog : Catalog) : List (Key × Cell) := [
  (.inert (.plain heading) 1 2, ⟨0, 1⟩),
  (.inert (.plain detail) 2 4, ⟨1, 0⟩),
  (backKey catalog, ⟨3, 3⟩),
  (.inert .blank 1 1, ⟨0, 0⟩),
  (.inert .blank 1 1, ⟨0, 3⟩),
  (.inert .blank 1 1, ⟨3, 0⟩),
  (.inert .blank 1 2, ⟨3, 1⟩)]

/-- The error screen with a heading and a detail. -/
def errorScreen (heading detail : String) (showOutputPanel : Bool) (catalog : Catalog) : KeyGrid :=
  (errorKeys heading detail catalog).foldl (fun grid (key, cell) => (grid.place key cell).grid)
    (ofTracks 4 4 showOutputPanel)

end KeyLayout.KeyGrid

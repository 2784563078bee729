/-
Laying out keys on a grid.

A new grid has tracks of one size.  With an output row the keys together are as many
times higher than that row as the grid has rows, so that all rows come out equally
high; without one, the output row has no height at all.

* `KeyGrid.ofTracks` makes the grid;
* `KeyGrid.setBorder` gives it a border and logs that;
* `KeyGrid.place` puts a key at a cell and logs when it takes the place of another.
-/
import KeyLayout.KeyGrid
import KeyLayout.Log

namespace KeyLayout.KeyGrid

/-- A grid of equal tracks without keys. -/
def ofTracks (rows cols : Int) (showOutputPanel : Bool) : KeyGrid :=
  blank (List.replicate rows.toNat (.star 1.0)) (List.replicate cols.toNat (.star 1.0))
    (if showOutputPanel then ⟨true, .star 1.0⟩ else ⟨false, .pixel 0.0⟩)
    (.star (if showOutputPanel then Float.ofInt rows else 1.0))

/-- Sets the border of a grid, if there is one to set. -/
def setBorder (grid : KeyGrid) : Option Thickness → KeyGrid × Log
  | none => (grid, [])
  | some t =>
    ({ grid with border := some t },
      [⟨.info, s!"Setting border thickness for custom keyboard: {t.text}"⟩])

/-- The grid for a definition with these dimensions and flags. -/
def forDefinition (dimensions : Dimensions) (flags : Flags) : KeyGrid × Log :=
  (ofTracks dimensions.rows dimensions.cols flags.showOutputPanel).setBorder flags.borderThickness

/-- What came of placing a key. -/
structure Placed where
  grid : KeyGrid
  /-- The key that was at the cell before. -/
  displaced : Option Key
  log : Log
deriving DecidableEq

/-- The event of a key that takes the place of another. -/
def replaced (cell : Cell) : LogEvent :=
  ⟨.warn, s!"Replaced key already anchored at {cell.text}"⟩

/-- Puts a key at a cell. -/
def place (grid : KeyGrid) (key : Key) (cell : Cell) : Placed :=
  match grid.insert (.of key cell) with
  | (grid, none) => ⟨grid, none, []⟩
  | (grid, some p) => ⟨grid, some p.key, [replaced cell]⟩

end KeyLayout.KeyGrid

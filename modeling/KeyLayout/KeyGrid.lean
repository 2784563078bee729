/-
The grid on which finished keys are placed.

A grid has tracks for its rows and columns, an output row above them, and the keys,
each at its anchor cell.  The placements stand in the order of their anchors, so
that the order in which keys were placed never shows, and an anchor holds one key
at most: `insert` replaces the key that was there and gives it back.

Both `insert` and `at?` find an anchor by halving.  `search` needs the anchors to
ascend; every grid that starts empty and is filled by `insert` has that property.
-/
import KeyLayout.Definition
import KeyLayout.Key

namespace KeyLayout

/-- The size of a track. -/
inductive TrackSize
  /-- A share of the space that is left. -/
  | star (weight : Float)
  /-- A fixed size. -/
  | pixel (size : Float)
deriving DecidableEq

/-- The row for output above the keys. -/
structure OutputRow where
  visible : Bool
  height : TrackSize
deriving DecidableEq

/-- A key at its anchor. -/
structure Placement where
  key : Key
  row : Int
  col : Int
  rowSpan : Int
  colSpan : Int
deriving DecidableEq

/-- The cell of a placed key. -/
def Placement.anchor (p : Placement) : Cell := ⟨p.row, p.col⟩

/-- A key at a cell, with the spans that it brings along. -/
def Placement.of (key : Key) (cell : Cell) : Placement :=
  ⟨key, cell.row, cell.col, key.rowSpan, key.colSpan⟩

structure KeyGrid where
  rowTracks : List TrackSize
  colTracks : List TrackSize
  outputRow : OutputRow
  /-- The height of all keys together, relative to the output row. -/
  keysHeight : TrackSize
  border : Option Thickness
  placements : List Placement
deriving DecidableEq

namespace KeyGrid

/-- A grid with these tracks and without keys. -/
def blank (rowTracks colTracks : List TrackSize) (outputRow : OutputRow) (keysHeight : TrackSize) :
    KeyGrid :=
  ⟨rowTracks, colTracks, outputRow, keysHeight, none, []⟩

/-- Halves a range of `size` placements from `base` on, down to the one that can hold the cell. -/
def narrow (placements : List Placement) (cell : Cell) : Nat → Nat → Nat → Nat
  | 0, base, _ => base
  | bound + 1, base, size =>
    if size ≤ 1 then base
    else
      let half := size / 2
      let middle := base + half
      let base :=
        match placements[middle]? with
        | some p => if p.anchor.compare cell = .gt then base else middle
        | none => base
      narrow placements cell bound base (size - half)

/-- Where a cell is among the anchors, or, as an error, where it would have to be put. -/
def search (placements : List Placement) (cell : Cell) : Except Nat Nat :=
  let index := narrow placements cell placements.length 0 placements.length
  match placements[index]? with
  | none => .error 0
  | some p =>
    match p.anchor.compare cell with
    | .eq => .ok index
    | .lt => .error (index + 1)
    | .gt => .error index

/-- Puts a placement at its anchor; gives back the one that was there. -/
def insert (grid : KeyGrid) (p : Placement) : KeyGrid × Option Placement :=
  match search grid.placements p.anchor with
  | .ok index => ({ grid with placements := grid.placements.set index p }, grid.placements[index]?)
  | .error index => ({ grid with placements := grid.placements.insertIdx index p }, none)

/-- The placement anchored at a cell. -/
def at? (grid : KeyGrid) (cell : Cell) : Option Placement :=
  match search grid.placements cell with
  | .ok index => grid.placements[index]?
  | .error _ => none

def rows (grid : KeyGrid) : Nat := grid.rowTracks.length

def cols (grid : KeyGrid) : Nat := grid.colTracks.length

end KeyGrid

end KeyLayout

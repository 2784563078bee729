/-
Which grids keep what is promised of them.

A grid promises that its anchors ascend, that a lookup finds what is anchored at a cell, and
that an insertion leaves one placement at its anchor (`Faithful`).  All of it follows from the
order of the anchors, and grids that are made without keys have it after any calls.

Grids can be read as well, and reading takes the placements as they are listed.  From then on
nothing repairs them: an insertion never takes an anchor away and never moves one past another
(`anchors_sublist`), so a grid is faithful after some calls exactly when it was listed in order
(`after_faithful_iff`).
-/
import Mathlib.Data.List.Induction
import Mathlib.Data.List.Infix
import Mathlib.Data.List.InsertIdx
import KeyLayout.Proofs.KeyGrid.Calls
import KeyLayout.Proofs.KeyGrid.Record

namespace KeyLayout

open Json

namespace KeyGrid

/-- What is promised of a grid. -/
structure Faithful (grid : KeyGrid) : Prop where
  /-- The anchors ascend, so an anchor has one placement at most. -/
  ordered : Ordered grid.placements
  /-- A lookup finds a placement where one is anchored, and nowhere else. -/
  at?_isSome : ∀ cell, (grid.at? cell).isSome ↔ ∃ p ∈ grid.placements, p.anchor = cell
  /-- After an insertion there is one placement at its anchor, the new one. -/
  insert : ∀ p, (grid.insert p).1.placements.filter (·.anchor = p.anchor) = [p]

/-! ### In order -/

/-- Of placements in order, those at an anchor are none or one. -/
theorem Ordered.filter_eq {ps : List Placement} (h : Ordered ps) {p : Placement} (hp : p ∈ ps) :
    ps.filter (·.anchor = p.anchor) = [p] := by
  obtain ⟨front, back, rfl⟩ := List.append_of_mem hp
  rw [Ordered, List.pairwise_append, List.pairwise_cons] at h
  obtain ⟨-, ⟨hback, -⟩, hfront⟩ := h
  have hnofront : front.filter (·.anchor = p.anchor) = [] := by
    rw [List.filter_eq_nil_iff]
    intro q hq
    simpa using Cell.ne_of_lt (hfront q hq p List.mem_cons_self)
  have hnoback : back.filter (·.anchor = p.anchor) = [] := by
    rw [List.filter_eq_nil_iff]
    intro q hq
    simpa using (Cell.ne_of_lt (hback q hq)).symm
  rw [List.filter_append, hnofront, List.filter_cons_of_pos (by simp), hnoback, List.nil_append]

theorem Ordered.faithful {grid : KeyGrid} (h : Ordered grid.placements) : Faithful grid where
  ordered := h
  at?_isSome cell := by
    rw [Option.isSome_iff_exists]
    constructor
    · rintro ⟨p, hp⟩
      exact ⟨p, (at?_eq_some_iff h).mp hp⟩
    · rintro ⟨p, hp⟩
      exact ⟨p, (at?_eq_some_iff h).mpr hp⟩
  insert p := (ordered_insert h p).filter_eq ((mem_insert h).mpr (.inl rfl))

/-! ### In any order -/

/-- What a search finds is at the cell, in whatever order the placements are. -/
theorem anchor_of_search {ps : List Placement} {cell : Cell} {index : Nat}
    (h : search ps cell = .ok index) : ∃ p, ps[index]? = some p ∧ p.anchor = cell := by
  rw [search] at h
  generalize narrow ps cell ps.length 0 ps.length = found at h
  rcases hget : ps[found]? with _ | p
  · simp [hget] at h
  · rcases hcmp : p.anchor.compare cell with _ | _ | _
    · simp [hget, hcmp] at h
    · have hindex : found = index := by simpa [hget, hcmp] using h
      exact ⟨p, hindex ▸ hget, Cell.compare_eq_eq.mp hcmp⟩
    · simp [hget, hcmp] at h

/-- An insertion keeps all anchors in the order in which they are. -/
theorem anchors_sublist (grid : KeyGrid) (p : Placement) :
    (grid.placements.map Placement.anchor).Sublist
      ((grid.insert p).1.placements.map Placement.anchor) := by
  rw [KeyGrid.insert]
  rcases hs : search grid.placements p.anchor with index | index
  · exact (List.sublist_insertIdx grid.placements index p).map _
  · -- the placement that is replaced has the anchor of the new one
    obtain ⟨old, hget, hold⟩ := anchor_of_search hs
    have hset : (grid.placements.set index p).map Placement.anchor =
        grid.placements.map Placement.anchor := by
      obtain ⟨hindex, rfl⟩ := List.getElem?_eq_some_iff.mp hget
      rw [List.map_set, ← hold, ← List.map_set, List.set_getElem_self]
    rw [hset]

theorem ordered_insert_iff {grid : KeyGrid} (p : Placement) :
    Ordered (grid.insert p).1.placements ↔ Ordered grid.placements := by
  constructor
  · intro h
    have hanchors := (List.pairwise_map.mpr h).sublist (anchors_sublist grid p)
    exact List.pairwise_map.mp hanchors
  · intro h
    exact ordered_insert h p

/-- Calls neither bring placements into disorder nor put them in order. -/
theorem ordered_after_iff {start : KeyGrid} (calls : List Call) :
    Ordered (start.after calls).placements ↔ Ordered start.placements := by
  induction calls using List.reverseRecOn with
  | nil => rfl
  | append_singleton calls call ih =>
    rw [after, List.foldl_concat, Call.run_grid, ordered_insert_iff]
    exact ih

/-- However many calls are made on it, a grid is as faithful as it is in order at the start. -/
theorem after_faithful_iff {start : KeyGrid} (calls : List Call) :
    Faithful (start.after calls) ↔ Ordered start.placements := by
  rw [← ordered_after_iff calls]
  constructor
  · intro h
    exact h.ordered
  · intro h
    exact h.faithful

/-- **A grid keeps its promises exactly when its placements started out in order.**  Grids made
without keys keep them after any calls.  A grid that is read keeps them if its text lists the
placements in ascending order, and otherwise breaks them after any calls; and placements are
read as they are listed, whatever their order, if the grid can be written at all. -/
theorem faithful_iff_listed_in_order (calls : List Call) :
    (∀ start, Fresh start → Faithful (start.after calls)) ∧
    (∀ text start, Json.read shape.read text = .ok start →
      (Faithful (start.after calls) ↔ Ordered start.placements)) ∧
    ∀ grid : KeyGrid, grid.Writable → grid.Plain → (∀ path ∈ grid.files, path.IsText) →
      ∃ json, grid.toJson = .ok json ∧
        ((∀ x, Value.Contains (.float x) json → (Decimal.marked? x).isSome → ReadsBack x) →
          Json.read shape.read (compact json) = .ok grid) := by
  refine ⟨fun start hstart => ?_, fun _ start _ => after_faithful_iff calls,
    fun grid hwritable hplain hfiles => ?_⟩
  · rw [after_faithful_iff, hstart.placements]
    exact List.Pairwise.nil
  · obtain ⟨json, hjson⟩ := exists_toJson_iff.mpr hfiles
    exact ⟨json, hjson, fun hnumbers =>
      (read_toJson hjson hwritable hnumbers Spacing.blank_none).1 hplain⟩

/-! ### Two keys -/

/-- A blank key at a cell. -/
def blankAt (row col : Int) : Placement := .of (.inert .blank 1 1) ⟨row, col⟩

/-- A grid without tracks that lists blank keys at two cells. -/
def listing (first second : Cell) : KeyGrid where
  rowTracks := []
  colTracks := []
  outputRow := ⟨false, .star 1.0⟩
  keysHeight := .star 1.0
  border := none
  placements := [blankAt first.row first.col, blankAt second.row second.col]

theorem listing_numbers {first second : Cell} {json : Value} {x : Float}
    (hjson : (listing first second).toJson = .ok json) (h : Value.Contains (.float x) json) :
    ReadsBack x := by
  have hx : x = 1.0 := by
    cases hjson
    simpa [listing, blankAt, Key.inert, Placement.of, TrackSize.toJson, tagged, OutputRow.toJson,
      orNull, KeyText.toJson] using h
  rw [hx]
  exact ⟨_, _, rfl⟩

theorem listing_plain (first second : Cell) : (listing first second).Plain := by
  refine ⟨rfl, fun p hp => ?_⟩
  simp only [listing, List.mem_cons, List.not_mem_nil, or_false] at hp
  rcases hp with rfl | rfl <;> rfl

theorem listing_files (first second : Cell) : ∀ path ∈ (listing first second).files, path.IsText := by
  intro path hpath
  simp [listing, files, blankAt, Placement.of, Key.inert, KeyValue.file?] at hpath

/-- Two rows of the first column. -/
theorem listing_writable {first second : Int} (hfirst : 0 ≤ first ∧ first ≤ 1)
    (hsecond : 0 ≤ second ∧ second ≤ 1) :
    (listing ⟨first, 0⟩ ⟨second, 0⟩).Writable := by
  refine ⟨by simp [listing], by simp [listing], rfl, rfl, fun p hp => ?_⟩
  simp only [listing, List.mem_cons, List.not_mem_nil, or_false] at hp
  rcases hp with rfl | rfl <;>
    refine ⟨⟨?_, ?_⟩, ?_, ?_, ?_, ?_⟩ <;> simp [blankAt, Placement.of, Key.inert] <;> omega

/-- Listed in order, two keys are read as a grid that keeps its promises, and still does when one
of them is replaced. -/
theorem faithful_iff_listed_in_order_ascending :
    let grid := listing ⟨0, 0⟩ ⟨1, 0⟩
    ∃ json, grid.toJson = .ok json ∧ Json.read shape.read (compact json) = .ok grid ∧
      Ordered grid.placements ∧ Faithful (grid.after [.insert (blankAt 1 0)]) := by
  intro grid
  obtain ⟨-, hafter, hread⟩ := faithful_iff_listed_in_order [.insert (blankAt 1 0)]
  obtain ⟨json, hjson, hgrid⟩ := hread grid (listing_writable (by omega) (by omega))
    (listing_plain _ _) (listing_files _ _)
  have hgrid := hgrid fun x hx _ => listing_numbers hjson hx
  have hordered : Ordered grid.placements := by
    simp [grid, Ordered, listing, blankAt, Cell.lt_iff]
  exact ⟨json, hjson, hgrid, hordered, (hafter _ grid hgrid).mpr hordered⟩

/-- Listed in descending order, two keys are read all the same.  The one at the greater anchor
is not found there, and inserting at its anchor leaves two placements with that anchor. -/
theorem listing_descending :
    let grid := listing ⟨1, 0⟩ ⟨0, 0⟩
    ∃ json, grid.toJson = .ok json ∧ Json.read shape.read (compact json) = .ok grid ∧
      ¬Ordered grid.placements ∧
      blankAt 1 0 ∈ grid.placements ∧ grid.at? ⟨1, 0⟩ = none ∧
      (grid.insert (blankAt 1 0)).1.placements.filter (·.anchor = ⟨1, 0⟩) =
        [blankAt 1 0, blankAt 1 0] := by
  intro grid
  obtain ⟨json, hjson⟩ := exists_toJson_iff.mpr (listing_files ⟨1, 0⟩ ⟨0, 0⟩)
  have hgrid : Json.read shape.read (compact json) = .ok grid :=
    (read_toJson hjson (listing_writable (by omega) (by omega))
      (fun x hx _ => listing_numbers hjson hx) Spacing.blank_none).1 (listing_plain _ _)
  have hordered : ¬Ordered grid.placements := by
    simp [grid, Ordered, listing, blankAt, Cell.lt_iff]
  exact ⟨json, hjson, hgrid, hordered, by decide, by decide, by decide⟩

end KeyGrid

end KeyLayout

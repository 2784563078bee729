/-
A grid reflects the calls that filled it.

A call is an insertion of a placement or the placing of a key.  However many calls are
made on a grid without keys, and in whatever order, the grid behaves as a table from
cells to placements:

* `Call.run_reflects`: one call keeps the order of the anchors, changes the placement at
  its own anchor and no other, and leaves tracks, output row and border alone;
* `after_reflects`: after calls in a row, each cell has the latest placement that was
  put there;
* `Call.run_answer`: what a call gives back is what was at its anchor just before.
-/
import KeyLayout.KeyGrid.Layout
import KeyLayout.Proofs.KeyGrid.Search

namespace KeyLayout

namespace KeyGrid

variable {grid : KeyGrid}

@[simp] theorem anchor_of (key : Key) (cell : Cell) : (Placement.of key cell).anchor = cell := rfl

/-! ### One insertion -/

theorem insertIdx_length (front back : List Placement) (p : Placement) :
    (front ++ back).insertIdx front.length p = front ++ p :: back := by
  induction front with
  | nil => simp
  | cons q front ih => simp [ih]

/-- What an insertion does: it replaces the placement at the anchor, or it puts one where none
was. -/
theorem insert_cases (h : Ordered grid.placements) (p : Placement) :
    (∃ front old back, grid.placements = front ++ old :: back ∧ old.anchor = p.anchor ∧
      grid.insert p = ({ grid with placements := front ++ p :: back }, some old)) ∨
    (∃ front back, grid.placements = front ++ back ∧ Splits p.anchor front back ∧
      grid.insert p = ({ grid with placements := front ++ p :: back }, none)) := by
  rcases search_cases h p.anchor with ⟨front, old, back, hps, hold, hs⟩ | ⟨front, back, hps, hsp, hs⟩
  · refine .inl ⟨front, old, back, hps, hold, ?_⟩
    rw [insert, hs, hps]
    simp
  · refine .inr ⟨front, back, hps, hsp, ?_⟩
    rw [insert, hs, hps]
    simp [insertIdx_length]

/-- The placement found at a cell is the one with that anchor. -/
theorem at?_eq_some_iff (h : Ordered grid.placements) {cell : Cell} {p : Placement} :
    grid.at? cell = some p ↔ p ∈ grid.placements ∧ p.anchor = cell := by
  rcases search_cases h cell with ⟨front, q, back, hps, hq, hs⟩ | ⟨front, back, hps, hsp, hs⟩
  · have hat : grid.at? cell = some q := by
      rw [at?, hs, hps]
      simp
    have hmem : q ∈ grid.placements := by simp [hps]
    rw [hat, Option.some_inj]
    constructor
    · rintro rfl
      exact ⟨hmem, hq⟩
    · rintro ⟨hp, hpc⟩
      exact h.eq_of_anchor hmem hp (hq.trans hpc.symm)
  · have hat : grid.at? cell = none := by rw [at?, hs]
    rw [hat]
    constructor
    · intro he
      cases he
    · rintro ⟨hp, rfl⟩
      rw [hps, List.mem_append] at hp
      rcases hp with hp | hp
      · exact absurd (hsp.1 p hp) (Cell.lt_irrefl _)
      · exact absurd (hsp.2 p hp) (Cell.lt_irrefl _)

/-- No placement is found at a cell that is no anchor. -/
theorem at?_eq_none_iff (h : Ordered grid.placements) {cell : Cell} :
    grid.at? cell = none ↔ ∀ p ∈ grid.placements, p.anchor ≠ cell := by
  rw [Option.eq_none_iff_forall_ne_some]
  constructor
  · intro hnone p hp hpc
    exact hnone p ((at?_eq_some_iff h).mpr ⟨hp, hpc⟩)
  · intro hall p hp
    obtain ⟨hmem, hpc⟩ := (at?_eq_some_iff h).mp hp
    exact hall p hmem hpc

/-- An insertion gives back what was at the anchor. -/
theorem insert_displaced (grid : KeyGrid) (p : Placement) :
    (grid.insert p).2 = grid.at? p.anchor := by
  rw [insert, at?]
  cases search grid.placements p.anchor <;> rfl

/-- An insertion changes nothing but the placements. -/
theorem insert_rest (grid : KeyGrid) (p : Placement) (ps : List Placement) :
    { (grid.insert p).1 with placements := ps } = { grid with placements := ps } := by
  rw [insert]
  cases search grid.placements p.anchor <;> rfl

theorem ordered_insert (h : Ordered grid.placements) (p : Placement) :
    Ordered (grid.insert p).1.placements := by
  rcases insert_cases h p with ⟨front, old, back, hps, hold, hi⟩ | ⟨front, back, hps, hsp, hi⟩
  · -- the old placement is as far from the others as the new one
    rw [hi]
    rw [hps, Ordered, List.pairwise_append, List.pairwise_cons] at h
    obtain ⟨hfront, ⟨hold_back, hback⟩, hcross⟩ := h
    refine List.pairwise_append.mpr
      ⟨hfront, List.pairwise_cons.mpr ⟨fun q hq => hold ▸ hold_back q hq, hback⟩, ?_⟩
    intro a ha b hb
    rcases List.mem_cons.mp hb with rfl | hb
    · exact hold ▸ hcross a ha old List.mem_cons_self
    · exact hcross a ha b (List.mem_cons_of_mem _ hb)
  · rw [hi]
    rw [hps, Ordered, List.pairwise_append] at h
    obtain ⟨hfront, hback, hcross⟩ := h
    refine List.pairwise_append.mpr ⟨hfront, List.pairwise_cons.mpr ⟨hsp.2, hback⟩, ?_⟩
    intro a ha b hb
    rcases List.mem_cons.mp hb with rfl | hb
    · exact hsp.1 a ha
    · exact hcross a ha b hb

/-- After an insertion the grid holds the placement and all those with other anchors. -/
theorem mem_insert (h : Ordered grid.placements) {p q : Placement} :
    q ∈ (grid.insert p).1.placements ↔ q = p ∨ (q ∈ grid.placements ∧ q.anchor ≠ p.anchor) := by
  rcases insert_cases h p with ⟨front, old, back, hps, hold, hi⟩ | ⟨front, back, hps, hsp, hi⟩
  · -- the old placement was the only one with its anchor
    have hothers : ∀ r ∈ front ++ back, r.anchor ≠ p.anchor := by
      rw [hps, Ordered, List.pairwise_append, List.pairwise_cons] at h
      obtain ⟨-, ⟨hold_back, -⟩, hcross⟩ := h
      intro r hr
      rcases List.mem_append.mp hr with hr | hr
      · exact hold ▸ Cell.ne_of_lt (hcross r hr old List.mem_cons_self)
      · exact hold ▸ (Cell.ne_of_lt (hold_back r hr)).symm
    rw [hi, hps]
    simp only [List.mem_append, List.mem_cons] at hothers ⊢
    constructor
    · rintro (hq | rfl | hq)
      · exact .inr ⟨.inl hq, hothers q (.inl hq)⟩
      · exact .inl rfl
      · exact .inr ⟨.inr (.inr hq), hothers q (.inr hq)⟩
    · rintro (rfl | ⟨hq | rfl | hq, hne⟩)
      · exact .inr (.inl rfl)
      · exact .inl hq
      · exact absurd hold hne
      · exact .inr (.inr hq)
  · rw [hi, hps]
    simp only [List.mem_append, List.mem_cons]
    constructor
    · rintro (hq | rfl | hq)
      · exact .inr ⟨.inl hq, Cell.ne_of_lt (hsp.1 q hq)⟩
      · exact .inl rfl
      · exact .inr ⟨.inr hq, (Cell.ne_of_lt (hsp.2 q hq)).symm⟩
    · rintro (rfl | ⟨hq | hq, -⟩)
      · exact .inr (.inl rfl)
      · exact .inl hq
      · exact .inr (.inr hq)

theorem at?_insert_self (h : Ordered grid.placements) (p : Placement) :
    (grid.insert p).1.at? p.anchor = some p :=
  (at?_eq_some_iff (ordered_insert h p)).mpr ⟨(mem_insert h).mpr (.inl rfl), rfl⟩

theorem at?_insert_of_ne (h : Ordered grid.placements) {p : Placement} {cell : Cell}
    (hne : cell ≠ p.anchor) : (grid.insert p).1.at? cell = grid.at? cell := by
  ext q
  rw [at?_eq_some_iff (ordered_insert h p), at?_eq_some_iff h, mem_insert h]
  constructor
  · rintro ⟨rfl | ⟨hq, -⟩, rfl⟩
    · exact absurd rfl hne
    · exact ⟨hq, rfl⟩
  · rintro ⟨hq, rfl⟩
    exact ⟨.inr ⟨hq, hne⟩, rfl⟩

/-! ### Placing a key -/

theorem place_grid (grid : KeyGrid) (key : Key) (cell : Cell) :
    (grid.place key cell).grid = (grid.insert (.of key cell)).1 := by
  rcases hi : grid.insert (.of key cell) with ⟨after, _ | p⟩ <;> simp [place, hi]

/-- Placing a key gives back the key that was at the cell. -/
theorem place_displaced (grid : KeyGrid) (key : Key) (cell : Cell) :
    (grid.place key cell).displaced = (grid.at? cell).map Placement.key := by
  have h := insert_displaced grid (.of key cell)
  rw [anchor_of] at h
  rcases hi : grid.insert (.of key cell) with ⟨after, _ | p⟩ <;> simp [place, ← h, hi]

/-- Placing a key is logged when it takes the place of another. -/
theorem place_log (grid : KeyGrid) (key : Key) (cell : Cell) :
    (grid.place key cell).log = if (grid.at? cell).isSome then [replaced cell] else [] := by
  have h := insert_displaced grid (.of key cell)
  rw [anchor_of] at h
  rcases hi : grid.insert (.of key cell) with ⟨after, _ | p⟩ <;> simp [place, ← h, hi]

/-! ### Calls in a row -/

/-- The grids that are made without keys. -/
inductive Fresh : KeyGrid → Prop
  | blank (rowTracks colTracks : List TrackSize) (outputRow : OutputRow) (keysHeight : TrackSize) :
    Fresh (.blank rowTracks colTracks outputRow keysHeight)
  | ofTracks (rows cols : Int) (showOutputPanel : Bool) :
    Fresh (.ofTracks rows cols showOutputPanel)
  | forDefinition (dimensions : Dimensions) (flags : Flags) :
    Fresh (forDefinition dimensions flags).1

theorem Fresh.placements {grid : KeyGrid} (h : Fresh grid) : grid.placements = [] := by
  cases h with
  | blank => rfl
  | ofTracks => rfl
  | forDefinition dimensions flags =>
    rw [KeyGrid.forDefinition]
    cases flags.borderThickness <;> rfl

/-- A call that puts a key on a grid. -/
inductive Call
  | insert (p : Placement)
  | place (key : Key) (cell : Cell)
deriving DecidableEq

/-- What a call gives back. -/
inductive Answer
  | inserted (displaced : Option Placement)
  | placed (displaced : Option Key) (log : Log)
deriving DecidableEq

namespace Call

/-- The placement that a call puts on the grid. -/
def placement : Call → Placement
  | insert p => p
  | place key cell => .of key cell

/-- The grid behind a call, and the answer. -/
def run (grid : KeyGrid) : Call → KeyGrid × Answer
  | insert p => ((grid.insert p).1, .inserted (grid.insert p).2)
  | place key cell =>
    ((grid.place key cell).grid,
      .placed (grid.place key cell).displaced (grid.place key cell).log)

/-- The answer of a call at whose anchor there was `before`. -/
def answer (before : Option Placement) : Call → Answer
  | insert _ => .inserted before
  | place _ cell => .placed (before.map Placement.key) (if before.isSome then [replaced cell] else [])

theorem run_grid (grid : KeyGrid) (call : Call) :
    (call.run grid).1 = (grid.insert call.placement).1 := by
  cases call with
  | insert p => rfl
  | place key cell => exact place_grid grid key cell

/-- A call gives back what was at its anchor just before. -/
theorem run_answer (grid : KeyGrid) (call : Call) :
    (call.run grid).2 = call.answer (grid.at? call.placement.anchor) := by
  cases call with
  | insert p => rw [run, answer, insert_displaced, placement]
  | place key cell => rw [run, answer, place_displaced, place_log, placement, anchor_of]

end Call

/-- The grid after some calls in a row. -/
def after (grid : KeyGrid) (calls : List Call) : KeyGrid :=
  calls.foldl (fun grid call => (call.run grid).1) grid

/-- The placement that the latest of some calls has put at a cell. -/
def latest? (calls : List Call) (cell : Cell) : Option Placement :=
  (calls.map Call.placement).reverse.find? (·.anchor = cell)

theorem latest?_concat (calls : List Call) (call : Call) (cell : Cell) :
    latest? (calls ++ [call]) cell =
      if call.placement.anchor = cell then some call.placement else latest? calls cell := by
  by_cases h : call.placement.anchor = cell <;> simp [latest?, h]

/-- Nothing is put where no call goes. -/
theorem latest?_eq_none {calls : List Call} {cell : Cell}
    (h : cell ∉ calls.map (·.placement.anchor)) : latest? calls cell = none := by
  rw [latest?, List.find?_eq_none]
  intro p hp hcell
  obtain ⟨call, hcall, rfl⟩ := List.mem_map.mp (List.mem_reverse.mp hp)
  exact h (of_decide_eq_true hcell ▸ List.mem_map_of_mem hcall)

/-- What is found at a cell was put there by some call. -/
theorem of_latest? {calls : List Call} {cell : Cell} {p : Placement}
    (h : latest? calls cell = some p) : p ∈ calls.map Call.placement ∧ p.anchor = cell := by
  have hcell := List.find?_some h
  exact ⟨List.mem_reverse.mp (List.mem_of_find?_eq_some h), of_decide_eq_true hcell⟩

/-- When all calls go to different cells, each of them is the latest at its own. -/
theorem latest?_eq_some_iff {calls : List Call} (h : (calls.map (·.placement.anchor)).Nodup)
    {cell : Cell} {p : Placement} :
    latest? calls cell = some p ↔ p ∈ calls.map Call.placement ∧ p.anchor = cell := by
  constructor
  · exact of_latest?
  · rintro ⟨hp, rfl⟩
    have hsome : (latest? calls p.anchor).isSome := by
      rw [latest?, List.find?_isSome]
      exact ⟨p, List.mem_reverse.mpr hp, decide_eq_true rfl⟩
    obtain ⟨q, hq⟩ := Option.isSome_iff_exists.mp hsome
    obtain ⟨hmem, hanchor⟩ := of_latest? hq
    have hnodup : ((calls.map Call.placement).map Placement.anchor).Nodup := by
      rwa [List.map_map]
    rw [hq, List.inj_on_of_nodup_map hnodup hmem hp hanchor]

/-- How a grid looks after some calls on `start`. -/
structure Reflects (start : KeyGrid) (calls : List Call) (grid : KeyGrid) : Prop where
  /-- The anchors ascend, so no two placements share one. -/
  ordered : Ordered grid.placements
  /-- Each cell has the placement that was put there last. -/
  at?_eq : ∀ cell, grid.at? cell = latest? calls cell
  /-- The grid holds no placement that cannot be found. -/
  mem_iff : ∀ p, p ∈ grid.placements ↔ latest? calls p.anchor = some p
  /-- Tracks, output row, height and border are those of the start. -/
  rest : { grid with placements := start.placements } = start

namespace Reflects

variable {start : KeyGrid} {calls : List Call} (h : Reflects start calls grid)
include h

theorem rowTracks : grid.rowTracks = start.rowTracks := by
  rw [← h.rest]

theorem colTracks : grid.colTracks = start.colTracks := by
  rw [← h.rest]

theorem outputRow : grid.outputRow = start.outputRow := by
  rw [← h.rest]

theorem keysHeight : grid.keysHeight = start.keysHeight := by
  rw [← h.rest]

theorem border : grid.border = start.border := by
  rw [← h.rest]

end Reflects

/-- When all calls go to different cells, the grid holds what they put there. -/
theorem Reflects.placements_perm {start : KeyGrid} {calls : List Call}
    (h : Reflects start calls grid) (hnodup : (calls.map (·.placement.anchor)).Nodup) :
    grid.placements.Perm (calls.map Call.placement) := by
  have hleft : grid.placements.Nodup := List.Nodup.of_map _ h.ordered.anchors_nodup
  have hright : (calls.map Call.placement).Nodup := by
    refine List.Nodup.of_map Placement.anchor ?_
    rwa [List.map_map]
  rw [List.perm_ext_iff_of_nodup hleft hright]
  intro p
  rw [h.mem_iff, latest?_eq_some_iff hnodup, and_iff_left rfl]

/-- Calls to different cells lead to one grid, in whatever order they are made. -/
theorem Reflects.eq_of_perm {start other : KeyGrid} {calls others : List Call}
    (h : Reflects start calls grid) (hother : Reflects start others other)
    (hperm : calls.Perm others) (hnodup : (calls.map (·.placement.anchor)).Nodup) :
    grid = other := by
  have hnodup' : (others.map (·.placement.anchor)).Nodup := (hperm.map _).nodup_iff.mp hnodup
  have hplacements : grid.placements = other.placements :=
    h.ordered.eq_of_perm hother.ordered <|
      (h.placements_perm hnodup).trans <|
        (hperm.map Call.placement).trans (hother.placements_perm hnodup').symm
  calc grid = { start with placements := grid.placements } := by rw [← h.rest]
    _ = { start with placements := other.placements } := by rw [hplacements]
    _ = other := by rw [← hother.rest]

/-- Before any call, a grid without keys reflects that there was none. -/
theorem reflects_of_empty {start : KeyGrid} (h : start.placements = []) :
    Reflects start [] start := by
  have ho : Ordered start.placements := by
    rw [h]
    exact List.Pairwise.nil
  refine ⟨ho, fun cell => ?_, fun p => by simp [h, latest?], rfl⟩
  rw [show latest? [] cell = none from rfl, at?_eq_none_iff ho, h]
  simp

theorem Fresh.reflects {start : KeyGrid} (h : Fresh start) : Reflects start [] start :=
  reflects_of_empty h.placements

/-- One more call. -/
theorem Call.run_reflects {start : KeyGrid} {calls : List Call} (h : Reflects start calls grid)
    (call : Call) : Reflects start (calls ++ [call]) (call.run grid).1 := by
  -- the call is the latest at its own anchor and at no other cell
  have hat : ∀ cell, (call.run grid).1.at? cell = latest? (calls ++ [call]) cell := by
    intro cell
    rw [latest?_concat, run_grid]
    by_cases hc : call.placement.anchor = cell
    · rw [if_pos hc, ← hc, at?_insert_self h.ordered]
    · rw [if_neg hc, at?_insert_of_ne h.ordered (Ne.symm hc), h.at?_eq]
  have ho : Ordered (call.run grid).1.placements := by
    rw [run_grid]
    exact ordered_insert h.ordered _
  refine ⟨ho, hat, fun p => ?_, ?_⟩
  · rw [← hat, at?_eq_some_iff ho, and_iff_left rfl]
  · rw [run_grid, insert_rest]
    exact h.rest

theorem Reflects.after {start : KeyGrid} {calls : List Call} (h : Reflects start calls grid)
    (more : List Call) : Reflects start (calls ++ more) (grid.after more) := by
  induction more generalizing grid calls with
  | nil => simpa [KeyGrid.after] using h
  | cons call more ih => simpa [KeyGrid.after] using ih (call.run_reflects h)

theorem after_eq_of_perm {start : KeyGrid} (hstart : start.placements = [])
    {calls others : List Call} (hperm : calls.Perm others)
    (hnodup : (calls.map (·.placement.anchor)).Nodup) :
    start.after calls = start.after others :=
  ((reflects_of_empty hstart).after calls).eq_of_perm ((reflects_of_empty hstart).after others)
    hperm hnodup

/-- **A grid is a table from cells to placements.**  At every point of a run of calls on a grid
that was made without keys, the anchors ascend, each cell has the latest placement that was put
there, and nothing but the placements has changed; the next call answers with what is at its
anchor and changes no other cell. -/
theorem after_reflects {start : KeyGrid} (hstart : Fresh start) (calls : List Call) (n : Nat) :
    Reflects start (calls.take n) (start.after (calls.take n)) ∧
    ∀ call, calls[n]? = some call →
      (call.run (start.after (calls.take n))).2 =
        call.answer ((start.after (calls.take n)).at? call.placement.anchor) ∧
      ∀ cell, cell ≠ call.placement.anchor →
        (call.run (start.after (calls.take n))).1.at? cell =
          (start.after (calls.take n)).at? cell := by
  have h : Reflects start (calls.take n) (start.after (calls.take n)) :=
    hstart.reflects.after (calls.take n)
  refine ⟨h, fun call _ => ⟨call.run_answer _, fun cell hne => ?_⟩⟩
  rw [call.run_grid, at?_insert_of_ne h.ordered hne]

/-- The third call comes to the anchor of the first and is answered with the key that was there. -/
theorem after_reflects_repeated_anchor :
    let a : Key := .inert (.plain "a") 1 1
    let b : Key := .inert (.plain "b") 1 2
    let c : Key := .inert (.plain "c") 2 1
    let calls : List Call := [.insert (.of a ⟨-1, 2⟩), .place b ⟨0, 0⟩, .place c ⟨-1, 2⟩]
    ((ofTracks 2 2 true).after calls).at? ⟨-1, 2⟩ = some (.of c ⟨-1, 2⟩) ∧
    ((ofTracks 2 2 true).after calls).at? ⟨1, 1⟩ = none ∧
    (Call.run ((ofTracks 2 2 true).after (calls.take 2)) (.place c ⟨-1, 2⟩)).2 =
      .placed (some a) [replaced ⟨-1, 2⟩] := by
  intro a b c calls
  obtain ⟨hall, -⟩ := after_reflects (.ofTracks 2 2 true) calls 3
  obtain ⟨htwo, hnext⟩ := after_reflects (.ofTracks 2 2 true) calls 2
  have hanswer := (hnext (.place c ⟨-1, 2⟩) rfl).1
  rw [htwo.at?_eq] at hanswer
  exact ⟨(hall.at?_eq _).trans (by decide), (hall.at?_eq _).trans (by decide),
    hanswer.trans (by decide)⟩

end KeyGrid

end KeyLayout

/-
Finding an anchor among placements in the order of their anchors.

`KeyGrid.search` halves the range in which a cell can be anchored until one placement
is left.  While the placements ascend, that range never loses the cell
(`Bracket.narrow`), so there are two outcomes only (`search_cases`): the placement
with that anchor, or the one place where a placement with that anchor keeps the order.
-/
import Mathlib.Data.List.Nodup
import KeyLayout.KeyGrid

namespace KeyLayout

namespace Cell

/-- Cells ascend by row, and in a row by column. -/
instance : LT Cell := ⟨fun a b => a.row < b.row ∨ (a.row = b.row ∧ a.col < b.col)⟩

theorem lt_iff {a b : Cell} : a < b ↔ a.row < b.row ∨ (a.row = b.row ∧ a.col < b.col) := Iff.rfl

theorem eq_iff {a b : Cell} : a = b ↔ a.row = b.row ∧ a.col = b.col := by
  cases a
  cases b
  simp

theorem lt_irrefl (a : Cell) : ¬a < a := by
  rw [lt_iff]
  omega

theorem lt_trans {a b c : Cell} (hab : a < b) (hbc : b < c) : a < c := by
  rw [lt_iff] at *
  omega

theorem ne_of_lt {a b : Cell} (h : a < b) : a ≠ b := fun e => lt_irrefl b (e ▸ h)

theorem compare_eq_lt {a b : Cell} : a.compare b = .lt ↔ a < b := by
  rw [lt_iff, Cell.compare, Ordering.then_eq_lt, Int.compare_eq_lt, Int.compare_eq_eq,
    Int.compare_eq_lt]

theorem compare_eq_gt {a b : Cell} : a.compare b = .gt ↔ b < a := by
  rw [lt_iff, Cell.compare, Ordering.then_eq_gt, Int.compare_eq_gt, Int.compare_eq_eq,
    Int.compare_eq_gt]
  omega

theorem compare_eq_eq {a b : Cell} : a.compare b = .eq ↔ a = b := by
  rw [eq_iff, Cell.compare, Ordering.then_eq_eq, Int.compare_eq_eq, Int.compare_eq_eq]

end Cell

namespace KeyGrid

/-- Placements whose anchors ascend, so that no anchor occurs twice. -/
def Ordered (ps : List Placement) : Prop := ps.Pairwise fun p q => p.anchor < q.anchor

theorem Ordered.anchors_nodup {ps : List Placement} (h : Ordered ps) :
    (ps.map Placement.anchor).Nodup :=
  List.pairwise_map.mpr (h.imp Cell.ne_of_lt)

/-- Placements further on have greater anchors. -/
theorem Ordered.anchor_lt {ps : List Placement} (h : Ordered ps) {i j : Nat} (hij : i < j)
    {p q : Placement} (hp : ps[i]? = some p) (hq : ps[j]? = some q) : p.anchor < q.anchor := by
  obtain ⟨hi, rfl⟩ := List.getElem?_eq_some_iff.mp hp
  obtain ⟨hj, rfl⟩ := List.getElem?_eq_some_iff.mp hq
  exact List.pairwise_iff_getElem.mp h i j hi hj hij

/-- A placement is known by its anchor. -/
theorem Ordered.eq_of_anchor {ps : List Placement} (h : Ordered ps) {p q : Placement}
    (hp : p ∈ ps) (hq : q ∈ ps) (e : p.anchor = q.anchor) : p = q :=
  List.inj_on_of_nodup_map h.anchors_nodup hp hq e

/-- The order of the anchors leaves no choice how placements stand. -/
theorem Ordered.eq_of_perm {ps qs : List Placement} (hps : Ordered ps) (hqs : Ordered qs)
    (h : ps.Perm qs) : ps = qs :=
  h.eq_of_pairwise (fun _ _ _ _ hab hba => absurd (Cell.lt_trans hab hba) (Cell.lt_irrefl _))
    hps hqs

/-- A range of placements outside of which the cell cannot be anchored. -/
structure Bracket (ps : List Placement) (cell : Cell) (low high : Nat) : Prop where
  /-- The range starts at the front, or with a placement that is not behind the cell. -/
  below : low = 0 ∨ ∃ p, ps[low]? = some p ∧ ¬cell < p.anchor
  /-- All placements from its end on are behind the cell. -/
  above : ∀ i p, high ≤ i → ps[i]? = some p → cell < p.anchor

/-- Halving a bracket leaves a bracket of at most one placement. -/
theorem Bracket.narrow {ps : List Placement} (hps : Ordered ps) {cell : Cell} :
    ∀ {bound base size : Nat}, size ≤ bound + 1 → base + size ≤ ps.length →
      Bracket ps cell base (base + size) →
      Bracket ps cell (narrow ps cell bound base size) (narrow ps cell bound base size + 1) := by
  intro bound
  induction bound with
  | zero =>
    intro base size hsize _ h
    rw [KeyGrid.narrow]
    exact ⟨h.below, fun i p hi => h.above i p (by omega)⟩
  | succ bound ih =>
    intro base size hsize hlen h
    rw [KeyGrid.narrow]
    split
    · exact ⟨h.below, fun i p hi => h.above i p (by omega)⟩
    · have hmiddle : base + size / 2 < ps.length := by omega
      have hget : ps[base + size / 2]? = some ps[base + size / 2] :=
        List.getElem?_eq_getElem hmiddle
      simp only [hget]
      by_cases hgt : cell < ps[base + size / 2].anchor
      · -- the middle is behind the cell, and so is everything after the middle
        rw [if_pos (Cell.compare_eq_gt.mpr hgt)]
        refine ih (by omega) (by omega) ⟨h.below, fun i p hi hp => ?_⟩
        rcases Nat.lt_or_eq_of_le (show base + size / 2 ≤ i by omega) with hlt | rfl
        · exact Cell.lt_trans hgt (hps.anchor_lt hlt hget hp)
        · rw [hget, Option.some_inj] at hp
          exact hp ▸ hgt
      · -- the middle is not behind the cell, so the range starts there
        rw [if_neg (mt Cell.compare_eq_gt.mp hgt)]
        exact ih (by omega) (by omega)
          ⟨.inr ⟨_, hget, hgt⟩, fun i p hi => h.above i p (by omega)⟩

/-- Where the search ends, nothing further on can have the anchor. -/
theorem bracket_narrow {ps : List Placement} (hps : Ordered ps) (cell : Cell) :
    Bracket ps cell (narrow ps cell ps.length 0 ps.length)
      (narrow ps cell ps.length 0 ps.length + 1) := by
  refine Bracket.narrow hps (by omega) (by omega) ⟨.inl rfl, fun i p hi hp => ?_⟩
  have := (List.getElem?_eq_some_iff.mp hp).choose
  omega

/-- A place that splits the placements into those before a cell and those behind it. -/
def Splits (cell : Cell) (front back : List Placement) : Prop :=
  (∀ q ∈ front, q.anchor < cell) ∧ ∀ q ∈ back, cell < q.anchor

theorem splits_take_drop {ps : List Placement} {cell : Cell} {k : Nat}
    (hfront : ∀ i q, i < k → ps[i]? = some q → q.anchor < cell)
    (hback : ∀ i q, k ≤ i → ps[i]? = some q → cell < q.anchor) :
    Splits cell (ps.take k) (ps.drop k) := by
  constructor
  · intro q hq
    obtain ⟨i, hi, rfl⟩ := List.mem_take_iff_getElem.mp hq
    exact hfront i _ (by omega) (List.getElem?_eq_getElem _)
  · intro q hq
    obtain ⟨i, hi, rfl⟩ := List.mem_drop_iff_getElem.mp hq
    exact hback _ _ (by omega) (List.getElem?_eq_getElem _)

/-- What a search can find: the placement with the anchor, or the place for one. -/
theorem search_cases {ps : List Placement} (hps : Ordered ps) (cell : Cell) :
    (∃ front p back, ps = front ++ p :: back ∧ p.anchor = cell ∧
      search ps cell = .ok front.length) ∨
    (∃ front back, ps = front ++ back ∧ Splits cell front back ∧
      search ps cell = .error front.length) := by
  have hb := bracket_narrow hps cell
  rw [search]
  generalize narrow ps cell ps.length 0 ps.length = index at hb ⊢
  rcases hget : ps[index]? with _ | p
  · -- only an empty grid has no placement there
    obtain rfl : index = 0 := by
      rcases hb.below with h | ⟨p, hp, _⟩
      · exact h
      · rw [hget] at hp
        cases hp
    have hnil : ps = [] := by simpa using hget
    exact .inr ⟨[], [], by simpa using hnil, ⟨by simp, by simp⟩, rfl⟩
  · have hlt : index < ps.length := (List.getElem?_eq_some_iff.mp hget).choose
    have hlength : (ps.take index).length = index := by
      rw [List.length_take]
      omega
    rcases hcmp : p.anchor.compare cell with _ | _ | _
    · -- the cell comes right behind the placement that was found
      have hp := Cell.compare_eq_lt.mp hcmp
      refine .inr ⟨ps.take (index + 1), ps.drop (index + 1), by rw [List.take_append_drop],
        splits_take_drop (fun i q hi hq => ?_) hb.above, ?_⟩
      · rcases Nat.lt_or_eq_of_le (Nat.le_of_lt_succ hi) with hi | rfl
        · exact Cell.lt_trans (hps.anchor_lt hi hq hget) hp
        · rw [hget, Option.some_inj] at hq
          exact hq ▸ hp
      · simp only [hcmp, Except.error.injEq]
        rw [List.length_take]
        omega
    · refine .inl ⟨ps.take index, p, ps.drop (index + 1), ?_, Cell.compare_eq_eq.mp hcmp, ?_⟩
      · obtain ⟨h, rfl⟩ := List.getElem?_eq_some_iff.mp hget
        rw [List.getElem_cons_drop, List.take_append_drop]
      · simp only [hcmp, hlength]
    · -- the placement that was found is behind the cell, so it is the first of all
      have hp := Cell.compare_eq_gt.mp hcmp
      obtain rfl : index = 0 := by
        rcases hb.below with h | ⟨q, hq, hnot⟩
        · exact h
        · rw [hget, Option.some_inj] at hq
          exact absurd hp (hq ▸ hnot)
      refine .inr ⟨[], ps, rfl, ⟨by simp, fun q hq => ?_⟩, by simp only [hcmp, List.length_nil]⟩
      obtain ⟨i, hi, rfl⟩ := List.mem_iff_getElem.mp hq
      rcases Nat.eq_zero_or_pos i with rfl | hpos
      · rw [List.getElem?_eq_getElem hi, Option.some_inj] at hget
        exact hget ▸ hp
      · exact hb.above i _ hpos (List.getElem?_eq_getElem hi)

end KeyGrid

end KeyLayout

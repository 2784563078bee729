/-
Which definitions can be built.

Grouping keys by anchor (`AnchorGroup.ofSpecs`) gives one group for each anchor, in the
order in which the anchors first appear, and each group holds all keys of its anchor in
their order (`ofSpecs_eq`).  The conflicts are therefore the anchors that several keys
share, each once and with the names of all its keys (`mem_conflicts`); there is none exactly
when no anchor occurs twice (`conflicts_eq_nil_iff`).  A definition is valid exactly when it
has dimensions of at least one, a key, and no anchor twice (`validate_eq_ok_iff`).
-/
import Mathlib.Data.List.Nodup
import Mathlib.Data.List.Count
import Mathlib.Data.List.Induction
import KeyLayout.Definition.Defect

namespace KeyLayout

namespace AnchorGroup

/-- The keys with one anchor. -/
def keysAt (specs : List KeySpec) (anchor : Cell) : List KeySpec := specs.filter (·.anchor = anchor)

theorem keysAt_concat (specs : List KeySpec) (spec : KeySpec) (anchor : Cell) :
    keysAt (specs ++ [spec]) anchor =
      if spec.anchor = anchor then keysAt specs anchor ++ [spec] else keysAt specs anchor := by
  by_cases h : spec.anchor = anchor <;> simp [AnchorGroup.keysAt, h]

theorem length_keysAt (specs : List KeySpec) (anchor : Cell) :
    (keysAt specs anchor).length = (specs.map KeySpec.anchor).count anchor := by
  rw [keysAt, ← List.countP_eq_length_filter, List.count, List.countP_map]
  refine List.countP_congr fun s _ => ?_
  simp

theorem keysAt_eq_nil {specs : List KeySpec} {anchor : Cell}
    (h : anchor ∉ specs.map KeySpec.anchor) : keysAt specs anchor = [] := by
  rw [keysAt, List.filter_eq_nil_iff]
  intro s hs hanchor
  exact h (of_decide_eq_true hanchor ▸ List.mem_map_of_mem hs)

/-- A key with an anchor that has a group is added to that group. -/
theorem add_of_mem {spec : KeySpec} {keys : Cell → List KeySpec} {anchors : List Cell}
    (hmem : spec.anchor ∈ anchors) (hnodup : anchors.Nodup) :
    add spec (anchors.map fun a => ⟨a, keys a⟩) =
      anchors.map fun a => ⟨a, if spec.anchor = a then keys a ++ [spec] else keys a⟩ := by
  induction anchors with
  | nil => cases hmem
  | cons a anchors ih =>
    obtain ⟨hnot, hnodup⟩ := List.nodup_cons.mp hnodup
    rw [List.map_cons, add]
    by_cases ha : a = spec.anchor
    · rw [if_pos ha, List.map_cons, if_pos ha.symm]
      congr 1
      refine List.map_congr_left fun b hb => ?_
      rw [if_neg]
      rintro rfl
      exact hnot (ha ▸ hb)
    · have hmem : spec.anchor ∈ anchors :=
        (List.mem_cons.mp hmem).resolve_left (Ne.symm ha)
      rw [if_neg ha, ih hmem hnodup, List.map_cons, if_neg (Ne.symm ha)]

/-- A key with a new anchor makes a group behind the others. -/
theorem add_of_not_mem {spec : KeySpec} {groups : List AnchorGroup}
    (h : ∀ g ∈ groups, g.anchor ≠ spec.anchor) :
    add spec groups = groups ++ [⟨spec.anchor, [spec]⟩] := by
  induction groups with
  | nil => rfl
  | cons g groups ih =>
    rw [add, if_neg (h g List.mem_cons_self),
      ih fun g hg => h g (List.mem_cons_of_mem _ hg), List.cons_append]

/-- A further anchor counts only if it is new. -/
theorem eraseDups_concat (anchors : List Cell) (a : Cell) :
    (anchors ++ [a]).eraseDups =
      if a ∈ anchors then anchors.eraseDups else anchors.eraseDups ++ [a] := by
  rw [List.eraseDups_append]
  by_cases h : a ∈ anchors <;> simp [List.removeAll, List.eraseDups_cons, h]

theorem nodup_eraseDups (anchors : List Cell) : anchors.eraseDups.Nodup := by
  induction anchors using List.reverseRecOn with
  | nil => exact List.nodup_nil
  | append_singleton anchors a ih =>
    rw [eraseDups_concat]
    split
    · exact ih
    · rename_i h
      refine List.Nodup.append ih (List.nodup_singleton a) ?_
      intro b hb hba
      rw [List.mem_eraseDups] at hb
      exact h (List.mem_singleton.mp hba ▸ hb)

/-- The groups of some keys: one for each anchor, as the anchors first appear. -/
theorem ofSpecs_eq (specs : List KeySpec) :
    ofSpecs specs = (specs.map KeySpec.anchor).eraseDups.map fun a => ⟨a, keysAt specs a⟩ := by
  induction specs using List.reverseRecOn with
  | nil => rfl
  | append_singleton specs spec ih =>
    have hstep : ofSpecs (specs ++ [spec]) = add spec (ofSpecs specs) := by simp [ofSpecs]
    rw [hstep, ih, List.map_append, List.map_singleton, eraseDups_concat]
    split
    · -- the anchor has a group already
      rename_i h
      rw [add_of_mem (List.mem_eraseDups.mpr h) (nodup_eraseDups _)]
      exact List.map_congr_left fun a _ => by rw [keysAt_concat]
    · -- the anchor is new, so no other group changes
      rename_i h
      have hkeep : ∀ a ∈ (specs.map KeySpec.anchor).eraseDups,
          (⟨a, keysAt specs a⟩ : AnchorGroup) = ⟨a, keysAt (specs ++ [spec]) a⟩ := by
        intro a ha
        rw [keysAt_concat, if_neg]
        rintro rfl
        exact h (List.mem_eraseDups.mp ha)
      rw [add_of_not_mem, List.map_append, List.map_congr_left hkeep]
      · simp [keysAt_concat, keysAt_eq_nil h]
      · intro g hg hanchor
        obtain ⟨a, ha, rfl⟩ := List.mem_map.mp hg
        exact h (hanchor ▸ List.mem_eraseDups.mp ha)

end AnchorGroup

open AnchorGroup (keysAt)

/-- What the keys at one anchor are called; a key without a name has an empty one. -/
def namesAt (specs : List KeySpec) (anchor : Cell) : List String :=
  (keysAt specs anchor).map fun spec => spec.identifier.getD ""

/-- The conflicts of some keys: the anchors with several keys, as they first appear. -/
theorem conflicts_eq (specs : List KeySpec) :
    conflicts specs =
      ((specs.map KeySpec.anchor).eraseDups.filter fun a => 1 < (namesAt specs a).length).map
        fun a => ⟨a, namesAt specs a⟩ := by
  rw [conflicts, AnchorGroup.ofSpecs_eq]
  induction (specs.map KeySpec.anchor).eraseDups with
  | nil => rfl
  | cons a anchors ih =>
    have hlength : (namesAt specs a).length = (keysAt specs a).length := List.length_map _
    rw [List.map_cons, List.filterMap_cons, AnchorGroup.conflict?, List.filter_cons, hlength]
    by_cases h : 1 < (keysAt specs a).length
    · rw [if_pos h, if_pos (decide_eq_true h), ih]
      rfl
    · rw [if_neg h, if_neg (mt of_decide_eq_true h), ih]

/-- A conflict is an anchor that several keys have, with the names of all these keys. -/
theorem mem_conflicts {specs : List KeySpec} {c : Conflict} :
    c ∈ conflicts specs ↔ 1 < c.keys.length ∧ c.keys = namesAt specs c.anchor := by
  obtain ⟨anchor, keys⟩ := c
  rw [conflicts_eq, List.mem_map]
  constructor
  · rintro ⟨a, ha, hc⟩
    obtain ⟨rfl, rfl⟩ := Conflict.mk.inj hc
    exact ⟨of_decide_eq_true (List.mem_filter.mp ha).2, rfl⟩
  · rintro ⟨hlength, hkeys⟩
    dsimp only at hlength hkeys
    subst hkeys
    refine ⟨anchor, List.mem_filter.mpr ⟨?_, decide_eq_true hlength⟩, rfl⟩
    -- an anchor with names is the anchor of a key
    obtain ⟨name, hname⟩ := List.exists_mem_of_length_pos (Nat.lt_of_succ_lt hlength)
    obtain ⟨spec, hspec, -⟩ := List.mem_map.mp hname
    obtain ⟨hmem, hanchor⟩ := List.mem_filter.mp hspec
    exact List.mem_eraseDups.mpr (of_decide_eq_true hanchor ▸ List.mem_map_of_mem hmem)

/-- No anchor is reported twice. -/
theorem conflicts_anchors_nodup (specs : List KeySpec) :
    ((conflicts specs).map Conflict.anchor).Nodup := by
  rw [conflicts_eq, List.map_map]
  have hid : (Conflict.anchor ∘ fun a => ⟨a, namesAt specs a⟩) = id := rfl
  rw [hid, List.map_id]
  exact (AnchorGroup.nodup_eraseDups _).filter _

/-- Keys are in conflict unless all anchors differ. -/
theorem conflicts_eq_nil_iff (specs : List KeySpec) :
    conflicts specs = [] ↔ (specs.map KeySpec.anchor).Nodup := by
  rw [conflicts, AnchorGroup.ofSpecs_eq, List.filterMap_map, List.filterMap_eq_nil_iff,
    List.nodup_iff_count_le_one]
  simp only [List.mem_eraseDups, Function.comp_apply, AnchorGroup.conflict?,
    AnchorGroup.length_keysAt]
  constructor
  · intro h a
    by_cases ha : a ∈ specs.map KeySpec.anchor
    · by_contra hlt
      have := h a ha
      rw [if_pos (by omega)] at this
      cases this
    · rw [List.count_eq_zero_of_not_mem ha]
      omega
  · intro h a _
    have := h a
    rw [if_neg (by omega)]

theorem KeySet.length_specs (keys : KeySet) : keys.specs.length = keys.size := by
  simp only [specs, size, List.length_append, List.length_map]

namespace Definition

theorem length_specs (d : Definition) : d.specs.length = d.keyCount := by
  rw [specs, keyCount]
  cases d.keys with
  | none => rfl
  | some keys => exact keys.length_specs

/-- A definition is valid if it has a grid, keys, and no two keys with one anchor. -/
theorem validate_eq_ok_iff {d : Definition} {dimensions : Dimensions} :
    d.validate = .ok dimensions ↔
      d.dimensions = some dimensions ∧ d.keyCount ≠ 0 ∧ 1 ≤ dimensions.rows ∧
        1 ≤ dimensions.cols ∧ (d.specs.map KeySpec.anchor).Nodup := by
  rw [validate, ← conflicts_eq_nil_iff]
  rcases d.dimensions with _ | size
  · simp
  · rw [Option.some_inj]
    dsimp only
    by_cases hkeys : d.keyCount = 0
    · simp [hkeys]
    rw [if_neg hkeys]
    by_cases hsize : size.rows < 1 ∨ size.cols < 1
    · rw [if_pos hsize]
      constructor
      · intro h
        cases h
      · rintro ⟨rfl, -, hrows, hcols, -⟩
        omega
    · rw [if_neg hsize]
      rcases hfound : conflicts d.specs with _ | ⟨c, cs⟩
      · constructor
        · intro h
          cases h
          exact ⟨rfl, hkeys, by omega, by omega, rfl⟩
        · rintro ⟨rfl, -⟩
          rfl
      · simp

end Definition

end KeyLayout

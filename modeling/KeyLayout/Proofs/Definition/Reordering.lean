/-
The order of the keys in a definition.

Two definitions are `Reordered` when they differ at most in the order of the keys within
each category.  Validation does not look at that order: both are valid, or both have the
same kind of defect (`Definition.Reordered.validate`).  Conflicts are reported at the same
anchors with the same names, though not always in the same order.
-/
import Mathlib.Data.Option.Basic
import KeyLayout.Proofs.Definition.Validity

namespace KeyLayout

open AnchorGroup (keysAt)

/-- Each category holds the same keys. -/
structure KeySet.Reordered (keys others : KeySet) : Prop where
  action : keys.action.Perm others.action
  text : keys.text.Perm others.text
  link : keys.link.Perm others.link
  plugin : keys.plugin.Perm others.plugin

theorem KeySet.Reordered.specs {keys others : KeySet} (h : keys.Reordered others) :
    keys.specs.Perm others.specs :=
  (((h.action.map _).append (h.text.map _)).append (h.link.map _)).append (h.plugin.map _)

/-- The definitions differ at most in the order of the keys within each category. -/
structure Definition.Reordered (d e : Definition) : Prop where
  dimensions : d.dimensions = e.dimensions
  flags : d.flags = e.flags
  keys : Option.Rel KeySet.Reordered d.keys e.keys

/-- The defects are of one kind; conflicts are at the same anchors, each of them once, and of keys
with the same names. -/
inductive Defect.Alike : Defect → Defect → Prop
  | noGrid : Alike .noGrid .noGrid
  | noKeys : Alike .noKeys .noKeys
  | badDimensions (size : Dimensions) : Alike (.badDimensions size) (.badDimensions size)
  | conflicting {found others : List Conflict}
      (anchors : (found.map Conflict.anchor).Perm (others.map Conflict.anchor))
      (once : (found.map Conflict.anchor).Nodup)
      (names : ∀ c ∈ found, ∀ o ∈ others, c.anchor = o.anchor → c.keys.Perm o.keys) :
      Alike (.conflicting found) (.conflicting others)

section conflicts

variable {specs others : List KeySpec} (h : specs.Perm others)
include h

theorem namesAt_perm (anchor : Cell) : (namesAt specs anchor).Perm (namesAt others anchor) :=
  (h.filter _).map _

theorem conflict_anchor_mem {anchor : Cell}
    (hanchor : anchor ∈ (conflicts specs).map Conflict.anchor) :
    anchor ∈ (conflicts others).map Conflict.anchor := by
  obtain ⟨c, hc, rfl⟩ := List.mem_map.mp hanchor
  obtain ⟨hlength, hkeys⟩ := mem_conflicts.mp hc
  rw [hkeys, (namesAt_perm h c.anchor).length_eq] at hlength
  have hother : ⟨c.anchor, namesAt others c.anchor⟩ ∈ conflicts others :=
    mem_conflicts.mpr ⟨hlength, rfl⟩
  exact List.mem_map.mpr ⟨_, hother, rfl⟩

/-- The conflicts do not depend on the order of the keys, apart from their own order. -/
theorem conflicts_alike :
    Defect.Alike (.conflicting (conflicts specs)) (.conflicting (conflicts others)) := by
  refine .conflicting ?_ (conflicts_anchors_nodup specs) fun c hc o ho hanchor => ?_
  · rw [List.perm_ext_iff_of_nodup (conflicts_anchors_nodup specs) (conflicts_anchors_nodup others)]
    exact fun anchor => ⟨conflict_anchor_mem h, conflict_anchor_mem h.symm⟩
  · rw [(mem_conflicts.mp hc).2, (mem_conflicts.mp ho).2, ← hanchor]
    exact namesAt_perm h c.anchor

end conflicts

namespace Definition.Reordered

variable {d e : Definition} (h : d.Reordered e)
include h

theorem specs : d.specs.Perm e.specs := by
  have hkeys := h.keys
  rw [Definition.specs, Definition.specs]
  generalize d.keys = keys, e.keys = others at hkeys
  cases hkeys with
  | none => exact .refl _
  | some hkeys => exact hkeys.specs

theorem hasKey_iff : d.HasKey ↔ e.HasKey := by
  rw [← not_iff_not, ← keyCount_eq_zero_iff, ← keyCount_eq_zero_iff, ← length_specs, ← length_specs,
    h.specs.length_eq]

theorem nodup_iff : (d.specs.map KeySpec.anchor).Nodup ↔ (e.specs.map KeySpec.anchor).Nodup :=
  (h.specs.map _).nodup_iff

/-- Validation does not look at the order of the keys. -/
theorem validate :
    (∃ size, d.validate = .ok size ∧ e.validate = .ok size) ∨
    ∃ x y, d.validate = .error x ∧ e.validate = .error y ∧ x.Alike y := by
  rcases validate_cases d with ⟨hgrid, hd⟩ | ⟨size, hgrid, hcase⟩
  · refine .inr ⟨_, _, hd, validate_eq_noGrid_iff.mpr (h.dimensions ▸ hgrid), .noGrid⟩
  have hgrid' : e.dimensions = some size := h.dimensions ▸ hgrid
  rcases hcase with ⟨hkey, hd⟩ | ⟨hkey, hsize, hd⟩ | ⟨hkey, hsize, ⟨hnodup, hd⟩ | ⟨hnodup, hd⟩⟩
  · exact .inr ⟨_, _, hd, validate_eq_noKeys_iff.mpr ⟨by simp [hgrid'], mt h.hasKey_iff.mpr hkey⟩,
      .noKeys⟩
  · exact .inr ⟨_, _, hd,
      validate_eq_badDimensions_iff.mpr ⟨hgrid', h.hasKey_iff.mp hkey, hsize⟩, .badDimensions size⟩
  · refine .inl ⟨size, hd, validate_eq_ok_iff.mpr
      ⟨hgrid', ?_, hsize.1, hsize.2, h.nodup_iff.mp hnodup⟩⟩
    rw [ne_eq, keyCount_eq_zero_iff, not_not]
    exact h.hasKey_iff.mp hkey
  · refine .inr ⟨_, _, hd, validate_eq_conflicting_iff.mpr ⟨⟨size, hgrid', h.hasKey_iff.mp hkey,
      hsize.1, hsize.2, mt h.nodup_iff.mpr hnodup⟩, rfl⟩, conflicts_alike h.specs⟩

end Definition.Reordered

end KeyLayout

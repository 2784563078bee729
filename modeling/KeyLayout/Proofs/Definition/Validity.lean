/-
What makes a definition valid, and what is reported of one that is not.

The four checks come in a fixed order, and each defect is reported exactly when its check
is the first to fail (`validate_cases`).  Of a key the checks see the anchor and the name only;
how many cells it covers, and whether they lie on the grid, plays no role
(`validate_eq_of_views`).
-/
import KeyLayout.Proofs.Definition.Conflicts

namespace KeyLayout

open AnchorGroup (keysAt)

/-- What validation sees of a key. -/
def KeySpec.view (spec : KeySpec) : Cell × Option String := (spec.anchor, spec.identifier)

theorem map_anchor_eq (specs : List KeySpec) :
    specs.map KeySpec.anchor = (specs.map KeySpec.view).map Prod.fst := by
  rw [List.map_map]
  rfl

theorem namesAt_eq (specs : List KeySpec) (anchor : Cell) :
    namesAt specs anchor =
      ((specs.map KeySpec.view).filter (·.1 = anchor)).map fun view => view.2.getD "" := by
  rw [namesAt, keysAt, List.filter_map, List.map_map]
  rfl

/-- Keys that look the same to validation have the same conflicts. -/
theorem conflicts_eq_of_views {specs others : List KeySpec}
    (h : specs.map KeySpec.view = others.map KeySpec.view) :
    conflicts specs = conflicts others := by
  have hanchors : specs.map KeySpec.anchor = others.map KeySpec.anchor := by
    rw [map_anchor_eq, map_anchor_eq, h]
  have hnames : namesAt specs = namesAt others := by
    funext anchor
    rw [namesAt_eq, namesAt_eq, h]
  rw [conflicts_eq, conflicts_eq, hanchors, hnames]

/-- Keys are in conflict when two of them have one anchor. -/
theorem conflicts_ne_nil_iff (specs : List KeySpec) :
    conflicts specs ≠ [] ↔ ¬(specs.map KeySpec.anchor).Nodup :=
  not_congr (conflicts_eq_nil_iff specs)

/-- Every conflict is one of at least two keys. -/
theorem two_le_of_mem_conflicts {specs : List KeySpec} {c : Conflict} (h : c ∈ conflicts specs) :
    2 ≤ c.keys.length := (mem_conflicts.mp h).1

namespace Definition

/-- A definition has a key in some category. -/
def HasKey (d : Definition) : Prop :=
  ∃ keys, d.keys = some keys ∧
    ¬(keys.action = [] ∧ keys.text = [] ∧ keys.link = [] ∧ keys.plugin = [])

theorem keyCount_eq_zero_iff {d : Definition} : d.keyCount = 0 ↔ ¬d.HasKey := by
  rw [keyCount, HasKey]
  rcases d.keys with _ | keys
  · simp
  · simp only [KeySet.size, Option.some.injEq, exists_eq_left', not_not, Nat.add_eq_zero_iff,
      List.length_eq_zero_iff, and_assoc]

/-- The outcomes of validation, each with the checks that lead to it. -/
theorem validate_cases (d : Definition) :
    (d.dimensions = none ∧ d.validate = .error .noGrid) ∨
    ∃ size, d.dimensions = some size ∧
      ((¬d.HasKey ∧ d.validate = .error .noKeys) ∨
        (d.HasKey ∧ (size.rows < 1 ∨ size.cols < 1) ∧
          d.validate = .error (.badDimensions size)) ∨
        (d.HasKey ∧ (1 ≤ size.rows ∧ 1 ≤ size.cols) ∧
          ((d.specs.map KeySpec.anchor).Nodup ∧ d.validate = .ok size ∨
            ¬(d.specs.map KeySpec.anchor).Nodup ∧
              d.validate = .error (.conflicting (conflicts d.specs))))) := by
  rw [validate]
  rcases d.dimensions with _ | size
  · exact .inl ⟨rfl, rfl⟩
  refine .inr ⟨size, rfl, ?_⟩
  dsimp only
  by_cases hkeys : d.keyCount = 0
  · exact .inl ⟨keyCount_eq_zero_iff.mp hkeys, if_pos hkeys⟩
  have hkey : d.HasKey := not_not.mp (mt keyCount_eq_zero_iff.mpr hkeys)
  rw [if_neg hkeys]
  by_cases hsize : size.rows < 1 ∨ size.cols < 1
  · exact .inr (.inl ⟨hkey, hsize, if_pos hsize⟩)
  refine .inr (.inr ⟨hkey, by omega, ?_⟩)
  rw [if_neg hsize, ← conflicts_eq_nil_iff]
  rcases conflicts d.specs with _ | ⟨c, cs⟩
  · exact .inl ⟨rfl, rfl⟩
  · exact .inr ⟨by simp, rfl⟩

section outcomes

variable {d : Definition} {size : Dimensions}

theorem validate_eq_noGrid_iff : d.validate = .error .noGrid ↔ d.dimensions = none := by
  rcases validate_cases d with ⟨hgrid, h⟩ | ⟨size, hgrid, ⟨-, h⟩ | ⟨-, -, h⟩ |
    ⟨-, -, ⟨-, h⟩ | ⟨-, h⟩⟩⟩ <;> simp [h, hgrid]

theorem validate_eq_noKeys_iff :
    d.validate = .error .noKeys ↔ d.dimensions ≠ none ∧ ¬d.HasKey := by
  rcases validate_cases d with ⟨hgrid, h⟩ | ⟨size, hgrid, hcase⟩
  · simp [h, hgrid]
  rcases hcase with ⟨hkey, h⟩ | ⟨hkey, -, h⟩ | ⟨hkey, -, ⟨-, h⟩ | ⟨-, h⟩⟩ <;>
    simp [h, hgrid, hkey]

theorem validate_eq_badDimensions_iff :
    d.validate = .error (.badDimensions size) ↔
      d.dimensions = some size ∧ d.HasKey ∧ (size.rows < 1 ∨ size.cols < 1) := by
  rcases validate_cases d with ⟨hgrid, h⟩ | ⟨size, hgrid, ⟨hkey, h⟩ | ⟨hkey, hsize, h⟩ |
    ⟨hkey, hsize, ⟨-, h⟩ | ⟨-, h⟩⟩⟩
  · simp [h, hgrid]
  · simp [h, hgrid, hkey]
  · rw [h, hgrid]
    constructor
    · rintro ⟨⟩
      exact ⟨rfl, hkey, hsize⟩
    · rintro ⟨⟨⟩, -⟩
      rfl
  all_goals
    rw [h, hgrid]
    constructor
    · rintro ⟨⟩
    · rintro ⟨⟨⟩, -, hsmall⟩
      omega

theorem validate_eq_conflicting_iff {found : List Conflict} :
    d.validate = .error (.conflicting found) ↔
      (∃ size, d.dimensions = some size ∧ d.HasKey ∧ 1 ≤ size.rows ∧ 1 ≤ size.cols ∧
        ¬(d.specs.map KeySpec.anchor).Nodup) ∧ found = conflicts d.specs := by
  rcases validate_cases d with ⟨hgrid, h⟩ | ⟨size, hgrid, ⟨hkey, h⟩ | ⟨hkey, hsize, h⟩ |
    ⟨hkey, hsize, ⟨hnodup, h⟩ | ⟨hnodup, h⟩⟩⟩
  · simp [h, hgrid]
  · simp [h, hgrid, hkey]
  · rw [h, hgrid]
    constructor
    · rintro ⟨⟩
    · rintro ⟨⟨size, ⟨⟩, -, hrows, hcols, -⟩, -⟩
      omega
  · simp [h, hgrid, hnodup]
  · rw [h, hgrid]
    constructor
    · rintro ⟨⟩
      exact ⟨⟨size, rfl, hkey, hsize.1, hsize.2, hnodup⟩, rfl⟩
    · rintro ⟨-, rfl⟩
      rfl

theorem exists_conflicting_iff :
    (∃ found, d.validate = .error (.conflicting found) ∧ found ≠ [] ∧
        ∀ c ∈ found, 2 ≤ c.keys.length) ↔
      ∃ size, d.dimensions = some size ∧ d.HasKey ∧ 1 ≤ size.rows ∧ 1 ≤ size.cols ∧
        ¬(d.specs.map KeySpec.anchor).Nodup := by
  constructor
  · rintro ⟨found, h, -⟩
    exact (validate_eq_conflicting_iff.mp h).1
  · rintro ⟨size, hgrid, hkey, hrows, hcols, hnodup⟩
    exact ⟨conflicts d.specs,
      validate_eq_conflicting_iff.mpr ⟨⟨size, hgrid, hkey, hrows, hcols, hnodup⟩, rfl⟩,
      (conflicts_ne_nil_iff _).mpr hnodup, fun c => two_le_of_mem_conflicts⟩

end outcomes

/-- Validation sees the dimensions, and of every key its anchor and its name. -/
theorem validate_eq_of_views {d e : Definition} (hdimensions : e.dimensions = d.dimensions)
    (hviews : e.specs.map KeySpec.view = d.specs.map KeySpec.view) : e.validate = d.validate := by
  have hcount : e.keyCount = d.keyCount := by
    have hlength := congrArg List.length hviews
    rwa [List.length_map, List.length_map, length_specs, length_specs] at hlength
  rw [validate, validate, hdimensions, hcount, conflicts_eq_of_views hviews]

/-- **A definition is valid exactly when it has a grid of at least one row and one column, a key,
and no two keys with one anchor.**  Otherwise the first of these that it lacks is reported: the
grid, the keys, its dimensions, and then the anchors that several keys share. -/
theorem validate_decides (d : Definition) :
    (∀ size, d.validate = .ok size ↔
      d.dimensions = some size ∧ d.HasKey ∧ 1 ≤ size.rows ∧ 1 ≤ size.cols ∧
        (d.specs.map KeySpec.anchor).Nodup) ∧
    (d.validate = .error .noGrid ↔ d.dimensions = none) ∧
    (d.validate = .error .noKeys ↔ d.dimensions ≠ none ∧ ¬d.HasKey) ∧
    (∀ size, d.validate = .error (.badDimensions size) ↔
      d.dimensions = some size ∧ d.HasKey ∧ (size.rows < 1 ∨ size.cols < 1)) ∧
    ((∃ found, d.validate = .error (.conflicting found) ∧ found ≠ [] ∧
        ∀ c ∈ found, 2 ≤ c.keys.length) ↔
      ∃ size, d.dimensions = some size ∧ d.HasKey ∧ 1 ≤ size.rows ∧ 1 ≤ size.cols ∧
        ¬(d.specs.map KeySpec.anchor).Nodup) ∧
    (∀ e : Definition, e.dimensions = d.dimensions →
      e.specs.map KeySpec.view = d.specs.map KeySpec.view → e.validate = d.validate) := by
  refine ⟨fun size => ?_, validate_eq_noGrid_iff, validate_eq_noKeys_iff,
    fun size => validate_eq_badDimensions_iff, exists_conflicting_iff,
    fun e => validate_eq_of_views⟩
  rw [validate_eq_ok_iff, ne_eq, keyCount_eq_zero_iff, not_not]

end Definition

end KeyLayout

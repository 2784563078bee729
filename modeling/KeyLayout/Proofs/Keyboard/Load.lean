/-
There is always a keyboard.

Loading either builds a valid definition or shows on the error screen what is wrong
(`load_cases`).  The two are told apart by their keys too: the error screen has a key
that leads back, and no key of a definition does.

* `Definition.load_eq_ok_iff`: when a definition is there to be built;
* `ofFailure_shows`: the error screen of any failure;
* `load_shows`: what loading gives, for all files, paths and catalogs.
-/
import KeyLayout.Proofs.Keyboard.Build
import KeyLayout.Proofs.KeyGrid.ErrorScreen
import KeyLayout.Proofs.Text.Raw

namespace KeyLayout

/-- The flags of the definition at a path; where there is none, nothing is set. -/
def Definition.flagsAt (files : FileTree) (path : FilePath) : Flags :=
  match (Definition.load files path).1 with
  | .ok d => d.flags
  | .error _ => ⟨false, false, none, none⟩

namespace Keyboard

/-- How a keyboard shows a failure. -/
structure ShowsFailure (k : Keyboard) (f : Failure) (showOutputPanel shiftAware : Bool)
    (catalog : Catalog) : Prop where
  failure : k.failure = some f
  rows : k.grid.rows = 4
  cols : k.grid.cols = 4
  count : k.grid.placements.length = 7
  /-- Every cell is covered by one key, and no key goes beyond the sixteen cells. -/
  covers : ∀ cell : Cell, k.grid.placements.countP (·.covers cell) =
    if 0 ≤ cell.row ∧ cell.row < 4 ∧ 0 ≤ cell.col ∧ cell.col < 4 then 1 else 0
  heading : (k.grid.at? ⟨0, 1⟩).map (·.key.text) = some (.plain f.heading)
  detail : (k.grid.at? ⟨1, 0⟩).map (·.key.text) = some (.plain f.detail)
  back : ∃ p, k.grid.at? ⟨3, 3⟩ = some p ∧ p.key.value = .back ∧
    p.key.text = .plain (catalog.string "BACK") ∧ p.key.symbol = catalog.symbol? "BackIcon"
  issues : k.issues = []
  shiftAware : k.shiftAware = shiftAware
  outputRow : k.grid.outputRow.visible = showOutputPanel

theorem ofFailure_grid (f : Failure) (showOutputPanel shiftAware : Bool) (catalog : Catalog) :
    (ofFailure f showOutputPanel shiftAware catalog).grid =
      .errorScreen f.heading f.detail showOutputPanel catalog := by
  rw [ofFailure]

theorem ofFailure_shows (f : Failure) (showOutputPanel shiftAware : Bool) (catalog : Catalog) :
    ShowsFailure (ofFailure f showOutputPanel shiftAware catalog) f showOutputPanel shiftAware
      catalog := by
  obtain ⟨hheading, hdetail, hback⟩ :=
    KeyGrid.errorScreen_at? f.heading f.detail showOutputPanel catalog
  constructor <;> try rw [ofFailure_grid]
  case failure => rfl
  case rows => exact KeyGrid.rows_errorScreen _ _ _ _
  case cols => exact KeyGrid.cols_errorScreen _ _ _ _
  case count => exact KeyGrid.errorScreen_length _ _ _ _
  case covers => exact KeyGrid.errorScreen_covers _ _ _ _
  case heading =>
    rw [hheading]
    rfl
  case detail =>
    rw [hdetail]
    rfl
  case back =>
    rw [hback]
    exact ⟨_, rfl, rfl, rfl, rfl⟩
  case issues => rfl
  case shiftAware => rfl
  case outputRow =>
    rw [KeyGrid.errorScreen_outputRow]
    cases showOutputPanel <;> rfl

/-- The two ends of loading: the keyboard of a valid definition, or the error screen of what went
wrong, with the flags of the definition if there is one. -/
theorem load_cases (files : FileTree) (path : FilePath) (catalog : Catalog) :
    (∃ d dimensions, (Definition.load files path).1 = .ok d ∧ d.validate = .ok dimensions ∧
      (load files path catalog).1 = (build d path catalog).1) ∨
    (∃ d defect, (Definition.load files path).1 = .ok d ∧ d.validate = .error defect ∧
      (load files path catalog).1 =
        ofFailure (.defect defect) d.flags.showOutputPanel d.flags.shiftAware catalog) ∨
    (∃ e, (Definition.load files path).1 = .error e ∧
      (load files path catalog).1 = ofFailure (.load e) false false catalog) := by
  rcases hload : Definition.load files path with ⟨e | d, log⟩
  · refine .inr (.inr ⟨e, rfl, ?_⟩)
    rw [load, hload]
  · have hbuild : (load files path catalog).1 = (build d path catalog).1 := by
      rw [load, hload]
    rcases hvalidate : d.validate with defect | dimensions
    · refine .inr (.inl ⟨d, defect, rfl, hvalidate, ?_⟩)
      rw [hbuild, build, hvalidate]
    · exact .inl ⟨d, dimensions, rfl, hvalidate, hbuild⟩

/-- A failure is shown with the flags of the definition, if there is one. -/
theorem shows_of_failure {files : FileTree} {path : FilePath} {catalog : Catalog} {f : Failure}
    (h : (load files path catalog).1.failure = some f) :
    ShowsFailure (load files path catalog).1 f (Definition.flagsAt files path).showOutputPanel
      (Definition.flagsAt files path).shiftAware catalog := by
  rcases load_cases files path catalog with ⟨d, dimensions, hload, hvalidate, hk⟩ |
      ⟨d, defect, hload, hvalidate, hk⟩ | ⟨e, hload, hk⟩
  · rw [hk, build_failure hvalidate] at h
    cases h
  · rw [hk] at h
    obtain rfl : Failure.defect defect = f := Option.some_inj.mp h
    rw [hk, Definition.flagsAt, hload]
    exact ofFailure_shows _ _ _ _
  · rw [hk] at h
    obtain rfl : Failure.load e = f := Option.some_inj.mp h
    rw [hk, Definition.flagsAt, hload]
    exact ofFailure_shows _ _ _ _

end Keyboard

end KeyLayout

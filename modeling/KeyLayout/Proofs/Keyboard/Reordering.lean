/-
A keyboard does not show in which order its keys were defined.

Keys with different anchors can be placed in any order, on any grid without keys
(`KeyGrid.placeAll_eq_of_perm`).  So definitions that are `Reordered` are built into
keyboards that differ in the order of the issues and in nothing else; if one has a defect,
so has the other, and the defects are alike (`Keyboard.build_agrees`).
-/
import KeyLayout.Proofs.Definition.Reordering
import KeyLayout.Proofs.Keyboard.Issues

namespace KeyLayout

namespace KeyGrid

/-- Places keys at their cells, one after the other. -/
def placeAll (grid : KeyGrid) (entries : List (Key × Cell)) : KeyGrid :=
  entries.foldl (fun grid (key, cell) => (grid.place key cell).grid) grid

theorem placeAll_eq_after (grid : KeyGrid) (entries : List (Key × Cell)) :
    grid.placeAll entries = grid.after (entries.map fun (key, cell) => .place key cell) := by
  rw [placeAll, after, List.foldl_map]
  rfl

/-- Keys for different cells can be placed in any order. -/
theorem placeAll_eq_of_perm {start : KeyGrid} (hstart : start.placements = [])
    {entries others : List (Key × Cell)} (hperm : entries.Perm others)
    (hnodup : (entries.map Prod.snd).Nodup) :
    start.placeAll entries = start.placeAll others := by
  rw [placeAll_eq_after, placeAll_eq_after]
  refine after_eq_of_perm hstart (hperm.map _) ?_
  rwa [List.map_map]

end KeyGrid

namespace Keyboard

/-- Two definitions have come to the same keyboard, or they have like defects. -/
inductive Agrees (d e : Definition) (k l : Keyboard) : Prop
  | built (size : Dimensions) (hd : d.validate = .ok size) (he : e.validate = .ok size)
      (failures : k.failure = none ∧ l.failure = none) (grid : k.grid = l.grid)
      (shiftAware : k.shiftAware = l.shiftAware) (issues : k.issues.Perm l.issues)
  | refused (x y : Defect) (hd : d.validate = .error x) (he : e.validate = .error y)
      (failures : k.failure = some (.defect x) ∧ l.failure = some (.defect y)) (alike : x.Alike y)

theorem build_failure_of_error {d : Definition} {x : Defect} (h : d.validate = .error x)
    (path : FilePath) (catalog : Catalog) :
    (build d path catalog).1.failure = some (.defect x) := by
  rw [build, h]
  rfl

theorem build_shiftAware (d : Definition) (path : FilePath) (catalog : Catalog) :
    (build d path catalog).1.shiftAware = d.flags.shiftAware := by
  rw [build]
  cases d.validate <;> rfl

section

variable {d e : Definition} (h : d.Reordered e) {size : Dimensions} (hd : d.validate = .ok size)
  (he : e.validate = .ok size) (path : FilePath) (catalog : Catalog)
include h hd he

theorem build_grid_eq : (build d path catalog).1.grid = (build e path catalog).1.grid := by
  obtain ⟨-, -, -, -, hnodup⟩ := Definition.validate_eq_ok_iff.mp hd
  rw [build_grid hd, build_grid he, ← h.flags]
  refine (after_grid_reflects _ size d.flags d.specs).eq_of_perm
    (after_grid_reflects _ size d.flags e.specs) (h.specs.map _) ?_
  rwa [map_anchor_call]

theorem build_issues_perm :
    (build d path catalog).1.issues.Perm (build e path catalog).1.issues := by
  rw [build_issues hd, build_issues he, ← h.flags]
  exact h.specs.flatMap_right _

end

theorem build_agrees {d e : Definition} (h : d.Reordered e) (path : FilePath) (catalog : Catalog) :
    Agrees d e (build d path catalog).1 (build e path catalog).1 := by
  rcases h.validate with ⟨size, hd, he⟩ | ⟨x, y, hd, he, hxy⟩
  · refine .built size hd he ⟨build_failure hd path catalog, build_failure he path catalog⟩
      (build_grid_eq h hd he path catalog) ?_ (build_issues_perm h hd he path catalog)
    rw [build_shiftAware, build_shiftAware, h.flags]
  · exact .refused x y hd he
      ⟨build_failure_of_error hd path catalog, build_failure_of_error he path catalog⟩ hxy

/-- **The order in which keys are defined does not matter.**  Reordering the keys within their
categories leads to the same grid and to the same issues in some order, or to a like defect; and
placing keys at different cells of an empty grid leads to one grid, in whatever order it is done. -/
theorem build_reordered :
    (∀ d e : Definition, d.Reordered e → ∀ path catalog,
      Agrees d e (build d path catalog).1 (build e path catalog).1) ∧
    ∀ start : KeyGrid, start.placements = [] → ∀ entries others : List (Key × Cell),
      (entries.map Prod.snd).Nodup → entries.Perm others →
      start.placeAll entries = start.placeAll others :=
  ⟨fun _ _ h path catalog => build_agrees h path catalog,
    fun _ hstart _ _ hnodup hperm => KeyGrid.placeAll_eq_of_perm hstart hperm hnodup⟩

/-- Two keys the other way round, one of them with an issue. -/
theorem build_reordered_two_keys :
    let whole : ActionKey := ⟨{ KeyFrame.blank with col := 1 }, some .escape⟩
    let bare : ActionKey := ⟨{ KeyFrame.blank with row := -1, label := some "bare" }, none⟩
    let define (keys : List ActionKey) : Definition :=
      ⟨some ⟨2, 2⟩, ⟨false, true, none, none⟩, some ⟨keys, [], [], []⟩⟩
    let keyboard (keys : List ActionKey) : Keyboard :=
      (build (define keys) "home.json" CatalogTables.empty.catalog).1
    let a : Key × Cell := (.inert (.plain "a") 1 1, ⟨0, 1⟩)
    let b : Key × Cell := (.inert (.plain "b") 1 1, ⟨-2, 1⟩)
    (define [whole, bare]).validate = .ok ⟨2, 2⟩ ∧
      (keyboard [whole, bare]).grid = (keyboard [bare, whole]).grid ∧
      (KeyGrid.ofTracks 2 2 true).placeAll [a, b] =
        (KeyGrid.ofTracks 2 2 true).placeAll [b, a] := by
  intro whole bare define keyboard a b
  have hvalid : (define [whole, bare]).validate = .ok ⟨2, 2⟩ := by decide
  have hreordered : (define [whole, bare]).Reordered (define [bare, whole]) :=
    ⟨rfl, rfl, .some ⟨.swap bare whole [], .refl _, .refl _, .refl _⟩⟩
  obtain ⟨hbuild, hplace⟩ := build_reordered
  refine ⟨hvalid, ?_, hplace _ rfl [a, b] [b, a] (by decide) (.swap b a [])⟩
  cases hbuild _ _ hreordered "home.json" CatalogTables.empty.catalog with
  | built size hd he failures grid => exact grid
  | refused x y hd => cases hvalid.symm.trans hd

end Keyboard

end KeyLayout

/-
Keys and the bounds of their grid.

A definition is valid or not without a look at how far its keys reach: validation compares
anchors, and building puts a key where its definition says, with the spans it says.  So a
keyboard is only as good as its definition here.  Placements and definitions claim the same
areas (`build_areas_perm`), and the placements lie within the grid exactly when all keys are
defined within it (`build_bounds`).  Keys outside are built as well (`build_bounds_outside`).

The error screen lies within its own grid (`errorScreen_inBounds`).
-/
import KeyLayout.Proofs.KeyGrid.ErrorScreen
import KeyLayout.Proofs.Keyboard.Reordering

namespace KeyLayout

/-- A rectangle of cells, by its top left cell and how far it reaches from there. -/
structure Area where
  anchor : Cell
  rowSpan : Int
  colSpan : Int
deriving DecidableEq

/-- An area of at least one cell that leaves a grid on no side. -/
structure Area.Within (size : Dimensions) (area : Area) : Prop where
  row : 0 ≤ area.anchor.row
  col : 0 ≤ area.anchor.col
  rowSpan : 1 ≤ area.rowSpan
  colSpan : 1 ≤ area.colSpan
  bottom : area.anchor.row + area.rowSpan ≤ size.rows
  right : area.anchor.col + area.colSpan ≤ size.cols

theorem Area.within_iff {size : Dimensions} {area : Area} :
    area.Within size ↔ 0 ≤ area.anchor.row ∧ 0 ≤ area.anchor.col ∧ 1 ≤ area.rowSpan ∧
      1 ≤ area.colSpan ∧ area.anchor.row + area.rowSpan ≤ size.rows ∧
      area.anchor.col + area.colSpan ≤ size.cols := by
  constructor
  · intro h
    exact ⟨h.row, h.col, h.rowSpan, h.colSpan, h.bottom, h.right⟩
  · rintro ⟨row, col, rowSpan, colSpan, bottom, right⟩
    exact ⟨row, col, rowSpan, colSpan, bottom, right⟩

instance (size : Dimensions) (area : Area) : Decidable (area.Within size) :=
  decidable_of_iff _ Area.within_iff.symm

/-- The area that a placed key takes. -/
def Placement.area (p : Placement) : Area := ⟨p.anchor, p.rowSpan, p.colSpan⟩

/-- The area that the definition of a key claims. -/
def KeySpec.area (spec : KeySpec) : Area := ⟨spec.anchor, spec.frame.height, spec.frame.width⟩

namespace KeyGrid

/-- The tracks of a grid, counted. -/
def dimensions (grid : KeyGrid) : Dimensions := ⟨grid.rows, grid.cols⟩

/-- No placement leaves the grid. -/
def InBounds (grid : KeyGrid) : Prop := ∀ p ∈ grid.placements, p.area.Within grid.dimensions

instance (grid : KeyGrid) : Decidable grid.InBounds :=
  inferInstanceAs (Decidable (∀ p ∈ grid.placements, _))

/-- Being in bounds is a matter of the areas alone. -/
theorem inBounds_iff {grid : KeyGrid} :
    grid.InBounds ↔ ∀ area ∈ grid.placements.map Placement.area, area.Within grid.dimensions := by
  rw [InBounds, List.forall_mem_map]

/-- The error screen lies within its grid, whatever it says. -/
theorem errorScreen_inBounds (heading detail : String) (showOutputPanel : Bool)
    (catalog : Catalog) : (errorScreen heading detail showOutputPanel catalog).InBounds := by
  have hsize : (errorScreen heading detail showOutputPanel catalog).dimensions = ⟨4, 4⟩ := by
    rw [dimensions, rows_errorScreen, cols_errorScreen]
    rfl
  have hareas := (errorScreen_perm heading detail showOutputPanel catalog).map Placement.area
  rw [List.map_map] at hareas
  -- where the keys stand and how far they reach does not depend on what they say
  have hwithin : ∀ area ∈ (errorKeys heading detail catalog).map
      fun entry => (Placement.of entry.1 entry.2).area, area.Within ⟨4, 4⟩ := by
    show ∀ area ∈ [(⟨⟨0, 1⟩, 1, 2⟩ : Area), ⟨⟨1, 0⟩, 2, 4⟩, ⟨⟨3, 3⟩, 1, 1⟩, ⟨⟨0, 0⟩, 1, 1⟩,
      ⟨⟨0, 3⟩, 1, 1⟩, ⟨⟨3, 0⟩, 1, 1⟩, ⟨⟨3, 1⟩, 1, 2⟩], area.Within ⟨4, 4⟩
    decide
  rw [inBounds_iff, hsize]
  intro area harea
  exact hwithin area (hareas.mem_iff.mp harea)

end KeyGrid

namespace Keyboard

/-- What is built without a failure comes from a valid definition. -/
theorem validate_of_failure_eq_none {d : Definition} {path : FilePath} {catalog : Catalog}
    (h : (build d path catalog).1.failure = none) : ∃ size, d.validate = .ok size := by
  rcases hd : d.validate with x | size
  · rw [build_failure_of_error hd] at h
    cases h
  · exact ⟨size, rfl⟩

section

variable {d : Definition} {size : Dimensions} (h : d.validate = .ok size) (path : FilePath)
  (catalog : Catalog)
include h

/-- The grid has the tracks that the definition asks for. -/
theorem build_dimensions : (build d path catalog).1.grid.dimensions = size := by
  obtain ⟨-, -, hrows, hcols, -⟩ := Definition.validate_eq_ok_iff.mp h
  have hreflects := after_grid_reflects (.forFile catalog.symbol? path d.flags.symbolMargin) size
    d.flags d.specs
  rw [← build_grid h, forDefinition_grid] at hreflects
  have hrowTracks : (build d path catalog).1.grid.rowTracks =
      List.replicate size.rows.toNat (.star 1.0) := hreflects.rowTracks
  have hcolTracks : (build d path catalog).1.grid.colTracks =
      List.replicate size.cols.toNat (.star 1.0) := hreflects.colTracks
  rw [KeyGrid.dimensions, KeyGrid.rows, KeyGrid.cols, hrowTracks, hcolTracks,
    List.length_replicate, List.length_replicate, Int.toNat_of_nonneg (by omega),
    Int.toNat_of_nonneg (by omega)]

/-- The areas that are taken on the grid are those that the keys claim, key by key. -/
theorem build_areas_perm :
    ((build d path catalog).1.grid.placements.map Placement.area).Perm
      (d.specs.map KeySpec.area) := by
  have hperm := (build_placements_perm h path catalog).map Placement.area
  rw [List.map_map] at hperm
  exact hperm

end

/-- How the placements of a keyboard lie on its grid, measured against its definition. -/
structure Bounds (d : Definition) (k : Keyboard) : Prop where
  /-- The grid has the dimensions of the definition, and they are positive. -/
  dimensions : d.dimensions = some k.grid.dimensions
  rows_pos : 1 ≤ k.grid.dimensions.rows
  cols_pos : 1 ≤ k.grid.dimensions.cols
  /-- Each key is at its anchor and takes the area that its definition claims. -/
  area : ∀ spec ∈ d.specs, ∃ p ∈ k.grid.placements,
    k.grid.at? spec.anchor = some p ∧ p.area = spec.area
  perm : (k.grid.placements.map Placement.area).Perm (d.specs.map KeySpec.area)
  /-- No placement leaves the grid exactly when no key is defined to leave it. -/
  inBounds : k.grid.InBounds ↔ ∀ spec ∈ d.specs, spec.area.Within k.grid.dimensions

/-- **A keyboard lies within its grid exactly when its definition does.**  Whatever is built
without a failure has at least one row and one column, and its keys take the areas that they are
defined with, neither checked nor cut. -/
theorem build_bounds {d : Definition} {path : FilePath} {catalog : Catalog}
    (h : (build d path catalog).1.failure = none) : Bounds d (build d path catalog).1 := by
  obtain ⟨size, hvalid⟩ := validate_of_failure_eq_none h
  obtain ⟨hd, -, hrows, hcols, -⟩ := Definition.validate_eq_ok_iff.mp hvalid
  have hsize := build_dimensions hvalid path catalog
  have hareas := build_areas_perm hvalid path catalog
  refine {
    dimensions := by rw [hsize, hd]
    rows_pos := by rwa [hsize]
    cols_pos := by rwa [hsize]
    area := fun spec hspec => ?_
    perm := hareas
    inBounds := ?_ }
  · have hat := build_at? hvalid path catalog hspec
    refine ⟨_, ?_, hat, rfl⟩
    rw [(build_placements_perm hvalid path catalog).mem_iff]
    exact List.mem_map_of_mem hspec
  · have hspecs : (∀ spec ∈ d.specs, spec.area.Within (build d path catalog).1.grid.dimensions) ↔
        ∀ area ∈ d.specs.map KeySpec.area, area.Within (build d path catalog).1.grid.dimensions :=
      List.forall_mem_map.symm
    rw [KeyGrid.inBounds_iff, hspecs]
    constructor
    · intro hall area harea
      exact hall area (hareas.mem_iff.mpr harea)
    · intro hall area harea
      exact hall area (hareas.mem_iff.mp harea)

/-- A key that covers the two cells of its grid. -/
theorem build_bounds_whole_row :
    let key : TextKey := ⟨{ KeyFrame.blank with width := 2 }, some "a"⟩
    let d : Definition := ⟨some ⟨1, 2⟩, ⟨false, false, none, none⟩, some ⟨[], [key], [], []⟩⟩
    let k := (build d "home.json" CatalogTables.empty.catalog).1
    k.failure = none ∧ k.grid.dimensions = ⟨1, 2⟩ ∧ k.grid.InBounds := by
  intro key d k
  have hvalid : d.validate = .ok ⟨1, 2⟩ := by decide
  have hfailure : k.failure = none := build_failure hvalid _ _
  have h := build_bounds hfailure
  have hsize : (⟨1, 2⟩ : Dimensions) = k.grid.dimensions := Option.some_inj.mp h.dimensions
  refine ⟨hfailure, hsize.symm, h.inBounds.mpr ?_⟩
  rw [← hsize]
  show ∀ spec ∈ [KeySpec.text key], spec.area.Within ⟨1, 2⟩
  decide

/-- Six keys, each of them out of bounds for another reason, are built without a failure. -/
theorem build_bounds_outside :
    let key (row col height width : Int) : TextKey :=
      ⟨{ KeyFrame.blank with row := row, col := col, height := height, width := width }, some "a"⟩
    let keys : List TextKey :=
      [key (-1) 0 1 1, key 0 (-1) 1 1, key 0 0 0 1, key 0 1 1 0, key 1 0 2 1, key 1 1 1 2]
    let d : Definition := ⟨some ⟨2, 2⟩, ⟨false, false, none, none⟩, some ⟨[], keys, [], []⟩⟩
    let k := (build d "home.json" CatalogTables.empty.catalog).1
    k.failure = none ∧ k.grid.placements.length = 6 ∧
      ∀ p ∈ k.grid.placements, ¬p.area.Within k.grid.dimensions := by
  decide +kernel

end Keyboard

end KeyLayout

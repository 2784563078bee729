/-
Which keyboards can be written and read again.

The grid of a keyboard that is built has a written form if its keys lead to files with paths that
are texts, and so they do if the path of the definition file is one (`build_files`).  What is written
is read back when the grid is plain, and refused when it is not; and it is plain for error screens,
and for definitions that set neither a margin nor a border (`build_plain_iff`).
-/
import KeyLayout.Proofs.Decimal.Whole
import KeyLayout.Proofs.Definition.Fits
import KeyLayout.Proofs.FilePath.Parent
import KeyLayout.Proofs.KeyGrid.ErrorScreen
import KeyLayout.Proofs.KeyGrid.Record
import KeyLayout.Proofs.Keyboard.Load

namespace KeyLayout

open Document Json

namespace KeyGrid

theorem printed_star_one : TrackSize.Printed (.star 1.0) := rfl

variable {rows cols : Int} {showOutputPanel : Bool} {border : Option Thickness} {calls : List Call}
  {grid : KeyGrid}

/-- A grid of equal tracks has a written form, whatever keys are put on it. -/
theorem Reflects.writable
    (h : Reflects { ofTracks rows cols showOutputPanel with border := border } calls grid)
    (hrows : 0 ≤ rows ∧ rows < 2 ^ 53) (hplacements : ∀ p ∈ grid.placements, p.Fits) :
    grid.Writable := by
  have htracks : ∀ n, ∀ t ∈ List.replicate n (TrackSize.star 1.0), t.Printed := by
    intro n t ht
    rw [List.eq_of_mem_replicate ht]
    exact printed_star_one
  refine ⟨?_, ?_, ?_, ?_, hplacements⟩
  · rw [h.rowTracks]
    exact htracks rows.toNat
  · rw [h.colTracks]
    exact htracks cols.toNat
  · rw [h.outputRow]
    cases showOutputPanel <;> rfl
  · rw [h.keysHeight]
    cases showOutputPanel with
    | false => exact printed_star_one
    | true => exact Decimal.marked?_ofInt hrows.1 hrows.2

theorem errorScreen_placements (heading detail : String) (catalog : Catalog) {p : Placement}
    (hp : p ∈ (errorScreen heading detail showOutputPanel catalog).placements) :
    p.Fits ∧ p.key.symbolMargin = none := by
  rw [(errorScreen_perm heading detail showOutputPanel catalog).mem_iff] at hp
  simp only [errorKeys, List.map_cons, List.map_nil, List.mem_cons, List.not_mem_nil,
    or_false] at hp
  rcases hp with rfl | rfl | rfl | rfl | rfl | rfl | rfl <;>
    refine ⟨⟨⟨?_, ?_⟩, ?_, ?_, ?_, ?_⟩, rfl⟩ <;> simp [Placement.of, Key.inert, backKey]

theorem errorScreen_writable (heading detail : String) (catalog : Catalog) :
    (errorScreen heading detail showOutputPanel catalog).Writable := by
  have h : Reflects { ofTracks 4 4 showOutputPanel with border := none } _ _ :=
    errorScreen_reflects heading detail showOutputPanel catalog
  exact h.writable (by decide) fun _ hp => (errorScreen_placements heading detail catalog hp).1

theorem errorScreen_files (heading detail : String) (catalog : Catalog) :
    (errorScreen heading detail showOutputPanel catalog).files = [] := by
  refine List.filterMap_eq_nil_iff.mpr fun p hp => ?_
  rw [(errorScreen_perm heading detail showOutputPanel catalog).mem_iff] at hp
  simp only [errorKeys, List.map_cons, List.map_nil, List.mem_cons, List.not_mem_nil,
    or_false] at hp
  rcases hp with rfl | rfl | rfl | rfl | rfl | rfl | rfl <;> rfl

theorem errorScreen_plain (heading detail : String) (catalog : Catalog) :
    (errorScreen heading detail showOutputPanel catalog).Plain :=
  ⟨(errorScreen_reflects heading detail showOutputPanel catalog).border,
    fun _ hp => (errorScreen_placements heading detail catalog hp).2⟩

end KeyGrid

namespace Keyboard

theorem placement_fits (setting : KeySetting) {spec : KeySpec} (h : spec.frame.Fits) :
    (placement setting spec).Fits where
  key := by
    constructor
    · rw [placement, spec.finish_rowSpan]
      exact h.height
    · rw [placement, spec.finish_colSpan]
      exact h.width
  row := h.row
  col := h.col
  rowSpan := h.height
  colSpan := h.width

theorem placement_symbolMargin (setting : KeySetting) (spec : KeySpec) :
    (placement setting spec).key.symbolMargin = setting.symbolMargin := by
  rw [placement, spec.finish_key]
  rfl

/-- A key leads to a file only by its destination, in the directory of the definition file. -/
theorem file?_placement {setting : KeySetting} {spec : KeySpec} {file : FilePath}
    (h : (placement setting spec).key.value.file? = some file) :
    ∃ destination : String, file = FilePath.join setting.directory destination := by
  rw [placement, spec.finish_value, KeySpec.valueOrEmpty] at h
  cases spec with
  | link key =>
    rcases hdestination : key.destination with _ | destination
    · simp [KeySpec.value, hdestination, KeyValue.file?] at h
    · simp only [KeySpec.value, hdestination, Target.ofDestination] at h
      cases hname : BuiltinKeyboard.ofName? destination with
      | some keyboard => simp [hname, KeyValue.file?] at h
      | none => exact ⟨destination, by simpa [hname, KeyValue.file?, eq_comm] using h⟩
  | action key => cases hvalue : key.action <;> simp [KeySpec.value, hvalue, KeyValue.file?] at h
  | text key => cases hvalue : key.text <;> simp [KeySpec.value, hvalue, KeyValue.file?] at h
  | plugin key =>
    cases hplugin : key.plugin <;> cases hmethod : key.method <;>
      simp [KeySpec.value, hplugin, hmethod, KeyValue.file?] at h

theorem build_of_error {d : Definition} {defect : Defect} (h : d.validate = .error defect)
    (path : FilePath) (catalog : Catalog) :
    (build d path catalog).1 =
      ofFailure (.defect defect) d.flags.showOutputPanel d.flags.shiftAware catalog := by
  rw [build, h]

section

variable {d : Definition} (path : FilePath) (catalog : Catalog)

theorem build_writable (hfits : d.Fits) : (build d path catalog).1.grid.Writable := by
  rcases h : d.validate with defect | size
  · rw [build_of_error h, ofFailure_grid]
    exact KeyGrid.errorScreen_writable _ _ _
  · obtain ⟨hsize, -, hrows, -, -⟩ := Definition.validate_eq_ok_iff.mp h
    have hreflects := after_grid_reflects (.forFile catalog.symbol? path d.flags.symbolMargin) size
      d.flags d.specs
    rw [← build_grid h path catalog, forDefinition_grid] at hreflects
    refine hreflects.writable ?_ fun p hp => ?_
    · have hbits := (hfits.dimensions size hsize).rows
      omega
    · rw [(build_placements_perm h path catalog).mem_iff] at hp
      obtain ⟨spec, hspec, rfl⟩ := List.mem_map.mp hp
      exact placement_fits _ (hfits.frames spec hspec)

/-- The files that keys lead to are in the directory of the definition file, if they are not given
by absolute paths. -/
theorem build_files {file : FilePath} (h : file ∈ (build d path catalog).1.grid.files) :
    ∃ destination : String, file = FilePath.join ((FilePath.parent? path).getD "") destination := by
  rcases hvalid : d.validate with defect | size
  · rw [build_of_error hvalid, ofFailure_grid, KeyGrid.errorScreen_files] at h
    cases h
  · obtain ⟨p, hp, hfile⟩ := List.mem_filterMap.mp h
    rw [(build_placements_perm hvalid path catalog).mem_iff] at hp
    obtain ⟨spec, -, rfl⟩ := List.mem_map.mp hp
    exact file?_placement hfile

/-- A keyboard from a path that is a text leads only to such paths. -/
theorem build_files_isText {path : FilePath} (hpath : path.IsText) :
    ∀ file ∈ (build d path catalog).1.grid.files, file.IsText := by
  intro file hfile
  obtain ⟨destination, rfl⟩ := build_files path catalog hfile
  exact FilePath.isText_beside hpath (RawText.isText_ofString destination)

/-- Only error screens are plain when a definition sets a margin or a border. -/
theorem build_plain_iff :
    (build d path catalog).1.grid.Plain ↔ (build d path catalog).1.isErrorScreen ∨
      (d.flags.symbolMargin = none ∧ d.flags.borderThickness = none) := by
  rcases h : d.validate with defect | size
  · rw [build_of_error h, ofFailure_grid]
    exact iff_of_true (KeyGrid.errorScreen_plain _ _ _) (.inl rfl)
  · have hreflects := after_grid_reflects (.forFile catalog.symbol? path d.flags.symbolMargin) size
      d.flags d.specs
    rw [← build_grid h path catalog, forDefinition_grid] at hreflects
    have hborder : (build d path catalog).1.grid.border = d.flags.borderThickness :=
      hreflects.border
    have hperm := build_placements_perm h path catalog
    have hkeyboard : ¬(build d path catalog).1.isErrorScreen := by
      rw [isErrorScreen, build_failure h]
      exact Bool.false_ne_true
    rw [or_iff_right hkeyboard, KeyGrid.Plain, hborder, and_comm, and_congr_left_iff]
    rintro -
    constructor
    · -- there is a key, and it has the margin of the definition
      intro hmargins
      obtain ⟨-, hkeys, -, -, -⟩ := Definition.validate_eq_ok_iff.mp h
      rw [← d.length_specs, ← Nat.pos_iff_ne_zero] at hkeys
      obtain ⟨spec, hspec⟩ := List.exists_mem_of_length_pos hkeys
      have hmargin := hmargins _ (hperm.mem_iff.mpr (List.mem_map_of_mem hspec))
      rwa [placement_symbolMargin] at hmargin
    · intro hmargin p hp
      rw [hperm.mem_iff] at hp
      obtain ⟨spec, -, rfl⟩ := List.mem_map.mp hp
      rw [placement_symbolMargin]
      exact hmargin

end

/-- **A keyboard can be written exactly when it leads only to paths that are texts, and read again
exactly when nothing on it has a thickness.**  The grid of a keyboard that is built, written on one
line or on several, is read back the same when it is plain, and cannot be read at all when it is
not; it is plain for error screens and for definitions without a margin and without a border.  A
grid that leads to a path that is no text has no written form, and no text is read as that grid;
this does not happen if the path of the definition file is a text.  Of the numbers of the grid it is
assumed that they are read back the same if they are printed. -/
theorem build_read_back {d : Definition} (hfits : d.Fits) {path : FilePath} {catalog : Catalog}
    {k : Keyboard} (hk : (build d path catalog).1 = k)
    (hnumbers : ∀ json x, k.grid.toJson = .ok json → Value.Contains (.float x) json →
      (Decimal.marked? x).isSome → ReadsBack x) :
    ((∀ file ∈ k.grid.files, file.IsText) → ∃ json, k.grid.toJson = .ok json ∧
      ∀ text, text = compact json ∨ text = pretty json →
        (k.grid.Plain → Json.read KeyGrid.shape.read text = .ok k.grid) ∧
        (¬k.grid.Plain → ∃ place,
          Json.read KeyGrid.shape.read text = .error ⟨.noForm "ThicknessRepr", place⟩)) ∧
    ((¬∀ file ∈ k.grid.files, file.IsText) →
      k.grid.toJson = .error .notText ∧ ∀ text, Json.read KeyGrid.shape.read text ≠ .ok k.grid) ∧
    (path.IsText → ∀ file ∈ k.grid.files, file.IsText) ∧
    (k.grid.Plain ↔
      k.isErrorScreen ∨ (d.flags.symbolMargin = none ∧ d.flags.borderThickness = none)) := by
  subst hk
  refine ⟨fun hfiles => ?_, fun hfiles => ⟨?_, fun text htext => ?_⟩,
    build_files_isText catalog, build_plain_iff path catalog⟩
  · obtain ⟨json, hjson⟩ := KeyGrid.exists_toJson_iff.mpr hfiles
    have hread {sp : Spacing} (hsp : sp.Blank) :=
      KeyGrid.read_toJson hjson (build_writable path catalog hfits)
        (fun x => hnumbers json x hjson) hsp
    refine ⟨json, hjson, fun text htext => ?_⟩
    rcases htext with rfl | rfl
    · exact hread Spacing.blank_none
    · exact hread Spacing.blank_lines
  · rcases hjson : (build d path catalog).1.grid.toJson with ⟨⟨⟩⟩ | json
    · rfl
    · exact absurd (KeyGrid.exists_toJson_iff.mp ⟨json, hjson⟩) hfiles
  · exact hfiles (read_ensures KeyGrid.read_isText htext)

/-- A key that needs an escape, without a margin and with one. -/
theorem build_read_back_margin :
    let key : TextKey := ⟨{ KeyFrame.blank with row := -1, width := 2 }, some "\""⟩
    let define (margin : Option Thickness) : Definition :=
      ⟨some ⟨3, 1⟩, ⟨true, false, margin, none⟩, some ⟨[], [key], [], []⟩⟩
    let keyboard (margin : Option Thickness) : Keyboard :=
      (build (define margin) "home.json" CatalogTables.empty.catalog).1
    (∃ json, (keyboard none).grid.toJson = .ok json ∧
      Json.read KeyGrid.shape.read (pretty json) = .ok (keyboard none).grid) ∧
    ∃ json, (keyboard (some (.uniform 2.5))).grid.toJson = .ok json ∧ ∃ place,
      Json.read KeyGrid.shape.read (compact json) = .error ⟨.noForm "ThicknessRepr", place⟩ := by
  intro key define keyboard
  have hfits : ∀ margin, (define margin).Fits := by
    intro margin
    constructor
    · rintro size ⟨⟩
      exact ⟨by decide, by decide⟩
    · intro spec hspec
      obtain rfl := List.mem_singleton.mp hspec
      exact ⟨by decide, by decide, by decide, by decide⟩
  let grid (margin : Option Thickness) : KeyGrid :=
    ⟨[.star 1.0, .star 1.0, .star 1.0], [.star 1.0], ⟨true, .star 1.0⟩, .star (Float.ofInt 3), none,
      [⟨⟨.blank, none, margin, .none, 1, 2, .text "\""⟩, -1, 0, 1, 2⟩]⟩
  have hgrid : ∀ margin, (keyboard margin).grid = grid margin := fun margin => rfl
  have hnumbers : ∀ margin, margin = none ∨ margin = some (.uniform 2.5) → ∀ json x,
      (keyboard margin).grid.toJson = .ok json → Value.Contains (.float x) json →
        (Decimal.marked? x).isSome → ReadsBack x := by
    intro margin hmargin json x hjson hx _
    have hcases : x = 1.0 ∨ x = Float.ofInt 3 ∨ x = 2.5 := by
      rw [hgrid] at hjson
      cases hjson
      rcases hmargin with rfl | rfl
      · simp [grid, TrackSize.toJson, tagged, OutputRow.toJson, orNull, KeyText.toJson] at hx
        exact hx.imp_right .inl
      · simp [grid, TrackSize.toJson, tagged, OutputRow.toJson, orNull, KeyText.toJson,
          Thickness.toJson, Thickness.uniform] at hx
        exact hx
    rcases hcases with rfl | rfl | rfl <;> exact ⟨_, _, rfl⟩
  have hpath : RawText.IsText "home.json" := RawText.isText_ofString _
  obtain ⟨hplain, -, hfiles, hnone⟩ := build_read_back (hfits none) rfl (hnumbers none (.inl rfl))
  obtain ⟨hthick, -, hfiles', hsome⟩ := build_read_back (hfits (some (.uniform 2.5))) rfl
    (hnumbers _ (.inr rfl))
  obtain ⟨json, hjson, hread⟩ := hplain (hfiles hpath)
  obtain ⟨json', hjson', hread'⟩ := hthick (hfiles' hpath)
  refine ⟨⟨json, hjson, (hread _ (.inr rfl)).1 (hnone.mpr (.inr ⟨rfl, rfl⟩))⟩,
    json', hjson', (hread' _ (.inl rfl)).2 fun h => ?_⟩
  rcases hsome.mp h with hscreen | ⟨⟨⟩, -⟩
  cases hscreen

/-- A definition file in a directory with a name that is no text, and a key that leads to a file
beside it: nothing on the keyboard has a thickness, but it cannot be written. -/
theorem build_unwritable :
    let path : FilePath := ⟨[0x64, 0xFF, 0x2F, 0x6B]⟩
    let key : LinkKey := ⟨KeyFrame.blank, some "x.json", false⟩
    let d : Definition := ⟨some ⟨1, 1⟩, ⟨false, false, none, none⟩, some ⟨[], [], [key], []⟩⟩
    let k := (build d path CatalogTables.empty.catalog).1
    d.validate = .ok ⟨1, 1⟩ ∧ k.grid.Plain ∧ k.grid.toJson = .error .notText ∧
      ∀ text, Json.read KeyGrid.shape.read text ≠ .ok k.grid := by
  intro path key d k
  have hplain : k.grid.Plain :=
    (build_plain_iff path CatalogTables.empty.catalog).mpr (.inr ⟨rfl, rfl⟩)
  have hjson : k.grid.toJson = .error .notText := by decide +kernel
  refine ⟨by decide, hplain, hjson, fun text htext => ?_⟩
  obtain ⟨json, hjson'⟩ := KeyGrid.exists_toJson_iff.mpr (read_ensures KeyGrid.read_isText htext)
  cases hjson.symm.trans hjson'

end Keyboard

end KeyLayout

/-
What a keyboard depends on.

Besides the definition, building looks at a path and a catalog, and it should not look at more
of them than it needs:

* of the path, at its parent; and where files are not compared, at nothing of it
  (`build_withoutPaths`);
* of the catalog, at the symbols that the keys name when the definition is valid
  (`build_congr_catalog`), and at the text and the symbol of the back key when it is not
  (`ofFailure_congr`).

A keyboard with a defect shows the defect and the flags of its definition, and the keys play no
further part in it.
-/
import KeyLayout.Proofs.Keyboard.Reordering

namespace KeyLayout

/-! ### Keyboards without paths -/

/-- The target without the path, if it is a file. -/
def Target.withoutPath : Target → Target
  | builtin keyboard => builtin keyboard
  | file _ => file ""

def KeyValue.withoutPath : KeyValue → KeyValue
  | navigate target replaceCurrent => navigate target.withoutPath replaceCurrent
  | value => value

def Key.withoutPath (k : Key) : Key := { k with value := k.value.withoutPath }

def Placement.withoutPath (p : Placement) : Placement := { p with key := p.key.withoutPath }

def KeyGrid.withoutPaths (grid : KeyGrid) : KeyGrid :=
  { grid with placements := grid.placements.map Placement.withoutPath }

/-- A keyboard up to the paths of the files that its keys lead to. -/
def Keyboard.withoutPaths (k : Keyboard) : Keyboard := { k with grid := k.grid.withoutPaths }

/-- The names of symbols in a definition. -/
def Definition.symbolNames (d : Definition) : List String :=
  d.specs.filterMap fun spec => spec.frame.symbol

/-! ### Keys -/

/-- Two settings that differ only in the directory, and in symbols that the key does not name. -/
structure KeySetting.AgreeFor (s s' : KeySetting) (spec : KeySpec) : Prop where
  symbol? : ∀ name, spec.frame.symbol = some name → s.symbol? name = s'.symbol? name
  symbolMargin : s.symbolMargin = s'.symbolMargin

namespace KeySpec

variable {s s' : KeySetting} {spec : KeySpec}

theorem findSymbol_congr (h : s.AgreeFor s' spec) :
    spec.frame.findSymbol s = spec.frame.findSymbol s' := by
  rw [KeyFrame.findSymbol, KeyFrame.findSymbol]
  rcases hname : spec.frame.symbol with _ | name
  · rfl
  · dsimp only
    rw [h.symbol? name hname]

theorem frame_finish_congr (h : s.AgreeFor s' spec) :
    spec.frame.finish s = spec.frame.finish s' := by
  rw [KeyFrame.finish, KeyFrame.finish, findSymbol_congr h, h.symbolMargin]

/-- Only the value of a link depends on the directory. -/
theorem value_congr (hdirectory : s.directory = s'.directory) : spec.value s = spec.value s' := by
  cases spec <;> simp only [value, hdirectory]

theorem finish_congr (h : s.AgreeFor s' spec) (hdirectory : s.directory = s'.directory) :
    spec.finish s = spec.finish s' := by
  rw [finish, finish, frame_finish_congr h, value_congr hdirectory]

theorem ofDestination_withoutPath (directory directory' : FilePath) (destination : String) :
    (Target.ofDestination directory destination).withoutPath =
      (Target.ofDestination directory' destination).withoutPath := by
  rw [Target.ofDestination, Target.ofDestination]
  cases BuiltinKeyboard.ofName? destination <;> rfl

theorem valueOrEmpty_withoutPath (spec : KeySpec) (s s' : KeySetting) :
    (spec.valueOrEmpty s).withoutPath = (spec.valueOrEmpty s').withoutPath := by
  cases spec with
  | link key =>
    rw [valueOrEmpty, valueOrEmpty, value, value]
    rcases key.destination with _ | destination
    · rfl
    · exact congrArg (KeyValue.navigate · _) (ofDestination_withoutPath _ _ destination)
  | action | text | plugin => rfl

/-- Without paths, a finished key does not show the directory. -/
theorem finish_withoutPath (h : s.AgreeFor s' spec) :
    (spec.finish s).key.withoutPath = (spec.finish s').key.withoutPath := by
  rw [finish_key, finish_key, frame_finish_congr h]
  simp only [Key.withoutPath, valueOrEmpty_withoutPath spec s s']

/-- The issues of a key do not show the directory. -/
theorem finish_issues_congr (h : s.AgreeFor s' spec) :
    (spec.finish s).issues = (spec.finish s').issues := by
  have hsymbol : (spec.finish s).key.symbol = (spec.finish s').key.symbol := by
    rw [finish_key, finish_key, frame_finish_congr h]
  simp only [finish_issues, losses, lostSymbol?, lostValue?, hsymbol, finish_value_eq_empty_iff]

end KeySpec

/-! ### Keyboards -/

namespace Keyboard

/-- Settings that agree on every key lead to the same run. -/
theorem after_congr {s s' : KeySetting} {dimensions : Dimensions} {flags : Flags}
    {specs : List KeySpec} (h : ∀ spec ∈ specs, spec.finish s = spec.finish s') :
    Progress.after s dimensions flags specs = Progress.after s' dimensions flags specs := by
  rw [Progress.after, Progress.after]
  refine List.foldl_ext _ _ _ fun p spec hspec => ?_
  rw [Progress.add, Progress.add, h spec hspec]

/-- Grids that reflect the same keys under settings that agree up to the directory. -/
theorem after_grid_withoutPaths {s s' : KeySetting} (dimensions : Dimensions) (flags : Flags)
    {specs : List KeySpec} (hnodup : (specs.map KeySpec.anchor).Nodup)
    (h : ∀ spec ∈ specs, s.AgreeFor s' spec) :
    (Progress.after s dimensions flags specs).grid.withoutPaths =
      (Progress.after s' dimensions flags specs).grid.withoutPaths := by
  have hleft := after_grid_reflects s dimensions flags specs
  have hright := after_grid_reflects s' dimensions flags specs
  -- without paths, both grids hold the same keys, and the anchors tell their order
  have hordered : ∀ {ps : List Placement}, KeyGrid.Ordered ps →
      KeyGrid.Ordered (ps.map Placement.withoutPath) := fun hps => List.pairwise_map.mpr hps
  have hperm : ((Progress.after s dimensions flags specs).grid.placements.map
        Placement.withoutPath).Perm
      ((Progress.after s' dimensions flags specs).grid.placements.map Placement.withoutPath) := by
    have hkeys : (specs.map (placement s)).map Placement.withoutPath =
        (specs.map (placement s')).map Placement.withoutPath := by
      rw [List.map_map, List.map_map]
      refine List.map_congr_left fun spec hspec => ?_
      simp only [Function.comp_def, placement, Placement.withoutPath,
        KeySpec.finish_withoutPath (h spec hspec)]
    refine ((after_placements_perm s dimensions flags hnodup).map _).trans ?_
    rw [hkeys]
    exact ((after_placements_perm s' dimensions flags hnodup).map _).symm
  have hplacements := (hordered hleft.ordered).eq_of_perm (hordered hright.ordered) hperm
  rw [KeyGrid.withoutPaths, KeyGrid.withoutPaths, hplacements, hleft.rowTracks, hleft.colTracks,
    hleft.outputRow, hleft.keysHeight, hleft.border, hright.rowTracks, hright.colTracks,
    hright.outputRow, hright.keysHeight, hright.border]

/-- The error screen shows two things of a catalog, and nothing of a definition but its flags. -/
theorem ofFailure_congr (f : Failure) (showOutputPanel shiftAware : Bool) {c c' : Catalog}
    (htext : c.string "BACK" = c'.string "BACK")
    (hsymbol : c.symbol? "BackIcon" = c'.symbol? "BackIcon") :
    ofFailure f showOutputPanel shiftAware c = ofFailure f showOutputPanel shiftAware c' := by
  simp only [ofFailure, KeyGrid.errorScreen, KeyGrid.errorKeys, KeyGrid.backKey, htext, hsymbol]

section

variable {d : Definition} {size : Dimensions}

theorem agreeFor_forFile (path other : FilePath) {c c' : Catalog} (margin : Option Thickness)
    (h : ∀ name ∈ d.symbolNames, c.symbol? name = c'.symbol? name) {spec : KeySpec}
    (hspec : spec ∈ d.specs) :
    (KeySetting.forFile c.symbol? path margin).AgreeFor
      (.forFile c'.symbol? other margin) spec where
  symbol? name hname := h name (List.mem_filterMap.mpr ⟨spec, hspec, hname⟩)
  symbolMargin := rfl

/-- What building makes of a definition whose keys are all placed. -/
def finished (d : Definition) (size : Dimensions) (p : Progress) : Keyboard × Log :=
  (⟨p.grid, d.flags.shiftAware, none, p.issues⟩,
    p.log ++ [⟨.debug, s!"Compiled {d.keyCount} keys into a {size.rows}x{size.cols} " ++
      s!"grid ({p.issues.length} issues)"⟩])

theorem build_eq_finished (hvalid : d.validate = .ok size) (path : FilePath) (catalog : Catalog) :
    build d path catalog = finished d size
      (.after (.forFile catalog.symbol? path d.flags.symbolMargin) size d.flags d.specs) := by
  rw [build, hvalid]
  rfl

/-- The keyboard of a valid definition takes nothing from the catalog but the symbols that the
keys name, and what is logged takes nothing more. -/
theorem build_congr_catalog (hvalid : d.validate = .ok size) (path : FilePath) {c c' : Catalog}
    (h : ∀ name ∈ d.symbolNames, c.symbol? name = c'.symbol? name) :
    build d path c = build d path c' := by
  rw [build_eq_finished hvalid, build_eq_finished hvalid,
    after_congr fun spec hspec => KeySpec.finish_congr (agreeFor_forFile path path _ h hspec) rfl]

/-- Of a path that the file is looked for under, only the parent counts. -/
theorem build_congr_parent (d : Definition) {path other : FilePath}
    (h : FilePath.parent? path = FilePath.parent? other) (catalog : Catalog) :
    (build d path catalog).1 = (build d other catalog).1 := by
  rcases hvalid : d.validate with x | size
  · rw [build, build, hvalid]
  · rw [build_eq_finished hvalid, build_eq_finished hvalid, KeySetting.forFile, h,
      KeySetting.forFile]

/-- Nothing of the path shows but where the files are that keys lead to. -/
theorem build_withoutPaths (d : Definition) (path other : FilePath) (catalog : Catalog) :
    (build d path catalog).1.withoutPaths = (build d other catalog).1.withoutPaths := by
  rcases hvalid : d.validate with x | size
  · rw [build, build, hvalid]
  · obtain ⟨-, -, -, -, hnodup⟩ := Definition.validate_eq_ok_iff.mp hvalid
    have hsymbols : ∀ name ∈ d.symbolNames, catalog.symbol? name = catalog.symbol? name :=
      fun _ _ => rfl
    have hagree := fun spec (hspec : spec ∈ d.specs) =>
      agreeFor_forFile path other d.flags.symbolMargin hsymbols hspec
    have hgrid := after_grid_withoutPaths size d.flags hnodup hagree
    have hissues := List.flatMap_congr fun spec hspec =>
      KeySpec.finish_issues_congr (hagree spec hspec)
    rw [build_eq_finished hvalid, build_eq_finished hvalid]
    simp only [withoutPaths, finished, after_issues, hgrid, hissues]

/-- An error screen shows the defect, and of the definition besides only two flags. -/
theorem build_congr_defect {e : Definition} {x : Defect} (hd : d.validate = .error x)
    (he : e.validate = .error x) (hpanel : d.flags.showOutputPanel = e.flags.showOutputPanel)
    (hshift : d.flags.shiftAware = e.flags.shiftAware) (path other : FilePath) {c c' : Catalog}
    (htext : c.string "BACK" = c'.string "BACK")
    (hsymbol : c.symbol? "BackIcon" = c'.symbol? "BackIcon") :
    (build d path c).1 = (build e other c').1 := by
  rw [build, build, hd, he]
  dsimp only
  rw [hpanel, hshift]
  exact ofFailure_congr _ _ _ htext hsymbol

end

/-- **A keyboard depends on what it should and on nothing else.**  Of the path of the definition
file it depends on the parent, and that only in the paths of the files that its keys lead to.  Of
the catalog it depends on the symbols that the keys name; where the definition has a defect, on
the text and the symbol of the key that leads back, and then the keys matter only through the
defect. -/
theorem build_depends (d : Definition) :
    (∀ catalog path other, FilePath.parent? path = FilePath.parent? other →
      (build d path catalog).1 = (build d other catalog).1) ∧
    (∀ catalog path other,
      (build d path catalog).1.withoutPaths = (build d other catalog).1.withoutPaths) ∧
    (∀ size, d.validate = .ok size → ∀ path (c c' : Catalog),
      (∀ name ∈ d.symbolNames, c.symbol? name = c'.symbol? name) →
      build d path c = build d path c') ∧
    ∀ x, d.validate = .error x → ∀ e, e.validate = .error x →
      d.flags.showOutputPanel = e.flags.showOutputPanel →
      d.flags.shiftAware = e.flags.shiftAware →
      ∀ path other (c c' : Catalog), c.string "BACK" = c'.string "BACK" →
      c.symbol? "BackIcon" = c'.symbol? "BackIcon" →
      (build d path c).1 = (build e other c').1 :=
  ⟨fun catalog _ _ h => build_congr_parent d h catalog,
    fun catalog path other => build_withoutPaths d path other catalog,
    fun _ hvalid path _ _ h => build_congr_catalog hvalid path h,
    fun _ hd _ he hpanel hshift path other _ _ htext hsymbol =>
      build_congr_defect hd he hpanel hshift path other htext hsymbol⟩

/-- A key with a symbol that leads to a file: from two paths with one parent, and with catalogs that
differ in other symbols and in all texts. Without a grid, it is shown no more than no key is, and a
catalog that has no text and no symbol for the key that leads back does as well as another. -/
theorem build_depends_file_link :
    let key : LinkKey := ⟨{ KeyFrame.blank with symbol := some "s" }, some "b.json", true⟩
    let d : Definition := ⟨some ⟨1, 1⟩, ⟨false, true, none, none⟩, some ⟨[], [], [key], []⟩⟩
    let c : CatalogTables := ⟨.ofList [("s", "M0"), ("t", "M1")], .empty⟩
    let c' : CatalogTables := ⟨.ofList [("s", "M0")], .ofList [("BACK", "Back")]⟩
    let lacking (keys : List LinkKey) : Definition := { d with
      dimensions := none, keys := some ⟨[], [], keys, []⟩ }
    d.validate = .ok ⟨1, 1⟩ ∧
      (build d "k/a.json" c.catalog).1 = (build d "k//./z.json" c.catalog).1 ∧
      (build d "k/a.json" c.catalog).1.withoutPaths = (build d "/a.json" c.catalog).1.withoutPaths ∧
      (build d "k/a.json" c.catalog).1 ≠ (build d "/a.json" c.catalog).1 ∧
      build d "k/a.json" c.catalog = build d "k/a.json" c'.catalog ∧
      (lacking [key]).validate = .error .noGrid ∧ (lacking []).validate = .error .noGrid ∧
      (build (lacking [key]) "k/a.json" c.catalog).1 =
        (build (lacking []) "/a.json" CatalogTables.empty.catalog).1 := by
  intro key d c c' lacking
  have hvalid : d.validate = .ok ⟨1, 1⟩ := by decide
  obtain ⟨hparent, hpaths, hcatalog, -⟩ := build_depends d
  obtain ⟨-, -, -, hdefect⟩ := build_depends (lacking [key])
  have hnames : ∀ name ∈ d.symbolNames, c.catalog.symbol? name = c'.catalog.symbol? name := by
    decide
  exact ⟨hvalid, hparent _ _ _ (by decide), hpaths _ _ _, by decide, hcatalog _ hvalid _ _ _ hnames,
    rfl, rfl, hdefect .noGrid rfl (lacking []) rfl rfl rfl _ _ _ _ (by decide) (by decide)⟩

end Keyboard

end KeyLayout

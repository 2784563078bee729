/-
A keyboard holds every key of its definition.

Building a definition is a run of calls on the grid for that definition, one for each
key (`Progress.after`).  The anchors of a valid definition differ, so no call displaces
a key and the placements are the keys of the definition, put into the order of their
anchors.

* `after_placements_perm`: the placements are those of the keys;
* `place_after`: no key takes the place of another, at any point of the run;
* `after_log`: what is logged on the way;
* `at?_after`: every key is found at its anchor;
* `build_valid`: the keyboard of a valid definition.
-/
import KeyLayout.Keyboard
import KeyLayout.Proofs.Definition.Conflicts
import KeyLayout.Proofs.Key.Finish
import KeyLayout.Proofs.KeyGrid.Calls

namespace KeyLayout

namespace Keyboard

/-- The call that places a key. -/
def call (setting : KeySetting) (spec : KeySpec) : KeyGrid.Call :=
  .place (spec.finish setting).key spec.anchor

/-- The placement of a key, with the spans that its definition gives. -/
def placement (setting : KeySetting) (spec : KeySpec) : Placement :=
  ⟨(spec.finish setting).key, spec.frame.row, spec.frame.col, spec.frame.height, spec.frame.width⟩

theorem placement_call (setting : KeySetting) (spec : KeySpec) :
    (call setting spec).placement = placement setting spec := by
  rw [call, KeyGrid.Call.placement, Placement.of, spec.finish_rowSpan, spec.finish_colSpan]
  rfl

/-- The warning about an issue. -/
def warning (issue : KeyIssue) : LogEvent := ⟨.warn, issue.text⟩

theorem head_issue (issue : KeyIssue) :
    issue.text.toList.head? = some 'C' ∨ issue.text.toList.head? = some 'I' := by
  cases issue with
  | unknownSymbol name anchor =>
    have hword : (toString "Could not resolve symbol '").toList =
        'C' :: "ould not resolve symbol '".toList := by decide
    unfold KeyIssue.text
    simp only [String.toList_append, hword, List.cons_append, List.head?_cons, true_or]
  | incomplete category identifier anchor missing =>
    have hword : (toString "Incomplete ").toList = 'I' :: "ncomplete ".toList := by decide
    unfold KeyIssue.text
    simp only [String.toList_append, hword, List.cons_append, List.head?_cons, or_true]

theorem head_replaced (cell : Cell) :
    (KeyGrid.replaced cell).message.toList.head? = some 'R' := by
  have hword : (toString "Replaced key already anchored at ").toList =
      'R' :: "eplaced key already anchored at ".toList := by decide
  unfold KeyGrid.replaced
  simp only [String.toList_append, hword, List.cons_append, List.head?_cons]

/-- A warning about a key is never that of a key that was replaced. -/
theorem warning_ne_replaced (issue : KeyIssue) (cell : Cell) :
    warning issue ≠ KeyGrid.replaced cell := by
  intro h
  have hhead : issue.text.toList.head? = some 'R' := by
    rw [← head_replaced cell, ← h]
    rfl
  rcases head_issue issue with h' | h' <;> simp [hhead] at h'

/-- What building a definition starts from. -/
def Progress.start (dimensions : Dimensions) (flags : Flags) : Progress :=
  ⟨(KeyGrid.forDefinition dimensions flags).1, [], (KeyGrid.forDefinition dimensions flags).2⟩

/-- How far building has come after some keys. -/
def Progress.after (setting : KeySetting) (dimensions : Dimensions) (flags : Flags)
    (specs : List KeySpec) : Progress :=
  specs.foldl (Progress.add setting) (.start dimensions flags)

/-! ### The run over the keys -/

theorem foldl_add_grid (setting : KeySetting) (specs : List KeySpec) (p : Progress) :
    (specs.foldl (Progress.add setting) p).grid = p.grid.after (specs.map (call setting)) := by
  induction specs generalizing p with
  | nil => rfl
  | cons spec specs ih =>
    rw [List.foldl_cons, ih]
    rfl

section run

variable (setting : KeySetting) (dimensions : Dimensions) (flags : Flags)

/-- The grid reflects the calls that place the keys. -/
theorem after_grid_reflects (specs : List KeySpec) :
    KeyGrid.Reflects (KeyGrid.forDefinition dimensions flags).1 (specs.map (call setting))
      (Progress.after setting dimensions flags specs).grid := by
  rw [Progress.after, foldl_add_grid]
  have h := (KeyGrid.Fresh.forDefinition dimensions flags).reflects.after (specs.map (call setting))
  rwa [List.nil_append] at h

theorem map_anchor_call (specs : List KeySpec) :
    (specs.map (call setting)).map (·.placement.anchor) = specs.map KeySpec.anchor := by
  rw [List.map_map]
  rfl

theorem map_placement_call (specs : List KeySpec) :
    (specs.map (call setting)).map KeyGrid.Call.placement = specs.map (placement setting) := by
  rw [List.map_map]
  exact List.map_congr_left fun spec _ => placement_call setting spec

/-- A cell that is the anchor of no key so far is free. -/
theorem after_at?_eq_none {specs : List KeySpec} {cell : Cell}
    (h : cell ∉ specs.map KeySpec.anchor) :
    (Progress.after setting dimensions flags specs).grid.at? cell = none := by
  rw [(after_grid_reflects setting dimensions flags specs).at?_eq]
  refine KeyGrid.latest?_eq_none ?_
  rwa [map_anchor_call]

/-- No key takes the place of another that was placed before it. -/
theorem place_after {earlier later : List KeySpec} {spec : KeySpec}
    (h : ((earlier ++ spec :: later).map KeySpec.anchor).Nodup) (key : Key) :
    ((Progress.after setting dimensions flags earlier).grid.place key spec.anchor).displaced = none ∧
    ((Progress.after setting dimensions flags earlier).grid.place key spec.anchor).log = [] := by
  have hfree : spec.anchor ∉ earlier.map KeySpec.anchor := by
    rw [List.map_append, List.map_cons] at h
    intro hmem
    exact List.disjoint_of_nodup_append h hmem List.mem_cons_self
  have hat := after_at?_eq_none setting dimensions flags hfree
  rw [KeyGrid.place_displaced, KeyGrid.place_log, hat]
  exact ⟨rfl, rfl⟩

theorem after_issues (specs : List KeySpec) :
    (Progress.after setting dimensions flags specs).issues =
      specs.flatMap fun spec => (spec.finish setting).issues := by
  induction specs using List.reverseRecOn with
  | nil => rfl
  | append_singleton specs spec ih =>
    rw [Progress.after, List.foldl_concat, List.flatMap_append, List.flatMap_singleton, ← ih]
    rfl

/-- Nothing is logged while keys are placed but the warnings about them. -/
theorem after_log {specs : List KeySpec} (h : (specs.map KeySpec.anchor).Nodup) :
    (Progress.after setting dimensions flags specs).log =
      (KeyGrid.forDefinition dimensions flags).2 ++
        (Progress.after setting dimensions flags specs).issues.map warning := by
  induction specs using List.reverseRecOn with
  | nil =>
    rw [after_issues, List.flatMap_nil, List.map_nil, List.append_nil]
    rfl
  | append_singleton specs spec ih =>
    -- the new key logs its issues, and placing it logs nothing
    have hplaced := (place_after setting dimensions flags h (spec.finish setting).key).2
    have hspecs : (specs.map KeySpec.anchor).Nodup := by
      rw [List.map_append] at h
      exact h.of_append_left
    have hlog : (Progress.after setting dimensions flags (specs ++ [spec])).log =
        (Progress.after setting dimensions flags specs).log ++
          (spec.finish setting).issues.map warning ++
          ((Progress.after setting dimensions flags specs).grid.place
            (spec.finish setting).key spec.anchor).log := by
      rw [Progress.after, List.foldl_concat]
      rfl
    rw [hlog, hplaced, ih hspecs, after_issues, after_issues, List.flatMap_append,
      List.flatMap_singleton, List.map_append, List.append_nil, List.append_assoc]

/-- The placements are those of the keys. -/
theorem after_placements_perm {specs : List KeySpec} (h : (specs.map KeySpec.anchor).Nodup) :
    (Progress.after setting dimensions flags specs).grid.placements.Perm
      (specs.map (placement setting)) := by
  rw [← map_anchor_call setting] at h
  rw [← map_placement_call]
  exact (after_grid_reflects setting dimensions flags specs).placements_perm h

/-- Every key is found at its anchor. -/
theorem at?_after {specs : List KeySpec} (h : (specs.map KeySpec.anchor).Nodup) {spec : KeySpec}
    (hspec : spec ∈ specs) :
    (Progress.after setting dimensions flags specs).grid.at? spec.anchor =
      some (placement setting spec) := by
  have hordered := (after_grid_reflects setting dimensions flags specs).ordered
  rw [KeyGrid.at?_eq_some_iff hordered,
    (after_placements_perm setting dimensions flags h).mem_iff]
  exact ⟨List.mem_map_of_mem hspec, rfl⟩

end run

/-! ### The keyboard of a valid definition -/

/-- The keys of a valid definition are placed in their order. -/
theorem build_grid {d : Definition} {dimensions : Dimensions} (h : d.validate = .ok dimensions)
    (path : FilePath) (catalog : Catalog) :
    (build d path catalog).1.grid =
      (Progress.after (.forFile catalog.symbol? path d.flags.symbolMargin) dimensions d.flags
        d.specs).grid := by
  rw [build, h]
  rfl

theorem forDefinition_grid (dimensions : Dimensions) (flags : Flags) :
    (KeyGrid.forDefinition dimensions flags).1 =
      { KeyGrid.ofTracks dimensions.rows dimensions.cols flags.showOutputPanel with
        border := flags.borderThickness } := by
  rw [KeyGrid.forDefinition]
  cases flags.borderThickness <;> rfl

/-- Only the border is logged when a grid is made. -/
theorem level_of_mem_forDefinition {dimensions : Dimensions} {flags : Flags} {e : LogEvent}
    (h : e ∈ (KeyGrid.forDefinition dimensions flags).2) : e.level = .info := by
  rw [KeyGrid.forDefinition] at h
  rcases hb : flags.borderThickness with _ | t
  · rw [hb, KeyGrid.setBorder] at h
    cases h
  · rw [hb, KeyGrid.setBorder, List.mem_singleton] at h
    rw [h]

theorem build_failure {d : Definition} {dimensions : Dimensions} (h : d.validate = .ok dimensions)
    (path : FilePath) (catalog : Catalog) : (build d path catalog).1.failure = none := by
  rw [build, h]
  rfl

/-- The keyboard of a valid definition holds the keys of the definition and no others. -/
theorem build_placements_perm {d : Definition} {dimensions : Dimensions}
    (h : d.validate = .ok dimensions) (path : FilePath) (catalog : Catalog) :
    (build d path catalog).1.grid.placements.Perm
      (d.specs.map (placement (.forFile catalog.symbol? path d.flags.symbolMargin))) := by
  obtain ⟨-, -, -, -, hnodup⟩ := Definition.validate_eq_ok_iff.mp h
  rw [build_grid h]
  exact after_placements_perm _ _ _ hnodup

/-- What building gives when a definition shows on the keyboard with all its keys. -/
structure ShowsAll (d : Definition) (dimensions : Dimensions) (setting : KeySetting)
    (built : Keyboard × Log) : Prop where
  failure : built.1.failure = none
  rows : (built.1.grid.rows : Int) = dimensions.rows
  cols : (built.1.grid.cols : Int) = dimensions.cols
  /-- Placements and keys are in one-to-one correspondence. -/
  perm : built.1.grid.placements.Perm (d.specs.map (placement setting))
  count : built.1.grid.placements.length = d.keyCount
  ordered : KeyGrid.Ordered built.1.grid.placements
  /-- Every key is found at its anchor, with the spans that its definition gives. -/
  at?_anchor : ∀ spec ∈ d.specs, built.1.grid.at? spec.anchor = some (placement setting spec)
  /-- The grid is the one that all keys have been placed on in their order. -/
  grid : built.1.grid = (Progress.after setting dimensions d.flags d.specs).grid
  /-- No key takes the place of another. -/
  displaced : ∀ earlier spec later, d.specs = earlier ++ spec :: later →
    ((Progress.after setting dimensions d.flags earlier).grid.place (spec.finish setting).key
      spec.anchor).displaced = none
  quiet : ∀ cell, KeyGrid.replaced cell ∉ built.2
  border : built.1.grid.border = d.flags.borderThickness
  outputRow : built.1.grid.outputRow =
    if d.flags.showOutputPanel then ⟨true, .star 1.0⟩ else ⟨false, .pixel 0.0⟩
  keysHeight : built.1.grid.keysHeight =
    .star (if d.flags.showOutputPanel then Float.ofInt dimensions.rows else 1.0)

/-- **A keyboard holds every key of its definition**, whatever the definition, as long as it is
valid: each key is at its anchor, there are no other keys, and none has taken the place of
another. -/
theorem build_valid {d : Definition} {dimensions : Dimensions} (h : d.validate = .ok dimensions)
    (path : FilePath) (catalog : Catalog) :
    ShowsAll d dimensions (.forFile catalog.symbol? path d.flags.symbolMargin)
      (build d path catalog) := by
  obtain ⟨-, -, hrows, hcols, hnodup⟩ := Definition.validate_eq_ok_iff.mp h
  have hfailure := build_failure h path catalog
  have hgrid := build_grid h path catalog
  have hperm := build_placements_perm h path catalog
  have hbuild : build d path catalog = assemble d dimensions path catalog := by
    rw [build, h]
  rw [hbuild] at hfailure hgrid hperm ⊢
  generalize hsetting : KeySetting.forFile catalog.symbol? path d.flags.symbolMargin = setting at *
  obtain ⟨summary, hlog⟩ : ∃ summary, (assemble d dimensions path catalog).2 =
      (Progress.after setting dimensions d.flags d.specs).log ++ [⟨.debug, summary⟩] := by
    rw [← hsetting]
    exact ⟨_, rfl⟩
  have hreflects := after_grid_reflects setting dimensions d.flags d.specs
  rw [← hgrid, forDefinition_grid] at hreflects
  refine {
    failure := hfailure
    rows := ?_
    cols := ?_
    perm := hperm
    count := ?_
    ordered := hreflects.ordered
    at?_anchor := fun spec hspec => ?_
    grid := hgrid
    displaced := fun earlier spec later hsplit => ?_
    quiet := fun cell hcell => ?_
    border := hreflects.border
    outputRow := hreflects.outputRow
    keysHeight := hreflects.keysHeight }
  · have htracks : (assemble d dimensions path catalog).1.grid.rowTracks =
        List.replicate dimensions.rows.toNat (.star 1.0) := hreflects.rowTracks
    rw [KeyGrid.rows, htracks, List.length_replicate]
    omega
  · have htracks : (assemble d dimensions path catalog).1.grid.colTracks =
        List.replicate dimensions.cols.toNat (.star 1.0) := hreflects.colTracks
    rw [KeyGrid.cols, htracks, List.length_replicate]
    omega
  · rw [hperm.length_eq, List.length_map, d.length_specs]
  · rw [hgrid]
    exact at?_after setting dimensions d.flags hnodup hspec
  · rw [hsplit] at hnodup
    exact (place_after setting dimensions d.flags hnodup _).1
  · -- an event is about the border, about a key, or the summary, and none of these is a warning
    -- about a replaced key
    rw [hlog, after_log setting dimensions d.flags hnodup] at hcell
    simp only [List.mem_append, List.mem_map, List.mem_singleton] at hcell
    rcases hcell with (hborder | ⟨issue, -, hissue⟩) | hsummary
    · have hlevel := level_of_mem_forDefinition hborder
      cases hlevel
    · exact warning_ne_replaced issue cell hissue
    · cases hsummary

/-- Keys of two categories, the later one with the lesser anchor. -/
theorem build_valid_two_categories :
    let key : ActionKey := ⟨{ KeyFrame.blank with row := 1, col := 4, width := 2 }, some .escape⟩
    let text : TextKey := ⟨{ KeyFrame.blank with row := -1 }, some "a"⟩
    let d : Definition := ⟨some ⟨2, 3⟩, ⟨true, false, none, none⟩, some ⟨[key], [text], [], []⟩⟩
    let grid := (build d "home.json" CatalogTables.empty.catalog).1.grid
    d.validate = .ok ⟨2, 3⟩ ∧ grid.placements.length = 2 ∧
      (grid.at? ⟨1, 4⟩).map Placement.colSpan = some 2 ∧
      (grid.at? ⟨-1, 0⟩).map (·.key.value) = some (.text "a") := by
  intro key text d grid
  have hvalid : d.validate = .ok ⟨2, 3⟩ := by decide
  have h := build_valid hvalid "home.json" CatalogTables.empty.catalog
  have hkey := h.at?_anchor (.action key) (by simp [d, Definition.specs, KeySet.specs])
  have htext := h.at?_anchor (.text text) (by simp [d, Definition.specs, KeySet.specs])
  exact ⟨hvalid, h.count, congrArg (Option.map Placement.colSpan) hkey,
    congrArg (Option.map (·.key.value)) htext⟩

end Keyboard

end KeyLayout

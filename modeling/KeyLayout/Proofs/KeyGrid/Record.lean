/-
Finished keys and grids in their written form.

Everything that a grid is written with is read back the same, apart from thicknesses: those
are written as records but read only from numbers and texts (`Thickness.refused`).  So a key
is read back when it has no margin, and refused when it has one (`Key.gives`, `Key.refused`),
and a grid is read back when it is `Plain`, and refused when it is not (`KeyGrid.gives`,
`KeyGrid.refused`).

A grid has a written form if the paths of all files that its keys lead to are texts
(`KeyGrid.exists_toJson_iff`), and no other grids are ever read (`KeyGrid.read_isText`).
-/
import KeyLayout.KeyGrid.Record
import KeyLayout.Proofs.Definition.Frame
import KeyLayout.Proofs.Document.Rereading
import KeyLayout.Proofs.FilePath.Parent
import KeyLayout.Proofs.Json.Shown

namespace KeyLayout

open Document Json
open Document.Reading (Gives Refuses)

/-! ### Texts, symbols and values -/

theorem Symbol.gives (s : Symbol) : Symbol.shape.read.Gives 1 s.toJson.shown s := by
  refine Gives.record rfl (by decide) fun depth hdepth => ?_
  exact .of rfl (Reading.gives_text s.name) hdepth <|
    .of rfl (Reading.gives_text s.pathData) hdepth .nil

theorem KeyText.gives (t : KeyText) : KeyText.reading.Gives 2 t.toJson.shown t := by
  cases t with
  | blank => exact Reading.gives_bare rfl
  | plain text =>
    refine .tagged rfl ?_ (show 0 < 2 by omega)
    exact (Reading.gives_text text).map plain
  | shifted up down =>
    refine .tagged rfl ?_ (show 1 < 2 by omega)
    have hshape : shiftedShape.read.Gives 1 (.record [("up", .text up), ("down", .text down)])
        (up, down) := by
      refine Gives.record rfl (by decide) fun depth hdepth => ?_
      exact .of rfl (Reading.gives_text up) hdepth <|
        .of rfl (Reading.gives_text down) hdepth .nil
    exact hshape.map _

theorem BuiltinKeyboard.gives (b : BuiltinKeyboard) :
    (Reading.named BuiltinKeyboard.all BuiltinKeyboard.name).Gives 0 (.text b.name) b :=
  Reading.gives_named (by decide +kernel) (by cases b <;> decide)

theorem KeyFunction.gives (f : KeyFunction) :
    (Reading.named KeyFunction.all KeyFunction.name).Gives 0 (.text f.name) f :=
  Reading.gives_named (by decide +kernel) (by cases f <;> decide)

theorem SizingClass.gives (c : SizingClass) : SizingClass.reading.Gives 0 (.text c.name) c :=
  Reading.gives_named (by decide) (by cases c <;> decide)

theorem Target.gives {t : Target} {json : Value} (h : t.toJson = .ok json) :
    Target.reading.Gives 1 json.shown t := by
  cases t with
  | builtin keyboard =>
    cases h
    refine .tagged rfl ?_ (show 0 < 1 by omega)
    exact keyboard.gives.map builtin
  | file path =>
    obtain ⟨s, hs, hjson⟩ := bind_eq_ok.mp h
    obtain rfl := FilePath.written_eq_ok.mp hs
    obtain rfl := pure_eq_ok.mp hjson
    refine .tagged rfl ?_ (show 0 < 1 by omega)
    exact (Reading.gives_path s).map fun path => file (.ofString path)

theorem KeyValue.gives {value : KeyValue} {json : Value} (h : value.toJson = .ok json) :
    KeyValue.reading.Gives 3 json.shown value := by
  cases value with
  | function f =>
    cases h
    refine .tagged rfl ?_ (show 0 < 3 by omega)
    exact f.gives.map function
  | text s =>
    cases h
    refine .tagged rfl ?_ (show 0 < 3 by omega)
    exact (Reading.gives_text s).map text
  | navigate target replace =>
    obtain ⟨json, htarget, h⟩ := bind_eq_ok.mp h
    cases h
    refine .tagged rfl ?_ (show 2 < 3 by omega)
    have hshape : navigateShape.read.Gives 2
        (.record [("target", json.shown), ("replace_current", .bool replace)])
        (target, replace) := by
      refine Gives.record rfl (by decide) fun depth hdepth => ?_
      exact .of rfl (Target.gives htarget) hdepth <|
        .of rfl (Reading.gives_bool replace) (by omega) .nil
    exact hshape.map _
  | plugin snippet =>
    cases h
    refine .tagged rfl ?_ (show 0 < 3 by omega)
    exact (Reading.gives_text snippet).map plugin
  | back =>
    cases h
    exact Reading.gives_bare rfl
  | empty =>
    cases h
    exact Reading.gives_bare rfl

/-! ### Thicknesses -/

theorem detach_shown_float {node : Node} {x : Float} (h : node.Holds (Value.float x).shown)
    (depth : Nat) :
    ∃ node', node.detach depth = .ok node' ∧ node'.Holds (Value.float x).shown := by
  rw [Value.shown] at *
  split_ifs at * <;> cases h
  · exact ⟨_, rfl, .float⟩
  · exact ⟨_, rfl, .null⟩

/-- A thickness is written as a record of its edges, and that is no form in which it is read. -/
theorem Thickness.refused (t : Thickness) :
    Reading.thickness.Refuses 1 t.toJson.shown (.noForm "ThicknessRepr") := by
  intro depth node hdepth hnode
  have hshown : t.toJson.shown = .record [("left", (Value.float t.left).shown),
    ("top", (Value.float t.top).shown), ("right", (Value.float t.right).shown),
    ("bottom", (Value.float t.bottom).shown)] := rfl
  rw [hshown] at hnode
  cases hnode with
  | record hmembers =>
    have hedge := fun (x : Float) (node : Node) (h : node.Holds (Value.float x).shown) =>
      detach_shown_float h (depth - 1)
    obtain ⟨members', hdetach, -⟩ := hmembers.detach (by
      simp only [List.forall_mem_cons]
      exact ⟨hedge t.left, hedge t.top, hedge t.right, hedge t.bottom, by simp⟩)
    refine ⟨none, ?_⟩
    rw [Reading.thickness, Node.detach, descend_eq_ok.mpr ⟨hdepth, rfl⟩, ok_bind, hdetach, ok_bind]
    rfl

/-! ### Keys -/

/-- The spans of a key have thirty-two bits. -/
structure Key.Fits (k : Key) : Prop where
  rowSpan : -2147483648 ≤ k.rowSpan ∧ k.rowSpan ≤ 2147483647
  colSpan : -2147483648 ≤ k.colSpan ∧ k.colSpan ≤ 2147483647

namespace Key

variable {k : Key} {json : Value}

theorem gives_symbol (symbol : Option Symbol) :
    (Reading.optional Symbol.shape.read).Gives 1 (orNull Symbol.toJson symbol).shown symbol := by
  cases symbol with
  | none => exact Reading.gives_none.mono (by omega)
  | some s => exact s.gives.optional Value.noConfusion

/-- A key without a margin is read back. -/
theorem gives (h : k.toJson = .ok json) (hfits : k.Fits) (hmargin : k.symbolMargin = none) :
    Key.shape.read.Gives 4 json.shown k := by
  obtain ⟨text, symbol, _, sizingClass, rowSpan, colSpan, value⟩ := k
  obtain ⟨jsonValue, hvalue, h⟩ := bind_eq_ok.mp h
  cases h
  obtain rfl : _ = none := hmargin
  refine Gives.record rfl (by decide) fun depth hdepth => ?_
  exact .of rfl text.gives (by omega) <|
    .of rfl (gives_symbol symbol) (by omega) <|
    .of rfl Reading.gives_none (by omega) <|
    .of rfl sizingClass.gives (by omega) <|
    .of rfl (Reading.gives_int32 hfits.rowSpan) (by omega) <|
    .of rfl (Reading.gives_int32 hfits.colSpan) (by omega) <|
    .of rfl (KeyValue.gives hvalue) (by omega) .nil

/-- A key with a margin is refused. -/
theorem refused (h : k.toJson = .ok json) (hmargin : k.symbolMargin ≠ none) :
    Key.shape.read.Refuses 4 json.shown (.noForm "ThicknessRepr") := by
  obtain ⟨text, symbol, margin, sizingClass, rowSpan, colSpan, value⟩ := k
  obtain ⟨_, _, h⟩ := bind_eq_ok.mp h
  cases h
  obtain ⟨t, rfl⟩ := Option.ne_none_iff_exists'.mp hmargin
  refine Refuses.record (by decide) fun depth (hdepth : 3 < depth) => ?_
  exact .after rfl text.gives (by omega) <|
    .after rfl (gives_symbol symbol) (by omega) <|
    .of rfl (t.refused.optional Value.noConfusion) (by omega)

end Key

/-! ### Tracks and placements -/

/-- The number of a size has a written form. -/
def TrackSize.Printed : TrackSize → Prop
  | star x => (Decimal.marked? x).isSome
  | pixel x => (Decimal.marked? x).isSome

theorem TrackSize.gives {t : TrackSize} (h : t.Printed) :
    TrackSize.reading.Gives 1 t.toJson.shown t := by
  cases t with
  | star x =>
    have hshown : (star x).toJson.shown = tagged "Star" (.float x) := by
      rw [toJson, tagged, Value.shown, shownMembers, shownMembers, shown_float h]
    rw [hshown]
    refine .tagged rfl ?_ (show 0 < 1 by omega)
    exact (Reading.gives_float x).map star
  | pixel x =>
    have hshown : (pixel x).toJson.shown = tagged "Pixel" (.float x) := by
      rw [toJson, tagged, Value.shown, shownMembers, shownMembers, shown_float h]
    rw [hshown]
    refine .tagged rfl ?_ (show 0 < 1 by omega)
    exact (Reading.gives_float x).map pixel

theorem OutputRow.gives {r : OutputRow} (h : r.height.Printed) :
    OutputRow.shape.read.Gives 2 r.toJson.shown r := by
  refine Gives.record rfl (by decide) fun depth hdepth => ?_
  exact .of rfl (Reading.gives_bool r.visible) (by omega) <|
    .of rfl (TrackSize.gives h) hdepth .nil

/-- The integers of a placement have thirty-two bits. -/
structure Placement.Fits (p : Placement) : Prop where
  key : p.key.Fits
  row : -2147483648 ≤ p.row ∧ p.row ≤ 2147483647
  col : -2147483648 ≤ p.col ∧ p.col ≤ 2147483647
  rowSpan : -2147483648 ≤ p.rowSpan ∧ p.rowSpan ≤ 2147483647
  colSpan : -2147483648 ≤ p.colSpan ∧ p.colSpan ≤ 2147483647

namespace Placement

variable {p : Placement} {json : Value}

theorem gives (h : p.toJson = .ok json) (hfits : p.Fits) (hmargin : p.key.symbolMargin = none) :
    Placement.shape.read.Gives 5 json.shown p := by
  obtain ⟨jsonKey, hkey, h⟩ := bind_eq_ok.mp h
  cases h
  refine Gives.record rfl (by decide) fun depth hdepth => ?_
  exact .of rfl (Key.gives hkey hfits.key hmargin) hdepth <|
    .of rfl (Reading.gives_int32 hfits.row) (by omega) <|
    .of rfl (Reading.gives_int32 hfits.col) (by omega) <|
    .of rfl (Reading.gives_int32 hfits.rowSpan) (by omega) <|
    .of rfl (Reading.gives_int32 hfits.colSpan) (by omega) .nil

theorem refused (h : p.toJson = .ok json) (hmargin : p.key.symbolMargin ≠ none) :
    Placement.shape.read.Refuses 5 json.shown (.noForm "ThicknessRepr") := by
  obtain ⟨jsonKey, hkey, h⟩ := bind_eq_ok.mp h
  cases h
  exact Refuses.record (by decide) fun _ hdepth => .of rfl (Key.refused hkey hmargin) hdepth

end Placement

/-! ### Grids -/

namespace KeyGrid

variable {g : KeyGrid} {json : Value}

/-- The sizes of a grid have a written form, and its integers have thirty-two bits. -/
structure Writable (g : KeyGrid) : Prop where
  rowTracks : ∀ t ∈ g.rowTracks, t.Printed
  colTracks : ∀ t ∈ g.colTracks, t.Printed
  outputRow : g.outputRow.height.Printed
  keysHeight : g.keysHeight.Printed
  placements : ∀ p ∈ g.placements, p.Fits

/-- A grid without a border on which no key has a margin. -/
def Plain (g : KeyGrid) : Prop := g.border = none ∧ ∀ p ∈ g.placements, p.key.symbolMargin = none

/-- The written form of a grid is made of those of its placements. -/
theorem exists_of_toJson (h : g.toJson = .ok json) : ∃ placement : Placement → Value,
    (∀ p ∈ g.placements, p.toJson = .ok (placement p)) ∧ json = .record [
      ("row_defs", .list (g.rowTracks.map TrackSize.toJson)),
      ("col_defs", .list (g.colTracks.map TrackSize.toJson)),
      ("output_row", g.outputRow.toJson),
      ("keys_height", g.keysHeight.toJson),
      ("border_thickness", orNull Thickness.toJson g.border),
      ("placements", .list (g.placements.map placement))] := by
  have : Inhabited Value := ⟨.null⟩
  obtain ⟨placements, hplacements, h⟩ := bind_eq_ok.mp h
  obtain ⟨placement, rfl, hplacement⟩ := mapM_eq_ok.mp hplacements
  exact ⟨placement, hplacement, (pure_eq_ok.mp h).symm⟩

theorem shown_record (g : KeyGrid) (placement : Placement → Value) :
    (Value.record [
      ("row_defs", .list (g.rowTracks.map TrackSize.toJson)),
      ("col_defs", .list (g.colTracks.map TrackSize.toJson)),
      ("output_row", g.outputRow.toJson),
      ("keys_height", g.keysHeight.toJson),
      ("border_thickness", orNull Thickness.toJson g.border),
      ("placements", .list (g.placements.map placement))]).shown = .record [
    ("row_defs", .list (g.rowTracks.map fun t => t.toJson.shown)),
    ("col_defs", .list (g.colTracks.map fun t => t.toJson.shown)),
    ("output_row", g.outputRow.toJson.shown),
    ("keys_height", g.keysHeight.toJson.shown),
    ("border_thickness", (orNull Thickness.toJson g.border).shown),
    ("placements", .list (g.placements.map fun p => (placement p).shown))] := by
  rw [← shown_list, ← shown_list, ← shown_list]
  rfl

/-- A plain grid is read back. -/
theorem gives (hjson : g.toJson = .ok json) (h : g.Writable) (hplain : g.Plain) :
    KeyGrid.shape.read.Gives 7 json.shown g := by
  obtain ⟨placement, hplacement, rfl⟩ := exists_of_toJson hjson
  rw [shown_record]
  obtain ⟨rowTracks, colTracks, outputRow, keysHeight, border, placements⟩ := g
  obtain ⟨hborder, hmargins⟩ := hplain
  obtain rfl : border = none := hborder
  refine Gives.record rfl (by decide) fun depth hdepth => ?_
  exact .of rfl (.list fun t ht => TrackSize.gives (h.rowTracks t ht)) (by omega) <|
    .of rfl (.list fun t ht => TrackSize.gives (h.colTracks t ht)) (by omega) <|
    .of rfl (OutputRow.gives h.outputRow) (by omega) <|
    .of rfl (TrackSize.gives h.keysHeight) (by omega) <|
    .of rfl Reading.gives_none (by omega) <|
    .of rfl (.list fun p hp => Placement.gives (hplacement p hp) (h.placements p hp) (hmargins p hp))
      hdepth .nil

/-- Any other grid is refused: with its border, or with the first key that has a margin. -/
theorem refused (hjson : g.toJson = .ok json) (h : g.Writable) (hplain : ¬g.Plain) :
    KeyGrid.shape.read.Refuses 7 json.shown (.noForm "ThicknessRepr") := by
  obtain ⟨placement, hplacement, rfl⟩ := exists_of_toJson hjson
  rw [shown_record]
  refine Refuses.record (by decide) fun depth (hdepth : 6 < depth) => ?_
  refine .after rfl (.list fun t ht => TrackSize.gives (h.rowTracks t ht)) (by omega) <|
    .after rfl (.list fun t ht => TrackSize.gives (h.colTracks t ht)) (by omega) <|
    .after rfl (OutputRow.gives h.outputRow) (by omega) <|
    .after rfl (TrackSize.gives h.keysHeight) (by omega) ?_
  rcases hborder : g.border with _ | t
  · refine .after rfl Reading.gives_none (by omega) ?_
    have hmargin : ∃ p ∈ g.placements, p.key.symbolMargin ≠ none := by
      simpa [Plain, hborder] using hplain
    obtain ⟨p, hp, hmargin⟩ := hmargin
    have hrefused := Placement.refused (hplacement p hp) hmargin
    refine .of rfl (.list (fun q hq => ?_) ⟨p, hp, hrefused⟩) hdepth
    rcases hq' : q.key.symbolMargin with _ | t
    · exact .inl (Placement.gives (hplacement q hq) (h.placements q hq) hq')
    · exact .inr (Placement.refused (hplacement q hq) (by simp [hq']))
  · exact .of rfl (t.refused.optional Value.noConfusion) (by omega)

end KeyGrid

/-! ### Integers in the written form -/

section integers

variable {n : Int} {json : Value}

@[simp] theorem contains_int_orNull {α : Type} {toJson : α → Value} {o : Option α} :
    Value.Contains (.int n) (orNull toJson o) ↔ ∃ x ∈ o, Value.Contains (.int n) (toJson x) := by
  cases o <;> simp [orNull]

@[simp] theorem Symbol.not_contains_int (s : Symbol) : ¬Value.Contains (.int n) s.toJson := by
  simp [toJson]

@[simp] theorem Thickness.not_contains_int (t : Thickness) : ¬Value.Contains (.int n) t.toJson := by
  simp [toJson]

@[simp] theorem KeyText.not_contains_int (t : KeyText) : ¬Value.Contains (.int n) t.toJson := by
  cases t <;> simp [toJson, tagged]

theorem Target.not_contains_int {t : Target} (h : t.toJson = .ok json) :
    ¬Value.Contains (.int n) json := by
  cases t with
  | builtin keyboard =>
    cases h
    simp [tagged]
  | file path =>
    obtain ⟨_, _, h⟩ := bind_eq_ok.mp h
    cases h
    simp [tagged]

theorem KeyValue.not_contains_int {value : KeyValue} (h : value.toJson = .ok json) :
    ¬Value.Contains (.int n) json := by
  cases value with
  | navigate target replace =>
    obtain ⟨json, htarget, h⟩ := bind_eq_ok.mp h
    cases h
    simp [tagged, Target.not_contains_int htarget]
  | function | text | plugin | back | empty =>
    cases h
    simp [tagged]

@[simp] theorem TrackSize.not_contains_int (t : TrackSize) : ¬Value.Contains (.int n) t.toJson := by
  cases t <;> simp [toJson, tagged]

@[simp] theorem OutputRow.not_contains_int (r : OutputRow) : ¬Value.Contains (.int n) r.toJson := by
  simp [toJson]

theorem Key.contains_int {k : Key} (h : k.toJson = .ok json) :
    Value.Contains (.int n) json ↔ n = k.rowSpan ∨ n = k.colSpan := by
  obtain ⟨jsonValue, hvalue, h⟩ := bind_eq_ok.mp h
  cases h
  simp [KeyValue.not_contains_int hvalue]

theorem Placement.fitsBits {p : Placement} (h : p.Fits) (hjson : p.toJson = .ok json)
    (hn : Value.Contains (.int n) json) : Decimal.fitsBits 64 n = true := by
  obtain ⟨jsonKey, hkey, hjson⟩ := bind_eq_ok.mp hjson
  cases hjson
  have hcases : (n = p.key.rowSpan ∨ n = p.key.colSpan) ∨ n = p.row ∨ n = p.col ∨ n = p.rowSpan ∨
      n = p.colSpan := by
    simpa [Key.contains_int hkey] using hn
  rcases hcases with (rfl | rfl) | rfl | rfl | rfl | rfl
  · exact KeyFrame.fitsBits_of_int32 h.key.rowSpan
  · exact KeyFrame.fitsBits_of_int32 h.key.colSpan
  · exact KeyFrame.fitsBits_of_int32 h.row
  · exact KeyFrame.fitsBits_of_int32 h.col
  · exact KeyFrame.fitsBits_of_int32 h.rowSpan
  · exact KeyFrame.fitsBits_of_int32 h.colSpan

end integers

/-! ### Paths in the written form -/

/-- The file that a key leads to. -/
def KeyValue.file? : KeyValue → Option FilePath
  | navigate (.file path) _ => some path
  | _ => none

theorem KeyValue.exists_toJson_iff {value : KeyValue} :
    (∃ json, value.toJson = .ok json) ↔ ∀ path ∈ value.file?, path.IsText := by
  cases value with
  | navigate target replace =>
    cases target with
    | builtin keyboard => simp [toJson, Target.toJson, file?, ok_bind, pure, Except.pure]
    | file path =>
      constructor
      · rintro ⟨json, h⟩ _ ⟨⟩
        obtain ⟨_, htarget, -⟩ := bind_eq_ok.mp h
        obtain ⟨s, hs, -⟩ := bind_eq_ok.mp htarget
        exact ⟨s, FilePath.written_eq_ok.mp hs⟩
      · intro h
        obtain ⟨s, hs⟩ := h path rfl
        have htarget : (Target.file path).toJson = .ok (tagged "File" (.text s)) :=
          bind_eq_ok.mpr ⟨s, FilePath.written_eq_ok.mpr hs, rfl⟩
        exact ⟨_, bind_eq_ok.mpr ⟨_, htarget, rfl⟩⟩
  | function | text | plugin | back | empty => simp [toJson, file?]

theorem Placement.exists_toJson_iff {p : Placement} :
    (∃ json, p.toJson = .ok json) ↔ ∀ path ∈ p.key.value.file?, path.IsText := by
  rw [← KeyValue.exists_toJson_iff]
  constructor
  · rintro ⟨json, h⟩
    obtain ⟨_, hkey, -⟩ := bind_eq_ok.mp h
    obtain ⟨jsonValue, hvalue, -⟩ := bind_eq_ok.mp hkey
    exact ⟨jsonValue, hvalue⟩
  · rintro ⟨jsonValue, hvalue⟩
    exact ⟨_, bind_eq_ok.mpr ⟨_, bind_eq_ok.mpr ⟨jsonValue, hvalue, rfl⟩, rfl⟩⟩

namespace KeyGrid

variable {g : KeyGrid} {json : Value}

/-- The files that the keys of a grid lead to. -/
def files (g : KeyGrid) : List FilePath := g.placements.filterMap fun p => p.key.value.file?

/-- A grid has a written form exactly when all files that it leads to have paths that are texts. -/
theorem exists_toJson_iff : (∃ json, g.toJson = .ok json) ↔ ∀ path ∈ g.files, path.IsText := by
  have : Inhabited Value := ⟨.null⟩
  have hplacements : (∀ path ∈ g.files, path.IsText) ↔
      ∀ p ∈ g.placements, ∃ json, p.toJson = .ok json := by
    simp only [Placement.exists_toJson_iff, files, List.mem_filterMap]
    exact ⟨fun h p hp path hpath => h path ⟨p, hp, hpath⟩,
      fun h path ⟨p, hp, hpath⟩ => h p hp path hpath⟩
  rw [hplacements]
  constructor
  · rintro ⟨json, hjson⟩ p hp
    obtain ⟨placement, hplacement, -⟩ := exists_of_toJson hjson
    exact ⟨placement p, hplacement p hp⟩
  · intro h
    choose! placement hplacement using h
    exact ⟨_, bind_eq_ok.mpr ⟨_, mapM_eq_ok.mpr ⟨placement, rfl, hplacement⟩, rfl⟩⟩

end KeyGrid

/-! ### Paths that are read -/

theorem Target.read_isText : Target.reading.Ensures Node.Tame depthLimit
    fun t => ∀ path, t = .file path → path.IsText := by
  refine Reading.variant_ensures ?_
  simp only [List.forall_mem_cons]
  refine ⟨fun depth node t _ _ h => ?_, fun depth node t _ _ h => ?_, by simp⟩
  · obtain ⟨keyboard, -, rfl⟩ := map_eq_ok.mp h
    exact nofun
  · obtain ⟨s, -, rfl⟩ := map_eq_ok.mp h
    rintro _ ⟨⟩
    exact RawText.isText_ofString s

theorem KeyValue.read_isText : KeyValue.reading.Ensures Node.Tame depthLimit
    fun value => ∀ path ∈ value.file?, path.IsText := by
  have hshape : navigateShape.read.Ensures Node.Tame depthLimit
      fun s => ∀ path, s.1 = .file path → path.IsText := by
    refine Shape.read_ensures ?_ ?_
    · simp only [navigateShape, List.forall_mem_cons]
      exact ⟨Slot.of_preserves Target.read_isText fun _ _ _ ht => ht,
        Slot.of_preserves (.trivial _ _) fun _ _ hs _ => hs, by simp⟩
    · rintro _ ⟨⟩
      exact RawText.isText_ofString ""
  refine Reading.variant_ensures ?_
  simp only [List.forall_mem_cons]
  refine ⟨?function, ?text, ?navigate, ?plugin, nofun, nofun, by simp⟩
  case navigate =>
    intro depth node value hdepth hnode h
    obtain ⟨s, hs, rfl⟩ := map_eq_ok.mp h
    have htarget := hshape depth node s hdepth hnode hs
    rcases s with ⟨keyboard | path, replace⟩
    · exact nofun
    · rintro _ ⟨⟩
      exact htarget path rfl
  all_goals
    intro depth node value _ _ h
    obtain ⟨_, -, rfl⟩ := map_eq_ok.mp h
    exact nofun

theorem Placement.read_isText : Placement.shape.read.Ensures Node.Tame depthLimit
    fun p => ∀ path ∈ p.key.value.file?, path.IsText := by
  have hkey : Key.shape.read.Ensures Node.Tame depthLimit
      fun k => ∀ path ∈ k.value.file?, path.IsText := by
    refine Shape.read_ensures ?_ nofun
    simp only [Key.shape, List.forall_mem_cons]
    refine ⟨?_, ?_, ?_, ?_, ?_, ?_, Slot.of_preserves KeyValue.read_isText fun _ _ _ h => h, by simp⟩
    all_goals exact Slot.of_preserves (.trivial _ _) fun _ _ h _ => h
  refine Shape.read_ensures ?_ nofun
  simp only [shape, List.forall_mem_cons]
  refine ⟨Slot.of_preserves hkey fun _ _ _ h => h, ?_, ?_, ?_, ?_, by simp⟩
  all_goals exact Slot.of_preserves (.trivial _ _) fun _ _ h _ => h

/-- Grids that are read lead only to files whose paths are texts. -/
theorem KeyGrid.read_isText : KeyGrid.shape.read.Ensures Node.Tame depthLimit
    fun g => ∀ path ∈ g.files, path.IsText := by
  refine Shape.read_ensures ?_ (by simp [shape, files])
  simp only [shape, List.forall_mem_cons]
  refine ⟨?_, ?_, ?_, ?_, ?_, Slot.of_preserves Placement.read_isText.list ?placements, by simp⟩
  case placements =>
    intro g placements _ hplacements path hpath
    obtain ⟨p, hp, hpath⟩ := List.mem_filterMap.mp hpath
    exact hplacements p hp path hpath
  all_goals exact Slot.of_preserves (.trivial _ _) fun _ _ h _ => h

/-! ### Written and read -/

namespace KeyGrid

variable {g : KeyGrid} {json : Value}

theorem printable (hjson : g.toJson = .ok json) (h : g.Writable)
    (hnumbers : ∀ x, Value.Contains (.float x) json → (Decimal.marked? x).isSome → ReadsBack x) :
    json.Printable := by
  refine ⟨fun n hn => ?_, hnumbers⟩
  obtain ⟨placement, hplacement, rfl⟩ := exists_of_toJson hjson
  have hcases : ∃ p ∈ g.placements, Value.Contains (.int n) (placement p) := by
    simpa using hn
  obtain ⟨p, hp, hn⟩ := hcases
  exact p.fitsBits (h.placements p hp) (hplacement p hp) hn

/-- What becomes of a grid that is written and read. -/
theorem read_toJson (hjson : g.toJson = .ok json) (h : g.Writable)
    (hnumbers : ∀ x, Value.Contains (.float x) json → (Decimal.marked? x).isSome → ReadsBack x)
    {sp : Spacing} (hsp : sp.Blank) :
    (g.Plain → Json.read shape.read (String.ofList (write sp 0 json)) = .ok g) ∧
    (¬g.Plain → ∃ place, Json.read shape.read (String.ofList (write sp 0 json)) =
      .error ⟨.noForm "ThicknessRepr", place⟩) := by
  obtain ⟨node, hnode, hread⟩ := read_written hsp (printable hjson h hnumbers)
  rw [hread]
  exact ⟨fun hplain => gives hjson h hplain _ node (by decide) hnode,
    fun hplain => refused hjson h hplain _ node (by decide) hnode⟩

end KeyGrid

end KeyLayout

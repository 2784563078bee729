/-
Where keys lead to.

A destination is the name of a builtin keyboard or the path of a file.  Which names there are
is told in three places, and all of them agree: the table of names (`ofName?_eq_some_iff`), the
command that lists them (`keyboards_output`, `keyboards_output_json`) and the keyboards that
JSON texts can stand for (`Json.read_named_iff`).  Any other destination is a file, beside the
definition file unless it is absolute (`finish_link`).
-/
import KeyLayout.Command
import KeyLayout.Proofs.Document.Rereading
import KeyLayout.Proofs.Document.Success
import KeyLayout.Proofs.FilePath.Parent
import KeyLayout.Proofs.Json.Reader
import KeyLayout.Proofs.Key.Finish

namespace KeyLayout

open Document

/-! ### Names of values -/

section names

variable {α : Type} {values : List α} {name : α → String} {s : String} {x : α}

/-- The value that is found under a name, among variants without content. -/
theorem findVariant_named_eq_ok (hnodup : (values.map name).Nodup) {place : Option Offset} :
    (findVariant (values.map fun x => ⟨name x, .nothing x⟩) s place >>= fun v => v.content.bare) =
        .ok x ↔ x ∈ values ∧ name x = s := by
  rw [bind_eq_ok, ← find?_name_eq_some_iff hnodup]
  simp only [findVariant_eq_ok, List.find?_map, Function.comp_def, Option.map_eq_some_iff]
  constructor
  · rintro ⟨v, ⟨y, hy, rfl⟩, hv⟩
    cases hv
    exact hy
  · intro hx
    exact ⟨_, ⟨x, hx, rfl⟩, rfl⟩

end names

namespace Json

/-- A text that stands for a string stands for a value exactly when the string is the name of that
value. -/
theorem read_named_iff {α : Type} {values : List α} {name : α → String}
    (hnodup : (values.map name).Nodup) {text s : String} (h : read Reading.text text = .ok s)
    {x : α} : read (Reading.named values name) text = .ok x ↔ x ∈ values ∧ name x = s := by
  obtain ⟨hroot, htrailing⟩ := Whole.read_eq_ok.mp h
  have hbare := document_bare text
  rw [read, Whole.read_eq_ok, and_iff_left htrailing]
  rcases Reading.text_eq_ok.mp hroot with ⟨raw, span, hscalar⟩ | ⟨value, span, hvalue, hscalar⟩
  · rw [← hbare, hscalar, Reading.named, variant, Node.bare, untaggedVariant]
    · exact findVariant_named_eq_ok hnodup
    all_goals simp
  · rw [← hbare, hscalar, Reading.named, variant, Node.bare, untaggedVariant]
    · exact findVariant_named_eq_ok hnodup
    · exact hvalue
    all_goals simp

theorem read_text_compact (s : String) : read Reading.text (compact (.text s)) = .ok s := by
  obtain ⟨node, hdocument, hholds⟩ := document_write Spacing.blank_none (.text s)
  rw [read, compact, hdocument, Whole.read_eq_ok]
  exact ⟨Reading.text_holds hholds, rfl⟩

end Json

/-! ### Builtin keyboards -/

namespace BuiltinKeyboard

theorem names_nodup : (all.map name).Nodup := by decide +kernel

theorem mem_all (k : BuiltinKeyboard) : k ∈ all := by
  cases k <;> decide

theorem ofName?_eq_some_iff {s : String} {k : BuiltinKeyboard} :
    ofName? s = some k ↔ k.name = s := by
  rw [ofName?, find?_name_eq_some_iff names_nodup, and_iff_right k.mem_all]

end BuiltinKeyboard

namespace Command

theorem toList_endLines (lines : List String) :
    (endLines lines).toList = (lines.map String.toList).flatMap fun line => line ++ ['\n'] := by
  rw [endLines, String.toList_join]
  simp [List.flatMap_map]

/-- Reading a value that was printed is reading a node that stands for it. -/
theorem read_printed {v : Json.Value} (hv : v.Readable) :
    ∃ node : Node, node.Holds v ∧ ∀ {α : Type} (reading : Reading α),
      Json.read reading (printed v) = reading Json.depthLimit node := by
  have hblank : Json.Blank ['\n'] := by simp [Json.Blank, Json.isSpace]
  obtain ⟨node, hdocument, hholds⟩ := Json.document_write_blank Json.Spacing.blank_lines hv hblank
  rw [String.ofList_append] at hdocument
  refine ⟨node, hholds, fun reading => ?_⟩
  rw [Json.read, printed, Json.pretty, hdocument, Whole.read]
  cases reading Json.depthLimit node <;> rfl

/-- The builtin keyboards are listed with a line for each name. -/
theorem keyboards_output (files : FileTree) (config : Config) :
    (Text.lines (run files config (.keyboards false)).output.toList).map String.ofList =
      BuiltinKeyboard.all.map BuiltinKeyboard.name := by
  have houtput : (run files config (.keyboards false)).output =
      endLines (BuiltinKeyboard.all.map BuiltinKeyboard.name) := rfl
  have hlines : ∀ line ∈ (BuiltinKeyboard.all.map BuiltinKeyboard.name).map String.toList,
      Text.Line line := by
    rw [List.map_map, List.forall_mem_map]
    intro k _
    cases k <;> exact ⟨by decide, by decide⟩
  rw [houtput, toList_endLines, Text.lines_written hlines, List.map_map]
  simp

/-- As JSON, they are a list of the names. -/
theorem keyboards_output_json (files : FileTree) (config : Config) :
    Json.read (Reading.list Reading.text) (run files config (.keyboards true)).output =
      .ok (BuiltinKeyboard.all.map BuiltinKeyboard.name) := by
  have houtput : (run files config (.keyboards true)).output =
      printed (.list ((BuiltinKeyboard.all.map BuiltinKeyboard.name).map .text)) := rfl
  obtain ⟨node, hholds, hread⟩ := read_printed
    (v := .list ((BuiltinKeyboard.all.map BuiltinKeyboard.name).map .text))
    (.list (List.forall_mem_map.mpr fun s _ => .text s))
  rw [houtput, hread]
  exact Reading.Gives.list (fun s _ => Reading.gives_text s) _ node (by decide) hholds

end Command

/-! ### Targets -/

/-- Where a key leads to that has a destination in the definition file at `path`. -/
structure Target.LeadsTo (path : FilePath) (destination : String) (target : Target) : Prop where
  builtin : ∀ k, target = .builtin k ↔ k.name = destination
  /-- The names of builtin keyboards are those that the application lists. -/
  listed : ∀ files config, (∃ k, target = .builtin k) ↔ destination ∈
    (Text.lines (Command.run files config (.keyboards false)).output.toList).map String.ofList
  /-- They are also listed as JSON. -/
  listedJson : ∀ files config, ∃ names, Json.read (Reading.list Reading.text)
      (Command.run files config (.keyboards true)).output = .ok names ∧
    ((∃ k, target = .builtin k) ↔ destination ∈ names)
  written : Json.read Reading.text (Json.compact (.text destination)) = .ok destination
  /-- However the destination is written as a JSON string, it is read as the keyboard. -/
  decoded : ∀ text, Json.read Reading.text text = .ok destination → ∀ k,
    target = .builtin k ↔
      Json.read (Reading.named BuiltinKeyboard.all BuiltinKeyboard.name) text = .ok k
  /-- A destination without a keyboard of that name is a file beside the definition file. -/
  file : ∀ file, target = .file file ↔
    (∀ k : BuiltinKeyboard, k.name ≠ destination) ∧ FilePath.Beside path destination file

theorem Target.ofDestination_eq_builtin_iff {directory : FilePath} {destination : String}
    {k : BuiltinKeyboard} :
    ofDestination directory destination = .builtin k ↔ k.name = destination := by
  rw [← BuiltinKeyboard.ofName?_eq_some_iff, ofDestination]
  cases BuiltinKeyboard.ofName? destination <;> simp

theorem Target.ofDestination_eq_file_iff {directory file : FilePath}
    {destination : String} :
    ofDestination directory destination = .file file ↔
      (∀ k : BuiltinKeyboard, k.name ≠ destination) ∧
        file = FilePath.join directory destination := by
  rw [ofDestination]
  rcases hname : BuiltinKeyboard.ofName? destination with _ | k
  · have hnone : ∀ k : BuiltinKeyboard, k.name ≠ destination := by
      intro k hk
      rw [BuiltinKeyboard.ofName?_eq_some_iff.mpr hk] at hname
      cases hname
    simp [hnone, eq_comm]
  · have hk : k.name = destination := BuiltinKeyboard.ofName?_eq_some_iff.mp hname
    simp [← hk]

theorem Target.exists_builtin_iff {directory : FilePath} {destination : String} :
    (∃ k, ofDestination directory destination = .builtin k) ↔
      destination ∈ BuiltinKeyboard.all.map BuiltinKeyboard.name := by
  simp only [ofDestination_eq_builtin_iff, List.mem_map, BuiltinKeyboard.mem_all, true_and]

theorem Target.ofDestination_leadsTo (path : FilePath) (destination : String) :
    LeadsTo path destination (ofDestination ((FilePath.parent? path).getD "") destination) where
  builtin _ := ofDestination_eq_builtin_iff
  listed files config := by rw [Command.keyboards_output, exists_builtin_iff]
  listedJson files config := ⟨_, Command.keyboards_output_json files config, exists_builtin_iff⟩
  written := Json.read_text_compact destination
  decoded text htext k := by
    rw [Json.read_named_iff BuiltinKeyboard.names_nodup htext, ofDestination_eq_builtin_iff,
      and_iff_right k.mem_all]
  file file := by rw [ofDestination_eq_file_iff, FilePath.beside_iff]

/-- **A key leads to the builtin keyboard that its destination names, and otherwise to a file.**
The keyboard at the target takes the place of this one unless the key returns. -/
theorem KeySpec.finish_link (frame : KeyFrame) (destination : String) (returns : Bool)
    (symbol? : String → Option Symbol) (path : FilePath) (symbolMargin : Option Thickness) :
    ∃ target, target.LeadsTo path destination ∧
      ((link ⟨frame, some destination, returns⟩).finish
        (.forFile symbol? path symbolMargin)).key.value = .navigate target !returns := by
  refine ⟨_, Target.ofDestination_leadsTo path destination, ?_⟩
  rw [finish_value, valueOrEmpty, value]
  rfl

end KeyLayout

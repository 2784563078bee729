/-
Reading a configuration that was written.

A configuration that is written has texts for paths, and it is written as three tables, with a line
for everything it has a value for (`exists_settings`).  Each of the tables is read as what was
written there, and so is the whole (`read_toToml`), whatever characters its texts consist of.
-/
import KeyLayout.Config.File
import KeyLayout.Proofs.Document.Holding
import KeyLayout.Proofs.Document.Rereading
import KeyLayout.Proofs.FilePath.Parent
import KeyLayout.Proofs.Toml.Tables

namespace KeyLayout.Config

open Document Toml
open KeyLayout.Json (optionalMember)

/-- The line of a text entry, if it has a value. -/
def textLines (name : String) (o : Option String) : List Line := (o.map (Line.ofText name)).toList

/-- What a configuration says when all its paths are texts. -/
structure Settings where
  keyboardsDir : Option String
  symbolsFile : Option String
  stringsFile : Option String
  verbose : Bool

/-- The configuration with these settings. -/
def Settings.config (settings : Settings) : Config :=
  ⟨settings.keyboardsDir.map .ofString, settings.symbolsFile.map .ofString,
    settings.stringsFile.map .ofString, settings.verbose⟩

/-- The tables of a configuration. -/
def Settings.groups (settings : Settings) : List Group := [
  ⟨"paths", textLines "keyboards_dir" settings.keyboardsDir⟩,
  ⟨"catalog", textLines "symbols_file" settings.symbolsFile ++
    textLines "strings_file" settings.stringsFile⟩,
  ⟨"ui", [.ofBool "verbose" settings.verbose]⟩]

/-- A line is written for a path that is a text. -/
theorem entryLine_eq_ok {name line : String} {o : Option FilePath}
    (h : entryLine name o = .ok line) :
    ∃ text : Option String, o = text.map .ofString ∧
      line.toList = (textLines name text).flatMap Line.text := by
  cases o with
  | none =>
    cases h
    exact ⟨none, rfl, rfl⟩
  | some path =>
    obtain ⟨s, hs, hline⟩ := bind_eq_ok.mp h
    obtain rfl := FilePath.written_eq_ok.mp hs
    cases hline
    refine ⟨some s, rfl, ?_⟩
    change (name ++ " = " ++ quote s ++ "\n").toList = _
    simp [textLines, Line.text, Line.ofText]

/-- A configuration that can be written has texts for paths. -/
theorem exists_settings {config : Config} {text : String} (h : config.toToml = .ok text) :
    ∃ settings : Settings, config = settings.config ∧
      text.toList = documentText settings.groups := by
  obtain ⟨keyboardsDir, symbolsFile, stringsFile, verbose⟩ := config
  obtain ⟨line, hkeyboards, h⟩ := bind_eq_ok.mp h
  obtain ⟨line', hsymbols, h⟩ := bind_eq_ok.mp h
  obtain ⟨line'', hstrings, h⟩ := bind_eq_ok.mp h
  obtain ⟨directory, rfl, hline⟩ := entryLine_eq_ok hkeyboards
  obtain ⟨symbols, rfl, hline'⟩ := entryLine_eq_ok hsymbols
  obtain ⟨strings, rfl, hline''⟩ := entryLine_eq_ok hstrings
  cases h
  refine ⟨⟨directory, symbols, strings, verbose⟩, rfl, ?_⟩
  have hverbose : s!"\n[ui]\nverbose = {verbose}\n".toList =
      '\n' :: Group.text ⟨"ui", [.ofBool "verbose" verbose]⟩ := by
    cases verbose <;> rfl
  rw [String.toList_append, hverbose]
  simp [Settings.groups, documentText, Text.joinWith, Group.text, hline, hline', hline'']

theorem textLines_reads {name : String} (hname : BareKey name.toList) (o : Option String) :
    ∀ line ∈ textLines name o, line.Reads := by
  intro line hline
  cases o with
  | none => cases hline
  | some s =>
    obtain rfl := List.mem_singleton.mp hline
    exact Line.ofText_reads hname s

theorem Settings.groups_reads (settings : Settings) : ∀ group ∈ settings.groups, group.Reads := by
  intro group hgroup
  simp only [Settings.groups, List.mem_cons, List.not_mem_nil, or_false] at hgroup
  rcases hgroup with rfl | rfl | rfl
  · have hname : BareKey "paths".toList := by decide
    refine ⟨hname, textLines_reads (by decide) _, ?_⟩
    cases settings.keyboardsDir <;> simp [textLines]
  · have hname : BareKey "catalog".toList := by decide
    refine ⟨hname, fun line hline => ?_, ?_⟩
    · rcases List.mem_append.mp hline with hline | hline
      · exact textLines_reads (by decide) _ line hline
      · exact textLines_reads (by decide) _ line hline
    · cases settings.symbolsFile <;> cases settings.stringsFile <;> simp [textLines, Line.ofText]
  · have hname : BareKey "ui".toList := by decide
    refine ⟨hname, fun line hline => ?_, by simp⟩
    obtain rfl := List.mem_singleton.mp hline
    exact Line.ofBool_reads (by decide) _

/-! ### Shapes -/

section shapes

variable {τ : Type} {shape : Shape τ} {depth : Nat}

/-- The node of a table. -/
def tableNode (lines : List Line) : Node :=
  .ofMembers (lines.map fun line => (line.name, line.node)) .withEmpty

/-- The members of a table, of which some may be missing, are read slot by slot. -/
theorem read_tableNode {lines : List Line} {entries : List (Option (String × Json.Value))}
    {last : τ}
    (hlines : MembersHold (lines.map fun line => (.ofText line.name, line.node))
      (entries.filterMap id))
    (hnodup : (shape.slots.map Slot.name).Nodup)
    (hpresence : ∀ slot ∈ shape.slots, slot.presence = .optional)
    (h : Shape.Fills shape (depth + 1) shape.slots shape.blank entries last) :
    shape.read (depth + 2) (tableNode lines) = .ok last := by
  rw [Shape.read, tableNode, Node.ofMembers, Node.bare]
  · dsimp only
    rw [descend_eq_ok.mpr ⟨by omega, rfl⟩, ok_bind, List.map_map]
    refine Shape.ofMembers_fills h hnodup (fun slot hslot hrequired => ?_) hlines none
    rw [hpresence slot hslot] at hrequired
    cases hrequired
  · simp

/-- A text entry is a member if it has a value. -/
theorem textLines_hold (name : String) (o : Option String) :
    MembersHold ((textLines name o).map fun line => (.ofText line.name, line.node))
      ([optionalMember name (o.map .text)].filterMap id) := by
  cases o with
  | none => exact .nil
  | some s => exact .cons ⟨rfl, rfl, rfl⟩ .text .nil

theorem read_pathsShape (o : Option String) :
    pathsShape.read (depth + 2) (tableNode (textLines "keyboards_dir" o)) = .ok o := by
  refine read_tableNode (textLines_hold _ o) (by decide) (by decide) ?_
  exact .option o rfl (fun s _ => Reading.gives_path s) nofun (Nat.succ_pos depth) id .nil

theorem read_catalogShape (o o' : Option String) : catalogShape.read (depth + 2)
    (tableNode (textLines "symbols_file" o ++ textLines "strings_file" o')) = .ok (o, o') := by
  have hlines := (textLines_hold "symbols_file" o).append (textLines_hold "strings_file" o')
  rw [← List.map_append, ← List.filterMap_append] at hlines
  refine read_tableNode hlines (by decide) (by decide) ?_
  refine .option o rfl (fun s _ => Reading.gives_path s) nofun (Nat.succ_pos depth) ?_ ?_
  · rintro rfl
    rfl
  refine .option o' rfl (fun s _ => Reading.gives_path s) nofun (Nat.succ_pos depth) ?_ .nil
  rintro rfl
  rfl

theorem read_uiShape (b : Bool) :
    uiShape.read (depth + 2) (tableNode [.ofBool "verbose" b]) = .ok b := rfl

/-- The three tables fill the configuration. -/
theorem Settings.read_groups (settings : Settings) :
    Config.shape.read (depth + 3) (groupEntries settings.groups).node = .ok settings.config := by
  have hkey : ∀ name, (MemberKey.ofText name).Names name := fun name => ⟨rfl, rfl, rfl⟩
  have htake : Config.shape.takeMembers (depth + 2)
      (settings.groups.map fun group => (.ofText group.name, tableNode group.lines))
        (.initial, []) = .ok (settings.config, ["ui", "catalog", "paths"]) := by
    simp only [Settings.groups, List.map_cons, List.map_nil]
    rw [Shape.takeMembers, Shape.step_slot (hkey "paths") rfl (by decide)
      (Slot.of_fill (read_pathsShape _) rfl), ok_bind]
    rw [Shape.takeMembers, Shape.step_slot (hkey "catalog") rfl (by decide)
      (Slot.of_fill (read_catalogShape _ _) rfl), ok_bind]
    rw [Shape.takeMembers, Shape.step_slot (hkey "ui") rfl (by decide)
      (Slot.of_fill (read_uiShape _) rfl), ok_bind]
    rfl
  rw [node_groups, Shape.read, Node.ofMembers, Node.bare]
  · dsimp only
    rw [descend_eq_ok.mpr ⟨by omega, rfl⟩, ok_bind, Shape.ofMembers, List.map_map]
    exact congrArg (· >>= fun state => Config.shape.complete state none) htake
  · simp

end shapes

/-- A configuration that was written is read back. -/
theorem read_toToml {config : Config} {text : String} (h : config.toToml = .ok text) :
    Toml.read shape.read text = .ok config := by
  obtain ⟨settings, rfl, htext⟩ := exists_settings h
  have htree : tree text.toList = .ok (groupEntries settings.groups).node := by
    rw [htext]
    exact tree_documentText settings.groups_reads (by simp [Settings.groups])
  have hlength : 0 < text.toList.length := by
    rw [htext]
    simp [documentText, Settings.groups, Text.joinWith, Group.text]
  obtain ⟨n, hn⟩ := Nat.exists_eq_add_of_lt hlength
  rw [Toml.read, htree, readTree, hn, Nat.zero_add]
  exact settings.read_groups

end KeyLayout.Config

/-
What is in the tables after some files were added to them.

A file that cannot be read as a catalog adds nothing, and one that can adds all of its entries
to the table of its kind (`CatalogTables.extend_of_entries`, `extend_of_none`).  So after any
calls a table holds what it held at first, and on top of that the entries of the files of its
kind in the order of the calls (`after_table`).  What the catalog answers and how many names it
knows follow from that (`after_extensions`).  The catalogs of a configuration are made so, from
the builtin ones (`Config.after_of_catalogs`).

The entries of a file are taken in the order of the text, and a name may come again: a catalog
that is written as a record is read with all of its members (`Extension.entries?_written`).
-/
import KeyLayout.Config
import KeyLayout.Proofs.Catalog.Table
import KeyLayout.Proofs.Document.Rereading
import KeyLayout.Proofs.Json.Reader

namespace KeyLayout

open Document
open KeyLayout.Json (Value optionalMember)

/-- A call that adds a file to one of the tables. -/
structure Extension where
  files : FileTree
  kind : CatalogKind
  path : FilePath

namespace Extension

/-- The entries in the file of a call, if the file can be read and holds a catalog. -/
def entries? (call : Extension) : Option (List (String × String)) :=
  match call.files.read call.path with
  | .error _ => none
  | .ok text => (Json.read call.kind.shape.read text).toOption

/-- The entries that a call gives for one of the tables. -/
def given (kind : CatalogKind) (call : Extension) : List (String × String) :=
  if call.kind = kind then call.entries?.getD [] else []

/-- The text of a name that the last call to mention it for a table gives. -/
def latest? (kind : CatalogKind) (calls : List Extension) (name : String) : Option String :=
  calls.reverse.findSome? fun call => lastText? (call.given kind) name

end Extension

namespace CatalogTables

/-- The table that files of some kind are added to. -/
def table (tables : CatalogTables) : CatalogKind → Table
  | .symbols => tables.symbols
  | .strings => tables.strings

/-- The tables behind a call. -/
def extended (tables : CatalogTables) (call : Extension) : CatalogTables :=
  (tables.extend call.files call.kind call.path).1

/-- The tables behind some calls. -/
def after (start : CatalogTables) (calls : List Extension) : CatalogTables :=
  calls.foldl extended start

variable {tables : CatalogTables} {call : Extension} {entries : List (String × String)}

/-! ### One call -/

/-- A call succeeds if its file holds a catalog; it counts the names there. -/
theorem extend_of_entries (tables : CatalogTables) (h : call.entries? = some entries) :
    ∃ log, tables.extend call.files call.kind call.path =
      (tables.add call.kind entries, .ok ((namesOf entries).card, log)) := by
  rw [Extension.entries?] at h
  rw [extend]
  cases hread : call.files.read call.path with
  | error cause => simp [hread] at h
  | ok text =>
    simp only [hread] at h
    cases hjson : Json.read call.kind.shape.read text with
    | error complaint => simp [hjson, Except.toOption] at h
    | ok found =>
      obtain rfl : found = entries := by simpa [hjson, Except.toOption] using h
      simp only [entriesOfText, hjson, Table.size_ofList]
      exact ⟨_, rfl⟩

/-- A call fails if its file cannot be read or holds no catalog, and leaves the tables alone. -/
theorem extend_of_none (tables : CatalogTables) (h : call.entries? = none) :
    ∃ e, tables.extend call.files call.kind call.path = (tables, .error e) := by
  rw [Extension.entries?] at h
  rw [extend]
  cases hread : call.files.read call.path with
  | error cause => exact ⟨_, rfl⟩
  | ok text =>
    simp only [hread] at h
    cases hjson : Json.read call.kind.shape.read text with
    | error complaint =>
      simp only [entriesOfText, hjson]
      exact ⟨_, rfl⟩
    | ok found => simp [hjson, Except.toOption] at h

theorem extended_of_entries (tables : CatalogTables) (h : call.entries? = some entries) :
    tables.extended call = tables.add call.kind entries := by
  obtain ⟨log, hextend⟩ := extend_of_entries tables h
  rw [extended, hextend]

theorem extended_of_none (tables : CatalogTables) (h : call.entries? = none) :
    tables.extended call = tables := by
  obtain ⟨e, hextend⟩ := extend_of_none tables h
  rw [extended, hextend]

theorem builtin_ascending (kind : CatalogKind) : (builtin.table kind).Ascending := by
  cases kind with
  | symbols => exact Table.ascending_ofList _
  | strings => exact Table.ascending_ofList _

/-- What comes of one more call, depending on what is in its file. -/
inductive Outcome (tables : CatalogTables) (call : Extension) : Prop
  | fails (e : CatalogError) (hentries : call.entries? = none)
      (hextend : tables.extend call.files call.kind call.path = (tables, .error e))
      (hkeeps : tables.extended call = tables)
  | succeeds (entries : List (String × String)) (tables' : CatalogTables) (log : Log)
      (hentries : call.entries? = some entries)
      (hextend : tables.extend call.files call.kind call.path =
        (tables', .ok ((namesOf entries).card, log)))
      (hgives : tables.extended call = tables')
      (hstring : call.kind = .symbols → tables'.string = tables.string)
      (hsymbol : call.kind = .strings → tables'.symbol? = tables.symbol?)

theorem outcome (tables : CatalogTables) (call : Extension) : Outcome tables call := by
  cases h : call.entries? with
  | none =>
    obtain ⟨e, hextend⟩ := extend_of_none tables h
    exact .fails e h hextend (extended_of_none tables h)
  | some entries =>
    obtain ⟨log, hextend⟩ := extend_of_entries tables h
    refine .succeeds entries _ log h hextend (extended_of_entries tables h) ?_ ?_
    · intro hkind
      rw [hkind]
      rfl
    · intro hkind
      rw [hkind]
      rfl

end CatalogTables

/-! ### The configured files -/

namespace Config

/-- The calls that add the files of a configuration to the tables. -/
def extensions (config : Config) (files : FileTree) : List Extension :=
  (config.symbolsFile.toList.map fun path => ⟨files, .symbols, path⟩) ++
    config.stringsFile.toList.map fun path => ⟨files, .strings, path⟩

theorem after_of_extendWith {files : FileTree} {kind : CatalogKind} {path : Option FilePath}
    {tables tables' : CatalogTables} {log : Log}
    (h : extendWith files kind path tables = .ok (tables', log)) :
    tables.after (path.toList.map fun path => ⟨files, kind, path⟩) = tables' := by
  cases path with
  | none =>
    cases h
    rfl
  | some path =>
    rw [extendWith] at h
    change tables.extended ⟨files, kind, path⟩ = tables'
    rw [CatalogTables.extended]
    rcases hextend : tables.extend files kind path with ⟨given, e | ⟨count, events⟩⟩
    · simp [hextend] at h
    · rw [hextend] at h
      cases h
      rfl

/-- The catalogs of a configuration are the builtin ones after the configured files. -/
theorem after_of_catalogs {config : Config} {files : FileTree} {tables : CatalogTables} {log : Log}
    (h : config.catalogs files = .ok (tables, log)) :
    CatalogTables.builtin.after (config.extensions files) = tables := by
  rw [catalogs] at h
  obtain ⟨⟨between, before⟩, hsymbols, h⟩ := bind_eq_ok.mp h
  obtain ⟨⟨last, more⟩, hstrings, h⟩ := bind_eq_ok.mp h
  cases h
  rw [extensions, CatalogTables.after, List.foldl_append]
  calc
    _ = between.after (config.stringsFile.toList.map fun path => ⟨files, .strings, path⟩) :=
      congrArg (List.foldl CatalogTables.extended · _) (after_of_extendWith hsymbols)
    _ = tables := after_of_extendWith hstrings

end Config

/-! ### Written catalogs -/

theorem Document.Reading.gives_table (entries : List (String × String)) :
    table.Gives 1 (.record (entries.map fun entry => (entry.1, Value.text entry.2))) entries := by
  rintro depth node hdepth ⟨⟩
  case record start stop members hmembers =>
    have hentries : Reading.entries (depth - 1) members = .ok entries := by
      clear hdepth
      induction entries generalizing members with
      | nil =>
        cases hmembers
        rfl
      | cons entry entries ih =>
        cases hmembers with
        | cons hkey hnode hmembers =>
          rw [Reading.entries, hkey.name, ok_bind, text_holds hnode, ok_bind, ih hmembers]
          rfl
    rw [table, Node.bare]
    · dsimp only
      rw [descend_eq_ok.mpr ⟨hdepth, rfl⟩, ok_bind, hentries]
      rfl
    · simp

/-- A catalog file as a record: a version, which may be left out, and the entries. -/
def CatalogKind.record (kind : CatalogKind) (version : Option String)
    (entries : List (String × String)) : Value :=
  .ofMembers [optionalMember "version" (version.map .text),
    optionalMember kind.member (some (.record (entries.map fun entry => (entry.1, .text entry.2))))]

theorem CatalogKind.record_readable (kind : CatalogKind) (version : Option String)
    (entries : List (String × String)) : (kind.record version entries).Readable := by
  have hentries :
      (Value.record (entries.map fun entry => (entry.1, Value.text entry.2))).Readable := by
    refine .record fun m hm => ?_
    obtain ⟨entry, -, rfl⟩ := List.mem_map.mp hm
    exact .text _
  refine .record fun m hm => ?_
  cases version with
  | none =>
    obtain rfl := List.mem_singleton.mp hm
    exact hentries
  | some version =>
    rcases List.mem_pair.mp hm with rfl | rfl
    · exact .text _
    · exact hentries

theorem CatalogKind.gives_record (kind : CatalogKind) (version : Option String)
    (entries : List (String × String)) :
    kind.shape.read.Gives 2 (kind.record version entries) entries := by
  have hnodup : (kind.shape.slots.map Slot.name).Nodup := by cases kind <;> decide
  refine Reading.Gives.ofMembers hnodup ?_ fun depth hdepth => ?_
  · cases kind <;> cases version <;> simp [shape, Slot.of, member, optionalMember]
  · have hversion : kind.shape.slot? "version" = some (Slot.of "version" .optional
        (Reading.optional Reading.text) fun entries _ => entries) := by cases kind <;> rfl
    have hmember : kind.shape.slot? kind.member =
        some (Slot.of kind.member .required Reading.table fun _ entries => entries) := by
      cases kind <;> rfl
    refine .option version hversion (fun x _ => Reading.gives_text x) (by simp) (by omega)
      (fun _ => rfl) ?_
    exact .of hmember (Reading.gives_table entries) hdepth .nil

/-- A catalog that is written as a record gives its entries in their order, also those of a name
that comes again. -/
theorem Extension.entries?_written {call : Extension} {version : Option String}
    {entries : List (String × String)}
    (hread : call.files.read call.path = .ok (Json.pretty (call.kind.record version entries))) :
    call.entries? = some entries := by
  obtain ⟨node, hholds, hpretty⟩ := Json.read_pretty (call.kind.record_readable version entries)
  have hgives := call.kind.gives_record version entries Json.depthLimit node (by decide) hholds
  rw [entries?, hread]
  dsimp only
  rw [hpretty, hgives]
  rfl

end KeyLayout

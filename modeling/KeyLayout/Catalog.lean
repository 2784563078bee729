/-
Catalogs: what a keyboard needs to know besides its definition.

While a keyboard is built, a catalog is asked for two things only: the symbol of a
name, which may be unknown, and the text of a name, for which there is always an
answer (`Catalog`).  The application keeps its catalog in two tables (`CatalogTables`);
a file can add to either of them.  A text that is in no table is its own name, so a
missing text shows on the screen.
-/
import KeyLayout.Catalog.Builtin
import KeyLayout.FileTree
import KeyLayout.Json.Reader
import KeyLayout.Key
import KeyLayout.Log

namespace KeyLayout

open Document

/-- What a keyboard is built with. -/
structure Catalog where
  symbol? : String → Option Symbol
  string : String → String

/-- The tables behind a catalog. -/
structure CatalogTables where
  symbols : Table
  strings : Table
deriving DecidableEq

namespace CatalogTables

def empty : CatalogTables := ⟨.empty, .empty⟩

/-- The tables that come with the application. -/
def builtin : CatalogTables := ⟨Catalog.builtinSymbols, Catalog.builtinStrings⟩

def symbol? (tables : CatalogTables) (name : String) : Option Symbol :=
  (tables.symbols.find? name).map fun pathData => ⟨name, pathData⟩

/-- The text of a name, or else the name. -/
def string (tables : CatalogTables) (name : String) : String :=
  (tables.strings.find? name).getD name

/-- The catalog that answers from the tables. -/
def catalog (tables : CatalogTables) : Catalog := ⟨tables.symbol?, tables.string⟩

end CatalogTables

/-- Which of the two tables a file adds to. -/
inductive CatalogKind
  | symbols
  | strings
deriving DecidableEq

namespace CatalogKind

def member : CatalogKind → String
  | symbols => "symbols"
  | strings => "strings"

/-- How messages call a file of this kind. -/
def title : CatalogKind → String
  | symbols => "symbol"
  | strings => "string"

/-- How messages call the record in the file. -/
def recordTitle : CatalogKind → String
  | symbols => "struct SymbolFile"
  | strings => "struct StringFile"

/-- The members of a catalog file: a version, which may be missing, and the entries. -/
def shape (kind : CatalogKind) : Shape (List (String × String)) where
  title := kind.recordTitle
  blank := []
  slots := [
    .of "version" .optional (Reading.optional Reading.text) fun entries _ => entries,
    .of kind.member .required Reading.table fun _ entries => entries]

end CatalogKind

inductive CatalogError
  | unreadable (kind : CatalogKind) (path : FilePath) (cause : FileError)
  /-- The text of the file is no catalog; the complaint is given in words. -/
  | malformed (kind : CatalogKind) (path : FilePath) (complaint : String)
deriving DecidableEq

namespace CatalogError

/-- The wording of a failure, without its cause. -/
def message : CatalogError → String
  | unreadable kind path _ => s!"Failed to read {kind.title} file: {path}"
  | malformed kind path _ => s!"Failed to parse {kind.title} file: {path}"

/-- The wording of a failure followed by its cause. -/
def chain (e : CatalogError) : String :=
  match e with
  | unreadable _ _ cause => s!"{e.message}: {cause.message}"
  | malformed _ _ complaint => s!"{e.message}: {complaint}"

end CatalogError

namespace CatalogTables

def entriesOfText (kind : CatalogKind) (path : FilePath) (text : String) :
    Except CatalogError (List (String × String)) :=
  match Json.read kind.shape.read text with
  | .ok entries => .ok entries
  | .error complaint => .error (.malformed kind path (complaint.message text))

/-- The tables with entries added to one of them. -/
def add (tables : CatalogTables) (kind : CatalogKind) (entries : List (String × String)) :
    CatalogTables :=
  match kind with
  | .symbols => { tables with symbols := tables.symbols.insertAll entries }
  | .strings => { tables with strings := tables.strings.insertAll entries }

/-- Adds a file to one of the tables. Gives the tables, whatever came of it, and the number of names
in the file. -/
def extend (tables : CatalogTables) (files : FileTree) (kind : CatalogKind) (path : FilePath) :
    CatalogTables × Except CatalogError (Nat × Log) :=
  match files.read path with
  | .error cause => (tables, .error (.unreadable kind path cause))
  | .ok text =>
    match entriesOfText kind path text with
    | .error e => (tables, .error e)
    | .ok entries =>
      let count := (Table.ofList entries).size
      (tables.add kind entries,
        .ok (count, [⟨.debug, s!"Loaded {count} {kind.member} from {path}"⟩]))

end CatalogTables

end KeyLayout

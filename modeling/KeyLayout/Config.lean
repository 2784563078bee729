/-
The configuration of the application.

It names a directory of keyboards and up to two files that add to the catalogs, and
it says whether the application is to talk a lot.

A configuration is valid when everything it names is there (`Config.check`).  Where a
keyboard is looked for is told by `Config.resolve`: a relative path that leads nowhere
is tried in the directory of keyboards, any other path is taken as it stands.
-/
import KeyLayout.Catalog
import KeyLayout.FilePath
import KeyLayout.FileTree

namespace KeyLayout

/-- Settings of the application. -/
structure Config where
  /-- Where keyboards are that are given by a relative path. -/
  keyboardsDir : Option FilePath
  symbolsFile : Option FilePath
  stringsFile : Option FilePath
  verbose : Bool
deriving DecidableEq

/-- Why a configuration cannot be used, loaded or saved. -/
inductive ConfigError
  | unreadable (path : FilePath) (cause : FileError)
  /-- The text of the file is no configuration; the complaint is given in words. -/
  | malformed (path : FilePath) (complaint : String)
  | noKeyboardsDir (path : FilePath)
  | noCatalogFile (kind : CatalogKind) (path : FilePath)
  | directoryNotMade (path : FilePath) (cause : FileError)
  /-- The configuration names something by a path that cannot be written. -/
  | unwritable (cause : WriteError)
  | notWritten (path : FilePath) (cause : FileError)
  | notRenamed (path : FilePath) (cause : FileError)
deriving DecidableEq

namespace ConfigError

/-- How the configuration calls a file for one of the catalogs. -/
def catalogTitle : CatalogKind → String
  | .symbols => "Symbol"
  | .strings => "String"

/-- The wording of a failure, without its cause. -/
def message : ConfigError → String
  | unreadable path _ => s!"Failed to read config file: {path}"
  | malformed path _ => s!"Failed to parse config file: {path}"
  | noKeyboardsDir path => s!"Keyboards directory does not exist: {path}"
  | noCatalogFile kind path => s!"{catalogTitle kind} file does not exist: {path}"
  | directoryNotMade path _ => s!"Failed to create config directory: {path}"
  | unwritable _ => "Failed to serialize configuration"
  | notWritten path _ => s!"Failed to write temp config file: {path}"
  | notRenamed path _ => s!"Failed to rename temp config file to: {path}"

/-- What is behind a failure. -/
def cause? : ConfigError → Option String
  | unreadable _ cause => some cause.message
  | malformed _ complaint => some complaint
  | noKeyboardsDir _ => none
  | noCatalogFile _ _ => none
  | directoryNotMade _ cause => some cause.message
  | unwritable cause => some cause.message
  | notWritten _ cause => some cause.message
  | notRenamed _ cause => some cause.message

/-- The wording of a failure followed by its cause. -/
def chain (e : ConfigError) : String :=
  match e.cause? with
  | some cause => s!"{e.message}: {cause}"
  | none => e.message

end ConfigError

namespace Config

/-- The configuration of an application that was never configured. -/
def initial : Config := ⟨none, none, none, false⟩

/-- Checks that the directory of keyboards, if it is named, is there. -/
def checkKeyboardsDir (files : FileTree) : Option FilePath → Except ConfigError Unit
  | none => .ok ()
  | some path => if files.isDirectory path then .ok () else .error (.noKeyboardsDir path)

/-- Checks that a catalog file, if it is named, is there. -/
def checkCatalogFile (files : FileTree) (kind : CatalogKind) :
    Option FilePath → Except ConfigError Unit
  | none => .ok ()
  | some path => if files.isFile path then .ok () else .error (.noCatalogFile kind path)

/-- Checks that everything the configuration names is there. -/
def check (config : Config) (files : FileTree) : Except ConfigError Unit := do
  checkKeyboardsDir files config.keyboardsDir
  checkCatalogFile files .symbols config.symbolsFile
  checkCatalogFile files .strings config.stringsFile

/-- The tables with a catalog file added, if there is one. -/
def extendWith (files : FileTree) (kind : CatalogKind) (path : Option FilePath)
    (tables : CatalogTables) : Except CatalogError (CatalogTables × Log) :=
  match path with
  | none => .ok (tables, [])
  | some path =>
    match tables.extend files kind path with
    | (tables, .ok (_, log)) => .ok (tables, log)
    | (_, .error e) => .error e

/-- The builtin catalogs with what the configured files add. -/
def catalogs (config : Config) (files : FileTree) : Except CatalogError (CatalogTables × Log) := do
  let (tables, log) ← extendWith files .symbols config.symbolsFile .builtin
  let (tables, more) ← extendWith files .strings config.stringsFile tables
  return (tables, log ++ more)

/-- The path under which a keyboard is looked for. -/
def resolve (config : Config) (files : FileTree) (path : FilePath) : FilePath :=
  if path.isEmpty || FilePath.isAbsolute path || files.exists? path then path
  else
    match config.keyboardsDir with
    | none => path
    | some directory =>
      let candidate := FilePath.join directory path
      if files.exists? candidate then candidate else path

end Config

end KeyLayout

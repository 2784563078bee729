/-
Configuration files.

A configuration file is written in TOML, one table for each group of settings.  A file
that is not there stands for the initial configuration.

Saving writes to another file first, beside the one that is meant, and then gives it
the right name; so whatever goes wrong, a file that was there before is still whole, unless
the other file is the same one under another name.
-/
import KeyLayout.Config
import KeyLayout.Document.Reading
import KeyLayout.Json.Value
import KeyLayout.Toml.Reader
import KeyLayout.Toml.Writer

namespace KeyLayout.Config

open Document

def pathsShape : Shape (Option String) where
  title := "struct PathConfig"
  blank := none
  slots := [.of "keyboards_dir" .optional (Reading.optional Reading.path) fun _ path => path]

/-- The table of catalog files: for symbols and for strings. -/
def catalogShape : Shape (Option String × Option String) where
  title := "struct CatalogConfig"
  blank := (none, none)
  slots := [
    .of "symbols_file" .optional (Reading.optional Reading.path) fun files path => (path, files.2),
    .of "strings_file" .optional (Reading.optional Reading.path) fun files path => (files.1, path)]

/-- The table of preferences. -/
def uiShape : Shape Bool where
  title := "struct UiConfig"
  blank := false
  slots := [.of "verbose" .optional Reading.bool fun _ b => b]

/-- The whole configuration; every table and every entry may be missing. -/
def shape : Shape Config where
  title := "struct Config"
  blank := .initial
  slots := [
    .of "paths" .optional pathsShape.read
      fun c path => { c with keyboardsDir := path.map .ofString },
    .of "catalog" .optional catalogShape.read
      fun c files => { c with
        symbolsFile := files.1.map .ofString, stringsFile := files.2.map .ofString },
    .of "ui" .optional uiShape.read fun c b => { c with verbose := b }]

/-- A line for a path, if there is one. -/
def entryLine (name : String) : Option FilePath → Except WriteError String
  | some path => do return s!"{name} = {Toml.quote (← path.written)}\n"
  | none => .ok ""

/-- A configuration as it is written; every path in it has to be a text. -/
def toToml (c : Config) : Except WriteError String := do
  let keyboardsDir ← entryLine "keyboards_dir" c.keyboardsDir
  let symbolsFile ← entryLine "symbols_file" c.symbolsFile
  let stringsFile ← entryLine "strings_file" c.stringsFile
  return "[paths]\n" ++ keyboardsDir ++ "\n[catalog]\n" ++ symbolsFile ++ stringsFile ++
    s!"\n[ui]\nverbose = {c.verbose}\n"

/-- Where the configuration file is, given the directory for the configurations
of all applications. -/
def defaultPath (home : FilePath) : FilePath :=
  FilePath.join (FilePath.join home "dynkey") "config.toml"

/-- Reads a configuration file, without a look at what it names. -/
def read (files : FileTree) (path : FilePath) : Except ConfigError Config :=
  if !files.exists? path then .ok .initial
  else
    match files.read path with
    | .error cause => .error (.unreadable path cause)
    | .ok text =>
      match Toml.read shape.read text with
      | .error complaint => .error (.malformed path (complaint.message text))
      | .ok config => .ok config

/-- Loads a configuration file; everything it names has to be there. -/
def load (files : FileTree) (path : FilePath) : Except ConfigError Config :=
  match read files path with
  | .error e => .error e
  | .ok config =>
    match config.check files with
    | .ok () => .ok config
    | .error e => .error e

/-- The file that is written before it gets its name. -/
def temporaryPath (path : FilePath) : FilePath := FilePath.withExtension path "toml.tmp"

def makeParent (files : FileTree) (path : FilePath) : FileTree × Except ConfigError Unit :=
  match FilePath.parent? path with
  | none => (files, .ok ())
  | some parent =>
    if parent.isEmpty then (files, .ok ())
    else
      match files.makeDirectories parent with
      | (files, .ok ()) => (files, .ok ())
      | (files, .error cause) => (files, .error (.directoryNotMade parent cause))

/-- Saves a valid configuration. -/
def save (config : Config) (files : FileTree) (path : FilePath) :
    FileTree × Except ConfigError Unit :=
  match config.check files with
  | .error e => (files, .error e)
  | .ok () =>
    match makeParent files path with
    | (files, .error e) => (files, .error e)
    | (files, .ok ()) =>
      match config.toToml with
      | .error cause => (files, .error (.unwritable cause))
      | .ok text =>
        let temporary := temporaryPath path
        match files.write temporary text with
        | (files, .error cause) => (files, .error (.notWritten temporary cause))
        | (files, .ok ()) =>
          match files.rename temporary path with
          | (files, .error cause) => (files, .error (.notRenamed path cause))
          | (files, .ok ()) => (files, .ok ())

end KeyLayout.Config

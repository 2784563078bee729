/-
Definition files.

A definition file is written in one of four formats, which its extension tells; a
file with any other extension, or with none, is JSON.  `DefinitionFormat.read` reads
a definition from a text, `Definition.load` from a file.
-/
import KeyLayout.Definition.Record
import KeyLayout.FileTree
import KeyLayout.Json5.Reader
import KeyLayout.Log
import KeyLayout.Toml.Reader
import KeyLayout.Yaml.Reader

namespace KeyLayout

open Document

inductive DefinitionFormat
  | json
  | json5
  | yaml
  | toml
deriving DecidableEq

namespace DefinitionFormat

def name : DefinitionFormat → String
  | json => "JSON"
  | json5 => "JSON5"
  | yaml => "YAML"
  | toml => "TOML"

/-- The format of a file, by its extension in any case. -/
def ofPath (path : FilePath) : DefinitionFormat :=
  match ((FilePath.extension? path).bind RawText.text?).map String.toLower with
  | some "json5" => json5
  | some "yaml" => yaml
  | some "yml" => yaml
  | some "toml" => toml
  | _ => json

def read : DefinitionFormat → String → Except Complaint Definition
  | json, text => Json.read Definition.shape.read text
  | json5, text => Json5.read Definition.shape.read text
  | yaml, text => Yaml.read Definition.shape.read text
  | toml, text => Toml.read Definition.shape.read text

end DefinitionFormat

inductive LoadError
  /-- There is no path. -/
  | noPath
  | unreadable (path : FilePath) (cause : FileError)
  /-- The text of the file is no definition; the complaint is given in words. -/
  | malformed (path : FilePath) (format : DefinitionFormat) (complaint : String)
deriving DecidableEq

namespace LoadError

/-- The wording of a failure together with its cause. -/
def message : LoadError → String
  | noPath => "No keyboard definition file specified"
  | unreadable path cause => s!"Failed to read keyboard file: {path}: {cause.message}"
  | malformed path format complaint =>
    s!"Failed to parse keyboard file {path} as {format.name}: {complaint}"

end LoadError

def Definition.load (files : FileTree) (path : FilePath) : Except LoadError Definition × Log :=
  if path.isEmpty then (.error .noPath, [])
  else
    match files.read path with
    | .error cause => (.error (.unreadable path cause), [])
    | .ok text =>
      let format := DefinitionFormat.ofPath path
      let log : Log := [⟨.debug, s!"Parsing {path} as {format.name}"⟩]
      match format.read text with
      | .ok definition => (.ok definition, log)
      | .error complaint => (.error (.malformed path format (complaint.message text)), log)

end KeyLayout

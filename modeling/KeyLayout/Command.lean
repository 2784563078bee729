/-
The commands of the application.

* `compile` shows a keyboard, an error screen included;
* `validate` judges a keyboard; strictly, a warning is as bad as an error;
* `keyboards` lists the builtin keyboards.

A command gives what is to be printed and, where it fails, an error, which tells the
exit code.
-/
import KeyLayout.Config
import KeyLayout.Keyboard.Report

namespace KeyLayout

/-- A command with its options. -/
inductive Command
  | compile (file : Option FilePath) (json : Bool)
  | validate (file : Option FilePath) (json strict : Bool)
  | keyboards (json : Bool)
deriving DecidableEq

inductive CommandError
  | catalogs (e : CatalogError)
  | invalid (path : FilePath)
  | warnings (count : Nat)
  /-- What is to be printed as JSON has no written form. -/
  | unwritable (cause : WriteError)
deriving DecidableEq

namespace CommandError

def message : CommandError → String
  | catalogs e => s!"Failed to load catalogs: {e.chain}"
  | invalid path => s!"Keyboard definition is invalid: {path}"
  | warnings count => s!"{count} key warning(s) in strict mode"
  | unwritable cause => s!"Failed to serialize JSON: {cause.message}"

/-- A keyboard that was judged gives another exit code than one that was not. -/
def exitCode : CommandError → Nat
  | catalogs _ => 2
  | invalid _ => 1
  | warnings _ => 1
  | unwritable _ => 2

end CommandError

/-- What a command comes to. -/
structure CommandOutcome where
  output : String
  error : Option CommandError
  log : Log
deriving DecidableEq

/-- The exit code of an outcome; zero is success. -/
def CommandOutcome.exitCode (o : CommandOutcome) : Nat :=
  match o.error with
  | some e => e.exitCode
  | none => 0

namespace Command

/-- A JSON value as it is printed. -/
def printed (v : Json.Value) : String := Json.pretty v ++ "\n"

/-- Loads the keyboard that a command is about, and gives its path as well. -/
def loadKeyboard (files : FileTree) (config : Config) (file : Option FilePath) :
    Except CatalogError (FilePath × Keyboard × Log) :=
  match config.catalogs files with
  | .error e => .error e
  | .ok (tables, log) =>
    let path := config.resolve files (file.getD "")
    let (keyboard, events) := Keyboard.load files path tables.catalog
    .ok (path, keyboard, log ++ events)

/-- What is wrong with a keyboard in the eyes of `validate`. -/
def objection (k : Keyboard) (path : FilePath) (strict : Bool) : Option CommandError :=
  if k.isErrorScreen then some (.invalid path)
  else if strict && !k.findings.isEmpty then some (.warnings k.findings.length)
  else none

def run (files : FileTree) (config : Config) : Command → CommandOutcome
  | compile file json =>
    match loadKeyboard files config file with
    | .error e => ⟨"", some (.catalogs e), []⟩
    | .ok (path, keyboard, log) =>
      if json then
        match keyboard.summaryJson path with
        | .error cause => ⟨"", some (.unwritable cause), log⟩
        | .ok summary => ⟨printed summary, none, log⟩
      else ⟨endLines (keyboard.summaryLines path), none, log⟩
  | validate file json strict =>
    match loadKeyboard files config file with
    | .error e => ⟨"", some (.catalogs e), []⟩
    | .ok (path, keyboard, log) =>
      let output := if json then printed keyboard.verdictJson else endLines keyboard.verdictLines
      ⟨output, objection keyboard path strict, log⟩
  | keyboards json =>
    let names := BuiltinKeyboard.all.map BuiltinKeyboard.name
    let output := if json then printed (.list (names.map .text)) else endLines names
    ⟨output, none, []⟩

end Command

end KeyLayout

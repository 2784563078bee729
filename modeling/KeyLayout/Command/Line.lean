/-
The command line.

Arguments are read from left to right.  Options that concern the whole application may
stand before or behind the name of the command; a command takes options of its own and
at most one file.  Behind two dashes every argument is a file.  No option may be given
twice in the same part of the command line, and an option that asks for help or for the
version is answered at once.

* `Invocation.ofArguments` reads the arguments;
* `Invocation.run` answers them.
-/
import KeyLayout.Command
import KeyLayout.Config.File

namespace KeyLayout

/-- What the application is asked to do. -/
inductive Invocation
  | help
  | version
  /-- A command, with what concerns the whole application. -/
  | run (command : Command) (configPath : Option FilePath) (verbose : Bool)
deriving DecidableEq

inductive UsageError
  | noCommand
  | unknownCommand (name : String)
  | unknownOption (text : String)
  | repeated (option : String)
  | noValue (option : String)
  /-- An option that takes no value has one. -/
  | unwantedValue (option : String)
  | tooManyFiles (file : String)
  | emptyFile
deriving DecidableEq

def UsageError.message : UsageError → String
  | noCommand => "a command is missing"
  | unknownCommand name => s!"unrecognized command '{name}'"
  | unknownOption text => s!"unexpected argument '{text}'"
  | repeated option => s!"the argument '{option}' cannot be used multiple times"
  | noValue option => s!"a value is required for '{option}'"
  | unwantedValue option => s!"unexpected value for '{option}'"
  | tooManyFiles file => s!"unexpected argument '{file}'"
  | emptyFile => "a file needs a name"

namespace CommandLine

inductive Opt
  | verbose
  | config
  | json
  | strict
  | help
  | version
deriving DecidableEq

/-- How an option is written out. -/
def Opt.long : Opt → String
  | verbose => "verbose"
  | config => "config"
  | json => "json"
  | strict => "strict"
  | help => "help"
  | version => "version"

/-- The letter of an option that has one. -/
def Opt.letter? : Opt → Option Char
  | verbose => some 'v'
  | help => some 'h'
  | version => some 'V'
  | _ => none

/-- The commands by name. -/
inductive Name
  | compile
  | validate
  | keyboards
deriving DecidableEq

def Name.ofText? : String → Option Name
  | "compile" => some .compile
  | "validate" => some .validate
  | "keyboards" => some .keyboards
  | _ => none

/-- The options that may stand in a part of the command line: before the command, or behind it. -/
def options : Option Name → List Opt
  | none => [.verbose, .config, .help, .version]
  | some .compile => [.verbose, .config, .json, .help]
  | some .validate => [.verbose, .config, .json, .strict, .help]
  | some .keyboards => [.verbose, .config, .json, .help]

def takesFile : Option Name → Bool
  | none => false
  | some .keyboards => false
  | some _ => true

/-- One thing that an argument says. -/
inductive Item
  /-- An option, with a value that is part of the argument. -/
  | option (o : Opt) (value : Option String)
  | word (text : String)
  /-- From here on every argument is a word. -/
  | wordsOnly
deriving DecidableEq

/-- The letters of one argument as options. -/
def letters (known : List Opt) : List Char → Except UsageError (List Item)
  | [] => .ok []
  | c :: rest =>
    match known.find? (·.letter? == some c) with
    | none => .error (.unknownOption s!"-{c}")
    | some o =>
      match rest with
      | '=' :: value => .ok [.option o (some (String.ofList value))]
      | _ => (letters known rest).map (.option o none :: ·)

/-- What one argument says. -/
def items (known : List Opt) (argument : String) : Except UsageError (List Item) :=
  match argument.toList with
  | ['-', '-'] => .ok [.wordsOnly]
  | '-' :: '-' :: text =>
    let (name, rest) := text.span (· != '=')
    match known.find? (·.long == String.ofList name) with
    | none => .error (.unknownOption argument)
    | some o =>
      match rest with
      | [] => .ok [.option o none]
      | _ :: value => .ok [.option o (some (String.ofList value))]
  | '-' :: c :: rest => letters known (c :: rest)
  | _ => .ok [.word argument]

/-- What was read in one part of the command line. -/
structure Part where
  configPath : Option FilePath
  flags : List Opt
  file : Option FilePath
deriving DecidableEq

def Part.empty : Part := ⟨none, [], none⟩

/-- Where the reading of a part has got to. -/
inductive Step
  | next (part : Part)
  /-- An option is waiting for its value. -/
  | awaitConfig (part : Part)
  /-- All further arguments are words. -/
  | words (part : Part)
  /-- The command starts here. -/
  | command (name : Name) (part : Part)
  /-- Help is asked for; the further arguments may name a command. -/
  | helpOn
  | help
  | version
deriving DecidableEq

def takeConfig (part : Part) (path : String) : Except UsageError Part :=
  if path.isEmpty then .error (.noValue "--config")
  else if part.configPath.isSome then .error (.repeated "--config")
  else .ok { part with configPath := some (.ofString path) }

def takeFlag (part : Part) (o : Opt) (value : Option String) : Except UsageError Part :=
  if value.isSome then .error (.unwantedValue s!"--{o.long}")
  else if part.flags.contains o then .error (.repeated s!"--{o.long}")
  else .ok { part with flags := o :: part.flags }

def takeFile (name : Option Name) (part : Part) (text : String) : Except UsageError Part :=
  if !takesFile name || part.file.isSome then .error (.tooManyFiles text)
  else if text.isEmpty then .error .emptyFile
  else .ok { part with file := some (.ofString text) }

/-- Takes a word: the name of a command, if none was given yet, or else a file. -/
def takeWord (name : Option Name) (part : Part) (text : String) : Except UsageError Step :=
  match name with
  | some _ => (takeFile name part text).map .next
  | none =>
    if text == "help" then .ok .helpOn
    else
      match Name.ofText? text with
      | some name => .ok (.command name part)
      | none => .error (.unknownCommand text)

def takeOption (part : Part) (o : Opt) (value : Option String) : Except UsageError Step :=
  match o, value with
  | .help, none => .ok .help
  | .version, none => .ok .version
  | .config, none => .ok (.awaitConfig part)
  | .config, some path => (takeConfig part path).map .next
  | o, value => (takeFlag part o value).map .next

def takeItems (name : Option Name) (part : Part) : List Item → Except UsageError Step
  | [] => .ok (.next part)
  | .wordsOnly :: _ => .ok (.words part)
  | .word text :: _ => takeWord name part text
  | .option o value :: rest =>
    match takeOption part o value with
    | .ok (.next part) => takeItems name part rest
    | step => step

/-- Reads the files behind two dashes. -/
def readWords (name : Option Name) (part : Part) : List String → Except UsageError Part
  | [] => .ok part
  | word :: rest =>
    match takeFile name part word with
    | .ok part => readWords name part rest
    | .error e => .error e

/-- How one part of the command line ends. -/
inductive Ending
  | over (part : Part)
  | command (name : Name) (part : Part) (rest : List String)
  | help
  | version
deriving DecidableEq

/-- Answers a question for help, which at most one command may be named in. -/
def helpOn : List String → Except UsageError Ending
  | [] => .ok .help
  | [name] =>
    if name == "help" || (Name.ofText? name).isSome then .ok .help else .error (.unknownCommand name)
  | _ :: name :: _ => .error (.unknownCommand name)

/-- Whether an argument can be the value of an option before it. -/
def isValue (argument : String) : Bool :=
  match argument.toList with
  | '-' :: _ :: _ => false
  | _ => true

/-- Reads one part of the command line. -/
def readPart (name : Option Name) (part : Part) : List String → Except UsageError Ending
  | [] => .ok (.over part)
  | argument :: rest => do
    match ← takeItems name part (← items (options name) argument) with
    | .help => return .help
    | .version => return .version
    | .helpOn => helpOn rest
    | .command name part => return .command name part rest
    | .words part => return .over (← readWords name part rest)
    | .next part => readPart name part rest
    | .awaitConfig part =>
      match rest with
      | [] => throw (.noValue "--config")
      | path :: rest =>
        if isValue path then readPart name (← takeConfig part path) rest
        else throw (.noValue "--config")

/-- The command that a part of the command line gives. -/
def command (name : Name) (part : Part) : Command :=
  let json := part.flags.contains .json
  match name with
  | .compile => .compile part.file json
  | .validate => .validate part.file json (part.flags.contains .strict)
  | .keyboards => .keyboards json

end CommandLine

open CommandLine in
/-- Reads the arguments of the application. What stands behind the command goes before what stands
in front of it. -/
def Invocation.ofArguments (arguments : List String) : Except UsageError Invocation := do
  match ← readPart none .empty arguments with
  | .help => return .help
  | .version => return .version
  | .over _ => throw .noCommand
  | .command name front rest =>
    match ← readPart (some name) .empty rest with
    | .help => return .help
    | .version => return .version
    | .over part =>
      return .run (CommandLine.command name part) (part.configPath <|> front.configPath)
        (part.flags.contains .verbose || front.flags.contains .verbose)
    | .command _ _ _ => throw .noCommand

/-- What keeps the application from doing what it is asked to do. -/
inductive Trouble
  | usage (e : UsageError)
  | command (e : CommandError)
deriving DecidableEq

def Trouble.text : Trouble → String
  | usage e => s!"error: {e.message}"
  | command e => s!"Error: {e.message}"

/-- What the application comes to. -/
structure Answer where
  exitCode : Nat
  output : String
  /-- What kept the configuration from being used. -/
  warning : Option String
  trouble : Option Trouble
  log : Log
deriving DecidableEq

/-- How to call the application. -/
def usage : String :=
  "Usage: dynkey [--verbose] [--config FILE] COMMAND\n\n" ++
  "Commands:\n" ++
  "  compile [FILE] [--json]              print the grid of a keyboard\n" ++
  "  validate [FILE] [--json] [--strict]  say what is wrong with a keyboard\n" ++
  "  keyboards [--json]                   list the builtin keyboards\n"

/-- The configuration in a file; when it cannot be used, the initial one and a warning. -/
def loadConfig (files : FileTree) (path : FilePath) : Config × Option String :=
  match Config.load files path with
  | .ok config => (config, none)
  | .error e => (.initial, some e.chain)

/-- Does what the application is asked to do; `home` is the directory for configurations of all
applications. -/
def Invocation.answer (files : FileTree) (home : FilePath) : Invocation → Answer
  | help => ⟨0, usage, none, none, []⟩
  | version => ⟨0, "dynkey 0.1.0\n", none, none, []⟩
  | run command configPath _ =>
    let (config, warning) := loadConfig files (configPath.getD (Config.defaultPath home))
    let outcome := command.run files config
    ⟨outcome.exitCode, outcome.output, warning, outcome.error.map .command, outcome.log⟩

/-- Answers arguments; refused ones give exit code 2. -/
def answerArguments (files : FileTree) (home : FilePath) (arguments : List String) : Answer :=
  match Invocation.ofArguments arguments with
  | .ok invocation => invocation.answer files home
  | .error e => ⟨2, "", none, some (.usage e), []⟩

end KeyLayout

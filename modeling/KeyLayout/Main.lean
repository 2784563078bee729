/-
The program.

What the program comes to is a value, so before it is worked out the files that matter
are looked up: the configuration, what the configuration names, and the places where the
keyboard may be.  What is printed goes to the standard output, events and trouble to the
error output.
-/
import KeyLayout.Command.Line

namespace KeyLayout.Program

/-- A name as the disk is asked for it; names that are no text are not looked for. -/
def diskPath? (name : FileName) : Option String :=
  (name.mapM RawText.text?).map fun parts => "/" ++ Text.join "/" parts

/-- The tree with what stands under a name on the disk, and whether anything does. -/
def lookAt (tree : FileTree) (name : FileName) : IO (FileTree × Bool) := do
  let some path := diskPath? name | return (tree, false)
  try
    let bytes ← IO.FS.readBinFile path
    let id := tree.freshId
    return ((tree.put name (.file id)).setContent id ⟨bytes.data.toList⟩, true)
  catch e =>
    match e with
    | .inappropriateType _ code _ =>
      return if code == 21 then (tree.put name .directory, true) else (tree, false)
    | _ => return (tree, false)

/-- Looks up what stands along a path. The disk follows links by itself. -/
def follow (tree : FileTree) (name : FileName) : List RawText → IO FileTree
  | [] => return tree
  | part :: parts => do
    if part = "" || part = "." then follow tree name parts
    else if part = ".." then follow tree name.dropLast parts
    else
      let name := name ++ [part]
      match ← lookAt tree name with
      | (tree, true) => follow tree name parts
      | (tree, false) => return tree

/-- Looks up what a path leads to. -/
def lookUp (tree : FileTree) (path : FilePath) : IO FileTree :=
  let start := if FilePath.isAbsolute path then [] else tree.workingDirectory
  follow tree start (FilePath.pieces path)

/-- Looks up what several paths lead to. -/
def lookUpAll (tree : FileTree) : List FilePath → IO FileTree
  | [] => return tree
  | path :: paths => do lookUpAll (← lookUp tree path) paths

/-- Files of which nothing is known yet but the working directory. -/
def unknownFiles : IO FileTree := do
  let directory : RawText := toString (← IO.currentDir)
  return ⟨(FilePath.pieces directory).filter (!·.isEmpty), [], [], none⟩

/-- The directory for the configurations of all applications. -/
def configHome : IO FilePath := do
  let home := FilePath.join (.ofString ((← IO.getEnv "HOME").getD "")) ".config"
  match (← IO.getEnv "XDG_CONFIG_HOME").map RawText.ofString with
  | some path => return if FilePath.isAbsolute path then path else home
  | none => return home

/-- The keyboard that a command is about. -/
def fileOf : Command → Option FilePath
  | .compile file _ => file
  | .validate file _ _ => file
  | .keyboards _ => none

/-- The paths that matter for a command with some configuration. -/
def pathsOf (config : Config) (command : Command) : List FilePath :=
  let file := (fileOf command).toList
  let inDirectory := config.keyboardsDir.toList.flatMap fun d => file.map (FilePath.join d)
  config.keyboardsDir.toList ++ config.symbolsFile.toList ++ config.stringsFile.toList ++
    file ++ inDirectory

/-- Shows the events that are important enough. -/
def showLog (verbose : Bool) (log : Log) : IO Unit := do
  for event in log do
    if verbose || event.level != .debug then IO.eprintln event.text

def run (home : FilePath) (command : Command) (configPath : Option FilePath) (verbose : Bool) :
    IO Answer := do
  let path := configPath.getD (Config.defaultPath home)
  let files ← lookUp (← unknownFiles) path
  let config := match Config.read files path with
    | .ok config => config
    | .error _ => .initial
  let files ← lookUpAll files (pathsOf config command)
  let answer := (Invocation.run command configPath verbose).answer files home
  showLog (verbose || config.verbose) answer.log
  return answer

def answer (arguments : List String) : IO Answer := do
  let home ← configHome
  match Invocation.ofArguments arguments with
  | .ok (.run command configPath verbose) => run home command configPath verbose
  | _ => return answerArguments ⟨[], [], [], none⟩ home arguments

end KeyLayout.Program

/-- The program: prints an answer and gives its exit code. -/
def main (arguments : List String) : IO UInt32 := do
  let answer ← KeyLayout.Program.answer arguments
  if let some warning := answer.warning then
    IO.eprintln s!"Warning: ignoring configuration: {warning}"
  IO.print answer.output
  if let some trouble := answer.trouble then
    IO.eprintln trouble.text
  return UInt32.ofNat answer.exitCode

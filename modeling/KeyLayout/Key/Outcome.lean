/-
Finishing a key.

Every key of a definition becomes a finished key, whatever is wrong with it: a symbol
that no catalog knows is left out, and a key that lacks what makes it act does
nothing.  What was wrong is reported as a list of issues beside the key.

* `KeyFrame.keyText` chooses between the labels of a key;
* `KeySpec.value` is what the key does, or the part that is missing for it;
* `KeySpec.finish` puts everything together.
-/
import KeyLayout.Definition.Record
import KeyLayout.FilePath
import KeyLayout.Key
import KeyLayout.Label

namespace KeyLayout

/-- What finishing a key depends on besides the key. -/
structure KeySetting where
  symbol? : String → Option Symbol
  /-- The directory of the definition file, from which paths to other keyboards start. -/
  directory : FilePath
  symbolMargin : Option Thickness

/-- The setting for keys of a definition file. -/
def KeySetting.forFile (symbol? : String → Option Symbol) (path : FilePath)
    (symbolMargin : Option Thickness) : KeySetting :=
  ⟨symbol?, (FilePath.parent? path).getD "", symbolMargin⟩

/-- What a key can lack to do anything. -/
inductive MissingPart
  | action
  | text
  | destination
  | pluginNames
deriving DecidableEq

def MissingPart.reason : MissingPart → String
  | action => "no action set"
  | text => "no text set"
  | destination => "no destination keyboard set"
  | pluginNames => "plugin name and method name are both required"

/-- Something wrong with a single key. -/
inductive KeyIssue
  | unknownSymbol (name : String) (anchor : Cell)
  | incomplete (category : String) (identifier : Option String) (anchor : Cell)
      (missing : MissingPart)
deriving DecidableEq

def KeyIssue.text : KeyIssue → String
  | unknownSymbol name anchor => s!"Could not resolve symbol '{name}' for key at {anchor.text}"
  | incomplete category identifier anchor missing =>
    let called := (identifier.map fun name => s!" '{name}'").getD ""
    s!"Incomplete {category} key{called} at {anchor.text}: {missing.reason}"

/-- A finished key and what was wrong with it. -/
structure KeyOutcome where
  key : Key
  issues : List KeyIssue
deriving DecidableEq

namespace KeyFrame

/-- The text of a key: its two shift labels, if it has both, or else its label. -/
def keyText (f : KeyFrame) : KeyText :=
  match f.shiftUpLabel, f.shiftDownLabel, f.label with
  | some up, some down, _ => .shifted (Label.normalize up) (Label.normalize down)
  | _, _, some label => .plain (Label.normalize label)
  | _, _, none => .blank

/-- Whether a key has a label of any kind. -/
def hasLabel (f : KeyFrame) : Bool :=
  f.label.isSome || f.shiftUpLabel.isSome || f.shiftDownLabel.isSome

/-- The symbol of a key, with an issue if it has a name that is not known. -/
def findSymbol (setting : KeySetting) (f : KeyFrame) : Option Symbol × List KeyIssue :=
  match f.symbol with
  | none => (none, [])
  | some name =>
    match setting.symbol? name with
    | some symbol => (some symbol, [])
    | none => (none, [.unknownSymbol name f.anchor])

/-- The finished key with all that does not depend on the category of the key. -/
def finish (setting : KeySetting) (f : KeyFrame) : KeyOutcome :=
  let (symbol, issues) := f.findSymbol setting
  let text := f.keyText
  ⟨{ text := text
     symbol := symbol
     symbolMargin := setting.symbolMargin
     sizingClass := .classify symbol.isSome f.hasLabel text.isSingleLetter
     rowSpan := f.height
     colSpan := f.width
     value := .empty }, issues⟩

end KeyFrame

/-- Where a destination leads: to the builtin keyboard of that name, or else to a file. -/
def Target.ofDestination (directory : FilePath) (destination : String) : Target :=
  match BuiltinKeyboard.ofName? destination with
  | some keyboard => .builtin keyboard
  | none => .file (FilePath.join directory destination)

namespace KeySpec

/-- What a key does, or what it lacks to do it. -/
def value (setting : KeySetting) : KeySpec → Except MissingPart KeyValue
  | action key =>
    match key.action with
    | some f => .ok (.function f)
    | none => .error .action
  | text key =>
    match key.text with
    | some s => .ok (.text s)
    | none => .error .text
  | link key =>
    match key.destination with
    | some destination =>
      .ok (.navigate (.ofDestination setting.directory destination) !key.returns)
    | none => .error .destination
  | plugin key =>
    match key.plugin, key.method with
    | some _, some _ => .ok (.plugin key.snippet)
    | _, _ => .error .pluginNames

/-- The finished key with everything that is wrong with it. -/
def finish (setting : KeySetting) (spec : KeySpec) : KeyOutcome :=
  let ⟨key, issues⟩ := spec.frame.finish setting
  match spec.value setting with
  | .ok value => ⟨{ key with value := value }, issues⟩
  | .error missing =>
    ⟨key, issues ++ [.incomplete spec.category spec.frame.caption spec.anchor missing]⟩

end KeySpec

end KeyLayout

/-
Keyboards.

A definition is built into a keyboard by finishing its keys one after the other and
placing each of them at its anchor.  There is always a keyboard: when a definition
cannot be loaded or has a defect, the keyboard is an error screen that says why.

* `Keyboard.build` builds a definition;
* `Keyboard.load` loads a definition file and builds it.

Both give the events on the way together with the keyboard.
-/
import KeyLayout.Definition.Defect
import KeyLayout.Definition.Format
import KeyLayout.Key.Outcome
import KeyLayout.KeyGrid.ErrorScreen
import KeyLayout.Text.Wrap

namespace KeyLayout

/-- Why there is an error screen in place of a keyboard. -/
inductive Failure
  | load (e : LoadError)
  | defect (d : Defect)
deriving DecidableEq

namespace Failure

/-- The heading of the error screen. -/
def heading : Failure → String
  | load _ => "Error loading file"
  | defect d => d.heading

/-- The detail on the error screen; the words of a load error are spread over lines. -/
def detail : Failure → String
  | load .noPath => "No file specified. Please choose a startup file in the keyboard settings."
  | load e => String.ofList (Text.wrap e.message.toList)
  | defect d => d.detail

def message : Failure → String
  | load e => s!"{(load e).heading}: {e.message}"
  | defect d => d.message

end Failure

/-- A keyboard that can be shown. -/
structure Keyboard where
  grid : KeyGrid
  shiftAware : Bool
  /-- Why the grid is an error screen, if it is one. -/
  failure : Option Failure
  issues : List KeyIssue
deriving DecidableEq

namespace Keyboard

def isErrorScreen (k : Keyboard) : Bool := k.failure.isSome

/-- The keyboard that shows a failure. -/
def ofFailure (failure : Failure) (showOutputPanel shiftAware : Bool) (catalog : Catalog) :
    Keyboard where
  grid := .errorScreen failure.heading failure.detail showOutputPanel catalog
  shiftAware := shiftAware
  failure := some failure
  issues := []

/-- A grid on the way to a keyboard. -/
structure Progress where
  grid : KeyGrid
  issues : List KeyIssue
  log : Log
deriving DecidableEq

/-- Finishes a key and places it; its issues are logged first. -/
def Progress.add (setting : KeySetting) (p : Progress) (spec : KeySpec) : Progress :=
  let ⟨key, issues⟩ := spec.finish setting
  let placed := p.grid.place key spec.anchor
  ⟨placed.grid, p.issues ++ issues,
    p.log ++ issues.map (fun issue => ⟨.warn, issue.text⟩) ++ placed.log⟩

/-- The keyboard of a definition with these dimensions. -/
def assemble (definition : Definition) (dimensions : Dimensions) (path : FilePath)
    (catalog : Catalog) : Keyboard × Log :=
  let flags := definition.flags
  let setting := KeySetting.forFile catalog.symbol? path flags.symbolMargin
  let (grid, log) := KeyGrid.forDefinition dimensions flags
  let ⟨grid, issues, log⟩ := definition.specs.foldl (Progress.add setting) ⟨grid, [], log⟩
  let summary := s!"Compiled {definition.keyCount} keys into a {dimensions.rows}x{dimensions.cols} " ++
    s!"grid ({issues.length} issues)"
  (⟨grid, flags.shiftAware, none, issues⟩, log ++ [⟨.debug, summary⟩])

/-- Builds the definition that was found under `path`; the path only tells where other keyboards
are. -/
def build (definition : Definition) (path : FilePath) (catalog : Catalog) : Keyboard × Log :=
  match definition.validate with
  | .ok dimensions => assemble definition dimensions path catalog
  | .error d =>
    (ofFailure (.defect d) definition.flags.showOutputPanel definition.flags.shiftAware catalog,
      [⟨.error, s!"Invalid keyboard definition {path}: {d.message}"⟩])

/-- Loads a definition file and builds it. -/
def load (files : FileTree) (path : FilePath) (catalog : Catalog) : Keyboard × Log :=
  match Definition.load files path with
  | (.ok definition, log) =>
    let (keyboard, events) := build definition path catalog
    (keyboard, log ++ events)
  | (.error e, log) =>
    (ofFailure (.load e) false false catalog,
      log ++ [⟨.error, s!"Failed to load keyboard definition: {e.message}"⟩])

end Keyboard

end KeyLayout

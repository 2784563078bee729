/-
The definition of a keyboard, as a definition file gives it.

A definition holds the dimensions of the grid, a few flags, and the keys in four
categories.  What all keys have in common is their frame: where the key sits, how
many cells it covers, and what is shown on it.  A key specification is a key
together with its category (`KeySpec`); `KeySet.specs` lists all keys of a
definition, category by category.

A definition promises nothing: it may lack a grid or keys, and its keys may lack
what makes them do something.
-/
import KeyLayout.BuiltinKeyboard
import KeyLayout.KeyFunction
import KeyLayout.Thickness
import KeyLayout.Json.Value

namespace KeyLayout

/-- Numbers of rows and columns. -/
structure Dimensions where
  rows : Int
  cols : Int
deriving DecidableEq

/-- A cell, by row and column. -/
structure Cell where
  row : Int
  col : Int
deriving DecidableEq

/-- Cells are ordered by row and then by column. -/
def Cell.compare (a b : Cell) : Ordering :=
  (Ord.compare a.row b.row).then (Ord.compare a.col b.col)

/-- How messages show a cell. -/
def Cell.text (c : Cell) : String := s!"({c.row}, {c.col})"

/-- What keys of all categories have in common. -/
structure KeyFrame where
  row : Int
  col : Int
  width : Int
  height : Int
  label : Option String
  /-- Shown while shift is released. -/
  shiftUpLabel : Option String
  /-- Shown while shift is held. -/
  shiftDownLabel : Option String
  /-- The name of a symbol in a catalog. -/
  symbol : Option String
deriving DecidableEq

namespace KeyFrame

/-- A frame of one cell at the origin with nothing on it. -/
def blank : KeyFrame := ⟨0, 0, 1, 1, none, none, none, none⟩

/-- The cell at the top left of the key. -/
def anchor (f : KeyFrame) : Cell := ⟨f.row, f.col⟩

/-- The label, or else the name of the symbol. -/
def caption (f : KeyFrame) : Option String := f.label <|> f.symbol

end KeyFrame

/-- A key that triggers a function. -/
structure ActionKey where
  frame : KeyFrame
  action : Option KeyFunction
deriving DecidableEq

/-- A key that types a text. -/
structure TextKey where
  frame : KeyFrame
  text : Option String
deriving DecidableEq

/-- A key that leads to another keyboard. -/
structure LinkKey where
  frame : KeyFrame
  /-- The name of a builtin keyboard, or a path that starts from the directory of the definition
  file. -/
  destination : Option String
  /-- Whether one can return from there to this keyboard. -/
  returns : Bool
deriving DecidableEq

/-- A key that calls a method of a plugin; whatever else its definition holds is kept for the
plugin. -/
structure PluginKey where
  frame : KeyFrame
  plugin : Option String
  method : Option String
  extra : Json.Fields

/-- The keys of a definition in their four categories. -/
structure KeySet where
  action : List ActionKey
  text : List TextKey
  link : List LinkKey
  plugin : List PluginKey

/-- A key together with its category. -/
inductive KeySpec
  | action (key : ActionKey)
  | text (key : TextKey)
  | link (key : LinkKey)
  | plugin (key : PluginKey)

namespace KeySpec

/-- The part that all categories share. -/
def frame : KeySpec → KeyFrame
  | action key => key.frame
  | text key => key.frame
  | link key => key.frame
  | plugin key => key.frame

def anchor (spec : KeySpec) : Cell := spec.frame.anchor

/-- How definition files call the category. -/
def category : KeySpec → String
  | action _ => "ActionKeys"
  | text _ => "TextKeys"
  | link _ => "ChangeKeyboardKeys"
  | plugin _ => "PluginKeys"

/-- What a key is called when it is in conflict with others: a text key by its text, any other by
its caption. -/
def identifier : KeySpec → Option String
  | text key => key.text
  | spec => spec.frame.caption

end KeySpec

namespace KeySet

def empty : KeySet := ⟨[], [], [], []⟩

def size (keys : KeySet) : Nat :=
  keys.action.length + keys.text.length + keys.link.length + keys.plugin.length

/-- Every key, category by category, each category in the order of the file. -/
def specs (keys : KeySet) : List KeySpec :=
  keys.action.map .action ++ keys.text.map .text ++ keys.link.map .link ++ keys.plugin.map .plugin

end KeySet

structure Flags where
  /-- Whether a row for output stands above the keys. -/
  showOutputPanel : Bool
  /-- Whether keys change their labels with shift. -/
  shiftAware : Bool
  symbolMargin : Option Thickness
  borderThickness : Option Thickness
deriving DecidableEq

/-- A keyboard as it is defined. -/
structure Definition where
  dimensions : Option Dimensions
  flags : Flags
  keys : Option KeySet

namespace Definition

def specs (d : Definition) : List KeySpec :=
  match d.keys with
  | some keys => keys.specs
  | none => []

def keyCount (d : Definition) : Nat :=
  match d.keys with
  | some keys => keys.size
  | none => 0

end Definition

end KeyLayout

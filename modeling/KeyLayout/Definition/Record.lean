/-
The written form of a definition.

Every record of a definition file is described by a shape, from which it is read,
and the parts of a definition that are written again have a JSON value.

The frame of a key stands among the members of the key itself.  A plugin key keeps
every member that belongs neither to it nor to its frame; its JSON value, written
one line for each part, is the snippet that a plugin is called with.
-/
import KeyLayout.Definition
import KeyLayout.Thickness.Record
import KeyLayout.Json.Reader
import KeyLayout.Json.Writer

namespace KeyLayout

open Document

/-- Members `rows` and `cols`, both zero when they are missing. -/
def Dimensions.shape : Shape Dimensions where
  title := "struct Grid"
  blank := ⟨0, 0⟩
  slots := [
    .of "rows" .optional Reading.int32 fun d n => { d with rows := n },
    .of "cols" .optional Reading.int32 fun d n => { d with cols := n }]

def Dimensions.toJson (d : Dimensions) : Json.Value :=
  .record [("rows", .int d.rows), ("cols", .int d.cols)]

namespace KeyFrame

/-- The members of a frame; all may be missing. -/
def shape : Shape KeyFrame where
  title := "struct KeyBase"
  blank := .blank
  slots := [
    .of "row" .optional Reading.int32 fun f n => { f with row := n },
    .of "col" .optional Reading.int32 fun f n => { f with col := n },
    .of "width" .optional Reading.int32 fun f n => { f with width := n },
    .of "height" .optional Reading.int32 fun f n => { f with height := n },
    .of "label" .optional (Reading.optional Reading.text) fun f s => { f with label := s },
    .of "shiftUpLabel" .optional (Reading.optional Reading.text)
      fun f s => { f with shiftUpLabel := s },
    .of "shiftDownLabel" .optional (Reading.optional Reading.text)
      fun f s => { f with shiftDownLabel := s },
    (Slot.of "symbol" .optional (Reading.optional Reading.text)
      fun f s => { f with symbol := s }).alias "symbolName"]

/-- The members of a frame in JSON; a label or symbol that is missing is left out. -/
def members (f : KeyFrame) : List (Option (String × Json.Value)) := [
  some ("row", .int f.row),
  some ("col", .int f.col),
  some ("width", .int f.width),
  some ("height", .int f.height),
  Json.optionalMember "label" (f.label.map .text),
  Json.optionalMember "shiftUpLabel" (f.shiftUpLabel.map .text),
  Json.optionalMember "shiftDownLabel" (f.shiftDownLabel.map .text),
  Json.optionalMember "symbol" (f.symbol.map .text)]

def toJson (f : KeyFrame) : Json.Value := .ofMembers f.members

end KeyFrame

/-- Members of an action key besides those of its frame. -/
def ActionKey.shape : FlatShape ActionKey KeyFrame where
  own := {
    title := "struct ActionKey"
    blank := ⟨.blank, none⟩
    slots := [
      .of "action" .optional (Reading.optional (Reading.named KeyFunction.all KeyFunction.name))
        fun k f => { k with action := f }] }
  base := KeyFrame.shape
  assemble := fun frame _ key => .ok { key with frame := frame }

def ActionKey.toJson (k : ActionKey) : Json.Value :=
  .ofMembers (k.frame.members ++
    [Json.optionalMember "action" (k.action.map fun f => .text f.name)])

def TextKey.shape : FlatShape TextKey KeyFrame where
  own := {
    title := "struct TextKey"
    blank := ⟨.blank, none⟩
    slots := [
      .of "text" .optional (Reading.optional Reading.text) fun k s => { k with text := s }] }
  base := KeyFrame.shape
  assemble := fun frame _ key => .ok { key with frame := frame }

def TextKey.toJson (k : TextKey) : Json.Value :=
  .ofMembers (k.frame.members ++ [Json.optionalMember "text" (k.text.map .text)])

def LinkKey.shape : FlatShape LinkKey KeyFrame where
  own := {
    title := "struct ChangeKeyboardKey"
    blank := ⟨.blank, none, false⟩
    slots := [
      (Slot.of "destinationKeyboard" .optional (Reading.optional Reading.text)
        fun k s => { k with destination := s }).alias "destination",
      .of "returnToThisKeyboard" .optional Reading.bool fun k b => { k with returns := b }] }
  base := KeyFrame.shape
  assemble := fun frame _ key => .ok { key with frame := frame }

def LinkKey.toJson (k : LinkKey) : Json.Value :=
  .ofMembers (k.frame.members ++
    [Json.optionalMember "destinationKeyboard" (k.destination.map .text),
      some ("returnToThisKeyboard", .bool k.returns)])

namespace PluginKey

/-- Members of a plugin key besides those of its frame; all others are kept. -/
def shape : FlatShape PluginKey KeyFrame where
  own := {
    title := "struct PluginKey"
    blank := ⟨.blank, none, none, []⟩
    slots := [
      .of "pluginName" .optional (Reading.optional Reading.text) fun k s => { k with plugin := s },
      .of "methodName" .optional (Reading.optional Reading.text)
        fun k s => { k with method := s }] }
  base := KeyFrame.shape
  assemble := fun frame others key => do
    let extra ← membersToFields (others.map fun (key, node) => ({ key with isText := true }, node)) []
    return { key with frame := frame, extra := extra }

def toJson (k : PluginKey) : Json.Value :=
  .ofMembers (k.frame.members ++
    [Json.optionalMember "pluginName" (k.plugin.map .text),
      Json.optionalMember "methodName" (k.method.map .text)] ++
    k.extra.map some)

/-- The text that a plugin is called with: the key itself. -/
def snippet (k : PluginKey) : String := Json.pretty k.toJson

/-- Reads a key from a snippet. -/
def ofSnippet (text : String) : Except Complaint PluginKey := Json.read shape.read text

end PluginKey

namespace KeySet

/-- The lists of keys by category; each may be missing. -/
def shape : Shape KeySet where
  title := "struct KeySet"
  blank := .empty
  slots := [
    .of "ActionKeys" .optional (Reading.list ActionKey.shape.read)
      fun s keys => { s with action := keys },
    .of "TextKeys" .optional (Reading.list TextKey.shape.read)
      fun s keys => { s with text := keys },
    .of "ChangeKeyboardKeys" .optional (Reading.list LinkKey.shape.read)
      fun s keys => { s with link := keys },
    .of "PluginKeys" .optional (Reading.list PluginKey.shape.read)
      fun s keys => { s with plugin := keys }]

def toJson (keys : KeySet) : Json.Value :=
  .record [
    ("ActionKeys", .list (keys.action.map ActionKey.toJson)),
    ("TextKeys", .list (keys.text.map TextKey.toJson)),
    ("ChangeKeyboardKeys", .list (keys.link.map LinkKey.toJson)),
    ("PluginKeys", .list (keys.plugin.map PluginKey.toJson))]

end KeySet

/-- The root of a definition file. -/
def Definition.shape : Shape Definition where
  title := "struct DefinitionDocument"
  blank := ⟨none, ⟨false, false, none, none⟩, none⟩
  slots := [
    .of "Grid" .nullable (Reading.optional Dimensions.shape.read)
      fun d g => { d with dimensions := g },
    .of "showOutputPanel" .optional Reading.bool
      fun d b => { d with flags.showOutputPanel := b },
    .of "isShiftAware" .optional Reading.bool
      fun d b => { d with flags.shiftAware := b },
    .of "symbolMargin" .nullable (Reading.optional Reading.thickness)
      fun d t => { d with flags.symbolMargin := t },
    .of "borderThickness" .nullable (Reading.optional Reading.thickness)
      fun d t => { d with flags.borderThickness := t },
    .of "Keys" .nullable (Reading.optional KeySet.shape.read)
      fun d keys => { d with keys := keys }]

end KeyLayout

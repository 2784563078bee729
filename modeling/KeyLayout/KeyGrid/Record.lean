/-
The written form of finished keys and of the grid they are placed on.

A grid is written as JSON and can be read again, apart from its thicknesses, which
are read in another form than they are written in.  A key that leads to a file has no written
form if the path of the file is no text.
-/
import KeyLayout.KeyGrid
import KeyLayout.Thickness.Record

namespace KeyLayout

open Document

/-- An optional value as JSON. -/
def orNull {α : Type} (toJson : α → Json.Value) : Option α → Json.Value
  | some x => toJson x
  | none => .null

/-- A variant with content as JSON. -/
def tagged (name : String) (content : Json.Value) : Json.Value := .record [(name, content)]

/-- Members of a symbol; none may be missing. -/
def Symbol.shape : Shape Symbol where
  title := "struct Symbol"
  blank := ⟨"", ""⟩
  slots := [
    .of "name" .required Reading.text fun s x => { s with name := x },
    .of "path_data" .required Reading.text fun s x => { s with pathData := x }]

def Symbol.toJson (s : Symbol) : Json.Value :=
  .record [("name", .text s.name), ("path_data", .text s.pathData)]

namespace KeyText

/-- The two texts of a key that changes with shift. -/
def shiftedShape : Shape (String × String) where
  title := "struct variant KeyText::Shifted"
  blank := ("", "")
  slots := [
    .of "up" .required Reading.text fun s x => (x, s.2),
    .of "down" .required Reading.text fun s x => (s.1, x)]

def reading : Reading KeyText :=
  variant [
    ⟨"Blank", .nothing blank⟩,
    ⟨"Plain", .value fun depth node => (Reading.text depth node).map plain⟩,
    ⟨"Shifted", .fields fun depth node =>
      (shiftedShape.read depth node).map fun (up, down) => shifted up down⟩]

def toJson : KeyText → Json.Value
  | blank => .text "Blank"
  | plain text => tagged "Plain" (.text text)
  | shifted up down => tagged "Shifted" (.record [("up", .text up), ("down", .text down)])

end KeyText

namespace Target

def reading : Reading Target :=
  variant [
    ⟨"Named", .value fun depth node =>
      (Reading.named BuiltinKeyboard.all BuiltinKeyboard.name depth node).map builtin⟩,
    ⟨"File", .value fun depth node => (Reading.path depth node).map fun path => file (.ofString path)⟩]

def toJson : Target → Except WriteError Json.Value
  | builtin keyboard => .ok (tagged "Named" (.text keyboard.name))
  | file path => do return tagged "File" (.text (← path.written))

end Target

namespace KeyValue

/-- The target of a key and whether it replaces the current keyboard. -/
def navigateShape : Shape (Target × Bool) where
  title := "struct variant CompiledValue::NavigateTo"
  blank := (.file "", false)
  slots := [
    .of "target" .required Target.reading fun s x => (x, s.2),
    .of "replace_current" .required Reading.bool fun s x => (s.1, x)]

def reading : Reading KeyValue :=
  variant [
    ⟨"FunctionAction", .value fun depth node =>
      (Reading.named KeyFunction.all KeyFunction.name depth node).map function⟩,
    ⟨"LiteralText", .value fun depth node => (Reading.text depth node).map text⟩,
    ⟨"NavigateTo", .fields fun depth node =>
      (navigateShape.read depth node).map fun (target, replace) => navigate target replace⟩,
    ⟨"PluginInvocation", .value fun depth node => (Reading.text depth node).map plugin⟩,
    ⟨"BackNavigation", .nothing back⟩,
    ⟨"Empty", .nothing empty⟩]

def toJson : KeyValue → Except WriteError Json.Value
  | function f => .ok (tagged "FunctionAction" (.text f.name))
  | text s => .ok (tagged "LiteralText" (.text s))
  | navigate target replace => do
    let target ← target.toJson
    return tagged "NavigateTo" (.record [("target", target), ("replace_current", .bool replace)])
  | plugin snippet => .ok (tagged "PluginInvocation" (.text snippet))
  | back => .ok (.text "BackNavigation")
  | empty => .ok (.text "Empty")

end KeyValue

def SizingClass.reading : Reading SizingClass := Reading.named SizingClass.all SizingClass.name

namespace Key

/-- Members of a finished key; only the symbol and its margin may be missing. -/
def shape : Shape Key where
  title := "struct CompiledKey"
  blank := .inert .blank 1 1
  slots := [
    .of "text" .required KeyText.reading fun k x => { k with text := x },
    .of "symbol" .nullable (Reading.optional Symbol.shape.read) fun k x => { k with symbol := x },
    .of "symbol_margin" .nullable (Reading.optional Reading.thickness)
      fun k x => { k with symbolMargin := x },
    .of "sizing_class" .required SizingClass.reading fun k x => { k with sizingClass := x },
    .of "row_span" .required Reading.int32 fun k x => { k with rowSpan := x },
    .of "col_span" .required Reading.int32 fun k x => { k with colSpan := x },
    .of "value" .required KeyValue.reading fun k x => { k with value := x }]

def toJson (k : Key) : Except WriteError Json.Value := do
  let value ← k.value.toJson
  return .record [
    ("text", k.text.toJson),
    ("symbol", orNull Symbol.toJson k.symbol),
    ("symbol_margin", orNull Thickness.toJson k.symbolMargin),
    ("sizing_class", .text k.sizingClass.name),
    ("row_span", .int k.rowSpan),
    ("col_span", .int k.colSpan),
    ("value", value)]

end Key

namespace TrackSize

def reading : Reading TrackSize :=
  variant [
    ⟨"Star", .value fun depth node => (Reading.float depth node).map star⟩,
    ⟨"Pixel", .value fun depth node => (Reading.float depth node).map pixel⟩]

def toJson : TrackSize → Json.Value
  | star weight => tagged "Star" (.float weight)
  | pixel size => tagged "Pixel" (.float size)

end TrackSize

/-- Members of the output row; none may be missing. -/
def OutputRow.shape : Shape OutputRow where
  title := "struct OutputRow"
  blank := ⟨false, .star 1.0⟩
  slots := [
    .of "visible" .required Reading.bool fun r x => { r with visible := x },
    .of "height" .required TrackSize.reading fun r x => { r with height := x }]

def OutputRow.toJson (r : OutputRow) : Json.Value :=
  .record [("visible", .bool r.visible), ("height", r.height.toJson)]

/-- Members of a placement; none may be missing. -/
def Placement.shape : Shape Placement where
  title := "struct Placement"
  blank := .of (.inert .blank 1 1) ⟨0, 0⟩
  slots := [
    .of "key" .required Key.shape.read fun p x => { p with key := x },
    .of "row" .required Reading.int32 fun p x => { p with row := x },
    .of "col" .required Reading.int32 fun p x => { p with col := x },
    .of "row_span" .required Reading.int32 fun p x => { p with rowSpan := x },
    .of "col_span" .required Reading.int32 fun p x => { p with colSpan := x }]

def Placement.toJson (p : Placement) : Except WriteError Json.Value := do
  let key ← p.key.toJson
  return .record [
    ("key", key),
    ("row", .int p.row),
    ("col", .int p.col),
    ("row_span", .int p.rowSpan),
    ("col_span", .int p.colSpan)]

namespace KeyGrid

/-- Members of a grid; only the border may be missing. -/
def shape : Shape KeyGrid where
  title := "struct PlacementGrid"
  blank := ⟨[], [], ⟨false, .star 1.0⟩, .star 1.0, none, []⟩
  slots := [
    .of "row_defs" .required (Reading.list TrackSize.reading)
      fun g x => { g with rowTracks := x },
    .of "col_defs" .required (Reading.list TrackSize.reading)
      fun g x => { g with colTracks := x },
    .of "output_row" .required OutputRow.shape.read fun g x => { g with outputRow := x },
    .of "keys_height" .required TrackSize.reading fun g x => { g with keysHeight := x },
    .of "border_thickness" .nullable (Reading.optional Reading.thickness)
      fun g x => { g with border := x },
    .of "placements" .required (Reading.list Placement.shape.read)
      fun g x => { g with placements := x }]

def toJson (g : KeyGrid) : Except WriteError Json.Value := do
  let placements ← g.placements.mapM Placement.toJson
  return .record [
    ("row_defs", .list (g.rowTracks.map TrackSize.toJson)),
    ("col_defs", .list (g.colTracks.map TrackSize.toJson)),
    ("output_row", g.outputRow.toJson),
    ("keys_height", g.keysHeight.toJson),
    ("border_thickness", orNull Thickness.toJson g.border),
    ("placements", .list placements)]

end KeyGrid

end KeyLayout

/-
Reports about keyboards.

There are two reports, each of them as lines of text and as JSON: the summary lists
the keys of a keyboard, and the verdict says what is wrong with it.

A text in a summary is put in quotation marks, with escapes for what cannot be shown.
-/
import KeyLayout.Json.Writer
import KeyLayout.Keyboard.Finding
import KeyLayout.KeyGrid.Record
import KeyLayout.Text.Quoted

namespace KeyLayout

/-- Lines, each followed by a line end. -/
def endLines (lines : List String) : String := String.join (lines.map fun line => line ++ "\n")

/-- How a summary shows the text of a key. -/
def KeyText.summary : KeyText → String
  | blank => ""
  | plain text => Text.quoted text
  | shifted up down => s!"{Text.quoted up}/{Text.quoted down}"

/-- How a summary shows what a key does. -/
def KeyValue.summary : KeyValue → String
  | function f => s!"action {f.name}"
  | text s => s!"text {Text.quoted s}"
  | navigate target replaceCurrent =>
    let mode := if replaceCurrent then "replace" else "push"
    s!"navigate {target.text} ({mode})"
  | plugin _ => "plugin"
  | back => "back"
  | empty => "-"

/-- How a summary shows a key at its cell. -/
def Placement.summary (p : Placement) : String :=
  let symbol := (p.key.symbol.map fun s => s!" [{s.name}]").getD ""
  s!"{p.anchor.text} {p.rowSpan}x{p.colSpan} {p.key.sizingClass.name} " ++
    s!"{p.key.text.summary}{symbol} -> {p.key.value.summary}"

/-- How a summary shows the output row. -/
def KeyGrid.panelSummary (g : KeyGrid) : String :=
  if g.outputRow.visible then
    match g.keysHeight with
    | .star weight => s!"output panel shown, keys weighted {Decimal.plain weight}"
    | .pixel height => s!"output panel shown, keys {Decimal.plain height}px"
  else "output panel hidden"

/-- A failure as JSON: its heading and its detail. -/
def Failure.toJson (f : Failure) : Json.Value :=
  .record [("heading", .text f.heading), ("detail", .text f.detail)]

namespace Keyboard

def failureLines : Option Failure → List String
  | none => []
  | some f =>
    s!"✗ {f.heading}" ::
      (Text.lines f.detail.toList).map fun line => "  " ++ String.ofList line

def borderLines : Option Thickness → List String
  | none => []
  | some t => [s!"Border: {t.text}"]

def issueLines : List KeyIssue → List String
  | [] => []
  | issues => "" :: "Issues:" :: issues.map fun issue => s!"  ⚠ {issue.text}"

/-- The summary of the keyboard that was found under a path. -/
def summaryLines (k : Keyboard) (path : FilePath) : List String :=
  let shift := if k.shiftAware then "yes" else "no"
  [s!"Keyboard: {path}"] ++ failureLines k.failure ++
  [s!"Grid: {k.grid.rows} rows x {k.grid.cols} columns ({k.grid.panelSummary})",
    s!"Shift aware: {shift}"] ++
  borderLines k.grid.border ++
  ["", "Keys:"] ++ (k.grid.placements.map fun p => s!"  {p.summary}") ++
  issueLines k.issues

/-- The summary as JSON, if all paths in it are texts but that of the keyboard, which is only
shown. -/
def summaryJson (k : Keyboard) (path : FilePath) : Except WriteError Json.Value := do
  let grid ← k.grid.toJson
  return .ofMembers [
    some ("file", .text path.display),
    some ("shift_aware", .bool k.shiftAware),
    Json.optionalMember "failure" (k.failure.map Failure.toJson),
    some ("issues", .list (k.issues.map fun issue => .text issue.text)),
    some ("grid", grid)]

end Keyboard

namespace Finding

/-- A finding on one line. -/
def line (f : Finding) : String :=
  let sign := match f.severity with
    | .error => "✗"
    | .warning => "⚠"
  let message := f.message.map fun c => if c = '\r' ∨ c = '\n' then ' ' else c
  s!"  {sign} {message}"

/-- A finding as JSON; the position is left out where there is none. -/
def toJson (f : Finding) : Json.Value :=
  .ofMembers [
    some ("severity", .text f.severity.name),
    some ("message", .text f.message),
    Json.optionalMember "position"
      (f.anchor.map fun c => .record [("row", .int c.row), ("col", .int c.col)])]

end Finding

namespace Keyboard

/-- The verdict on a keyboard: whether it is valid, and all findings. -/
def verdictLines (k : Keyboard) : List String :=
  (if k.isErrorScreen then "✗ Validation failed" else "✓ Validation passed") ::
    match k.findings with
    | [] => []
    | findings => "" :: "Issues:" :: findings.map Finding.line

def verdictJson (k : Keyboard) : Json.Value :=
  .ofMembers [
    some ("valid", .bool !k.isErrorScreen),
    Json.optionalMember "failure" (k.failure.map Failure.toJson),
    some ("messages", .list (k.findings.map Finding.toJson))]

end Keyboard

end KeyLayout

/-
What can be wrong with a document.

* `Flaw` is a break in the written form: the text stops being a document of its
  format at some place;
* `Cause` is anything that keeps a document from being read as the value it should
  hold: a flaw, or a part that is of the wrong kind, missing, given twice, unknown;
* `Complaint` is a cause together with the place that had been reached.

A place is the number of bytes before it; only when a complaint is shown is the
place turned into a line and a column.
-/
import KeyLayout.Text.Quoted
import KeyLayout.Thickness

namespace KeyLayout.Document

/-- A place in a text: the number of bytes before it. -/
abbrev Offset := Nat

/-- A break in the written form of a document. -/
inductive Flaw
  | endInList
  | endInRecord
  | endInText
  | endBeforeValue
  | noColon
  | noListComma
  | noRecordComma
  | noWord
  | noValue
  | badEscape
  | badNumber
  | hugeNumber
  | controlCharacter
  | keyNotText
  | loneSurrogate
  | danglingComma
  | trailingText
  | unfinishedSurrogate
  | tooDeep
  | endInComment
  | lineEndInText
  | badName
  | repeatedName
  | badIndent
  | unknownAlias
  | severalDocuments
deriving DecidableEq

def Flaw.message : Flaw → String
  | endInList => "EOF while parsing a list"
  | endInRecord => "EOF while parsing an object"
  | endInText => "EOF while parsing a string"
  | endBeforeValue => "EOF while parsing a value"
  | noColon => "expected `:`"
  | noListComma => "expected `,` or `]`"
  | noRecordComma => "expected `,` or `\x7d`"
  | noWord => "expected ident"
  | noValue => "expected value"
  | badEscape => "invalid escape"
  | badNumber => "invalid number"
  | hugeNumber => "number out of range"
  | controlCharacter => "control character (\\u0000-\\u001F) found while parsing a string"
  | keyNotText => "key must be a string"
  | loneSurrogate => "lone leading surrogate in hex escape"
  | danglingComma => "trailing comma"
  | trailingText => "trailing characters"
  | unfinishedSurrogate => "unexpected end of hex escape"
  | tooDeep => "recursion limit exceeded"
  | endInComment => "EOF while parsing a comment"
  | lineEndInText => "line end in a string"
  | badName => "invalid name"
  | repeatedName => "name defined twice"
  | badIndent => "invalid indentation"
  | unknownAlias => "unknown alias"
  | severalDocuments => "more than one document"

/-- What stood where something else was wanted. -/
inductive Found
  | null
  | bool (b : Bool)
  | int (n : Int)
  | float (x : Float)
  | text (s : String)
  | list
  | record
  /-- A bare variant name, which carries no content. -/
  | bareVariant
deriving DecidableEq

/-- How messages call what was found. -/
def Found.describe : Found → String
  | null => "null"
  | bool b => s!"boolean `{b}`"
  | int n => s!"integer `{n}`"
  | float x => s!"floating point `{(Decimal.marked? x).getD (Decimal.plain x)}`"
  | text s => s!"string {Text.quoted s}"
  | list => "sequence"
  | record => "map"
  | bareVariant => "unit variant"

/-- Why a document cannot be read as the value it should hold. -/
inductive Cause
  | flaw (f : Flaw)
  | wrongKind (found : Found) (expected : String)
  | outOfRange (n : Int) (expected : String)
  | wrongLength (length : Nat) (expected : String)
  | missingField (name : String)
  | duplicateField (name : String)
  | unknownVariant (name : String) (known : List String)
  /-- None of the forms in which a value of this name may be given. -/
  | noForm (name : String)
  | thickness (e : Thickness.Error)
deriving DecidableEq

/-- A choice of names, as a message offers it. -/
def offer : List String → String
  | [] => "nothing"
  | [a] => s!"`{a}`"
  | [a, b] => s!"`{a}` or `{b}`"
  | names => "one of " ++ Text.join ", " (names.map fun name => s!"`{name}`")

def Cause.message : Cause → String
  | flaw f => f.message
  | wrongKind found expected => s!"invalid type: {found.describe}, expected {expected}"
  | outOfRange n expected => s!"invalid value: integer `{n}`, expected {expected}"
  | wrongLength length expected => s!"invalid length {length}, expected {expected}"
  | missingField name => s!"missing field `{name}`"
  | duplicateField name => s!"duplicate field `{name}`"
  | unknownVariant name known => s!"unknown variant `{name}`, expected {offer known}"
  | noForm name => s!"data did not match any variant of untagged enum {name}"
  | thickness e => e.message

/-- A cause and the place that had been reached, where one is known. -/
structure Complaint where
  cause : Cause
  place : Option Offset
deriving DecidableEq

def Complaint.flaw (f : Flaw) (place : Offset) : Complaint := ⟨.flaw f, some place⟩

/-- Line and column of a place: the lines before it, and the bytes since the last line end. -/
def lineColumn (place : Offset) : List Char → Nat × Nat → Nat × Nat
  | [], position => position
  | c :: rest, (line, column) =>
    if place = 0 then (line, column)
    else if c.utf8Size ≤ place then
      lineColumn (place - c.utf8Size) rest
        (if c = '\n' then (line + 1, 0) else (line, column + c.utf8Size))
    else (line, column + place)

/-- The wording of a complaint about `text`. -/
def Complaint.message (text : String) (c : Complaint) : String :=
  match c.place with
  | none => c.cause.message
  | some place =>
    let (line, column) := lineColumn place text.toList (1, 0)
    s!"{c.cause.message} at line {line} column {column}"

/-- Gives a place to a complaint that has none yet. -/
def locate {α : Type} (place : Option Offset) : Except Complaint α → Except Complaint α
  | .error ⟨cause, none⟩ => .error ⟨cause, place⟩
  | r => r

end KeyLayout.Document

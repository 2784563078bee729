/-
Reading JSON.

`document` turns a text into a document.  Places are reported as numbers of bytes,
and wherever the text goes wrong the document holds what each kind of reader would
report there.

The three functions `readNode`, `readItems` and `readMembers` call each other.  Each
call takes one from a bound; since two calls in a row pass at least one character,
twice the length of the text is always enough.
-/
import KeyLayout.Json.Number
import KeyLayout.Document.Reading

namespace KeyLayout.Json

open KeyLayout.Document

/-- Whether a character may stand between the parts of a JSON document. -/
def isSpace (c : Char) : Bool := c = ' ' || c = '\n' || c = '\t' || c = '\r'

/-- Moves behind the space at a place. -/
def skipSpace (place : Offset) : List Char → Cursor
  | [] => ⟨place, []⟩
  | c :: rest => if isSpace c then skipSpace (place + 1) rest else ⟨place, c :: rest⟩

/-- Moves behind the space at a cursor. -/
def Cursor.skipSpace (c : Cursor) : Cursor := Json.skipSpace c.place c.rest

/-- Moves behind the next character, which is one byte long. -/
def Cursor.advance (c : Cursor) : Cursor := ⟨c.place + 1, c.rest.drop 1⟩

/-- A flaw that is seen when the next character is looked at. -/
def Cursor.flaw (c : Cursor) (f : Flaw) : Complaint :=
  .flaw f (if c.rest.isEmpty then c.place else c.place + 1)

/-- A value at which every reader reports the same. -/
def brokenAt (c : Complaint) : Node := .broken ⟨c, some c, c, false⟩

/-- The word whose first letter is already read. -/
def scanWord (place : Offset) : List Char → List Char → Except Complaint Cursor
  | [], rest => .ok ⟨place, rest⟩
  | _ :: _, [] => .error (.flaw .endBeforeValue place)
  | w :: word, c :: rest =>
    if c = w then scanWord (place + 1) word rest else .error (.flaw .noWord (place + 1))

def readWord (c : Cursor) (value : Scalar) (tail : List Char) : Node × Option Cursor :=
  match scanWord (c.place + 1) tail (c.rest.drop 1) with
  | .ok after => (.scalar value none (some ⟨c.place, after.place⟩), some after)
  | .error e =>
    (.broken ⟨e, some e, .flaw .noValue (c.place + 1), value = .null⟩, none)

def readNumber (c : Cursor) : Node × Option Cursor :=
  let asVariant : Complaint := .flaw .noValue (c.place + 1)
  match scanNumber c with
  | .error e => (.broken ⟨e.read, some e.skip, asVariant, false⟩, none)
  | .ok (parts, after) =>
    match parts.scalar after.place with
    | .ok v => (.scalar v none (some ⟨c.place, after.place⟩), some after)
    | .error e => (.broken ⟨e, none, asVariant, false⟩, some after)

def readQuoted (c : Cursor) : Node × Option Cursor :=
  match readText .plain (c.place + 1) (c.rest.drop 1) with
  | .ok (text, after) =>
    (.scalar (.text (String.ofList text)) none (some ⟨c.place, after.place⟩), some after)
  | .error e =>
    -- escapes do not matter to one who skips, so the end may be found still
    match skipText .plain (c.place + 1) (c.rest.drop 1) with
    | .ok after => (.broken ⟨e, none, e, false⟩, some after)
    | .error f => (.broken ⟨e, some f, e, false⟩, none)

/-- What follows an item of a list. -/
def afterItem : Option Cursor → After
  | none => ⟨none, none⟩
  | some c =>
    let c := c.skipSpace
    match c.rest with
    | [] => ⟨some c.place, some (c.flaw .endInList)⟩
    | ']' :: _ => ⟨some (c.place + 1), none⟩
    | ',' :: _ =>
      let c := c.advance.skipSpace
      match c.rest with
      | ']' :: _ => ⟨some c.place, some (c.flaw .danglingComma)⟩
      | _ => ⟨some c.place, some (c.flaw .trailingText)⟩
    | _ => ⟨some c.place, some (c.flaw .trailingText)⟩

/-- The place behind a part of a record: behind the space, and behind the bracket if one follows. -/
def settledInRecord (c : Cursor) : Offset :=
  let c := c.skipSpace
  match c.rest with
  | '\x7d' :: _ => c.place + 1
  | _ => c.place

/-- The end of a list, or the place where its next item starts. -/
def nextItem (c : Cursor) (first : Bool) : (Close × Option Cursor) ⊕ Cursor :=
  let c := c.skipSpace
  let cut (read skip : Complaint) : (Close × Option Cursor) ⊕ Cursor :=
    .inl (.cut read skip read, none)
  match c.rest with
  | [] => cut (c.flaw .endInList) (c.flaw .endInList)
  | ch :: _ =>
    if ch = ']' then .inl (.closed (some (c.place + 1)), some c.advance)
    else if first then .inr c
    else if ch = ',' then
      let c := c.advance.skipSpace
      match c.rest with
      | [] => cut (c.flaw .endBeforeValue) (c.flaw .endBeforeValue)
      | ']' :: _ => cut (c.flaw .danglingComma) (c.flaw .noValue)
      | _ => .inr c
    else cut (c.flaw .noListComma) (c.flaw .noListComma)

/-- The end of a record, or the place where the name of its next member starts. -/
def nextMember (c : Cursor) (first : Bool) : (Close × Option Cursor) ⊕ Cursor :=
  let c := c.skipSpace
  let cut (read skip asName : Complaint) : (Close × Option Cursor) ⊕ Cursor :=
    .inl (.cut read skip asName, none)
  match c.rest with
  | [] => cut (c.flaw .endInRecord) (c.flaw .endInRecord) (c.flaw .endBeforeValue)
  | ch :: _ =>
    let wrong := c.flaw .keyNotText
    if ch = '\x7d' then .inl (.closed (some (c.place + 1)), some c.advance)
    else if first then
      if ch = '"' then .inr c else cut wrong wrong wrong
    else if ch = ',' then
      let c := c.advance.skipSpace
      match c.rest with
      | [] => cut (c.flaw .endBeforeValue) (c.flaw .endInRecord) (c.flaw .endBeforeValue)
      | '"' :: _ => .inr c
      | '\x7d' :: _ => cut (c.flaw .danglingComma) (c.flaw .keyNotText) (c.flaw .danglingComma)
      | _ => cut (c.flaw .keyNotText) (c.flaw .keyNotText) (c.flaw .keyNotText)
    else cut (c.flaw .noRecordComma) (c.flaw .noRecordComma) (c.flaw .noRecordComma)

/-- The name of a member: its text and the cursor behind it; or, when even its end is not found, two
complaints. -/
def readName (c : Cursor) : Except (Complaint × Complaint) (String × Option Complaint × Cursor) :=
  match readText .plain (c.place + 1) (c.rest.drop 1) with
  | .ok (text, after) => .ok (String.ofList text, none, after)
  | .error e =>
    match skipText .plain (c.place + 1) (c.rest.drop 1) with
    | .ok after => .ok ("", some e, after)
    | .error f => .error (e, f)

/-- The place of a value behind a name and a colon, or what stands there instead. -/
def valueStart (c : Cursor) : Except Complaint Cursor :=
  let c := c.skipSpace
  match c.rest with
  | ':' :: _ => .ok c.advance
  | [] => .error (c.flaw .endInRecord)
  | _ => .error (c.flaw .noColon)

/-- The complaint of a reader that wants the name of a variant behind an opening bracket. -/
def Close.named (close : Close) (node : Node) : Close :=
  match close with
  | .cut read skip _ => .cut read skip (node.mismatch "variant identifier")
  | .closed stop => .closed stop

mutual

/-- Reads a value; no cursor is given when the text cannot be followed beyond it. -/
def readNode : Nat → Cursor → Node × Option Cursor
  | 0, c => (brokenAt (c.flaw .noValue), none)
  | bound + 1, c =>
    let c := c.skipSpace
    match c.rest with
    | [] => (brokenAt (c.flaw .endBeforeValue), none)
    | ch :: _ =>
      if ch = '"' then readQuoted c
      else if ch = '-' || Decimal.isDigit ch then readNumber c
      else if ch = 'n' then readWord c .null ['u', 'l', 'l']
      else if ch = 't' then readWord c (.bool true) ['r', 'u', 'e']
      else if ch = 'f' then readWord c (.bool false) ['a', 'l', 's', 'e']
      else if ch = '[' then
        let (items, close, after) := readItems bound c.advance true
        (.list (some c.place) items close true, after)
      else if ch = '\x7b' then
        let (members, close, after) := readMembers bound c.advance true
        (.record (some c.place) members close .withNull, after)
      else (brokenAt (c.flaw .noValue), none)

/-- Reads the items of a list up to its end. -/
def readItems : Nat → Cursor → Bool → List (After × Node) × Close × Option Cursor
  | 0, c, _ => ([], .cut (c.flaw .noValue) (c.flaw .noValue) (c.flaw .noValue), none)
  | bound + 1, c, first =>
    match nextItem c first with
    | .inl (close, after) => ([], close, after)
    | .inr c =>
      let (node, after) := readNode bound c
      match after with
      -- the item itself is what goes wrong; no one gets to the end of the list
      | none => ([(afterItem none, node)], .closed none, none)
      | some c =>
        let (items, close, after) := readItems bound c false
        ((afterItem (some c), node) :: items, close, after)

def readMembers : Nat → Cursor → Bool → List (MemberKey × Node) × Close × Option Cursor
  | 0, c, _ => ([], .cut (c.flaw .noValue) (c.flaw .noValue) (c.flaw .noValue), none)
  | bound + 1, c, first =>
    match nextMember c first with
    | .inl (close, after) =>
      -- a reader that wants the name of a variant reads whatever stands there as a value
      if first then ([], Close.named close (readNode bound c).1, after) else ([], close, after)
    | .inr c =>
      match readName c with
      | .error (read, skip) => ([], .cut read skip read, none)
      | .ok (name, flaw, after) =>
        let key (valueSettled : Option Offset) : MemberKey :=
          ⟨name, true, flaw, some after.place, some (settledInRecord after), valueSettled⟩
        match valueStart after with
        | .error e => ([(key none, brokenAt e)], .closed none, none)
        | .ok c =>
          let (node, after) := readNode bound c
          match after with
          | none => ([(key none, node)], .closed none, none)
          | some c =>
            let (members, close, after) := readMembers bound c false
            ((key (some (settledInRecord c)), node) :: members, close, after)

end

def document (text : String) : Whole :=
  let start : Cursor := ⟨0, text.toList⟩
  -- a character starts at most one value and one turn of a list or a record
  let (root, after) := readNode (2 * start.rest.length + 2) start
  let trailing : Option Complaint :=
    match after with
    | none => none
    | some c =>
      let c := c.skipSpace
      if c.rest.isEmpty then none else some (c.flaw .trailingText)
  ⟨root, trailing⟩

/-- The levels of lists and records that a JSON document may open. -/
def depthLimit : Nat := 128

def read {α : Type} (reading : Reading α) (text : String) : Except Complaint α :=
  (document text).read reading depthLimit

end KeyLayout.Json

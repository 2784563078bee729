/-
A document as far as it can be read.

A text of any of the four formats becomes one tree of nodes.  Where the text breaks
off or goes wrong the tree holds the complaint instead of a value, and nothing
behind it.  Reading a typed value from the tree walks it in the order of the text,
so of several things that are wrong the first one is reported, whether it is a
break in the written form or a value of the wrong kind.

Some complaints depend on what the reader is doing at that place:

* a value that is merely skipped is read less strictly than one that is used
  (`Broken.skip`, `Close.cut`);
* a value with a tag may be one thing to a reader that looks for a certain type and
  another to one that takes any value (`Node.tagged`);
* a reader that looks for the name of a variant sees only the first character of
  what is there (`Broken.asVariant`).

A node knows the places where it starts and stops when its format reports places.
`Node.detach` forgets them; it is what a reader does that must hold a value back
before it knows what to do with it.
-/
import KeyLayout.Document.Complaint
import KeyLayout.Json.Value

namespace KeyLayout.Document

/-- The first byte of a value and the first one behind it. -/
structure Span where
  start : Offset
  stop : Offset
deriving DecidableEq

/-- A value without parts. -/
inductive Scalar
  | null
  | bool (b : Bool)
  | int (n : Int)
  | float (x : Float)
  | text (s : String)
deriving DecidableEq

/-- How messages call a scalar. -/
def Scalar.found : Scalar → Found
  | null => .null
  | bool b => .bool b
  | int n => .int n
  | float x => .float x
  | text s => .text s

/-- The same scalar as a JSON value; a number that is not finite has none and becomes `null`. -/
def Scalar.toValue : Scalar → Json.Value
  | null => .null
  | bool b => .bool b
  | int n => .int n
  | float x => if x.isFinite then .float x else .null
  | text s => .text s

/-- A value that cannot be read. -/
structure Broken where
  /-- What a reader reports that wants the value. -/
  read : Complaint
  /-- What a reader reports that skips the value; it may be able to. -/
  skip : Option Complaint
  /-- What a reader reports that wants the name of a variant. -/
  asVariant : Complaint
  /-- Whether the first character is that of `null`. -/
  startsNull : Bool
deriving DecidableEq

/-- How a list or a record ends. -/
inductive Close
  | closed (stop : Option Offset)
  /-- The text goes wrong before the end; the last complaint is for a reader that wants the name of
  a variant here. -/
  | cut (read skip asName : Complaint)
deriving DecidableEq

/-- What follows an item of a list. -/
structure After where
  /-- The place behind the item, its closing bracket or comma included. -/
  settled : Option Offset
  /-- What is wrong if the list has to end here. -/
  notLast : Option Complaint
deriving DecidableEq

/-- The name of a member of a record. -/
structure MemberKey where
  text : String
  /-- Whether the name was written as a text and not as a number or the like. -/
  isText : Bool
  /-- What is wrong with the name for a reader that does not merely skip it. -/
  flaw : Option Complaint
  stop : Option Offset
  /-- The place behind the name, a closing bracket included. -/
  settled : Option Offset
  /-- The place behind the value, a closing bracket included. -/
  valueSettled : Option Offset
deriving DecidableEq

/-- Whether a record stands for a variant with content, and what it holds when
the variant has none. -/
inductive VariantForm
  | never
  | withNull
  /-- An empty list or an empty record. -/
  | withEmpty
deriving DecidableEq

/-- A node of a document. -/
inductive Node where
  /-- A scalar; `raw` is what it reads as where a text is wanted, when that differs. -/
  | scalar (value : Scalar) (raw : Option String) (span : Option Span)
  | broken (b : Broken)
  /-- A list; `asRecord` tells whether the format lets it stand for a record. -/
  | list (start : Option Offset) (items : List (After × Node)) (close : Close) (asRecord : Bool)
  /-- A record; `form` tells how the format lets it stand for a variant with content. -/
  | record (start : Option Offset) (members : List (MemberKey × Node)) (close : Close)
      (form : VariantForm)
  /-- A value with a tag: `node` is for a reader that looks for a certain type, `held` for one that
  takes any value. -/
  | tagged (variant : Option String) (node held : Node)

/-- The value for a reader that looks for a certain type. -/
def Node.bare : Node → Node
  | .tagged _ node _ => node
  | node => node

/-- The last place of a list or a record, or what keeps it from ending. -/
def Close.finish : Close → Except Complaint (Option Offset)
  | closed stop => .ok stop
  | cut read _ _ => .error read

/-- The same for a reader that skips. -/
def Close.skip : Close → Except Complaint Unit
  | closed _ => .ok ()
  | cut _ skip _ => .error skip

/-- Goes one level deeper, if the limit allows it. -/
def descend (depth : Nat) (start : Option Offset) : Except Complaint Nat :=
  if depth ≤ 1 then .error ⟨.flaw .tooDeep, start.map (· + 1)⟩ else .ok (depth - 1)

def Node.mismatch (expected : String) : Node → Complaint
  | .scalar v _ span => ⟨.wrongKind v.found expected, span.map Span.stop⟩
  | .broken b => b.read
  | .list start _ _ _ => ⟨.wrongKind .list expected, start⟩
  | .record start _ _ _ => ⟨.wrongKind .record expected, start⟩
  | .tagged _ node _ => node.mismatch expected

mutual

/-- Skips a value, however deep it is. -/
def Node.skip : Node → Except Complaint Unit
  | .scalar _ _ _ => .ok ()
  | .broken b =>
    match b.skip with
    | some c => .error c
    | none => .ok ()
  | .list _ items close _ => do
    skipItems items
    close.skip
  | .record _ members close _ => do
    skipMembers members
    close.skip
  | .tagged _ node _ => node.skip

def skipItems : List (After × Node) → Except Complaint Unit
  | [] => .ok ()
  | (_, node) :: items => do
    node.skip
    skipItems items

def skipMembers : List (MemberKey × Node) → Except Complaint Unit
  | [] => .ok ()
  | (_, node) :: members => do
    node.skip
    skipMembers members

end

/-- A name without its places. -/
def MemberKey.detach (key : MemberKey) : MemberKey := ⟨key.text, key.isText, none, none, none, none⟩

/-- The name, for a reader that uses it. -/
def MemberKey.name (key : MemberKey) : Except Complaint String :=
  match key.flaw with
  | some c => .error c
  | none => .ok key.text

mutual

/-- Reads a value whole and forgets its places. -/
def Node.detach (depth : Nat) : Node → Except Complaint Node
  | .scalar v _ _ => .ok (.scalar v none none)
  | .broken b => .error b.read
  | .list start items close asRecord => do
    let depth ← descend depth start
    let items ← detachItems depth items
    let _ ← close.finish
    return .list none items (.closed none) asRecord
  | .record start members close form => do
    let depth ← descend depth start
    let members ← detachMembers depth members
    let _ ← close.finish
    return .record none members (.closed none) form
  | .tagged _ _ held => held.detach depth

def detachItems (depth : Nat) : List (After × Node) → Except Complaint (List (After × Node))
  | [] => .ok []
  | (_, node) :: items => do
    let node ← node.detach depth
    let items ← detachItems depth items
    return (⟨none, none⟩, node) :: items

def detachMembers (depth : Nat) :
    List (MemberKey × Node) → Except Complaint (List (MemberKey × Node))
  | [] => .ok []
  | (key, node) :: members => do
    let _ ← key.name
    let node ← node.detach depth
    let members ← detachMembers depth members
    return (key.detach, node) :: members

end

mutual

/-- A detached value as JSON; the names of members have to be texts. -/
def Node.toValue : Node → Except Complaint Json.Value
  | .scalar v _ _ => .ok v.toValue
  | .broken b => .error b.read
  | .list _ items _ _ => do return .list (← itemsToValues items)
  | .record _ members _ _ => do return .record (← membersToFields members [])
  | .tagged _ _ held => held.toValue

def itemsToValues : List (After × Node) → Except Complaint (List Json.Value)
  | [] => .ok []
  | (_, node) :: items => do
    let v ← node.toValue
    let vs ← itemsToValues items
    return v :: vs

/-- The members of a record as JSON, added to those already there. -/
def membersToFields : List (MemberKey × Node) → Json.Fields → Except Complaint Json.Fields
  | [], fields => .ok fields
  | (key, node) :: members, fields => do
    if !key.isText then
      throw ⟨.wrongKind (.text key.text) "a string key", none⟩
    let v ← node.toValue
    -- of two members of one name the later one counts
    membersToFields members (fields.insert key.text v)

end

/-- A document: its value, and what is wrong with the text behind it. -/
structure Whole where
  root : Node
  trailing : Option Complaint

end KeyLayout.Document

/-
Reading typed values from a document.

A `Reading α` takes the levels that may still be opened and a node.  There are
readings for the scalars, for optional values and lists, for tables from names to
texts, for the names of variants (`variant`), and for records (`Shape`).

A record is described by its slots.  Each slot knows its name and further names,
whether the record may lack it, and how a value is filled in.  The members of a
record are taken in the order of the text: a name that no slot answers to is
skipped, and a slot that is already filled refuses a second value.  A record may
also be written as the list of its values in the order of its slots.

A `FlatShape` is a record one part of which is a record of its own whose members
stand among the others.  Such a reader cannot know where a member belongs before it
has seen all of them, so it holds back every member that is not its own.
-/
import KeyLayout.Document.Node

namespace KeyLayout.Document

/-- Reads a value from a node at some depth. -/
abbrev Reading (α : Type) := Nat → Node → Except Complaint α

namespace Reading

def bool : Reading Bool
  | _, node =>
    match node.bare with
    | .scalar (.bool b) _ _ => .ok b
    | node => .error (node.mismatch "a boolean")

/-- Whole numbers of thirty-two bits with a sign. -/
def int32 : Reading Int
  | _, node =>
    match node.bare with
    | .scalar (.int n) _ span =>
      if -2147483648 ≤ n ∧ n ≤ 2147483647 then .ok n
      else .error ⟨.outOfRange n "i32", span.map Span.stop⟩
    | node => .error (node.mismatch "i32")

def float : Reading Float
  | _, node =>
    match node.bare with
    | .scalar (.float x) _ _ => .ok x
    | .scalar (.int n) _ _ => .ok (Float.ofInt n)
    | node => .error (node.mismatch "f64")

/-- Texts, under the name that messages call them by. -/
def textAs (expected : String) : Reading String
  | _, node =>
    match node.bare with
    | .scalar (.text s) _ _ => .ok s
    | .scalar _ (some raw) _ => .ok raw
    | node => .error (node.mismatch expected)

def text : Reading String := textAs "a string"

def path : Reading String := textAs "path string"

/-- The content of a variant that has none. -/
def unit : Reading Unit
  | _, node =>
    match node.bare with
    | .scalar .null _ _ => .ok ()
    | node => .error (node.mismatch "unit")

/-- A value that may be `null`. A value with a tag is there, even if it is empty. -/
def optional {α : Type} (read : Reading α) : Reading (Option α)
  | _, .scalar .null _ _ => .ok none
  -- a value that begins like `null` goes wrong as `null`, before `read` sees it
  | depth, .broken b => if b.startsNull then .error b.read else (read depth (.broken b)).map some
  | depth, node => (read depth node).map some

/-- The items of a list. -/
def items {α : Type} (read : Reading α) (depth : Nat) :
    List (After × Node) → Except Complaint (List α)
  | [] => .ok []
  | (after, node) :: rest => do
    let x ← locate after.settled (read depth node)
    let xs ← items read depth rest
    return x :: xs

/-- Lists. A value that is left out, without even a word for it, is an empty list. -/
def list {α : Type} (read : Reading α) : Reading (List α)
  | depth, node =>
    match node.bare with
    | .list start nodes close _ => do
      let depth ← descend depth start
      let xs ← items read depth nodes
      let _ ← close.finish
      return xs
    | .scalar .null (some "") _ => .ok []
    | node => .error (node.mismatch "a sequence")

/-- The members of a table from names to texts, in the order of the text. -/
def entries (depth : Nat) : List (MemberKey × Node) → Except Complaint (List (String × String))
  | [] => .ok []
  | (key, node) :: rest => do
    let name ← key.name
    let x ← text depth node
    let xs ← entries depth rest
    return (name, x) :: xs

def table : Reading (List (String × String))
  | depth, node =>
    match node.bare with
    | .record start members close _ => do
      let depth ← descend depth start
      let xs ← entries depth members
      let _ ← close.finish
      return xs
    | node => .error (node.mismatch "a map")

end Reading

/-- What a variant holds besides its name. -/
inductive Content (α : Type)
  | nothing (x : α)
  | value (read : Reading α)
  | fields (read : Reading α)

/-- One of the variants of a choice. -/
structure Variant (α : Type) where
  name : String
  content : Content α

/-- The variant of a name; the place is the one behind the name. -/
def findVariant {α : Type} (variants : List (Variant α)) (name : String) (place : Option Offset) :
    Except Complaint (Variant α) :=
  match variants.find? (·.name == name) with
  | some v => .ok v
  | none => .error ⟨.unknownVariant name (variants.map Variant.name), place⟩

/-- The content of a variant that is given by its bare name. -/
def Content.bare {α : Type} : Content α → Except Complaint α
  | nothing x => .ok x
  | value _ => .error ⟨.wrongKind .bareVariant "newtype variant", none⟩
  | fields _ => .error ⟨.wrongKind .bareVariant "struct variant", none⟩

/-- Reads what stands where a variant has no content. -/
def readNothing (form : VariantForm) : Reading Unit
  | depth, node =>
    match form, node with
    | .withEmpty, .list _ [] _ _ => .ok ()
    | .withEmpty, .record _ [] _ _ => .ok ()
    | .withEmpty, node => .error (node.mismatch "an empty table")
    | _, node => Reading.unit depth node

/-- The content of a variant that is given in a record of some form. -/
def Content.held {α : Type} (form : VariantForm) (depth : Nat) (node : Node) :
    Content α → Except Complaint α
  | nothing x => (readNothing form depth node).map fun _ => x
  | value read => read depth node
  | fields read => read depth node

/-- A record around a variant has to end right after the content. -/
def endOfVariant (settled : Option Offset) (more : List (MemberKey × Node)) (close : Close) :
    Except Complaint Unit :=
  let complaint : Complaint := ⟨.flaw .noValue, settled⟩
  match more, close with
  | [], .closed _ => .ok ()
  | [], .cut read _ _ => .error (if read.cause = .flaw .endInRecord then read else complaint)
  | _ :: _, _ => .error complaint

/-- Reads a variant from its bare name, or from a record with the name and the content. -/
def untaggedVariant {α : Type} (variants : List (Variant α)) : Reading α
  | _, .scalar (.text s) _ span => do
    let v ← findVariant variants s (span.map Span.stop)
    v.content.bare
  | _, .scalar _ (some raw) _ => do
    let v ← findVariant variants raw none
    v.content.bare
  | _, .scalar _ none span => .error ⟨.flaw .noValue, span.map (·.start + 1)⟩
  | _, .broken b => .error b.asVariant
  | _, .tagged _ node _ => .error (node.mismatch "a variant")
  | _, .list start _ _ _ => .error ⟨.flaw .noValue, start.map (· + 1)⟩
  | _, .record start _ _ .never => .error ⟨.flaw .noValue, start.map (· + 1)⟩
  | depth, .record start members close form => do
    let depth ← descend depth start
    match members, close with
    | [], .closed stop => .error ⟨.flaw .noValue, stop⟩
    | [], .cut _ _ asName => .error asName
    | (key, node) :: more, close =>
      let name ← key.name
      let v ← findVariant variants name key.stop
      let x ← v.content.held form depth node
      endOfVariant key.valueSettled more close
      return x

/-- Reads a variant. A tag may give its name too, and then the content stands behind the tag. -/
def variant {α : Type} (variants : List (Variant α)) : Reading α
  | depth, .tagged (some name) node _ => do
    let v ← findVariant variants name none
    v.content.held .withNull depth node
  | depth, node => untaggedVariant variants depth node.bare

/-- One of some values that are known by name. -/
def Reading.named {α : Type} (values : List α) (name : α → String) : Reading α :=
  variant (values.map fun x => ⟨name x, .nothing x⟩)

/-- When a record may lack a slot. -/
inductive Presence
  | required
  /-- When it is written with names. -/
  | nullable
  /-- Also when it is written as a list. -/
  | optional
deriving DecidableEq

/-- A place for a value in a record. -/
structure Slot (τ : Type) where
  name : String
  aliases : List String
  presence : Presence
  fill : Nat → Node → τ → Except Complaint τ

/-- Whether a member of this name belongs to the slot. -/
def Slot.answers {τ : Type} (slot : Slot τ) (name : String) : Bool :=
  name == slot.name || slot.aliases.contains name

/-- A slot that is filled by a reading. -/
def Slot.of {τ α : Type} (name : String) (presence : Presence) (read : Reading α)
    (set : τ → α → τ) : Slot τ :=
  ⟨name, [], presence, fun depth node record => (read depth node).map (set record)⟩

/-- A further name for a slot. -/
def Slot.alias {τ : Type} (slot : Slot τ) (name : String) : Slot τ :=
  { slot with aliases := name :: slot.aliases }

/-- A record: how messages call it, its value before any slot is filled, and its slots. -/
structure Shape (τ : Type) where
  title : String
  blank : τ
  slots : List (Slot τ)

namespace Shape

variable {τ : Type}

/-- The slot that a name belongs to. -/
def slot? (shape : Shape τ) (name : String) : Option (Slot τ) :=
  shape.slots.find? (·.answers name)

/-- Takes one member; `seen` holds the names of the slots that are filled. -/
def step (shape : Shape τ) (depth : Nat) (state : τ × List String) (key : MemberKey) (node : Node) :
    Except Complaint (τ × List String) := do
  let name ← key.name
  match shape.slot? name with
  | none =>
    -- no slot wants it, but a value that is no value goes wrong all the same
    node.skip
    return state
  | some slot =>
    if state.2.contains slot.name then throw ⟨.duplicateField slot.name, key.settled⟩
    else
      let record ← locate key.valueSettled (slot.fill depth node state.1)
      return (record, slot.name :: state.2)

/-- Takes the members in their order. -/
def takeMembers (shape : Shape τ) (depth : Nat) :
    List (MemberKey × Node) → τ × List String → Except Complaint (τ × List String)
  | [], state => .ok state
  | (key, node) :: members, state => do
    let state ← shape.step depth state key node
    shape.takeMembers depth members state

/-- Refuses a record that lacks a slot it has to have. -/
def complete (shape : Shape τ) (state : τ × List String) (stop : Option Offset) :
    Except Complaint τ :=
  match shape.slots.find? fun s => s.presence == .required && !state.2.contains s.name with
  | some slot => .error ⟨.missingField slot.name, stop⟩
  | none => .ok state.1

/-- Reads a record from its members. -/
def ofMembers (shape : Shape τ) (depth : Nat) (members : List (MemberKey × Node)) (close : Close) :
    Except Complaint τ := do
  let state ← shape.takeMembers depth members (shape.blank, [])
  let stop ← close.finish
  shape.complete state stop

/-- How messages describe a record that is written as a list. -/
def listTitle (shape : Shape τ) : String :=
  let n := shape.slots.length
  s!"{shape.title} with {n} element" ++ (if n == 1 then "" else "s")

/-- Fills the slots from the items of a list; `index` counts the slots already filled. -/
def takeItems (shape : Shape τ) (depth : Nat) (close : Close) :
    Nat → List (Slot τ) → List (After × Node) → Option Complaint → τ → Except Complaint τ
  | _, [], _, notLast, record =>
    match notLast with
    | some c => .error c
    | none => .ok record
  | index, slot :: slots, [], _, record => do
    let stop ← close.finish
    -- the items are over, so only slots that a list may lack can be left
    if slot.presence == .optional then
      shape.takeItems depth close (index + 1) slots [] none record
    else .error ⟨.wrongLength index shape.listTitle, stop⟩
  | index, slot :: slots, (after, node) :: items, _, record => do
    let record ← locate after.settled (slot.fill depth node record)
    shape.takeItems depth close (index + 1) slots items after.notLast record

/-- Reads a record. A value that is left out, without even a word for it, is a record without
members. -/
def read (shape : Shape τ) : Reading τ
  | depth, node =>
    match node.bare with
    | .record start members close _ => do
      let depth ← descend depth start
      shape.ofMembers depth members close
    | .list start items close true => do
      let depth ← descend depth start
      shape.takeItems depth close 0 shape.slots items none shape.blank
    | .scalar .null (some "") _ => shape.ofMembers depth [] (.closed none)
    | node => .error (node.mismatch shape.title)

end Shape

/-- A record with slots of its own among whose members stand those of a base record. -/
structure FlatShape (τ β : Type) where
  own : Shape τ
  base : Shape β
  /-- Adds the base, and the members that belong to neither. -/
  assemble : β → List (MemberKey × Node) → τ → Except Complaint τ

namespace FlatShape

variable {τ β : Type}

/-- Takes the members in their order and holds back those that are not its own. -/
def takeMembers (shape : FlatShape τ β) (depth : Nat) :
    List (MemberKey × Node) → τ × List String →
      Except Complaint ((τ × List String) × List (MemberKey × Node))
  | [], state => .ok (state, [])
  | (key, node) :: members, state => do
    let name ← key.name
    match shape.own.slot? name with
    | some _ =>
      let state ← shape.own.step depth state key node
      shape.takeMembers depth members state
    | none =>
      -- the base and the members kept for later are read without places
      let node ← node.detach depth
      let (state, held) ← shape.takeMembers depth members state
      return (state, (key.detach, node) :: held)

/-- Reads the base from the members held back, and gives the others on. -/
def assembled (shape : FlatShape τ β) (depth : Nat) (record : τ) (held : List (MemberKey × Node)) :
    Except Complaint τ := do
  let mine (member : MemberKey × Node) : Bool := (shape.base.slot? member.1.text).isSome
  let base ← shape.base.ofMembers depth (held.filter mine) (.closed none)
  shape.assemble base (held.filter (!mine ·)) record

/-- Reads a record whose base stands among its members. -/
def read (shape : FlatShape τ β) : Reading τ
  | depth, node =>
    match node.bare with
    | .record start members close _ => do
      let depth ← descend depth start
      let (state, held) ← shape.takeMembers depth members (shape.own.blank, [])
      let stop ← close.finish
      locate stop (shape.assembled depth state.1 held)
    | .scalar .null (some "") _ => shape.assembled depth shape.own.blank []
    | node => .error (node.mismatch shape.own.title)

end FlatShape

/-- Reads the value of a whole document; nothing may stand behind it. -/
def Whole.read {α : Type} (reading : Reading α) (depth : Nat) (d : Whole) :
    Except Complaint α := do
  let x ← reading depth d.root
  match d.trailing with
  | some c => throw c
  | none => return x

end KeyLayout.Document

/-
Reading a text from front to back.

A scanner takes something from the front of a text and gives what is left of it, or it
tells where it got stuck and why (`Break`).  From how much is left the place in the
whole text is known.

A format whose whole text is taken in before any value is read gives either a tree
without flaws or a break (`readTree`).
-/
import KeyLayout.Document.Reading

namespace KeyLayout.Document

/-- Where and why a scanner got stuck. -/
structure Break where
  flaw : Flaw
  rest : List Char
deriving DecidableEq

/-- Takes something from the front of a text. -/
abbrev Scan (α : Type) := List Char → Except Break (α × List Char)

/-- The number of bytes of characters. -/
def byteCount (text : List Char) : Nat := text.foldl (fun n c => n + c.utf8Size) 0

/-- A break in a text as a complaint. -/
def Break.complaint (b : Break) (text : List Char) : Complaint :=
  .flaw b.flaw (byteCount text - byteCount b.rest)

/-- A key without a place. -/
def MemberKey.ofText (name : String) : MemberKey := ⟨name, true, none, none, none, none⟩

/-- A scalar without a place. -/
def Node.ofScalar (value : Scalar) : Node := .scalar value none none

/-- A list without a place; it may stand for a record. -/
def Node.ofItems (items : List Node) : Node :=
  .list none (items.map fun node => (⟨none, none⟩, node)) (.closed none) true

/-- A record without a place. -/
def Node.ofMembers (members : List (String × Node)) (form : VariantForm) : Node :=
  .record none (members.map fun (name, node) => (.ofText name, node)) (.closed none) form

/-- Reads a value from a tree that was taken in as a whole. -/
def readTree {α : Type} (reading : Reading α) (depth : Nat) (text : List Char)
    (tree : Except Break Node) : Except Complaint α :=
  match tree with
  | .ok root => reading depth root
  | .error b => .error (b.complaint text)

end KeyLayout.Document

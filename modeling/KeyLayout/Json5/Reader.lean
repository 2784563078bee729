/-
Reading JSON5 documents.

A JSON5 document is taken in as a whole.  Lists and records may have a comma behind
their last part; a list in place of a record must not have one, unless the record has
more fields than the list has items.
-/
import KeyLayout.Json5.Lexeme

namespace KeyLayout.Json5

open Document

/-- An item, with the complaint about a comma behind it. -/
abbrev Item := After × Node

/-- What follows an item: nothing is wrong if a bracket closes the list at once. -/
def afterItem (closing : Bool) : After :=
  ⟨none, if closing then none else some ⟨.flaw .danglingComma, none⟩⟩

/-- A word in place of a value. -/
def readWord : Scan Scalar
  | 'n' :: 'u' :: 'l' :: 'l' :: rest => .ok (.null, rest)
  | 't' :: 'r' :: 'u' :: 'e' :: rest => .ok (.bool true, rest)
  | 'f' :: 'a' :: 'l' :: 's' :: 'e' :: rest => .ok (.bool false, rest)
  | text => readNumber text

/-- The name of a member, with or without quotes. -/
def readKey : Scan (List Char)
  | '"' :: rest => readText '"' 0 rest
  | '\'' :: rest => readText '\'' 0 rest
  | text => readName text

mutual

/-- Reads a value; `bound` limits the number of steps. -/
def readNode : Nat → List Char → Except Break (Node × List Char)
  | 0, text => .error ⟨.tooDeep, text⟩
  | bound + 1, text =>
    match text with
    | '\x7b' :: rest => do
      let (members, rest) ← readMembers bound (← skipGap .blank rest)
      return (.record none members (.closed none) .withNull, rest)
    | '[' :: rest => do
      let (items, rest) ← readItems bound (← skipGap .blank rest)
      return (.list none items (.closed none) true, rest)
    | '"' :: rest => (readText '"' 0 rest).map fun (s, rest) => (.ofScalar (.text (.ofList s)), rest)
    | '\'' :: rest => (readText '\'' 0 rest).map fun (s, rest) => (.ofScalar (.text (.ofList s)), rest)
    | [] => .error ⟨.endBeforeValue, []⟩
    | text => (readWord text).map fun (value, rest) => (.ofScalar value, rest)

def readItems : Nat → List Char → Except Break (List Item × List Char)
  | 0, text => .error ⟨.tooDeep, text⟩
  | bound + 1, text =>
    match text with
    | ']' :: rest => .ok ([], rest)
    | text => do
      let (node, rest) ← readNode bound text
      match ← skipGap .blank rest with
      | ',' :: rest =>
        let (items, rest) ← readItems bound (← skipGap .blank rest)
        return ((afterItem false, node) :: items, rest)
      | ']' :: rest => return ([(afterItem true, node)], rest)
      | rest => throw ⟨if rest.isEmpty then .endInList else .noListComma, rest⟩

def readMembers : Nat → List Char → Except Break (List (MemberKey × Node) × List Char)
  | 0, text => .error ⟨.tooDeep, text⟩
  | bound + 1, text =>
    match text with
    | '\x7d' :: rest => .ok ([], rest)
    | [] => .error ⟨.endInRecord, []⟩
    | text => do
      let (name, rest) ← readKey text
      match ← skipGap .blank rest with
      | ':' :: rest =>
        let (node, rest) ← readNode bound (← skipGap .blank rest)
        let key := MemberKey.ofText (.ofList name)
        match ← skipGap .blank rest with
        | ',' :: rest =>
          let (members, rest) ← readMembers bound (← skipGap .blank rest)
          return ((key, node) :: members, rest)
        | '\x7d' :: rest => return ([(key, node)], rest)
        | rest => throw ⟨if rest.isEmpty then .endInRecord else .noRecordComma, rest⟩
      | rest => throw ⟨.noColon, rest⟩

end

def tree (text : List Char) : Except Break Node := do
  let (root, rest) ← readNode (2 * text.length + 1) (← skipGap .blank text)
  match ← skipGap .blank rest with
  | [] => return root
  | rest => throw ⟨.trailingText, rest⟩

def read {α : Type} (reading : Reading α) (text : String) : Except Complaint α :=
  let chars := text.toList
  readTree reading (chars.length + 2) chars (tree chars)

end KeyLayout.Json5

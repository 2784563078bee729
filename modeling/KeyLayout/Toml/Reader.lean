/-
Reading TOML documents.

A document consists of lines: a header opens a table, and every other line gives a
value to a key of the table that was opened last.  Lists and tables may also be written
inline, one inside the other, up to a limit.
-/
import KeyLayout.Toml.Lexeme
import KeyLayout.Toml.Scalar
import KeyLayout.Toml.Tree

namespace KeyLayout.Toml

open Document

/-- How many lists and tables may be open inside each other. -/
def depthLimit : Nat := 80

/-- Puts a value where keys lead; `rest` is where it stands, for a complaint. -/
def putAt (path : Path) (node : Node) (entries : Entries) (rest : List Char) :
    Except Break Entries :=
  match entries.putAt path.front path.last node with
  | some entries => .ok entries
  | none => .error ⟨.repeatedName, rest⟩

/-- Reads the keys before a value and the sign between them. -/
def readKeys : Scan Path
  | text => do
    let (path, rest) ← readPath text
    match rest with
    | '=' :: rest => return (path, skipSpace rest)
    | rest => throw ⟨.noColon, rest⟩

mutual

/-- Reads a value; `bound` limits the number of steps and `depth` the levels below. -/
def readValue : Nat → Nat → List Char → Except Break (Node × List Char)
  | 0, _, text => .error ⟨.tooDeep, text⟩
  | bound + 1, depth, text =>
    match text, depth with
    | '[' :: _, 0 => .error ⟨.tooDeep, text⟩
    | '\x7b' :: _, 0 => .error ⟨.tooDeep, text⟩
    | '[' :: rest, depth + 1 => do
      let (items, rest) ← readItems bound depth (← skipGap rest)
      return (.ofItems items, rest)
    | '\x7b' :: rest, depth + 1 => do
      let (entries, rest) ← readMembers bound depth [] (← skipGap rest)
      return (entries.node, rest)
    | text, _ =>
      match readText? text with
      | some r => r.map fun (s, rest) => (.ofScalar (.text (.ofList s)), rest)
      | none => readWord text

def readItems : Nat → Nat → List Char → Except Break (List Node × List Char)
  | 0, _, text => .error ⟨.tooDeep, text⟩
  | bound + 1, depth, text =>
    match text with
    | ']' :: rest => .ok ([], rest)
    | text => do
      let (node, rest) ← readValue bound depth text
      match ← skipGap rest with
      | ',' :: rest =>
        let (items, rest) ← readItems bound depth (← skipGap rest)
        return (node :: items, rest)
      | ']' :: rest => return ([node], rest)
      | rest => throw ⟨if rest.isEmpty then .endInList else .noListComma, rest⟩

/-- Reads members up to the end of an inline table and adds them to the entries before them. -/
def readMembers : Nat → Nat → Entries → List Char → Except Break (Entries × List Char)
  | 0, _, _, text => .error ⟨.tooDeep, text⟩
  | bound + 1, depth, entries, text =>
    match text with
    | '\x7d' :: rest => .ok (entries, rest)
    | text => do
      let (path, rest) ← readKeys text
      let (node, rest) ← readValue bound depth rest
      let entries ← putAt path node entries rest
      match ← skipGap rest with
      | ',' :: rest => readMembers bound depth entries (← skipGap rest)
      | '\x7d' :: rest => return (entries, rest)
      | rest => throw ⟨if rest.isEmpty then .endInRecord else .noRecordComma, rest⟩

end

/-- What has been read of a document: all tables, and where the open one is. -/
structure Progress where
  entries : Entries
  opened : List String

/-- Opens a table by its header. -/
def openHeader (p : Progress) (path : Path) (isElement : Bool) (rest : List Char) :
    Except Break Progress :=
  let opened :=
    if isElement then p.entries.openElement path.front path.last
    else p.entries.openTable path.front path.last
  match opened with
  | some entries => .ok ⟨entries, path.front ++ [path.last]⟩
  | none => .error ⟨.repeatedName, rest⟩

def readHeader (p : Progress) : List Char → Except Break (Progress × List Char)
  | '[' :: '[' :: rest => do
    let (path, rest) ← readPath rest
    match rest with
    | ']' :: ']' :: rest => return (← openHeader p path true rest, rest)
    | rest => throw ⟨.noListComma, rest⟩
  | '[' :: rest => do
    let (path, rest) ← readPath rest
    match rest with
    | ']' :: rest => return (← openHeader p path false rest, rest)
    | rest => throw ⟨.noListComma, rest⟩
  | text => .error ⟨.noValue, text⟩

/-- Reads a key with its value into the open table. -/
def readEntry (p : Progress) (text : List Char) : Except Break (Progress × List Char) := do
  let (path, rest) ← readKeys text
  let (node, rest) ← readValue (2 * rest.length + 1) depthLimit rest
  match p.entries.under (Entries.putAt path.front path.last node) p.opened with
  | some entries => return (⟨entries, p.opened⟩, rest)
  | none => throw ⟨.repeatedName, rest⟩

/-- Reads lines up to the end; `bound` limits their number. -/
def readDocument : Nat → Progress → List Char → Except Break Node
  | 0, _, text => .error ⟨.tooDeep, text⟩
  | bound + 1, p, text => do
    let text ← skipGap text
    match text with
    | [] => return p.entries.node
    | '[' :: _ =>
      let (p, rest) ← readHeader p text
      readDocument bound p (← endOfLine rest)
    | text =>
      let (p, rest) ← readEntry p text
      readDocument bound p (← endOfLine rest)

/-- Takes in a whole document; a mark of the byte order may stand before it. -/
def tree (text : List Char) : Except Break Node :=
  let text := match text with
    | '\ufeff' :: rest => rest
    | text => text
  readDocument (text.length + 1) ⟨[], []⟩ text

def read {α : Type} (reading : Reading α) (text : String) : Except Complaint α :=
  let chars := text.toList
  readTree reading (chars.length + 2) chars (tree chars)

end KeyLayout.Toml

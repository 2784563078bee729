/-
From the layout of a YAML document to its tokens.

Lists and records that are not in brackets or braces begin and end by their
indentation.  That a value is the name of a member is only known when a colon follows
it, so a place where a name may begin is kept in mind (`PossibleName`): it has to be on
one line and not too far before the colon.  In a block, a value at the indentation of
the record around it must turn out to be a name.

`Layout.step` reads the next token; `tokens` reads them all.
-/
import KeyLayout.Yaml.Property
import KeyLayout.Yaml.ScalarText

namespace KeyLayout.Yaml

open Document

/-- A place where the name of a member may have begun. -/
structure PossibleName where
  /-- The number of tokens before it. -/
  index : Nat
  place : Cursor
  /-- Whether it has to be a name. -/
  required : Bool
deriving DecidableEq

/-- What has been read of a document, and what is known about the place reached. -/
structure Layout where
  cursor : Cursor
  tokens : Tokens
  /-- The column of the innermost block; it is -1 outside of all blocks. -/
  indent : Int
  /-- The columns of the blocks around it. -/
  outer : List Int
  /-- For every level of brackets and braces, and for the block around them, where a name may have
  begun. -/
  names : List (Option PossibleName)
  /-- Whether a name may begin here. -/
  nameAllowed : Bool
deriving DecidableEq

/-- The greatest distance between the start of a name and its colon. -/
def maxNameLength : Nat := 1024

namespace Layout

def start (text : List Char) : Layout := ⟨.start text, .empty, -1, [], [none], true⟩

def inFlow (l : Layout) : Bool := 1 < l.names.length

def column (l : Layout) : Int := l.cursor.column

/-- Goes on at another place. -/
def moveTo (l : Layout) (c : Cursor) : Layout := { l with cursor := c }

/-- Adds a token of the text at the place reached, which goes on at `after`. -/
def emit (l : Layout) (kind : TokenKind) (after : Cursor) : Layout :=
  { l with tokens := l.tokens.push ⟨kind, l.cursor.rest⟩, cursor := after }

/-- Adds a mark of `size` characters. -/
def emitMark (l : Layout) (kind : TokenKind) (size : Nat) : Layout :=
  l.emit kind (l.cursor.skip size)

/-- Forgets that a name may have begun; it must not have been required. -/
def dropName (l : Layout) : Except Break Layout :=
  match l.names with
  | some p :: names =>
    -- what starts at the column of its block has to be a name
    if p.required then p.place.stuck .noColon else .ok { l with names := none :: names }
  | _ => .ok l

/-- Whether a name that may have begun at some place can still be one here. -/
def staysPossible (l : Layout) (p : PossibleName) : Bool :=
  p.place.line = l.cursor.line && l.cursor.index ≤ p.place.index + maxNameLength

/-- Forgets the places from which on the text got too long or went over a line end. -/
def dropStale (l : Layout) : List (Option PossibleName) → Except Break (List (Option PossibleName))
  | [] => .ok []
  | none :: names => (dropStale l names).map (none :: ·)
  | some p :: names =>
    if l.staysPossible p then (dropStale l names).map (some p :: ·)
    else if p.required then p.place.stuck .noColon
    else (dropStale l names).map (none :: ·)

/-- Keeps in mind that a name may begin here. -/
def noteName (l : Layout) : Except Break Layout :=
  if l.nameAllowed then do
    let required := !l.inFlow && l.indent == l.column
    let l ← l.dropName
    return { l with names := some ⟨l.tokens.count, l.cursor, required⟩ :: l.names.drop 1 }
  else .ok l

/-- Opens a block at a column further in; its first token has `index` tokens before it. -/
def openBlock (l : Layout) (column : Int) (index : Nat) (kind : TokenKind) (rest : List Char) :
    Layout :=
  if !l.inFlow && l.indent < column then
    { l with
      outer := l.indent :: l.outer
      indent := column
      tokens := l.tokens.insert index ⟨kind, rest⟩ }
  else l

/-- The blocks that end before a column: their tokens, and what is left. -/
def closeFrom (column : Int) (rest : List Char) :
    Tokens → Int → List Int → Tokens × Int × List Int
  | tokens, indent, [] => (tokens, indent, [])
  | tokens, indent, above :: outer =>
    if column < indent then closeFrom column rest (tokens.push ⟨.blockEnd, rest⟩) above outer
    else (tokens, indent, above :: outer)

/-- Closes all blocks that are further in than a column. -/
def closeBlocks (l : Layout) (column : Int) : Layout :=
  if l.inFlow then l
  else
    let (tokens, indent, outer) := closeFrom column l.cursor.rest l.tokens l.indent l.outer
    { l with tokens := tokens, indent := indent, outer := outer }

/-- Passes blanks, comments and empty lines. -/
def passBlanks : Nat → Layout → Layout
  | 0, l => l
  | bound + 1, l =>
    let c := if l.cursor.column = 0 ∧ l.cursor.next? = some '\ufeff' then l.cursor.skip 1 else l.cursor
    -- in a block, a tab may only stand where no name may begin
    let c := c.skipWhile fun d => d = ' ' ∨ ((l.inFlow ∨ !l.nameAllowed) ∧ d = '\t')
    let c := c.skipComment
    if (c.next?.map isLineEnd).getD false then
      passBlanks bound { l with cursor := c.skipLine.2, nameAllowed := l.nameAllowed || !l.inFlow }
    else l.moveTo c

/-- Closes everything at the end of the text. -/
def finish (l : Layout) : Except Break Layout := do
  let l ← (l.closeBlocks (-1)).dropName
  return { l with nameAllowed := false }.emitMark .streamEnd 0

def directive (l : Layout) : Except Break Layout := do
  let l ← (l.closeBlocks (-1)).dropName
  let (kind, after) ← readDirective (l.cursor.skip 1)
  return { l with nameAllowed := false }.emit kind after

/-- Reads the three dashes or dots between documents. -/
def documentMark (l : Layout) (kind : TokenKind) : Except Break Layout := do
  let l ← (l.closeBlocks (-1)).dropName
  return { l with nameAllowed := false }.emitMark kind 3

/-- Opens brackets or braces. -/
def openFlow (l : Layout) (kind : TokenKind) : Except Break Layout := do
  let l ← l.noteName
  return { l with names := none :: l.names, nameAllowed := true }.emitMark kind 1

/-- Closes brackets or braces. -/
def closeFlow (l : Layout) (kind : TokenKind) : Except Break Layout := do
  let l ← l.dropName
  let names := if l.inFlow then l.names.drop 1 else l.names
  return { l with names := names, nameAllowed := false }.emitMark kind 1

def comma (l : Layout) : Except Break Layout := do
  let l ← l.dropName
  return { l with nameAllowed := true }.emitMark .comma 1

/-- Opens a block at the place reached, where a name would have to be allowed. -/
def openHere (l : Layout) (kind : TokenKind) : Except Break Layout :=
  if l.inFlow then .ok l
  else if !l.nameAllowed then l.cursor.stuck .noValue
  else .ok (l.openBlock l.column l.tokens.count kind l.cursor.rest)

def dash (l : Layout) : Except Break Layout := do
  let l ← (← l.openHere .blockList).dropName
  return { l with nameAllowed := true }.emitMark .dash 1

/-- Reads the question mark before a name. -/
def questionMark (l : Layout) : Except Break Layout := do
  let l ← (← l.openHere .blockRecord).dropName
  return { l with nameAllowed := !l.inFlow }.emitMark .name 1

/-- Reads the colon before a value. -/
def colon (l : Layout) : Except Break Layout :=
  match l.names with
  | some p :: names =>
    -- only now it is known that what stands before the colon is a name
    let l := { l with
      tokens := l.tokens.insert p.index ⟨.name, p.place.rest⟩
      names := none :: names }
    let l := l.openBlock p.place.column p.index .blockRecord p.place.rest
    .ok ({ l with nameAllowed := false }.emitMark .value 1)
  | _ => do
    let l ← l.openHere .blockRecord
    return { l with nameAllowed := !l.inFlow }.emitMark .value 1

/-- Reads an anchor or an alias. -/
def anchor (l : Layout) (kind : String → TokenKind) : Except Break Layout := do
  let l ← l.noteName
  let (name, after) ← readAnchor (l.cursor.skip 1)
  return { l with nameAllowed := false }.emit (kind name) after

/-- Reads a tag. -/
def tag (l : Layout) : Except Break Layout := do
  let l ← l.noteName
  let (kind, after) ← readTag l.inFlow l.cursor
  return { l with nameAllowed := false }.emit kind after

def blockScalar (l : Layout) (style : Style) : Except Break Layout := do
  let l ← l.dropName
  let (text, after) ← readBlock (style == .folded) l.indent (l.cursor.skip 1)
  return { l with nameAllowed := true }.emit (.scalar (String.ofList text) style) after

def quotedScalar (l : Layout) (quote : Char) : Except Break Layout := do
  let l ← l.noteName
  let (text, after) ← readQuoted quote (l.cursor.rest.length + 1) (l.cursor.skip 1)
  return { l with nameAllowed := false }.emit (.scalar (String.ofList text) .quoted) after

def plainScalar (l : Layout) : Except Break Layout := do
  let l ← l.noteName
  let s ← readPlain ⟨l.inFlow, l.indent + 1⟩ (l.cursor.rest.length + 1) false l.cursor
  return { l with nameAllowed := s.lineEnded }.emit (.scalar (String.ofList s.text) .plain) s.after

/-- Whether a plain scalar may start with a character before some text. -/
def startsPlain (inFlow : Bool) (c : Char) (rest : List Char) : Bool :=
  if c = '-' then !(rest.head?.map isSpace).getD false
  else if c = '?' ∨ c = ':' then !inFlow && !blankNext rest
  else !isBlank c && !",[]\x7b\x7d#&*!|>'\"%@`".toList.contains c

/-- Reads the next token at a character that is not blank. -/
def token (l : Layout) (c : Char) (rest : List Char) : Except Break Layout :=
  let marks := l.inFlow || blankNext rest
  if l.cursor.column = 0 ∧ c = '%' then l.directive
  else if l.cursor.atMark then l.documentMark (if c = '-' then .documentStart else .documentEnd)
  else if c = '[' then l.openFlow .openBracket
  else if c = '\x7b' then l.openFlow .openBrace
  else if c = ']' then l.closeFlow .closeBracket
  else if c = '\x7d' then l.closeFlow .closeBrace
  else if c = ',' then l.comma
  else if c = '-' ∧ blankNext rest then l.dash
  else if c = '?' ∧ marks then l.questionMark
  else if c = ':' ∧ marks then l.colon
  else if c = '*' then l.anchor .alias
  else if c = '&' then l.anchor .anchor
  else if c = '!' then l.tag
  else if c = '|' ∧ !l.inFlow then l.blockScalar .literal
  else if c = '>' ∧ !l.inFlow then l.blockScalar .folded
  else if c = '\'' ∨ c = '"' then l.quotedScalar c
  else if startsPlain l.inFlow c rest then l.plainScalar
  else l.cursor.stuck .noValue

/-- Reads the next token. -/
def step (l : Layout) : Except Break Layout := do
  let l := passBlanks (l.cursor.rest.length + 1) l
  let l := { l with names := ← l.dropStale l.names }
  let l := l.closeBlocks l.column
  match l.cursor.rest with
  | [] => l.finish
  | c :: rest => l.token c rest

/-- Whether the last token was read. -/
def isOver (l : Layout) : Bool := (l.tokens.reversed.head?.map (·.kind == .streamEnd)).getD false

/-- Reads tokens to the end of the text; `bound` limits their number. -/
def run : Nat → Layout → Except Break Layout
  | 0, l => l.cursor.stuck .tooDeep
  | bound + 1, l => do
    let l ← l.step
    if l.isOver then return l else run bound l

end Layout

/-- The tokens of a text. -/
def tokens (text : List Char) : Except Break (List Token) := do
  let text := match text with
    | '\ufeff' :: rest => rest
    | text => text
  let spoilt := text.dropWhile isPrintable
  if spoilt.isEmpty then
    let l ← Layout.run (text.length + 2) (.start text)
    return l.tokens.toList
  else throw ⟨.controlCharacter, spoilt⟩

end KeyLayout.Yaml

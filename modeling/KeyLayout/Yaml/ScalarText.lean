/-
The text of scalars.

A scalar may be plain, stand in quotation marks or apostrophes, or be a block of lines
that are indented further than what is around them.

Within a plain or a quoted scalar, blanks between words are kept on one line, but a
line end with the blanks around it is folded (`Gap.text`): it becomes a space, or, where
empty lines follow, as many line ends as there are empty lines.  A block keeps its line
ends or folds them, and keeps none, one or all of those at its end.
-/
import KeyLayout.Text.Hexadecimal
import KeyLayout.Yaml.Cursor

namespace KeyLayout.Yaml

open Document

/-- Blanks between two words of a scalar. -/
structure Gap where
  /-- The blanks on one line. -/
  spaces : List Char
  /-- The first line end, as it is written in a text, and those after it, if there are any. -/
  lines : Option (List Char × List Char)
deriving DecidableEq

namespace Gap

def none : Gap := ⟨[], .none⟩

/-- An escaped line end, which is not written. -/
def escapedLine : Gap := ⟨[], some ([], [])⟩

def addLine (gap : Gap) (text : List Char) : Gap :=
  match gap.lines with
  | .none => ⟨[], some (text, [])⟩
  | some (first, more) => ⟨[], some (first, more ++ text)⟩

/-- Adds a blank; those behind a line end do not count. -/
def addSpace (gap : Gap) (c : Char) : Gap :=
  match gap.lines with
  | .none => ⟨gap.spaces ++ [c], .none⟩
  | some _ => gap

/-- What is written for a gap. -/
def text (gap : Gap) : List Char :=
  match gap.lines with
  | .none => gap.spaces
  | some (first, more) =>
    -- a single line end counts as a space, and one before empty lines not at all
    if first = ['\n'] then (if more.isEmpty then [' '] else more) else first ++ more

end Gap

/-- Reads blanks and line ends; no tab may stand behind a line end before the column `limit`. -/
def readGap (limit : Int) : Nat → Gap → Cursor → Except Break (Gap × Cursor)
  | 0, gap, c => .ok (gap, c)
  | bound + 1, gap, c =>
    match c.next? with
    | .none => .ok (gap, c)
    | some d =>
      if isSpace d then
        if d = '\t' ∧ gap.lines.isSome ∧ c.column < limit then c.stuck .badIndent
        else readGap limit bound (gap.addSpace d) (c.skip 1)
      else if isLineEnd d then
        let (text, c) := c.skipLine
        readGap limit bound (gap.addLine text) c
      else .ok (gap, c)

/-! Plain scalars -/

/-- Where a plain scalar stands. -/
structure Surroundings where
  /-- Whether it is inside of brackets or braces. -/
  inFlow : Bool
  /-- The column from which on its further lines have to start. -/
  indent : Int
deriving DecidableEq

/-- Whether a character is a bracket, a brace or a comma. -/
def isFlowMark (c : Char) : Bool := c == ',' || c == '[' || c == ']' || c == '\x7b' || c == '\x7d'

/-- Whether a word of a plain scalar ends before this text. -/
def endsWord (inFlow : Bool) : List Char → Bool
  | [] => true
  | c :: rest => isBlank c || (c == ':' && blankNext rest) || (inFlow && isFlowMark c)

/-- Whether a colon in brackets or braces touches one of their marks. -/
def tightColon (inFlow : Bool) : List Char → Bool
  | ':' :: c :: _ => inFlow && (isFlowMark c || c == '?')
  | _ => false

/-- The length of a word of a plain scalar, and whether a tight colon spoils it. -/
def wordLength (inFlow : Bool) : List Char → Nat × Bool
  | [] => (0, false)
  | c :: rest =>
    if isBlank c then (0, false)
    else if tightColon inFlow (c :: rest) then (0, true)
    else if endsWord inFlow (c :: rest) then (0, false)
    else
      let (n, spoilt) := wordLength inFlow rest
      (n + 1, spoilt)

/-- A scalar that has been read. -/
structure Scanned where
  text : List Char
  /-- Whether line ends were passed behind the last word. -/
  lineEnded : Bool
  after : Cursor
deriving DecidableEq

/-- Reads a plain scalar; `lineEnded` says whether a line end stands before this word. -/
def readPlain (s : Surroundings) : Nat → Bool → Cursor → Except Break Scanned
  | 0, lineEnded, c => .ok ⟨[], lineEnded, c⟩
  | bound + 1, lineEnded, c =>
    if c.atMark || c.next? == some '#' then .ok ⟨[], lineEnded, c⟩
    else
      match wordLength s.inFlow c.rest with
      | (_, true) => c.stuck .noValue
      | (0, false) => .ok ⟨[], lineEnded, c⟩
      | (n, false) => do
        let word := c.rest.take n
        let c := c.skip n
        match c.next? with
        | .none => return ⟨word, false, c⟩
        | some d =>
          if !isBlank d then return ⟨word, false, c⟩
          else
            let (gap, c) ← readGap s.indent (c.rest.length + 1) .none c
            -- the next line belongs to a block further out
            if !s.inFlow ∧ c.column < s.indent then return ⟨word, gap.lines.isSome, c⟩
            else
              let more ← readPlain s bound gap.lines.isSome c
              if more.text.isEmpty then return ⟨word, more.lineEnded, more.after⟩
              else return ⟨word ++ gap.text ++ more.text, more.lineEnded, more.after⟩

/-! Quoted scalars -/

/-- The character that a letter behind a backslash stands for. -/
def shortEscape? (c : Char) : Option Char :=
  match c with
  | '0' => some '\x00'
  | 'a' => some '\x07'
  | 'b' => some '\x08'
  | 't' => some '\t'
  | '\t' => some '\t'
  | 'n' => some '\n'
  | 'v' => some '\x0b'
  | 'f' => some '\x0c'
  | 'r' => some '\r'
  | 'e' => some '\x1b'
  | ' ' => some ' '
  | '"' => some '"'
  | '/' => some '/'
  | '\\' => some '\\'
  | 'N' => some '\u0085'
  | '_' => some '\u00a0'
  | 'L' => some '\u2028'
  | 'P' => some '\u2029'
  | _ => .none

/-- The number of hexadecimal digits behind a letter that calls for them. -/
def digitCount? (c : Char) : Option Nat :=
  match c with
  | 'x' => some 2
  | 'u' => some 4
  | 'U' => some 8
  | _ => .none

/-- An escape behind a backslash: its character, and how many characters it takes. -/
def escape? : List Char → Option (Char × Nat)
  | [] => .none
  | c :: rest =>
    match digitCount? c with
    | some count => do
      let d ← Text.character? (← Text.leadingHex? count rest)
      return (d, count + 1)
    | .none => (shortEscape? c).map fun d => (d, 1)

/-- A word of a quoted scalar. -/
structure QuotedWord where
  text : List Char
  /-- The number of characters it takes in the document. -/
  size : Nat
  /-- Whether an escaped line end follows. -/
  lineEscaped : Bool
deriving DecidableEq

/-- A word with one more character in front, which takes `size` characters. -/
def QuotedWord.cons (c : Char) (size : Nat) (w : QuotedWord) : QuotedWord :=
  ⟨c :: w.text, w.size + size, w.lineEscaped⟩

/-- Reads a word between apostrophes; `second` says whether this is the second
of two apostrophes. -/
def wordInApostrophes (second : Bool) : List Char → QuotedWord
  | [] => ⟨[], 0, false⟩
  | c :: rest =>
    if second then (wordInApostrophes false rest).cons '\'' 2
    else if isBlank c then ⟨[], 0, false⟩
    else if c = '\'' then
      if rest.head? = some '\'' then wordInApostrophes true rest else ⟨[], 0, false⟩
    else (wordInApostrophes false rest).cons c 1

/-- Reads a word between quotation marks; `skip` characters still belong to an escape. -/
def wordInQuotes : Nat → List Char → Except Break QuotedWord
  | _, [] => .ok ⟨[], 0, false⟩
  | skip + 1, _ :: rest => wordInQuotes skip rest
  | 0, c :: rest =>
    if isBlank c ∨ c = '"' then .ok ⟨[], 0, false⟩
    else if c = '\\' then
      if !rest.isEmpty && (rest.head?.map isLineEnd).getD false then .ok ⟨[], 0, true⟩
      else
        match escape? rest with
        | .none => .error ⟨.badEscape, rest⟩
        | some (d, size) => (wordInQuotes size rest).map (·.cons d (size + 1))
    else (wordInQuotes 0 rest).map (·.cons c 1)

/-- Reads a quoted scalar behind its opening quote. -/
def readQuoted (quote : Char) : Nat → Cursor → Except Break (List Char × Cursor)
  | 0, c => c.stuck .endInText
  | bound + 1, c =>
    if c.atMark || c.rest.isEmpty then c.stuck .endInText
    else do
      let word ← if quote = '"' then wordInQuotes 0 c.rest else .ok (wordInApostrophes false c.rest)
      let c := c.skip word.size
      if c.next? = some quote then return (word.text, c.skip 1)
      else
        let (start, c) :=
          if word.lineEscaped then (Gap.escapedLine, (c.skip 1).skipLine.2) else (Gap.none, c)
        let (gap, c) ← readGap 0 (c.rest.length + 1) start c
        let (more, c) ← readQuoted quote bound c
        return (word.text ++ gap.text ++ more, c)

/-! Blocks -/

/-- What happens to the line ends at the end of a block. -/
inductive Chomp
  | strip
  | clip
  | keep
deriving DecidableEq

/-- The first line of a block. -/
structure BlockHeader where
  chomp : Chomp
  /-- By how much the block is indented, if the header says so. -/
  increment : Option Nat
deriving DecidableEq

/-- Reads the sign that says what happens to the last line ends. -/
def readChomp (c : Cursor) : Option Chomp × Cursor :=
  match c.next? with
  | some '+' => (some .keep, c.skip 1)
  | some '-' => (some .strip, c.skip 1)
  | _ => (.none, c)

/-- Reads the digit that says how far a block is indented; it is not zero. -/
def readIncrement (c : Cursor) : Except Break (Option Nat × Cursor) :=
  match c.next? with
  | some '0' => c.stuck .badIndent
  | some d =>
    if '1' ≤ d ∧ d ≤ '9' then .ok (some (d.toNat - '0'.toNat), c.skip 1) else .ok (.none, c)
  | .none => .ok (.none, c)

/-- Reads the first line of a block behind its mark. -/
def readHeader (c : Cursor) : Except Break (BlockHeader × Cursor) := do
  let (early, c) := readChomp c
  let (increment, c) ← readIncrement c
  -- the sign stands before the digit or after it, but only once
  let (late, c) := match early with
    | some _ => (Option.none, c)
    | .none => if increment.isSome then readChomp c else (Option.none, c)
  let c := (c.skipWhile isSpace).skipComment
  if (c.next?.map isLineEnd).getD true then
    return (⟨(early <|> late).getD .clip, increment⟩, c.skipLine.2)
  else c.stuck .trailingText

/-- Reads empty lines of a block, up to the first one with text; gives the line ends and the widest
column. -/
def readEmptyLines (indent : Nat) : Nat → Nat → Cursor → Except Break (List Char × Nat × Cursor)
  | 0, widest, c => .ok ([], widest, c)
  | bound + 1, widest, c =>
    let spaces := (c.rest.takeWhile (· = ' ')).length
    let c := c.skip (if indent = 0 then spaces else min spaces (indent - c.column))
    let widest := max widest c.column
    match c.next? with
    | .none => .ok ([], widest, c)
    | some d =>
      if (indent = 0 ∨ c.column < indent) ∧ d = '\t' then c.stuck .badIndent
      else if isLineEnd d then do
        let (text, c) := c.skipLine
        let (more, widest, c) ← readEmptyLines indent bound widest c
        return (text ++ more, widest, c)
      else .ok ([], widest, c)

/-- Line ends that are not yet written to a block. -/
structure BlockEnds where
  /-- The line end behind the last line of text. -/
  last : List Char
  /-- Those of the empty lines after it. -/
  empty : List Char
  /-- Whether the last line starts with a blank. -/
  indented : Bool
deriving DecidableEq

/-- Reads the lines of a block. -/
def readBlockLines (folded : Bool) (chomp : Chomp) (indent : Nat) :
    Nat → BlockEnds → Cursor → Except Break (List Char × Cursor)
  | 0, _, c => .ok ([], c)
  | bound + 1, ends, c =>
    if c.column = indent ∧ !c.rest.isEmpty then do
      let indented := (c.next?.map isSpace).getD false
      -- line ends fold between two lines of text that both start at the margin
      let joint :=
        if folded && ends.last == ['\n'] && !ends.indented && !indented then
          (if ends.empty.isEmpty then [' '] else []) ++ ends.empty
        else ends.last ++ ends.empty
      let line := c.rest.takeWhile fun d => !isLineEnd d
      let (last, c) := (c.skip line.length).skipLine
      let (empty, _, c) ← readEmptyLines indent (c.rest.length + 1) 0 c
      let (more, c) ← readBlockLines folded chomp indent bound ⟨last, empty, indented⟩ c
      return (joint ++ line ++ more, c)
    else
      match chomp with
      | .strip => .ok ([], c)
      | .clip => .ok (ends.last, c)
      | .keep => .ok (ends.last ++ ends.empty, c)

/-- Reads a block behind its mark; `outer` is the indentation of what is around it. -/
def readBlock (folded : Bool) (outer : Int) (c : Cursor) : Except Break (List Char × Cursor) := do
  let (header, c) ← readHeader c
  let given := match header.increment with
    | some n => n + outer.toNat
    | .none => 0
  let (empty, widest, c) ← readEmptyLines given (c.rest.length + 1) 0 c
  let indent := if given = 0 then max widest (max (outer + 1).toNat 1) else given
  readBlockLines folded header.chomp indent (c.rest.length + 1) ⟨[], empty, false⟩ c

end KeyLayout.Yaml

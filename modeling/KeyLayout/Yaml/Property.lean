/-
What may stand before a value or a document in YAML: anchors, tags and directives.

* an anchor gives a value a name, and an alias repeats the value of that name;
* a tag tells the type of a value, by a handle and a suffix or in full (`readTag`);
* a directive tells the version of YAML or what a handle stands for (`readDirective`).
-/
import KeyLayout.Decimal.Numeral
import KeyLayout.Text.Hexadecimal
import KeyLayout.Yaml.Cursor
import KeyLayout.Yaml.Token

namespace KeyLayout.Yaml

open Document

/-- Whether a text can follow the name of an anchor. -/
def endsAnchor : List Char → Bool
  | [] => true
  | c :: _ => isBlank c || ['?', ':', ',', ']', '\x7d', '%', '@', '`'].contains c

/-- Reads the name of an anchor behind its mark. -/
def readAnchor (c : Cursor) : Except Break (String × Cursor) :=
  let name := c.rest.takeWhile inAnchor
  let after := c.skip name.length
  if name.isEmpty || !endsAnchor after.rest then c.stuck .badName
  else .ok (String.ofList name, after)

/-- Whether a character may stand in a tag. -/
def inTag (verbatim : Bool) (c : Char) : Bool :=
  inAnchor c || ";/?:@&=+$.!~*'()%".toList.contains c || (verbatim && [',', '[', ']'].contains c)

/-- Bytes in hexadecimal behind percent signs at the front of a text. -/
def percentBytes : List Char → List UInt8
  | '%' :: a :: b :: rest =>
    match Text.hexNumber? 0 [a, b] with
    | some n => UInt8.ofNat n :: percentBytes rest
    | none => []
  | _ => []

/-- The characters of a tag with percent escapes resolved; `skip` characters still belong to one. -/
def unescapeTag : Nat → List Char → Option (List Char)
  | _, [] => some []
  | skip + 1, _ :: rest => unescapeTag skip rest
  | 0, c :: rest =>
    if c = '%' then do
      let bytes := percentBytes (c :: rest)
      let text ← String.fromUTF8? ⟨bytes.toArray⟩
      if text.isEmpty then none
      else
        let more ← unescapeTag (3 * bytes.length - 1) rest
        return text.toList ++ more
    else (unescapeTag 0 rest).map (c :: ·)

/-- Reads the characters of a tag. -/
def readTagText (verbatim : Bool) (c : Cursor) : Except Break (List Char × Cursor) :=
  let raw := c.rest.takeWhile (inTag verbatim)
  match unescapeTag 0 raw with
  | some text => .ok (text, c.skip raw.length)
  | none => c.stuck .badEscape

/-- Reads a handle: letters between two exclamation marks, or just one such mark. -/
def readHandle (c : Cursor) : List Char × Cursor :=
  let letters := (c.rest.drop 1).takeWhile inAnchor
  let closed := ((c.rest.drop (letters.length + 1)).head?.map (· == '!')).getD false
  let size := letters.length + 1 + (if closed then 1 else 0)
  (c.rest.take size, c.skip size)

/-- Whether a text can follow a tag. -/
def endsTag (inFlow : Bool) (rest : List Char) : Bool :=
  blankNext rest || (inFlow && rest.head? == some ',')

/-- Reads a tag; an exclamation mark alone is a tag without a handle. -/
def readTag (inFlow : Bool) (c : Cursor) : Except Break (TokenKind × Cursor) := do
  let (tag, after) ← match c.rest with
    | '!' :: '<' :: _ => do
      let (text, after) ← readTagText true (c.skip 2)
      if text.isEmpty || after.next? != some '>' then after.stuck .badName
      else pure (TokenKind.tag "" (String.ofList text), after.skip 1)
    | _ => do
      let (handle, after) := readHandle c
      let (suffix, last) ← readTagText false after
      if 1 < handle.length ∧ handle.getLast? = some '!' then
        if suffix.isEmpty then last.stuck .badName
        else pure (TokenKind.tag (String.ofList handle) (String.ofList suffix), last)
      else
        let suffix := handle.drop 1 ++ suffix
        if suffix.isEmpty then pure (TokenKind.tag "" "!", last)
        else pure (TokenKind.tag "!" (String.ofList suffix), last)
  if endsTag inFlow after.rest then return (tag, after) else after.stuck .badName

/-- Reads a number of a version, of at most nine digits. -/
def readVersionNumber (c : Cursor) : Except Break (Nat × Cursor) :=
  let (digits, _) := Decimal.spanDigits c.rest
  if digits.isEmpty || 9 < digits.length then c.stuck .badNumber
  else .ok (Decimal.ofDigits digits, c.skip digits.length)

def readVersion (c : Cursor) : Except Break (TokenKind × Cursor) := do
  let (major, c) ← readVersionNumber (c.skipWhile isSpace)
  if c.next? = some '.' then
    let (minor, c) ← readVersionNumber (c.skip 1)
    return (.version major minor, c)
  else c.stuck .badNumber

/-- Reads a handle and what it stands for. -/
def readTagPrefix (c : Cursor) : Except Break (TokenKind × Cursor) := do
  let c := c.skipWhile isSpace
  if c.next? ≠ some '!' then c.stuck .badName
  else
    let (handle, c) := readHandle c
    if handle.getLast? ≠ some '!' ∨ !(c.next?.map isSpace).getD false then c.stuck .badName
    else
      let (start, c) ← readTagText true (c.skipWhile isSpace)
      if start.isEmpty || !blankNext c.rest then c.stuck .badName
      else return (.tagPrefix (String.ofList handle) (String.ofList start), c)

/-- Reads a directive behind its percent sign, to the end of the line. -/
def readDirective (c : Cursor) : Except Break (TokenKind × Cursor) := do
  let name := c.rest.takeWhile inAnchor
  let after := c.skip name.length
  if !blankNext after.rest then after.stuck .badName
  else
    let (directive, c) ←
      if name = "YAML".toList then readVersion after
      else if name = "TAG".toList then readTagPrefix after
      else c.stuck .badName
    let c := (c.skipWhile isSpace).skipComment
    if (c.next?.map isLineEnd).getD true then return (directive, c.skipLine.2)
    else c.stuck .trailingText

end KeyLayout.Yaml

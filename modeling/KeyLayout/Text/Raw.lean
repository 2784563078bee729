/-
Texts as the operating system has them.

A raw text is a row of bytes, which usually encodes a text but need not do so.  Paths, names of
files and what is in a file are raw texts.

* `ofString` encodes a text, and `text?` takes it out again;
* `display` shows any raw text, with a mark for every piece that encodes no character.
-/
namespace KeyLayout

/-- A row of bytes in place of a text. -/
structure RawText where
  bytes : List UInt8
deriving DecidableEq

namespace RawText

/-- The encoding of a text. -/
def ofString (s : String) : RawText := ⟨s.toByteArray.data.toList⟩

instance : Coe String RawText := ⟨ofString⟩

def isEmpty (t : RawText) : Bool := t.bytes.isEmpty

/-- The text that is encoded, if there is one. -/
def text? (t : RawText) : Option String := String.fromUTF8? ⟨t.bytes.toArray⟩

/-! ### What is shown of bytes that encode no text -/

/-- What stands for a piece that encodes no character. -/
def mark : Char := '\uFFFD'

/-- A character whose first bytes were read: its code so far, how many bytes are missing, and
between which bounds the next one has to be. -/
structure Started where
  code : Nat
  missing : Nat
  low : UInt8
  high : UInt8
deriving DecidableEq

/-- What the first byte of a character gives: the character, or the start of one. Other bytes are a
piece of their own. -/
def begin (b : UInt8) : List Char × Option Started :=
  if b < 0x80 then ([Char.ofNat b.toNat], none)
  else if b < 0xC2 then ([mark], none)
  else if b < 0xE0 then ([], some ⟨b.toNat - 0xC0, 1, 0x80, 0xBF⟩)
  -- the bounds leave out codes that have a shorter form, surrogates, and codes that are too large
  else if b < 0xF0 then
    ([], some ⟨b.toNat - 0xE0, 2, if b = 0xE0 then 0xA0 else 0x80, if b = 0xED then 0x9F else 0xBF⟩)
  else if b < 0xF5 then
    ([], some ⟨b.toNat - 0xF0, 3, if b = 0xF0 then 0x90 else 0x80, if b = 0xF4 then 0x8F else 0xBF⟩)
  else ([mark], none)

/-- What one more byte gives. A character that it does not belong to was no character. -/
def goOn (s : Started) (b : UInt8) : List Char × Option Started :=
  if s.low ≤ b ∧ b ≤ s.high then
    let code := s.code * 64 + (b.toNat - 0x80)
    if s.missing ≤ 1 then ([Char.ofNat code], none) else ([], some ⟨code, s.missing - 1, 0x80, 0xBF⟩)
  else
    let (chars, next) := begin b
    (mark :: chars, next)

/-- The characters of a row of bytes, with marks. -/
def shown (started : Option Started) : List UInt8 → List Char
  | [] => if started.isSome then [mark] else []
  | b :: rest =>
    let (chars, next) :=
      match started with
      | some s => goOn s b
      | none => begin b
    chars ++ shown next rest

/-- How messages and listings show a raw text. -/
def display (t : RawText) : String :=
  match t.text? with
  | some s => s
  | none => String.ofList (shown none t.bytes)

instance : ToString RawText := ⟨display⟩

example : display ⟨[0x64, 0xFF, 0xE2, 0x82, 0x2F]⟩ = "d\uFFFD\uFFFD/" := by decide

end RawText

end KeyLayout

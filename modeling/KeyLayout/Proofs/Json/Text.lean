/-
Reading what was quoted.

Whatever characters a text has, reading its quoted form gives the text and stops right
behind the closing quote (`readText_quote`).  The reader is followed character by
character: `readText_quoteChar` is one step of it, and the control characters that have
no letter of their own go through the four digits of a code unit.
-/
import Mathlib.Data.List.Basic
import KeyLayout.Json.Text
import KeyLayout.Json.Writer

namespace KeyLayout.Json

open KeyLayout.Document

/-- A character in front of a text that is read. -/
def pushChar (c : Char) (r : Except Complaint (List Char × Cursor)) :
    Except Complaint (List Char × Cursor) :=
  r.map fun (text, cursor) => (c :: text, cursor)

/-- The digits of a control character. -/
theorem hexEscape_digits : ∀ n < 32,
    List.replicate (4 - (Text.hexDigits n).length) '0' ++ Text.hexDigits n =
      ['0', '0', Nat.digitChar (n / 16), Nat.digitChar (n % 16)] ∧
    Text.hexValue? (Nat.digitChar (n / 16)) = some (n / 16) ∧
    Text.hexValue? (Nat.digitChar (n % 16)) = some (n % 16) := by
  decide

/-- Four digits of a code unit below the surrogates are read as one character. -/
theorem readText_digits {a b c d : Char} {w x y z : Nat} (ha : Text.hexValue? a = some w)
    (hb : Text.hexValue? b = some x) (hc : Text.hexValue? c = some y)
    (hd : Text.hexValue? d = some z) (hlow : ((w * 16 + x) * 16 + y) * 16 + z < 0xD800)
    (start place : Offset) (tail : List Char) :
    ∃ next, readText (.digits (.from start) none) place (a :: b :: c :: d :: tail) =
      pushChar (Char.ofNat (((w * 16 + x) * 16 + y) * 16 + z)) (readText .plain next tail) := by
  -- such a unit is no half of a pair
  have hunit : ∀ place, afterUnit place (((w * 16 + x) * 16 + y) * 16 + z) none =
      .ok (.inl (Char.ofNat (((w * 16 + x) * 16 + y) * 16 + z))) := by
    intro place
    rw [afterUnit, isLowUnit, isHighUnit, if_neg (by simp; omega), if_neg (by simp; omega)]
  refine ⟨place + a.utf8Size + b.utf8Size + c.utf8Size + d.utf8Size, ?_⟩
  simp [readText, UnitDigits.push, UnitDigits.from, ha, hb, hc, hd, hunit, pushChar]

/-- A control character is read behind its four digits. -/
theorem readText_hexEscape {c : Char} (hc : c.toNat < 32) (place : Offset) (tail : List Char) :
    ∃ next, readText .plain place (hexEscape c ++ tail) = pushChar c (readText .plain next tail) := by
  obtain ⟨hdigits, hhigh, hlow⟩ := hexEscape_digits c.toNat hc
  have hzero : Text.hexValue? '0' = some 0 := by decide
  have hvalue : ((0 * 16 + 0) * 16 + c.toNat / 16) * 16 + c.toNat % 16 = c.toNat := by omega
  obtain ⟨next, hread⟩ := readText_digits hzero hzero hhigh hlow (by omega)
    (place + '\\'.utf8Size + 'u'.utf8Size) (place + '\\'.utf8Size + 'u'.utf8Size) tail
  rw [hvalue, Char.ofNat_toNat] at hread
  exact ⟨next, by rw [← hread]; simp [hexEscape, hdigits, readText]⟩

/-- One quoted character is read as that character. -/
theorem readText_quoteChar (c : Char) (place : Offset) (tail : List Char) :
    ∃ next, readText .plain place (quoteChar c ++ tail) =
      pushChar c (readText .plain next tail) := by
  rw [quoteChar]
  split_ifs with hquote hslash hn hr ht hb hf hcontrol
  -- the escapes of one letter
  iterate 7
    subst c
    exact ⟨_, by simp [readText, shortEscape?, pushChar]; rfl⟩
  -- the other control characters, and what stands for itself
  · exact readText_hexEscape hcontrol place tail
  · exact ⟨place + c.utf8Size, by simp [readText, hquote, hslash, hcontrol, pushChar]⟩

/-- A quoted text is read to its end. -/
theorem readText_quote (text rest : List Char) (place : Offset) :
    ∃ stop, readText .plain place (text.flatMap quoteChar ++ '"' :: rest) =
      .ok (text, ⟨stop, rest⟩) := by
  induction text generalizing place with
  | nil => exact ⟨place + '"'.utf8Size, by simp [readText]⟩
  | cons c text ih =>
    rw [List.flatMap_cons, List.append_assoc]
    obtain ⟨next, hnext⟩ := readText_quoteChar c place (text.flatMap quoteChar ++ '"' :: rest)
    obtain ⟨stop, hstop⟩ := ih next
    refine ⟨stop, ?_⟩
    rw [hnext, hstop]
    rfl

end KeyLayout.Json

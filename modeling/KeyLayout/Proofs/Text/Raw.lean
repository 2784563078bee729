/-
Which raw texts are texts.

A raw text encodes one text at most (`text?_eq_some_iff`), and different texts have different
encodings (`ofString_injective`).  What encodes a text is shown as that text (`display_ofString`).

Texts can be put together (`IsText.append`), and where a byte stands that is a character by itself,
they can be cut (`IsText.of_append`).
-/
import KeyLayout.Text.Raw

namespace KeyLayout.RawText

variable {t : RawText} {s : String}

@[simp] theorem text?_ofString (s : String) : (ofString s).text? = some s := by
  have hvalid : (ByteArray.mk (ofString s).bytes.toArray).IsValidUTF8 := s.isValidUTF8
  rw [text?, String.fromUTF8?, dif_pos hvalid]
  rfl

theorem ofString_injective {s s' : String} (h : ofString s = ofString s') : s = s' := by
  have htext := congrArg text? h
  rwa [text?_ofString, text?_ofString, Option.some_inj] at htext

theorem text?_eq_some_iff : t.text? = some s ↔ t = ofString s := by
  constructor
  · intro h
    rw [text?, String.fromUTF8?] at h
    split at h
    · cases h
      rfl
    · cases h
  · rintro rfl
    exact text?_ofString s

/-- Whether a raw text is a text. -/
def IsText (t : RawText) : Prop := ∃ s, t = ofString s

@[simp] theorem isText_ofString (s : String) : IsText s := ⟨s, rfl⟩

@[simp] theorem display_ofString (s : String) : (ofString s).display = s := by
  rw [display, text?_ofString]

@[simp] theorem toString_eq (t : RawText) : toString t = t.display := rfl

@[simp] theorem isEmpty_iff : t.isEmpty = true ↔ t = "" := by
  obtain ⟨bytes⟩ := t
  constructor
  · intro h
    obtain rfl : bytes = [] := List.isEmpty_iff.mp h
    rfl
  · intro h
    rw [h]
    rfl

/-! ### Putting together and cutting -/

theorem bytes_append (s t : String) :
    (ofString (s ++ t)).bytes = (ofString s).bytes ++ (ofString t).bytes := by
  simp [ofString]

theorem IsText.append {front rest : List UInt8} (hfront : IsText ⟨front⟩) (hrest : IsText ⟨rest⟩) :
    IsText ⟨front ++ rest⟩ := by
  obtain ⟨s, hs⟩ := hfront
  obtain ⟨s', hs'⟩ := hrest
  obtain rfl : front = (ofString s).bytes := congrArg bytes hs
  obtain rfl : rest = (ofString s').bytes := congrArg bytes hs'
  exact ⟨s ++ s', congrArg mk (bytes_append s s').symm⟩

/-- What stands before a byte that is a character by itself is a text if the whole is. -/
theorem IsText.of_append {front rest : List UInt8} {b : UInt8} (hb : b &&& 0x80 = 0)
    (h : IsText ⟨front ++ b :: rest⟩) : IsText ⟨front⟩ := by
  obtain ⟨s, hs⟩ := h
  have hbytes : s.toByteArray.data.toList = front ++ b :: rest := (congrArg bytes hs).symm
  have hlength : s.utf8ByteSize = front.length + (rest.length + 1) := by
    rw [← String.size_toByteArray, ByteArray.size, ← Array.length_toList, hbytes]
    simp
  have hlt : (⟨front.length⟩ : String.Pos.Raw) < s.rawEndPos := by
    simp [String.Pos.Raw.lt_iff, hlength]
  have hbyte : s.getUTF8Byte ⟨front.length⟩ hlt = b := by
    have hget : s.toByteArray.data.toList[front.length]? = some b := by
      rw [hbytes]
      simp
    rw [Array.getElem?_toList] at hget
    exact (Array.getElem?_eq_some_iff.mp hget).2
  have hvalid : String.Pos.Raw.IsValid s ⟨front.length⟩ :=
    String.Pos.Raw.isValid_iff_isUTF8FirstByte.mpr (.inr ⟨hlt, .inl (hbyte ▸ hb)⟩)
  -- the text is cut where the byte stands
  obtain ⟨t, t', rfl, hcut⟩ := String.Pos.Raw.isValid_iff_exists_append.mp hvalid
  have hsize : front.length = (ofString t).bytes.length := by
    simpa [ofString, String.Pos.Raw.ext_iff] using hcut
  have happend : front ++ b :: rest = (ofString t).bytes ++ (ofString t').bytes := by
    rw [← bytes_append, ← hs]
  exact ⟨t, congrArg mk (List.append_inj happend hsize).1⟩

end KeyLayout.RawText

/-
Texts without line ends.

A text that is put together has no line end if none of its parts has one; numbers and quoted
texts never have one, whatever is quoted (`unbroken_quoted`).  Neither has a line of any text
(`no_end_of_mem_lines`).
-/
import KeyLayout.Text.Quoted
import KeyLayout.Proofs.Decimal.Plain
import KeyLayout.Proofs.Text.Pieces

namespace KeyLayout.Text

/-- A text without a line end. -/
def Unbroken (s : String) : Prop := '\n' ∉ s.toList

instance (s : String) : Decidable (Unbroken s) := inferInstanceAs (Decidable ('\n' ∉ s.toList))

@[simp] theorem unbroken_append {s t : String} :
    Unbroken (s ++ t) ↔ Unbroken s ∧ Unbroken t := by
  simp [Unbroken]

@[simp] theorem unbroken_toString {s : String} : Unbroken (toString s) ↔ Unbroken s := Iff.rfl

@[simp] theorem unbroken_ofList {text : List Char} :
    Unbroken (String.ofList text) ↔ '\n' ∉ text := by
  rw [Unbroken, String.toList_ofList]

theorem exists_digit_of_mem_toDigits {base n : Nat} (hbase : 1 < base) {c : Char}
    (hc : c ∈ Nat.toDigits base n) : ∃ d < base, c = Nat.digitChar d := by
  induction n using Nat.strongRecOn with
  | ind n ih =>
    rw [Nat.toDigits_eq_if hbase] at hc
    split at hc
    · exact ⟨n, ‹_›, List.mem_singleton.mp hc⟩
    · rcases List.mem_append.mp hc with hc | hc
      · exact ih _ (Nat.div_lt_self (by omega) hbase) hc
      · exact ⟨n % base, Nat.mod_lt _ (by omega), List.mem_singleton.mp hc⟩

/-- Digits are no line ends. -/
theorem no_end_toDigits {base : Nat} (hbase : 1 < base) (hsmall : base ≤ 16) (n : Nat) :
    '\n' ∉ Nat.toDigits base n := by
  intro hc
  obtain ⟨d, hd, hdigit⟩ := exists_digit_of_mem_toDigits hbase hc
  have hne : ∀ d < 16, '\n' ≠ Nat.digitChar d := by decide
  exact hne d (by omega) hdigit

@[simp] theorem unbroken_natRepr (n : Nat) : Unbroken n.repr := by
  rw [Unbroken, Nat.toList_repr]
  exact no_end_toDigits (by decide) (by decide) n

@[simp] theorem unbroken_intRepr (n : Int) : Unbroken n.repr := by
  cases n with
  | ofNat n => exact unbroken_natRepr n
  | negSucc n => exact unbroken_append.mpr ⟨by decide, unbroken_natRepr _⟩

@[simp] theorem unbroken_plain (x : Float) : Unbroken (Decimal.plain x) := by
  intro hc
  have hplain : ¬Decimal.IsPlain '\n' := by
    rw [Decimal.IsPlain]
    decide
  exact hplain (Decimal.mem_plain hc)

theorem no_end_quotedChar (c : Char) : '\n' ∉ quotedChar c := by
  rw [quotedChar]
  split_ifs with hnull htab hreturn hend hslash hquote hhidden
  -- the escapes of one letter
  iterate 6 decide
  · rw [codePoint]
    simp [hexDigits, no_end_toDigits]
  · simpa using Ne.symm hend

/-- Quoting escapes every line end. -/
@[simp] theorem unbroken_quoted (s : String) : Unbroken (quoted s) := by
  simp +decide [quoted, no_end_quotedChar]

/-! ### Lines -/

theorem dropReturn_subset (line : List Char) : dropReturn line ⊆ line := by
  rw [dropReturn]
  split
  · exact List.dropLast_subset line
  · exact List.Subset.refl line

/-- Only the end of a line is looked at. -/
theorem dropReturn_append_of_ne_nil (front : List Char) {rest : List Char} (h : rest ≠ []) :
    dropReturn (front ++ rest) = front ++ dropReturn rest := by
  have hlast : (front ++ rest).getLast? = rest.getLast? := by
    rw [List.getLast?_append, List.getLast?_eq_some_getLast h, Option.some_or]
  rw [dropReturn, dropReturn, hlast]
  split
  · exact List.dropLast_append_of_ne_nil h
  · rfl

theorem dropReturn_append {front : List Char} (h : '\r' ∉ front) (rest : List Char) :
    dropReturn (front ++ rest) = front ++ dropReturn rest := by
  by_cases hrest : rest = []
  · have hlast : front.getLast? ≠ some '\r' := fun hlast => h (List.mem_of_getLast? hlast)
    rw [hrest, List.append_nil, dropReturn]
    split
    · exact absurd ‹_› hlast
    · exact (List.append_nil front).symm
  · exact dropReturn_append_of_ne_nil front hrest

/-- No line has a line end in it. -/
theorem no_end_of_mem_lines {text line : List Char} (h : line ∈ lines text) : '\n' ∉ line := by
  have hpieces : ∀ piece ∈ pieces '\n' text, '\n' ∉ piece := fun _ => not_mem_of_mem_pieces
  rw [lines] at h
  generalize pieces '\n' text = ps at h hpieces
  fun_induction lines.go ps with
  | case1 => cases h
  | case2 => cases h
  | case3 last =>
    exact hpieces line h
  | case4 piece more hmore ih =>
    rcases List.mem_cons.mp h with rfl | h
    · exact fun hend => hpieces piece List.mem_cons_self (dropReturn_subset piece hend)
    · exact ih h fun piece hpiece => hpieces piece (List.mem_cons_of_mem _ hpiece)

end KeyLayout.Text

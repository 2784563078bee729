/-
Rows of decimal digits.

`digitsOf` writes a number in the digits that `ofDigits` reads (`ofDigits_digitsOf`), and
no zero stands in front of another digit (`digitsOf_zero_cons`).  Zeros in front of a row do not
count (`ofDigits_zeros_append`), those behind it are factors ten (`ofDigits_append_zeros`).
`spanDigits` takes the same row off a text, whatever the text goes on with, as long as that is no
digit (`spanDigits_append`).
-/
import Mathlib.Algebra.Ring.Nat
import Mathlib.Data.List.Induction
import Mathlib.Data.List.TakeDrop
import Mathlib.Data.List.TakeWhile
import KeyLayout.Decimal.Notation
import KeyLayout.Decimal.Numeral

namespace KeyLayout.Decimal

theorem isDigit_iff {c : Char} : isDigit c = true ↔ 48 ≤ c.toNat ∧ c.toNat ≤ 57 := by
  rw [isDigit, Bool.and_eq_true, decide_eq_true_eq, decide_eq_true_eq]
  exact Iff.rfl

theorem isDigit_zeros (n : Nat) : ∀ c ∈ List.replicate n '0', isDigit c = true := by
  intro c hc
  rw [List.eq_of_mem_replicate hc]
  decide

theorem isDigit_of_mem_digitsOf {n : Nat} {c : Char} (hc : c ∈ digitsOf n) :
    isDigit c = true := by
  have h := Nat.isDigit_of_mem_toDigits (by decide) (by decide) hc
  rw [Char.isDigit_iff_toNat] at h
  exact isDigit_iff.mpr h

theorem digitsOf_ne_nil (n : Nat) : digitsOf n ≠ [] := Nat.toDigits_ne_nil

theorem digitsOf_eq_cons (n : Nat) : ∃ c more, digitsOf n = c :: more ∧ isDigit c = true := by
  obtain ⟨c, more, h⟩ := List.exists_cons_of_ne_nil (digitsOf_ne_nil n)
  exact ⟨c, more, h, isDigit_of_mem_digitsOf (h ▸ List.mem_cons_self)⟩

theorem ofDigits_digitsOf (n : Nat) : ofDigits (digitsOf n) = n := by
  have h := Nat.ofDigitChars_ten_toDigits (n := n)
  rw [Nat.ofDigitChars_eq_foldl] at h
  simpa only [ofDigits, digitsOf, digitValue, Nat.mul_comm] using h

/-- Only zero itself starts with a zero. -/
theorem digitsOf_zero_cons {n : Nat} {rest : List Char} (h : digitsOf n = '0' :: rest) :
    rest = [] := by
  induction n using Nat.strongRecOn generalizing rest with
  | ind n ih =>
    rw [digitsOf, Nat.toDigits_eq_if (by decide)] at h
    split at h
    · exact (List.cons.inj h).2.symm
    · rename_i hlarge
      rcases hfront : Nat.toDigits 10 (n / 10) with _ | ⟨c, front⟩
      · exact absurd hfront Nat.toDigits_ne_nil
      · rw [hfront, List.cons_append] at h
        obtain ⟨rfl, _⟩ := List.cons.inj h
        -- then the digits before the last one are a zero alone, but the number is at least ten
        have hnil := ih (n / 10) (by omega) hfront
        have hvalue := ofDigits_digitsOf (n / 10)
        rw [digitsOf, hfront, hnil] at hvalue
        have hzero : ofDigits ['0'] = 0 := by decide
        omega

theorem ofDigits_concat (digits : List Char) (c : Char) :
    ofDigits (digits ++ [c]) = ofDigits digits * 10 + digitValue c := by
  rw [ofDigits, ofDigits, List.foldl_append]
  rfl

theorem digitValue_lt {c : Char} (h : isDigit c = true) : digitValue c < 10 := by
  have hle := (isDigit_iff.mp h).2
  have hzero : '0'.toNat = 48 := rfl
  rw [digitValue]
  omega

theorem ofDigits_lt {digits : List Char} (h : ∀ c ∈ digits, isDigit c = true) :
    ofDigits digits < 10 ^ digits.length := by
  induction digits using List.reverseRecOn with
  | nil => exact Nat.one_pos
  | append_singleton digits c ih =>
    have hfront := ih fun d hd => h d (List.mem_append_left _ hd)
    have hlast := digitValue_lt (h c (by simp))
    rw [ofDigits_concat, List.length_append, List.length_singleton, Nat.pow_succ]
    omega

theorem ofDigits_append_zeros (digits : List Char) (n : Nat) :
    ofDigits (digits ++ List.replicate n '0') = ofDigits digits * 10 ^ n := by
  induction n with
  | zero => simp
  | succ n ih =>
    rw [List.replicate_succ', ← List.append_assoc, ofDigits_concat, ih, Nat.pow_succ,
      Nat.mul_assoc]
    rfl

theorem ofDigits_zeros_append (n : Nat) (digits : List Char) :
    ofDigits (List.replicate n '0' ++ digits) = ofDigits digits := by
  induction n with
  | zero => rfl
  | succ n ih => exact ih

theorem spanDigits_eq (text : List Char) :
    spanDigits text = (text.takeWhile isDigit, text.dropWhile isDigit) :=
  List.span_eq_takeWhile_dropWhile isDigit text

/-- A row of digits in front of something else. -/
theorem spanDigits_of_digits {digits rest : List Char} (hdigits : ∀ c ∈ digits, isDigit c = true)
    (hrest : ∀ c ∈ rest.head?, isDigit c = false) :
    spanDigits (digits ++ rest) = (digits, rest) := by
  rw [spanDigits_eq, List.takeWhile_append_of_pos hdigits, List.dropWhile_append_of_pos hdigits]
  rcases rest with _ | ⟨c, rest⟩
  · simp
  · have hc := hrest c rfl
    simp [hc]

/-- The digits at the front of a text stay the same when something else follows it. -/
theorem spanDigits_append {text digits left rest : List Char}
    (h : spanDigits text = (digits, left)) (hrest : ∀ c ∈ rest.head?, isDigit c = false) :
    spanDigits (text ++ rest) = (digits, left ++ rest) := by
  rw [spanDigits_eq, Prod.mk.injEq] at h
  obtain ⟨rfl, rfl⟩ := h
  rw [spanDigits_eq]
  induction text with
  | nil => exact spanDigits_eq rest ▸ @spanDigits_of_digits [] rest (by simp) hrest
  | cons c text ih =>
    by_cases hc : isDigit c = true
    · simpa [hc] using ih
    · simp [hc]

end KeyLayout.Decimal

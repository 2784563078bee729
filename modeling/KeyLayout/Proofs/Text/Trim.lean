/-
White space at the ends of a text.

A text is trimmed to the part of it that has no white space at its ends and nothing but white
space around it.  There is always such a part (`trimmed_trim`), and only one (`Trimmed.trim_eq`).
-/
import Mathlib.Data.List.TakeDrop
import Mathlib.Data.List.TakeWhile
import KeyLayout.Text.Blank

namespace KeyLayout.Text

/-- Nothing but white space. -/
def Blank (text : List Char) : Prop := ∀ c ∈ text, isBlank c = true

/-- The part of a text between the white space at its ends. -/
structure Trimmed (text core : List Char) : Prop where
  around : ∃ front back, text = front ++ core ++ back ∧ Blank front ∧ Blank back
  head : ∀ c ∈ core.head?, isBlank c = false
  last : ∀ c ∈ core.getLast?, isBlank c = false

variable {text core : List Char}

theorem trimLeft_append {front rest : List Char} (hfront : Blank front)
    (hrest : ∀ c ∈ rest.head?, isBlank c = false) : trimLeft (front ++ rest) = rest := by
  rw [trimLeft, List.dropWhile_append_of_pos hfront]
  cases rest with
  | nil => rfl
  | cons c rest => rw [List.dropWhile_cons_of_neg (by simp [hrest c rfl])]

theorem trimLeft_eq (text : List Char) : ∃ front, text = front ++ trimLeft text ∧ Blank front ∧
    ∀ c ∈ (trimLeft text).head?, isBlank c = false := by
  refine ⟨text.takeWhile isBlank, List.takeWhile_append_dropWhile.symm,
    fun c => List.mem_takeWhile_imp, fun c hc => ?_⟩
  have hhead := List.head?_dropWhile_not isBlank text
  rw [← trimLeft, Option.mem_def.mp hc] at hhead
  exact hhead

theorem trimmed_trim (text : List Char) : Trimmed text (trim text) := by
  obtain ⟨front, hfront, hblank, hhead⟩ := trimLeft_eq text
  obtain ⟨back, hback, hblank', hlast⟩ := trimLeft_eq (trimLeft text).reverse
  have hsplit : trimLeft text = trim text ++ back.reverse := by
    rw [trim, ← List.reverse_append, ← hback, List.reverse_reverse]
  refine ⟨⟨front, back.reverse, ?_, hblank, fun c hc => hblank' c (List.mem_reverse.mp hc)⟩, ?_, ?_⟩
  · rw [List.append_assoc, ← hsplit, ← hfront]
  · intro c hc
    rw [hsplit, List.head?_append, Option.mem_def.mp hc] at hhead
    exact hhead c rfl
  · rwa [trim, List.getLast?_reverse]

theorem Trimmed.trim_eq (h : Trimmed text core) : trim text = core := by
  obtain ⟨⟨front, back, rfl, hfront, hback⟩, hhead, hlast⟩ := h
  have hback' : Blank back.reverse := fun c hc => hback c (List.mem_reverse.mp hc)
  -- if nothing is left, the white space behind it is already taken off from the front
  rcases eq_or_ne core [] with rfl | hcore
  · have hblank : Blank (front ++ [] ++ back) := by
      intro c hc
      rw [List.append_nil] at hc
      exact (List.mem_append.mp hc).elim (hfront c) (hback c)
    have hnil : trimLeft (front ++ [] ++ back) = [] := List.dropWhile_eq_nil_iff.mpr hblank
    rw [trim, hnil]
    rfl
  · have hleft : trimLeft (front ++ core ++ back) = core ++ back := by
      obtain ⟨c, rest, rfl⟩ := List.exists_cons_of_ne_nil hcore
      rw [List.append_assoc]
      exact trimLeft_append hfront hhead
    rw [trim, hleft, List.reverse_append, trimLeft_append hback', List.reverse_reverse]
    rwa [List.head?_reverse]

/-- A text without white space is trimmed. -/
theorem trimmed_self (h : ∀ c ∈ text, isBlank c = false) : Trimmed text text :=
  ⟨⟨[], [], by simp, by simp [Blank], by simp [Blank]⟩,
    fun c hc => h c (List.mem_of_mem_head? hc), fun c hc => h c (List.mem_of_mem_getLast? hc)⟩

end KeyLayout.Text

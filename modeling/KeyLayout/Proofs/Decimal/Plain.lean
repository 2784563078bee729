/-
The plain layout of numbers.

Whatever a number is, its plain text is made of digits, a point, a minus sign and the letters of
two words (`mem_plain`).
-/
import KeyLayout.Proofs.Decimal.Digits

namespace KeyLayout.Decimal

/-- A character of the plain layout. -/
def IsPlain (c : Char) : Prop := isDigit c = true ∨ c ∈ ['.', '-', 'N', 'a', 'i', 'n', 'f']

theorem mem_positional {d : Digits} {c : Char} (hc : c ∈ positional [] d) : IsPlain c := by
  have hdigit : ∀ {digits}, digits ⊆ digitsOf d.digits → c ∈ digits → IsPlain c :=
    fun hsubset hc => .inl (isDigit_of_mem_digitsOf (hsubset hc))
  have hzero : ∀ {n}, c ∈ List.replicate n '0' → IsPlain c :=
    fun hc => .inl (isDigit_zeros _ c hc)
  rw [positional] at hc
  dsimp only at hc
  split at hc
  · rw [List.append_nil, List.mem_append] at hc
    exact hc.elim (hdigit (List.Subset.refl _)) hzero
  split at hc
  · rcases List.mem_cons.mp hc with rfl | hc
    · exact .inl (by decide)
    rcases List.mem_cons.mp hc with rfl | hc
    · exact .inr (by decide)
    · exact (List.mem_append.mp hc).elim hzero (hdigit (List.Subset.refl _))
  · rcases List.mem_append.mp hc with hc | hc
    · exact hdigit (List.take_subset _ _) hc
    rcases List.mem_cons.mp hc with rfl | hc
    · exact .inr (by decide)
    · exact hdigit (List.drop_subset _ _) hc

theorem mem_signed {negative : Bool} {text : List Char} {c : Char} (hc : c ∈ signed negative text) :
    c = '-' ∨ c ∈ text := by
  rw [signed] at hc
  split at hc
  · exact List.mem_cons.mp hc
  · exact .inr hc

theorem mem_plain {x : Float} {c : Char} (hc : c ∈ (plain x).toList) : IsPlain c := by
  have hword : ∀ word ⊆ ['N', 'a', 'i', 'n', 'f'], c ∈ word → IsPlain c := by
    intro word hsubset hc
    exact .inr (List.mem_cons_of_mem _ (List.mem_cons_of_mem _ (hsubset hc)))
  have hminus : c = '-' → IsPlain c := by
    rintro rfl
    exact .inr (by decide)
  rw [plain, String.toList_ofList] at hc
  split at hc
  · exact hword _ (by decide) hc
  · exact (mem_signed hc).elim hminus (hword _ (by decide))
  · refine (mem_signed hc).elim hminus fun hc => ?_
    rw [List.mem_singleton.mp hc]
    exact .inl (by decide)
  · exact (mem_signed hc).elim hminus mem_positional

end KeyLayout.Decimal

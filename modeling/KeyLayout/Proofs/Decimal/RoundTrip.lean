/-
Numbers are read as they were written.

The plain text of a number has all its places, and reading it takes the digits before and after the
point off again (`places_positional`).  They stand for the decimal that was written, which the
number covers; so it is this number that is read (`readNumeral_plain`).
-/
import KeyLayout.Proofs.Decimal.Digits
import KeyLayout.Proofs.Decimal.Nearest
import KeyLayout.Proofs.Decimal.Shortest

namespace KeyLayout.Decimal

/-! ### Reading the layout -/

section reading

variable {whole fraction : List Char} (hne : whole ≠ [])
  (hwhole : ∀ c ∈ whole, isDigit c = true) (hfraction : ∀ c ∈ fraction, isDigit c = true)
  (negative : Bool)

include hne hwhole in
theorem readUnsigned_whole : readUnsigned negative whole = some ⟨negative, whole, [], 0⟩ := by
  have hspan := @spanDigits_of_digits whole [] hwhole (by simp)
  rw [List.append_nil] at hspan
  simp [readUnsigned, hspan, hne]

include hne hwhole hfraction in
theorem readUnsigned_point :
    readUnsigned negative (whole ++ '.' :: fraction) = some ⟨negative, whole, fraction, 0⟩ := by
  have hspan := @spanDigits_of_digits whole ('.' :: fraction) hwhole (by simp; decide)
  have hspan' := @spanDigits_of_digits fraction [] hfraction (by simp)
  rw [List.append_nil] at hspan'
  simp [readUnsigned, hspan, hspan', hne]

end reading

/-- A numeral that stands for a decimal. -/
structure Numeral.Means (num : Numeral) (negative : Bool) (d : Digits) : Prop where
  negative : num.negative = negative
  digits : ∀ c ∈ num.whole ++ num.fraction, isDigit c = true
  pos : 0 < d.digits → 0 < ofDigits (num.whole ++ num.fraction)
  value : (ofDigits (num.whole ++ num.fraction) : ℚ) *
    10 ^ (num.exponent - num.fraction.length : ℤ) = d.digits * 10 ^ d.power

/-- A text of all places of a decimal. -/
structure Places (negative : Bool) (d : Digits) (text : List Char) : Prop where
  head : ∃ c rest, text = c :: rest ∧ isDigit c = true
  reads : ∃ num, readUnsigned negative text = some num ∧ num.Means negative d

section places

variable {digits : List Char} (hne : digits ≠ []) (hdigits : ∀ c ∈ digits, isDigit c = true)
  (negative : Bool) {d : Digits} (hvalue : ofDigits digits = d.digits)

include hne hdigits in
theorem head_digit (rest : List Char) :
    ∃ c rest', digits ++ rest = c :: rest' ∧ isDigit c = true := by
  obtain ⟨c, more, rfl⟩ := List.exists_cons_of_ne_nil hne
  exact ⟨c, more ++ rest, rfl, hdigits c List.mem_cons_self⟩

include hdigits hvalue in
/-- The same digits with a point in front of the last ones. -/
theorem Numeral.means_point {whole fraction : List Char} (hsplit : whole ++ fraction = digits)
    (hpower : d.power = -fraction.length) :
    Numeral.Means ⟨negative, whole, fraction, 0⟩ negative d where
  negative := rfl
  digits := by
    dsimp only
    rwa [hsplit]
  pos := by
    dsimp only
    rw [hsplit, hvalue]
    exact id
  value := by
    dsimp only
    rw [hsplit, hvalue, hpower, zero_sub]

include hne hdigits hvalue

theorem places_whole (hpower : 0 ≤ d.power) :
    Places negative d (digits ++ List.replicate d.power.toNat '0') where
  head := head_digit hne hdigits _
  reads := by
    have hall : ∀ c ∈ digits ++ List.replicate d.power.toNat '0', isDigit c = true := fun c hc =>
      (List.mem_append.mp hc).elim (hdigits c) (isDigit_zeros _ c)
    refine ⟨_, readUnsigned_whole (by simp [hne]) hall negative, rfl, ?_, ?_, ?_⟩ <;> dsimp only
    · rwa [List.append_nil]
    · rw [List.append_nil, ofDigits_append_zeros, hvalue]
      exact fun hpos => Nat.mul_pos hpos (by positivity)
    · rw [List.append_nil, ofDigits_append_zeros, hvalue, List.length_nil, Nat.cast_zero, sub_zero,
        zpow_zero, mul_one, Nat.cast_mul, Nat.cast_pow, ← zpow_natCast,
        Int.toNat_of_nonneg hpower, Nat.cast_ofNat]

omit hne in
theorem places_small {places : ℕ} (hpower : d.power = -places) (hplaces : digits.length ≤ places) :
    Places negative d
      ('0' :: '.' :: (List.replicate (places - digits.length) '0' ++ digits)) where
  head := ⟨_, _, rfl, by decide⟩
  reads := by
    have hall : ∀ c ∈ List.replicate (places - digits.length) '0' ++ digits, isDigit c = true :=
      fun c hc => (List.mem_append.mp hc).elim (isDigit_zeros _ c) (hdigits c)
    have hzero : ∀ c ∈ ['0'], isDigit c = true := isDigit_zeros 1
    refine ⟨_, readUnsigned_point (by simp) hzero hall negative,
      Numeral.means_point (fun c hc => (List.mem_append.mp hc).elim (hzero c) (hall c))
        negative ?_ rfl ?_⟩
    · rw [List.singleton_append, ← List.cons_append, ← List.replicate_succ, ofDigits_zeros_append,
        hvalue]
    · rw [hpower, List.length_append, List.length_replicate, Nat.sub_add_cancel hplaces]

omit hne in
theorem places_point {places : ℕ} (hpower : d.power = -places) (hplaces : places < digits.length) :
    Places negative d
      (digits.take (digits.length - places) ++ '.' :: digits.drop (digits.length - places)) := by
  have hne : digits.take (digits.length - places) ≠ [] := by
    rw [← List.length_pos_iff, List.length_take]
    omega
  have htake : ∀ c ∈ digits.take (digits.length - places), isDigit c = true :=
    fun c hc => hdigits c (List.mem_of_mem_take hc)
  have hdrop : ∀ c ∈ digits.drop (digits.length - places), isDigit c = true :=
    fun c hc => hdigits c (List.mem_of_mem_drop hc)
  refine ⟨head_digit hne htake _, _, readUnsigned_point hne htake hdrop negative,
    Numeral.means_point hdigits negative hvalue (List.take_append_drop _ _) ?_⟩
  rw [hpower, List.length_drop, Nat.sub_sub_self hplaces.le]

end places

theorem places_positional (negative : Bool) (d : Digits) :
    Places negative d (positional [] d) := by
  have hdigits : ∀ c ∈ digitsOf d.digits, isDigit c = true := fun _ => isDigit_of_mem_digitsOf
  have hvalue := ofDigits_digitsOf d.digits
  rw [positional]
  dsimp only
  split_ifs with hpower hplaces
  · rw [List.append_nil]
    exact places_whole (digitsOf_ne_nil _) hdigits negative hvalue hpower
  · exact places_small hdigits negative hvalue (by omega) hplaces
  · exact places_point hdigits negative hvalue (by omega) (by omega)

/-! ### Signs and words -/

section signs

variable {c : Char} (hc : isDigit c = true) (rest : List Char)
include hc

theorem toLower_of_isDigit : c.toLower = c := by
  have hle := (isDigit_iff.mp hc).2
  rw [Char.toLower, dif_neg]
  rintro ⟨hge, -⟩
  have hge' : 65 ≤ c.toNat := hge
  omega

theorem takeSign_digit : takeSign (c :: rest) = (false, c :: rest) := by
  rw [takeSign]
  all_goals
    intro _ h
    obtain ⟨rfl, -⟩ := List.cons.inj h
    exact absurd hc (by decide)

theorem takeSign_signed (negative : Bool) :
    takeSign (signed negative (c :: rest)) = (negative, c :: rest) := by
  cases negative
  · exact takeSign_digit hc rest
  · rfl

/-- No word starts with a digit. -/
theorem word_ne {word : String} (hword : word.toList.head?.any isDigit = false) :
    (String.ofList ((c :: rest).map Char.toLower) == word) = false := by
  rw [beq_eq_false_iff_ne]
  rintro rfl
  rw [String.toList_ofList, List.map_cons, toLower_of_isDigit hc, List.head?_cons, Option.any_some,
    hc] at hword
  cases hword

end signs

theorem Places.readNumeral_eq {negative : Bool} {d : Digits} {text : List Char}
    (h : Places negative d text) :
    ∃ num : Numeral, readNumeral (signed negative text) = .ok num.toFloat ∧
      num.Means negative d := by
  obtain ⟨⟨c, rest, rfl, hc⟩, num, hread, hmeans⟩ := h
  refine ⟨num, ?_, hmeans⟩
  have hsome : (signed negative (c :: rest)).isEmpty = false := by cases negative <;> rfl
  rw [readNumeral, hsome, takeSign_signed hc rest]
  dsimp only
  rw [word_ne hc rest (by decide), word_ne hc rest (by decide), word_ne hc rest (by decide), hread]
  rfl

/-! ### Reading what was written -/

theorem readNumeral_finite (negative : Bool) {x : Finite} (hx : x.Canonical) :
    readNumeral (signed negative (positional [] (shortest x))) =
      .ok ⟨.pack (.finite (signOf negative) x.mantissa x.exponent hx.pos)⟩ := by
  obtain ⟨num, hread, hmeans⟩ := (places_positional negative (shortest x)).readNumeral_eq
  obtain ⟨hpos, hcovers⟩ := shortest_covers hx.pos
  rw [← hmeans.value] at hcovers
  rw [hread, Numeral.toFloat_eq hx hmeans.digits (hmeans.pos hpos) hcovers, hmeans.negative]

theorem readNumeral_infinite (negative : Bool) :
    readNumeral (signed negative ['i', 'n', 'f']) =
      .ok ⟨.pack (.infinity (signOf negative))⟩ := by
  cases negative <;> decide +kernel

theorem readNumeral_zero (negative : Bool) :
    readNumeral (signed negative ['0']) = .ok ⟨.pack (.zero (signOf negative))⟩ := by
  cases negative <;> decide +kernel

/-- **A number is read as it was written.** -/
theorem readNumeral_plain {x : Float} (h : x.isNaN = false) :
    readNumeral (plain x).toList = .ok x := by
  -- the double is replaced by what is found in it, which its kind determines
  have hpack := eq_pack_unpack x
  have hunpack := unpacks x
  rw [plain, String.toList_ofList]
  generalize kindOf x = kind at hunpack
  generalize hmodel : x.toModel.unpack = u at hunpack
  rw [hpack, hmodel]
  cases hunpack with
  | nan =>
    rw [Float.isNaN, Float.Model.isNaN, hmodel] at h
    cases h
  | infinite negative => exact readNumeral_infinite negative
  | zero negative => exact readNumeral_zero negative
  | finite negative hx => exact readNumeral_finite negative hx

end KeyLayout.Decimal

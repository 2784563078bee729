/-
Rounding to the nearest double.

The model of floating-point numbers in the standard library rounds a mantissa of which two more
bits are kept: whether the rest reaches a half, and whether there is anything besides.  These bits
are enough (`Describes`): moving the mantissa to the right keeps what they tell
(`Describes.shiftRight`), and the rounded mantissa is the nearest whole number, at a tie the even
one (`Describes.roundedMantissa_eq`).

A double covers the numbers from the middle of the gap below it to the middle of the gap above it
(`Finite.Covers`), and each of them is rounded to it (`roundWithAccuracy_eq`).
-/
import Mathlib
import KeyLayout.Decimal.Shortest

namespace KeyLayout.Decimal

open Float.Model (Format UnpackedFloat totalExponent)
open Float.Model.UnpackedFloat

/-! ### Two bits behind a mantissa -/

/-- What a mantissa with its two bits tells about a number: its whole part, and how its fraction
compares with nothing and with a half. -/
def Describes (em : ExtendedMantissa) (w : ℚ) : Prop :=
  match em.roundBit, em.stickyBit with
  | false, false => w = em.mantissa
  | false, true => em.mantissa < w ∧ w < em.mantissa + 1 / 2
  | true, false => w = em.mantissa + 1 / 2
  | true, true => em.mantissa + 1 / 2 < w ∧ w < em.mantissa + 1

/-- A whole number that is nearest to a number; at a tie it is even. -/
structure RoundsTo (w : ℚ) (r : ℕ) : Prop where
  low : r - 1 / 2 ≤ w
  high : w ≤ r + 1 / 2
  odd : r % 2 = 1 → r - 1 / 2 < w ∧ w < r + 1 / 2

section bits

variable {em : ExtendedMantissa} {w : ℚ}

theorem Describes.mantissa_le (h : Describes em w) : em.mantissa ≤ w ∧ w < em.mantissa + 1 := by
  obtain ⟨m, _ | _, _ | _⟩ := em <;> simp only [Describes] at h ⊢ <;> constructor <;> linarith

/-- The bit that leaves the mantissa tells about a half, the others whether there is more. -/
theorem Describes.shiftRightOne (h : Describes em w) : Describes em.shiftRightOne (w / 2) := by
  obtain ⟨m, round, sticky⟩ := em
  have hsplit : (m : ℚ) = 2 * (m / 2 : ℕ) + (m % 2 : ℕ) := by
    exact_mod_cast (Nat.div_add_mod m 2).symm
  rcases Nat.mod_two_eq_zero_or_one m with hbit | hbit <;> rw [hbit] at hsplit <;>
    cases round <;> cases sticky <;>
    simp [Describes, ExtendedMantissa.shiftRightOne, hbit] at h hsplit ⊢ <;>
    first | linarith | constructor <;> linarith

theorem Describes.shiftRight (h : Describes em w) (n : ℕ) : Describes (em >>> n) (w / 2 ^ n) := by
  induction n with
  | zero =>
    rw [pow_zero, div_one]
    exact h
  | succ n ih =>
    rw [pow_succ, ← div_div]
    exact ih.shiftRightOne

theorem Describes.roundedMantissa_eq {r : ℕ} (h : Describes em w) (hr : RoundsTo w r) :
    em.roundedMantissa = r := by
  obtain ⟨hlow, hhigh, hodd⟩ := hr
  obtain ⟨m, _ | _, _ | _⟩ := em <;> simp only [Describes] at h
  · show m = r
    have h₁ : (m : ℚ) < r + 1 := by linarith
    have h₂ : (r : ℚ) < m + 1 := by linarith
    norm_cast at h₁ h₂
    omega
  · show m = r
    have h₁ : (m : ℚ) < r + 1 := by linarith
    have h₂ : (r : ℚ) < m + 1 := by linarith
    norm_cast at h₁ h₂
    omega
  · show m + m % 2 = r
    have h₁ : (m : ℚ) ≤ r := by linarith
    have h₂ : (r : ℚ) ≤ m + 1 := by linarith
    norm_cast at h₁ h₂
    -- the number is in the middle between two whole numbers, of which the even one is `r`
    have heven : r % 2 = 0 := by
      by_contra hne
      obtain ⟨hbelow, habove⟩ := hodd (by omega)
      have h₃ : (m : ℚ) < r := by linarith
      have h₄ : (r : ℚ) < m + 1 := by linarith
      norm_cast at h₃ h₄
      omega
    omega
  · show m + 1 = r
    have h₁ : (m : ℚ) < r := by linarith
    have h₂ : (r : ℚ) < m + 2 := by linarith
    norm_cast at h₁ h₂
    omega

end bits

/-! ### Doubles and the numbers around them -/

namespace Finite

/-- The middle of the gap below a double. -/
def low (x : Finite) : ℚ :=
  (x.mantissa - if x.narrowBelow then 1 / 4 else 1 / 2) * 2 ^ x.exponent

/-- The middle of the gap above a double. -/
def high (x : Finite) : ℚ := (x.mantissa + 1 / 2) * 2 ^ x.exponent

/-- The numbers that a double is nearest to; those in the middle belong to the even mantissa. -/
structure Covers (x : Finite) (v : ℚ) : Prop where
  low : x.low ≤ v
  high : v ≤ x.high
  odd : x.mantissa % 2 = 1 → x.low < v ∧ v < x.high

/-- A double covers itself. -/
theorem covers_exact (x : Finite) : x.Covers (x.mantissa * 2 ^ x.exponent) := by
  have hunit : (0 : ℚ) < 2 ^ x.exponent := by positivity
  have hlow : x.low < x.mantissa * 2 ^ x.exponent := by
    refine mul_lt_mul_of_pos_right ?_ hunit
    split_ifs <;> linarith
  have hhigh : x.mantissa * 2 ^ x.exponent < x.high :=
    mul_lt_mul_of_pos_right (by linarith) hunit
  exact ⟨hlow.le, hhigh.le, fun _ => ⟨hlow, hhigh⟩⟩

/-- A covered number rounds to the mantissa, if it is moved to its place. -/
theorem Covers.roundsTo {x : Finite} {v : ℚ} (h : x.Covers v) :
    RoundsTo (v / 2 ^ x.exponent) x.mantissa := by
  have hunit : (0 : ℚ) < 2 ^ x.exponent := by positivity
  have hlow : ((x.mantissa : ℚ) - 1 / 2) * 2 ^ x.exponent ≤ x.low := by
    refine mul_le_mul_of_nonneg_right ?_ hunit.le
    split_ifs <;> linarith
  refine ⟨?_, ?_, fun hodd => ⟨?_, ?_⟩⟩
  · rw [le_div_iff₀ hunit]
    exact hlow.trans h.low
  · rw [div_le_iff₀ hunit]
    exact h.high
  · rw [lt_div_iff₀ hunit]
    exact lt_of_le_of_lt hlow (h.odd hodd).1
  · rw [div_lt_iff₀ hunit]
    exact (h.odd hodd).2

/-- The one form in which a positive double is written; the mantissa has its leading bit, unless the
exponent is the least one. -/
structure Canonical (x : Finite) : Prop where
  pos : 0 < x.mantissa
  lt : x.mantissa < 2 ^ 53
  least : -1074 ≤ x.exponent
  greatest : x.exponent ≤ 971
  leading : 2 ^ 52 ≤ x.mantissa ∨ x.exponent = -1074
  narrow : x.narrowBelow = true ↔ x.mantissa = 2 ^ 52 ∧ -1074 < x.exponent

/-- A covered number below the least mantissa is at most half a place of the lower doubles away. -/
theorem Covers.roundsTo_carry {x : Finite} {v : ℚ} (h : x.Covers v) (hx : x.Canonical)
    (hleast : -1074 < x.exponent) (hlt : v < 2 ^ (52 + x.exponent)) :
    x.mantissa = 2 ^ 52 ∧ RoundsTo (v / 2 ^ (x.exponent - 1)) (2 ^ 53) := by
  have hunit : (0 : ℚ) < 2 ^ (x.exponent - 1) := by positivity
  have hdouble : (2 : ℚ) ^ x.exponent = 2 * 2 ^ (x.exponent - 1) := by
    rw [← zpow_one_add₀ (by norm_num), add_sub_cancel]
  have htop : (2 : ℚ) ^ (52 + x.exponent) = 2 ^ 53 * 2 ^ (x.exponent - 1) := by
    rw [zpow_add₀ (by norm_num), hdouble, ← mul_assoc]
    norm_num
  have hlow := h.low
  rw [Finite.low, hdouble] at hlow
  have hmantissa : x.mantissa = 2 ^ 52 := by
    have hleading := hx.leading.resolve_right hleast.ne'
    by_contra hne
    have hnext : 2 ^ 52 + 1 ≤ x.mantissa := by omega
    have hlarge : (2 ^ 52 + 1 : ℚ) ≤ x.mantissa := by exact_mod_cast hnext
    have hfar : (2 ^ 52 : ℚ) ≤ x.mantissa - if x.narrowBelow then 1 / 4 else 1 / 2 := by
      split_ifs <;> linarith
    have := mul_le_mul_of_nonneg_right hfar (show (0 : ℚ) ≤ 2 * 2 ^ (x.exponent - 1) by positivity)
    rw [htop] at hlt
    linarith
  rw [hmantissa, if_pos (hx.narrow.mpr ⟨hmantissa, hleast⟩)] at hlow
  push_cast at hlow
  refine ⟨hmantissa, ?_, ?_, fun hodd => absurd hodd (by decide)⟩
  · rw [le_div_iff₀ hunit]
    push_cast
    linarith
  · rw [div_le_iff₀ hunit]
    rw [htop] at hlt
    push_cast
    linarith

end Finite

/-! ### The exponent of the result -/

section exponent

variable {m : ℕ} {e : ℤ} {acc : Accuracy} {v : ℚ}

/-- The exponent that a mantissa is moved to. -/
def target (m : ℕ) (e : ℤ) : ℤ := max (m.log2 + e - 52) (-1074)

theorem targetExponent_eq (m : ℕ) (e : ℤ) :
    Format.binary64.targetExponent (totalExponent m e) = target m e := by
  simp only [target, totalExponent, Format.targetExponent, Format.minExponent, Format.mantissaBits]
  omega

/-- A mantissa that has enough bits is moved to the right and what it tells is kept. -/
theorem shift_describes (h : Describes (.ofMantissaAndAccuracy m acc) v)
    (hbits : 52 ≤ m.log2 ∨ e ≤ -1074) :
    ∃ em, shiftToTargetExponent .binary64 m e acc = (em, target m e) ∧
      Describes em (v * 2 ^ e / 2 ^ target m e) := by
  have hle : e ≤ target m e := by
    rw [target]
    omega
  have hshift : ((target m e - e).toNat : ℤ) = target m e - e := Int.toNat_of_nonneg (by omega)
  refine ⟨ExtendedMantissa.ofMantissaAndAccuracy m acc >>> (target m e - e).toNat, ?_, ?_⟩
  · rw [shiftToTargetExponent, targetExponent_eq, shiftToExponent, hshift, add_sub_cancel]
  · have hscale : v * 2 ^ e / 2 ^ target m e = v / 2 ^ (target m e - e).toNat := by
      rw [← zpow_natCast, hshift, zpow_sub₀ (by norm_num), div_div_eq_mul_div]
    rw [hscale]
    exact h.shiftRight _

theorem mantissa_ofMantissaAndAccuracy (m : ℕ) (acc : Accuracy) :
    (ExtendedMantissa.ofMantissaAndAccuracy m acc).mantissa = m := by
  rcases acc with _ | ordering
  · rfl
  · cases ordering <;> rfl

theorem Describes.bounds (h : Describes (.ofMantissaAndAccuracy m acc) v) : m ≤ v ∧ v < m + 1 := by
  have hbounds := h.mantissa_le
  rwa [mantissa_ofMantissaAndAccuracy] at hbounds

/-- The exponent of the result is not too small for a number. -/
theorem le_target (h : Describes (.ofMantissaAndAccuracy m acc) v) {n : ℤ}
    (hn : 2 ^ n ≤ v * 2 ^ e) : n - 52 ≤ target m e := by
  have hm : v < 2 ^ ((m.log2 : ℤ) + 1) := by
    have hlog : ((m + 1 : ℕ) : ℚ) ≤ (2 ^ (m.log2 + 1) : ℕ) := Nat.cast_le.mpr Nat.lt_log2_self
    push_cast at hlog
    exact_mod_cast lt_of_lt_of_le h.bounds.2 hlog
  have hlt : (2 : ℚ) ^ n < 2 ^ ((m.log2 : ℤ) + 1 + e) := by
    rw [zpow_add₀ (by norm_num)]
    exact lt_of_le_of_lt hn (mul_lt_mul_of_pos_right hm (by positivity))
  have hexp := (zpow_lt_zpow_iff_right₀ (by norm_num)).mp hlt
  rw [target]
  omega

/-- The exponent of the result is not too large for a number. -/
theorem target_le (h : Describes (.ofMantissaAndAccuracy m acc) v)
    (hbits : 52 ≤ m.log2 ∨ e ≤ -1074) {n : ℤ} (hn : v * 2 ^ e < 2 ^ (n + 1))
    (hleast : -1074 ≤ n - 52) : target m e ≤ n - 52 := by
  rw [target]
  rcases Nat.eq_zero_or_pos m with rfl | hpos
  · rw [Nat.log2_zero] at hbits ⊢
    omega
  · have hm : (2 : ℚ) ^ (m.log2 : ℤ) ≤ v := by
      have hlog : ((2 ^ m.log2 : ℕ) : ℚ) ≤ m := Nat.cast_le.mpr (Nat.log2_self_le hpos.ne')
      push_cast at hlog
      exact_mod_cast hlog.trans h.bounds.1
    have hlt : (2 : ℚ) ^ ((m.log2 : ℤ) + e) < 2 ^ (n + 1) := by
      rw [zpow_add₀ (by norm_num)]
      exact lt_of_le_of_lt (mul_le_mul_of_nonneg_right hm (by positivity)) hn
    have hexp := (zpow_lt_zpow_iff_right₀ (by norm_num)).mp hlt
    omega

end exponent

/-! ### Rounding -/

section round

variable {m : ℕ} {e : ℤ} {acc : Accuracy}

theorem shift_fits {r : ℕ} {t : ℤ} (hr : r < 2 ^ 53) (ht : -1074 ≤ t) :
    shiftToTargetExponent .binary64 r t .exact = (⟨r, false, false⟩, t) := by
  have hlog : r.log2 < 53 := by
    rcases Nat.eq_zero_or_pos r with rfl | hpos
    · decide
    · exact (Nat.log2_lt hpos.ne').mpr hr
  have hzero : (target r t - t).toNat = 0 := by
    rw [target]
    omega
  rw [shiftToTargetExponent, targetExponent_eq, shiftToExponent, hzero, Nat.cast_zero, add_zero]
  rfl

theorem shift_carry {t : ℤ} (ht : -1074 ≤ t) :
    shiftToTargetExponent .binary64 (2 ^ 53) t .exact = (⟨2 ^ 52, false, false⟩, t + 1) := by
  have hone : (target (2 ^ 53) t - t).toNat = 1 := by
    rw [target, Nat.log2_two_pow]
    omega
  rw [shiftToTargetExponent, targetExponent_eq, shiftToExponent, hone]
  rfl

variable {em : ExtendedMantissa} {t : ℤ} (s : Sign)

theorem roundWithAccuracy_fits (hshift : shiftToTargetExponent .binary64 m e acc = (em, t))
    (hpos : 0 < em.roundedMantissa) (hlt : em.roundedMantissa < 2 ^ 53) (ht : -1074 ≤ t) :
    roundWithAccuracy .binary64 s m e acc = .finite s em.roundedMantissa t hpos := by
  rw [roundWithAccuracy, hshift]
  dsimp only
  rw [shift_fits hlt ht]
  exact dif_neg hpos.ne'

/-- If all bits of a mantissa are carried, the exponent makes room for one more. -/
theorem roundWithAccuracy_carry (hshift : shiftToTargetExponent .binary64 m e acc = (em, t))
    (hcarry : em.roundedMantissa = 2 ^ 53) (ht : -1074 ≤ t) :
    roundWithAccuracy .binary64 s m e acc = .finite s (2 ^ 52) (t + 1) (by decide) := by
  rw [roundWithAccuracy, hshift]
  dsimp only
  rw [hcarry, shift_carry ht]
  rfl

/-- **The numbers that a double covers are rounded to it.** -/
theorem roundWithAccuracy_eq {x : Finite} (hx : x.Canonical) {v : ℚ}
    (h : Describes (.ofMantissaAndAccuracy m acc) v) (hbits : 52 ≤ m.log2 ∨ e ≤ -1074)
    (hcovers : x.Covers (v * 2 ^ e)) :
    roundWithAccuracy .binary64 s m e acc = .finite s x.mantissa x.exponent hx.pos := by
  obtain ⟨em, hshift, hem⟩ := shift_describes h hbits
  have hleast : -1074 ≤ target m e := le_max_right _ _
  have hunit : (0 : ℚ) < 2 ^ x.exponent := by positivity
  have hmantissa : (x.mantissa : ℚ) + 1 ≤ 2 ^ 53 := by exact_mod_cast hx.lt
  have hhigh : v * 2 ^ e < 2 ^ (52 + x.exponent + 1) := by
    have hsplit : (2 : ℚ) ^ (52 + x.exponent + 1) = 2 ^ 53 * 2 ^ x.exponent := by
      rw [add_right_comm, zpow_add₀ (by norm_num)]
      norm_num
    rw [hsplit]
    refine lt_of_le_of_lt hcovers.high ?_
    rw [Finite.high]
    exact mul_lt_mul_of_pos_right (by linarith) hunit
  have hle : target m e ≤ x.exponent := by
    have hleast' := hx.least
    have := target_le h hbits hhigh (by omega)
    omega
  rcases hle.eq_or_lt with heq | hlt
  · -- the mantissa is moved to the place of the mantissa of `x`
    rw [heq] at hshift hem
    have hr := hem.roundedMantissa_eq hcovers.roundsTo
    have hfits := roundWithAccuracy_fits s hshift (hr ▸ hx.pos) (hr ▸ hx.lt) hx.least
    simpa only [hr] using hfits
  · -- the number is below the least mantissa, and rounding carries all bits
    have hbelow : v * 2 ^ e < 2 ^ (52 + x.exponent) := by
      by_contra hge
      have := le_target h (not_lt.mp hge)
      omega
    obtain ⟨hmantissa, hrounds⟩ := hcovers.roundsTo_carry hx (by omega) hbelow
    have hge : (2 : ℚ) ^ (51 + x.exponent) ≤ v * 2 ^ e := by
      refine le_trans ?_ hcovers.low
      rw [zpow_add₀ (by norm_num), Finite.low, hmantissa]
      refine mul_le_mul_of_nonneg_right ?_ hunit.le
      split_ifs <;> norm_num
    have htarget : target m e = x.exponent - 1 := by
      have := le_target h hge
      omega
    rw [htarget] at hshift hem
    have hcarry := roundWithAccuracy_carry s hshift (hem.roundedMantissa_eq hrounds) (by omega)
    simpa only [hmantissa, sub_add_cancel] using hcarry

end round

end KeyLayout.Decimal

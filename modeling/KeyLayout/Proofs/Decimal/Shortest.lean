/-
The shortest digits of a double stand for a number that it covers.

On every grid the neighbours of a double are compared with the ends of its interval in whole
numbers.  What is chosen is therefore covered by the double (`Finite.OnGrid.covers`), and so is its
exact value, which is given when no grid is fine enough.
-/
import Mathlib
import KeyLayout.Proofs.Decimal.Rounding

namespace KeyLayout.Decimal

/-- Two powers of which one is a whole number at least. -/
theorem zpow_mul_powUp {b : ℕ} (hb : b ≠ 0) (z : ℤ) :
    (b : ℚ) ^ z * powUp b (-z) = powUp b z := by
  have hb' : (b : ℚ) ≠ 0 := Nat.cast_ne_zero.mpr hb
  rw [powUp, powUp, Nat.pow_eq, Nat.pow_eq, Nat.cast_pow, Nat.cast_pow, ← zpow_natCast,
    ← zpow_natCast, ← zpow_add₀ hb']
  congr 1
  omega

theorem powUp_of_nonneg (b : ℕ) {z : ℤ} (hz : 0 ≤ z) : (powUp b z : ℚ) = (b : ℚ) ^ z := by
  rw [powUp, Nat.pow_eq, Nat.cast_pow, ← zpow_natCast, Int.toNat_of_nonneg hz]

theorem powUp_pos {b : ℕ} (hb : b ≠ 0) (z : ℤ) : (0 : ℚ) < powUp b z := by
  rw [powUp, Nat.pow_eq, Nat.cast_pow]
  have : 0 < b := Nat.pos_of_ne_zero hb
  positivity

section grid

variable {x : Finite} {e : ℤ} {d : Digits}

/-- By how much a grid is smaller than the numbers that are compared on it. -/
def Finite.scale (x : Finite) (e : ℤ) : ℕ := powUp 2 x.exponent * powUp 10 (-e)

/-- The distance of two neighbours on a grid. -/
def Finite.step (x : Finite) (e : ℤ) : ℕ := 4 * powUp 2 (-x.exponent) * powUp 10 e

/-- A point of a grid between the ends of the interval of a double. -/
structure Finite.OnGrid (x : Finite) (e : ℤ) (k : ℕ) : Prop where
  pos : 0 < k
  low : (4 * x.mantissa - if x.narrowBelow then 1 else 2) * x.scale e ≤ k * x.step e
  high : k * x.step e ≤ (4 * x.mantissa + 2) * x.scale e
  odd : x.mantissa % 2 = 1 →
    (4 * x.mantissa - if x.narrowBelow then 1 else 2) * x.scale e < k * x.step e ∧
      k * x.step e < (4 * x.mantissa + 2) * x.scale e

/-- Whether a point is between the ends, as it is tested. -/
def Finite.within (x : Finite) (e : ℤ) (k : ℕ) : Bool :=
  if x.mantissa % 2 == 0 then
    (4 * x.mantissa - if x.narrowBelow then 1 else 2) * x.scale e ≤ k * x.step e &&
      k * x.step e ≤ (4 * x.mantissa + 2) * x.scale e
  else
    (4 * x.mantissa - if x.narrowBelow then 1 else 2) * x.scale e < k * x.step e &&
      k * x.step e < (4 * x.mantissa + 2) * x.scale e

theorem Finite.OnGrid.of_within {k : ℕ} (hk : 0 < k) (h : x.within e k = true) : x.OnGrid e k := by
  rw [Finite.within] at h
  split at h
  · rename_i heven
    rw [Bool.and_eq_true, decide_eq_true_eq, decide_eq_true_eq] at h
    exact ⟨hk, h.1, h.2, fun hodd => by rw [beq_iff_eq, hodd] at heven; cases heven⟩
  · rw [Bool.and_eq_true, decide_eq_true_eq, decide_eq_true_eq] at h
    exact ⟨hk, h.1.le, h.2.le, fun _ => h⟩

theorem onGrid_eq_some (h : onGrid x e = some d) : d.power = e ∧ x.OnGrid e d.digits := by
  rw [onGrid] at h
  dsimp only at h
  split at h
  · rename_i hbelow habove
    obtain ⟨hpos, hwithin⟩ := (Bool.and_eq_true _ _).mp hbelow
    split at h <;> cases h
    · exact ⟨rfl, .of_within (of_decide_eq_true hpos) hwithin⟩
    · exact ⟨rfl, .of_within (Nat.succ_pos _) habove⟩
  · rename_i hbelow habove
    obtain ⟨hpos, hwithin⟩ := (Bool.and_eq_true _ _).mp hbelow
    cases h
    exact ⟨rfl, .of_within (of_decide_eq_true hpos) hwithin⟩
  · rename_i hbelow habove
    cases h
    exact ⟨rfl, .of_within (Nat.succ_pos _) habove⟩
  · cases h

/-- The ends and the points of a grid, multiplied by the same number, are whole. -/
theorem Finite.OnGrid.covers {k : ℕ} (hpos : 0 < x.mantissa) (h : x.OnGrid e k) :
    x.Covers (k * 10 ^ e) := by
  obtain ⟨-, hlow, hhigh, hodd⟩ := h
  have hten := zpow_mul_powUp (b := 10) (by decide) e
  have htwo := zpow_mul_powUp (b := 2) (by decide) x.exponent
  rw [Nat.cast_ofNat] at hten htwo
  have hunit : (0 : ℚ) < 4 * powUp 2 (-x.exponent) * powUp 10 (-e) :=
    mul_pos (mul_pos (by norm_num) (powUp_pos (by decide) _)) (powUp_pos (by decide) _)
  -- the ends and the point are multiplied by four and by the powers that make them whole
  have hpoint : (k * 10 ^ e : ℚ) * (4 * powUp 2 (-x.exponent) * powUp 10 (-e)) =
      (k * x.step e : ℕ) := by
    rw [Finite.step]
    push_cast
    rw [← hten]
    ring
  have hlow' : x.low * (4 * powUp 2 (-x.exponent) * powUp 10 (-e)) =
      ((4 * x.mantissa - if x.narrowBelow then 1 else 2) * x.scale e : ℕ) := by
    rw [Finite.low, Finite.scale, Nat.cast_mul, Nat.cast_mul, ← htwo]
    split_ifs
    · rw [Nat.cast_sub (by omega)]
      push_cast
      ring
    · rw [Nat.cast_sub (by omega)]
      push_cast
      ring
  have hhigh' : x.high * (4 * powUp 2 (-x.exponent) * powUp 10 (-e)) =
      ((4 * x.mantissa + 2) * x.scale e : ℕ) := by
    rw [Finite.high, Finite.scale, Nat.cast_mul, Nat.cast_mul, ← htwo]
    push_cast
    ring
  refine ⟨?_, ?_, fun h => ⟨?_, ?_⟩⟩
  · rw [← mul_le_mul_iff_left₀ hunit, hlow', hpoint]
    exact_mod_cast hlow
  · rw [← mul_le_mul_iff_left₀ hunit, hhigh', hpoint]
    exact_mod_cast hhigh
  · rw [← mul_lt_mul_iff_left₀ hunit, hlow', hpoint]
    exact_mod_cast (hodd h).1
  · rw [← mul_lt_mul_iff_left₀ hunit, hhigh', hpoint]
    exact_mod_cast (hodd h).2

end grid

/-! ### The digits that are chosen -/

variable {x : Finite}

theorem searchDown_covers (hpos : 0 < x.mantissa) {steps : ℕ} {e : ℤ} {d : Digits}
    (h : searchDown x steps e = some d) : 0 < d.digits ∧ x.Covers (d.digits * 10 ^ d.power) := by
  induction steps generalizing e with
  | zero => cases h
  | succ steps ih =>
    rw [searchDown] at h
    split at h
    · rename_i found hgrid
      obtain rfl := Option.some_inj.mp h
      obtain ⟨hpower, hon⟩ := onGrid_eq_some hgrid
      exact ⟨hon.pos, hpower ▸ hon.covers hpos⟩
    · exact ih h

/-- **The shortest digits of a double stand for a number that it covers.** -/
theorem shortest_covers (hpos : 0 < x.mantissa) :
    0 < (shortest x).digits ∧ x.Covers ((shortest x).digits * 10 ^ (shortest x).power) := by
  rw [shortest]
  split
  · exact searchDown_covers hpos ‹_›
  · split_ifs with hexponent
    · have hvalue : ((x.mantissa * powUp 2 x.exponent : ℕ) : ℚ) * 10 ^ (0 : ℤ) =
          x.mantissa * 2 ^ x.exponent := by
        rw [Nat.cast_mul, powUp_of_nonneg 2 hexponent, zpow_zero, mul_one, Nat.cast_ofNat]
      rw [hvalue]
      exact ⟨Nat.mul_pos hpos (Nat.pow_pos (by decide)), x.covers_exact⟩
    · have hvalue : ((x.mantissa * powUp 5 (-x.exponent) : ℕ) : ℚ) * 10 ^ x.exponent =
          x.mantissa * 2 ^ x.exponent := by
        have hten : (10 : ℚ) ^ x.exponent = 5 ^ x.exponent * 2 ^ x.exponent := by
          rw [← mul_zpow]
          norm_num
        rw [Nat.cast_mul, powUp_of_nonneg 5 (by omega), hten, Nat.cast_ofNat, zpow_neg]
        field_simp
      rw [hvalue]
      exact ⟨Nat.mul_pos hpos (Nat.pow_pos (by decide)), x.covers_exact⟩

end KeyLayout.Decimal

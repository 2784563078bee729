/-
Decimals as doubles.

A decimal becomes a double by a single product or quotient that is rounded once: of two doubles
if both the digits and the power of ten are doubles themselves, of whole numbers otherwise.  So a
decimal that is covered by a double becomes this double (`ofScientific_eq`, `Numeral.toFloat_eq`).
The limits beyond which no product is computed are out of reach of the numbers that doubles cover
(`Finite.Covers.lt`, `Finite.Covers.ge`).
-/
import Mathlib
import KeyLayout.Decimal.Numeral
import KeyLayout.Proofs.Decimal.Bits
import KeyLayout.Proofs.Decimal.Digits

namespace KeyLayout.Decimal

open Float.Model (Format UnpackedFloat totalExponent)
open Float.Model.UnpackedFloat

/-! ### Products and quotients -/

section arithmetic

theorem describes_exact (m : ℕ) : Describes (.ofMantissaAndAccuracy m .exact) m := rfl

/-- The remainder of a division tells about the rest of the quotient. -/
theorem describes_division (n : ℕ) {d : ℕ} (hd : 0 < d) :
    Describes (.ofMantissaAndAccuracy (n / d) (accuracyOfFraction (n % d) d)) (n / d) := by
  have hd' : (0 : ℚ) < d := Nat.cast_pos.mpr hd
  have hsplit : (n : ℚ) = d * (n / d : ℕ) + (n % d : ℕ) := by
    exact_mod_cast (Nat.div_add_mod n d).symm
  have hrest : n % d < d := Nat.mod_lt n hd
  generalize n / d = q at *
  generalize n % d = r at *
  rw [accuracyOfFraction]
  split_ifs with hr
  · show (n : ℚ) / d = q
    rw [div_eq_iff hd'.ne', hsplit, hr, Nat.cast_zero, add_zero, mul_comm]
  · have hr' : (0 : ℚ) < r := by exact_mod_cast Nat.pos_of_ne_zero hr
    have hrest' : (r : ℚ) < d := by exact_mod_cast hrest
    -- the fraction is compared with a half by comparing twice the remainder with the divisor
    rcases lt_trichotomy (2 * r) d with hhalf | hhalf | hhalf
    · rw [Nat.compare_eq_lt.mpr hhalf]
      have hhalf' : (2 * r : ℚ) < d := by exact_mod_cast hhalf
      show (q : ℚ) < n / d ∧ (n : ℚ) / d < q + 1 / 2
      rw [lt_div_iff₀ hd', div_lt_iff₀ hd']
      constructor <;> linarith
    · rw [Nat.compare_eq_eq.mpr hhalf]
      have hhalf' : (2 * r : ℚ) = d := by exact_mod_cast hhalf
      show (n : ℚ) / d = q + 1 / 2
      rw [div_eq_iff hd'.ne']
      linarith
    · rw [Nat.compare_eq_gt.mpr hhalf]
      have hhalf' : (d : ℚ) < 2 * r := by exact_mod_cast hhalf
      show (q : ℚ) + 1 / 2 < n / d ∧ (n : ℚ) / d < q + 1
      rw [lt_div_iff₀ hd', div_lt_iff₀ hd']
      constructor <;> linarith

variable {x : Finite} (hx : x.Canonical) {m₁ m₂ : ℕ} {e₁ e₂ : ℤ} (h₁ : 0 < m₁) (h₂ : 0 < m₂)

include h₁ h₂ in
/-- A quotient has enough bits if its numerator is moved far enough to the left. -/
theorem log2_quotient {s : ℕ} (hs : m₂.log2 + 53 ≤ m₁.log2 + s) :
    52 ≤ ((m₁ <<< s) / m₂).log2 := by
  have hle : 2 ^ 52 ≤ (m₁ <<< s) / m₂ := by
    rw [Nat.le_div_iff_mul_le h₂, Nat.shiftLeft_eq]
    calc 2 ^ 52 * m₂ ≤ 2 ^ 52 * 2 ^ (m₂.log2 + 1) := Nat.mul_le_mul_left _ Nat.lt_log2_self.le
      _ = 2 ^ (m₂.log2 + 53) := by rw [← pow_add, add_comm, add_assoc]
      _ ≤ 2 ^ (m₁.log2 + s) := Nat.pow_le_pow_right (by decide) hs
      _ = 2 ^ m₁.log2 * 2 ^ s := pow_add _ _ _
      _ ≤ m₁ * 2 ^ s := Nat.mul_le_mul_right _ (Nat.log2_self_le h₁.ne')
  exact (Nat.le_log2 (by omega)).mpr hle

include hx

/-- A product becomes the double that covers it. -/
theorem mul_eq (hbits : 52 ≤ (m₁ * m₂).log2) (h : x.Covers (m₁ * 2 ^ e₁ * (m₂ * 2 ^ e₂))) :
    UnpackedFloat.mul .binary64 (.finite .positive m₁ e₁ h₁) (.finite .positive m₂ e₂ h₂) =
      .finite .positive x.mantissa x.exponent hx.pos := by
  rw [UnpackedFloat.mul]
  refine roundWithAccuracy_eq _ hx (describes_exact _) (.inl hbits) ?_
  rwa [Nat.cast_mul, zpow_add₀ (by norm_num), mul_mul_mul_comm]

/-- A quotient becomes the double that covers it. -/
theorem div_eq (h : x.Covers (m₁ * 2 ^ e₁ / (m₂ * 2 ^ e₂))) :
    UnpackedFloat.div .binary64 (.finite .positive m₁ e₁ h₁) (.finite .positive m₂ e₂ h₂) =
      .finite .positive x.mantissa x.exponent hx.pos := by
  have htarget : Format.binary64.targetExponent (totalExponent m₁ e₁ - totalExponent m₂ e₂) =
      max (m₁.log2 + e₁ - (m₂.log2 + e₂) - 53) (-1074) := by
    simp only [totalExponent, Format.targetExponent, Format.minExponent, Format.mantissaBits]
    omega
  rw [UnpackedFloat.div, divCore, htarget]
  dsimp only
  generalize ht : min (e₁ - e₂) (max (m₁.log2 + e₁ - (m₂.log2 + e₂) - 53) (-1074)) = t
  generalize hs : (e₁ - e₂ - t).toNat = s
  have hs' : (s : ℤ) = e₁ - e₂ - t := by omega
  refine roundWithAccuracy_eq _ hx (describes_division _ h₂) ?_ ?_
  · by_cases hleast : t ≤ -1074
    · exact .inr hleast
    · exact .inl (log2_quotient h₁ h₂ (by omega))
  · have hvalue : ((m₁ <<< s : ℕ) : ℚ) / m₂ * 2 ^ t = m₁ * 2 ^ e₁ / (m₂ * 2 ^ e₂) := by
      have hne : (m₂ : ℚ) ≠ 0 := Nat.cast_ne_zero.mpr h₂.ne'
      rw [Nat.shiftLeft_eq, Nat.cast_mul, Nat.cast_pow, Nat.cast_ofNat, ← zpow_natCast, hs',
        zpow_sub₀ (by norm_num), zpow_sub₀ (by norm_num)]
      field_simp
    rwa [hvalue]

end arithmetic

/-! ### Whole numbers that are doubles -/

/-- A double with a leading bit that is a whole number. -/
def IsWhole (u : UnpackedFloat) (n : ℕ) : Prop :=
  ∃ (m : ℕ) (e : ℤ) (hpos : 0 < m),
    u = .finite .positive m e hpos ∧ 2 ^ 52 ≤ m ∧ (m * 2 ^ e : ℚ) = n

/-- The number n · 2^e, with n moved to the left until it has a leading bit. -/
def moved (n : ℕ) (e : ℤ) (hpos : 0 < n) : UnpackedFloat :=
  .finite .positive (n * 2 ^ (52 - n.log2)) (e - (52 - n.log2 : ℕ)) (by positivity)

section whole

variable {n : ℕ} {e : ℤ} (hpos : 0 < n) (hn : n < 2 ^ 53)
include hpos hn

theorem leading_bit : 2 ^ 52 ≤ n * 2 ^ (52 - n.log2) ∧ n * 2 ^ (52 - n.log2) < 2 ^ 53 := by
  have hlog : n.log2 < 53 := (Nat.log2_lt hpos.ne').mpr hn
  constructor
  · calc 2 ^ 52 = 2 ^ n.log2 * 2 ^ (52 - n.log2) := by rw [← pow_add]; congr 1; omega
      _ ≤ n * 2 ^ (52 - n.log2) := Nat.mul_le_mul_right _ (Nat.log2_self_le hpos.ne')
  · calc n * 2 ^ (52 - n.log2) < 2 ^ (n.log2 + 1) * 2 ^ (52 - n.log2) :=
        Nat.mul_lt_mul_of_pos_right Nat.lt_log2_self (by positivity)
      _ = 2 ^ 53 := by rw [← pow_add]; congr 1; omega

omit hpos hn in
theorem moved_value : ((n * 2 ^ (52 - n.log2) : ℕ) : ℚ) * 2 ^ (e - (52 - n.log2 : ℕ) : ℤ) =
    n * 2 ^ e := by
  rw [zpow_sub₀ (by norm_num), zpow_natCast, Nat.cast_mul, Nat.cast_pow, Nat.cast_ofNat]
  field_simp

theorem canonical_moved (hleast : -1022 < e) (hgreatest : e ≤ 971) :
    Finite.Canonical ⟨n * 2 ^ (52 - n.log2), e - (52 - n.log2 : ℕ),
      n * 2 ^ (52 - n.log2) == 2 ^ 52⟩ where
  pos := by positivity
  lt := (leading_bit hpos hn).2
  least := by dsimp only; omega
  greatest := by dsimp only; omega
  leading := .inl (leading_bit hpos hn).1
  narrow := by
    rw [beq_iff_eq]
    dsimp only
    omega

theorem isWhole_moved (hleast : -1022 < e) (hgreatest : e ≤ 971) {k : ℕ}
    (hk : (n * 2 ^ e : ℚ) = k) :
    IsWhole (Float.Model.pack (moved n e hpos)).unpack k := by
  have hx := canonical_moved hpos hn hleast hgreatest
  refine ⟨n * 2 ^ (52 - n.log2), e - (52 - n.log2 : ℕ), hx.pos, Finite.unpack_pack hx _,
    (leading_bit hpos hn).1, ?_⟩
  rw [moved_value, hk]

theorem ofNat_eq_moved : UnpackedFloat.ofNat .binary64 n = moved n 0 hpos := by
  have hlog : n.log2 < 53 := (Nat.log2_lt hpos.ne').mpr hn
  have hhigh := (leading_bit hpos hn).2
  have hshift : ((0 : ℤ) - target n 0).toNat = 52 - n.log2 := by
    rw [target]
    omega
  rw [UnpackedFloat.ofNat, UnpackedFloat.ofInt, UnpackedFloat.normalize,
    Int.compare_eq_gt.mpr (by omega)]
  dsimp only
  rw [UnpackedFloat.round, targetExponent_eq, Int.toNat_natCast, decreaseExponent, hshift,
    Nat.shiftLeft_eq]
  exact roundWithAccuracy_fits _ (shift_fits hhigh (by omega)) (Nat.mul_pos hpos (by positivity))
    hhigh (by omega)

theorem isWhole_ofNat : IsWhole n.toUInt64.toFloat.toModel.unpack n := by
  have hword : n.toUInt64.toNat = n := Nat.mod_eq_of_lt (lt_trans hn (by decide))
  have hmodel : n.toUInt64.toFloat.toModel = .pack (moved n 0 hpos) := by
    rw [← ofNat_eq_moved hpos hn]
    show Float.Model.pack (UnpackedFloat.ofNat .binary64 n.toUInt64.toNat) = _
    rw [hword]
  rw [hmodel]
  exact isWhole_moved hpos hn (by decide) (by decide) (by simp)

end whole

/-- Of a power of ten, the factors two are in the exponent. -/
theorem power_eq_moved {e : ℕ} (he : e ≤ 22) :
    Float.exactlyRepresentablePowersOfTen[e]? =
      some ⟨.pack (moved (5 ^ e) e (Nat.pow_pos (by decide)))⟩ := by
  revert e
  decide +kernel

theorem isWhole_power {e : ℕ} (he : e ≤ 22)
    (hsize : e < Float.exactlyRepresentablePowersOfTen.size) :
    IsWhole Float.exactlyRepresentablePowersOfTen[e].toModel.unpack (10 ^ e) := by
  have hfive : 5 ^ e < 2 ^ 53 := lt_of_le_of_lt (Nat.pow_le_pow_right (by decide) he) (by decide)
  have hpower := power_eq_moved he
  rw [Array.getElem?_eq_getElem hsize] at hpower
  rw [Option.some_inj.mp hpower]
  refine isWhole_moved _ hfive (by omega) (by omega) ?_
  rw [zpow_natCast, Nat.cast_pow, Nat.cast_pow, ← mul_pow]
  norm_num

/-! ### The range of doubles -/

section range

variable {x : Finite} (hx : x.Canonical) {v : ℚ} (h : x.Covers v)
include hx h

theorem Finite.Covers.lt : v < 2 ^ 1024 := by
  have hmantissa : (x.mantissa : ℚ) + 1 ≤ 2 ^ 53 := by exact_mod_cast hx.lt
  have hexponent : (2 : ℚ) ^ x.exponent ≤ 2 ^ (971 : ℤ) :=
    zpow_le_zpow_right₀ (by norm_num) hx.greatest
  calc v ≤ (x.mantissa + 1 / 2) * 2 ^ x.exponent := h.high
    _ < 2 ^ 53 * 2 ^ x.exponent := mul_lt_mul_of_pos_right (by linarith) (by positivity)
    _ ≤ 2 ^ 53 * 2 ^ (971 : ℤ) := mul_le_mul_of_nonneg_left hexponent (by positivity)
    _ = 2 ^ 1024 := by rw [← zpow_natCast, ← zpow_natCast, ← zpow_add₀ (by norm_num)]; rfl

theorem Finite.Covers.ge : 1 ≤ v * 2 ^ 1075 := by
  have hmantissa : (1 : ℚ) ≤ x.mantissa := by exact_mod_cast hx.pos
  have hhalf : (1 / 2 : ℚ) ≤ x.mantissa - if x.narrowBelow then 1 / 4 else 1 / 2 := by
    split_ifs <;> linarith
  have hexponent : (2 : ℚ) ^ (-1074 : ℤ) ≤ 2 ^ x.exponent :=
    zpow_le_zpow_right₀ (by norm_num) hx.least
  have hlow : 1 / 2 * (2 : ℚ) ^ (-1074 : ℤ) ≤ v :=
    (mul_le_mul hhalf hexponent (by positivity) (by linarith)).trans h.low
  calc (1 : ℚ) = 1 / 2 * (2 : ℚ) ^ (-1074 : ℤ) * 2 ^ 1075 := by
        rw [zpow_neg, show (1074 : ℤ) = (1074 : ℕ) from rfl, zpow_natCast, pow_succ]
        field_simp
    _ ≤ v * 2 ^ 1075 := mul_le_mul_of_nonneg_right hlow (by positivity)

variable {n e : ℕ}

/-- A double covers no product with a larger power of ten. -/
theorem power_le (hpos : 0 < n) (hv : v = n * 10 ^ e) : e ≤ 341 := by
  have hn : (1 : ℚ) ≤ n := by exact_mod_cast hpos
  have hlt : (2 : ℚ) ^ (3 * e) < 2 ^ 1024 := by
    calc (2 : ℚ) ^ (3 * e) = 8 ^ e := by rw [pow_mul]; norm_num
      _ ≤ 10 ^ e := pow_le_pow_left₀ (by norm_num) (by norm_num) e
      _ ≤ n * 10 ^ e := le_mul_of_one_le_left (by positivity) hn
      _ < 2 ^ 1024 := hv ▸ h.lt hx
  have := (pow_lt_pow_iff_right₀ (by norm_num)).mp hlt
  omega

/-- A double covers no quotient by a larger power of ten. -/
theorem power_le_mul (hv : v = n / 10 ^ e) : 10 ^ e ≤ n * 2 ^ 1075 := by
  have hge := h.ge hx
  rw [hv, div_mul_eq_mul_div, one_le_div (by positivity)] at hge
  exact_mod_cast hge

end range

/-! ### Decimals -/

section decimals

variable {x : Finite} (hx : x.Canonical) {n e : ℕ} (hpos : 0 < n)
include hx hpos

/-- Beyond the doubles that are whole numbers, whole numbers are multiplied. -/
theorem ofScientific_model_up (h : x.Covers (n * 10 ^ e)) :
    UnpackedFloat.ofScientific .binary64 n (e : ℤ) =
      .finite .positive x.mantissa x.exponent hx.pos := by
  have he := power_le hx h hpos rfl
  have hbits : 52 ≤ ((n <<< 53) * 10 ^ (e : ℤ).toNat).log2 := by
    rw [Int.toNat_natCast, Nat.shiftLeft_eq, Nat.le_log2 (by positivity)]
    calc 2 ^ 52 ≤ 1 * 2 ^ 53 * 1 := by norm_num
      _ ≤ n * 2 ^ 53 * 10 ^ e :=
        Nat.mul_le_mul (Nat.mul_le_mul_right _ hpos) (Nat.pow_pos (by decide))
  have hlimit : (2 : ℤ) ^ Format.binary64.exponentBits = 2048 := rfl
  rw [UnpackedFloat.ofScientific, dif_neg hpos.ne', hlimit, if_neg (by omega), if_neg (by omega),
    if_pos (Int.natCast_nonneg e)]
  refine mul_eq hx _ _ hbits ?_
  have hvalue : ((n * 2 ^ Format.binary64.mantissaBits : ℕ) : ℚ) *
      2 ^ (-(Format.binary64.mantissaBits : ℤ)) * ((10 ^ e : ℕ) * 2 ^ (0 : ℤ)) = n * 10 ^ e := by
    rw [zpow_neg, zpow_natCast]
    push_cast
    field_simp
  rwa [Int.toNat_natCast, Nat.shiftLeft_eq, hvalue]

/-- Beyond the doubles that are whole numbers, whole numbers are divided. -/
theorem ofScientific_model_down (he : e ≠ 0) (h : x.Covers (n / 10 ^ e)) :
    UnpackedFloat.ofScientific .binary64 n (Int.negOfNat e) =
      .finite .positive x.mantissa x.exponent hx.pos := by
  have hle := power_le_mul hx h rfl
  have hexponent : Int.negOfNat e = -(e : ℤ) := Int.negOfNat_eq
  have hpower : (2 : ℤ) ^ Format.binary64.exponentBits = 2048 := rfl
  -- eight instead of ten is enough to keep away from the limit below which the result is zero
  have hlimit : e ≤ 2048 + n.log2 := by
    have hlt : 2 ^ (3 * e) < 2 ^ (n.log2 + 1076) := by
      calc 2 ^ (3 * e) = 8 ^ e := pow_mul 2 3 e
        _ ≤ 10 ^ e := Nat.pow_le_pow_left (by decide) e
        _ ≤ n * 2 ^ 1075 := hle
        _ < 2 ^ (n.log2 + 1) * 2 ^ 1075 :=
          Nat.mul_lt_mul_of_pos_right Nat.lt_log2_self (by positivity)
        _ = 2 ^ (n.log2 + 1076) := by rw [← pow_add]
    have := (Nat.pow_lt_pow_iff_right (by decide)).mp hlt
    omega
  rw [hexponent, UnpackedFloat.ofScientific, dif_neg hpos.ne', hpower, if_neg (by omega),
    if_neg (by omega), if_neg (by omega)]
  refine div_eq hx _ _ ?_
  rw [neg_neg, Int.toNat_natCast, zpow_zero, mul_one, mul_one]
  exact_mod_cast h

theorem ofScientific_up (h : x.Covers (n * 10 ^ e)) :
    Float.ofScientific n false e = ⟨.pack (.finite .positive x.mantissa x.exponent hx.pos)⟩ := by
  have he := power_le hx h hpos rfl
  -- if both factors are doubles, their product as doubles is rounded only once, too
  by_cases hsmall : n < 2 ^ 53 ∧ e ≤ 22
  · have hsize : e < Float.exactlyRepresentablePowersOfTen.size := Nat.lt_succ_of_le hsmall.2
    obtain ⟨m₁, e₁, h₁, hu₁, hm₁, hv₁⟩ := isWhole_ofNat hpos hsmall.1
    obtain ⟨m₂, e₂, h₂, hu₂, hm₂, hv₂⟩ := isWhole_power hsmall.2 hsize
    have hbits : 52 ≤ (m₁ * m₂).log2 :=
      (Nat.le_log2 (by positivity)).mpr (hm₁.trans (Nat.le_mul_of_pos_right _ h₂))
    have hcovers : x.Covers (m₁ * 2 ^ e₁ * (m₂ * 2 ^ e₂)) := by
      rw [hv₁, hv₂]
      exact_mod_cast h
    rw [Float.ofScientific, dif_pos hsmall]
    show (⟨.pack (UnpackedFloat.mul .binary64 n.toUInt64.toFloat.toModel.unpack
      (Float.exactlyRepresentablePowersOfTen[e]).toModel.unpack)⟩ : Float) = _
    rw [hu₁, hu₂, mul_eq hx h₁ h₂ hbits hcovers]
  · rw [Float.ofScientific, dif_neg hsmall]
    show (⟨.pack (UnpackedFloat.ofScientific .binary64 n (e : ℤ))⟩ : Float) = _
    rw [ofScientific_model_up hx hpos h]

theorem ofScientific_down (he : e ≠ 0) (h : x.Covers (n / 10 ^ e)) :
    Float.ofScientific n true e = ⟨.pack (.finite .positive x.mantissa x.exponent hx.pos)⟩ := by
  by_cases hsmall : n < 2 ^ 53 ∧ e ≤ 22
  · have hsize : e < Float.exactlyRepresentablePowersOfTen.size := Nat.lt_succ_of_le hsmall.2
    obtain ⟨m₁, e₁, h₁, hu₁, -, hv₁⟩ := isWhole_ofNat hpos hsmall.1
    obtain ⟨m₂, e₂, h₂, hu₂, -, hv₂⟩ := isWhole_power hsmall.2 hsize
    have hcovers : x.Covers (m₁ * 2 ^ e₁ / (m₂ * 2 ^ e₂)) := by
      rw [hv₁, hv₂]
      exact_mod_cast h
    rw [Float.ofScientific, dif_pos hsmall]
    show (⟨.pack (UnpackedFloat.div .binary64 n.toUInt64.toFloat.toModel.unpack
      (Float.exactlyRepresentablePowersOfTen[e]).toModel.unpack)⟩ : Float) = _
    rw [hu₁, hu₂, div_eq hx h₁ h₂ hcovers]
  · rw [Float.ofScientific, dif_neg hsmall]
    show (⟨.pack (UnpackedFloat.ofScientific .binary64 n (Int.negOfNat e))⟩ : Float) = _
    rw [ofScientific_model_down hx hpos he h]

end decimals

/-! ### Numerals -/

/-- A decimal is within the limits if a double covers it. -/
theorem within_limits {x : Finite} (hx : x.Canonical) {n length : ℕ} {p : ℤ} (hpos : 0 < n)
    (hlt : n < 10 ^ length) (h : x.Covers (n * 10 ^ p)) : -(400 + length : ℤ) ≤ p ∧ p ≤ 400 := by
  obtain ⟨e, rfl | rfl⟩ := p.eq_nat_or_neg
  · have := power_le hx h hpos rfl
    omega
  · have hle := power_le_mul hx h (n := n) (e := e) (by rw [zpow_neg, zpow_natCast, div_eq_mul_inv])
    have hpower : 10 ^ e < 10 ^ (length + 324) := by
      calc 10 ^ e ≤ n * 2 ^ 1075 := hle
        _ < 10 ^ length * 2 ^ 1075 := Nat.mul_lt_mul_of_pos_right hlt (by positivity)
        _ ≤ 10 ^ length * 10 ^ 324 := Nat.mul_le_mul_left _ (by decide +kernel)
        _ = 10 ^ (length + 324) := (pow_add _ _ _).symm
    have := (Nat.pow_lt_pow_iff_right (by decide)).mp hpower
    omega

theorem ofScientific_eq {x : Finite} (hx : x.Canonical) {n : ℕ} {p : ℤ} (hpos : 0 < n)
    (h : x.Covers (n * 10 ^ p)) :
    Float.ofScientific n (decide (p < 0)) p.natAbs =
      ⟨.pack (.finite .positive x.mantissa x.exponent hx.pos)⟩ := by
  obtain ⟨e, rfl | rfl⟩ := p.eq_nat_or_neg
  · rw [decide_eq_false (by omega), Int.natAbs_natCast]
    exact ofScientific_up hx hpos (by exact_mod_cast h)
  · rcases eq_or_ne e 0 with rfl | he
    · exact ofScientific_up hx hpos (by simpa using h)
    · rw [decide_eq_true (by omega), Int.natAbs_neg, Int.natAbs_natCast]
      rw [zpow_neg, zpow_natCast, ← div_eq_mul_inv] at h
      exact ofScientific_down hx hpos he h

theorem neg_pack {x : Finite} (hx : x.Canonical) :
    -(⟨.pack (.finite .positive x.mantissa x.exponent hx.pos)⟩ : Float) =
      ⟨.pack (.finite .negative x.mantissa x.exponent hx.pos)⟩ := by
  have hunpack := Finite.unpack_pack hx .positive
  show (⟨.pack (UnpackedFloat.neg (UnpackedFloat.unpack .binary64
    (UnpackedFloat.pack .binary64 _)))⟩ : Float) = _
  rw [hunpack]
  rfl

/-- **A numeral that a double covers is read as this double.** -/
theorem Numeral.toFloat_eq {x : Finite} (hx : x.Canonical) {num : Numeral}
    (hdigits : ∀ c ∈ num.whole ++ num.fraction, isDigit c = true)
    (hpos : 0 < ofDigits (num.whole ++ num.fraction))
    (h : x.Covers (ofDigits (num.whole ++ num.fraction) *
      10 ^ (num.exponent - num.fraction.length : ℤ))) :
    num.toFloat = ⟨.pack (.finite (signOf num.negative) x.mantissa x.exponent hx.pos)⟩ := by
  obtain ⟨hleast, hgreatest⟩ := within_limits hx hpos (ofDigits_lt hdigits) h
  have hmagnitude := ofScientific_eq hx hpos h
  rw [toFloat, beq_eq_false_iff_ne.mpr hpos.ne', if_neg Bool.false_ne_true,
    if_neg (not_lt.mpr hgreatest), if_neg (not_lt.mpr hleast), hmagnitude, neg_pack hx]
  cases num.negative <;> rfl

end KeyLayout.Decimal

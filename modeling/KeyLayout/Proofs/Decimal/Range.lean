/-
Arithmetic that stays finite.

The size of a number m · 2^e is the exponent of its leading bit.  Rounding adds at most one to it
(`roundWithAccuracy_below`), and packing leaves a number of moderate size as it is or makes it
smaller (`Below.pack`).  So a quotient of a number of moderate size is finite if its divisor is not
below one, and a product of finite numbers is finite unless it is infinite: it is always a number
(`isFinite_mul`).
-/
import Mathlib
import KeyLayout.Proofs.Decimal.Whole

namespace KeyLayout.Decimal

open Float.Model (Format UnpackedFloat totalExponent)
open Float.Model.UnpackedFloat

/-- The number is zero or its leading bit has at most this exponent. -/
def Below (bound : ℤ) : UnpackedFloat → Prop
  | .zero _ => True
  | .finite _ m e _ => m.log2 + e ≤ bound
  | _ => False

/-- The number is positive and its leading bit is not behind the point. -/
def NotBelowOne : UnpackedFloat → Prop
  | .finite .positive m e _ => 0 ≤ m.log2 + e
  | _ => False

instance : DecidablePred NotBelowOne
  | .finite .positive m e _ => inferInstanceAs (Decidable (0 ≤ (m.log2 : ℤ) + e))
  | .finite .negative _ _ _ | .zero _ | .infinity _ | .notANumber => isFalse id

theorem NotBelowOne.exists_finite {u : UnpackedFloat} (h : NotBelowOne u) :
    ∃ m e hpos, u = .finite .positive m e hpos ∧ 0 ≤ (m.log2 : ℤ) + e := by
  cases u with
  | finite s m e hpos =>
    cases s with
    | positive => exact ⟨m, e, hpos, rfl, h⟩
    | negative => exact h.elim
  | _ => exact h.elim

theorem Below.mono {bound bound' : ℤ} {u : UnpackedFloat} (h : Below bound u)
    (hle : bound ≤ bound') : Below bound' u := by
  cases u with
  | zero => trivial
  | finite => exact le_trans h hle
  | _ => exact h.elim

theorem Below.ne_nan {bound : ℤ} {u : UnpackedFloat} (h : Below bound u) : u ≠ .notANumber := by
  rintro rfl
  exact h

/-! ### Rounding -/

theorem log2_half (m : ℕ) : (m / 2).log2 = m.log2 - 1 := by
  rcases lt_or_ge m 2 with hm | hm
  · interval_cases m <;> rfl
  · rw [Nat.log2_def m, if_pos hm, Nat.add_sub_cancel]

theorem log2_shiftRight (em : ExtendedMantissa) (n : ℕ) :
    (em >>> n).mantissa.log2 = em.mantissa.log2 - n := by
  induction n with
  | zero => rfl
  | succ n ih =>
    show ((em >>> n).mantissa / 2).log2 = _
    rw [log2_half, ih, Nat.sub_sub]

theorem roundedMantissa_bounds (em : ExtendedMantissa) :
    em.mantissa ≤ em.roundedMantissa ∧ em.roundedMantissa ≤ em.mantissa + 1 := by
  obtain ⟨m, round, sticky⟩ := em
  cases round <;> cases sticky <;>
    simp only [ExtendedMantissa.roundedMantissa, ExtendedMantissa.accuracy,
      Accuracy.roundToNearestEven] <;> omega

/-- Rounding moves the leading bit by one place at most. -/
theorem log2_roundedMantissa_le (em : ExtendedMantissa) :
    em.roundedMantissa.log2 ≤ em.mantissa.log2 + 1 := by
  rcases Nat.eq_zero_or_pos em.roundedMantissa with hzero | hpos
  · rw [hzero]
    exact Nat.zero_le _
  · refine Nat.le_of_lt_succ ((Nat.log2_lt hpos.ne').mpr ?_)
    calc em.roundedMantissa ≤ em.mantissa + 1 := (roundedMantissa_bounds em).2
      _ ≤ 2 ^ (em.mantissa.log2 + 1) := Nat.lt_log2_self
      _ < 2 ^ (em.mantissa.log2 + 1 + 1) := Nat.pow_lt_pow_right (by decide) (Nat.lt_succ_self _)

theorem le_log2_roundedMantissa (em : ExtendedMantissa) :
    em.mantissa.log2 ≤ em.roundedMantissa.log2 := by
  have hle := (roundedMantissa_bounds em).1
  rcases Nat.eq_zero_or_pos em.mantissa with hzero | hpos
  · rw [hzero]
    exact Nat.zero_le _
  · exact (Nat.le_log2 (hpos.trans_le hle).ne').mpr ((Nat.log2_self_le hpos.ne').trans hle)

section round

variable {m : ℕ} {e t : ℤ} {acc : Accuracy} {em : ExtendedMantissa}

/-- Bits that are dropped leave the leading one, unless a number is too small to be told from
zero. -/
theorem shift_size (h : shiftToTargetExponent .binary64 m e acc = (em, t)) :
    em.mantissa.log2 + t ≤ max (m.log2 + e) (-1074) := by
  rw [shiftToTargetExponent, targetExponent_eq, shiftToExponent] at h
  obtain ⟨rfl, rfl⟩ := Prod.mk.inj h
  rw [log2_shiftRight, mantissa_ofMantissaAndAccuracy, target]
  omega

theorem roundWithAccuracy_below (s : Sign) {bound : ℤ} (h : m.log2 + e ≤ bound)
    (hbound : -1074 ≤ bound) : Below (bound + 1) (roundWithAccuracy .binary64 s m e acc) := by
  rw [roundWithAccuracy]
  rcases hfirst : shiftToTargetExponent .binary64 m e acc with ⟨em, t⟩
  dsimp only
  rcases hsecond : shiftToTargetExponent .binary64 em.roundedMantissa t .exact with ⟨em', t'⟩
  dsimp only
  split_ifs
  · trivial
  · -- the number is shifted twice but rounded once, and only rounding can make it larger
    have hsize := shift_size hfirst
    have hround := log2_roundedMantissa_le em
    have hsize' := shift_size hsecond
    show (em'.mantissa.log2 : ℤ) + t' ≤ bound + 1
    omega

/-- A number with enough bits is moved until it has fifty-three of them. -/
theorem shift_normal (h : shiftToTargetExponent .binary64 m e acc = (em, t)) (hbits : 52 ≤ m.log2)
    (hnormal : -1022 ≤ m.log2 + e) : em.mantissa.log2 = 52 ∧ t = m.log2 + e - 52 := by
  rw [shiftToTargetExponent, targetExponent_eq, shiftToExponent] at h
  obtain ⟨rfl, rfl⟩ := Prod.mk.inj h
  rw [log2_shiftRight, mantissa_ofMantissaAndAccuracy, target]
  omega

theorem roundWithAccuracy_normal (s : Sign) (hbits : 52 ≤ m.log2) (hnormal : -1022 ≤ m.log2 + e) :
    ∃ m' e' hpos, roundWithAccuracy .binary64 s m e acc = .finite s m' e' hpos ∧
      m'.log2 = 52 ∧ m.log2 + e ≤ 52 + e' := by
  rw [roundWithAccuracy]
  rcases hfirst : shiftToTargetExponent .binary64 m e acc with ⟨em, t⟩
  dsimp only
  rcases hsecond : shiftToTargetExponent .binary64 em.roundedMantissa t .exact with ⟨em', t'⟩
  dsimp only
  obtain ⟨hlog, ht⟩ := shift_normal hfirst hbits hnormal
  have hround := le_log2_roundedMantissa em
  obtain ⟨hlog', ht'⟩ := shift_normal hsecond (by omega) (by omega)
  have hne : em'.mantissa ≠ 0 := by
    intro hzero
    rw [hzero, Nat.log2_zero] at hlog'
    omega
  rw [dif_neg hne]
  exact ⟨_, _, _, rfl, hlog', by omega⟩

end round

/-! ### Packing -/

theorem log2_leading {fraction : ℕ} (h : fraction < 2 ^ 52) : (2 ^ 52 + fraction).log2 = 52 := by
  rw [Nat.log2_eq_iff (by omega)]
  omega

/-- What is stored with an exponent that is not the greatest one is a number. -/
theorem below_decoded (s : Sign) {biased fraction : ℕ} (hbiased : biased < 2047)
    (hfraction : fraction < 2 ^ 52) :
    Below (max (-1023) (biased - 1023)) (decoded s biased fraction) := by
  have hlog : fraction ≠ 0 → fraction.log2 < 52 := fun hne => (Nat.log2_lt hne).mpr hfraction
  rw [decoded, if_neg hbiased.ne]
  split_ifs with hzero hnothing
  · trivial
  · show (fraction.log2 : ℤ) + -1074 ≤ _
    have := hlog hnothing
    omega
  · have hleading := log2_leading hfraction
    show ((2 ^ 52 + fraction).log2 : ℤ) + (biased - 1075) ≤ _
    omega

/-- Without a leading bit the exponent is stored as zero, whatever it is. -/
theorem unpack_pack_finite (s : Sign) {m : ℕ} {e : ℤ} (hpos : 0 < m) :
    (Float.Model.pack (.finite s m e hpos)).unpack =
      if 971 < e then .infinity s
      else decoded s (if m.log2 = 52 then (e + 1075).toNat else 0) (m % 2 ^ 52) := by
  have hbias : (Format.binary64.exponentBias : ℤ) = 1023 := rfl
  show UnpackedFloat.unpack .binary64 (UnpackedFloat.pack .binary64 (.finite s m e hpos)) = _
  rw [UnpackedFloat.pack]
  dsimp only
  rw [hbias]
  by_cases hlarge : 971 < e
  · rw [if_pos (by show 2 ^ 11 ≤ _; omega), if_pos hlarge]
    cases s <;> rfl
  rw [if_neg (by show ¬2 ^ 11 ≤ _; omega), if_neg hlarge]
  have hbits : m.log2 + 1 = Format.binary64.mantissaBits ↔ m.log2 = 52 := Nat.succ_inj
  have hcomponents : ∀ {biased : ℕ}, biased < 2 ^ 11 →
      UnpackedFloat.unpack .binary64 (packComponents .binary64 s (.ofNat 11 biased) (.ofNat 52 m)) =
        decoded s biased (m % 2 ^ 52) := by
    intro biased hlt
    rw [unpack_eq, unpackSign_packComponents, Sign.ofBitVec_toBitVec, unpackExponent_packComponents,
      unpackMantissa_packComponents, BitVec.toNat_ofNat, BitVec.toNat_ofNat, Nat.mod_eq_of_lt hlt]
  by_cases hleading : m.log2 = 52
  · rw [if_pos (hbits.mpr hleading), if_pos hleading, add_assoc]
    exact hcomponents (by omega)
  · rw [if_neg (mt hbits.mp hleading), if_neg hleading]
    exact hcomponents (by decide)

/-- Packing does not make a number of moderate size larger. -/
theorem Below.pack {bound : ℤ} {u : UnpackedFloat} (h : Below bound u) (hleast : -1022 ≤ bound)
    (hgreatest : bound < 972) : Below bound (Float.Model.pack u).unpack := by
  cases u with
  | zero s => cases s <;> trivial
  | finite s m e hpos =>
    have hsize : (m.log2 : ℤ) + e ≤ bound := h
    have hfraction : m % 2 ^ 52 < 2 ^ 52 := Nat.mod_lt _ (by decide)
    rw [unpack_pack_finite, if_neg (by omega)]
    split_ifs
    · exact (below_decoded s (by omega) hfraction).mono (by omega)
    · exact (below_decoded s (by omega) hfraction).mono (by omega)
  | _ => exact h.elim

/-- What is packed as a number is found as a number. -/
theorem unpack_pack_ne_nan {u : UnpackedFloat} (h : u ≠ .notANumber) :
    (Float.Model.pack u).unpack ≠ .notANumber := by
  cases u with
  | notANumber => exact absurd rfl h
  | infinity s =>
    have hsame : (Float.Model.pack (.infinity s)).unpack = .infinity s := by cases s <;> rfl
    rw [hsame]
    exact nofun
  | zero s =>
    have hsame : (Float.Model.pack (.zero s)).unpack = .zero s := by cases s <;> rfl
    rw [hsame]
    exact nofun
  | finite s m e hpos =>
    have hfraction : m % 2 ^ 52 < 2 ^ 52 := Nat.mod_lt _ (by decide)
    rw [unpack_pack_finite]
    split_ifs
    · exact nofun
    · exact (below_decoded s (by omega) hfraction).ne_nan
    · exact (below_decoded s (by omega) hfraction).ne_nan

/-! ### Finite doubles -/

/-- A double is finite if its size is bounded at all. -/
theorem Below.isFinite {bound : ℤ} {x : Float} (h : Below bound x.toModel.unpack) :
    x.isFinite = true := by
  rw [Float.isFinite, Float.Model.isFinite]
  generalize x.toModel.unpack = u at h
  cases u with
  | zero => rfl
  | finite => rfl
  | _ => exact h.elim

/-- A product of finite numbers is finite if it is not infinite. -/
theorem isFinite_mul {x y : Float} (hx : x.isFinite = true) (hy : y.isFinite = true)
    (h : (x * y).isInf = false) : (x * y).isFinite = true := by
  -- only zero times infinity is no number
  have hnumber : (x * y).toModel.unpack ≠ .notANumber := by
    refine unpack_pack_ne_nan ?_
    rw [Float.isFinite, Float.Model.isFinite] at hx hy
    generalize x.toModel.unpack = u at hx
    generalize y.toModel.unpack = w at hy
    cases u with
    | zero =>
      cases w with
      | zero => simp [UnpackedFloat.mul]
      | finite => simp [UnpackedFloat.mul]
      | _ => cases hy
    | finite =>
      cases w with
      | zero => simp [UnpackedFloat.mul]
      | finite =>
        rw [UnpackedFloat.mul, roundWithAccuracy]
        dsimp only
        split_ifs <;> simp
      | _ => cases hy
    | _ => cases hx
  rw [Float.isInf, Float.Model.isInf] at h
  rw [Float.isFinite, Float.Model.isFinite]
  generalize (x * y).toModel.unpack = u at h hnumber
  cases u with
  | notANumber => exact absurd rfl hnumber
  | infinity => cases h
  | _ => rfl

/-- The exponent of the leading bit of a quotient, before it is rounded. -/
theorem divCore_size {m₁ m₂ : ℕ} {e₁ e₂ : ℤ} (h₂ : 0 < m₂) (hone : 0 ≤ m₂.log2 + e₂) :
    ((divCore .binary64 m₁ e₁ m₂ e₂).1.log2 : ℤ) + (divCore .binary64 m₁ e₁ m₂ e₂).2.1 ≤
      max (m₁.log2 + e₁) (-1074) := by
  have htarget : Format.binary64.targetExponent (totalExponent m₁ e₁ - totalExponent m₂ e₂) =
      max (m₁.log2 + e₁ - (m₂.log2 + e₂) - 53) (-1074) := by
    simp only [totalExponent, Format.targetExponent, Format.minExponent, Format.mantissaBits]
    omega
  rw [divCore, htarget]
  dsimp only
  generalize ht : min (e₁ - e₂) (max (m₁.log2 + e₁ - (m₂.log2 + e₂) - 53) (-1074)) = t
  generalize hs : (e₁ - e₂ - t).toNat = s
  rcases Nat.eq_zero_or_pos ((m₁ <<< s) / m₂) with hzero | hpos
  · rw [hzero, Nat.log2_zero]
    omega
  · -- the quotient times the divisor is not more than the dividend
    have hquotient : ((m₁ <<< s) / m₂).log2 + m₂.log2 < m₁.log2 + 1 + s := by
      refine (Nat.pow_lt_pow_iff_right (by decide : 1 < 2)).mp ?_
      calc 2 ^ (((m₁ <<< s) / m₂).log2 + m₂.log2)
          = 2 ^ ((m₁ <<< s) / m₂).log2 * 2 ^ m₂.log2 := pow_add _ _ _
        _ ≤ (m₁ <<< s) / m₂ * m₂ :=
            Nat.mul_le_mul (Nat.log2_self_le hpos.ne') (Nat.log2_self_le h₂.ne')
        _ ≤ m₁ <<< s := Nat.div_mul_le_self _ _
        _ = m₁ * 2 ^ s := Nat.shiftLeft_eq _ _
        _ < 2 ^ (m₁.log2 + 1) * 2 ^ s :=
            Nat.mul_lt_mul_of_pos_right Nat.lt_log2_self (by positivity)
        _ = 2 ^ (m₁.log2 + 1 + s) := (pow_add _ _ _).symm
    omega

/-- A quotient is not larger than the dividend if the divisor is not below one. -/
theorem below_div {bound : ℤ} {x y : Float} (hx : Below bound x.toModel.unpack)
    (hy : NotBelowOne y.toModel.unpack)
    (hleast : -1022 ≤ bound) (hgreatest : bound < 971) :
    Below (bound + 1) (x / y).toModel.unpack := by
  refine Below.pack ?_ (by omega) (by omega)
  show Below _ (UnpackedFloat.div .binary64 x.toModel.unpack y.toModel.unpack)
  obtain ⟨m, e, hpos, hfinite, hone⟩ := hy.exists_finite
  rw [hfinite]
  generalize x.toModel.unpack = u at hx
  cases u with
  | zero => trivial
  | finite s m₁ e₁ hpos₁ =>
    have hsize := @divCore_size m₁ m e₁ e hpos hone
    have hx' : (m₁.log2 : ℤ) + e₁ ≤ bound := hx
    rw [UnpackedFloat.div]
    rcases hcore : divCore .binary64 m₁ e₁ m e with ⟨q, t, acc⟩
    rw [hcore] at hsize
    dsimp only at hsize
    exact roundWithAccuracy_below _ (by omega) (by omega)
  | _ => exact hx.elim

theorem isFinite_neg {x : Float} (h : x.isFinite = true) : (-x).isFinite = true := by
  have hunpacks := unpacks x
  rw [Float.isFinite, Float.Model.isFinite] at h ⊢
  show (Float.Model.pack x.toModel.unpack.neg).unpack.isFinite = true
  generalize kindOf x = kind at hunpacks
  generalize x.toModel.unpack = u at h hunpacks
  cases hunpacks with
  | zero negative => cases negative <;> rfl
  | finite negative hx =>
    exact congrArg UnpackedFloat.isFinite (Finite.unpack_pack hx (-signOf negative))
  | _ => cases h

/-! ### Whole numbers and powers of ten -/

section decimals

variable {n k : ℕ}

/-- Decimals that are not written with two small whole doubles are rounded once. -/
theorem unpack_ofScientific (hpos : 0 < n) (hk : k ≤ 2048) (h : ¬(n < 2 ^ 53 ∧ k ≤ 22)) :
    (Float.ofScientific n false k).toModel.unpack = (Float.Model.pack
      (roundWithAccuracy .binary64 .positive (n * 2 ^ 53 * 10 ^ k) (-53) .exact)).unpack := by
  have hlimit : (2 : ℤ) ^ Format.binary64.exponentBits = 2048 := rfl
  have hmodel : UnpackedFloat.ofScientific .binary64 n (k : ℤ) =
      roundWithAccuracy .binary64 .positive (n * 2 ^ 53 * 10 ^ k) (-53) .exact := by
    rw [UnpackedFloat.ofScientific, dif_neg hpos.ne', hlimit, if_neg (by omega),
      if_neg (by omega), if_pos (Int.natCast_nonneg k)]
    show roundWithAccuracy .binary64 .positive (n <<< 53 * 10 ^ k) (-53) .exact = _
    rw [Nat.shiftLeft_eq]
  rw [Float.ofScientific, dif_neg h, ← hmodel]
  rfl

theorem below_ofNat (hn : n < 2 ^ 64) : Below 64 (Float.ofNat n).toModel.unpack := by
  rcases n.eq_zero_or_pos with rfl | hpos
  · exact trivial
  by_cases hsmall : n < 2 ^ 53
  · -- such a number is a double as it is
    have hlog := (Nat.log2_lt (Nat.mul_pos hpos (by positivity)).ne').mpr
      (leading_bit hpos hsmall).2
    rw [unpack_ofNat hpos hsmall]
    show ((n * 2 ^ (52 - n.log2)).log2 : ℤ) + (0 - (52 - n.log2 : ℕ)) ≤ 64
    omega
  · show Below 64 (Float.ofScientific n false 0).toModel.unpack
    rw [unpack_ofScientific hpos (by decide) (by omega)]
    have hlog : (n * 2 ^ 53 * 10 ^ 0).log2 < 117 :=
      (Nat.log2_lt (by positivity)).mpr (by omega)
    have hbelow : Below (63 + 1)
        (roundWithAccuracy .binary64 .positive (n * 2 ^ 53 * 10 ^ 0) (-53) .exact) :=
      roundWithAccuracy_below .positive (by omega) (by decide)
    exact hbelow.pack (by decide) (by decide)

/-- The powers of ten that are doubles are not below one. -/
theorem notBelowOne_power (hk : k ≤ 308) :
    NotBelowOne (Float.ofScientific 1 false k).toModel.unpack := by
  -- the small powers are products of two doubles, and the greatest one might be rounded too far
  have hclosed : ∀ k ∈ 308 :: List.range 23,
      NotBelowOne (Float.ofScientific 1 false k).toModel.unpack := by decide +kernel
  by_cases hmem : k ∈ 308 :: List.range 23
  · exact hclosed k hmem
  rw [List.mem_cons, List.mem_range, not_or] at hmem
  generalize hm : 1 * 2 ^ 53 * 10 ^ k = m
  have hm₀ : 0 < m := by
    rw [← hm]
    positivity
  have hgreatest : m.log2 < 1075 := by
    refine (Nat.log2_lt hm₀.ne').mpr ?_
    calc m = 1 * 2 ^ 53 * 10 ^ k := hm.symm
      _ ≤ 1 * 2 ^ 53 * 10 ^ 307 :=
          Nat.mul_le_mul_left _ (Nat.pow_le_pow_right (by decide) (by omega))
      _ < 2 ^ 1075 := by decide +kernel
  have hleast : 53 ≤ m.log2 := by
    refine (Nat.le_log2 hm₀.ne').mpr ?_
    rw [← hm, one_mul]
    exact Nat.le_mul_of_pos_right _ (by positivity)
  -- all other ones are rounded once, to a normal number that is not out of range
  obtain ⟨m', e', hpos, hround, hlog, hle⟩ :=
    @roundWithAccuracy_normal m (-53) .exact .positive (by omega) (by omega)
  have hbelow : Below (1021 + 1) (roundWithAccuracy .binary64 .positive m (-53) .exact) :=
    roundWithAccuracy_below .positive (by omega) (by decide)
  rw [hround] at hbelow
  have hsize : (m'.log2 : ℤ) + e' ≤ 1021 + 1 := hbelow
  have hfraction : m' % 2 ^ 52 < 2 ^ 52 := Nat.mod_lt _ (by decide)
  rw [unpack_ofScientific (by decide) (by omega) (by omega), hm, hround, unpack_pack_finite,
    if_neg (by omega), if_pos hlog, decoded, if_neg (by omega), if_neg (by omega)]
  show 0 ≤ ((2 ^ 52 + m' % 2 ^ 52).log2 : ℤ) + ((e' + 1075).toNat - 1075)
  rw [log2_leading hfraction]
  omega

end decimals

end KeyLayout.Decimal

/-
The bits of a double.

The model of floating-point numbers takes a double apart into sign, mantissa and exponent, and so
does `kindOf`; both find the same (`unpacks`).  A number that was packed is found again
(`unpack_pack`), and a double is what is found in it, packed (`eq_pack_unpack`).
-/
import KeyLayout.Proofs.Decimal.Rounding

namespace KeyLayout.Decimal

open Float.Model (Format UnpackedFloat)
open Float.Model.UnpackedFloat

/-! ### The parts of sixty-four bits -/

section components

variable (b : BitVec Format.binary64.numBits)

theorem toNat_unpackExponent : (unpackExponent b).toNat = b.toNat / 2 ^ 52 % 2 ^ 11 := by
  rw [unpackExponent, BitVec.toNat_cast, BitVec.extractLsb_toNat, Nat.shiftRight_eq_div_pow]
  rfl

theorem toNat_unpackMantissa : (unpackMantissa b).toNat = b.toNat % 2 ^ 52 := by
  rw [unpackMantissa, BitVec.toNat_cast, BitVec.extractLsb_toNat, Nat.shiftRight_eq_div_pow,
    pow_zero, Nat.div_one]
  rfl

theorem toNat_unpackSign : (unpackSign b).toNat = b.toNat / 2 ^ 63 := by
  have hlt : b.toNat < 2 ^ 64 := b.isLt
  rw [unpackSign, BitVec.toNat_cast, BitVec.extractLsb_toNat, Nat.shiftRight_eq_div_pow]
  exact Nat.mod_eq_of_lt (by show b.toNat / 2 ^ 63 < 2 ^ 1; omega)

end components

/-! ### What the parts mean -/

/-- The number with these parts: the sign, the exponent as it is stored, and the fraction. -/
def decoded (s : Sign) (biased fraction : ℕ) : UnpackedFloat :=
  if biased = 2047 then if fraction = 0 then .infinity s else .notANumber
  else if biased = 0 then
    if h : fraction = 0 then .zero s else .finite s fraction (-1074) (Nat.pos_of_ne_zero h)
  else .finite s (2 ^ 52 + fraction) (biased - 1075) (by positivity)

theorem unpack_eq (b : BitVec Format.binary64.numBits) :
    UnpackedFloat.unpack .binary64 b =
      decoded (Sign.ofBitVec (unpackSign b)) (unpackExponent b).toNat (unpackMantissa b).toNat := by
  have hbias : (Format.binary64.exponentBias : ℤ) = 1023 := rfl
  have hones : unpackExponent b = -1#11 ↔ (unpackExponent b).toNat = 2047 := BitVec.toNat_inj.symm
  have hzeros : unpackExponent b = 0#11 ↔ (unpackExponent b).toNat = 0 := BitVec.toNat_inj.symm
  have hnothing : unpackMantissa b = 0#52 ↔ (unpackMantissa b).toNat = 0 := BitVec.toNat_inj.symm
  have himplicit : (1#1 ++ unpackMantissa b).toNat = 2 ^ 52 + (unpackMantissa b).toNat := by
    rw [BitVec.toNat_append, ← Nat.shiftLeft_add_eq_or_of_lt (unpackMantissa b).isLt]
    rfl
  rw [UnpackedFloat.unpack, decoded]
  simp only [hones, hzeros, hnothing, hbias, himplicit]
  split_ifs with hexponent hfraction hbiased hfraction
  · rfl
  · rfl
  · rfl
  · rw [hbiased]
    rfl
  · rfl

/-! ### Finite numbers -/

theorem canonical_subnormal {fraction : ℕ} (hpos : 0 < fraction) (hlt : fraction < 2 ^ 52) :
    Finite.Canonical ⟨fraction, -1074, false⟩ where
  pos := hpos
  lt := by dsimp only; omega
  least := le_refl _
  greatest := by dsimp only; decide
  leading := .inr rfl
  narrow := by simp

theorem canonical_normal {biased fraction : ℕ} (hpos : 0 < biased) (hbiased : biased < 2047)
    (hlt : fraction < 2 ^ 52) :
    Finite.Canonical ⟨2 ^ 52 + fraction, biased - 1075, fraction == 0 && 1 < biased⟩ where
  pos := by positivity
  lt := by dsimp only; omega
  least := by dsimp only; omega
  greatest := by dsimp only; omega
  leading := .inl (Nat.le_add_right _ _)
  narrow := by
    rw [Bool.and_eq_true, beq_iff_eq, decide_eq_true_eq]
    dsimp only
    omega

namespace Finite

/-- The exponent as it is stored; it is zero without a leading bit. -/
def biased (x : Finite) : ℕ := if 2 ^ 52 ≤ x.mantissa then (x.exponent + 1075).toNat else 0

variable {x : Finite} (hx : x.Canonical) (s : Sign)
include hx

theorem Canonical.biased_lt : x.biased < 2047 := by
  have hgreatest := hx.greatest
  rw [biased]
  split_ifs <;> omega

theorem pack_eq :
    UnpackedFloat.pack .binary64 (.finite s x.mantissa x.exponent hx.pos) =
      packComponents .binary64 s (.ofNat 11 x.biased) (.ofNat 52 x.mantissa) := by
  have hleast := hx.least
  have hgreatest := hx.greatest
  have hbias : (Format.binary64.exponentBias : ℤ) = 1023 := rfl
  have hbits : x.mantissa.log2 + 1 = Format.binary64.mantissaBits ↔ 2 ^ 52 ≤ x.mantissa := by
    have hlog := (Nat.log2_lt hx.pos.ne').mpr hx.lt
    rw [← Nat.le_log2 hx.pos.ne']
    show x.mantissa.log2 + 1 = 53 ↔ _
    omega
  rw [UnpackedFloat.pack]
  dsimp only
  rw [hbias, if_neg (by show ¬2 ^ 11 ≤ _; omega), biased]
  by_cases hleading : 2 ^ 52 ≤ x.mantissa
  · rw [if_pos (hbits.mpr hleading), if_pos hleading, add_assoc]
    rfl
  · rw [if_neg (mt hbits.mp hleading), if_neg hleading]

/-- A number that was packed is found again. -/
theorem unpack_pack :
    UnpackedFloat.unpack .binary64 (UnpackedFloat.pack .binary64
        (.finite s x.mantissa x.exponent hx.pos)) = .finite s x.mantissa x.exponent hx.pos := by
  have hbiased := hx.biased_lt
  have hpos := hx.pos
  have hlt := hx.lt
  have hleast := hx.least
  rw [unpack_eq, pack_eq hx, unpackSign_packComponents, Sign.ofBitVec_toBitVec,
    unpackExponent_packComponents, unpackMantissa_packComponents, BitVec.toNat_ofNat,
    BitVec.toNat_ofNat]
  show decoded s (x.biased % 2 ^ 11) (x.mantissa % 2 ^ 52) = _
  rw [Nat.mod_eq_of_lt (by omega : x.biased < 2 ^ 11), decoded, if_neg hbiased.ne]
  -- a leading bit is not stored, but the exponent tells that it is there
  by_cases hleading : 2 ^ 52 ≤ x.mantissa
  · have hmantissa : 2 ^ 52 + x.mantissa % 2 ^ 52 = x.mantissa := by omega
    have hexponent : x.biased = x.exponent + 1075 := by
      rw [biased, if_pos hleading]
      omega
    rw [if_neg (by omega)]
    congr 1
    omega
  · have hmantissa : x.mantissa % 2 ^ 52 = x.mantissa := Nat.mod_eq_of_lt (by omega)
    have hzero : x.biased = 0 := by rw [biased, if_neg hleading]
    have hexponent := hx.leading.resolve_left hleading
    rw [if_pos hzero, dif_neg (by omega)]
    congr 1
    omega

end Finite

/-! ### What is found in a double -/

def signOf (negative : Bool) : Sign := if negative then .negative else .positive

/-- What is found in a double of each kind. -/
inductive Unpacks : Kind → UnpackedFloat → Prop
  | nan : Unpacks .nan .notANumber
  | infinite (negative : Bool) : Unpacks (.infinite negative) (.infinity (signOf negative))
  | zero (negative : Bool) : Unpacks (.zero negative) (.zero (signOf negative))
  | finite (negative : Bool) {x : Finite} (hx : x.Canonical) :
    Unpacks (.finite negative x) (.finite (signOf negative) x.mantissa x.exponent hx.pos)

/-- Both ways to take a double apart find the same. -/
theorem unpacks (x : Float) : Unpacks (kindOf x) x.toModel.unpack := by
  have hbits : x.toBits.toNat = x.toModel.toBits.toBitVec.toNat := rfl
  have hsign : Sign.ofBitVec (@unpackSign .binary64 x.toModel.toBits.toBitVec) =
      signOf (x.toBits.toNat / 2 ^ 63 == 1) := by
    have hlt : x.toBits.toNat < 2 ^ 64 := x.toModel.toBits.toBitVec.isLt
    have hzero : @unpackSign .binary64 x.toModel.toBits.toBitVec = 0#1 ↔
        ¬x.toBits.toNat / 2 ^ 63 = 1 := by
      rw [← BitVec.toNat_inj, toNat_unpackSign, ← hbits]
      show x.toBits.toNat / 2 ^ 63 = 0 ↔ _
      omega
    simp only [Sign.ofBitVec, signOf, hzero, beq_iff_eq]
    split_ifs <;> rfl
  rw [Float.Model.unpack, unpack_eq, hsign, toNat_unpackExponent, toNat_unpackMantissa, ← hbits,
    decoded, kindOf]
  dsimp only [Nat.pow_eq]
  have hfraction : x.toBits.toNat % 2 ^ 52 < 2 ^ 52 := Nat.mod_lt _ (by decide)
  have hbiased : x.toBits.toNat / 2 ^ 52 % 2 ^ 11 < 2 ^ 11 := Nat.mod_lt _ (by decide)
  -- both sides now ask the same of the same parts
  generalize x.toBits.toNat / 2 ^ 52 % 2 ^ 11 = biased at *
  generalize x.toBits.toNat % 2 ^ 52 = fraction at *
  simp only [beq_iff_eq]
  split_ifs with hones hnothing hzeros hnothing
  · exact .infinite _
  · exact .nan
  · exact .zero _
  · exact .finite _ (canonical_subnormal (Nat.pos_of_ne_zero hnothing) hfraction)
  · exact .finite _ (canonical_normal (Nat.pos_of_ne_zero hzeros) (by omega) hfraction)

/-- A double is what is found in it, packed. -/
theorem eq_pack_unpack (x : Float) : x = ⟨.pack x.toModel.unpack⟩ :=
  (Float.ofBits_toBits x).symm

end KeyLayout.Decimal

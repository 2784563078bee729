/-
The numbers of a JSON text are finite.

A double is made of digits that fit into sixty-four bits and of a power of ten (`scaled`).  What is
multiplied is asked whether it became infinite, and what is divided has become smaller.  So a
number is never read as `null` (`NumberParts.scalar_isFinite`).
-/
import KeyLayout.Json.Number
import KeyLayout.Proofs.Decimal.Range
import KeyLayout.Proofs.Document.Holding

namespace KeyLayout.Json

open KeyLayout.Document KeyLayout.Decimal

theorem appendDigits_le {n : Nat} (hn : n ≤ maxWord) (digits : List Char) :
    (appendDigits n digits).1 ≤ maxWord := by
  fun_induction appendDigits n digits with
  | case1 => exact hn
  | case2 n c digits m hm ih => exact ih hm
  | case3 => exact hn

theorem isFinite_power {k : Nat} (hk : k ≤ 308) :
    (Float.ofScientific 1 false k).isFinite = true := by
  obtain ⟨m, e, hpos, hfinite, -⟩ := (notBelowOne_power hk).exists_finite
  rw [Float.isFinite, Float.Model.isFinite, hfinite]
  rfl

theorem isFinite_zero : (0.0 : Float).isFinite = true := by decide +kernel

/-- Scaling by a power of ten gives a finite number, if it gives one at all.  Each division may
round up, so the bound grows with the steps. -/
theorem scaled_isFinite {steps : Nat} {bound : ℤ} {f x : Float} {e : Int}
    (hf : Below bound f.toModel.unpack) (hleast : -1022 ≤ bound) (hgreatest : bound + steps < 972)
    (h : scaled f e steps = some x) : x.isFinite = true := by
  induction steps generalizing f e bound with
  | zero =>
    obtain rfl := Option.some_inj.mp h
    exact isFinite_zero
  | succ steps ih =>
    rw [scaled] at h
    dsimp only at h
    split_ifs at h with hlarge hzero hpos hinf hsmall hzero
    · exact Option.some_inj.mp h ▸ hf.isFinite
    · obtain rfl := Option.some_inj.mp h
      exact isFinite_mul hf.isFinite (isFinite_power (by omega)) (by simpa using hinf)
    · obtain rfl := Option.some_inj.mp h
      exact (below_div hf (notBelowOne_power (by omega)) hleast (by omega)).isFinite
    · exact Option.some_inj.mp h ▸ hf.isFinite
    · exact ih (below_div hf (notBelowOne_power (by decide)) hleast (by omega)) (by omega)
        (by omega) h

theorem NumberParts.double_isFinite {n : NumberParts} {stop : Offset} {x : Float}
    (h : n.double stop = .ok x) : x.isFinite = true := by
  have hsign : ∀ {y : Float}, y.isFinite = true →
      (if n.negative then -y else y).isFinite = true := by
    intro y hy
    split_ifs
    · exact isFinite_neg hy
    · exact hy
  rcases hwhole : appendDigits 0 n.whole with ⟨whole, surplus⟩
  rcases hdigits : appendDigits whole (n.fraction.getD []) with ⟨significand, left⟩
  -- digits are taken as long as they fit into a word
  have hword : significand < 2 ^ 64 := by
    have hle := appendDigits_le (appendDigits_le (Nat.zero_le maxWord) n.whole)
      (n.fraction.getD [])
    rw [hwhole, hdigits] at hle
    exact Nat.lt_of_le_pred (by decide) hle
  have hscale : ∀ {e : Int} {y : Float}, scaled (Float.ofNat significand) e 4 = some y →
      (if n.negative then -y else y).isFinite = true :=
    fun hscaled => hsign (scaled_isFinite (below_ofNat hword) (by decide) (by decide) hscaled)
  rw [double, hwhole] at h
  dsimp only at h
  rw [hdigits] at h
  dsimp only at h
  split at h
  · split at h
    · exact Except.ok.inj h ▸ hscale ‹_›
    · cases h
  · split at h
    -- a power that is itself too large: zero is still zero, and a negative power makes it zero
    · split at h
      · cases h
      · exact Except.ok.inj h ▸ hsign isFinite_zero
    · split at h
      · exact Except.ok.inj h ▸ hscale ‹_›
      · cases h

/-- The double that a number is read as is finite. -/
theorem NumberParts.scalar_isFinite {n : NumberParts} {stop : Offset} {x : Float}
    (h : n.scalar stop = .ok (.float x)) : x.isFinite = true := by
  rw [scalar] at h
  split_ifs at h with hplain hsign hrange
  · cases h
  · cases h
  · have hmax : ofDigits n.whole ≤ maxWord := by
      rw [Bool.and_eq_true, decide_eq_true_eq] at hplain
      exact hplain.2
    obtain rfl := Scalar.float.inj (Except.ok.inj h)
    exact isFinite_neg (below_ofNat (Nat.lt_of_le_pred (by decide) hmax)).isFinite
  · obtain ⟨y, hdouble, hy⟩ := map_eq_ok.mp h
    obtain rfl := Scalar.float.inj hy
    exact double_isFinite hdouble

end KeyLayout.Json

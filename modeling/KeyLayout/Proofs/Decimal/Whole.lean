/-
Whole numbers are printed.

A floating-point number that is not finite has no written form.  A whole number that is less than
2^53 becomes the double with the same value, which is finite (`marked?_ofNat`).
-/
import KeyLayout.Decimal.Notation
import KeyLayout.Proofs.Decimal.Nearest

namespace KeyLayout.Decimal

open Float.Model.UnpackedFloat

theorem marked?_of_finite {x : Float} {s : Sign} {m : ℕ} {e : ℤ} {hpos : 0 < m}
    (h : x.toModel.unpack = .finite s m e hpos) : (marked? x).isSome := by
  have hunpacks := unpacks x
  rw [h] at hunpacks
  rw [marked?]
  generalize kindOf x = kind at hunpacks ⊢
  cases hunpacks
  rfl

/-- A whole number of fifty-three bits is a double. -/
theorem unpack_ofNat {n : ℕ} (hpos : 0 < n) (hn : n < 2 ^ 53) :
    (Float.ofNat n).toModel.unpack = moved n 0 hpos := by
  have hx := canonical_moved hpos hn (by decide : -1022 < (0 : ℤ)) (by decide)
  have hcovers := Finite.covers_exact ⟨n * 2 ^ (52 - n.log2), 0 - (52 - n.log2 : ℕ),
    n * 2 ^ (52 - n.log2) == 2 ^ 52⟩
  rw [moved_value, zpow_zero] at hcovers
  have hdouble : Float.ofNat n = ⟨.pack (.finite .positive _ _ hx.pos)⟩ :=
    ofScientific_up hx hpos (by rwa [pow_zero])
  rw [hdouble]
  exact Finite.unpack_pack hx _

theorem marked?_ofNat {n : ℕ} (hn : n < 2 ^ 53) : (marked? (Float.ofNat n)).isSome := by
  rcases n.eq_zero_or_pos with rfl | hpos
  · decide +kernel
  · exact marked?_of_finite (unpack_ofNat hpos hn)

theorem marked?_ofInt {n : Int} (hpos : 0 ≤ n) (hn : n < 2 ^ 53) :
    (marked? (Float.ofInt n)).isSome := by
  obtain ⟨m, rfl⟩ := Int.eq_ofNat_of_zero_le hpos
  exact marked?_ofNat (by omega)

end KeyLayout.Decimal

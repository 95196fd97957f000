import HostView.Proofs.Number.Binary64
import Mathlib.Algebra.Order.Field.Power
import Mathlib.Algebra.Order.Ring.Rat
import Mathlib.Tactic.NormNum

/-! # Doubles as rational numbers

Every finite double is a rational number, its significand times a power of two. A double is taken for an
integer if it is that number, and for no other: nothing is rounded.
-/

namespace HostView.Binary64

variable {x : Binary64} {n : Nat} {i : Int}

/-- The number that a finite double is. An infinity or a NaN is none. -/
def toRat? (x : Binary64) : Option ℚ :=
  if x.isFinite then some ((if x.negative then -1 else 1) * (x.significand * 2 ^ x.scale)) else none

/-- A power of two with an integer exponent, without a fraction on either side. -/
theorem scaled_eq_iff {s n up down : Nat} {scale : Int} (hscale : scale = up - down) :
    (s : ℚ) * 2 ^ scale = n ↔ s * 2 ^ up = n * 2 ^ down := by
  have htwo : (2 : ℚ) ≠ 0 := two_ne_zero
  have hdown : (2 : ℚ) ^ down ≠ 0 := pow_ne_zero _ htwo
  rw [hscale, zpow_sub₀ htwo, zpow_natCast, zpow_natCast, ← mul_div_assoc, div_eq_iff hdown]
  exact_mod_cast Iff.rfl

/-- A magnitude is a natural number if the significand, scaled, is that number. -/
theorem magnitude?_eq_some_iff_scaled :
    x.magnitude? = some n ↔ x.isFinite = true ∧ (x.significand : ℚ) * 2 ^ x.scale = n := by
  have hscale : x.scale = ((max x.exponentField 1 - 1075 : Nat) : Int) -
      ((1075 - max x.exponentField 1 : Nat) : Int) := by
    unfold scale
    omega
  rw [magnitude?_eq_some_iff, scaled_eq_iff hscale, isFinite, bne_iff_ne]

/-- A number with a sign is an integer if it is the magnitude of the integer and the sign is right. -/
theorem signed_eq_iff {q : ℚ} (hq : 0 ≤ q) (negative : Bool) :
    (if negative then -1 else 1) * q = (i : ℚ) ↔
      q = (i.natAbs : ℚ) ∧ (0 < i → negative = false) ∧ (i < 0 → negative = true) := by
  rw [Nat.cast_natAbs]
  cases negative with
  | false =>
      rw [if_neg Bool.false_ne_true, one_mul]
      constructor
      · intro h
        have hi : 0 ≤ i := by exact_mod_cast h ▸ hq
        exact ⟨by rw [abs_of_nonneg hi, h], fun _ => rfl, fun hneg => absurd hneg (by omega)⟩
      · rintro ⟨h, -, hsign⟩
        have hi : 0 ≤ i := Int.not_lt.mp fun hneg => Bool.false_ne_true (hsign hneg)
        rw [h, abs_of_nonneg hi]
  | true =>
      rw [if_pos rfl, neg_one_mul, neg_eq_iff_eq_neg]
      constructor
      · intro h
        have hi : i ≤ 0 := by
          rw [h, neg_nonneg] at hq
          exact_mod_cast hq
        refine ⟨?_, fun hpos => absurd hpos (by omega), fun _ => rfl⟩
        rw [abs_of_nonpos hi, h, Int.cast_neg]
      · rintro ⟨h, hsign, -⟩
        have hi : i ≤ 0 := Int.not_lt.mp fun hpos => Bool.false_ne_true (hsign hpos).symm
        rw [h, abs_of_nonpos hi, Int.cast_neg]

/-- A double is taken for the integer that it is. -/
theorem toInt?_eq_some_iff_toRat? : x.toInt? = some i ↔ x.toRat? = some (i : ℚ) := by
  have hmagnitude : (0 : ℚ) ≤ x.significand * 2 ^ x.scale :=
    mul_nonneg (Nat.cast_nonneg _) (zpow_nonneg (by norm_num) _)
  rw [toInt?_eq_some_iff, magnitude?_eq_some_iff_scaled, and_assoc, ← signed_eq_iff hmagnitude]
  unfold toRat?
  by_cases hfinite : x.isFinite = true
  · rw [if_pos hfinite, Option.some.injEq, and_iff_right hfinite]
  · rw [if_neg hfinite]
    exact ⟨fun h => absurd h.1 hfinite, nofun⟩

/-- A double that is no integer is taken for none. -/
theorem toInt?_eq_none_iff_toRat? : x.toInt? = none ↔ ∀ i : Int, x.toRat? ≠ some (i : ℚ) := by
  rw [Option.eq_none_iff_forall_ne_some]
  exact forall_congr' fun i => not_congr toInt?_eq_some_iff_toRat?

end HostView.Binary64

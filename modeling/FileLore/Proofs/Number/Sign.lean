import Mathlib.Algebra.Order.Ring.Int
import FileLore.Json.Value

/-!
# The sign of a rounded number

Numbers are compared with zero after they have been rounded to double precision. No
positive number is rounded to zero, and none of 64 bits is out of range
(`exists_ofRatio?`), so the rounding makes no difference (`Number.isPositive_integer`).
-/

namespace FileLore

namespace Magnitude

theorem le_nearestWhole (numerator denominator : Nat) :
    numerator / denominator ≤ nearestWhole numerator denominator := by
  unfold nearestWhole
  dsimp only
  split
  · exact Nat.le_refl _
  · split <;> omega

/-- The exponent of a whole number is at most what leaves a mantissa of full length. -/
theorem exponentOf_le {n : Nat} : exponentOf n 1 ≤ (n.log2 : Int) - 52 := by
  have hguess : max (Int.ofNat n.log2 - Int.ofNat (Nat.log2 1) - Int.ofNat precision)
      leastExponent = (n.log2 : Int) - 53 := by
    have hone : Nat.log2 1 = 0 := by decide
    rw [hone, precision, leastExponent]
    simp only [Int.ofNat_eq_natCast]
    omega
  unfold exponentOf
  dsimp only
  rw [hguess]
  split <;> omega

/-- At such an exponent a positive number is more than nothing. -/
theorem mantissaAt_pos {n : Nat} {exponent : Int} (hpos : 0 < n)
    (h : exponent ≤ (n.log2 : Int)) : 0 < mantissaAt exponent n 1 := by
  have hle : 1 * Nat.pow 2 exponent.toNat ≤ n * Nat.pow 2 (-exponent).toNat := by
    have hscale : 1 ≤ Nat.pow 2 (-exponent).toNat := Nat.one_le_two_pow
    have hself : Nat.pow 2 exponent.toNat ≤ n := by
      calc Nat.pow 2 exponent.toNat ≤ 2 ^ n.log2 :=
            Nat.pow_le_pow_right (by decide) (by simpa using h)
        _ ≤ n := Nat.log2_self_le (Nat.ne_of_gt hpos)
    calc 1 * Nat.pow 2 exponent.toNat ≤ n * 1 := by omega
      _ ≤ n * Nat.pow 2 (-exponent).toNat := Nat.mul_le_mul_left n hscale
  refine Nat.lt_of_lt_of_le ?_ (le_nearestWhole _ _)
  exact Nat.div_pos hle (by rw [Nat.one_mul]; exact Nat.two_pow_pos _)

/-- **A positive number of 64 bits is in range, and is not rounded to zero.** -/
theorem exists_ofRatio? {n : Nat} (hpos : 0 < n) (hlt : n < 2 ^ 64) :
    ∃ x, ofRatio? n 1 = some x ∧ x.mantissa ≠ 0 := by
  have hne : n ≠ 0 := Nat.ne_of_gt hpos
  have hlog : n.log2 < 64 := (Nat.log2_lt hne).mpr hlt
  have hexponent := exponentOf_le (n := n)
  have hmantissa : 0 < mantissaAt (exponentOf n 1) n 1 := mantissaAt_pos hpos (by omega)
  have hgreatest : exponentOf n 1 + 1 ≤ greatestExponent := by
    unfold greatestExponent
    omega
  rw [ofRatio?, if_neg hne]
  dsimp only
  by_cases hfull : mantissaAt (exponentOf n 1) n 1 < Nat.pow 2 precision
  · rw [if_pos hfull, if_pos (show exponentOf n 1 ≤ greatestExponent by omega)]
    exact ⟨_, rfl, Nat.ne_of_gt hmantissa⟩
  · -- A mantissa with one bit too many is rounded to half of it, which is still long.
    have hlong : 2 ≤ mantissaAt (exponentOf n 1) n 1 :=
      Nat.le_trans (by decide) (Nat.not_lt.mp hfull)
    rw [if_neg hfull, if_pos hgreatest]
    exact ⟨_, rfl, by dsimp only; omega⟩

end Magnitude

/-- **Rounding takes no sign away.** A whole number of 64 bits is positive in double precision just
if it is so as it is. -/
theorem Number.isPositive_integer {n : Int} (hleast : -2 ^ 63 ≤ n) (hgreatest : n < 2 ^ 64) :
    (Number.integer n).isPositive = decide (0 < n) := by
  rw [isPositive, rounded?]
  by_cases hzero : n = 0
  · rw [hzero]
    rfl
  · obtain ⟨x, hx, hne⟩ := Magnitude.exists_ofRatio? (n := n.natAbs) (by omega) (by omega)
    rw [hx, Option.map_some, Option.any_some, Binary64.isPositive]
    by_cases hneg : n < 0
    · simp [hneg, Int.le_of_lt hneg]
    · have hpos : 0 < n := by omega
      simp [hneg, hpos, hne]

end FileLore

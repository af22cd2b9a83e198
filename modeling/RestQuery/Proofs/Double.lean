import Mathlib.Algebra.Field.Rat
import Mathlib.Data.Nat.Log
import Mathlib.Data.Rat.Cast.CharZero
import RestQuery.Double

/-!
# The numbers that doubles stand for

A whole number with more binary digits than a mantissa has is rounded when it becomes a double. It
is kept exactly if the digits that do not fit are zeros.
-/

namespace RestQuery.Double

/-- The number that a double stands for, unless it is infinite. -/
def toRat? : Double → Option ℚ
  | finite negative mantissa exponent =>
    some ((if negative then -1 else 1) * mantissa * 2 ^ exponent)
  | infinite _ => none

/-- Nothing is lost by rounding a quotient exactly if it is whole. -/
theorem roundQuotient_mul_eq_iff {num den : Nat} (hden : 0 < den) :
    roundQuotient num den * den = num ↔ den ∣ num := by
  constructor
  · intro h
    exact ⟨roundQuotient num den, by rw [Nat.mul_comm, h]⟩
  · rintro ⟨quotient, rfl⟩
    have hrest : den * quotient % den = 0 := Nat.mul_mod_right _ _
    have hquotient : den * quotient / den = quotient := Nat.mul_div_cancel_left _ hden
    have hdown : roundQuotient (den * quotient) den = quotient := by
      unfold roundQuotient
      rw [hrest, hquotient]
      exact if_neg (by omega)
    rw [hdown, Nat.mul_comm]

theorem scaleDown_one (n extra : Nat) : scaleDown n 1 extra = (n, 2 ^ extra) := by
  simp [scaleDown, twoPow]

section

variable {n extra : Nat} (hlog : n.log2 = 52 + extra)

include hlog

theorem ne_zero_of_log2 : n ≠ 0 := by
  rintro rfl
  rw [Nat.log2_zero] at hlog
  omega

theorem exponentOf_one : exponentOf n 1 = extra := by
  have hone : Nat.log2 1 = 0 := by decide
  have hguess : (Int.ofNat n.log2 - Int.ofNat (Nat.log2 1) - 52 : Int) = extra := by
    rw [hlog, hone]
    simp only [Int.ofNat_eq_natCast]
    omega
  have hfull : ¬ n / 2 ^ extra < twoPow 52 := by
    have hlow : 2 ^ 52 * 2 ^ extra ≤ n := by
      rw [← Nat.pow_add, ← hlog]
      exact Nat.log2_self_le (ne_zero_of_log2 hlog)
    exact Nat.not_lt.mpr ((Nat.le_div_iff_mul_le (Nat.two_pow_pos extra)).mpr hlow)
  have hleast : leastExponent ≤ extra := by
    unfold leastExponent
    omega
  unfold exponentOf
  rw [hguess]
  dsimp only
  rw [scaleDown_one, if_neg hfull, max_eq_right hleast]

theorem toRat?_ofNat (hextra : extra < 971) :
    (ofNat n).toRat? = some ((roundQuotient n (2 ^ extra) * 2 ^ extra : Nat) : ℚ) := by
  unfold ofNat ofRatio
  rw [if_neg (ne_zero_of_log2 hlog), exponentOf_one hlog]
  dsimp only
  rw [scaleDown_one]
  dsimp only
  have hbound : greatestExponent = 971 := rfl
  -- Rounding up can give the mantissa one more digit; then the exponent takes it.
  by_cases hcarry : roundQuotient n (2 ^ extra) = twoPow 53
  · have hcarried : roundQuotient n (2 ^ extra) * 2 ^ extra = 2 ^ 52 * 2 ^ (extra + 1) := by
      have htwo : twoPow 53 = 2 ^ 53 := rfl
      have hnext : 2 ^ (extra + 1) = 2 ^ extra * 2 := pow_succ 2 extra
      rw [hcarry, htwo, hnext]
      omega
    have hsmall : ¬ ((extra : Int) + 1 > greatestExponent) := by omega
    rw [if_pos hcarry]
    dsimp only
    rw [if_neg hsmall, hcarried]
    have hexponent : (extra : Int) + 1 = ((extra + 1 : Nat) : Int) := by omega
    rw [toRat?, hexponent, zpow_natCast]
    simp [twoPow]
  · have hsmall : ¬ ((extra : Int) > greatestExponent) := by omega
    rw [if_neg hcarry]
    dsimp only
    rw [if_neg hsmall, toRat?, zpow_natCast]
    simp

theorem toRat?_ofNat_eq_iff (hextra : extra < 971) :
    (ofNat n).toRat? = some (n : ℚ) ↔ 2 ^ extra ∣ n := by
  rw [toRat?_ofNat hlog hextra, Option.some_inj, Nat.cast_inj,
    roundQuotient_mul_eq_iff (Nat.two_pow_pos extra)]

end

end RestQuery.Double

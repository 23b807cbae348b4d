import Mathlib.Algebra.Order.Group.Unbundled.Int
import Mathlib.Data.Int.Order.Basic
import Mathlib.Algebra.Order.Ring.Int
import Mathlib.Algebra.Order.Ring.Abs
import Mathlib.Tactic.Linarith

/-!
# Doubles by their bits

The value of a double is a whole number of the least positive double, so values
are compared as integers in that unit.  A double is nearest to an integer if no
other lies closer; rounding to the nearest double never crosses a double on the
way.
-/

namespace Skybase.Binary64

/-- The fraction bits. -/
def fraction (bits : Nat) : Nat := bits % 2 ^ 52

/-- The exponent bits. -/
def exponent (bits : Nat) : Nat := bits / 2 ^ 52 % 2 ^ 11

/-- The sign bit. -/
def isNegative (bits : Nat) : Bool := bits / 2 ^ 63 % 2 == 1

/-- The significand, with the leading bit of normal numbers. -/
def significand (bits : Nat) : Nat :=
  if exponent bits = 0 then fraction bits else 2 ^ 52 + fraction bits

/-- The size of a double in units of the least positive one, which is `2 ^ -1074`. -/
def magnitude (bits : Nat) : Nat := significand bits * 2 ^ (exponent bits - 1)

/-- The value of a double in units of the least positive one. -/
def units (bits : Nat) : Int := if isNegative bits then -magnitude bits else magnitude bits

/-- One, in units of the least positive double. -/
def one : Nat := 2 ^ 1074

theorem one_eq_pow : one = 2 ^ 1074 := by
  rw [one]

-- The power is never evaluated.
attribute [irreducible] one

/-- No double lies closer to the integer. -/
def Nearest (bits : Nat) (value : Int) : Prop :=
  ∀ other, |units bits - value * one| ≤ |units other - value * one|

/-- Rounding an integer does not cross a double below it. -/
theorem Nearest.units_le {bits low : Nat} {value : Int} (nearest : Nearest bits value)
    (below : units low ≤ value * one) : units low ≤ units bits := by
  by_contra crossed
  have closer := nearest low
  rw [abs_of_nonpos (by linarith), abs_of_nonpos (by linarith)] at closer
  linarith

/-! ## Doubles of one exponent -/

theorem fraction_lt (bits : Nat) : fraction bits < 2 ^ 52 := Nat.mod_lt _ (by decide)

theorem significand_lt (bits : Nat) : significand bits < 2 ^ 53 := by
  have bound := fraction_lt bits
  unfold significand
  split <;> omega

theorem units_of_isNegative {bits : Nat} (negative : isNegative bits = true) : units bits ≤ 0 := by
  rw [units, if_pos negative]
  omega

theorem one_pos : 0 < one := by
  rw [one_eq_pow]
  exact pow_pos two_pos _

/-- The magnitude of a double from one on, by the distance of its exponent. -/
theorem magnitude_of_exponent {bits power : Nat} (large : exponent bits = power + 1075) :
    magnitude bits = (2 ^ 52 + fraction bits) * 2 ^ power * one := by
  have normal : power + 1075 ≠ 0 := Nat.succ_ne_zero _
  have shift : power + 1075 - 1 = power + 1074 := by omega
  rw [magnitude, significand, large, if_neg normal, shift, pow_add, ← Nat.mul_assoc, one_eq_pow]

/-- A double with a smaller exponent lies below the power of two. -/
theorem magnitude_le_of_exponent_lt {bits power : Nat} (small : exponent bits < power + 1075) :
    magnitude bits ≤ 2 ^ 52 * 2 ^ power * one := by
  have shifted : 2 ^ 52 * 2 ^ power * one = 2 ^ 53 * 2 ^ (power + 1073) := by
    have same : 52 + (power + 1074) = 53 + (power + 1073) := by omega
    rw [one_eq_pow, mul_assoc, ← pow_add, ← pow_add, ← pow_add, same]
  rw [shifted]
  exact Nat.mul_le_mul (significand_lt bits).le (Nat.pow_le_pow_right two_pos (by omega))

/-- A double with a larger exponent lies above the power of two. -/
theorem le_magnitude_of_lt_exponent {bits power : Nat} (large : power + 1075 ≤ exponent bits) :
    2 ^ 52 * 2 ^ power * one ≤ magnitude bits := by
  obtain ⟨higher, exponent_eq⟩ := Nat.exists_eq_add_of_le large
  have grown : power ≤ power + higher := Nat.le_add_right power higher
  have regrouped : exponent bits = power + higher + 1075 := by omega
  rw [magnitude_of_exponent regrouped]
  exact Nat.mul_le_mul_right one
    (Nat.mul_le_mul (Nat.le_add_right _ _) (Nat.pow_le_pow_right two_pos grown))

/-! ## Rounding large integers -/

/-- A number of spacings that is nearest to an integer, to even ones from the middle. -/
def roundSpacings (value : Nat) : Nat :=
  if value % 2048 > 1024 ∨ (value % 2048 = 1024 ∧ value / 2048 % 2 = 1) then value / 2048 + 1
  else value / 2048

theorem roundSpacings_nearest (value : Nat) (other : Int) :
    |(2048 * roundSpacings value : Int) - value| ≤ |2048 * other - value| := by
  rw [Int.abs_eq_natAbs, Int.abs_eq_natAbs]
  unfold roundSpacings
  split <;> omega

theorem roundSpacings_bounds {value : Nat} (lower : 2 ^ 63 ≤ value) (upper : value < 2 ^ 64) :
    2 ^ 52 ≤ roundSpacings value ∧ roundSpacings value ≤ 2 ^ 53 := by
  unfold roundSpacings
  split <;> omega

/-- The double nearest to an integer from `2 ^ 63` to `2 ^ 64`. -/
def ofLarge (value : Nat) : Nat := 1085 * 2 ^ 52 + roundSpacings value

theorem ofLarge_lt {value : Nat} (lower : 2 ^ 63 ≤ value) (upper : value < 2 ^ 64) :
    ofLarge value < 2 ^ 64 := by
  have most := (roundSpacings_bounds lower upper).2
  unfold ofLarge
  omega

theorem magnitude_ofLarge {value : Nat} (lower : 2 ^ 63 ≤ value) (upper : value < 2 ^ 64) :
    magnitude (ofLarge value) = 2048 * roundSpacings value * one := by
  obtain ⟨least, most⟩ := roundSpacings_bounds lower upper
  rcases most.lt_or_eq with below | carried
  · have exponent_eq : exponent (ofLarge value) = 11 + 1075 := by
      rw [exponent, ofLarge]
      omega
    have fraction_eq : 2 ^ 52 + fraction (ofLarge value) = roundSpacings value := by
      rw [fraction, ofLarge]
      omega
    rw [magnitude_of_exponent exponent_eq, fraction_eq, Nat.mul_comm (roundSpacings value)]
    rfl
  · have exponent_eq : exponent (ofLarge value) = 12 + 1075 := by
      rw [exponent, ofLarge]
      omega
    have fraction_eq : fraction (ofLarge value) = 0 := by
      rw [fraction, ofLarge]
      omega
    have sized : (2 ^ 52 + 0) * 2 ^ 12 = 2048 * 2 ^ 53 := by decide
    rw [magnitude_of_exponent exponent_eq, fraction_eq, carried, sized]

theorem units_ofLarge {value : Nat} (lower : 2 ^ 63 ≤ value) (upper : value < 2 ^ 64) :
    units (ofLarge value) = 2048 * roundSpacings value * one := by
  obtain ⟨least, most⟩ := roundSpacings_bounds lower upper
  have positive : isNegative (ofLarge value) = false := by
    rw [isNegative, beq_eq_false_iff_ne, ofLarge]
    omega
  rw [units, positive, if_neg Bool.false_ne_true, magnitude_ofLarge lower upper]
  push_cast
  rfl

/-- `ofLarge` rounds to a nearest double. -/
theorem ofLarge_nearest {value : Nat} (lower : 2 ^ 63 ≤ value) (upper : value < 2 ^ 64) :
    Nearest (ofLarge value) value := by
  intro other
  have positive : (0 : Int) < one := Int.natCast_pos.mpr one_pos
  have scaled (multiple : Int) : |2048 * multiple * one - value * one| =
      |2048 * multiple - value| * one := by
    rw [← sub_mul, abs_mul, abs_of_pos positive]
  have closest (multiple : Int) : |units (ofLarge value) - value * one| ≤
      |2048 * multiple * one - value * one| := by
    rw [units_ofLarge lower upper, scaled, scaled]
    exact mul_le_mul_of_nonneg_right (roundSpacings_nearest value multiple) positive.le
  have fromBelow : (2 : Int) ^ 63 * one ≤ value * one :=
    mul_le_mul_of_nonneg_right (by exact_mod_cast lower) positive.le
  have fromAbove : (value : Int) * one ≤ 2 ^ 64 * one :=
    mul_le_mul_of_nonneg_right (by exact_mod_cast upper.le) positive.le
  -- The doubles outside of the binade are no closer than its ends.
  have lowEnd : 2048 * (2 ^ 52 : Int) = 2 ^ 63 := by decide
  have highEnd : 2048 * (2 ^ 53 : Int) = 2 ^ 64 := by decide
  have ofLow (below : units other ≤ 2 ^ 63 * one) :
      |units (ofLarge value) - value * one| ≤ |units other - value * one| := by
    refine (closest (2 ^ 52)).trans ?_
    rw [lowEnd, abs_of_nonpos (by linarith), abs_of_nonpos (by linarith)]
    linarith
  have ofHigh (above : 2 ^ 64 * one ≤ units other) :
      |units (ofLarge value) - value * one| ≤ |units other - value * one| := by
    refine (closest (2 ^ 53)).trans ?_
    rw [highEnd, abs_of_nonneg (by linarith), abs_of_nonneg (by linarith)]
    linarith
  cases sign : isNegative other with
  | true => exact ofLow ((units_of_isNegative sign).trans (by positivity))
  | false =>
      have unsigned : units other = magnitude other :=
        if_neg (by rw [sign]; exact Bool.false_ne_true)
      rcases lt_trichotomy (exponent other) (11 + 1075) with small | same | large
      · have below := magnitude_le_of_exponent_lt small
        exact ofLow (by rw [unsigned]; exact_mod_cast below)
      · have inside := magnitude_of_exponent same
        have multiple : units other = 2048 * ((2 ^ 52 + fraction other : Nat) : Int) * one := by
          rw [unsigned, inside, Nat.mul_comm (2 ^ 52 + fraction other)]
          push_cast
          rfl
        rw [multiple]
        exact closest _
      · have above := le_magnitude_of_lt_exponent (show 12 + 1075 ≤ exponent other from large)
        exact ofHigh (by rw [unsigned]; exact_mod_cast above)

/-- The double nearest to an integer from `2 ^ 63` on is not below `2 ^ 63`. -/
theorem Nearest.two_pow_le_units {bits : Nat} {value : Int} (nearest : Nearest bits value)
    (large : 2 ^ 63 ≤ value) : 2 ^ 63 * one ≤ units bits := by
  have exact : units (ofLarge (2 ^ 63)) = 2 ^ 63 * one := by
    have spacings : 2048 * (roundSpacings (2 ^ 63) : Int) = 2 ^ 63 := by decide +kernel
    rw [units_ofLarge (by decide) (by decide), spacings]
  rw [← exact]
  apply nearest.units_le
  rw [exact]
  exact mul_le_mul_of_nonneg_right large (Int.natCast_nonneg one)

end Skybase.Binary64

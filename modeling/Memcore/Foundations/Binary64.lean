import Mathlib.Algebra.Order.Field.Power
import Mathlib.Data.Int.Log
import Mathlib.Data.Rat.Floor

/-!
# Rounding to double precision

A number of double precision is a whole number of units, fewer than `2 ^ 53` of them, and the
unit is a power of two that the size of the number determines. A sum is rounded to the nearest
such number, in a tie to an even one. Whole numbers of one unit are added exactly as long as
there are fewer than `2 ^ 53` units in the sum. Numbers too large for the format are not told
apart from others.
-/
namespace Binary64

/-- The whole number that is nearest, and in a tie the even one. -/
def nearestEven (value : ℚ) : ℤ :=
  let rest := value - ⌊value⌋
  if rest < 1 / 2 then ⌊value⌋
  else if 1 / 2 < rest then ⌊value⌋ + 1
  else if ⌊value⌋ % 2 = 0 then ⌊value⌋
  else ⌊value⌋ + 1

/-- The exponent of the unit in the last place. -/
def unitExponent (value : ℚ) : ℤ := max (Int.log 2 |value| - 52) (-1074)

/-- The number of double precision that is nearest. -/
def round (value : ℚ) : ℚ := nearestEven (value / 2 ^ unitExponent value) * 2 ^ unitExponent value

theorem nearestEven_intCast (count : ℤ) : nearestEven count = count := by
  have whole : ⌊(count : ℚ)⌋ = count := Int.floor_intCast count
  rw [nearestEven, whole, sub_self, if_pos (by norm_num)]

/-- A number with few units of some size has a unit of that size or a smaller one. -/
theorem unitExponent_le {count exponent : ℤ} (few : |count| < 2 ^ 53) (some : count ≠ 0)
    (fine : -1074 ≤ exponent) : unitExponent (count * 2 ^ exponent) ≤ exponent := by
  have power : (0 : ℚ) < 2 ^ exponent := zpow_pos two_pos exponent
  have size : |(count : ℚ) * 2 ^ exponent| = |count| * 2 ^ exponent := by
    rw [abs_mul, abs_of_pos power, Int.cast_abs]
  have positive : (0 : ℚ) < |(count : ℚ) * 2 ^ exponent| :=
    abs_pos.mpr (mul_ne_zero (Int.cast_ne_zero.mpr some) power.ne')
  have below : |(count : ℚ) * 2 ^ exponent| < 2 ^ (53 + exponent) := by
    rw [size, zpow_add₀ two_ne_zero]
    apply mul_lt_mul_of_pos_right _ power
    exact_mod_cast few
  have reached : (2 : ℚ) ^ Int.log 2 |(count : ℚ) * 2 ^ exponent| ≤
      |(count : ℚ) * 2 ^ exponent| := Int.zpow_log_le_self one_lt_two positive
  have leading : Int.log 2 |(count : ℚ) * 2 ^ exponent| < 53 + exponent :=
    (zpow_lt_zpow_iff_right₀ one_lt_two).mp (reached.trans_lt below)
  unfold unitExponent
  omega

/-- Few units of one size are not rounded. -/
theorem round_multiple {count exponent : ℤ} (few : |count| < 2 ^ 53)
    (fine : -1074 ≤ exponent) : round (count * 2 ^ exponent) = count * 2 ^ exponent := by
  by_cases nothing : count = 0
  · have zero : nearestEven 0 = 0 := nearestEven_intCast 0
    rw [nothing, Int.cast_zero, zero_mul, round, zero_div, zero, Int.cast_zero, zero_mul]
  · have smaller := unitExponent_le few nothing fine
    obtain ⟨shift, apart⟩ := Int.eq_ofNat_of_zero_le (sub_nonneg.mpr smaller)
    have unit : (2 : ℚ) ^ unitExponent (count * 2 ^ exponent) ≠ 0 := zpow_ne_zero _ two_ne_zero
    have units : (count : ℚ) * 2 ^ exponent =
        ((count * 2 ^ shift : ℤ) : ℚ) * 2 ^ unitExponent (count * 2 ^ exponent) := by
      have split : exponent = shift + unitExponent (count * 2 ^ exponent) := by omega
      conv_lhs => rw [split, zpow_add₀ two_ne_zero]
      push_cast
      rw [zpow_natCast, mul_assoc]
    rw [round]
    nth_rewrite 1 [units]
    rw [mul_div_cancel_right₀ _ unit, nearestEven_intCast, ← units]

end Binary64

import Mathlib

/-!
# Rounding to doubles

A double is a multiple of a power of two with 53 bits.  The exact result of an operation is
rounded to the nearest one, and from the middle of two to the one that is even in the last
place.  The infinities, which take over beyond the largest double, and the values that are not
numbers are left out.
-/

namespace EasyTrade.DoubleRounding

/-- The nearest integer, and from the middle of two integers the even one. -/
def roundEven (x : ℚ) : ℤ :=
  if Int.fract x < 1 / 2 then ⌊x⌋
  else if 1 / 2 < Int.fract x then ⌊x⌋ + 1
  else if ⌊x⌋ % 2 = 0 then ⌊x⌋ else ⌊x⌋ + 1

theorem roundEven_nonneg {x : ℚ} (hx : 0 ≤ x) : 0 ≤ roundEven x := by
  have hfloor : 0 ≤ ⌊x⌋ := Int.floor_nonneg.mpr hx
  rw [roundEven]
  split_ifs <;> omega

theorem roundEven_intCast (n : ℤ) : roundEven (n : ℚ) = n := by
  rw [roundEven, Int.fract_intCast, if_pos (by norm_num), Int.floor_intCast]

/-- The exponent of the last place of a double near a number; the least one is that of the
smallest double. -/
def lastPlace (x : ℚ) : ℤ := max (Int.log 2 |x| - 52) (-1074)

/-- The double nearest to a number. -/
def toDouble (x : ℚ) : ℚ := roundEven (x / 2 ^ lastPlace x) * 2 ^ lastPlace x

/-- A finite double. -/
structure Double where
  value : ℚ
  representable : ∃ mantissa exponent : ℤ,
    |mantissa| < 2 ^ 53 ∧ -1074 ≤ exponent ∧ value = mantissa * 2 ^ exponent

theorem toDouble_nonneg {x : ℚ} (hx : 0 ≤ x) : 0 ≤ toDouble x := by
  have hplace : (0 : ℚ) < 2 ^ lastPlace x := zpow_pos two_pos _
  have hrounded : 0 ≤ roundEven (x / 2 ^ lastPlace x) :=
    roundEven_nonneg (div_nonneg hx hplace.le)
  exact mul_nonneg (Int.cast_nonneg hrounded) hplace.le

/-- A number of 53 bits has its last place where its own bits end, or further down. -/
theorem lastPlace_le {mantissa exponent : ℤ} (hne : mantissa ≠ 0)
    (hbits : |mantissa| < 2 ^ 53) (hexponent : -1074 ≤ exponent) :
    lastPlace (mantissa * 2 ^ exponent) ≤ exponent := by
  have hpower : (0 : ℚ) < 2 ^ exponent := zpow_pos two_pos exponent
  have hcast : |(mantissa : ℚ)| < 2 ^ (53 : ℤ) := by
    rw [← Int.cast_abs]
    exact_mod_cast hbits
  have hvalue : |(mantissa : ℚ) * 2 ^ exponent| < 2 ^ (53 + exponent) := by
    rw [abs_mul, abs_of_pos hpower, zpow_add₀ two_ne_zero]
    exact mul_lt_mul_of_pos_right hcast hpower
  have hlog : Int.log 2 |(mantissa : ℚ) * 2 ^ exponent| < 53 + exponent := by
    refine (Int.lt_zpow_iff_log_lt one_lt_two ?_).mp (by exact_mod_cast hvalue)
    exact abs_pos.mpr (mul_ne_zero (Int.cast_ne_zero.mpr hne) hpower.ne')
  exact max_le (by omega) hexponent

/-- A double is its own nearest double. -/
theorem toDouble_value (x : Double) : toDouble x.value = x.value := by
  obtain ⟨mantissa, exponent, hbits, hexponent, hvalue⟩ := x.representable
  rw [hvalue]
  rcases eq_or_ne mantissa 0 with rfl | hne
  · have hzero : roundEven (0 : ℚ) = 0 := by exact_mod_cast roundEven_intCast 0
    simp [toDouble, hzero]
  · have hplace := lastPlace_le hne hbits hexponent
    rw [toDouble]
    generalize lastPlace ((mantissa : ℚ) * 2 ^ exponent) = place at hplace
    obtain ⟨shift, hshift⟩ := Int.eq_ofNat_of_zero_le (sub_nonneg.mpr hplace)
    have hscale : (2 : ℚ) ^ exponent = 2 ^ shift * 2 ^ place := by
      rw [← zpow_natCast, ← zpow_add₀ two_ne_zero, ← hshift, sub_add_cancel]
    have hquotient : (mantissa : ℚ) * 2 ^ exponent / 2 ^ place =
        ((mantissa * 2 ^ shift : ℤ) : ℚ) := by
      rw [hscale, ← mul_assoc, mul_div_cancel_right₀ _ (zpow_ne_zero place two_ne_zero)]
      push_cast
      rfl
    rw [hquotient, roundEven_intCast, hscale, Int.cast_mul, Int.cast_pow, Int.cast_ofNat,
      mul_assoc]

/-- An integer of 53 bits as a double. -/
def Double.ofInt (n : ℤ) (hbits : |n| < 2 ^ 53) : Double :=
  ⟨n, n, 0, hbits, by decide, by rw [zpow_zero, mul_one]⟩

theorem toDouble_intCast {n : ℤ} (hbits : |n| < 2 ^ 53) : toDouble n = n :=
  toDouble_value (Double.ofInt n hbits)

/-- The largest number of the type `int` and the least one. -/
def maxInt : ℤ := 2 ^ 31 - 1

def minInt : ℤ := -2 ^ 31

/-- A double is cast to an `int` towards zero; what is beyond the type becomes its largest or its
least number. -/
def intValue (x : ℚ) : ℤ := max minInt (min maxInt (if 0 ≤ x then ⌊x⌋ else ⌈x⌉))

theorem intValue_intCast {n : ℤ} (hmin : minInt ≤ n) (hmax : n ≤ maxInt) : intValue n = n := by
  rw [intValue, Int.floor_intCast, Int.ceil_intCast, ite_self, min_eq_right hmax,
    max_eq_right hmin]

theorem intValue_nonneg {x : ℚ} (hx : 0 ≤ x) : 0 ≤ intValue x := by
  have hmax : 0 ≤ maxInt := by decide
  rw [intValue, if_pos hx]
  exact le_max_of_le_right (le_min hmax (Int.floor_nonneg.mpr hx))

-- in doubles ten times 0.7 is 7, while the double that is written 0.7 lies below it
example : intValue (toDouble (10 * (6305039478318694 / 2 ^ 53))) = 7 ∧
    ⌊(10 * (6305039478318694 / 2 ^ 53) : ℚ)⌋ = 6 := by
  decide +kernel

end EasyTrade.DoubleRounding

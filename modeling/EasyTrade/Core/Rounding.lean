import Mathlib

/-!
# Rounding half away from zero

Rounding to the nearest multiple of a unit, where the middle of two multiples goes to the
one that is further from zero.  Sums of rounded values are not rounded sums: what rounding
loses on the terms adds up.
-/

namespace EasyTrade.Rounding

section Integers

variable {K : Type*} [Field K] [LinearOrder K] [FloorRing K]

/-- The nearest integer, and from the middle of two integers the one away from zero. -/
def roundAway (x : K) : ℤ := if 0 ≤ x then ⌊x + 1 / 2⌋ else ⌈x - 1 / 2⌉

variable [IsStrictOrderedRing K]

/-- A number is rounded to the integer that is less than a half away, or to the one that is
a half away on the side that is further from zero. -/
theorem roundAway_eq_iff {x : K} {n : ℤ} :
    roundAway x = n ↔ |x - n| < 1 / 2 ∨ x - n = 1 / 2 ∧ x < 0 ∨ x - n = -(1 / 2) ∧ 0 < x := by
  rw [roundAway, abs_lt]
  split_ifs with hx
  · rw [Int.floor_eq_iff]
    constructor
    · rintro ⟨hlow, hhigh⟩
      rcases hlow.eq_or_lt with heq | hlt
      · refine Or.inr (Or.inr ⟨by linarith, hx.lt_of_ne fun hzero => ?_⟩)
        -- zero is not in the middle of two integers
        have htwice : ((2 * n : ℤ) : K) = ((1 : ℤ) : K) := by
          push_cast
          linarith
        have hodd : 2 * n = 1 := Int.cast_injective htwice
        omega
      · exact Or.inl ⟨by linarith, by linarith⟩
    · rintro (⟨hlow, hhigh⟩ | ⟨-, hneg⟩ | ⟨heq, -⟩)
      · exact ⟨by linarith, by linarith⟩
      · exact absurd hneg (not_lt.mpr hx)
      · exact ⟨by linarith, by linarith⟩
  · have hneg := not_le.mp hx
    rw [Int.ceil_eq_iff]
    constructor
    · rintro ⟨hlow, hhigh⟩
      rcases hhigh.eq_or_lt with heq | hlt
      · exact Or.inr (Or.inl ⟨by linarith, hneg⟩)
      · exact Or.inl ⟨by linarith, by linarith⟩
    · rintro (⟨hlow, hhigh⟩ | ⟨heq, -⟩ | ⟨-, hpos⟩)
      · exact ⟨by linarith, by linarith⟩
      · exact ⟨by linarith, by linarith⟩
      · exact absurd hpos (not_lt.mpr hneg.le)

@[simp]
theorem roundAway_intCast (n : ℤ) : roundAway (n : K) = n :=
  roundAway_eq_iff.mpr (Or.inl (by simp))

theorem roundAway_neg (x : K) : roundAway (-x) = -roundAway x := by
  have herror : -x - ((-roundAway x : ℤ) : K) = -(x - roundAway x) := by
    push_cast
    ring
  rw [roundAway_eq_iff, herror, abs_neg]
  rcases roundAway_eq_iff.mp (rfl : roundAway x = roundAway x) with
    hnear | ⟨hmiddle, hneg⟩ | ⟨hmiddle, hpos⟩
  · exact Or.inl hnear
  · exact Or.inr (Or.inr ⟨by rw [hmiddle], by linarith⟩)
  · exact Or.inr (Or.inl ⟨by rw [hmiddle, neg_neg], by linarith⟩)

end Integers

section Units

variable {K : Type*} [Field K] [LinearOrder K] [FloorRing K]

/-- The nearest multiple of the unit. -/
def roundTo (unit x : K) : K := roundAway (x / unit) * unit

/-- What rounding takes away. -/
def lost (unit x : K) : K := x - roundTo unit x

/-- What rounding takes away from two numbers adds up to less than half a unit, or to half
a unit that rounding takes away from the sum as well. -/
def RoundTogether (unit x y : K) : Prop :=
  |lost unit x + lost unit y| < unit / 2 ∨
    lost unit x + lost unit y = unit / 2 ∧ x + y < 0 ∨
      lost unit x + lost unit y = -(unit / 2) ∧ 0 < x + y

instance (unit x y : K) : Decidable (RoundTogether unit x y) :=
  inferInstanceAs (Decidable (_ ∨ _ ∨ _))

/-- The middle of two multiples of the unit. -/
def Halfway (unit x : K) : Prop := |lost unit x| = unit / 2

instance (unit x : K) : Decidable (Halfway unit x) :=
  inferInstanceAs (Decidable (_ = _))

variable [IsStrictOrderedRing K] {unit x y : K}

theorem roundTo_intCast_mul (hunit : 0 < unit) (n : ℤ) : roundTo unit (n * unit) = n * unit := by
  rw [roundTo, mul_div_cancel_right₀ _ hunit.ne', roundAway_intCast]

@[simp]
theorem roundTo_roundTo (hunit : 0 < unit) (x : K) :
    roundTo unit (roundTo unit x) = roundTo unit x :=
  roundTo_intCast_mul hunit (roundAway (x / unit))

/-- Two numbers can be rounded before they are added exactly when they round together. -/
theorem roundTo_add_iff (hunit : 0 < unit) :
    roundTo unit (x + y) = roundTo unit x + roundTo unit y ↔ RoundTogether unit x y := by
  have hlost : lost unit x + lost unit y =
      ((x + y) / unit - ((roundAway (x / unit) + roundAway (y / unit) : ℤ) : K)) * unit := by
    rw [lost, lost, roundTo, roundTo, sub_mul, div_mul_cancel₀ _ hunit.ne']
    push_cast
    ring
  have hsum : roundTo unit x + roundTo unit y =
      ((roundAway (x / unit) + roundAway (y / unit) : ℤ) : K) * unit := by
    rw [roundTo, roundTo]
    push_cast
    ring
  rw [hsum, roundTo, mul_left_inj' hunit.ne', Int.cast_inj, roundAway_eq_iff, RoundTogether,
    hlost]
  generalize (x + y) / unit - ((roundAway (x / unit) + roundAway (y / unit) : ℤ) : K) = error
  have hhalf : unit / 2 = 1 / 2 * unit := by ring
  refine or_congr ?_ (or_congr (and_congr ?_ ?_) (and_congr ?_ ?_))
  · rw [abs_mul, abs_of_pos hunit, hhalf, mul_lt_mul_iff_left₀ hunit]
  · rw [hhalf, mul_left_inj' hunit.ne']
  · rw [div_neg_iff]
    exact ⟨fun h => (h.resolve_left fun h => absurd h.2 (not_lt.mpr hunit.le)).1,
      fun h => Or.inr ⟨h, hunit⟩⟩
  · rw [hhalf, ← neg_mul, mul_left_inj' hunit.ne']
  · rw [div_pos_iff]
    exact ⟨fun h => (h.resolve_right fun h => absurd h.2 (not_lt.mpr hunit.le)).1,
      fun h => Or.inl ⟨h, hunit⟩⟩

@[simp]
theorem roundTo_zero (hunit : 0 < unit) : roundTo unit (0 : K) = 0 := by
  simpa using roundTo_intCast_mul hunit 0

theorem roundTo_neg (x : K) : roundTo unit (-x) = -roundTo unit x := by
  rw [roundTo, neg_div, roundAway_neg, roundTo, Int.cast_neg, neg_mul]

/-- A number loses less than half a unit, or half a unit by being rounded away from zero. -/
theorem lost_cases (hunit : 0 < unit) (x : K) :
    |lost unit x| < unit / 2 ∨ lost unit x = unit / 2 ∧ x < 0 ∨
      lost unit x = -(unit / 2) ∧ 0 < x := by
  have hzero : lost unit (0 : K) = 0 := by rw [lost, roundTo_zero hunit, sub_zero]
  have htogether : RoundTogether unit x 0 :=
    (roundTo_add_iff hunit).mp (by rw [add_zero, roundTo_zero hunit, add_zero])
  rwa [RoundTogether, hzero, add_zero, add_zero] at htogether

theorem roundTo_nonneg (hunit : 0 < unit) (hx : 0 ≤ x) : 0 ≤ roundTo unit x := by
  have hinteger : 0 ≤ roundAway (x / unit) := by
    rw [roundAway, if_pos (div_nonneg hx hunit.le), Int.floor_nonneg]
    have hdiv := div_nonneg hx hunit.le
    linarith
  exact mul_nonneg (Int.cast_nonneg hinteger) hunit.le

/-! ### Multiples of the unit -/

omit [IsStrictOrderedRing K] in
theorem lost_of_multiple (hx : roundTo unit x = x) : lost unit x = 0 :=
  sub_eq_zero.mpr hx.symm

theorem roundTo_add_of_multiples (hunit : 0 < unit) (hx : roundTo unit x = x)
    (hy : roundTo unit y = y) : roundTo unit (x + y) = x + y := by
  have htogether : RoundTogether unit x y := by
    refine Or.inl ?_
    rw [lost_of_multiple hx, lost_of_multiple hy, add_zero, abs_zero]
    exact half_pos hunit
  rw [(roundTo_add_iff hunit).mpr htogether, hx, hy]

theorem roundTo_sum_of_multiples (hunit : 0 < unit) {terms : List K}
    (hterms : ∀ term ∈ terms, roundTo unit term = term) : roundTo unit terms.sum = terms.sum := by
  induction terms with
  | nil => exact roundTo_zero hunit
  | cons term terms ih =>
      rw [List.sum_cons]
      exact roundTo_add_of_multiples hunit (hterms term List.mem_cons_self)
        (ih fun other hother => hterms other (List.mem_cons_of_mem term hother))

/-- What is added to a multiple is rounded on its own. -/
theorem roundTo_add_of_nonneg (hunit : 0 < unit) (hmultiple : roundTo unit x = x)
    (hx : 0 ≤ x) (hy : 0 ≤ y) : roundTo unit (x + y) = x + roundTo unit y := by
  have htogether : RoundTogether unit x y := by
    rw [RoundTogether, lost_of_multiple hmultiple, zero_add]
    rcases lost_cases hunit y with hless | ⟨-, hneg⟩ | ⟨hhalf, hpos⟩
    · exact Or.inl hless
    · exact absurd hneg (not_lt.mpr hy)
    · exact Or.inr (Or.inr ⟨hhalf, by linarith⟩)
  rw [(roundTo_add_iff hunit).mpr htogether, hmultiple]

/-- What is taken away from a multiple is rounded on its own, unless it is in the middle: then
it is rounded up, and so is what is left. -/
theorem roundTo_sub_iff (hunit : 0 < unit) (hmultiple : roundTo unit x = x) (hy : 0 ≤ y)
    (hle : y ≤ x) : roundTo unit (x - y) = x - roundTo unit y ↔ ¬Halfway unit y := by
  have hlost : lost unit (-y) = -lost unit y := by
    rw [lost, roundTo_neg, lost]
    ring
  have htogether := roundTo_add_iff hunit (x := x) (y := -y)
  rw [roundTo_neg, hmultiple, ← sub_eq_add_neg, ← sub_eq_add_neg] at htogether
  rw [htogether, RoundTogether, lost_of_multiple hmultiple, zero_add, hlost, abs_neg, Halfway]
  rcases lost_cases hunit y with hless | ⟨-, hneg⟩ | ⟨hhalf, hpos⟩
  · exact ⟨fun _ => hless.ne, fun _ => Or.inl hless⟩
  · exact absurd hneg (not_lt.mpr hy)
  · have habs : |lost unit y| = unit / 2 := by rw [hhalf, abs_neg, abs_of_pos (half_pos hunit)]
    refine ⟨?_, fun hnot => absurd habs hnot⟩
    rintro (hless | ⟨-, hneg⟩ | ⟨heq, -⟩)
    · exact absurd habs hless.ne
    · linarith
    · rw [hhalf] at heq
      linarith

end Units

end EasyTrade.Rounding

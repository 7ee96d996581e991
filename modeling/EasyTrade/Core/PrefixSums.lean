import Mathlib

/-!
# Prefix sums

The prefix sums of non-negative values divide an interval into pieces, one for each
value.  A search for the first prefix sum that reaches a bound finds the piece in which
the bound lies; a bound on an edge belongs to the piece below it, and the lower end of the
whole interval to the first piece.
-/

namespace EasyTrade.PrefixSums

section Sums

variable {K : Type*} [AddCommGroup K] {values : List K} {i : ℕ}

/-- The sum of the first `n` values. -/
def sumTo (values : List K) (n : ℕ) : K := (values.take n).sum

@[simp]
theorem sumTo_zero (values : List K) : sumTo values 0 = 0 := rfl

@[simp]
theorem sumTo_cons (value : K) (values : List K) (n : ℕ) :
    sumTo (value :: values) (n + 1) = value + sumTo values n := by
  rw [sumTo, List.take_succ_cons, List.sum_cons, sumTo]

theorem sumTo_succ (hi : i < values.length) :
    sumTo values (i + 1) = sumTo values i + values[i] := by
  rw [sumTo, List.take_add_one, List.getElem?_eq_getElem hi, Option.toList_some, List.sum_append,
    List.sum_singleton, sumTo]

end Sums

section Search

variable {K : Type*} [AddCommGroup K] [LinearOrder K] [IsOrderedAddMonoid K]
variable {values : List K} {bound start : K} {i : ℕ}

theorem sumTo_nonneg (hnonneg : ∀ value ∈ values, 0 ≤ value) (n : ℕ) : 0 ≤ sumTo values n :=
  List.sum_nonneg fun value hvalue => hnonneg value (List.mem_of_mem_take hvalue)

theorem sumTo_le_sum (hnonneg : ∀ value ∈ values, 0 ≤ value) (n : ℕ) :
    sumTo values n ≤ values.sum := by
  have hrest : 0 ≤ (values.drop n).sum :=
    List.sum_nonneg fun value hvalue => hnonneg value (List.mem_of_mem_drop hvalue)
  calc sumTo values n ≤ sumTo values n + (values.drop n).sum := le_add_of_nonneg_right hrest
    _ = values.sum := List.sum_take_add_sum_drop values n

/-- The first value with which the sum that begins at `start` reaches the bound. -/
def firstReaching (bound : K) : List K → K → ℕ
  | [], _ => 0
  | value :: values, start =>
      if bound ≤ start + value then 0 else firstReaching bound values (start + value) + 1

/-- A value is the first exactly when its sum reaches the bound and the one before it, if
there is one, does not. -/
theorem firstReaching_eq_iff (hnonneg : ∀ value ∈ values, 0 ≤ value) (hi : i < values.length) :
    firstReaching bound values start = i ↔
      bound ≤ start + sumTo values (i + 1) ∧ (i = 0 ∨ start + sumTo values i < bound) := by
  induction values generalizing start i with
  | nil => cases hi
  | cons value values ih =>
      have hrest : ∀ value ∈ values, 0 ≤ value := fun value hvalue =>
        hnonneg value (List.mem_cons_of_mem _ hvalue)
      rw [firstReaching]
      cases i with
      | zero =>
          rw [sumTo_cons, sumTo_zero, add_zero]
          by_cases hreached : bound ≤ start + value
          · rw [if_pos hreached]
            exact iff_of_true rfl ⟨hreached, Or.inl rfl⟩
          · rw [if_neg hreached]
            exact iff_of_false (Nat.succ_ne_zero _) fun h => hreached h.1
      | succ i =>
          rw [sumTo_cons, sumTo_cons, ← add_assoc, ← add_assoc]
          have hsum := sumTo_nonneg hrest i
          by_cases hreached : bound ≤ start + value
          · rw [if_pos hreached]
            refine iff_of_false (Nat.succ_ne_zero _).symm fun h => ?_
            have hbefore := h.2.resolve_left (Nat.succ_ne_zero _)
            exact absurd (hreached.trans (le_add_of_nonneg_right hsum)) (not_le.mpr hbefore)
          · have hi : i < values.length := Nat.lt_of_succ_lt_succ hi
            rw [if_neg hreached, Nat.add_right_cancel_iff, ih hrest hi]
            refine and_congr_right fun _ => ⟨fun h => Or.inr ?_, fun h => ?_⟩
            · rcases h with rfl | hbefore
              · rw [sumTo_zero, add_zero]
                exact not_le.mp hreached
              · exact hbefore
            · exact Or.inr (h.resolve_left (Nat.succ_ne_zero _))

omit [IsOrderedAddMonoid K] in
/-- A bound that the whole sum reaches is reached by one of the values. -/
theorem firstReaching_lt (hne : values ≠ []) (hbound : bound ≤ start + values.sum) :
    firstReaching bound values start < values.length := by
  induction values generalizing start with
  | nil => exact absurd rfl hne
  | cons value values ih =>
      rw [firstReaching]
      split_ifs with hreached
      · exact Nat.succ_pos _
      · rw [List.sum_cons, ← add_assoc] at hbound
        refine Nat.succ_lt_succ (ih (fun hnil => hreached ?_) hbound)
        rwa [hnil, List.sum_nil, add_zero] at hbound

end Search

/-! ## Intervals -/

section Intervals

variable {K : Type*} [Field K] [LinearOrder K]

/-- An interval of the given length, with or without its ends. -/
def IsInterval (s : Set K) (length : K) : Prop :=
  ∃ low high, low ≤ high ∧ high - low = length ∧ Set.Ioo low high ⊆ s ∧ s ⊆ Set.Icc low high

theorem IsInterval.volume {s : Set ℝ} {length : ℝ} (hinterval : IsInterval s length) :
    MeasureTheory.volume s = ENNReal.ofReal length := by
  obtain ⟨low, high, -, rfl, hinner, houter⟩ := hinterval
  refine le_antisymm ?_ ?_
  · calc MeasureTheory.volume s ≤ MeasureTheory.volume (Set.Icc low high) :=
          MeasureTheory.measure_mono houter
      _ = ENNReal.ofReal (high - low) := Real.volume_Icc
  · calc ENNReal.ofReal (high - low) = MeasureTheory.volume (Set.Ioo low high) :=
          Real.volume_Ioo.symm
      _ ≤ MeasureTheory.volume s := MeasureTheory.measure_mono hinner

end Intervals

end EasyTrade.PrefixSums

import EasyTrade.Pricing.PricingDataGenerator

/-!
# The shape of a candle

On every section the curve moves by less than the base difference in a minute, so the
draws are always scaled by the base difference; and every price of the curve is so large
against it that no draw makes a candle reach zero.
-/

namespace EasyTrade.Pricing

open PricingDataGenerator

/-- Positive prices in their order, and a spread in proportion. -/
structure Candle.WellFormed (candle : Candle) (baseDifference : ℚ) : Prop where
  low_pos : 0 < candle.low
  low_le : candle.low ≤ min candle.opening candle.closing
  le_high : max candle.opening candle.closing ≤ candle.high
  spread_le : candle.high - candle.low ≤
    4 * max baseDifference |candle.closing - candle.opening|

section Curve

variable (instrument : Instruments)

theorem baseDifference_pos : 0 < instrument.curve.baseDifference := by
  cases instrument <;> norm_num [Instruments.curve]

/-- The corners are far above zero, and no section is steep. -/
theorem corner_bounds {k : ℕ} (hk : k < 8) :
    10 * instrument.curve.baseDifference ≤ corner instrument k ∧
      10 * instrument.curve.baseDifference ≤ corner instrument (k + 1) ∧
      |corner instrument (k + 1) - corner instrument k| ≤
        180 * instrument.curve.baseDifference := by
  have hall : ∀ instrument ∈ Instruments.values, ∀ k < 8,
      10 * instrument.curve.baseDifference ≤ corner instrument k ∧
        10 * instrument.curve.baseDifference ≤ corner instrument (k + 1) ∧
        |corner instrument (k + 1) - corner instrument k| ≤
          180 * instrument.curve.baseDifference := by
    decide +kernel
  exact hall instrument instrument.mem_values k hk

/-- A line moves by at most a sixtieth of the base difference in a second. -/
theorem abs_line_sub_le {k : ℕ} (hk : k < 8) {start finish : ℤ} (hle : start ≤ finish) :
    |line instrument k finish - line instrument k start| ≤
      instrument.curve.baseDifference / 60 * (finish - start) := by
  have hslope := (corner_bounds instrument hk).2.2
  have hcast : (0 : ℚ) ≤ finish - start := by
    have hcast : (start : ℚ) ≤ finish := by exact_mod_cast hle
    linarith
  calc |line instrument k finish - line instrument k start|
      = |(corner instrument (k + 1) - corner instrument k) / 10800 * (finish - start)| := by
        rw [line, line]
        congr 1
        ring
    _ = |corner instrument (k + 1) - corner instrument k| / 10800 * (finish - start) := by
        rw [abs_mul, abs_div, abs_of_nonneg hcast]
        norm_num
    _ ≤ 180 * instrument.curve.baseDifference / 10800 * (finish - start) := by
        gcongr
    _ = instrument.curve.baseDifference / 60 * (finish - start) := by ring

/-- The section a second of the day is on, and where the curve is a minute later. -/
theorem exists_line {time : ℤ} (hnonneg : 0 ≤ time) (hday : time < 86400) :
    ∃ k : ℕ, k < 8 ∧ 10800 * (k : ℤ) ≤ time ∧ time < 10800 * (k + 1 : ℤ) ∧
      generatePrecisePricingData time instrument = line instrument k time ∧
      (generatePrecisePricingData (time + 60) instrument = line instrument k (time + 60) ∨
        k + 1 < 8 ∧ 10800 * (k + 1 : ℤ) ≤ time + 60 ∧
          generatePrecisePricingData (time + 60) instrument =
            line instrument (k + 1) (time + 60)) := by
  obtain ⟨k, hk⟩ := Int.eq_ofNat_of_zero_le (by omega : 0 ≤ time / 10800)
  refine ⟨k, by omega, by omega, by omega,
    precise_on_section instrument k (by omega) (by omega) (by omega), ?_⟩
  by_cases hsame : time + 60 ≤ 10800 * (k + 1 : ℤ) ∨ k = 7
  · exact Or.inl (precise_on_section instrument k (by omega) (by omega) hsame)
  · exact Or.inr ⟨by omega, by omega,
      precise_on_section instrument (k + 1) (by omega) (by push_cast; omega)
        (by push_cast; omega)⟩

/-- In a minute the curve moves by the base difference at most. -/
theorem abs_difference_le {time : ℤ} (hnonneg : 0 ≤ time) (hday : time < 86400) :
    |generatePrecisePricingData (time + 60) instrument -
      generatePrecisePricingData time instrument| ≤ instrument.curve.baseDifference := by
  obtain ⟨k, hk, -, hend, hopening, hclosing⟩ := exists_line instrument hnonneg hday
  cases hclosing with
  | inl hclosing =>
      rw [hopening, hclosing]
      have hmove := abs_line_sub_le instrument hk (by omega : time ≤ time + 60)
      push_cast at hmove
      linarith
  | inr hclosing =>
      obtain ⟨hk', hstart, hclosing⟩ := hclosing
      rw [hopening, hclosing]
      -- first to the end of the section, then on the next one
      have hbefore := abs_line_sub_le instrument hk hend.le
      have hafter := abs_line_sub_le instrument hk' hstart
      have hcorner : line instrument (k + 1) (10800 * (k + 1 : ℤ)) =
          line instrument k (10800 * (k + 1 : ℤ)) := by
        rw [line_end, ← line_start]
        push_cast
        rfl
      rw [hcorner] at hafter
      have htriangle := abs_sub_le (line instrument (k + 1) (time + 60))
        (line instrument k (10800 * (k + 1 : ℤ))) (line instrument k time)
      push_cast at hbefore hafter
      linarith

/-- The curve stays far above zero through the day. -/
theorem le_precise {time : ℤ} (hnonneg : 0 ≤ time) (hday : time < 86400) :
    10 * instrument.curve.baseDifference ≤ generatePrecisePricingData time instrument := by
  obtain ⟨k, hk, hstart, hend, hprice, -⟩ := exists_line instrument hnonneg hday
  obtain ⟨hleft, hright, -⟩ := corner_bounds instrument hk
  have hstart' : (10800 * k : ℚ) ≤ time := by exact_mod_cast hstart
  have hend' : (time : ℚ) ≤ 10800 * (k + 1) := by exact_mod_cast hend.le
  -- between its corners a line is their weighted mean
  have hmean : line instrument k time =
      corner instrument k * ((10800 * (k + 1) - time) / 10800) +
        corner instrument (k + 1) * ((time - 10800 * k) / 10800) := by
    rw [line]
    ring
  rw [hprice, hmean]
  have hleft' := mul_le_mul_of_nonneg_right hleft
    (by linarith : (0 : ℚ) ≤ (10800 * (k + 1) - time) / 10800)
  have hright' := mul_le_mul_of_nonneg_right hright
    (by linarith : (0 : ℚ) ≤ (time - 10800 * k) / 10800)
  linarith

end Curve

section Collections

variable {values : List ℚ} {bound : ℚ}

theorem collectionsMax_le (hne : values ≠ []) (hbound : ∀ value ∈ values, value ≤ bound) :
    collectionsMax values ≤ bound := by
  cases hmax : values.max? with
  | none => exact absurd (List.max?_eq_none_iff.mp hmax) hne
  | some value =>
      rw [collectionsMax, hmax]
      exact hbound value (List.max?_mem hmax)

theorem le_collectionsMin (hne : values ≠ []) (hbound : ∀ value ∈ values, bound ≤ value) :
    bound ≤ collectionsMin values := by
  cases hmin : values.min? with
  | none => exact absurd (List.min?_eq_none_iff.mp hmin) hne
  | some value =>
      rw [collectionsMin, hmin]
      exact hbound value (List.min?_mem hmin)

end Collections

/-- Every candle of the day is well formed, whatever is drawn. -/
theorem candle_wellFormed (instrument : Instruments) {time : ℤ} (hnonneg : 0 ≤ time)
    (hday : time < 86400) {random : ℕ → ℚ} (hrandom : ∀ i < 60, 0 ≤ random i ∧ random i < 1) :
    (generateCandleData random time instrument).WellFormed
      instrument.curve.baseDifference := by
  have hbase := baseDifference_pos instrument
  have hopening := le_precise instrument hnonneg hday
  have hmove := abs_le.mp (abs_difference_le instrument hnonneg hday)
  rw [generateCandleData]
  generalize generatePrecisePricingData time instrument = opening at hopening hmove ⊢
  generalize generatePrecisePricingData (time + 60) instrument = closing at hmove ⊢
  generalize instrument.curve.baseDifference = base at hbase hopening hmove ⊢
  have hdifference : (if closing - opening < base then base else closing - opening) = base := by
    split <;> linarith
  simp only [hdifference]
  set values := (List.range 60).map fun i => opening + (random i * 4 - 2) * base with hvalues
  have hne : values ≠ [] := by simp [hvalues]
  have hbounds : ∀ value ∈ values, opening - 2 * base ≤ value ∧ value ≤ opening + 2 * base := by
    intro value hvalue
    obtain ⟨i, hi, rfl⟩ := List.mem_map.mp hvalue
    obtain ⟨hlow, hhigh⟩ := hrandom i (List.mem_range.mp hi)
    have hdown := mul_nonneg hlow hbase.le
    have hup := mul_le_mul_of_nonneg_right hhigh.le hbase.le
    constructor <;> linarith
  have hhigh := collectionsMax_le hne fun value hvalue => (hbounds value hvalue).2
  have hlow := le_collectionsMin hne fun value hvalue => (hbounds value hvalue).1
  have hlowest : opening - 2 * base ≤ min (min (collectionsMin values) opening) closing :=
    le_min (le_min hlow (by linarith)) (by linarith)
  have hhighest : max (max (collectionsMax values) opening) closing ≤ opening + 2 * base :=
    max_le (max_le hhigh (by linarith)) (by linarith)
  refine ⟨by linarith, ?_, ?_, ?_⟩
  · exact le_min ((min_le_left _ _).trans (min_le_right _ _)) (min_le_right _ _)
  · exact max_le ((le_max_right _ _).trans (le_max_left _ _)) (le_max_right _ _)
  · have hspread := le_max_left base |closing - opening|
    linarith

/-- A candle at the steepest fall of all sections, with the draws at their ends. -/
theorem candle_wellFormed_easyplanes :
    (generateCandleData (fun i => if i % 2 = 0 then 0 else 0.99) 60000 .easyplanes).WellFormed
      0.3 :=
  candle_wellFormed .easyplanes (by norm_num) (by norm_num) fun i _ => by
    split <;> norm_num

end EasyTrade.Pricing

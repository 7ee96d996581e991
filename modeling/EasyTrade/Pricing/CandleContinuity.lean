import EasyTrade.Pricing.PricingDataGenerator

/-!
# Consecutive candles

A candle closes where the curve is one minute later, and the next one opens where the
curve is at that minute of the day.  The two are the same within a day.  Across midnight
the closing price lies on the last line of the curve, beyond its end, unless midnight is
on the full minute; and the running second of a very long list overflows.
-/

namespace EasyTrade.Pricing

open PricingDataGenerator

/-- Every candle opens where the one before it closed. -/
def Continuous (prices : List GeneratedPricing) : Prop :=
  prices.IsChain fun previous next => next.candle.opening = previous.candle.closing

instance (prices : List GeneratedPricing) : Decidable (Continuous prices) := by
  unfold Continuous
  infer_instance

/-- The candle for the second `time` of the day goes on in the candle after it. -/
def GoesOn (instrument : Instruments) (time : Int32) : Prop :=
  generatePrecisePricingData ((time + 60) % 86400).toInt instrument =
    generatePrecisePricingData ((time % 86400).toInt + 60) instrument

/-- The running second of `massiveLoop`. -/
def runningSecond (time : Int32) : ℕ → Int32
  | 0 => time
  | rounds + 1 => runningSecond (time + 60) rounds

theorem continuous_massiveLoop (instrument : Instruments) (rounds : ℕ) (random : ℕ → ℚ)
    (time : Int32) (cal : ℤ) :
    Continuous (massiveLoop instrument rounds random time cal) ↔
      ∀ i, i + 1 < rounds → GoesOn instrument (runningSecond time i) := by
  induction rounds generalizing random time cal with
  | zero => simp [massiveLoop, Continuous]
  | succ rounds ih =>
      cases rounds with
      | zero => simp [massiveLoop, Continuous]
      | succ rounds =>
          have htail := ih (fun i => random (60 + i)) (time + 60) (addMinutes cal 1)
          rw [massiveLoop] at htail ⊢
          rw [massiveLoop, Continuous, List.isChain_cons_cons]
          rw [Continuous] at htail
          rw [htail]
          constructor
          · rintro ⟨hfirst, hrest⟩ i hi
            cases i with
            | zero => exact hfirst
            | succ i => exact hrest i (by omega)
          · intro h
            exact ⟨h 0 (by omega), fun i hi => h (i + 1) (by omega)⟩

theorem toInt_next (time : Int32) : (time + 60).toInt = Int.bmod (time.toInt + 60) (2 ^ 32) := by
  rw [Int32.toInt_add]
  rfl

/-- As long as it fits, the running second is what it should be. -/
theorem toInt_runningSecond {time : Int32} {rounds : ℕ}
    (hfits : time.toInt + 60 * rounds < 2 ^ 31) :
    (runningSecond time rounds).toInt = time.toInt + 60 * rounds := by
  induction rounds generalizing time with
  | zero => simp [runningSecond]
  | succ rounds ih =>
      have hlow := time.le_toInt
      push_cast at hfits
      have hstep : (time + 60).toInt = time.toInt + 60 := by
        rw [toInt_next]
        exact Int.bmod_eq_of_le (by omega) (by omega)
      rw [runningSecond, ih (by omega), hstep]
      push_cast
      ring

section GoesOn

variable {instrument : Instruments} {time : Int32}

/-- The slopes of the last section and of the first one agree for one instrument only. -/
theorem slopes_agree_iff :
    corner instrument 8 - corner instrument 7 = corner instrument 1 - corner instrument 0 ↔
      instrument = .corfig := by
  cases instrument <;> norm_num [corner, Instruments.curve] <;> exact Instruments.noConfusion

/-- Past the end of the day the last line and the first one meet only if they are one. -/
theorem line_past_midnight {second : ℤ} (hpast : 86400 < second) :
    line instrument 0 (second - 86400) = line instrument 7 second ↔ instrument = .corfig := by
  have hstart : corner instrument 8 = corner instrument 0 := rfl
  have hpos : (0 : ℚ) < second - 86400 := by
    have hcast : (86400 : ℚ) < second := by exact_mod_cast hpast
    linarith
  have hdifference : line instrument 7 second - line instrument 0 (second - 86400) =
      ((corner instrument 8 - corner instrument 7) -
        (corner instrument 1 - corner instrument 0)) / 10800 * (second - 86400) := by
    rw [line, line, ← hstart]
    push_cast
    ring
  rw [← slopes_agree_iff, eq_comm, ← sub_eq_zero, hdifference,
    mul_eq_zero_iff_right hpos.ne', div_eq_zero_iff,
    or_iff_left (by norm_num : (10800 : ℚ) ≠ 0), sub_eq_zero]

/-- Up to midnight, and at midnight, a candle goes on; past midnight it does when the line of
the last section is the line of the first one. -/
theorem precise_next_minute {second : ℤ} (hnonneg : 0 ≤ second) (hlt : second < 86400) :
    generatePrecisePricingData ((second + 60) % 86400) instrument =
        generatePrecisePricingData (second + 60) instrument ↔
      second + 60 ≤ 86400 ∨ instrument = .corfig := by
  by_cases hwithin : second + 60 < 86400
  · rw [Int.emod_eq_of_lt (by omega) hwithin]
    exact ⟨fun _ => Or.inl (by omega), fun _ => rfl⟩
  · have hmod : (second + 60) % 86400 = second + 60 - 86400 := by omega
    rw [hmod, precise_on_section instrument 0 (by omega) (Or.inr rfl) (by omega),
      precise_on_section instrument 7 (by omega) (by omega) (Or.inr rfl)]
    by_cases hmidnight : second + 60 = 86400
    · rw [hmidnight]
      have hzero := line_start instrument 0
      have hend := line_end instrument 7
      norm_num at hzero hend
      norm_num [hzero, hend, corner]
    · rw [line_past_midnight (by omega)]
      exact ⟨Or.inr, fun h => h.resolve_left (by omega)⟩

theorem goesOn_iff (hnonneg : 0 ≤ time.toInt) (hfits : time.toInt + 60 < 2 ^ 31) :
    GoesOn instrument time ↔ time.toInt % 86400 + 60 ≤ 86400 ∨ instrument = .corfig := by
  have hnext : (time + 60).toInt = time.toInt + 60 := by
    rw [toInt_next]
    exact Int.bmod_eq_of_le (by omega) (by omega)
  rw [GoesOn, toInt_secondOfDay, toInt_secondOfDay, hnext, Int.tmod_eq_emod_of_nonneg hnonneg,
    Int.tmod_eq_emod_of_nonneg (by omega), ← precise_next_minute (by omega) (by omega)]
  have hmod : (time.toInt + 60) % 86400 = (time.toInt % 86400 + 60) % 86400 := by omega
  rw [hmod]

/-- The line of the second section does not lead to where the first one comes from. -/
theorem line_overflow {offset : ℤ} (hnonneg : 0 ≤ offset) (hlt : offset < 60) :
    line instrument 0 (offset - 11648) ≠ line instrument 1 (offset + 11648) := by
  have hlow : (0 : ℚ) ≤ offset := by exact_mod_cast hnonneg
  have hhigh : (offset : ℚ) < 60 := by exact_mod_cast hlt
  intro heq
  cases instrument <;> norm_num [line, corner, Instruments.curve] at heq <;> linarith

/-- When the running second overflows, the candles are torn apart. -/
theorem not_goesOn (hoverflow : 2 ^ 31 ≤ time.toInt + 60) : ¬ GoesOn instrument time := by
  have hlt := time.toInt_lt
  have hnext : (time + 60).toInt = time.toInt + 60 - 2 ^ 32 := by
    rw [toInt_next, Int.bmod_def]
    split <;> omega
  have hsecond : time.toInt.tmod 86400 = time.toInt - 24855 * 86400 := by
    rw [Int.tmod_eq_emod_of_nonneg (by omega)]
    omega
  have hnextSecond : (time.toInt + 60 - 2 ^ 32).tmod 86400 =
      time.toInt + 60 - 2 ^ 32 + 24855 * 86400 := by
    rw [← Int.neg_neg (time.toInt + 60 - 2 ^ 32), Int.neg_tmod,
      Int.tmod_eq_emod_of_nonneg (by omega)]
    omega
  rw [GoesOn, toInt_secondOfDay, toInt_secondOfDay, hnext, hsecond, hnextSecond,
    precise_on_section instrument 0 (by omega) (Or.inr rfl) (by omega),
    precise_on_section instrument 1 (by omega) (by omega) (by omega)]
  have hclosing : time.toInt - 24855 * 86400 + 60 =
      (time.toInt + 60 - 2 ^ 31) + 11648 := by omega
  have hopening : time.toInt + 60 - 2 ^ 32 + 24855 * 86400 =
      (time.toInt + 60 - 2 ^ 31) - 11648 := by omega
  rw [hclosing, hopening]
  exact line_overflow (by omega) (by omega)

end GoesOn

/-! ## The lists -/

section Lists

variable {time : Int32}

/-- A list from the second `time` on is continuous exactly if it ends within the day, or if it
stays within 32 bits and passes midnight on the full minute or on a straight line. -/
theorem goesOn_all_iff (instrument : Instruments) (rounds : ℕ) (hnonneg : 0 ≤ time.toInt)
    (hday : time.toInt < 86400) :
    (∀ i, i + 1 < rounds → GoesOn instrument (runningSecond time i)) ↔
      time.toInt + 60 * (rounds - 1 : ℤ) < 86400 ∨
        time.toInt + 60 * (rounds - 1 : ℤ) < 2 ^ 31 ∧
          (time.toInt % 60 = 0 ∨ instrument = .corfig) := by
  constructor
  · intro h
    have hfits : time.toInt + 60 * (rounds - 1 : ℤ) < 2 ^ 31 := by
      by_contra hlarge
      -- the last round before the overflow
      obtain ⟨i, hi⟩ := Int.eq_ofNat_of_zero_le
        (by omega : 0 ≤ (2 ^ 31 - 1 - time.toInt) / 60)
      have hsecond : (runningSecond time i).toInt = time.toInt + 60 * i :=
        toInt_runningSecond (by omega)
      exact not_goesOn (by rw [hsecond]; omega) (h i (by omega))
    rw [or_iff_not_imp_left]
    intro hnight
    refine ⟨hfits, or_iff_not_imp_left.mpr fun hminute => ?_⟩
    -- the round that passes midnight
    obtain ⟨i, hi⟩ := Int.eq_ofNat_of_zero_le (by omega : 0 ≤ (86399 - time.toInt) / 60)
    have hsecond : (runningSecond time i).toInt = time.toInt + 60 * i :=
      toInt_runningSecond (by omega)
    have hgoesOn := (goesOn_iff (by rw [hsecond]; omega) (by rw [hsecond]; omega)).mp
      (h i (by omega))
    rw [hsecond] at hgoesOn
    exact hgoesOn.resolve_left (by omega)
  · intro h i hi
    have hfits : time.toInt + 60 * (rounds - 1 : ℤ) < 2 ^ 31 := by
      cases h with
      | inl hsmall => omega
      | inr hfits => exact hfits.1
    have hsecond : (runningSecond time i).toInt = time.toInt + 60 * i :=
      toInt_runningSecond (by omega)
    rw [goesOn_iff (by rw [hsecond]; omega) (by rw [hsecond]; omega), hsecond]
    cases h with
    | inl hsmall => exact Or.inl (by omega)
    | inr hnight => exact hnight.2.imp_left fun hminute => by omega

end Lists

/-- Within a list, every candle opens where the one before it closed exactly if the list ends
before midnight, or if it stays within 32 bits and the start is on a full minute or the
instrument the one whose slopes before and after midnight are the same.  Two single candles
one minute apart do so exactly if midnight is not between the end of the first and the
beginning of the second, or for that instrument. -/
theorem candles_continuous_iff (zone : ℤ) (random : ℕ → ℚ) (date : ℤ) (count : Int32)
    (instrument : Instruments) :
    (Continuous (generateMassivePricingData zone random date count instrument) ↔
      secondOfDay zone date + 60 * (count.toNatClampNeg - 1 : ℤ) < 86400 ∨
        secondOfDay zone date + 60 * (count.toNatClampNeg - 1 : ℤ) < 2 ^ 31 ∧
          (secondOfDay zone date % 60 = 0 ∨ instrument = .corfig)) ∧
    ∀ random' : ℕ → ℚ,
      ((generateSinglePricingData zone random' (date + 60000) instrument).map
            (·.candle.opening) =
          (generateSinglePricingData zone random date instrument).map (·.candle.closing) ↔
        secondOfDay zone date + 60 ≤ 86400 ∨ instrument = .corfig) := by
  have hday := secondOfDay_bounds zone date
  have hsecond := toInt_startTime zone date
  constructor
  · have hlist := goesOn_all_iff instrument count.toNatClampNeg
      (by rw [hsecond]; exact hday.1) (by rw [hsecond]; exact hday.2)
    rw [hsecond] at hlist
    rw [generateMassivePricingData, continuous_massiveLoop, hlist]
  · intro random'
    have hnext : secondOfDay zone (date + 60000) = (secondOfDay zone date + 60) % 86400 := by
      rw [secondOfDay, secondOfDay]
      omega
    rw [generateSingle_eq, generateSingle_eq, Option.map_some, Option.map_some,
      Option.some_inj, ← precise_next_minute hday.1 hday.2, ← hnext]
    rfl

/-- Two candles from half a minute before midnight on: the first one closes on the line of the
last section, the second one opens on the line of the first section. -/
theorem not_continuous_at_midnight : ¬ ∀ (zone : ℤ) (random : ℕ → ℚ) (date : ℤ) (count : Int32)
    (instrument : Instruments),
    Continuous (generateMassivePricingData zone random date count instrument) := by
  intro h
  have hlist := h 0 (fun _ => 0) 86370000 2 .easytravel
  exact absurd hlist (by decide +kernel)

end EasyTrade.Pricing

import EasyTrade.Pricing.ContentCreator

/-!
# The generator of the prices

`PricingDataGenerator` draws candles around a curve that is the same every day: eight
straight lines between the values of an instrument at every third hour.  Prices are exact.
An instant is in milliseconds, and the time zone has a fixed offset.
-/

namespace EasyTrade.Pricing

namespace HourValues

abbrev h0 : ℤ := 0 * 60 * 60
abbrev h3 : ℤ := 3 * 60 * 60
abbrev h6 : ℤ := 6 * 60 * 60
abbrev h9 : ℤ := 9 * 60 * 60
abbrev h12 : ℤ := 12 * 60 * 60
abbrev h15 : ℤ := 15 * 60 * 60
abbrev h18 : ℤ := 18 * 60 * 60
abbrev h21 : ℤ := 21 * 60 * 60
abbrev h24 : ℤ := 24 * 60 * 60

end HourValues

/-- The prices of an instrument at every third hour, and the least spread of its candles. -/
structure Curve where
  time0 : ℚ
  time3 : ℚ
  time6 : ℚ
  time9 : ℚ
  time12 : ℚ
  time15 : ℚ
  time18 : ℚ
  time21 : ℚ
  baseDifference : ℚ

def Instruments.curve : Instruments → Curve
  | easytravel => ⟨150, 157.5, 165, 142.5, 135, 142.5, 135, 157.5, 0.7⟩
  | easyplanes => ⟨73, 80, 87, 94, 92, 100, 50, 60, 0.3⟩
  | easyhotels => ⟨25, 24, 26, 20, 17, 20, 30, 35, 0.1⟩
  | jangrp => ⟨0.2170, 0.2370, 0.2270, 0.2070, 0.2370, 0.2170, 0.2370, 0.2070, 0.001⟩
  | corfig => ⟨0.2440, 0.2565, 0.2690, 0.2815, 0.2690, 0.2815, 0.2440, 0.2315, 0.001⟩
  | cmrtin => ⟨2.1740, 2.0740, 1.9740, 2.0740, 1.8740, 2.0740, 2.2740, 2.3740, 0.01⟩
  | chamat => ⟨1.1270, 1.1770, 1.2270, 1.2770, 1.3270, 1.2770, 1.2270, 1.1770, 0.01⟩
  | blstcr => ⟨10.0210, 9.5210, 9.0210, 8.5210, 8.0210, 8.5210, 9.0210, 9.5210, 0.04⟩
  | cafgal => ⟨4.6130, 4.7830, 4.6130, 4.4430, 4.6130, 4.9530, 4.6130, 4.2730, 0.02⟩
  | decgrp => ⟨0.8870, 0.8470, 0.9270, 0.8070, 0.9670, 0.7670, 1.0070, 0.7270, 0.005⟩
  | petban => ⟨4.0950, 3.6950, 4.2950, 4.2950, 3.6950, 3.4950, 3.4950, 3.8950, 0.02⟩
  | batbat => ⟨8.8910, 9.6910, 8.4910, 8.4910, 8.0910, 9.2910, 9.2910, 8.4910, 0.04⟩
  | stollc => ⟨0.4620, 0.4820, 0.4420, 0.5020, 0.4220, 0.4820, 0.4420, 0.5020, 0.002⟩
  | lebrga => ⟨0.1120, 0.0820, 0.1020, 0.0820, 0.0920, 0.0820, 0.0820, 0.1220, 0.0007⟩
  | moroba => ⟨0.0997, 0.1047, 0.1097, 0.1047, 0.1097, 0.1147, 0.1097, 0.1147, 0.0007⟩

namespace PricingDataGenerator

open HourValues

/-- The end of `generatePrecisePricingData`: the value on the line of one section. -/
def onSection (startValue endValue : ℚ) (sectionTime : ℤ) : ℚ :=
  let step := (endValue - startValue) / h3
  startValue + step * sectionTime

def generatePrecisePricingData (time : ℤ) (instrument : Instruments) : ℚ :=
  let curve := instrument.curve
  if time = h0 ∨ time = h24 then curve.time0
  else if time ≤ h3 then onSection curve.time0 curve.time3 time
  else if time ≤ h6 then onSection curve.time3 curve.time6 (time - h3)
  else if time ≤ h9 then onSection curve.time6 curve.time9 (time - h6)
  else if time ≤ h12 then onSection curve.time9 curve.time12 (time - h9)
  else if time ≤ h15 then onSection curve.time12 curve.time15 (time - h12)
  else if time ≤ h18 then onSection curve.time15 curve.time18 (time - h15)
  else if time ≤ h21 then onSection curve.time18 curve.time21 (time - h18)
  else onSection curve.time21 curve.time0 (time - h21)

/-- `Collections.max`, which is never asked about an empty collection here. -/
def collectionsMax (values : List ℚ) : ℚ := values.max?.getD 0

/-- `Collections.min`. -/
def collectionsMin (values : List ℚ) : ℚ := values.min?.getD 0

/-- `generateCandleData`; `random i` is what the call number `i` of `nextDouble` returns. -/
def generateCandleData (random : ℕ → ℚ) (time : ℤ) (instrument : Instruments) : Candle :=
  let opening := generatePrecisePricingData time instrument
  let closing := generatePrecisePricingData (time + 60) instrument
  let difference := closing - opening
  let difference :=
    if difference < instrument.curve.baseDifference then instrument.curve.baseDifference
    else difference
  let valueList := (List.range 60).map fun i => opening + (random i * 4 - 2) * difference
  { opening := opening
    high := max (max (collectionsMax valueList) opening) closing
    low := min (min (collectionsMin valueList) opening) closing
    closing := closing }

/-- A `Pricing`; its timestamp is an instant. -/
structure GeneratedPricing where
  timestamp : ℤ
  instrumentId : ℤ
  candle : Candle
  deriving DecidableEq, Repr

/-! `Calendar.get` in a zone that is `zone` milliseconds ahead. -/

def hourOfDay (zone cal : ℤ) : ℤ := (cal + zone) / (60 * 60 * 1000) % 24

def minute (zone cal : ℤ) : ℤ := (cal + zone) / (60 * 1000) % 60

def second (zone cal : ℤ) : ℤ := (cal + zone) / 1000 % 60

/-- `cal.add(Calendar.MINUTE, minutes)`. -/
def addMinutes (cal minutes : ℤ) : ℤ := cal + minutes * 60000

/-- The loop of `generateMassivePricingData`, with so many rounds to go. -/
def massiveLoop (instrument : Instruments) :
    (rounds : ℕ) → (random : ℕ → ℚ) → (time : Int32) → (cal : ℤ) → List GeneratedPricing
  | 0, _, _, _ => []
  | rounds + 1, random, time, cal =>
      { timestamp := cal
        instrumentId := instrument.instrumentId
        candle := generateCandleData random (time % 86400).toInt instrument } ::
      massiveLoop instrument rounds (fun i => random (60 + i)) (time + 60) (addMinutes cal 1)

def generateMassivePricingData (zone : ℤ) (random : ℕ → ℚ) (date : ℤ) (count : Int32)
    (instrument : Instruments) : List GeneratedPricing :=
  let time := Int32.ofInt
    (hourOfDay zone date * 60 * 60 + minute zone date * 60 + second zone date)
  massiveLoop instrument count.toNatClampNeg random time date

/-- `generateSinglePricingData`: the first element of a list of one. -/
def generateSinglePricingData (zone : ℤ) (random : ℕ → ℚ) (date : ℤ)
    (instrument : Instruments) : Option GeneratedPricing :=
  (generateMassivePricingData zone random date 1 instrument).head?

/-! ## The first second -/

/-- The second of the day at which the first candle starts. -/
def secondOfDay (zone date : ℤ) : ℤ := (date + zone) / 1000 % 86400

theorem secondOfDay_bounds (zone date : ℤ) :
    0 ≤ secondOfDay zone date ∧ secondOfDay zone date < 86400 := by
  rw [secondOfDay]
  omega

theorem toInt_startTime (zone date : ℤ) :
    (Int32.ofInt (hourOfDay zone date * 60 * 60 + minute zone date * 60 +
      second zone date)).toInt = secondOfDay zone date := by
  have hsecond : hourOfDay zone date * 60 * 60 + minute zone date * 60 + second zone date =
      secondOfDay zone date := by
    rw [hourOfDay, minute, second, secondOfDay]
    omega
  have hbounds := secondOfDay_bounds zone date
  rw [hsecond]
  exact Int32.toInt_ofInt_of_le (by omega) (by omega)

theorem toInt_secondOfDay (time : Int32) : (time % 86400).toInt = time.toInt.tmod 86400 := by
  rw [Int32.toInt_mod]
  rfl

theorem generateSingle_eq (zone : ℤ) (random : ℕ → ℚ) (date : ℤ) (instrument : Instruments) :
    generateSinglePricingData zone random date instrument =
      some
        { timestamp := date
          instrumentId := instrument.instrumentId
          candle := generateCandleData random (secondOfDay zone date) instrument } := by
  have hday := secondOfDay_bounds zone date
  have htime : (Int32.ofInt (hourOfDay zone date * 60 * 60 + minute zone date * 60 +
      second zone date) % 86400).toInt = secondOfDay zone date := by
    rw [toInt_secondOfDay, toInt_startTime, Int.tmod_eq_emod_of_nonneg hday.1,
      Int.emod_eq_of_lt hday.1 hday.2]
  rw [← htime]
  rfl

/-! ## The curve -/

/-- The values at the ends of the sections. -/
def corner (instrument : Instruments) : ℕ → ℚ
  | 0 => instrument.curve.time0
  | 1 => instrument.curve.time3
  | 2 => instrument.curve.time6
  | 3 => instrument.curve.time9
  | 4 => instrument.curve.time12
  | 5 => instrument.curve.time15
  | 6 => instrument.curve.time18
  | 7 => instrument.curve.time21
  | _ => instrument.curve.time0

/-- The line of a section, past its ends as well. -/
def line (instrument : Instruments) (k : ℕ) (time : ℤ) : ℚ :=
  corner instrument k +
    (corner instrument (k + 1) - corner instrument k) / 10800 * (time - 10800 * k)

theorem line_start (instrument : Instruments) (k : ℕ) :
    line instrument k (10800 * k) = corner instrument k := by
  rw [line]
  push_cast
  ring

theorem line_end (instrument : Instruments) (k : ℕ) :
    line instrument k (10800 * (k + 1)) = corner instrument (k + 1) := by
  rw [line]
  push_cast
  ring

theorem onSection_eq_line (instrument : Instruments) (k : ℕ) (time : ℤ) :
    onSection (corner instrument k) (corner instrument (k + 1)) (time - 10800 * k) =
      line instrument k time := by
  rw [onSection, line]
  push_cast
  norm_num

/-- The section that the comparisons choose. -/
theorem exists_section (instrument : Instruments) (time : ℤ) :
    ∃ k : ℕ, k < 8 ∧ (10800 * (k : ℤ) < time ∨ k = 0) ∧ (time ≤ 10800 * (k + 1 : ℤ) ∨ k = 7) ∧
      generatePrecisePricingData time instrument = line instrument k time := by
  rw [generatePrecisePricingData]
  simp only [h0, h3, h6, h9, h12, h15, h18, h21, h24, Int.reduceMul]
  split_ifs with hends hhour3 hhour6 hhour9 hhour12 hhour15 hhour18 hhour21
  · cases hends with
    | inl hstart =>
        refine ⟨0, by omega, by omega, by omega, ?_⟩
        rw [hstart]
        exact (line_start instrument 0).symm
    | inr hend =>
        refine ⟨7, by omega, by omega, by omega, ?_⟩
        rw [hend]
        exact (line_end instrument 7).symm
  · refine ⟨0, by omega, by omega, by omega, ?_⟩
    rw [← onSection_eq_line]
    simp [corner]
  · exact ⟨1, by omega, by omega, by omega, onSection_eq_line instrument 1 time⟩
  · exact ⟨2, by omega, by omega, by omega, onSection_eq_line instrument 2 time⟩
  · exact ⟨3, by omega, by omega, by omega, onSection_eq_line instrument 3 time⟩
  · exact ⟨4, by omega, by omega, by omega, onSection_eq_line instrument 4 time⟩
  · exact ⟨5, by omega, by omega, by omega, onSection_eq_line instrument 5 time⟩
  · exact ⟨6, by omega, by omega, by omega, onSection_eq_line instrument 6 time⟩
  · exact ⟨7, by omega, by omega, by omega, onSection_eq_line instrument 7 time⟩

/-- The line of a section gives the price on the section, with both of its ends.  The line of
the first one goes on to the left and the line of the last one to the right. -/
theorem precise_on_section (instrument : Instruments) {time : ℤ} (k : ℕ) (hk : k < 8)
    (hlow : 10800 * (k : ℤ) ≤ time ∨ k = 0) (hhigh : time ≤ 10800 * (k + 1 : ℤ) ∨ k = 7) :
    generatePrecisePricingData time instrument = line instrument k time := by
  obtain ⟨j, hj, hjlow, hjhigh, hprecise⟩ := exists_section instrument time
  rw [hprecise]
  -- the start of a section is computed on the section before it
  have hcases : j = k ∨ (j + 1 = k ∧ time = 10800 * (k : ℤ)) := by omega
  cases hcases with
  | inl heq => rw [heq]
  | inr hborder =>
      obtain ⟨rfl, rfl⟩ := hborder
      rw [line_start, ← line_end]
      push_cast
      rfl

end PricingDataGenerator

end EasyTrade.Pricing

import EasyTrade.Pricing.PricingDataGenerator

/-!
# A price for every minute

The content creator loads the prices of the last day, catches up with the clock as far as
the minute hand shows that time has passed, and then goes on minute by minute.  One
calendar is handed from each part to the next, so the timestamps have no gap and no
duplicate, also when the minute hand hides that whole hours have passed.
-/

namespace EasyTrade.Pricing

open EasyTrade.Program EasyTrade.Interleaving
open PricingDataGenerator (GeneratedPricing addMinutes minute secondOfDay)

/-- What the generator draws for a date and an instrument. -/
abbrev Draws := ℤ → Instruments → ℕ → ℚ

/-- The surroundings in a zone that is `zone` milliseconds ahead. -/
def inZone (zone : ℤ) (random : Draws) : Surroundings where
  generateCandleData date instrument :=
    PricingDataGenerator.generateCandleData (random date instrument) (secondOfDay zone date)
      instrument
  localTime instant := (instant + zone) / 1000

/-- `prepareInsertStatement`: the timestamp is sent as a local time. -/
def prepareInsertStatement (zone : ℤ) (pricing : GeneratedPricing) : NewPrice where
  timestamp := (pricing.timestamp + zone) / 1000
  instrumentId := pricing.instrumentId
  candle := pricing.candle

/-- The rows of the endless loop are those that the generator makes for single dates. -/
theorem prepare_generateSingle (zone : ℤ) (random : Draws) (date : ℤ)
    (instrument : Instruments) :
    (PricingDataGenerator.generateSinglePricingData zone (random date instrument) date
        instrument).map (prepareInsertStatement zone) =
      some (ContentCreator.generateSinglePricingData (inZone zone random) date instrument) := by
  rw [PricingDataGenerator.generateSingle_eq]
  rfl

namespace ContentCreator

/-- `executeBatch`: every row is tried, and the batch fails when a row has failed. -/
def executeBatch : List NewPrice → PriceTask Unit
  | [] => pure ()
  | price :: following => do
      let inserted ← tryCatch (do perform (.insert price following); pure true)
        fun _ => pure false
      executeBatch following
      if inserted then pure () else throw .sql

def BATCH_SIZE : ℕ := 100

/-- The loop of `insertBatchDataLogic` from index `i` on, with the batch collected so far. -/
def insertBatchDataLogic : (i : ℕ) → (batch data : List NewPrice) → PriceTask Unit
  | _, batch, [] => executeBatch batch
  | i, batch, price :: rest =>
      if (i + 1) % BATCH_SIZE = 0 then do
        executeBatch (batch ++ [price])
        insertBatchDataLogic (i + 1) [] rest
      else insertBatchDataLogic (i + 1) (batch ++ [price]) rest

variable (zone : ℤ) (random : Draws)

/-- A minute further the distance of the minute hands is one less. -/
theorem minute_distance_lt {current cal : ℤ} (h : minute zone current ≠ minute zone cal) :
    ((minute zone current - minute zone (addMinutes cal 1)) % 60).toNat <
      ((minute zone current - minute zone cal) % 60).toNat := by
  rw [minute, minute] at h
  rw [minute, minute, minute, addMinutes]
  omega

/-- The catch-up loop of `initializePricingData`; `current` is `calCurrent`. -/
def insertExtraData (current cal : ℤ) : PriceTask ℤ :=
  if minute zone current ≠ minute zone cal then do
    insertBatchData (generateAllPricingForGivenDate (inZone zone random) (addMinutes cal 1))
    insertExtraData current (addMinutes cal 1)
  else pure cal
termination_by ((minute zone current - minute zone cal) % 60).toNat
decreasing_by exact minute_distance_lt zone ‹_›

/-- `cal.add(Calendar.DATE, days)`. -/
def addDays (cal days : ℤ) : ℤ := cal + days * (24 * 60 * 60000)

/-- The prices of the last day, all those of one instrument before the next. -/
@[irreducible]
def lastDayPricing (cal : ℤ) : List NewPrice :=
  Instruments.values.flatMap fun i =>
    (PricingDataGenerator.generateMassivePricingData zone (random cal i) cal 1440 i).map
      (prepareInsertStatement zone)

/-- `initializePricingData`, once the table has been emptied; `start` and `current` are its two
readings of the clock. -/
def initializePricingData (start current : ℤ) : PriceTask ℤ := do
  let cal := addDays start (-1)
  tryCatch (insertBatchDataLogic 0 [] (lastDayPricing zone random cal)) fun _ => pure ()
  let cal := addMinutes (addDays cal 1) (-1)
  insertExtraData zone random current cal

/-- `main` with so many rounds of the endless loop, each of which moves `cal` by a minute.  It
returns `cal`. -/
def main (start current : ℤ) (rounds : ℕ) : PriceTask ℤ := do
  let cal ← initializePricingData zone random start current
  generatePricingData (inZone zone random) rounds cal 0
  pure (addMinutes cal rounds)

end ContentCreator

/-! ## What is inserted -/

/-- The rows that have been inserted, in their order. -/
def noteInserted : Note PriceException PriceCommand.Answer (List NewPrice)
  | log, .insert price _, .ok _ => log ++ [price]
  | log, _, _ => log

def insertsSucceed : (command : PriceCommand) → Except PriceException command.Answer → Prop
  | .insert _ _, answer => answer.isOk = true
  | _, _ => True

/-- The commands of the content creator while inserts succeed, with the log of the rows. -/
def recording : Semantics PriceException PriceCommand.Answer (PriceWorld × List NewPrice) :=
  fun command start answer final =>
    insertsSucceed command answer ∧ noted priceStep noteInserted command start answer final

theorem recording_total (command : PriceCommand) (state : PriceWorld × List NewPrice) :
    ∃ answer state', recording command state answer state' := by
  cases command with
  | insert price following =>
      exact ⟨.ok (), (_, _), rfl, ⟨.goes 0, rfl⟩, rfl⟩
  | deleteBefore timestamp =>
      exact ⟨.ok (), (_, _), trivial, ⟨.goes 0, rfl⟩, rfl⟩
  | currentPrices =>
      exact ⟨.error .sql, (_, _), trivial, ⟨.fails, rfl⟩, rfl⟩
  | currentTime =>
      exact ⟨.ok 0, (_, _), trivial, ⟨.goes 0, rfl⟩, rfl⟩

/-- The program returns a value after it has inserted these rows. -/
def Appends {α : Type} (task : PriceTask α) (value : α) (prices : List NewPrice) : Prop :=
  ∀ world log, wp recording (fun _ _ => True) task
    (fun outcome final => outcome = .ok value ∧ final.2 = log ++ prices) (world, log)

section Appends

variable {α β : Type} {task : PriceTask α} {value : α} {prices prices' : List NewPrice}

theorem appends_pure (value : α) : Appends (pure value) value [] :=
  fun _ log => ⟨rfl, (List.append_nil log).symm⟩

theorem Appends.bind {next : α → PriceTask β} {result : β} (htask : Appends task value prices)
    (hnext : Appends (next value) result prices') :
    Appends (task >>= next) result (prices ++ prices') := by
  intro world log
  rw [wp_bind]
  refine wp_mono (fun outcome final hfinal => ?_) (htask world log)
  obtain ⟨rfl, hlog⟩ := hfinal
  rw [andThen_ok]
  refine wp_mono (fun outcome' final' hfinal' => ?_) (hnext final.1 final.2)
  refine ⟨hfinal'.1, ?_⟩
  rw [hfinal'.2, hlog, List.append_assoc]

theorem Appends.tryCatch {handler : PriceException → PriceTask α}
    (htask : Appends task value prices) :
    Appends (MonadExcept.tryCatch task handler) value prices := by
  intro world log
  rw [wp_tryCatch]
  refine wp_mono (fun outcome final hfinal => ?_) (htask world log)
  obtain ⟨rfl, hlog⟩ := hfinal
  exact ⟨rfl, hlog⟩

theorem appends_insert (price : NewPrice) (following : List NewPrice) :
    Appends (perform (.insert price following)) () [price] := by
  intro world log
  rw [perform, wp_perform]
  refine ⟨trivial, fun answer final hstep => ?_⟩
  obtain ⟨hsucceeds, -, hnote⟩ := hstep
  cases answer with
  | ok value => exact ⟨rfl, hnote⟩
  | error error => cases hsucceeds

theorem appends_insertBatchData (batch : List NewPrice) :
    Appends (ContentCreator.insertBatchData batch) () batch := by
  induction batch with
  | nil => exact appends_pure ()
  | cons price following ih => exact (appends_insert price following).tryCatch.bind ih

theorem appends_executeBatch (batch : List NewPrice) :
    Appends (ContentCreator.executeBatch batch) () batch := by
  induction batch with
  | nil => exact appends_pure ()
  | cons price following ih =>
      have hinsert : Appends (MonadExcept.tryCatch
          (do perform (.insert price following); pure true)
          fun _ => (pure false : PriceTask Bool)) true ([price] ++ []) :=
        ((appends_insert price following).bind (appends_pure true)).tryCatch
      have hsplit : price :: following = ([price] ++ []) ++ (following ++ []) := by
        rw [List.append_nil, List.append_nil, List.singleton_append]
      rw [ContentCreator.executeBatch, hsplit]
      refine hinsert.bind ?_
      exact ih.bind (appends_pure ())

/-- All rows are inserted once, in whatever batches. -/
theorem appends_insertBatchDataLogic (i : ℕ) (batch data : List NewPrice) :
    Appends (ContentCreator.insertBatchDataLogic i batch data) () (batch ++ data) := by
  induction data generalizing i batch with
  | nil =>
      rw [List.append_nil]
      exact appends_executeBatch batch
  | cons price rest ih =>
      have hsplit : batch ++ price :: rest = batch ++ [price] ++ rest := List.append_cons ..
      rw [ContentCreator.insertBatchDataLogic, hsplit]
      split_ifs
      · refine (appends_executeBatch (batch ++ [price])).bind ?_
        exact ih (i + 1) []
      · exact ih (i + 1) (batch ++ [price])

theorem appends_removeOldPricingData (surroundings : Surroundings) :
    Appends (ContentCreator.removeOldPricingData surroundings) () [] := by
  intro world log
  rw [ContentCreator.removeOldPricingData, wp_bind, perform, wp_perform]
  refine ⟨trivial, fun answer state hstep => ?_⟩
  obtain ⟨-, ⟨choice, hmove⟩, hnote⟩ := hstep
  have hlog : state.2 = log := hnote
  cases answer with
  | error error =>
      -- reading the clock does not fail
      cases choice <;> cases hmove
  | ok now =>
      rw [andThen_ok, wp_tryCatch, perform, wp_perform]
      refine ⟨trivial, fun answer' state' hstep' => ?_⟩
      have hlog' : state'.2 = state.2 := hstep'.2.2
      cases answer' with
      | ok value => exact ⟨rfl, by rw [hlog', hlog, List.append_nil]⟩
      | error error => exact ⟨rfl, by rw [hlog', hlog, List.append_nil]⟩

end Appends

/-! ## The timestamps -/

/-- The timestamps inserted for an instrument. -/
def timestampsOf (instrument : Instruments) (prices : List NewPrice) : List ℤ :=
  (prices.filter fun price => price.instrumentId = instrument.instrumentId).map
    NewPrice.timestamp

/-- The local time that is sent for an instant. -/
def localTime (zone instant : ℤ) : ℤ := (instant + zone) / 1000

/-- For each instrument the rows are for `first` and every minute after it up to `cal`. -/
def IsMinuteSeries (zone first cal : ℤ) (prices : List NewPrice) : Prop :=
  ∃ n : ℕ, cal = addMinutes first n ∧ ∀ instrument, timestampsOf instrument prices =
    (List.range (n + 1)).map fun k : ℕ => localTime zone (addMinutes first k)

section Timestamps

variable {zone : ℤ} {random : Draws}

theorem timestampsOf_append (instrument : Instruments) (prices prices' : List NewPrice) :
    timestampsOf instrument (prices ++ prices') =
      timestampsOf instrument prices ++ timestampsOf instrument prices' := by
  rw [timestampsOf, List.filter_append, List.map_append]
  rfl

/-- In a list of all instruments each one finds its own rows. -/
theorem timestampsOf_flatMap (instrument : Instruments) (rows : Instruments → List NewPrice)
    (hrows : ∀ i, ∀ price ∈ rows i, price.instrumentId = i.instrumentId) :
    timestampsOf instrument (Instruments.values.flatMap rows) =
      (rows instrument).map NewPrice.timestamp := by
  have hown : ∀ i, timestampsOf instrument (rows i) =
      if i = instrument then (rows i).map NewPrice.timestamp else [] := by
    intro i
    split_ifs with heq
    · rw [timestampsOf, List.filter_eq_self.mpr fun price hprice => ?_]
      rw [hrows i price hprice, heq]
      exact decide_eq_true rfl
    · rw [timestampsOf, List.filter_eq_nil_iff.mpr fun price hprice => ?_, List.map_nil]
      rw [hrows i price hprice, decide_eq_true_eq]
      exact fun hid => heq (Instruments.instrumentId_injective hid)
  cases instrument <;>
    simp only [Instruments.values, List.flatMap_cons, List.flatMap_nil, timestampsOf_append,
      hown] <;> simp [timestampsOf]

theorem timestampsOf_generateAll (instrument : Instruments) (date : ℤ) :
    timestampsOf instrument
        (ContentCreator.generateAllPricingForGivenDate (inZone zone random) date) =
      [localTime zone date] := by
  have hsingle : ContentCreator.generateAllPricingForGivenDate (inZone zone random) date =
      Instruments.values.flatMap fun i =>
        [ContentCreator.generateSinglePricingData (inZone zone random) date i] :=
    (List.flatMap_pure_eq_map ..).symm
  rw [hsingle, timestampsOf_flatMap instrument _ fun i price hprice => ?_]
  · rfl
  · rw [List.mem_singleton.mp hprice]
    rfl

theorem timestamps_massiveLoop (instrument : Instruments) (rounds : ℕ) (random : ℕ → ℚ)
    (time : Int32) (cal : ℤ) :
    (PricingDataGenerator.massiveLoop instrument rounds random time cal).map
        GeneratedPricing.timestamp =
      (List.range rounds).map fun k : ℕ => addMinutes cal k := by
  induction rounds generalizing random time cal with
  | zero => rfl
  | succ rounds ih =>
      rw [PricingDataGenerator.massiveLoop, List.map_cons, ih, List.range_succ_eq_map,
        List.map_cons, List.map_map]
      congr 1
      · simp [addMinutes]
      · refine List.map_congr_left fun k _ => ?_
        simp only [addMinutes, Function.comp_apply]
        push_cast
        ring

theorem instrumentId_massiveLoop (instrument : Instruments) (rounds : ℕ) (random : ℕ → ℚ)
    (time : Int32) (cal : ℤ) :
    ∀ pricing ∈ PricingDataGenerator.massiveLoop instrument rounds random time cal,
      pricing.instrumentId = instrument.instrumentId := by
  induction rounds generalizing random time cal with
  | zero => exact fun pricing hpricing => absurd hpricing List.not_mem_nil
  | succ rounds ih =>
      rw [PricingDataGenerator.massiveLoop]
      exact List.forall_mem_cons.mpr ⟨rfl, ih _ _ _⟩

theorem timestampsOf_lastDay (instrument : Instruments) (cal : ℤ) :
    timestampsOf instrument (ContentCreator.lastDayPricing zone random cal) =
      (List.range 1440).map fun k : ℕ => localTime zone (addMinutes cal k) := by
  rw [ContentCreator.lastDayPricing, timestampsOf_flatMap instrument _ fun i price hprice => ?_]
  · have htimestamps := timestamps_massiveLoop instrument 1440 (random cal instrument)
      (Int32.ofInt (PricingDataGenerator.hourOfDay zone cal * 60 * 60 + minute zone cal * 60 +
        PricingDataGenerator.second zone cal)) cal
    calc ((PricingDataGenerator.generateMassivePricingData zone (random cal instrument) cal 1440
            instrument).map (prepareInsertStatement zone)).map NewPrice.timestamp
        = ((PricingDataGenerator.generateMassivePricingData zone (random cal instrument) cal 1440
            instrument).map GeneratedPricing.timestamp).map (localTime zone) := by
          rw [List.map_map, List.map_map]
          rfl
      _ = ((List.range 1440).map fun k : ℕ => addMinutes cal k).map (localTime zone) :=
          congrArg (List.map (localTime zone)) htimestamps
      _ = (List.range 1440).map fun k : ℕ => localTime zone (addMinutes cal k) := List.map_map ..
  · obtain ⟨pricing, hpricing, rfl⟩ := List.mem_map.mp hprice
    exact instrumentId_massiveLoop i _ _ _ _ pricing hpricing

end Timestamps

section Series

variable {zone first cal : ℤ} {prices : List NewPrice}

/-- The rows of the next minute go on with the series. -/
theorem IsMinuteSeries.next (random : Draws) (hseries : IsMinuteSeries zone first cal prices) :
    IsMinuteSeries zone first (addMinutes cal 1) (prices ++
      ContentCreator.generateAllPricingForGivenDate (inZone zone random) (addMinutes cal 1)) := by
  obtain ⟨n, hcal, htimestamps⟩ := hseries
  have hnext : addMinutes cal 1 = addMinutes first (n + 1 : ℕ) := by
    rw [hcal]
    simp only [addMinutes]
    push_cast
    ring
  refine ⟨n + 1, hnext, fun instrument => ?_⟩
  rw [timestampsOf_append, timestampsOf_generateAll, htimestamps, List.range_succ (n := n + 1),
    List.map_append, hnext]
  rfl

/-- No minute of a series occurs twice. -/
theorem IsMinuteSeries.nodup (hseries : IsMinuteSeries zone first cal prices)
    (instrument : Instruments) : (timestampsOf instrument prices).Nodup := by
  obtain ⟨n, -, htimestamps⟩ := hseries
  rw [htimestamps]
  refine List.Nodup.map ?_ List.nodup_range
  intro k l hkl
  simp only [localTime, addMinutes] at hkl
  omega

/-- A program that is handed a series and its calendar, and leaves a longer one. -/
def Continues (task : PriceTask ℤ) (zone first cal : ℤ) : Prop :=
  ∀ log, IsMinuteSeries zone first cal log → ∃ prices cal', Appends task cal' prices ∧
    IsMinuteSeries zone first cal' (log ++ prices)

theorem continues_insertExtraData (random : Draws) (first current cal : ℤ) :
    Continues (ContentCreator.insertExtraData zone random current cal) zone first cal := by
  induction cal using ContentCreator.insertExtraData.induct zone current with
  | case1 cal hbehind ih =>
      intro log hlog
      obtain ⟨prices, cal', happends, hseries⟩ := ih _ (hlog.next random)
      refine ⟨ContentCreator.generateAllPricingForGivenDate (inZone zone random)
        (addMinutes cal 1) ++ prices, cal', ?_, ?_⟩
      · rw [ContentCreator.insertExtraData, if_pos hbehind]
        exact (appends_insertBatchData _).bind happends
      · rwa [← List.append_assoc]
  | case2 cal hlevel =>
      intro log hlog
      refine ⟨[], cal, ?_, ?_⟩
      · rw [ContentCreator.insertExtraData, if_neg hlevel]
        exact appends_pure cal
      · rwa [List.append_nil]

theorem addMinutes_zero (cal : ℤ) : addMinutes cal 0 = cal := by
  rw [addMinutes, zero_mul, add_zero]

theorem addMinutes_succ (cal : ℤ) (rounds : ℕ) :
    addMinutes cal (rounds + 1 : ℕ) = addMinutes (addMinutes cal 1) rounds := by
  simp only [addMinutes]
  push_cast
  ring

theorem appends_generatePricingData (random : Draws) (rounds : ℕ) (cal : ℤ) (i : ℕ)
    {log : List NewPrice} (hlog : IsMinuteSeries zone first cal log) :
    ∃ prices,
      Appends (ContentCreator.generatePricingData (inZone zone random) rounds cal i) () prices ∧
      IsMinuteSeries zone first (addMinutes cal rounds) (log ++ prices) := by
  induction rounds generalizing cal i log with
  | zero =>
      refine ⟨[], appends_pure (), ?_⟩
      rwa [Nat.cast_zero, addMinutes_zero, List.append_nil]
  | succ rounds ih =>
      have hstep : addMinutes cal 1 = cal + 60000 := by rw [addMinutes, one_mul]
      have hnext := hlog.next random
      rw [addMinutes_succ, ContentCreator.generatePricingData, ← hstep]
      split_ifs with hday
      · obtain ⟨prices, happends, hseries⟩ := ih (addMinutes cal 1) 0 hnext
        refine ⟨_, (appends_insertBatchData _).bind
          ((appends_removeOldPricingData _).bind happends), ?_⟩
        rwa [List.nil_append, ← List.append_assoc]
      · obtain ⟨prices, happends, hseries⟩ := ih (addMinutes cal 1) (i + 1) hnext
        refine ⟨_, (appends_insertBatchData _).bind happends, ?_⟩
        rwa [← List.append_assoc]

/-- The load of the last day leaves the calendar at its last minute. -/
theorem isMinuteSeries_lastDay (random : Draws) (start : ℤ) :
    IsMinuteSeries zone (ContentCreator.addDays start (-1))
      (addMinutes (ContentCreator.addDays (ContentCreator.addDays start (-1)) 1) (-1))
      (ContentCreator.lastDayPricing zone random (ContentCreator.addDays start (-1))) := by
  refine ⟨1439, ?_, fun instrument => timestampsOf_lastDay instrument _⟩
  simp only [addMinutes, ContentCreator.addDays]
  push_cast
  ring

theorem appends_initializePricingData {random : Draws} {start current : ℤ}
    {extra : List NewPrice}
    (hextra : Appends (ContentCreator.insertExtraData zone random current
      (addMinutes (ContentCreator.addDays (ContentCreator.addDays start (-1)) 1) (-1))) cal
      extra) :
    Appends (ContentCreator.initializePricingData zone random start current) cal
      (ContentCreator.lastDayPricing zone random (ContentCreator.addDays start (-1)) ++
        extra) := by
  have hload := appends_insertBatchDataLogic 0 []
    (ContentCreator.lastDayPricing zone random (ContentCreator.addDays start (-1)))
  rw [List.nil_append] at hload
  exact hload.tryCatch.bind hextra

theorem continues_main (random : Draws) (start current : ℤ) (rounds : ℕ) :
    ∃ prices cal, Appends (ContentCreator.main zone random start current rounds) cal prices ∧
      IsMinuteSeries zone (ContentCreator.addDays start (-1)) cal prices := by
  obtain ⟨extra, cal, hextra, hcaughtUp⟩ := continues_insertExtraData random _ current _ _
    (isMinuteSeries_lastDay random start)
  obtain ⟨later, hlater, hseries⟩ := appends_generatePricingData random rounds cal 0 hcaughtUp
  refine ⟨_, addMinutes cal rounds, ?_, hseries⟩
  rw [← List.append_nil later]
  refine (appends_initializePricingData hextra).bind ?_
  exact hlater.bind (appends_pure (addMinutes cal rounds))

end Series

/-- When inserts succeed the content creator always gets to any round of its endless loop, and
what it has inserted then are, for each instrument, the minutes from one day before the start
to `cal`, each of them once. -/
theorem minute_series (zone : ℤ) (random : Draws) (start current : ℤ) (rounds : ℕ)
    (world : PriceWorld) :
    (∃ outcome final, Exec recording (ContentCreator.main zone random start current rounds)
      (world, []) outcome final) ∧
    ∀ outcome final, Exec recording (ContentCreator.main zone random start current rounds)
      (world, []) outcome final → ∃ cal, outcome = .ok cal ∧
        IsMinuteSeries zone (ContentCreator.addDays start (-1)) cal final.2 ∧
        ∀ instrument, (timestampsOf instrument final.2).Nodup := by
  refine ⟨exists_exec_of_total recording_total _ _, fun outcome final hexec => ?_⟩
  obtain ⟨prices, cal, happends, hseries⟩ := continues_main random start current rounds
  obtain ⟨houtcome, hlog⟩ := wp_iff_forall_exec.mp (happends world []) outcome final hexec
  rw [List.nil_append] at hlog
  rw [← hlog] at hseries
  exact ⟨cal, houtcome, hseries, hseries.nodup⟩

end EasyTrade.Pricing

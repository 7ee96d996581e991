import EasyTrade.Pricing.InstrumentPrices
import EasyTrade.Pricing.MinuteSeries

/-!
# The initial load

The content creator loads the last day instrument by instrument and then catches up minute by
minute.  Whatever the generator draws and however long the load takes, it ends with a whole
batch: the current prices are complete, and the rows of every instrument are in the order of
time although those of the table are not.
-/

namespace EasyTrade.Pricing

open EasyTrade.Program EasyTrade.Interleaving
open PricingDataGenerator (addMinutes)

/-! ## What has been sent -/

/-- What was sent for a row. -/
def PricingRow.sent (row : PricingRow) : NewPrice :=
  ⟨row.timestamp, row.instrumentId, row.candle⟩

/-- The table holds what has been inserted, in this order. -/
def Recorded (state : PriceWorld × List NewPrice) : Prop :=
  state.1.pricing.rows.map PricingRow.sent = state.2

/-- A minute series of the instruments whose last row is for the time of the calendar. -/
structure Loaded (zone first cal : ℤ) (prices : List NewPrice) : Prop where
  series : IsMinuteSeries zone first cal prices
  instruments : ∀ price ∈ prices, price.instrumentId ∈
    Instruments.values.map Instruments.instrumentId
  last : (prices.map NewPrice.timestamp).getLast? = some (localTime zone cal)

section Loaded

variable {zone first cal : ℤ} {prices : List NewPrice}

theorem Loaded.next (random : Draws) (hloaded : Loaded zone first cal prices) :
    Loaded zone first (addMinutes cal 1) (prices ++
      ContentCreator.generateAllPricingForGivenDate (inZone zone random) (addMinutes cal 1)) := by
  refine ⟨hloaded.series.next random, fun price hprice => ?_, ?_⟩
  · rcases List.mem_append.mp hprice with hold | hnew
    · exact hloaded.instruments price hold
    · rw [← (isBatch_generateAll (inZone zone random) (addMinutes cal 1)).instruments]
      exact List.mem_map_of_mem hnew
  · rw [List.map_append, List.getLast?_append]
    rfl

/-- The last row is for the last minute of the last instrument. -/
theorem getLast?_lastDay (random : Draws) (cal : ℤ) :
    ((ContentCreator.lastDayPricing zone random cal).map NewPrice.timestamp).getLast? =
      some (localTime zone (addMinutes cal (1439 : ℕ))) := by
  have htimestamps := timestamps_massiveLoop .moroba 1440 (random cal .moroba)
    (Int32.ofInt (PricingDataGenerator.hourOfDay zone cal * 60 * 60 +
      PricingDataGenerator.minute zone cal * 60 + PricingDataGenerator.second zone cal)) cal
  have hmoroba : (((PricingDataGenerator.generateMassivePricingData zone (random cal .moroba) cal
      1440 .moroba).map (prepareInsertStatement zone)).map NewPrice.timestamp).getLast? =
        some (localTime zone (addMinutes cal (1439 : ℕ))) := by
    have hlast := congrArg (fun instants => (instants.map (localTime zone)).getLast?) htimestamps
    rw [List.map_map] at hlast ⊢
    refine Eq.trans hlast ?_
    rw [List.map_map, List.getLast?_map, List.getLast?_range]
    rfl
  have hsplit : Instruments.values = Instruments.values.dropLast ++ [.moroba] := rfl
  rw [ContentCreator.lastDayPricing, hsplit, List.flatMap_append, List.flatMap_singleton,
    List.map_append, List.getLast?_append, hmoroba]
  rfl

theorem loaded_lastDay (zone : ℤ) (random : Draws) (start : ℤ) :
    Loaded zone (ContentCreator.addDays start (-1))
      (addMinutes (ContentCreator.addDays (ContentCreator.addDays start (-1)) 1) (-1))
      (ContentCreator.lastDayPricing zone random (ContentCreator.addDays start (-1))) := by
  have hseries : IsMinuteSeries zone _ _ _ := isMinuteSeries_lastDay random start
  refine ⟨hseries, fun price hprice => ?_, ?_⟩
  · rw [ContentCreator.lastDayPricing] at hprice
    obtain ⟨instrument, -, hrow⟩ := List.mem_flatMap.mp hprice
    obtain ⟨pricing, hpricing, rfl⟩ := List.mem_map.mp hrow
    have hid : (prepareInsertStatement zone pricing).instrumentId = instrument.instrumentId :=
      instrumentId_massiveLoop instrument _ _ _ _ pricing hpricing
    rw [hid]
    exact List.mem_map_of_mem instrument.mem_values
  · rw [getLast?_lastDay]
    simp only [addMinutes, ContentCreator.addDays]
    push_cast
    ring_nf

/-- The catch-up leaves a longer load. -/
theorem loads_insertExtraData (random : Draws) (first current cal : ℤ) {log : List NewPrice}
    (hlog : Loaded zone first cal log) :
    ∃ extra cal', Appends (ContentCreator.insertExtraData zone random current cal) cal' extra ∧
      Loaded zone first cal' (log ++ extra) := by
  induction cal using ContentCreator.insertExtraData.induct zone current generalizing log with
  | case1 cal hbehind ih =>
      obtain ⟨extra, cal', happends, hloaded⟩ := ih (hlog.next random)
      refine ⟨ContentCreator.generateAllPricingForGivenDate (inZone zone random)
        (addMinutes cal 1) ++ extra, cal', ?_, ?_⟩
      · rw [ContentCreator.insertExtraData, if_pos hbehind]
        exact (appends_insertBatchData _).bind happends
      · rwa [← List.append_assoc]
  | case2 cal hlevel =>
      refine ⟨[], cal, ?_, ?_⟩
      · rw [ContentCreator.insertExtraData, if_neg hlevel]
        exact appends_pure cal
      · rwa [List.append_nil]

end Loaded

/-! ## What it leaves in the table -/

section Table

variable {zone first cal : ℤ} {world : PriceWorld} {log : List NewPrice}

theorem timestamps_rowsOf (hrecorded : Recorded (world, log)) (instrument : Instruments) :
    (world.rowsOf instrument.instrumentId).map PricingRow.timestamp =
      timestampsOf instrument log := by
  have hrows : world.pricing.rows.map PricingRow.sent = log := hrecorded
  rw [← hrows, timestampsOf, List.filter_map, List.map_map]
  rfl

theorem mem_instruments_of_recorded (hrecorded : Recorded (world, log))
    (hloaded : Loaded zone first cal log) {row : PricingRow} (hrow : row ∈ world.pricing.rows) :
    row.instrumentId ∈ Instruments.values.map Instruments.instrumentId := by
  have hrows : world.pricing.rows.map PricingRow.sent = log := hrecorded
  have hmem : row.sent ∈ log := by
    rw [← hrows]
    exact List.mem_map_of_mem hrow
  exact hloaded.instruments _ hmem

/-- The rows of every instrument are in the order of time. -/
theorem ascending_rowsOf (hrecorded : Recorded (world, log))
    (hseries : IsMinuteSeries zone first cal log) (instrument : Instruments) :
    Ascending (world.rowsOf instrument.instrumentId) := by
  obtain ⟨n, -, htimestamps⟩ := hseries
  refine List.pairwise_map.mp ?_
  rw [timestamps_rowsOf hrecorded, htimestamps instrument]
  refine List.pairwise_map.mpr (List.pairwise_lt_range.imp fun {k l} hkl => ?_)
  simp only [localTime, addMinutes]
  omega

/-- No row is for a later time than the calendar's. -/
theorem timestamp_le_of_loaded (hrecorded : Recorded (world, log))
    (hloaded : Loaded zone first cal log) {row : PricingRow} (hrow : row ∈ world.pricing.rows) :
    row.timestamp ≤ localTime zone cal := by
  obtain ⟨instrument, -, hid⟩ := List.mem_map.mp
    (mem_instruments_of_recorded hrecorded hloaded hrow)
  obtain ⟨n, hcal, htimestamps⟩ := hloaded.series
  have hmem : row.timestamp ∈ timestampsOf instrument log := by
    rw [← timestamps_rowsOf hrecorded]
    exact List.mem_map_of_mem (mem_rowsOf.mpr ⟨hrow, hid.symm⟩)
  rw [htimestamps] at hmem
  obtain ⟨k, hk, htime⟩ := List.mem_map.mp hmem
  have hle : k < n + 1 := List.mem_range.mp hk
  rw [← htime, hcal]
  simp only [localTime, addMinutes]
  omega

/-- Every instrument has a row for the time of the calendar. -/
theorem exists_row_of_loaded (hrecorded : Recorded (world, log))
    (hseries : IsMinuteSeries zone first cal log) (instrument : Instruments) :
    ∃ row ∈ world.rowsOf instrument.instrumentId, row.timestamp = localTime zone cal := by
  obtain ⟨n, hcal, htimestamps⟩ := hseries
  have hmem : localTime zone cal ∈
      (world.rowsOf instrument.instrumentId).map PricingRow.timestamp := by
    rw [timestamps_rowsOf hrecorded, htimestamps, hcal]
    exact List.mem_map_of_mem (List.mem_range.mpr n.lt_succ_self)
  exact List.mem_map.mp hmem

theorem mem_latest_of_loaded (hrecorded : Recorded (world, log))
    (hloaded : Loaded zone first cal log) {row : PricingRow} :
    row ∈ world.latest ↔ row ∈ world.pricing.rows ∧ row.timestamp = localTime zone cal := by
  rw [PriceWorld.latest, mem_greatest_iff]
  refine and_congr_right fun hrow => ⟨fun hgreatest => ?_, fun htime other hother => ?_⟩
  · obtain ⟨last, hlast, htime⟩ :=
      exists_row_of_loaded hrecorded hloaded.series Instruments.easytravel
    have hle := hgreatest last (mem_rowsOf.mp hlast).1
    rw [htime] at hle
    exact le_antisymm (timestamp_le_of_loaded hrecorded hloaded hrow) hle
  · rw [htime]
    exact timestamp_le_of_loaded hrecorded hloaded hother

/-- The latest rows are one for each instrument. -/
theorem perm_latest_of_loaded (hrecorded : Recorded (world, log))
    (hloaded : Loaded zone first cal log) :
    (world.latest.map PricingRow.instrumentId).Perm
      (Instruments.values.map Instruments.instrumentId) := by
  have hnodup : world.latest.Nodup := by
    have hkeys : (world.pricing.rows.map PricingRow.id).Nodup :=
      world.pricing.increasing.imp ne_of_lt
    exact hkeys.of_map.filter _
  refine (List.perm_ext_iff_of_nodup ?_ nodup_instrumentIds).mpr fun id => ⟨?_, ?_⟩
  · refine hnodup.map_on fun row hrow other hother hsame => ?_
    obtain ⟨hmem, htime⟩ := (mem_latest_of_loaded hrecorded hloaded).mp hrow
    obtain ⟨hother, hotherTime⟩ := (mem_latest_of_loaded hrecorded hloaded).mp hother
    obtain ⟨instrument, -, hid⟩ := List.mem_map.mp
      (mem_instruments_of_recorded hrecorded hloaded hmem)
    have hascending := ascending_rowsOf hrecorded hloaded.series instrument
    exact hascending.eq_of_timestamp_eq (mem_rowsOf.mpr ⟨hmem, hid.symm⟩)
      (mem_rowsOf.mpr ⟨hother, hsame.symm.trans hid.symm⟩) (htime.trans hotherTime.symm)
  · intro hmem
    obtain ⟨row, hrow, rfl⟩ := List.mem_map.mp hmem
    exact mem_instruments_of_recorded hrecorded hloaded (mem_greatest_iff.mp hrow).1
  · intro hmem
    obtain ⟨instrument, -, rfl⟩ := List.mem_map.mp hmem
    obtain ⟨row, hrow, htime⟩ := exists_row_of_loaded hrecorded hloaded.series instrument
    obtain ⟨hrows, hid⟩ := mem_rowsOf.mp hrow
    rw [← hid]
    exact List.mem_map_of_mem ((mem_latest_of_loaded hrecorded hloaded).mpr ⟨hrows, htime⟩)

theorem Loaded.quoted (hloaded : Loaded zone first cal log) (hrecorded : Recorded (world, log))
    (hwhole : world.following = []) : Quoted world := by
  have hbatch : LatestBatch world := by
    refine ⟨?_, ?_, fun row _ next hnext => ?_⟩
    · obtain ⟨row, hrow, -⟩ :=
        exists_row_of_loaded hrecorded hloaded.series Instruments.easytravel
      exact List.ne_nil_of_mem (mem_rowsOf.mp hrow).1
    · rw [hwhole, List.map_nil, List.append_nil]
      exact perm_latest_of_loaded hrecorded hloaded
    · rw [hwhole] at hnext
      cases hnext
  refine ⟨hbatch, ascending_rowsOf hrecorded hloaded.series, hbatch.listed hwhole, ?_⟩
  have hrows : world.pricing.rows.map PricingRow.sent = log := hrecorded
  have hlast := hloaded.last
  rw [← hrows, List.map_map, List.getLast?_map] at hlast
  obtain ⟨last, hsome, htime⟩ := Option.map_eq_some_iff.mp hlast
  refine ⟨last, ?_, (mem_latest_of_loaded hrecorded hloaded).mpr
    ⟨List.mem_of_getLast? hsome, htime⟩⟩
  rw [GetLastPrice, AutoTable.last?, List.filter_true, hsome]

end Table

/-! ## The programs of the load -/

theorem recorded_insert {price : NewPrice} {following : List NewPrice}
    {state state' : PriceWorld × List NewPrice} {answer : Except PriceException Unit}
    (hrecorded : Recorded state)
    (hstep : recording (.insert price following) state answer state') :
    Recorded state' ∧ state'.1.following = following := by
  obtain ⟨hok, hmove, hnote⟩ := hstep
  have heffect := effect_of_priceStep hmove
  cases answer with
  | error error => cases hok
  | ok value =>
      have hworld : state'.1 = state.1.insert price following := heffect
      have hrows : state.1.pricing.rows.map PricingRow.sent = state.2 := hrecorded
      refine ⟨?_, by rw [hworld]; rfl⟩
      rw [Recorded, hworld, hnote, PriceWorld.insert, AutoTable.rows_insert, List.map_append,
        hrows]
      rfl

/-- A program that records what it inserts and finishes its batches. -/
def Records {α : Type} (task : PriceTask α) : Prop :=
  ∀ state : PriceWorld × List NewPrice, Recorded state → state.1.following = [] →
    wp recording (fun _ _ => True) task
      (fun _ final => Recorded final ∧ final.1.following = []) state

section Records

variable {α β : Type} {task : PriceTask α}

theorem records_pure (value : α) : Records (pure value : PriceTask α) :=
  fun _ hrecorded hwhole => ⟨hrecorded, hwhole⟩

theorem Records.bind {next : α → PriceTask β} (htask : Records task)
    (hnext : ∀ value, Records (next value)) : Records (task >>= next) := by
  intro state hrecorded hwhole
  rw [wp_bind]
  refine wp_mono (fun outcome final hfinal => ?_) (htask state hrecorded hwhole)
  cases outcome with
  | ok value => exact hnext value final hfinal.1 hfinal.2
  | error error => exact hfinal

theorem Records.tryCatch {handler : PriceException → PriceTask α} (htask : Records task)
    (hhandler : ∀ error, Records (handler error)) :
    Records (MonadExcept.tryCatch task handler) := by
  intro state hrecorded hwhole
  rw [wp_tryCatch]
  refine wp_mono (fun outcome final hfinal => ?_) (htask state hrecorded hwhole)
  cases outcome with
  | ok value => exact hfinal
  | error error => exact hhandler error final hfinal.1 hfinal.2

theorem records_insertBatch {batch : List NewPrice} {state : PriceWorld × List NewPrice}
    (hrecorded : Recorded state) (hwhole : batch = [] → state.1.following = []) :
    wp recording (fun _ _ => True) (ContentCreator.insertBatchData batch)
      (fun _ final => Recorded final ∧ final.1.following = []) state := by
  induction batch generalizing state with
  | nil => exact ⟨hrecorded, hwhole rfl⟩
  | cons price following ih =>
      rw [ContentCreator.insertBatchData, wp_bind, wp_tryCatch, perform, wp_perform]
      refine ⟨trivial, fun answer state' hstep => ?_⟩
      obtain ⟨hrecorded', hfollowing⟩ := recorded_insert hrecorded hstep
      have hrest := ih hrecorded' hfollowing.trans
      cases answer <;> exact hrest

theorem records_executeBatch {batch : List NewPrice} {state : PriceWorld × List NewPrice}
    (hrecorded : Recorded state) (hwhole : batch = [] → state.1.following = []) :
    wp recording (fun _ _ => True) (ContentCreator.executeBatch batch)
      (fun _ final => Recorded final ∧ final.1.following = []) state := by
  induction batch generalizing state with
  | nil => exact ⟨hrecorded, hwhole rfl⟩
  | cons price following ih =>
      rw [ContentCreator.executeBatch, wp_bind, wp_tryCatch, wp_bind, perform, wp_perform]
      refine ⟨trivial, fun answer state' hstep => ?_⟩
      obtain ⟨hrecorded', hfollowing⟩ := recorded_insert hrecorded hstep
      have hrest := ih hrecorded' hfollowing.trans
      have hafter : ∀ inserted : Bool, wp recording (fun _ _ => True)
          (ContentCreator.executeBatch following >>= fun _ =>
            if inserted then pure () else throw .sql)
          (fun _ final => Recorded final ∧ final.1.following = []) state' := by
        intro inserted
        rw [wp_bind]
        refine wp_mono (fun outcome final hfinal => ?_) hrest
        cases outcome with
        | ok value => cases inserted <;> exact hfinal
        | error error => exact hfinal
      cases answer with
      | ok value => exact hafter true
      | error error => exact hafter false

theorem records_insertBatchDataLogic (i : ℕ) (batch data : List NewPrice) :
    Records (ContentCreator.insertBatchDataLogic i batch data) := by
  induction data generalizing i batch with
  | nil => exact fun _ hrecorded hwhole => records_executeBatch hrecorded fun _ => hwhole
  | cons price rest ih =>
      rw [ContentCreator.insertBatchDataLogic]
      split_ifs
      · have hbatch : Records (ContentCreator.executeBatch (batch ++ [price])) :=
          fun _ hrecorded hwhole => records_executeBatch hrecorded fun _ => hwhole
        exact hbatch.bind fun _ => ih (i + 1) []
      · exact ih (i + 1) (batch ++ [price])

theorem records_insertExtraData (zone : ℤ) (random : Draws) (current cal : ℤ) :
    Records (ContentCreator.insertExtraData zone random current cal) := by
  induction cal using ContentCreator.insertExtraData.induct zone current with
  | case1 cal hbehind ih =>
      rw [ContentCreator.insertExtraData, if_pos hbehind]
      have hbatch : Records (ContentCreator.insertBatchData
          (ContentCreator.generateAllPricingForGivenDate (inZone zone random)
            (addMinutes cal 1))) :=
        fun _ hrecorded hwhole => records_insertBatch hrecorded fun _ => hwhole
      exact hbatch.bind fun _ => ih
  | case2 cal hlevel =>
      rw [ContentCreator.insertExtraData, if_neg hlevel]
      exact records_pure cal

theorem records_initializePricingData (zone : ℤ) (random : Draws) (start current : ℤ) :
    Records (ContentCreator.initializePricingData zone random start current) :=
  ((records_insertBatchDataLogic 0 [] _).tryCatch fun _ => records_pure ()).bind
    fun _ => records_insertExtraData zone random current _

end Records

/-- When inserts succeed, the initial load of an emptied table comes to its end and leaves a
whole batch, and so the current prices are complete.  In every run after it in which rows are
inserted in order, every instrument has rows, and has them in the order of time. -/
theorem initial_load_quoted (zone : ℤ) (random : Draws) (start current : ℤ)
    (world : PriceWorld) (hempty : world.pricing.rows = []) (hwhole : world.following = []) :
    (∃ outcome final, Exec recording
      (ContentCreator.initializePricingData zone random start current) (world, [])
      outcome final) ∧
    ∀ outcome final, Exec recording
      (ContentCreator.initializePricingData zone random start current) (world, [])
      outcome final →
        final.1.following = [] ∧ Complete final.1.latest ∧
        ∀ (workload : PriceWorkload) (system : PriceSystem (List NewPrice)),
          ReachesWhen priceStep noteBatch insertsInOrder (workload.start [] final.1) system →
            Quoted system.shared := by
  refine ⟨exists_exec_of_total recording_total _ _, fun outcome final hexec => ?_⟩
  have hrecorded : Recorded (world, []) := by
    rw [Recorded, hempty]
    rfl
  have hrecords := records_initializePricingData zone random start current _ hrecorded hwhole
  obtain ⟨extra, cal, hextra, hloaded⟩ :=
    loads_insertExtraData random _ current _ (loaded_lastDay zone random start)
  have happends := appends_initializePricingData hextra world []
  obtain ⟨hfinal, hdone⟩ := wp_iff_forall_exec.mp hrecords outcome final hexec
  obtain ⟨-, hlog⟩ := wp_iff_forall_exec.mp happends outcome final hexec
  rw [List.nil_append] at hlog
  rw [← hlog] at hloaded
  have hquoted : Quoted final.1 := hloaded.quoted hfinal hdone
  have hcomplete : Complete final.1.latest :=
    (hquoted.latestBatch.complete_iff (List.Perm.refl _)).mpr hdone
  exact ⟨hdone, hcomplete, fun _ _ hreaches => quoted_of_reaches hquoted hdone hreaches⟩

/-- A load in the first minute of an hour catches up with it. -/
theorem initial_load_quoted_first_minute :
    ∃ outcome final, Exec recording
      (ContentCreator.initializePricingData 0 (fun _ _ _ => 0) 0 0) (⟨.empty, []⟩, []) outcome
      final ∧ Complete final.1.latest ∧ Quoted final.1 := by
  obtain ⟨⟨outcome, final, hexec⟩, hevery⟩ :=
    initial_load_quoted 0 (fun _ _ _ => 0) 0 0 ⟨.empty, []⟩ rfl rfl
  obtain ⟨-, hcomplete, hruns⟩ := hevery outcome final hexec
  exact ⟨outcome, final, hexec, hcomplete, hruns Sample.oneMinute _ .refl⟩

end EasyTrade.Pricing

import EasyTrade.Core.TopRows
import EasyTrade.Pricing.LatestPrices

/-!
# The prices of one instrument

The broker takes the price of a trade from the prices of its instrument, of which it asks
for one, the latest.  Rows are inserted in the order of time, and so this query has an
answer even while the current prices are incomplete, and it does not matter in which order
the database finds the rows.  While a batch is under way the answer may be a minute old.
-/

namespace EasyTrade.Pricing

open EasyTrade.Program EasyTrade.Interleaving TopRows

/-! ## The pricing service -/

/-- The rows of an instrument in the order of their keys. -/
def PriceWorld.rowsOf (world : PriceWorld) (instrumentId : ℤ) : List PricingRow :=
  world.pricing.rows.filter (·.instrumentId = instrumentId)

/-- `GetPricingDataForInstrument`: `ORDER BY Timestamp DESC LIMIT records`. -/
def GetPricingDataForInstrument (arrangement : Arrangement PricingRow) (world : PriceWorld)
    (instrumentId : ℤ) (records : ℕ) : List PricingRow :=
  top arrangement (fun row => OrderDual.toDual row.timestamp) records
    (world.rowsOf instrumentId)

/-- `GetLastPrice`: the row with the greatest key. -/
def GetLastPrice (world : PriceWorld) : Option PricingRow :=
  world.pricing.last? fun _ => true

/-! ## Rows in the order of time -/

/-- Each row is newer than those before it. -/
def Ascending (rows : List PricingRow) : Prop :=
  rows.Pairwise fun earlier later => earlier.timestamp < later.timestamp

instance (rows : List PricingRow) : Decidable (Ascending rows) :=
  inferInstanceAs (Decidable (rows.Pairwise fun earlier later =>
    earlier.timestamp < later.timestamp))

/-- The rows of every instrument are in the order of time, there are some, and the row
inserted last is one of the latest. -/
structure Quoted (world : PriceWorld) : Prop where
  latestBatch : LatestBatch world
  ascending : ∀ instrument : Instruments, Ascending (world.rowsOf instrument.instrumentId)
  listed : ∀ instrument : Instruments, world.rowsOf instrument.instrumentId ≠ []
  lastPrice : ∃ last, GetLastPrice world = some last ∧ last ∈ world.latest

section Queries

variable {world : PriceWorld} {instrumentId : ℤ} {row : PricingRow}

theorem mem_rowsOf :
    row ∈ world.rowsOf instrumentId ↔
      row ∈ world.pricing.rows ∧ row.instrumentId = instrumentId := by
  rw [PriceWorld.rowsOf, List.mem_filter, decide_eq_true_iff]

/-- Rows in the order of time are told apart by their timestamps. -/
theorem Ascending.eq_of_timestamp_eq {rows : List PricingRow} (hrows : Ascending rows)
    {other : PricingRow} (hrow : row ∈ rows) (hother : other ∈ rows)
    (heq : row.timestamp = other.timestamp) : row = other := by
  have hnodup : (rows.map PricingRow.timestamp).Nodup :=
    (List.pairwise_map.mpr hrows).imp ne_of_lt
  exact List.inj_on_of_nodup_map hnodup hrow hother heq

/-- Sorted from the newest to the oldest, the rows of an instrument are in the opposite order
of their keys, in whatever order they are found. -/
theorem ordered_rowsOf (hrows : Ascending (world.rowsOf instrumentId))
    (arrangement : Arrangement PricingRow) :
    ordered arrangement (fun row => OrderDual.toDual row.timestamp)
      (world.rowsOf instrumentId) = (world.rowsOf instrumentId).reverse := by
  have hreverse : (world.rowsOf instrumentId).reverse.Pairwise fun left right =>
      OrderDual.toDual left.timestamp ≤ OrderDual.toDual right.timestamp := by
    rw [List.pairwise_reverse]
    exact hrows.imp fun hlt => hlt.le
  have hperm := ordered_perm arrangement (fun row => OrderDual.toDual row.timestamp)
    (world.rowsOf instrumentId)
  refine List.Perm.eq_of_pairwise ?_ (pairwise_ordered _ _ _) hreverse
    (hperm.trans (List.reverse_perm _).symm)
  intro left right hleft hright hle hge
  have htimes : left.timestamp = right.timestamp :=
    le_antisymm (OrderDual.toDual_le_toDual.mp hge) (OrderDual.toDual_le_toDual.mp hle)
  exact hrows.eq_of_timestamp_eq (hperm.mem_iff.mp hleft) (List.mem_reverse.mp hright) htimes

theorem getPricingDataForInstrument_eq (hrows : Ascending (world.rowsOf instrumentId))
    (arrangement : Arrangement PricingRow) (records : ℕ) :
    GetPricingDataForInstrument arrangement world instrumentId records =
      (world.rowsOf instrumentId).reverse.take records := by
  rw [GetPricingDataForInstrument, top, ordered_rowsOf hrows]

theorem rowsOf_insert (world : PriceWorld) (price : NewPrice) (following : List NewPrice)
    (instrumentId : ℤ) :
    (world.insert price following).rowsOf instrumentId = world.rowsOf instrumentId ++
      if price.instrumentId = instrumentId then [price.row world.pricing.next] else [] := by
  rw [PriceWorld.rowsOf, PriceWorld.insert, AutoTable.rows_insert, List.filter_append]
  congr 1
  split_ifs with hid
  · exact List.filter_cons_of_pos (decide_eq_true hid)
  · exact List.filter_cons_of_neg fun hsame => hid (of_decide_eq_true hsame)

theorem rowsOf_deleteBefore_sublist (world : PriceWorld) (timestamp instrumentId : ℤ) :
    ((world.deleteBefore timestamp).rowsOf instrumentId).Sublist (world.rowsOf instrumentId) :=
  List.filter_sublist.filter _

theorem getLastPrice_insert (world : PriceWorld) (price : NewPrice)
    (following : List NewPrice) :
    GetLastPrice (world.insert price following) = some (price.row world.pricing.next) := by
  rw [GetLastPrice, AutoTable.last?, List.filter_true, PriceWorld.insert, AutoTable.rows_insert,
    List.getLast?_concat]

theorem getLastPrice_deleteBefore {timestamp : ℤ} (hlast : GetLastPrice world = some row)
    (hkept : timestamp ≤ row.timestamp) :
    GetLastPrice (world.deleteBefore timestamp) = some row := by
  rw [GetLastPrice, AutoTable.last?, List.filter_true] at hlast ⊢
  obtain ⟨before, hrows⟩ := List.getLast?_eq_some_iff.mp hlast
  have hnew : decide (row.timestamp < timestamp) = false :=
    decide_eq_false (not_lt.mpr hkept)
  rw [PriceWorld.deleteBefore, AutoTable.rows_delete, hrows, List.filter_append]
  refine List.getLast?_eq_some_iff.mpr ⟨_, congrArg _ (List.filter_cons_of_pos ?_)⟩
  rw [hnew]
  rfl

end Queries

/-! ## What the latest batch says about an instrument -/

section Batch

variable {world : PriceWorld} {price : NewPrice} {following : List NewPrice}

/-- An instrument is not both among the latest rows and missing. -/
theorem LatestBatch.not_following (hworld : LatestBatch world) {row : PricingRow}
    (hrow : row ∈ world.latest) :
    row.instrumentId ∉ world.following.map NewPrice.instrumentId := by
  have hnodup := hworld.covers.nodup_iff.mpr nodup_instrumentIds
  exact fun hmem => (List.nodup_append.mp hnodup).2.2 _ (List.mem_map_of_mem hrow) _ hmem rfl

/-- An instrument that is not missing is among the latest rows. -/
theorem LatestBatch.exists_latest (hworld : LatestBatch world) {instrument : Instruments}
    (hnot : instrument.instrumentId ∉ world.following.map NewPrice.instrumentId) :
    ∃ row ∈ world.latest, row.instrumentId = instrument.instrumentId := by
  have hmem : instrument.instrumentId ∈ Instruments.values.map Instruments.instrumentId :=
    List.mem_map_of_mem instrument.mem_values
  rcases List.mem_append.mp (hworld.covers.mem_iff.mpr hmem) with hlatest | hfollowing
  · exact List.mem_map.mp hlatest
  · exact absurd hfollowing hnot

theorem LatestBatch.listed (hworld : LatestBatch world) (hwhole : world.following = [])
    (instrument : Instruments) : world.rowsOf instrument.instrumentId ≠ [] := by
  have hnot : instrument.instrumentId ∉ world.following.map NewPrice.instrumentId := by
    rw [hwhole]
    exact List.not_mem_nil
  obtain ⟨row, hrow, hid⟩ := hworld.exists_latest hnot
  exact List.ne_nil_of_mem (mem_rowsOf.mpr ⟨(mem_greatest_iff.mp hrow).1, hid⟩)

/-- The newest row of an instrument is among the latest rows unless the instrument is
missing. -/
theorem LatestBatch.mem_latest_iff (hworld : LatestBatch world) {instrument : Instruments}
    {row : PricingRow} (hrow : row ∈ world.rowsOf instrument.instrumentId)
    (hnewest : ∀ other ∈ world.rowsOf instrument.instrumentId,
      other.timestamp ≤ row.timestamp) :
    row ∈ world.latest ↔
      instrument.instrumentId ∉ world.following.map NewPrice.instrumentId := by
  obtain ⟨hmem, hid⟩ := mem_rowsOf.mp hrow
  constructor
  · intro hlatest
    rw [← hid]
    exact hworld.not_following hlatest
  · intro hnot
    obtain ⟨last, hlast, hlastId⟩ := hworld.exists_latest hnot
    obtain ⟨hlastMem, hgreatest⟩ := mem_greatest_iff.mp hlast
    have hle := hnewest last (mem_rowsOf.mpr ⟨hlastMem, hlastId⟩)
    exact mem_greatest_iff.mpr ⟨hmem, fun other hother => (hgreatest other hother).trans hle⟩

/-- A row that is not older than any other and newer than those of its instrument. -/
theorem Quoted.insert (hworld : Quoted world)
    (hbatch : LatestBatch (world.insert price following))
    (hle : ∀ old ∈ world.pricing.rows, old.timestamp ≤ price.timestamp)
    (hlt : ∀ old ∈ world.pricing.rows, old.instrumentId = price.instrumentId →
      old.timestamp < price.timestamp) : Quoted (world.insert price following) := by
  refine ⟨hbatch, fun instrument => ?_, fun instrument => ?_,
    ⟨_, getLastPrice_insert world price following, mem_greatest_iff.mpr ⟨?_, ?_⟩⟩⟩
  · rw [rowsOf_insert]
    split_ifs with hid
    · refine List.pairwise_append.mpr
        ⟨hworld.ascending instrument, List.pairwise_singleton _ _, fun old hold new hnew => ?_⟩
      obtain ⟨hmem, hsame⟩ := mem_rowsOf.mp hold
      rw [List.mem_singleton.mp hnew]
      exact hlt old hmem (hsame.trans hid.symm)
    · rw [List.append_nil]
      exact hworld.ascending instrument
  · rw [rowsOf_insert]
    exact List.append_ne_nil_of_left_ne_nil (hworld.listed instrument) _
  · exact List.mem_append_right _ (List.mem_singleton_self _)
  · intro other hother
    rcases List.mem_append.mp hother with hold | hself
    · exact hle other hold
    · rw [List.mem_singleton.mp hself]

/-- The first row of a new batch. -/
theorem Quoted.first (hworld : Quoted world) (hbatch : IsBatch (price :: following))
    (hlater : ∀ old ∈ world.pricing.rows, old.timestamp < price.timestamp) :
    Quoted (world.insert price following) :=
  hworld.insert (.first hbatch hlater) (fun old hold => (hlater old hold).le)
    fun old hold _ => hlater old hold

/-- The next row of the batch: there is no other of its instrument at this time. -/
theorem Quoted.next (hworld : Quoted world) (hfollowing : world.following = price :: following) :
    Quoted (world.insert price following) := by
  have hprice : price ∈ world.following := hfollowing ▸ List.mem_cons_self
  obtain ⟨last, hlast⟩ :=
    exists_mem_greatest PricingRow.timestamp hworld.latestBatch.nonempty
  have htime : price.timestamp = last.timestamp :=
    hworld.latestBatch.sameTime last hlast price hprice
  have hle : ∀ old ∈ world.pricing.rows, old.timestamp ≤ price.timestamp := fun old hold =>
    ((mem_greatest_iff.mp hlast).2 old hold).trans_eq htime.symm
  refine hworld.insert (hworld.latestBatch.next hfollowing) hle fun old hold hid => ?_
  refine lt_of_le_of_ne (hle old hold) fun heq => ?_
  have hlatest : old ∈ world.latest :=
    mem_greatest_iff.mpr ⟨hold, fun other hother => (hle other hother).trans_eq heq.symm⟩
  exact hworld.latestBatch.not_following hlatest (hid ▸ List.mem_map_of_mem hprice)

/-- The daily clean-up, while nothing of a batch is missing. -/
theorem Quoted.deleteBefore {timestamp : ℤ} (hworld : Quoted world)
    (hkept : ∀ row ∈ world.latest, timestamp ≤ row.timestamp) (hwhole : world.following = []) :
    Quoted (world.deleteBefore timestamp) := by
  have hbatch := hworld.latestBatch.deleteBefore hkept
  obtain ⟨last, hlast, hlatest⟩ := hworld.lastPrice
  obtain ⟨hmem, hgreatest⟩ := mem_greatest_iff.mp hlatest
  have hlast' := getLastPrice_deleteBefore hlast (hkept last hlatest)
  refine ⟨hbatch, fun instrument => ?_, hbatch.listed hwhole,
    last, hlast', mem_greatest_iff.mpr ⟨(AutoTable.mem_of_last? hlast').1, ?_⟩⟩
  · exact (hworld.ascending instrument).sublist (rowsOf_deleteBefore_sublist world _ _)
  · exact fun other hother => hgreatest other (List.mem_filter.mp hother).1

end Batch

/-! ## Every run -/

/-- The content creator clears old rows away between two batches only. -/
def betweenBatches : PriceCommand → List NewPrice → Prop
  | .deleteBefore _, rest => rest = []
  | _, _ => True

def tidyGuard (party : PriceParty) (command : PriceCommand) (rest : List NewPrice) : Prop :=
  priceGuard party command rest ∧ betweenBatches command rest

theorem guarantees_quoted :
    Guarantees priceStep noteBatch insertsInOrder Quoted priceRelies tidyGuard := by
  intro party command world rest answer world' hworld hrelies hguard hallowed hstep
  obtain ⟨hguard, hbetween⟩ := hguard
  obtain ⟨-, hself, hothers⟩ := guarantees_prices party command world rest answer world'
    hworld.latestBatch hrelies hguard hallowed hstep
  refine ⟨?_, hself, hothers⟩
  have heffect := effect_of_priceStep hstep
  cases command with
  | insert price following =>
      cases party with
      | client n => cases hguard
      | contentCreator =>
          have hrest : rest = world.following := hrelies
          obtain ⟨hok, hlater⟩ := hallowed
          rw [hok] at heffect
          subst heffect
          rcases hguard with hnext | ⟨hnone, hbatch⟩
          · exact hworld.next (hrest.symm.trans hnext)
          · exact hworld.first hbatch (hlater (hrest.symm.trans hnone))
  | deleteBefore timestamp =>
      cases party with
      | client n => cases hguard
      | contentCreator =>
          have hrest : rest = world.following := hrelies
          subst heffect
          cases answer with
          | ok value => exact hworld.deleteBefore hallowed (hrest.symm.trans hbetween)
          | error error => exact hworld
  | currentPrices => subst heffect; exact hworld
  | currentTime => subst heffect; exact hworld

section Programs

variable {surroundings : Surroundings}

/-- A program that clears old rows away between two batches only. -/
abbrev Tidies {α : Type} (task : PriceTask α)
    (post : Except PriceException α → List NewPrice → Prop) (rest : List NewPrice) : Prop :=
  wp (remembers (fun _ _ _ => True) noteBatch) betweenBatches task post rest

/-- After a batch nothing of it is left. -/
theorem tidies_insertBatchData {batch rest : List NewPrice} (hrest : batch = [] → rest = []) :
    Tidies (ContentCreator.insertBatchData batch)
      (fun outcome final => outcome = .ok () ∧ final = []) rest := by
  induction batch generalizing rest with
  | nil => exact ⟨rfl, hrest rfl⟩
  | cons price following ih =>
      rw [ContentCreator.insertBatchData, Tidies, wp_bind, wp_tryCatch, perform,
        wp_remembers_perform]
      exact ⟨trivial, fun _ _ => ih id, fun _ _ => ih id⟩

theorem tidies_removeOldPricingData :
    Tidies (ContentCreator.removeOldPricingData surroundings) (fun _ final => final = []) [] := by
  rw [ContentCreator.removeOldPricingData, Tidies, wp_bind, perform, wp_remembers_perform]
  refine ⟨trivial, fun now _ => ?_, fun error _ => rfl⟩
  rw [andThen_ok, wp_tryCatch, perform, wp_remembers_perform]
  exact ⟨rfl, fun _ _ => rfl, fun _ _ => rfl⟩

theorem tidies_generatePricingData (rounds : ℕ) (cal : ℤ) (i : ℕ) :
    Tidies (ContentCreator.generatePricingData surroundings rounds cal i) (fun _ _ => True)
      [] := by
  induction rounds generalizing cal i with
  | zero => trivial
  | succ rounds ih =>
      rw [ContentCreator.generatePricingData, Tidies, wp_bind]
      refine wp_mono (fun outcome final hfinal => ?_) (tidies_insertBatchData fun _ => rfl)
      obtain ⟨rfl, rfl⟩ := hfinal
      rw [andThen_ok]
      split_ifs with hday
      · rw [wp_bind]
        refine wp_mono (fun outcome final hfinal => ?_) tidies_removeOldPricingData
        rw [hfinal]
        cases outcome with
        | ok value => exact ih _ _
        | error error => trivial
      · exact ih _ _

theorem keeps_tidyGuard (workload : PriceWorkload) (party : PriceParty) :
    wp (remembers (fun _ _ _ => True) noteBatch) (tidyGuard party) (workload.program party)
      (fun _ _ => True) [] := by
  refine wp_and (keeps_priceGuard workload party) ?_
  cases party with
  | contentCreator => exact tidies_generatePricingData workload.rounds workload.cal 0
  | client n =>
      rw [PriceWorkload.program, GetCurrentPrices, wp_bind, wp_tryCatch, perform,
        wp_remembers_perform]
      exact ⟨trivial, fun _ _ => trivial, fun _ _ => trivial⟩

end Programs

/-- Whatever the content creator and the clients do after the initial load, every instrument
keeps a row and the rows stay in order. -/
theorem quoted_of_reaches {workload : PriceWorkload} {world : PriceWorld}
    {system : PriceSystem (List NewPrice)} (hloaded : Quoted world)
    (hwhole : world.following = [])
    (hreaches : ReachesWhen priceStep noteBatch insertsInOrder (workload.start [] world)
      system) : Quoted system.shared := by
  have hmemory := (upheld_start workload hloaded.latestBatch hwhole).memory
  have hstart : Upheld (fun _ _ _ => True) noteBatch Quoted priceRelies tidyGuard
      (workload.start [] world) := ⟨hloaded, hmemory, keeps_tidyGuard workload⟩
  exact (hstart.reaches (fun _ _ _ _ _ => trivial) guarantees_quoted hreaches).shared

/-- In every run in which rows are inserted in order, an instrument's prices are answered from
the newest to the oldest, in whatever order the database finds them.  There always is a newest
one, and it is a latest price unless its instrument is still missing in the batch. -/
theorem instrument_prices_answered {workload : PriceWorkload} {world : PriceWorld}
    {system : PriceSystem (List NewPrice)} (hloaded : Quoted world)
    (hwhole : world.following = [])
    (hreaches : ReachesWhen priceStep noteBatch insertsInOrder (workload.start [] world) system)
    (arrangement : Arrangement PricingRow) (instrument : Instruments) :
    (∀ records, GetPricingDataForInstrument arrangement system.shared instrument.instrumentId
      records = (system.shared.rowsOf instrument.instrumentId).reverse.take records) ∧
    (∃ row, GetPricingDataForInstrument arrangement system.shared instrument.instrumentId 1 =
        [row] ∧
      (∀ other ∈ system.shared.rowsOf instrument.instrumentId,
        other.timestamp ≤ row.timestamp) ∧
      (row ∈ system.shared.latest ↔ instrument.instrumentId ∉
        system.shared.following.map NewPrice.instrumentId)) ∧
    ∃ last, GetLastPrice system.shared = some last ∧ last ∈ system.shared.latest := by
  have hquoted := quoted_of_reaches hloaded hwhole hreaches
  have hanswer := getPricingDataForInstrument_eq (hquoted.ascending instrument) arrangement
  refine ⟨hanswer, ?_, hquoted.lastPrice⟩
  obtain ⟨older, row, hrows⟩ :=
    (List.eq_nil_or_concat' _).resolve_left (hquoted.listed instrument)
  have hnewest : ∀ other ∈ system.shared.rowsOf instrument.instrumentId,
      other.timestamp ≤ row.timestamp := by
    intro other hother
    have hpairs := hquoted.ascending instrument
    rw [hrows] at hother hpairs
    rcases List.mem_append.mp hother with hbefore | hself
    · exact ((List.pairwise_append.mp hpairs).2.2 other hbefore row
        (List.mem_singleton_self row)).le
    · rw [List.mem_singleton.mp hself]
  refine ⟨row, ?_, hnewest, hquoted.latestBatch.mem_latest_iff ?_ hnewest⟩
  · rw [hanswer, hrows, List.reverse_append]
    rfl
  · rw [hrows]
    exact List.mem_append_right _ (List.mem_singleton_self row)

namespace Sample

theorem quoted_loaded : Quoted loaded := by
  have hlast : GetLastPrice loaded = loaded.latest.getLast? := by decide +kernel
  refine ⟨latestBatch_loaded, fun instrument => ?_, latestBatch_loaded.listed rfl, ?_⟩
  · cases instrument <;> decide +kernel
  · obtain ⟨last, hmem⟩ := exists_mem_greatest PricingRow.timestamp latestBatch_loaded.nonempty
    have hnonempty : loaded.latest ≠ [] := List.ne_nil_of_mem hmem
    rw [List.getLast?_eq_some_getLast hnonempty] at hlast
    exact ⟨_, hlast, List.getLast_mem hnonempty⟩

end Sample

/-- While the new batch consists of its first row, another instrument is answered with its
price of the minute before, although `GetCurrentPrices` answers nothing for it. -/
theorem instrument_prices_answered_incomplete :
    ∃ (system : PriceSystem (List NewPrice)) (row : PricingRow),
      system.shared.latest.map PricingRow.instrumentId = [1] ∧
      GetPricingDataForInstrument (.backwards PricingRow) system.shared 2 1 = [row] ∧
      row ∉ system.shared.latest := by
  obtain ⟨system, hcheck, hreaches⟩ := exists_reachesWhen priceStep_of_move noteBatch
    insertsInOrder (Sample.oneMinute.start [] Sample.loaded) [(.contentCreator, .goes 0)]
    (fun system => decide (system.shared.latest.map PricingRow.instrumentId = [1] ∧
      2 ∈ system.shared.following.map NewPrice.instrumentId))
    (by decide +kernel)
  obtain ⟨hids, hmissing⟩ := of_decide_eq_true hcheck
  obtain ⟨-, ⟨row, hrow, -, hlatest⟩, -⟩ := instrument_prices_answered
    Sample.quoted_loaded rfl hreaches (.backwards PricingRow) .easyplanes
  exact ⟨system, row, hids, hrow, fun hmem => hlatest.mp hmem hmissing⟩

end EasyTrade.Pricing

import EasyTrade.Broker.Holdings
import EasyTrade.Broker.NextRun

/-!
# The list of instruments

The list shows every instrument that has a product and a price, with the quantity that the
account holds.  After any requests that quantity is what the account held at the start, what
was bought since and what was not sold again.
-/

namespace EasyTrade.Broker

open EasyTrade.Program

/-- An entry of the list with the given quantity. -/
def InstrumentDTO.holding (instrument : Instrument) (product : Product) (price : Price)
    (amount : ℚ) : InstrumentDTO :=
  { InstrumentDTO.of instrument none product price with amount := amount }

/-- The list has one entry for each instrument with a product and a price, and no others. -/
structure Lists (environment : Environment) (database : Database) (held : ℤ → ℚ)
    (listed : List InstrumentDTO) : Prop where
  once : (listed.map InstrumentDTO.id).Nodup
  entries : ∀ entry, entry ∈ listed ↔ ∃ instrument ∈ database.instruments.rows,
    ∃ product price, database.products.find? instrument.productId = some product ∧
      environment.latestPrice instrument.id = some price ∧
        entry = InstrumentDTO.holding instrument product price (held instrument.id)

/-- The keys of the entries are among the keys of the rows, in the same order. -/
theorem map_filterMap_sublist {α β κ : Type} {select : α → Option β} {key : α → κ}
    {key' : β → κ} (hkey : ∀ row entry, select row = some entry → key' entry = key row)
    (rows : List α) : ((rows.filterMap select).map key').Sublist (rows.map key) := by
  induction rows with
  | nil => exact List.Sublist.refl _
  | cons row rows ih =>
      cases hentry : select row with
      | none =>
          rw [List.filterMap_cons_none hentry, List.map_cons]
          exact ih.cons _
      | some entry =>
          rw [List.filterMap_cons_some hentry, List.map_cons, List.map_cons,
            hkey row entry hentry]
          exact ih.cons_cons _

section Listing

variable {environment : Environment} {accountId : ℤ} {shared : Shared}

/-- The rows of an account, as a request without changes of its own finds them. -/
theorem filterMap_find?_ofAccount (database : Database) (accountId : ℤ) :
    ((database.ownedInstruments.rows.filter (·.accountId = accountId)).filterMap
      fun row => database.ownedInstruments.find? row.id) =
        database.ownedInstruments.rows.filter (·.accountId = accountId) := by
  have hfound : ∀ row ∈ database.ownedInstruments.rows.filter (·.accountId = accountId),
      database.ownedInstruments.find? row.id = some row :=
    fun row hrow => Table.find?_key (List.mem_filter.mp hrow).1
  rw [List.filterMap_congr hfound, List.filterMap_some]

/-- What the dictionary of an account's rows says of an instrument. -/
theorem find?_ofAccount (database : Database) (accountId instrumentId : ℤ) :
    (database.ownedInstruments.rows.filter (·.accountId = accountId)).find?
      (fun row => row.instrumentId = instrumentId) =
        database.holdingRow accountId instrumentId := by
  rw [Database.holdingRow, List.find?_filter]
  congr 1
  funext row
  simp [OwnedInstrument.isFor]

/-- No instrument occurs twice among the rows of one account. -/
theorem nodup_instrumentIds {database : Database} (accountId : ℤ)
    (hunique : (database.ownedInstruments.rows.map OwnedInstrument.pair).Nodup) :
    ((database.ownedInstruments.rows.filter (·.accountId = accountId)).map
      OwnedInstrument.instrumentId).Nodup := by
  have hrows : (database.ownedInstruments.rows.filter (·.accountId = accountId)).Nodup :=
    hunique.of_map.filter _
  refine hrows.map_on fun row hrow other hother hsame => ?_
  obtain ⟨hrow, haccount⟩ := List.mem_filter.mp hrow
  obtain ⟨hother, haccount'⟩ := List.mem_filter.mp hother
  have hpair : row.pair = other.pair :=
    Prod.ext ((of_decide_eq_true haccount).trans (of_decide_eq_true haccount').symm) hsame
  exact List.inj_on_of_nodup_map hunique hrow hother hpair

/-- An entry is made from an instrument with a product and a price. -/
theorem entry_eq_some_iff (products : ℤ → Option Product) (prices : ℤ → Option Price)
    (owned : ℤ → Option OwnedInstrument) (instrument : Instrument) (entry : InstrumentDTO) :
    (do
      let product ← products instrument.productId
      let price ← prices instrument.id
      return InstrumentDTO.of instrument (owned instrument.id) product price) = some entry ↔
      ∃ product price, products instrument.productId = some product ∧
        prices instrument.id = some price ∧
          entry = InstrumentDTO.holding instrument product price
            (((owned instrument.id).map OwnedInstrument.quantity).getD 0) := by
  simp only [Option.bind_eq_bind, Option.bind_eq_some_iff, Option.pure_def, Option.some.injEq]
  constructor
  · rintro ⟨product, hproduct, price, hprice, rfl⟩
    exact ⟨product, price, hproduct, hprice, rfl⟩
  · rintro ⟨product, price, hproduct, hprice, rfl⟩
    exact ⟨product, hproduct, price, hprice, rfl⟩

/-- What a list shows that succeeds, whatever else fails or not. -/
theorem getInstruments_spec (environment : Environment) (shared : Shared) (accountId : ℤ) :
    Ensures environment (InstrumentService.getInstruments accountId)
      (fun listed session => session.committed = shared.database ∧
        Lists environment shared.database
          (fun instrumentId => (shared.database.holdingOf accountId instrumentId).getD 0) listed)
      (fun _ _ => True)
      (Session.arrive shared.database shared.clock shared.closedTrades) := by
  simp only [InstrumentService.getInstruments, ensures_bind, ensures_getAllInstruments,
    ensures_getOwnedInstrumentsOfAccount, ensures_toDictionary, ensures_getLatestPrices,
    ensures_getProducts, ensures_pure, Session.arrive, filterMap_find?_ofAccount,
    find?_ofAccount, true_and, implies_true]
  intro _ _ _
  have hentry := entry_eq_some_iff shared.database.products.find? environment.latestPrice
    (shared.database.holdingRow accountId)
  refine ⟨?_, fun entry => ?_⟩
  · refine List.Nodup.sublist (map_filterMap_sublist (fun instrument entry hsome => ?_) _)
      shared.database.instruments.keysNodup
    obtain ⟨product, price, -, -, rfl⟩ := (hentry instrument entry).mp hsome
    rfl
  · rw [List.mem_filterMap]
    exact exists_congr fun instrument => and_congr Iff.rfl (hentry instrument entry)

theorem lists_of_getInstruments {listed : List InstrumentDTO} {world : World}
    (hexec : Exec (step environment) (InstrumentService.getInstruments accountId)
      (shared, DbContext.fresh) (.ok listed) world) :
    world.1.database = shared.database ∧ Lists environment shared.database
      (fun instrumentId => (shared.database.holdingOf accountId instrumentId).getD 0) listed := by
  obtain ⟨session, hrelated, hcommitted, hlists⟩ :=
    (getInstruments_spec environment shared accountId).sound hexec
  exact ⟨hrelated.committed.symm.trans hcommitted, hlists⟩

/-- Without failures a list comes about, unless a dictionary finds a key twice. -/
theorem getInstruments_returns
    (hunique : (shared.database.ownedInstruments.rows.map OwnedInstrument.pair).Nodup)
    (hdistinct : ((pricesOfResponse environment.latestPrices).map Price.instrumentId).Nodup) :
    wp (Session.effect environment) (fun _ _ => True)
      (InstrumentService.getInstruments accountId)
      (fun outcome _ => ∃ listed, outcome = .ok listed)
      (Session.arrive shared.database shared.clock shared.closedTrades) := by
  rw [InstrumentService.getInstruments]
  refine wp_issue_bind ?_
  rintro _ _ ⟨rfl, rfl⟩
  refine wp_issue_bind ?_
  rintro _ _ ⟨rfl, rfl⟩
  rw [andThen_ok, toDictionary_of_nodup (by
    simp only [Session.arrive, filterMap_find?_ofAccount]
    exact nodup_instrumentIds accountId hunique)]
  refine wp_issue_bind ?_
  rintro _ _ ⟨rfl, rfl⟩
  rw [andThen_ok, toDictionary_of_nodup hdistinct]
  refine wp_issue_bind ?_
  rintro _ _ ⟨rfl, rfl⟩
  rw [andThen_ok, toDictionary_of_nodup (by exact shared.database.products.keysNodup)]
  exact ⟨_, rfl⟩

end Listing

/-! ## After any requests -/

section Runs

variable {start final : Shared} {requests : List Served}

/-- What an account holds of an instrument by its trades since the start. -/
def heldSince (start final : Database) (accountId instrumentId : ℤ) : ℚ :=
  (start.holdingOf accountId instrumentId).getD 0 +
      boughtOf accountId instrumentId (executedDuring start final) -
    soldOf accountId instrumentId (executedDuring start final)

theorem Runs.getD_holdingOf (hruns : Runs start requests final) (hsound : start.database.Sound)
    (accountId instrumentId : ℤ) :
    (final.database.holdingOf accountId instrumentId).getD 0 =
      heldSince start.database final.database accountId instrumentId := by
  obtain ⟨-, -, hagree⟩ := hruns.holdings_agree hsound
  have hchange := hagree accountId instrumentId
  rw [heldSince]
  linarith

/-- The list of instruments shows what the trades on record add up to, and it comes about
unless something fails or the pricing service names an instrument twice. -/
theorem holdings_listed (hruns : Runs start requests final) (hsound : start.database.Sound)
    (environment : Environment) (accountId : ℤ) :
    (∀ listed world, Exec (step environment) (InstrumentService.getInstruments accountId)
        (final, DbContext.fresh) (.ok listed) world →
      Lists environment final.database
        (heldSince start.database final.database accountId) listed) ∧
    (((pricesOfResponse environment.latestPrices).map Price.instrumentId).Nodup →
      ∀ outcome world, Exec (works environment) (InstrumentService.getInstruments accountId)
        (final, DbContext.fresh) outcome world → ∃ listed, outcome = .ok listed) := by
  obtain ⟨hunique, -, -⟩ := hruns.holdings_agree hsound
  constructor
  · intro listed world hexec
    have hheld : (fun instrumentId => (final.database.holdingOf accountId instrumentId).getD 0) =
        heldSince start.database final.database accountId :=
      funext fun instrumentId => hruns.getD_holdingOf hsound accountId instrumentId
    rw [← hheld]
    exact (lists_of_getInstruments hexec).2
  · intro hdistinct outcome world hexec
    have haccepted := (getInstruments_spec environment final accountId).mono
      (fun _ _ _ => trivial) fun _ _ _ => trivial
    exact returns_of_works haccepted (getInstruments_returns hunique hdistinct) hexec

/-- At the end of the day the owner's list comes about and shows what the trades add up to. -/
theorem holdings_listed_day :
    ∃ (final : Shared) (listed : List InstrumentDTO) (world : World),
      Exec (works Sample.environment) (InstrumentService.getInstruments ownerId)
        (final, DbContext.fresh) (.ok listed) world ∧
      final.database.holdingOf ownerId 1 = some 1 ∧
      Lists Sample.environment final.database
        (heldSince Sample.shared.database final.database ownerId) listed := by
  obtain ⟨requests, final, hcheck, hruns⟩ := exists_runs Sample.shared Sample.day
    (fun _ final => final.database.holdingOf ownerId 1 = some 1) (by decide +kernel)
  have hsound : Sample.shared.database.Sound :=
    { unique := by decide
      holdings := by simp [Sample.shared]
      orders := by simp [Sample.shared, Sample.openTrade, Trade.longTrade] }
  obtain ⟨hlists, hreturns⟩ := holdings_listed hruns hsound Sample.environment ownerId
  obtain ⟨outcome, world, hexec, -⟩ := exists_exec_works Sample.environment
    (InstrumentService.getInstruments ownerId) (final, DbContext.fresh)
  obtain ⟨listed, rfl⟩ := hreturns (by decide) outcome world hexec
  exact ⟨final, listed, world, hexec, of_decide_eq_true hcheck,
    hlists listed world (exec_mono (fun _ _ _ _ => step_of_works) hexec)⟩

end Runs

end EasyTrade.Broker

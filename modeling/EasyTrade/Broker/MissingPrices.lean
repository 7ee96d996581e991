import EasyTrade.Broker.Succeeding

/-!
# Trades without a price

`GetInstruments` leaves out an instrument whose price is missing.  The run over the open
trades looks its prices up with the indexer of a dictionary, which throws, and one trade
that cannot be looked up takes the whole run with it.
-/

namespace EasyTrade.Broker

open EasyTrade.Program

/-- A run over the open trades in which no database, client or other service fails. -/
def SmoothRun (environment : Environment) (shared : Shared)
    (outcome : Except BrokerException Unit) (final : Shared) : Prop :=
  ∃ context, Exec (works environment) LongTradeService.processLongRunningTransactions
    (shared, DbContext.fresh) outcome (final, context)

/-- The database as if the trades on instruments without a price were absent. -/
def Database.priced (database : Database) (environment : Environment) : Database :=
  { database with trades := database.trades.delete fun trade =>
      ((database.market environment).prices trade.instrumentId).isNone }

/-- The run completes and commits, closes the overdue trades, and does with every other
trade that has a price what a run at the same time does in the absence of the rest. -/
structure Tolerates (environment : Environment) (shared : Shared)
    (outcome : Except BrokerException Unit) (final : Shared) : Prop where
  completes : outcome = .ok ()
  commits : ∃ writes, final.binlog = shared.binlog ++ [writes]
  asIfAlone : ∃ time, shared.clock ≤ time ∧ time ≤ final.clock ∧
    (∀ trade ∈ shared.database.trades.rows, trade.overdue time = true →
      final.database.trades.find? trade.id =
        some (trade.close "Time is up: trade failed" false)) ∧
    ∀ other alone, SmoothRun environment
        { shared with database := shared.database.priced environment, clock := time } other alone →
      alone.clock = time →
        final.database.books = alone.database.books ∧
          ∀ trade ∈ shared.database.trades.rows, trade.tradeClosed = false →
            (shared.database.market environment).Lists trade →
              final.database.trades.find? trade.id = alone.database.trades.find? trade.id

/-- The price list has no instrument twice, and none is missing of those with an open trade
that is not overdue when the run starts. -/
structure Covers (environment : Environment) (shared : Shared) : Prop where
  distinct : ((pricesOfResponse environment.latestPrices).map Price.instrumentId).Nodup
  listed : ∀ trade ∈ shared.database.trades.rows, trade.tradeClosed = false →
    trade.overdue shared.clock = false → (shared.database.market environment).Lists trade

section Runs

variable {environment : Environment} {shared final : Shared}
  {outcome : Except BrokerException Unit}

theorem exists_smoothRun (environment : Environment) (shared : Shared) :
    ∃ outcome final, SmoothRun environment shared outcome final ∧ final.clock = shared.clock := by
  obtain ⟨outcome, final, hexec, hclock⟩ := exists_exec_works environment
    LongTradeService.processLongRunningTransactions (shared, DbContext.fresh)
  exact ⟨outcome, final.1, ⟨final.2, hexec⟩, hclock⟩

theorem SmoothRun.serves (hrun : SmoothRun environment shared outcome final) :
    Serves environment .processLongRunningTransactions shared outcome final := by
  obtain ⟨context, hexec⟩ := hrun
  exact ⟨context, exec_mono (fun _ _ _ _ => step_of_works) hexec⟩

/-- Nothing but a missing price makes a run throw. -/
theorem SmoothRun.completes (hfunded : Funded shared.database)
    (hcovers : Covers environment shared) (hrun : SmoothRun environment shared outcome final) :
    outcome = .ok () := by
  obtain ⟨context, hexec⟩ := hrun
  have haccepted : Ensures environment LongTradeService.processLongRunningTransactions
      (fun _ _ => True) (fun _ _ => True)
      (Session.arrive shared.database shared.clock shared.closedTrades) :=
    LongTradeService.processLongRunningTransactions_at (fun _ _ _ => trivial)
      fun _ _ _ _ _ _ _ _ _ _ _ _ _ => trivial
  obtain ⟨value, hvalue⟩ := returns_of_works haccepted
    (processLongRunningTransactions_returns hfunded hcovers.distinct hcovers.listed) hexec
  exact hvalue

theorem lists_of_decide {market : Market} {books : Books} {trade : Trade} {decision : Decision}
    (hdecide : books.decide market trade = some decision) : market.Lists trade := by
  unfold Books.decide at hdecide
  obtain ⟨instrument, hinstrument, hdecide⟩ := Option.bind_eq_some_iff.mp hdecide
  obtain ⟨price, hprice, hdecide⟩ := Option.bind_eq_some_iff.mp hdecide
  obtain ⟨product, hproduct, -⟩ := Option.bind_eq_some_iff.mp hdecide
  exact ⟨instrument, price, product, hinstrument, hprice, hproduct⟩

/-- A run that returns has looked up every open trade. -/
theorem lists_of_batch {market : Market} {books : Books} {trades : List Trade}
    {decisions : List (Trade × Decision)} (hbatch : batch market books trades = some decisions)
    {trade : Trade} (hmem : trade ∈ trades) : market.Lists trade := by
  rw [← map_fst_of_batch hbatch] at hmem
  obtain ⟨⟨decided, decision⟩, hentry, rfl⟩ := List.mem_map.mp hmem
  obtain ⟨done, rest, hsplit⟩ := List.append_of_mem hentry
  exact lists_of_decide (decide_of_batch hbatch hsplit)

/-- A run that takes no time and returns has looked up every trade that is pending. -/
theorem covers_of_carriedOut {time : DateTime} {decisions : List (Trade × Decision)}
    {closed : List Event} (hcarried : CarriedOut environment shared final time decisions closed)
    (hclock : final.clock = shared.clock) : Covers environment shared := by
  have htime : time = shared.clock :=
    le_antisymm (hcarried.notAfter.trans hclock.le) hcarried.notBefore
  subst htime
  refine ⟨hcarried.distinctPrices, fun trade hmem hopen hnot => ?_⟩
  refine lists_of_batch hcarried.batch ?_
  exact (mem_openTrades_iff (Replay.possible_append.mp hcarried.possible).1 trade).mpr
    ⟨hmem, hopen, hnot⟩

/-! ### The run in the absence of the rest -/

theorem prices_of_lists {trade : Trade}
    (hlisted : (shared.database.market environment).Lists trade) :
    ((shared.database.market environment).prices trade.instrumentId).isNone = false := by
  obtain ⟨instrument, price, product, hinstrument, hprice, -⟩ := hlisted
  have hid : instrument.id = trade.instrumentId := Table.key_of_find? hinstrument
  rw [← hid, hprice]
  rfl

theorem mem_priced {database : Database} {trade : Trade} :
    trade ∈ (database.priced environment).trades.rows ↔ trade ∈ database.trades.rows ∧
      ((database.market environment).prices trade.instrumentId).isNone = false := by
  rw [Database.priced, Table.rows_delete, List.mem_filter, Bool.not_eq_true']

theorem Funded.priced {database : Database} (hfunded : Funded database) :
    Funded (database.priced environment) where
  owner := hfunded.owner
  traders trade hmem hopen := hfunded.traders trade (mem_priced.mp hmem).1 hopen

theorem Covers.priced (hcovers : Covers environment shared) {time : DateTime}
    (htime : shared.clock ≤ time) : Covers environment
      { shared with database := shared.database.priced environment, clock := time } where
  distinct := hcovers.distinct
  listed trade hmem hopen hnot := by
    refine hcovers.listed trade (mem_priced.mp hmem).1 hopen (Bool.eq_false_iff.mpr ?_)
    exact fun hoverdue => Bool.eq_false_iff.mp hnot (overdue_mono htime hoverdue)

/-- The pending trades all have a price, so that none of them is absent. -/
theorem pending_priced (hcovers : Covers environment shared) {time : DateTime}
    (htime : shared.clock ≤ time) :
    ((shared.database.priced environment).trades.rows.filter fun trade =>
        !trade.tradeClosed && !trade.overdue time) =
      shared.database.trades.rows.filter fun trade =>
        !trade.tradeClosed && !trade.overdue time := by
  rw [Database.priced, Table.rows_delete, List.filter_filter]
  refine List.filter_congr fun trade hmem => ?_
  cases hpending : !trade.tradeClosed && !trade.overdue time with
  | false => rfl
  | true =>
    rw [Bool.and_eq_true, Bool.not_eq_true', Bool.not_eq_true'] at hpending
    have hlisted : (shared.database.market environment).Lists trade := by
      refine hcovers.listed trade hmem hpending.1 (Bool.eq_false_iff.mpr fun hoverdue => ?_)
      exact Bool.eq_false_iff.mp hpending.2 (overdue_mono htime hoverdue)
    rw [prices_of_lists hlisted]
    rfl

variable {alone : Shared} {time : DateTime} {decisions decisions' : List (Trade × Decision)}
  {closed closed' : List Event}

/-- Without the rest, the same decisions are made. -/
theorem decisions_alone (hcovers : Covers environment shared)
    (hcarried : CarriedOut environment shared final time decisions closed)
    (halone : CarriedOut environment
      { shared with database := shared.database.priced environment, clock := time } alone time
      decisions' closed') : decisions' = decisions := by
  have htrades : openTrades environment ((shared.database.priced environment).after
        (expirations environment (shared.database.priced environment) time)) =
      openTrades environment (shared.database.after
        (expirations environment shared.database time)) := by
    rw [openTrades_expirations (Replay.possible_append.mp halone.possible).1,
      openTrades_expirations (Replay.possible_append.mp hcarried.possible).1,
      pending_priced hcovers hcarried.notBefore]
  have hbatch : batch (shared.database.market environment) shared.database.books
      (openTrades environment (shared.database.after
        (expirations environment shared.database time))) = some decisions' := by
    rw [← htrades]
    exact halone.batch
  exact Option.some.inj (hbatch.symm.trans hcarried.batch)

/-- Without the rest, the books and the trades come out the same. -/
theorem same_alone (hcovers : Covers environment shared)
    (hcarried : CarriedOut environment shared final time decisions closed)
    (halone : CarriedOut environment
      { shared with database := shared.database.priced environment, clock := time } alone time
      decisions' closed') :
    final.database.books = alone.database.books ∧
      ∀ trade ∈ shared.database.trades.rows, trade.tradeClosed = false →
        (shared.database.market environment).Lists trade →
          final.database.trades.find? trade.id = alone.database.trades.find? trade.id := by
  have hsame := decisions_alone hcovers hcarried halone
  subst hsame
  constructor
  · calc final.database.books
        = shared.database.books.afterAll decisions' := by
          rw [hcarried.database]
          exact books_of_run hcarried.resolutions hcarried.possible
      _ = (shared.database.priced environment).books.afterAll decisions' := rfl
      _ = alone.database.books := by
          rw [halone.database]
          exact (books_of_run halone.resolutions halone.possible).symm
  · intro trade hmem hopen hlisted
    have hpriced : trade ∈ (shared.database.priced environment).trades.rows :=
      mem_priced.mpr ⟨hmem, prices_of_lists hlisted⟩
    cases hoverdue : trade.overdue time with
    | true =>
      rw [hcarried.processedRun.expired trade hmem hoverdue,
        halone.processedRun.expired trade hpriced hoverdue]
    | false =>
      have hpending : trade ∈ decisions'.map Prod.fst := by
        rw [hcarried.processedRun.pending.mem_iff, List.mem_filter, hopen, hoverdue]
        exact ⟨hmem, rfl⟩
      obtain ⟨⟨decided, decision⟩, hentry, rfl⟩ := List.mem_map.mp hpending
      rw [hcarried.processedRun.decided _ _ hentry, halone.processedRun.decided _ _ hentry]

/-- A run tolerates the price list when it covers what is looked up, and only then. -/
theorem tolerates_iff (hfunded : Funded shared.database) :
    (∀ outcome final, SmoothRun environment shared outcome final →
      Tolerates environment shared outcome final) ↔ Covers environment shared := by
  constructor
  · intro htolerates
    obtain ⟨outcome, final, hrun, hclock⟩ := exists_smoothRun environment shared
    have hok := (htolerates outcome final hrun).completes
    subst hok
    obtain ⟨time, decisions, closed, hcarried⟩ := carriedOut_of_serves hrun.serves
    exact covers_of_carriedOut hcarried hclock
  · intro hcovers outcome final hrun
    have hok := hrun.completes hfunded hcovers
    subst hok
    obtain ⟨writes, hbinlog, -⟩ := serves_commit hrun.serves
    obtain ⟨time, decisions, closed, hcarried⟩ := carriedOut_of_serves hrun.serves
    refine ⟨rfl, ⟨writes, hbinlog⟩, time, hcarried.notBefore, hcarried.notAfter,
      hcarried.processedRun.expired, ?_⟩
    intro other alone hother hclock
    have hotherOk := hother.completes hfunded.priced (hcovers.priced hcarried.notBefore)
    subst hotherOk
    obtain ⟨time', decisions', closed', halone⟩ := carriedOut_of_serves hother.serves
    have htime : time' = time := le_antisymm (halone.notAfter.trans hclock.le) halone.notBefore
    subst htime
    exact same_alone hcovers hcarried halone

end Runs

namespace Sample

/-- A second instrument, and on each of the two an open trade that has time left. -/
def crowded : Shared :=
  { shared with
    database := { shared.database with
      instruments := ⟨[⟨1, 1, "EZ", "EasyTrade", "EasyTrade shares"⟩,
        ⟨2, 1, "DT", "Dynatrace", "Dynatrace shares"⟩], by decide⟩
      trades := ⟨[openTrade, { Trade.longTrade 2 2 .longBuy 10 1 0 500 with id := 2 },
        { Trade.longTrade 2 1 .longBuy 10 1 0 500 with id := 3 }], by decide⟩ } }

/-- A price list that has both instruments. -/
def listing : Environment :=
  { environment with latestPrices := some [⟨1, 0, 10, 12, 9, 11⟩, ⟨2, 0, 10, 12, 9, 11⟩] }

theorem crowded_funded : Funded crowded.database := ⟨by decide, by decide⟩

end Sample

theorem tolerates_listing :
    (∃ outcome final, SmoothRun Sample.listing Sample.crowded outcome final) ∧
      ∀ outcome final, SmoothRun Sample.listing Sample.crowded outcome final →
        Tolerates Sample.listing Sample.crowded outcome final := by
  obtain ⟨outcome, final, hrun, -⟩ := exists_smoothRun Sample.listing Sample.crowded
  refine ⟨⟨outcome, final, hrun⟩, (tolerates_iff Sample.crowded_funded).mpr ⟨by decide, ?_⟩⟩
  intro trade hmem _ _
  fin_cases hmem
  · exact ⟨_, _, _, rfl, rfl, rfl⟩
  · exact ⟨_, _, _, rfl, rfl, rfl⟩
  · exact ⟨_, _, _, rfl, rfl, rfl⟩

/-- The price list lacks the second instrument: the run throws, and the overdue trade on the
first one stays open. -/
theorem run_not_tolerant : ¬ ∀ (environment : Environment) (shared : Shared),
    Funded shared.database → ∀ outcome final, SmoothRun environment shared outcome final →
      Tolerates environment shared outcome final := by
  intro hall
  obtain ⟨outcome, final, hseen, hexec⟩ := exists_works_of_replay Sample.environment
    LongTradeService.processLongRunningTransactions (List.replicate 60 100)
    (Sample.crowded, DbContext.fresh) (fun outcome _ => !outcome.isOk) (by decide +kernel)
  have htolerates := hall Sample.environment Sample.crowded Sample.crowded_funded outcome final.1
    ⟨final.2, hexec⟩
  rw [htolerates.completes] at hseen
  exact absurd hseen Bool.false_ne_true

end EasyTrade.Broker

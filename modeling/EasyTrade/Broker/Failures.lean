import EasyTrade.Broker.TradeLog

/-!
# What a failing request leaves behind

A request that throws leaves the tables alone.  The engine service, however, is
told about closings while their transaction is open, so what it has been told
is right only when the run commits.
-/

namespace EasyTrade.Broker

/-- Wherever and however a request fails, the committed tables are as before. -/
theorem failed_request_leaves_database {environment : Environment}
    {operation : Operation} {shared shared' : Shared} {error : BrokerException}
    (hserves : Serves environment operation shared (.error error) shared') :
    shared'.database.balances = shared.database.balances ∧
      shared'.database.balanceHistories = shared.database.balanceHistories ∧
      shared'.database.ownedInstruments = shared.database.ownedInstruments ∧
      shared'.database.trades = shared.database.trades := by
  obtain ⟨hdatabase, -⟩ := serves_error hserves
  rw [hdatabase]
  exact ⟨rfl, rfl, rfl, rfl⟩

namespace Sample

/-- A run over the open trades whose commit fails after one has expired. -/
def brokenCommit : List Move :=
  List.replicate 10 (.work 100) ++ [.throw (.unexpected "Lost connection"), .work 100]

theorem serves_brokenCommit :
    ∃ (error : BrokerException) (shared' : Shared),
      (shared'.database.balances.rows = shared.database.balances.rows ∧
        shared'.database.trades.rows = shared.database.trades.rows ∧
        shared'.closedTrades.length = 1) ∧
      Serves environment .processLongRunningTransactions shared (.error error) shared' := by
  obtain ⟨outcome, shared', hcheck, hserves⟩ := exists_serves environment
    .processLongRunningTransactions shared brokenCommit
    (fun outcome shared' => !outcome.toBool &&
      decide (shared'.database.balances.rows = shared.database.balances.rows ∧
        shared'.database.trades.rows = shared.database.trades.rows ∧
        shared'.closedTrades.length = 1)) (by decide +kernel)
  rw [Bool.and_eq_true, decide_eq_true_eq, Bool.not_eq_true'] at hcheck
  cases outcome with
  | ok value => cases hcheck.1
  | error error => exact ⟨error, shared', hcheck.2, hserves⟩

end Sample

theorem failed_request_leaves_database_brokenCommit :
    ∃ shared' : Shared, shared'.closedTrades.length = 1 ∧
      shared'.database.balances = Sample.shared.database.balances ∧
      shared'.database.balanceHistories = Sample.shared.database.balanceHistories ∧
      shared'.database.ownedInstruments = Sample.shared.database.ownedInstruments ∧
      shared'.database.trades = Sample.shared.database.trades := by
  obtain ⟨error, shared', hcheck, hserves⟩ := Sample.serves_brokenCommit
  exact ⟨shared', hcheck.2.2, failed_request_leaves_database hserves⟩

/-! ## Notifications -/

/-- The engine has been told about exactly the trades that were open and are now
closed, about each of them once and as the table has it. -/
def NotifiesClosings (shared shared' : Shared) : Prop :=
  ∃ notified, shared'.closedTrades = shared.closedTrades ++ notified ∧
    (notified.map Trade.id).Nodup ∧
    ∀ trade, trade ∈ notified ↔
      shared.database.isOpen trade.id ∧
        shared'.database.trades.find? trade.id = some trade ∧ trade.tradeClosed = true

/-- A run that is rolled back may have told the engine about closings that it
has not committed. -/
theorem notified_without_commit :
    ∃ (error : BrokerException) (shared' : Shared),
      Serves Sample.environment .processLongRunningTransactions Sample.shared
        (.error error) shared' ∧ ¬NotifiesClosings Sample.shared shared' := by
  obtain ⟨error, shared', ⟨-, htrades, hlength⟩, hserves⟩ := Sample.serves_brokenCommit
  refine ⟨error, shared', hserves, ?_⟩
  rintro ⟨notified, happended, -, hiff⟩
  have hnotified : notified.length = 1 := by
    rw [← hlength, happended]
    rfl
  obtain ⟨trade, rfl⟩ := List.length_eq_one_iff.mp hnotified
  obtain ⟨-, hfound, hclosed⟩ := (hiff trade).mp List.mem_cons_self
  have hmem := Table.mem_of_find? hfound
  rw [htrades] at hmem
  simp only [Sample.shared, List.mem_singleton] at hmem
  rw [hmem] at hclosed
  cases hclosed

/-- A run that commits has told the engine about exactly the closings it
commits.  A run that fails commits none, and the trades it has told the engine
about are all still open. -/
theorem notifications_of_run {environment : Environment} {shared shared' : Shared}
    {outcome : Except BrokerException Unit}
    (hserves : Serves environment .processLongRunningTransactions shared outcome
      shared') :
    (outcome = .ok () → NotifiesClosings shared shared') ∧
      (outcome ≠ .ok () → shared'.database.trades = shared.database.trades ∧
        ∃ notified, shared'.closedTrades = shared.closedTrades ++ notified ∧
          (notified.map Trade.id).Nodup ∧
          ∀ trade ∈ notified, shared'.database.isOpen trade.id) := by
  constructor
  · rintro rfl
    obtain ⟨events, heffects, hpossible, hdatabase, hnotified, -⟩ := serves_ok hserves
    refine ⟨events.filterMap Event.notified, hnotified, nodup_notified hpossible, ?_⟩
    rw [hdatabase]
    exact mem_notified_iff hpossible (Processed.closing heffects)
  · intro hfailed
    cases outcome with
    | ok value => exact absurd rfl hfailed
    | error error =>
        obtain ⟨hdatabase, events, hpossible, hclosing, hnotified⟩ := serves_error hserves
        refine ⟨by rw [hdatabase], events.filterMap Event.notified, hnotified,
          nodup_notified hpossible, fun trade htrade => ?_⟩
        rw [hdatabase]
        exact ((mem_notified_iff hpossible hclosing trade).mp htrade).1

theorem notifications_of_run_brokenCommit :
    ∃ shared' : Shared, ∃ notified, shared'.closedTrades = notified ∧
      notified.length = 1 ∧ ∀ trade ∈ notified, shared'.database.isOpen trade.id := by
  obtain ⟨error, shared', hcheck, hserves⟩ := Sample.serves_brokenCommit
  have hfailed : (Except.error error : Except BrokerException Unit) ≠ .ok () := by simp
  obtain ⟨-, notified, hnotified, -, hopen⟩ := (notifications_of_run hserves).2 hfailed
  have hnotified : shared'.closedTrades = notified := hnotified
  exact ⟨shared', notified, hnotified, hnotified ▸ hcheck.2.2, hopen⟩

end EasyTrade.Broker

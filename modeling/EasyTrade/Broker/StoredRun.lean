import EasyTrade.Broker.ProcessingRun
import EasyTrade.Broker.StoredHoldings

/-!
# One run over the open trades, as it is stored

The orders have been stored before the run, so the quantities that it adds to the holdings are
exact.  The products of quantity and price have more decimals than a balance: the run reckons
with all of them, and each balance is rounded once at the end.
-/

namespace EasyTrade.Broker

open Rounding

/-- A committed run, with its balances as they are stored. -/
structure StoredRun (environment : Environment) (before after : Database) (time : DateTime)
    (decisions : List (Trade × Decision)) : Prop
    extends DecidedRun environment before after time decisions where
  balances : ∀ account, after.balanceOf account =
    (before.balanceOf account).map fun value => storedDecimal (value + gained decisions account)

section Stored

variable {environment : Environment} {before after : Database} {time : DateTime}
variable {decisions : List (Trade × Decision)}

theorem find?_trades_stored (id : ℤ) :
    after.stored.trades.find? id = (after.trades.find? id).map Trade.stored :=
  Table.find?_map Trade.id_stored after.trades id

theorem stored_close {trade : Trade} (hstored : trade.stored = trade) (status : String)
    (happened : Bool) : (trade.close status happened).stored = trade.close status happened := by
  calc
    _ = trade.stored.close status happened := rfl
    _ = trade.close status happened := by rw [hstored]

theorem stored_decision_close {trade : Trade} (hstored : trade.stored = trade)
    (decision : Decision) : (decision.close trade).stored = decision.close trade := by
  cases decision with
  | wait => exact hstored
  | reject status => exact stored_close hstored status false
  | fill direction ppt => exact stored_close hstored _ true

/-- What a run leaves alone is stored as it was. -/
theorem SameAccount.stored {account : ℤ} (hsame : SameAccount before after account)
    (hstored : before.stored = before) : SameAccount before after.stored account := by
  have hfind : ∀ database : Database, database.stored.balances.find? account =
      (database.balances.find? account).map Balance.stored :=
    fun database => Table.find?_map Balance.accountId_stored database.balances account
  have hrows : ∀ database : Database,
      database.stored.balanceHistories.filter (fun row => row.accountId = account) =
        (database.balanceHistories.filter fun row => row.accountId = account).map
          BalanceHistory.stored := fun database => List.filter_map ..
  constructor
  · rw [hfind, hsame.1, ← hfind, hstored]
  · rw [hrows, hsame.2, ← hrows, hstored]

theorem SameHolding.stored {accountId instrumentId : ℤ}
    (hsame : SameHolding before after accountId instrumentId)
    (hstored : before.stored = before) :
    SameHolding before after.stored accountId instrumentId := by
  have hrows : ∀ database : Database, database.stored.ownedInstruments.rows.filter
      (OwnedInstrument.isFor accountId instrumentId) =
        (database.ownedInstruments.rows.filter
          (OwnedInstrument.isFor accountId instrumentId)).map OwnedInstrument.stored :=
    fun database => List.filter_map ..
  rw [SameHolding, hrows, hsame, ← hrows, hstored]

/-- The quantities of stored orders add up to a stored quantity. -/
theorem DecidedRun.storedDecimal_acquired
    (hrun : DecidedRun environment before after time decisions)
    (hstored : before.stored = before) (accountId instrumentId : ℤ) :
    storedDecimal (acquired decisions accountId instrumentId) =
      acquired decisions accountId instrumentId := by
  refine roundTo_sum_of_multiples decimalUnit_pos fun term hterm => ?_
  obtain ⟨executed, hexecuted, rfl⟩ := List.mem_map.mp hterm
  obtain ⟨⟨trade, decision⟩, hmem, hdecision⟩ :=
    List.mem_filterMap.mp (List.mem_filter.mp hexecuted).1
  have hrow : trade ∈ before.trades.rows :=
    (List.mem_filter.mp (hrun.pending.mem_iff.mp (List.mem_map_of_mem hmem))).1
  have hquantity : storedDecimal trade.quantity = trade.quantity :=
    congrArg Trade.quantity (stored_of_mem hstored hrow)
  cases decision with
  | wait | reject => cases hdecision
  | fill direction ppt =>
      cases hdecision
      rw [ExecutedTrade.holdingChange, quantityChange]
      split_ifs
      · exact (roundTo_neg _).trans (congrArg Neg.neg hquantity)
      · exact hquantity

theorem DecidedRun.stored (hrun : DecidedRun environment before after time decisions)
    (hstored : before.stored = before) :
    DecidedRun environment before after.stored time decisions where
  pending := hrun.pending
  turns := hrun.turns
  closed trade hmem hclosed := by
    rw [find?_trades_stored, hrun.closed trade hmem hclosed, Option.map_some,
      stored_of_mem hstored hmem]
  expired trade hmem hoverdue := by
    rw [find?_trades_stored, hrun.expired trade hmem hoverdue, Option.map_some,
      stored_close (stored_of_mem hstored hmem)]
  decided trade decision hmem := by
    have hrow : trade ∈ before.trades.rows :=
      (List.mem_filter.mp (hrun.pending.mem_iff.mp (List.mem_map_of_mem hmem))).1
    rw [find?_trades_stored, hrun.decided trade decision hmem, Option.map_some,
      stored_decision_close (stored_of_mem hstored hrow)]
  holdings accountId instrumentId := by
    rw [holdingOf_stored, hrun.holdings]
    split_ifs
    · rw [← holdingOf_stored, hstored]
    · refine congrArg some (roundTo_add_of_multiples decimalUnit_pos ?_ ?_)
      · exact storedDecimal_holding hstored accountId instrumentId
      · exact hrun.storedDecimal_acquired hstored accountId instrumentId
  untouchedAccounts account hother := (hrun.untouchedAccounts account hother).stored hstored
  untouchedHoldings accountId instrumentId hnone :=
    (hrun.untouchedHoldings accountId instrumentId hnone).stored hstored

end Stored

/-- A committed run over stored tables, whatever the order of the open trades, the time and the
prices, as it is stored. -/
theorem storedRun_of_serves {environment : Environment} {shared shared' : Shared}
    (hstored : shared.database.stored = shared.database)
    (hserves : Serves environment .processLongRunningTransactions shared (.ok ()) shared') :
    ∃ time decisions, shared.clock ≤ time ∧ time ≤ shared'.clock ∧
      StoredRun environment shared.database shared'.stored.database time decisions := by
  obtain ⟨time, decisions, hbefore, hafter, hrun⟩ := processedRun_of_serves hserves
  refine ⟨time, decisions, hbefore, hafter, hrun.toDecidedRun.stored hstored, fun account => ?_⟩
  calc
    shared'.stored.database.balanceOf account =
        (shared'.database.balanceOf account).map storedDecimal := balanceOf_stored _ account
    _ = _ := by
      rw [hrun.balances, Option.map_map]
      rfl

/-! ## A run that rounds -/

namespace Sample

def order (id : ℤ) (direction : ActionType) (price quantity : ℚ) : Trade :=
  { Trade.longTrade 2 1 direction price quantity 0 50 with id := id }

/-- Four orders of the trader: the first two do not both fit into its balance, the third sells
more than it has before the first, and the last waits. -/
def orders : Shared :=
  { shared with
    clock := 20
    database := { shared.database with
      trades := ⟨[order 1 .longBuy (10 + decimalUnit) (3 / 2), order 2 .longBuy 9 9,
        order 3 .longSell 11 6, order 4 .longBuy 5 1], by decide⟩ } }

end Sample

/-- The first and the third order are executed, the second fails for lack of money. -/
theorem storedRun_orders : ∃ (shared' : Shared) (time : DateTime)
    (decisions : List (Trade × Decision)),
    shared'.database.trades.rows.map
        (fun trade => (trade.id, trade.tradeClosed, trade.transactionHappened)) =
      [(1, true, true), (2, true, false), (3, true, true), (4, false, false)] ∧
    shared'.stored.database.balanceOf 2 = some (147 - decimalUnit) ∧
    StoredRun Sample.environment Sample.orders.database shared'.stored.database time
      decisions := by
  obtain ⟨outcome, shared', hcheck, hserves⟩ := exists_serves Sample.environment
    .processLongRunningTransactions Sample.orders (List.replicate 90 (.work 20))
    (fun outcome final => decide (outcome = .ok () ∧
      final.database.trades.rows.map
          (fun trade => (trade.id, trade.tradeClosed, trade.transactionHappened)) =
        [(1, true, true), (2, true, false), (3, true, true), (4, false, false)] ∧
      final.stored.database.balanceOf 2 = some (147 - decimalUnit)))
    (by decide +kernel)
  obtain ⟨rfl, htrades, hbalance⟩ := of_decide_eq_true hcheck
  obtain ⟨time, decisions, -, -, hrun⟩ := storedRun_of_serves (by decide +kernel) hserves
  exact ⟨shared', time, decisions, htrades, hbalance, hrun⟩

/-- What the executed orders have paid has nine decimals, the balance eight. -/
theorem balance_not_exact : ∃ start final : Shared,
    start.database.stored = start.database ∧
    Serves Sample.environment .processLongRunningTransactions start (.ok ()) final ∧
    final.stored.database.balanceOf 2 ≠ (start.database.balanceOf 2).map
      (· + ((executedDuring start.database final.stored.database).map
        (start.database.balanceEffect 2)).sum) := by
  obtain ⟨outcome, final, hcheck, hserves⟩ := exists_serves Sample.environment
    .processLongRunningTransactions Sample.orders (List.replicate 90 (.work 20))
    (fun outcome final => decide (outcome = .ok () ∧
      final.stored.database.balanceOf 2 ≠ (Sample.orders.database.balanceOf 2).map
        (· + ((executedDuring Sample.orders.database final.stored.database).map
          (Sample.orders.database.balanceEffect 2)).sum)))
    (by decide +kernel)
  obtain ⟨rfl, hbalance⟩ := of_decide_eq_true hcheck
  exact ⟨Sample.orders, final, by decide +kernel, hserves, hbalance⟩

end EasyTrade.Broker

import EasyTrade.Broker.TradeLog
import EasyTrade.Broker.LedgerIntegrity

/-!
# Conservation of money

Money enters and leaves the broker's books by deposits, withdrawals and executed
trades, and by nothing else.  The fees only move it from the traders to the
owner.
-/

namespace EasyTrade.Broker

def Database.total (database : Database) : ℚ := database.balances.sumBy Balance.value

/-- The cost of the buys among some trades. -/
def spentOn (trades : List Trade) : ℚ :=
  ((trades.filter Trade.isBuy).map fun trade => trade.quantity * trade.entryPrice).sum

/-- The income from the sells among some trades. -/
def earnedFrom (trades : List Trade) : ℚ :=
  ((trades.filter Trade.isSell).map fun trade => trade.quantity * trade.entryPrice).sum

theorem sum_value (trades : List Trade) :
    (trades.map Trade.value).sum = earnedFrom trades - spentOn trades :=
  sum_signed Trade.isSell Trade.isBuy (fun trade => trade.quantity * trade.entryPrice) trades

/-! ## The total of all balances -/

section Total

variable {start database : Database} {event : Event} {events : List Event}

/-- Money comes in from a client or from the execution of a trade. -/
theorem total_apply (hallowed : event.Allowed database) :
    (event.apply database).total = database.total +
      (event.paidIn (fun _ => true) + event.executedTrade.elim 0 Trade.value) := by
  cases event with
  | deposited accountId amount date =>
      exact (sumBy_post hallowed.2).trans (by simp [Event.paidIn, Event.executedTrade,
        Database.total])
  | withdrawn accountId amount date =>
      obtain ⟨-, value, hvalue, -⟩ := hallowed
      exact (sumBy_post (mem_keys_of_balanceOf hvalue)).trans
        (by simp [Event.paidIn, Event.executedTrade, Database.total])
  | registered | rejected =>
      simp [Event.apply, Event.paidIn, Event.executedTrade, Database.total]
  | executed trade settlement =>
      obtain ⟨hsettleable, htrades⟩ := settleable_of_executed hallowed
      have hsum := sumBy_settle hsettleable
      rw [hsettleable.income_eq htrades] at hsum
      exact hsum.trans (by simp [Event.paidIn, Event.executedTrade, Database.total])
  | filled trade settlement =>
      obtain ⟨hsettleable, htrades⟩ := settleable_of_filled hallowed
      have hsum := sumBy_settle hsettleable
      rw [hsettleable.income_eq htrades] at hsum
      exact hsum.trans (by simp [Event.paidIn, Event.executedTrade, Database.total,
        Trade.value, Trade.close, Trade.isBuy, Trade.isSell])

theorem total_after (hpossible : Possible start events) :
    (start.after events).total = start.total +
      ((events.map (Event.paidIn fun _ => true)).sum +
        ((executedDuring start (start.after events)).map Trade.value).sum) := by
  let income : Event → ℚ := fun event =>
    event.paidIn (fun _ => true) + event.executedTrade.elim 0 Trade.value
  have htotal := hpossible.measure (fun _ => True) Database.total income
    (fun _ _ _ _ => trivial) (fun _ _ _ hallowed => total_apply hallowed) trivial
  rw [Database.after, htotal, List.sum_map_add, sum_executedDuring hpossible]

end Total

/-! ## Fees -/

/-- The total of the history rows of one type. -/
def feeTotal (actionType : ActionType) (rows : List BalanceHistory) : ℚ :=
  ((rows.filter fun row => row.actionType = actionType.stored).map
    BalanceHistory.valueChange).sum

/-- The same for rows without balances and dates. -/
def entryTotal (actionType : ActionType) (entries : List (ℤ × ℚ × String)) : ℚ :=
  ((entries.filter fun entry => entry.2.2 = actionType.stored).map
    fun entry => entry.2.1).sum

theorem feeTotal_eq (actionType : ActionType) (rows : List BalanceHistory) :
    feeTotal actionType rows = entryTotal actionType (rows.map BalanceHistory.entry) := by
  rw [feeTotal, entryTotal, List.filter_map, List.map_map]
  rfl

theorem entryTotal_append (actionType : ActionType) (first second : List (ℤ × ℚ × String)) :
    entryTotal actionType (first ++ second) =
      entryTotal actionType first + entryTotal actionType second := by
  simp [entryTotal]

/-- Every fee that a trader pays is collected. -/
theorem fees_settlement {settlement : Settlement} (htrades : settlement.Trades)
    (trade : Trade) :
    entryTotal .transactionFee (settlement.entries trade) +
      entryTotal .collectFee (settlement.entries trade) = 0 := by
  rcases htrades with h | h | h | h <;>
    simp [entryTotal, Settlement.entries, ActionType.stored, h]

theorem fees_event {event : Event} {database : Database}
    (hallowed : event.Allowed database) :
    entryTotal .transactionFee event.entries + entryTotal .collectFee event.entries =
      0 := by
  cases event with
  | deposited | withdrawn => simp [entryTotal, Event.entries, ActionType.stored]
  | registered | rejected => simp [entryTotal, Event.entries]
  | executed trade settlement =>
      exact fees_settlement (settleable_of_executed hallowed).2 trade
  | filled trade settlement =>
      exact fees_settlement (settleable_of_filled hallowed).2 trade

theorem fees_zero_sum {start : Database} {events : List Event}
    (hpossible : Possible start events) :
    entryTotal .transactionFee (events.flatMap Event.entries) +
      entryTotal .collectFee (events.flatMap Event.entries) = 0 := by
  have hevents : ∀ event ∈ events, entryTotal .transactionFee event.entries +
      entryTotal .collectFee event.entries = 0 := fun event hevent => by
    obtain ⟨database, -, hallowed⟩ := allowed_of_mem hpossible hevent
    exact fees_event hallowed
  clear hpossible
  induction events with
  | nil => simp [entryTotal]
  | cons event events ih =>
      have hhead := hevents event List.mem_cons_self
      have htail := ih fun other hother => hevents other (List.mem_cons_of_mem event hother)
      rw [List.flatMap_cons, entryTotal_append, entryTotal_append]
      linarith

/-! ## The owner -/

/-- What executed trades bring to the owner: its own trades like to any trader,
except that it pays the fee to itself, and the fees of all others. -/
theorem sum_balanceEffect_owner (database : Database) (trades : List Trade) :
    (trades.map (database.balanceEffect ownerId)).sum =
      ((trades.filter fun trade => trade.accountId = ownerId).map Trade.value).sum +
        ((trades.filter fun trade => trade.accountId ≠ ownerId).map database.feeOf).sum := by
  have heffect : database.balanceEffect ownerId = fun trade =>
      if trade.accountId = ownerId then trade.value else database.feeOf trade := by
    funext trade
    by_cases howner : trade.accountId = ownerId
    · simp [Database.balanceEffect, howner]
    · simp [Database.balanceEffect, howner, Ne.symm howner]
  rw [heffect, List.sum_map_ite]

/-- No trade is executed without a fee being known. -/
theorem fee_of_executed {start : Database} {events : List Event}
    (hpossible : Possible start events) {trade : Trade}
    (htrade : trade ∈ executedDuring start (start.after events)) :
    ∃ ppt, start.pptOf trade.instrumentId = some ppt := by
  have hmem := (executedDuring_after hpossible).mem_iff.mp htrade
  obtain ⟨event, hevent, hexecuted⟩ := List.mem_filterMap.mp hmem
  obtain ⟨database, hppt, hallowed⟩ := allowed_of_mem hpossible hevent
  rw [← hppt]
  cases event with
  | deposited | withdrawn | registered | rejected => cases hexecuted
  | executed trade settlement =>
      cases hexecuted
      exact ⟨settlement.ppt, (settleable_of_executed hallowed).1.fee⟩
  | filled trade settlement =>
      cases hexecuted
      exact ⟨settlement.ppt, (settleable_of_filled hallowed).1.fee⟩

/-! ## Prices -/

/-- What was agreed about a trade: account, instrument, direction, quantity and
price. -/
def Trade.terms (trade : Trade) : ℤ × ℤ × String × ℚ × ℚ :=
  (trade.accountId, trade.instrumentId, trade.direction, trade.quantity, trade.entryPrice)

/-- A trade keeps the terms on which it was recorded. -/
theorem terms_of_mem_after {start : Database} {events : List Event}
    (hpossible : Possible start events) {trade : Trade}
    (htrade : trade ∈ (start.after events).trades.rows) :
    (∃ before ∈ start.trades.rows, before.id = trade.id ∧ before.terms = trade.terms) ∨
      ∃ event ∈ events, ∃ recorded, event.recorded = some recorded ∧
        recorded.id = trade.id ∧ recorded.terms = trade.terms := by
  induction events using List.reverseRecOn generalizing trade with
  | nil => exact Or.inl ⟨trade, htrade, rfl, rfl⟩
  | append_singleton events event ih =>
      obtain ⟨hearlier, hallowed⟩ := Replay.possible_concat.mp hpossible
      have hkept : ∀ {earlier : Trade}, earlier ∈ (start.after events).trades.rows →
          earlier.id = trade.id → earlier.terms = trade.terms →
          (∃ before ∈ start.trades.rows, before.id = trade.id ∧
            before.terms = trade.terms) ∨
            ∃ event' ∈ events ++ [event], ∃ recorded, event'.recorded = some recorded ∧
              recorded.id = trade.id ∧ recorded.terms = trade.terms := by
        intro earlier hmem hid hterms
        rcases ih hearlier hmem with hbefore | ⟨event', hevent', hrecorded⟩
        · exact Or.inl (by simpa only [hid, hterms] using hbefore)
        · exact Or.inr ⟨event', List.mem_append_left _ hevent',
            by simpa only [hid, hterms] using hrecorded⟩
      rw [Database.after, Replay.run_append] at htrade
      rcases trades_apply_cases hallowed with
        ⟨htrades, -⟩ | ⟨added, hfresh, -, htrades, hrecorded, -⟩ |
          ⟨closed, status, happened, hfound, -, htrades, -⟩
      · exact hkept (htrades ▸ htrade) rfl rfl
      · have hrows : trade ∈ ((start.after events).trades.insert added).rows :=
          htrades ▸ htrade
        rw [Table.rows_insert hfresh, List.mem_append, List.mem_singleton] at hrows
        rcases hrows with hmem | rfl
        · exact hkept hmem rfl rfl
        · exact Or.inr ⟨event, by simp, trade, hrecorded, rfl, rfl⟩
      · have hrows : trade ∈ ((start.after events).trades.set
            (closed.close status happened)).rows := htrades ▸ htrade
        rcases Table.mem_rows_set.mp hrows with ⟨hmem, -⟩ | ⟨rfl, -⟩
        · exact hkept hmem rfl rfl
        · exact hkept (Table.mem_of_find? hfound) rfl rfl

/-- The request succeeded and recorded a trade on these terms: a quick trade at
the open price of the latest quotation, a long trade at the price asked for. -/
def Served.Agrees (request : Served) (terms : ℤ × ℤ × String × ℚ × ℚ) : Prop :=
  request.outcome = .ok () ∧
    match request.operation with
    | .quickBuy accountId instrumentId amount => ∃ price,
        (pricesOfResponse
          (request.environment.pricesByInstrumentId instrumentId 1)).head? = some price ∧
        terms = (accountId, instrumentId, ActionType.buy.stored, amount, price.openPrice)
    | .quickSell accountId instrumentId amount => ∃ price,
        (pricesOfResponse
          (request.environment.pricesByInstrumentId instrumentId 1)).head? = some price ∧
        terms = (accountId, instrumentId, ActionType.sell.stored, amount, price.openPrice)
    | .longBuy accountId instrumentId amount _ price =>
        terms = (accountId, instrumentId, ActionType.longBuy.stored, amount, price)
    | .longSell accountId instrumentId amount _ price =>
        terms = (accountId, instrumentId, ActionType.longSell.stored, amount, price)
    | _ => False

theorem Served.Accounts.agrees {request : Served} {event : Event} {recorded : Trade}
    (haccounts : request.Accounts event) (hrecorded : event.recorded = some recorded) :
    request.Agrees recorded.terms := by
  obtain ⟨environment, operation, outcome⟩ := request
  obtain ⟨houtcome, database, clock, events, heffects, hevent⟩ := haccounts
  refine ⟨houtcome, ?_⟩
  cases operation with
  | deposit | withdraw =>
      obtain ⟨date, rfl⟩ := heffects
      rw [List.mem_singleton.mp hevent] at hrecorded
      cases hrecorded
  | quickBuy | quickSell =>
      obtain ⟨_, rfl, price, id, opened, closed, settlement, hprice, -, rfl⟩ := heffects
      rw [List.mem_singleton.mp hevent] at hrecorded
      cases hrecorded
      exact ⟨price, hprice, rfl⟩
  | longBuy | longSell =>
      obtain ⟨_, rfl, id, opened, expires, rfl⟩ := heffects
      rw [List.mem_singleton.mp hevent] at hrecorded
      cases hrecorded
      rfl
  | processLongRunningTransactions =>
      have hresolution := Processed.closing heffects event hevent
      cases event with
      | registered | executed => cases hresolution
      | deposited | withdrawn | filled | rejected => cases hrecorded

/-! ## Conservation -/

/-- Money conservation over a run: the total changes by the deposits and
withdrawals that succeeded and by the executed trades; the fees sum to zero; the
owner gets the fees of all trades of others, besides what it pays in and what
its own trades earn; and the trades were executed at the agreed prices. -/
theorem Runs.money_conserved {start final : Shared} {requests : List Served}
    (hruns : Runs start requests final) :
    final.database.total - start.database.total =
        (requests.map (Served.paidIn fun _ => true)).sum -
          spentOn (executedDuring start.database final.database) +
          earnedFrom (executedDuring start.database final.database) ∧
      (∃ appended, final.database.balanceHistories =
          start.database.balanceHistories ++ appended ∧
        feeTotal .transactionFee appended = -feeTotal .collectFee appended) ∧
      final.database.balanceOf ownerId = (start.database.balanceOf ownerId).map (· +
        ((requests.map (Served.paidIn fun accountId => accountId = ownerId)).sum +
          (((executedDuring start.database final.database).filter fun trade =>
            trade.accountId = ownerId).map Trade.value).sum +
          (((executedDuring start.database final.database).filter fun trade =>
            trade.accountId ≠ ownerId).map start.database.feeOf).sum)) ∧
      ∀ trade ∈ executedDuring start.database final.database,
        (∃ ppt, start.database.pptOf trade.instrumentId = some ppt) ∧
          ((∃ before ∈ start.database.trades.rows, before.id = trade.id ∧
            before.terms = trade.terms) ∨
            ∃ request ∈ requests, request.Agrees trade.terms) := by
  obtain ⟨events, hpossible, hfinal, haccounts, hpaidIn⟩ := hruns.refines
  rw [hfinal]
  refine ⟨?_, ?_, ?_, ?_⟩
  · rw [total_after hpossible, hpaidIn, sum_value]
    ring
  · obtain ⟨appended, happended, hentries⟩ := Records.after hpossible
    refine ⟨appended, happended, ?_⟩
    have hfees := fees_zero_sum hpossible
    rw [← hentries, ← feeTotal_eq, ← feeTotal_eq] at hfees
    exact eq_neg_of_add_eq_zero_left hfees
  · rw [balanceOf_after_eq hpossible, hpaidIn, sum_balanceEffect_owner, add_assoc]
  · intro trade htrade
    refine ⟨fee_of_executed hpossible htrade, ?_⟩
    rcases terms_of_mem_after hpossible (List.mem_filter.mp htrade).1 with
      hbefore | ⟨event, hevent, recorded, hrecorded, -, hterms⟩
    · exact Or.inl hbefore
    · obtain ⟨request, hrequest, hevent⟩ := haccounts event hevent
      exact Or.inr ⟨request, hrequest, hterms ▸ hevent.agrees hrecorded⟩

theorem money_conserved_day :
    ∃ (requests : List Served) (final : Shared),
      (executedDuring Sample.shared.database final.database).length = 4 ∧
      final.database.total - Sample.shared.database.total =
        (requests.map (Served.paidIn fun _ => true)).sum -
          spentOn (executedDuring Sample.shared.database final.database) +
          earnedFrom (executedDuring Sample.shared.database final.database) := by
  obtain ⟨requests, final, hcheck, hruns⟩ := exists_runs Sample.shared Sample.day
    (fun _ final => (executedDuring Sample.shared.database final.database).length = 4)
    (by decide +kernel)
  exact ⟨requests, final, of_decide_eq_true hcheck, hruns.money_conserved.1⟩

end EasyTrade.Broker

import EasyTrade.Broker.ProcessingRun
import EasyTrade.Broker.Accepted
import EasyTrade.Broker.MissingPrices

/-!
# A long trade and the run that meets it

A request opens a long trade, other requests may follow, and a run over the open trades
finds it before its time is up.  When nothing else concerns its account, the outcome follows
from the order, from the price record that the run reads, and from what the account has when
the run begins.
-/

namespace EasyTrade.Broker

open EasyTrade.Program

/-- A request has opened the trade, and the requests after it have left it as it was. -/
def Scheduled (operation : Operation) (trade : Trade) (before : Shared) : Prop :=
  ∃ environment shared placed requests,
    Serves environment operation shared (.ok ()) placed ∧
      trade.id ∉ shared.database.trades.keys ∧
      placed.database.trades.find? trade.id = some trade ∧
      Runs placed requests before ∧
      before.database.trades.find? trade.id = some trade

/-- The run that meets a scheduled trade. -/
structure NextRun (operation : Operation) (environment : Environment) (before final : Shared)
    (trade : Trade) : Prop where
  scheduled : Scheduled operation trade before
  serves : Serves environment .processLongRunningTransactions before (.ok ()) final
  inTime : trade.overdue final.clock = false

/-- Nothing else concerns the account: it has no other open trade, and if it is the owner's,
which collects the fees, nobody has. -/
def Alone (database : Database) (trade : Trade) : Prop :=
  ∀ other ∈ database.trades.rows, other.tradeClosed = false → other.id ≠ trade.id →
    other.accountId ≠ trade.accountId ∧ trade.accountId ≠ ownerId

/-- The price record that a run reads for an instrument. -/
def Environment.latestPrice (environment : Environment) (instrumentId : ℤ) : Option Price :=
  (pricesOfResponse environment.latestPrices).find? fun price =>
    price.instrumentId = instrumentId

section Scheduled

variable {operation : Operation} {trade : Trade} {before : Shared}
variable {accountId instrumentId : ℤ} {amount price : ℚ} {type : ActionType}

/-- The trade is the one that the order asked for. -/
theorem Scheduled.registers (hscheduled : Scheduled operation trade before)
    (hregisters : ∀ environment database clock events,
      operation.Effects environment database clock events → ∃ event, events = [event] ∧
        LongTradeService.Registers accountId instrumentId amount price type event) :
    LongTradeService.Registers accountId instrumentId amount price type (.registered trade) := by
  obtain ⟨environment, shared, placed, requests, hserves, hnew, hfound, -, -⟩ := hscheduled
  obtain ⟨events, heffects, hpossible, hdatabase, -, -⟩ := serves_ok hserves
  obtain ⟨event, rfl, id, opened, expires, rfl⟩ := hregisters _ _ _ _ heffects
  have hfresh : id ∉ shared.database.trades.keys := hpossible.1.1
  have htrades : placed.database.trades = shared.database.trades.insert
      { Trade.longTrade accountId instrumentId type price amount opened expires with
        id := id } := congrArg Database.trades hdatabase
  rw [htrades, Table.find?_insert hfresh] at hfound
  by_cases hsame : id = trade.id
  · rw [if_pos hsame] at hfound
    exact ⟨id, opened, expires, congrArg Event.registered (Option.some.inj hfound).symm⟩
  · rw [if_neg hsame] at hfound
    exact absurd (Table.mem_keys_of_find? hfound) hnew

end Scheduled

/-! ## The turn of the trade -/

section Turn

variable {operation : Operation} {environment : Environment} {before final : Shared}
variable {trade : Trade} {accountId instrumentId : ℤ} {amount price : ℚ} {type : ActionType}

/-- The columns of the trade, as the order gave them. -/
theorem NextRun.ordered (hrun : NextRun operation environment before final trade)
    (hregisters : ∀ environment database clock events,
      operation.Effects environment database clock events → ∃ event, events = [event] ∧
        LongTradeService.Registers accountId instrumentId amount price type event) :
    trade.tradeClosed = false ∧ trade.quantity = amount ∧ trade.entryPrice = price ∧
      trade.direction = type.stored := by
  obtain ⟨id, opened, expires, hsame⟩ := hrun.scheduled.registers hregisters
  cases hsame
  exact ⟨rfl, rfl, rfl, rfl⟩

/-- The run decides on the trade after some of the other open trades. -/
theorem NextRun.turn (hrun : NextRun operation environment before final trade)
    (hopen : trade.tradeClosed = false) :
    ∃ done decision,
      Turn (before.database.market environment) (before.database.books.afterAll done) trade
        decision ∧
      final.database.trades.find? trade.id = some (decision.close trade) ∧
      ∀ entry ∈ done, entry.1 ∈ before.database.trades.rows ∧
        entry.1.tradeClosed = false ∧ entry.1.id ≠ trade.id := by
  obtain ⟨time, decisions, -, htime, hprocessed⟩ := processedRun_of_serves hrun.serves
  obtain ⟨-, -, -, -, -, -, -, -, hfound⟩ := hrun.scheduled
  have hintime : trade.overdue time = false := by
    rw [← Bool.not_eq_true]
    intro hoverdue
    exact absurd (overdue_mono htime hoverdue) (Bool.not_eq_true _ ▸ hrun.inTime)
  have hmem : trade ∈ decisions.map Prod.fst :=
    hprocessed.pending.mem_iff.mpr (List.mem_filter.mpr
      ⟨Table.mem_of_find? hfound, by rw [hopen, hintime]; rfl⟩)
  obtain ⟨⟨_, decision⟩, hentry, rfl⟩ := List.mem_map.mp hmem
  obtain ⟨done, rest, hdecisions⟩ := List.append_of_mem hentry
  refine ⟨done, decision, hprocessed.turns done _ decision rest hdecisions,
    hprocessed.decided _ decision hentry, fun entry hdone => ?_⟩
  have hpending : entry.1 ∈ decisions.map Prod.fst :=
    List.mem_map_of_mem (hdecisions ▸ List.mem_append_left _ hdone)
  obtain ⟨hrow, hkept⟩ := List.mem_filter.mp (hprocessed.pending.mem_iff.mp hpending)
  rw [Bool.and_eq_true, Bool.not_eq_true'] at hkept
  -- the run comes to every open trade once
  have hids : ((decisions.map Prod.fst).map Trade.id).Nodup :=
    (hprocessed.pending.map Trade.id).nodup_iff.mpr
      (before.database.trades.keysNodup.sublist (List.filter_sublist.map _))
  rw [hdecisions, List.map_append, List.map_cons, List.map_append, List.map_cons,
    List.nodup_middle, List.nodup_cons] at hids
  refine ⟨hrow, hkept.1, fun hsame => hids.1 (List.mem_append_left _ ?_)⟩
  rw [← hsame]
  exact List.mem_map_of_mem (List.mem_map_of_mem hdone)

/-- What other trades do does not reach an account that is alone. -/
theorem Alone.books_eq (halone : Alone before.database trade) {done : List (Trade × Decision)}
    (hdone : ∀ entry ∈ done, entry.1 ∈ before.database.trades.rows ∧
      entry.1.tradeClosed = false ∧ entry.1.id ≠ trade.id) :
    (before.database.books.afterAll done).balance trade.accountId =
        before.database.balanceOf trade.accountId ∧
      (before.database.books.afterAll done).holding trade.accountId trade.instrumentId =
        before.database.holdingOf trade.accountId trade.instrumentId := by
  have hothers : ∀ executed ∈ executedIn done, trade.accountId ≠ executed.trade.accountId ∧
      trade.accountId ≠ ownerId := by
    intro executed hexecuted
    obtain ⟨⟨other, decision⟩, hentry, hdecision⟩ := List.mem_filterMap.mp hexecuted
    obtain ⟨hrow, hopen, hid⟩ := hdone _ hentry
    obtain ⟨haccount, howner⟩ := halone other hrow hopen hid
    cases decision with
    | wait | reject => cases hdecision
    | fill direction ppt =>
        cases hdecision
        exact ⟨haccount.symm, howner⟩
  have hgained : gained done trade.accountId = 0 := by
    refine List.sum_eq_zero fun change hchange => ?_
    obtain ⟨executed, hexecuted, rfl⟩ := List.mem_map.mp hchange
    obtain ⟨haccount, howner⟩ := hothers executed hexecuted
    rw [ExecutedTrade.balanceChange, if_neg haccount, if_neg howner, add_zero]
  have hnone : executedFor done trade.accountId trade.instrumentId = [] := by
    refine List.filter_eq_nil_iff.mpr fun executed hexecuted hfor => ?_
    exact (hothers executed hexecuted).1 (of_decide_eq_true hfor).1
  rw [balance_afterAll, holding_afterAll, hgained, if_pos hnone]
  refine ⟨?_, rfl⟩
  calc (before.database.books.balance trade.accountId).map (· + 0)
      = (before.database.books.balance trade.accountId).map id := by
        congr 1
        funext value
        exact add_zero value
    _ = before.database.balanceOf trade.accountId := congrFun Option.map_id _

end Turn

/-! ## Long buys -/

section Buy

variable {environment : Environment} {before final : Shared} {trade : Trade}
variable {accountId instrumentId duration : ℤ} {amount price balance ppt : ℚ} {latest : Price}

/-- A long buy at its turn either waits, or is executed, or fails for lack of money. -/
theorem BuyTurn.cases {books : Books} {decision : Decision}
    (hturn : BuyTurn books trade latest ppt decision)
    (hbalance : books.balance trade.accountId = some balance) :
    (trade.entryPrice < latest.low ∧ decision = .wait) ∨
      (latest.low ≤ trade.entryPrice ∧ trade.quantity * trade.entryPrice + ppt ≤ balance ∧
        decision = .fill .longBuy ppt) ∨
      (latest.low ≤ trade.entryPrice ∧ balance < trade.quantity * trade.entryPrice + ppt ∧
        decision = .reject "Not enough money to buy stocks! Trade failed!") := by
  rcases lt_or_ge trade.entryPrice latest.low with hwaits | hreached
  · exact Or.inl ⟨hwaits, hturn.waits.mpr hwaits⟩
  rcases le_or_gt (trade.quantity * trade.entryPrice + ppt) balance with hpaid | hlacking
  · exact Or.inr (Or.inl ⟨hreached, hpaid,
      hturn.executes.mpr ⟨hreached, balance, hbalance, hpaid⟩⟩)
  · exact Or.inr (Or.inr ⟨hreached, hlacking,
      hturn.fails.mpr ⟨hreached, balance, hbalance, hlacking⟩⟩)

/-- The turn of a long buy, by the record that the run reads. -/
theorem NextRun.buyTurn (hrun : NextRun
      (.longBuy accountId instrumentId amount duration price) environment before final trade)
    (hlatest : environment.latestPrice trade.instrumentId = some latest) :
    ∃ books ppt decision, BuyTurn books trade latest ppt decision ∧
      final.database.trades.find? trade.id = some (decision.close trade) ∧
      before.database.pptOf trade.instrumentId = some ppt ∧
      (Alone before.database trade →
        books.balance trade.accountId = before.database.balanceOf trade.accountId) := by
  obtain ⟨hopen, -, -, hdirection⟩ := hrun.ordered fun _ _ _ _ h => h
  obtain ⟨done, decision, hturn, hfinal, hdone⟩ := hrun.turn hopen
  obtain ⟨instrument, read, product, hinstrument, hread, hproduct, hbuy, -⟩ := hturn
  have hsame : read = latest := Option.some.inj (hread.symm.trans hlatest)
  have hlongBuy : equalsIgnoreCase trade.direction ActionType.longBuy.name := by
    rw [hdirection]
    exact equalsIgnoreCase_stored .longBuy
  exact ⟨_, product.ppt, decision, hsame ▸ hbuy hlongBuy, hfinal,
    TradeService.pptOf_eq hinstrument hproduct, fun halone => (halone.books_eq hdone).1⟩

/-- A long buy below the lowest price stays as it is. -/
theorem NextRun.longBuy_waits (hrun : NextRun
      (.longBuy accountId instrumentId amount duration price) environment before final trade)
    (hlatest : environment.latestPrice trade.instrumentId = some latest)
    (hlow : price < latest.low) :
    final.database.trades.find? trade.id = some trade := by
  obtain ⟨books, ppt, decision, hturn, hfinal, -, -⟩ := hrun.buyTurn hlatest
  obtain ⟨-, -, hprice, -⟩ := hrun.ordered fun _ _ _ _ h => h
  rw [hfinal, hturn.waits.mpr (hprice ▸ hlow)]
  rfl

/-- How the run ends for a long buy of an account that is alone. -/
theorem NextRun.longBuy_ends (hrun : NextRun
      (.longBuy accountId instrumentId amount duration price) environment before final trade)
    (halone : Alone before.database trade)
    (hlatest : environment.latestPrice trade.instrumentId = some latest)
    (hppt : before.database.pptOf trade.instrumentId = some ppt)
    (hbalance : before.database.balanceOf trade.accountId = some balance) :
    (final.database.trades.find? trade.id =
        some (trade.close "Long buy transaction finished!" true) ↔
      latest.low ≤ price ∧ amount * price + ppt ≤ balance) ∧
    (final.database.trades.find? trade.id =
        some (trade.close "Not enough money to buy stocks! Trade failed!" false) ↔
      latest.low ≤ price ∧ balance < amount * price + ppt) := by
  obtain ⟨books, fee, decision, hturn, hfinal, hfee, hbooks⟩ := hrun.buyTurn hlatest
  obtain ⟨hopen, hamount, hprice, -⟩ := hrun.ordered fun _ _ _ _ h => h
  have hsame : fee = ppt := Option.some.inj (hfee.symm.trans hppt)
  subst hsame hamount hprice
  rw [hfinal]
  rcases hturn.cases ((hbooks halone).trans hbalance) with
    ⟨hwaits, rfl⟩ | ⟨hreached, hpaid, rfl⟩ | ⟨hreached, hlacking, rfl⟩
  · have hstays : ∀ status happened, trade ≠ trade.close status happened :=
      fun status happened hclosed =>
        absurd (hopen.symm.trans (congrArg Trade.tradeClosed hclosed)) Bool.false_ne_true
    exact ⟨iff_of_false (fun h => hstays _ _ (Option.some.inj h)) fun h =>
        absurd hwaits (not_lt.mpr h.1),
      iff_of_false (fun h => hstays _ _ (Option.some.inj h)) fun h =>
        absurd hwaits (not_lt.mpr h.1)⟩
  · refine ⟨iff_of_true rfl ⟨hreached, hpaid⟩, iff_of_false (fun h => ?_) fun h =>
      absurd hpaid (not_le.mpr h.2)⟩
    exact absurd (congrArg Trade.transactionHappened (Option.some.inj h)) Bool.noConfusion
  · refine ⟨iff_of_false (fun h => ?_) fun h => absurd hlacking (not_lt.mpr h.2),
      iff_of_true rfl ⟨hreached, hlacking⟩⟩
    exact absurd (congrArg Trade.transactionHappened (Option.some.inj h)) Bool.noConfusion

end Buy

/-! ## Long sells -/

section Sell

variable {environment : Environment} {before final : Shared} {trade : Trade}
variable {accountId instrumentId duration : ℤ} {amount price held : ℚ} {latest : Price}

/-- The turn of a long sell, by the record that the run reads. -/
theorem NextRun.sellTurn (hrun : NextRun
      (.longSell accountId instrumentId amount duration price) environment before final trade)
    (hlatest : environment.latestPrice trade.instrumentId = some latest) :
    ∃ books ppt decision, SellTurn books trade latest ppt decision ∧
      final.database.trades.find? trade.id = some (decision.close trade) ∧
      (Alone before.database trade →
        books.holding trade.accountId trade.instrumentId =
          before.database.holdingOf trade.accountId trade.instrumentId) := by
  obtain ⟨hopen, -, -, hdirection⟩ := hrun.ordered fun _ _ _ _ h => h
  obtain ⟨done, decision, hturn, hfinal, hdone⟩ := hrun.turn hopen
  obtain ⟨instrument, read, product, -, hread, -, -, hsell⟩ := hturn
  have hsame : read = latest := Option.some.inj (hread.symm.trans hlatest)
  have hlongSell : equalsIgnoreCase trade.direction ActionType.longSell.name := by
    rw [hdirection]
    exact equalsIgnoreCase_stored .longSell
  exact ⟨_, product.ppt, decision, hsame ▸ hsell hlongSell, hfinal,
    fun halone => (halone.books_eq hdone).2⟩

/-- A long sell above the highest price stays as it is. -/
theorem NextRun.longSell_waits (hrun : NextRun
      (.longSell accountId instrumentId amount duration price) environment before final trade)
    (hlatest : environment.latestPrice trade.instrumentId = some latest)
    (hhigh : latest.high < price) :
    final.database.trades.find? trade.id = some trade := by
  obtain ⟨books, ppt, decision, hturn, hfinal, -⟩ := hrun.sellTurn hlatest
  obtain ⟨-, -, hprice, -⟩ := hrun.ordered fun _ _ _ _ h => h
  rw [hfinal, hturn.waits.mpr (hprice ▸ hhigh)]
  rfl

/-- A long sell at a price that is reached is executed when the account has enough. -/
theorem NextRun.longSell_executes (hrun : NextRun
      (.longSell accountId instrumentId amount duration price) environment before final trade)
    (halone : Alone before.database trade)
    (hlatest : environment.latestPrice trade.instrumentId = some latest)
    (hheld : before.database.holdingOf trade.accountId trade.instrumentId = some held)
    (hhigh : price ≤ latest.high) (henough : amount ≤ held) :
    final.database.trades.find? trade.id =
      some (trade.close "Long sell transaction finished!" true) := by
  obtain ⟨books, ppt, decision, hturn, hfinal, hbooks⟩ := hrun.sellTurn hlatest
  obtain ⟨-, hamount, hprice, -⟩ := hrun.ordered fun _ _ _ _ h => h
  rw [hfinal, hturn.executes.mpr
    ⟨hprice ▸ hhigh, held, (hbooks halone).trans hheld, hamount ▸ henough⟩]
  rfl

/-- A long sell at a price that is reached fails when the account has too little. -/
theorem NextRun.longSell_fails (hrun : NextRun
      (.longSell accountId instrumentId amount duration price) environment before final trade)
    (halone : Alone before.database trade)
    (hlatest : environment.latestPrice trade.instrumentId = some latest)
    (hheld : before.database.holdingOf trade.accountId trade.instrumentId = some held)
    (hhigh : price ≤ latest.high) (hmissing : held < amount) :
    final.database.trades.find? trade.id =
      some (trade.close "Not enough stocks to sell! Trade failed!" false) := by
  obtain ⟨books, ppt, decision, hturn, hfinal, hbooks⟩ := hrun.sellTurn hlatest
  obtain ⟨-, hamount, hprice, -⟩ := hrun.ordered fun _ _ _ _ h => h
  have hfew : ∀ quantity, books.holding trade.accountId trade.instrumentId = some quantity →
      quantity < trade.quantity := by
    intro quantity hquantity
    have hsame : quantity = held :=
      Option.some.inj (hquantity.symm.trans ((hbooks halone).trans hheld))
    rw [hsame, hamount]
    exact hmissing
  rw [hfinal, hturn.fails.mpr ⟨hprice ▸ hhigh, hfew⟩]
  rfl

end Sell

/-! ## There is such a run -/

section Exists

variable {environment : Environment} {shared placed : Shared}
variable {accountId instrumentId duration : ℤ} {amount price : ℚ}

/-- The trade of a served order expires when its hours are over. -/
theorem opened_of_serves (hserves : Serves environment
      (.longBuy accountId instrumentId amount duration price) shared (.ok ()) placed) :
    ∃ id opened now expires, id ∉ shared.database.trades.keys ∧ now ≤ placed.clock ∧
      shared.clock ≤ now ∧ now.addHours duration = some expires ∧
      placed.database = (Event.registered
        { Trade.longTrade accountId instrumentId .longBuy price amount opened expires with
          id := id }).apply shared.database := by
  obtain ⟨context, hexec⟩ := hserves
  have hensures : Ensures environment
      ((Operation.longBuy accountId instrumentId amount duration price).request environment)
      (fun _ final => final.rolledBack = false ∧ ∃ id opened now expires,
        id ∉ shared.database.trades.keys ∧ now ≤ final.clock ∧ shared.clock ≤ now ∧
        now.addHours duration = some expires ∧ final.committed = (Event.registered
          { Trade.longTrade accountId instrumentId .longBuy price amount opened expires with
            id := id }).apply shared.database)
      (fun _ _ => True)
      (Session.arrive shared.database shared.clock shared.closedTrades) := by
    simp only [Operation.request, LongTradeService.buyAssets, ensures_bind, ensures_pure]
    refine LongTradeService.createLongTransaction_spec_at trivial ?_
    intro id opened now expires trade _ hid _ hopened hnow hexpires
    exact ⟨rfl, id, opened, now, expires, hid, le_rfl, hopened.trans hnow, hexpires, rfl⟩
  obtain ⟨session, hrelated, hopen, id, opened, now, expires, hid, hnow, hclock, hexpires,
    hcommitted⟩ := hensures.sound hexec
  exact ⟨id, opened, now, expires, hid, hnow.trans (hrelated.mirrored hopen).clock, hclock,
    hexpires, hrelated.committed.symm.trans hcommitted⟩

theorem le_of_addHours {now expires : DateTime} (hduration : 0 ≤ duration)
    (hexpires : now.addHours duration = some expires) : now ≤ expires := by
  unfold DateTime.addHours at hexpires
  dsimp only at hexpires
  split_ifs at hexpires
  have hlater : 0 ≤ duration * DateTime.ticksPerHour :=
    mul_nonneg hduration (by decide)
  calc now ≤ now + duration * DateTime.ticksPerHour := le_add_of_nonneg_right hlater
    _ = expires := Option.some.inj hexpires

/-- Where nothing else is open, a long buy is scheduled and met by a run at once. -/
theorem exists_nextRun_longBuy (hfunded : Funded shared.database)
    (hclosed : ∀ trade ∈ shared.database.trades.rows, trade.tradeClosed = true)
    (haccount : accountId ∈ shared.database.balances.keys)
    (hdistinct : ((pricesOfResponse environment.latestPrices).map Price.instrumentId).Nodup)
    (hlists : ∀ trade : Trade, trade.instrumentId = instrumentId →
      (shared.database.market environment).Lists trade)
    (hamount : 0 ≤ amount) (hprice : 0 ≤ price) (hduration : 0 ≤ duration)
    (hexpires : (shared.clock.addHours duration).isSome) :
    ∃ placed final trade, NextRun (.longBuy accountId instrumentId amount duration price)
        environment placed final trade ∧
      trade.accountId = accountId ∧ trade.instrumentId = instrumentId ∧
      Alone placed.database trade ∧
      placed.database =
        { shared.database with trades := shared.database.trades.insert trade } := by
  obtain ⟨instrument, -, -, hinstrument, -⟩ :=
    hlists (Trade.longTrade accountId instrumentId .longBuy price amount 0 0) rfl
  obtain ⟨placed, hserves, hclock⟩ := exists_serves_longBuy environment haccount hinstrument
    hamount hprice hduration hexpires
  obtain ⟨id, opened, now, expires, hid, hnow, hlater, hexpiry, hdatabase⟩ :=
    opened_of_serves hserves
  let trade : Trade :=
    { Trade.longTrade accountId instrumentId .longBuy price amount opened expires with
      id := id }
  have hrows : placed.database.trades.rows = shared.database.trades.rows ++ [trade] := by
    rw [hdatabase]
    exact Table.rows_insert hid
  have hopen : ∀ other ∈ placed.database.trades.rows, other.tradeClosed = false →
      other = trade := by
    intro other hother hopen
    rw [hrows, List.mem_append, List.mem_singleton] at hother
    rcases hother with hold | hnew
    · exact absurd (hopen.symm.trans (hclosed other hold)) Bool.false_ne_true
    · exact hnew
  have hfound : placed.database.trades.find? trade.id = some trade :=
    Table.find?_key (hrows ▸ List.mem_append_right _ List.mem_cons_self)
  have hplaced : Funded placed.database :=
    { owner := by
        rw [hdatabase]
        exact hfunded.owner
      traders := fun other hother hotherOpen => by
        rw [hopen other hother hotherOpen, hdatabase]
        exact haccount }
  have hcovers : Covers environment placed :=
    { distinct := hdistinct
      listed := fun other hother hotherOpen _ => by
        rw [hopen other hother hotherOpen, hdatabase]
        exact hlists trade rfl }
  obtain ⟨outcome, final, hsmooth, hfinal⟩ := exists_smoothRun environment placed
  have hcompletes := hsmooth.completes hplaced hcovers
  subst hcompletes
  have hintime : trade.overdue final.clock = false := by
    have hclocks : final.clock ≤ expires := by
      calc final.clock = shared.clock := hfinal.trans hclock
        _ ≤ now := hlater
        _ ≤ expires := le_of_addHours hduration hexpiry
    have hnot : ¬expires < final.clock := not_lt.mpr hclocks
    exact decide_eq_false hnot
  refine ⟨placed, final, trade, ?_, rfl, rfl, ?_, hdatabase⟩
  · exact ⟨⟨environment, shared, placed, [], hserves, hid, hfound, Runs.idle, hfound⟩,
      hsmooth.serves, hintime⟩
  · intro other hother hotherOpen hne
    exact absurd (congrArg Trade.id (hopen other hother hotherOpen)) hne

end Exists

end EasyTrade.Broker

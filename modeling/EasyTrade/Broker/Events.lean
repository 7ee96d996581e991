import EasyTrade.Core.Replay
import EasyTrade.Core.Ledger
import EasyTrade.Broker.Services

/-!
# What happens to the books

The broker is there to move money and instruments between accounts.  Seen from
outside, its database changes by six kinds of events; this file says what each
of them does to the tables and when it can happen.  Nothing is said here about
how a request goes about it.
-/

namespace EasyTrade.Broker

namespace Database

def balanceOf (database : Database) (accountId : ℤ) : Option ℚ :=
  (database.balances.find? accountId).map Balance.value

def holdingOf (database : Database) (accountId instrumentId : ℤ) : Option ℚ :=
  (database.holdingRow accountId instrumentId).map OwnedInstrument.quantity

/-- A change of a balance together with its history row. -/
def post (database : Database) (accountId : ℤ) (change : ℚ) (actionType : ActionType)
    (now : DateTime) : Database :=
  match database.balances.find? accountId with
  | none => database
  | some balance =>
      { database with
        balances := database.balances.set { balance with value := balance.value + change }
        balanceHistories := database.balanceHistories ++
          [BalanceHistory.ofAction accountId balance.value change actionType now] }

/-- A change of a holding; the row is created, under a generated id, when there
is none. -/
def hold (database : Database) (accountId instrumentId : ℤ) (change : ℚ) (id : ℤ)
    (now : DateTime) : Database :=
  match database.holdingRow accountId instrumentId with
  | none =>
      { database with
        ownedInstruments := database.ownedInstruments.insert
          { OwnedInstrument.new accountId instrumentId change now with id := id } }
  | some row =>
      { database with
        ownedInstruments := database.ownedInstruments.set
          { row with
            quantity := row.quantity + change
            lastModificationDate := now } }

end Database

/-- What an executed trade does to the holding. -/
def quantityChange (direction : ActionType) (quantity : ℚ) : ℚ :=
  if direction = .sell ∨ direction = .longSell then -quantity else quantity

/-- How a trade was executed: the fee, the readings of the clock in their
order, and the id that a new holding row receives. -/
structure Settlement where
  direction : ActionType
  ppt : ℚ
  tradeDate : DateTime
  feeDate : DateTime
  collectDate : DateTime
  holdingDate : DateTime
  ownedInstrumentId : ℤ

namespace Settlement

def dates (settlement : Settlement) : List DateTime :=
  [settlement.tradeDate, settlement.feeDate, settlement.collectDate,
    settlement.holdingDate]

def income (settlement : Settlement) (trade : Trade) : ℚ :=
  TradeServiceBase.incomeOf settlement.direction (trade.quantity * trade.entryPrice)

def status (settlement : Settlement) : String :=
  if settlement.direction = .longSell then "Long sell transaction finished!"
  else "Long buy transaction finished!"

end Settlement

/-- The money of an executed trade: its price, the fee of the trader, and the
same fee for the owner. -/
def Database.charge (database : Database) (trade : Trade) (settlement : Settlement) :
    Database :=
  ((database.post trade.accountId (settlement.income trade) settlement.direction
    settlement.tradeDate).post trade.accountId (-settlement.ppt) .transactionFee
    settlement.feeDate).post ownerId settlement.ppt .collectFee settlement.collectDate

/-- The money and the instruments of an executed trade change hands. -/
def Database.settle (database : Database) (trade : Trade) (settlement : Settlement) :
    Database :=
  (database.charge trade settlement).hold trade.accountId trade.instrumentId
    (quantityChange settlement.direction trade.quantity) settlement.ownedInstrumentId
    settlement.holdingDate

inductive Event
  | deposited (accountId : ℤ) (amount : ℚ) (date : DateTime)
  | withdrawn (accountId : ℤ) (amount : ℚ) (date : DateTime)
  /-- A long trade is opened. -/
  | registered (trade : Trade)
  /-- A quick trade is executed and recorded. -/
  | executed (trade : Trade) (settlement : Settlement)
  /-- An open trade is executed and closed. -/
  | filled (trade : Trade) (settlement : Settlement)
  /-- An open trade is closed without effect. -/
  | rejected (trade : Trade) (status : String)

/-- The fee for trading an instrument. -/
def Database.pptOf (database : Database) (instrumentId : ℤ) : Option ℚ := do
  let instrument ← database.instruments.find? instrumentId
  let product ← database.products.find? instrument.productId
  return product.ppt

/-- When an executed trade can be settled: a buyer can pay price and fee, a
seller has the instruments. -/
structure Settleable (database : Database) (trade : Trade) (settlement : Settlement) :
    Prop where
  trader : trade.accountId ∈ database.balances.keys
  owner : ownerId ∈ database.balances.keys
  fee : database.pptOf trade.instrumentId = some settlement.ppt
  direction : equalsIgnoreCase trade.direction settlement.direction.name
  affordable : settlement.direction = .buy ∨ settlement.direction = .longBuy →
    ∃ value, database.balanceOf trade.accountId = some value ∧
      trade.quantity * trade.entryPrice + settlement.ppt ≤ value
  available : settlement.direction = .sell ∨ settlement.direction = .longSell →
    ∃ quantity, database.holdingOf trade.accountId trade.instrumentId = some quantity ∧
      trade.quantity ≤ quantity
  fresh : database.holdingRow trade.accountId trade.instrumentId = none →
    settlement.ownedInstrumentId ∉ database.ownedInstruments.keys

namespace Event

def apply : Event → Database → Database
  | deposited accountId amount date, database =>
      database.post accountId amount .deposit date
  | withdrawn accountId amount date, database =>
      database.post accountId (-amount) .withdraw date
  | registered trade, database =>
      { database with trades := database.trades.insert trade }
  | executed trade settlement, database =>
      let settled := database.settle trade settlement
      { settled with trades := settled.trades.insert trade }
  | filled trade settlement, database =>
      let settled := database.settle trade settlement
      { settled with trades := settled.trades.set (trade.close settlement.status true) }
  | rejected trade status, database =>
      { database with trades := database.trades.set (trade.close status false) }

def Allowed : Event → Database → Prop
  | deposited accountId amount _, database =>
      0 ≤ amount ∧ accountId ∈ database.balances.keys
  | withdrawn accountId amount _, database =>
      0 ≤ amount ∧ ∃ value, database.balanceOf accountId = some value ∧ amount ≤ value
  | registered trade, database =>
      trade.id ∉ database.trades.keys ∧ 0 ≤ trade.quantity ∧
        trade.tradeClosed = false ∧ trade.transactionHappened = false
  | executed trade settlement, database =>
      trade.id ∉ database.trades.keys ∧ 0 ≤ trade.quantity ∧
        trade.tradeClosed = true ∧ trade.transactionHappened = true ∧
        (settlement.direction = .buy ∨ settlement.direction = .sell) ∧
        Settleable database trade settlement
  | filled trade settlement, database =>
      database.trades.find? trade.id = some trade ∧ trade.tradeClosed = false ∧
        (settlement.direction = .longBuy ∨ settlement.direction = .longSell) ∧
        Settleable database trade settlement
  | rejected trade _, database =>
      database.trades.find? trade.id = some trade ∧ trade.tradeClosed = false

/-- The trade that the engine is told about. -/
def notified : Event → Option Trade
  | filled trade settlement => some (trade.close settlement.status true)
  | rejected trade status => some (trade.close status false)
  | _ => none

/-- The readings of the clock behind an event, in their order. -/
def dates : Event → List DateTime
  | deposited _ _ date | withdrawn _ _ date => [date]
  | registered trade => [trade.timestampOpen]
  | executed trade settlement => trade.timestampOpen :: settlement.dates
  | filled _ settlement => settlement.dates
  | rejected _ _ => []

end Event

/-- Readings of the clock between two times. -/
def Ordered : DateTime → List DateTime → DateTime → Prop
  | start, [], stop => start ≤ stop
  | start, date :: dates, stop => start ≤ date ∧ Ordered date dates stop

/-- The database after a sequence of events. -/
abbrev Database.after (database : Database) (events : List Event) : Database :=
  Replay.run Event.apply database events

/-- A sequence of events each of which can happen where it does. -/
abbrev Possible (database : Database) (events : List Event) : Prop :=
  Replay.Possible Event.apply Event.Allowed database events

theorem Ordered.le {start stop : DateTime} {dates : List DateTime}
    (h : Ordered start dates stop) : start ≤ stop := by
  induction dates generalizing start with
  | nil => exact h
  | cons date dates ih => exact h.1.trans (ih h.2)

theorem Ordered.of_le {start start' stop : DateTime} {dates : List DateTime}
    (hle : start' ≤ start) (h : Ordered start dates stop) : Ordered start' dates stop := by
  cases dates with
  | nil => exact hle.trans h
  | cons date dates => exact ⟨hle.trans h.1, h.2⟩

theorem Ordered.mono {start stop stop' : DateTime} {dates : List DateTime}
    (h : Ordered start dates stop) (hle : stop ≤ stop') : Ordered start dates stop' := by
  induction dates generalizing start with
  | nil => exact le_trans h hle
  | cons date dates ih => exact ⟨h.1, ih h.2⟩

theorem Ordered.append {start middle stop : DateTime} {first second : List DateTime}
    (hfirst : Ordered start first middle) (hsecond : Ordered middle second stop) :
    Ordered start (first ++ second) stop := by
  induction first generalizing start with
  | nil => exact hsecond.of_le hfirst
  | cons date dates ih => exact ⟨hfirst.1, ih hfirst.2⟩

/-! ## Postings -/

section Post

variable {database : Database} {accountId : ℤ} {change : ℚ} {actionType : ActionType}
variable {now : DateTime}

theorem balanceOf_eq_none_iff :
    database.balanceOf accountId = none ↔ accountId ∉ database.balances.keys := by
  rw [Database.balanceOf, Option.map_eq_none_iff, Table.find?_eq_none_iff]

theorem mem_keys_of_balanceOf {value : ℚ}
    (hvalue : database.balanceOf accountId = some value) :
    accountId ∈ database.balances.keys := by
  by_contra hmem
  rw [balanceOf_eq_none_iff.mpr hmem] at hvalue
  cases hvalue

theorem find?_balances_of_mem (haccount : accountId ∈ database.balances.keys) :
    ∃ balance, database.balances.find? accountId = some balance :=
  Option.ne_none_iff_exists'.mp fun hnone => Table.find?_eq_none_iff.mp hnone haccount

theorem post_of_find? {balance : Balance}
    (hbalance : database.balances.find? accountId = some balance) :
    database.post accountId change actionType now =
      { database with
        balances := database.balances.set { balance with value := balance.value + change }
        balanceHistories := database.balanceHistories ++
          [BalanceHistory.ofAction accountId balance.value change actionType now] } := by
  simp only [Database.post, hbalance]

@[simp]
theorem post_ownedInstruments :
    (database.post accountId change actionType now).ownedInstruments =
      database.ownedInstruments := by
  rw [Database.post]
  split <;> rfl

@[simp]
theorem post_trades :
    (database.post accountId change actionType now).trades = database.trades := by
  rw [Database.post]
  split <;> rfl

@[simp]
theorem post_instruments :
    (database.post accountId change actionType now).instruments =
      database.instruments := by
  rw [Database.post]
  split <;> rfl

@[simp]
theorem post_products :
    (database.post accountId change actionType now).products = database.products := by
  rw [Database.post]
  split <;> rfl

@[simp]
theorem holdingRow_post (a i : ℤ) :
    (database.post accountId change actionType now).holdingRow a i =
      database.holdingRow a i := by
  rw [Database.holdingRow, post_ownedInstruments, Database.holdingRow]

@[simp]
theorem holdingOf_post (a i : ℤ) :
    (database.post accountId change actionType now).holdingOf a i =
      database.holdingOf a i := by
  rw [Database.holdingOf, holdingRow_post, Database.holdingOf]

@[simp]
theorem post_keys :
    (database.post accountId change actionType now).balances.keys =
      database.balances.keys := by
  rw [Database.post]
  split
  · rfl
  · exact Table.keys_set _ _

theorem post_withTrades (trades : Table Trade.id) :
    ({ database with trades := trades } : Database).post accountId change actionType now =
      { database.post accountId change actionType now with trades := trades } := by
  simp only [Database.post]
  split <;> rfl

theorem balanceOf_post (other : ℤ) :
    (database.post accountId change actionType now).balanceOf other =
      (database.balanceOf other).map (· + if other = accountId then change else 0) := by
  rw [Database.post]
  cases hbalance : database.balances.find? accountId with
  | none =>
      by_cases hother : other = accountId
      · simp [Database.balanceOf, hother, hbalance]
      · simp [hother]
  | some balance =>
      have hkey : balance.accountId = accountId := Table.key_of_find? hbalance
      simp only [Database.balanceOf, Table.find?_set, hkey]
      by_cases hother : other = accountId
      · simp [hother, hbalance]
      · simp [hother, Ne.symm hother, Function.comp_def]

/-- What a posting adds to the total of all balances. -/
theorem sumBy_post (haccount : accountId ∈ database.balances.keys) :
    (database.post accountId change actionType now).balances.sumBy Balance.value =
      database.balances.sumBy Balance.value + change := by
  obtain ⟨balance, hbalance⟩ := find?_balances_of_mem haccount
  have hfind : database.balances.find? balance.accountId = some balance := by
    rwa [Table.key_of_find? hbalance]
  have hsum : (database.balances.set { balance with value := balance.value + change }).sumBy
      Balance.value = database.balances.sumBy Balance.value +
        (balance.value + change - balance.value) :=
    Table.sumBy_set hfind
  rw [post_of_find? hbalance, hsum, add_sub_cancel_left]

end Post

/-! ## Holdings -/

section Hold

variable {database : Database} {accountId instrumentId : ℤ} {change : ℚ} {id : ℤ}
variable {now : DateTime}

@[simp]
theorem hold_balances :
    (database.hold accountId instrumentId change id now).balances =
      database.balances := by
  rw [Database.hold]
  split <;> rfl

@[simp]
theorem hold_balanceHistories :
    (database.hold accountId instrumentId change id now).balanceHistories =
      database.balanceHistories := by
  rw [Database.hold]
  split <;> rfl

@[simp]
theorem hold_trades :
    (database.hold accountId instrumentId change id now).trades = database.trades := by
  rw [Database.hold]
  split <;> rfl

@[simp]
theorem hold_instruments :
    (database.hold accountId instrumentId change id now).instruments =
      database.instruments := by
  rw [Database.hold]
  split <;> rfl

@[simp]
theorem hold_products :
    (database.hold accountId instrumentId change id now).products =
      database.products := by
  rw [Database.hold]
  split <;> rfl

theorem hold_withTrades (trades : Table Trade.id) :
    ({ database with trades := trades } : Database).hold accountId instrumentId change id
        now =
      { database.hold accountId instrumentId change id now with trades := trades } := by
  have hrow : ({ database with trades := trades } : Database).holdingRow accountId
      instrumentId = database.holdingRow accountId instrumentId := rfl
  simp only [Database.hold, hrow]
  split <;> rfl

@[simp]
theorem balanceOf_hold (other : ℤ) :
    (database.hold accountId instrumentId change id now).balanceOf other =
      database.balanceOf other := by
  rw [Database.balanceOf, hold_balances, Database.balanceOf]

theorem pair_of_holdingRow {row : OwnedInstrument}
    (hrow : database.holdingRow accountId instrumentId = some row) :
    row.accountId = accountId ∧ row.instrumentId = instrumentId :=
  OwnedInstrument.isFor_iff.mp (List.find?_some hrow)

theorem mem_of_holdingRow {row : OwnedInstrument}
    (hrow : database.holdingRow accountId instrumentId = some row) :
    row ∈ database.ownedInstruments.rows :=
  List.mem_of_find?_eq_some hrow

/-- An update that keeps account and instrument is seen at exactly the row it
replaces. -/
theorem find?_isFor_set {table : Table OwnedInstrument.id} {old row : OwnedInstrument}
    (hold : old ∈ table.rows) (hid : row.id = old.id)
    (haccount : row.accountId = old.accountId)
    (hinstrument : row.instrumentId = old.instrumentId) (a i : ℤ) :
    (table.set row).rows.find? (OwnedInstrument.isFor a i) =
      (table.rows.find? (OwnedInstrument.isFor a i)).map
        fun other => if other.id = row.id then row else other := by
  have hsame : ∀ other ∈ table.rows, other.id = row.id → other = old :=
    fun other hother heq =>
      List.inj_on_of_nodup_map table.keysNodup hother hold (heq.trans hid)
  rw [Table.set, List.find?_map]
  congr 1
  refine List.find?_congr fun other hother => ?_
  by_cases hkey : other.id = row.id
  · rw [Function.comp_apply, if_pos hkey, hsame other hother hkey]
    simp only [OwnedInstrument.isFor, haccount, hinstrument]
  · rw [Function.comp_apply, if_neg hkey]

theorem holdingOf_hold
    (hfresh : database.holdingRow accountId instrumentId = none →
      id ∉ database.ownedInstruments.keys) (a i : ℤ) :
    (database.hold accountId instrumentId change id now).holdingOf a i =
      if a = accountId ∧ i = instrumentId then
        some ((database.holdingOf accountId instrumentId).getD 0 + change)
      else database.holdingOf a i := by
  rw [Database.hold]
  cases hrow : database.holdingRow accountId instrumentId with
  | none =>
      simp only [Database.holdingOf, Database.holdingRow]
      rw [Table.rows_insert (hfresh hrow), List.find?_append]
      by_cases hpair : a = accountId ∧ i = instrumentId
      · obtain ⟨rfl, rfl⟩ := hpair
        rw [Database.holdingRow] at hrow
        simp [hrow, OwnedInstrument.new, OwnedInstrument.isFor]
      · have hne : ¬(accountId = a ∧ instrumentId = i) :=
          fun h => hpair ⟨h.1.symm, h.2.symm⟩
        have hnew : OwnedInstrument.isFor a i
            { OwnedInstrument.new accountId instrumentId change now with id := id } =
              false := decide_eq_false hne
        simp [hpair, hnew]
  | some row =>
      have hmem := mem_of_holdingRow hrow
      obtain ⟨rfl, rfl⟩ := pair_of_holdingRow hrow
      simp only [Database.holdingOf, Database.holdingRow]
      rw [find?_isFor_set hmem (by rfl) (by rfl) (by rfl)]
      by_cases hpair : a = row.accountId ∧ i = row.instrumentId
      · obtain ⟨rfl, rfl⟩ := hpair
        rw [Database.holdingRow] at hrow
        simp [hrow]
      · rw [if_neg hpair]
        cases hother : database.ownedInstruments.rows.find? (OwnedInstrument.isFor a i) with
        | none => rfl
        | some other =>
            have hne : other.id ≠ row.id := fun heq => hpair (by
              rw [← List.inj_on_of_nodup_map database.ownedInstruments.keysNodup
                (List.mem_of_find?_eq_some hother) hmem heq]
              obtain ⟨ha, hi⟩ := OwnedInstrument.isFor_iff.mp (List.find?_some hother)
              exact ⟨ha.symm, hi.symm⟩)
            simp [hne]

end Hold

/-! ## Settlements -/

section Settle

variable {database : Database} {trade : Trade} {settlement : Settlement}

/-- What an executed trade does to the balance of an account, be it the
trader's, the owner's, or both. -/
def Settlement.balanceChange (settlement : Settlement) (trade : Trade) (accountId : ℤ) :
    ℚ :=
  (if accountId = trade.accountId then settlement.income trade - settlement.ppt else 0) +
    if accountId = ownerId then settlement.ppt else 0

@[simp]
theorem charge_trades : (database.charge trade settlement).trades = database.trades := by
  simp [Database.charge]

@[simp]
theorem charge_ownedInstruments :
    (database.charge trade settlement).ownedInstruments = database.ownedInstruments := by
  simp [Database.charge]

@[simp]
theorem charge_instruments :
    (database.charge trade settlement).instruments = database.instruments := by
  simp [Database.charge]

@[simp]
theorem charge_products :
    (database.charge trade settlement).products = database.products := by
  simp [Database.charge]

@[simp]
theorem charge_keys :
    (database.charge trade settlement).balances.keys = database.balances.keys := by
  simp [Database.charge]

@[simp]
theorem holdingRow_charge (a i : ℤ) :
    (database.charge trade settlement).holdingRow a i = database.holdingRow a i := by
  simp [Database.charge]

@[simp]
theorem holdingOf_charge (a i : ℤ) :
    (database.charge trade settlement).holdingOf a i = database.holdingOf a i := by
  simp [Database.charge]

@[simp]
theorem settle_trades : (database.settle trade settlement).trades = database.trades := by
  simp [Database.settle]

@[simp]
theorem settle_instruments :
    (database.settle trade settlement).instruments = database.instruments := by
  simp [Database.settle]

@[simp]
theorem settle_products :
    (database.settle trade settlement).products = database.products := by
  simp [Database.settle]

@[simp]
theorem settle_keys :
    (database.settle trade settlement).balances.keys = database.balances.keys := by
  simp [Database.settle]

/-- Settling leaves the trades alone, so it does not matter which are there. -/
theorem settle_withTrades (trades : Table Trade.id) :
    ({ database with trades := trades } : Database).settle trade settlement =
      { database.settle trade settlement with trades := trades } := by
  simp only [Database.settle, Database.charge, post_withTrades, hold_withTrades]

/-- A quick trade may as well be recorded first. -/
theorem apply_executed :
    Event.apply (.executed trade settlement) database =
      ({ database with trades := database.trades.insert trade } : Database).settle trade
        settlement := by
  simp only [Event.apply, settle_withTrades, settle_trades]

theorem balanceOf_settle (accountId : ℤ) :
    (database.settle trade settlement).balanceOf accountId =
      (database.balanceOf accountId).map
        (· + settlement.balanceChange trade accountId) := by
  simp only [Database.settle, Database.charge, balanceOf_hold, balanceOf_post,
    Option.map_map]
  congr 1
  funext value
  simp only [Function.comp_apply, Settlement.balanceChange]
  split_ifs <;> ring

theorem holdingOf_settle (hsettleable : Settleable database trade settlement) (a i : ℤ) :
    (database.settle trade settlement).holdingOf a i =
      if a = trade.accountId ∧ i = trade.instrumentId then
        some ((database.holdingOf trade.accountId trade.instrumentId).getD 0 +
          quantityChange settlement.direction trade.quantity)
      else database.holdingOf a i := by
  rw [Database.settle, holdingOf_hold (by simpa using hsettleable.fresh)]
  simp

theorem sumBy_settle (hsettleable : Settleable database trade settlement) :
    (database.settle trade settlement).balances.sumBy Balance.value =
      database.balances.sumBy Balance.value + settlement.income trade := by
  rw [Database.settle, hold_balances, Database.charge, sumBy_post, sumBy_post, sumBy_post]
  · ring
  · exact hsettleable.trader
  · simpa using hsettleable.trader
  · simpa using hsettleable.owner

end Settle

/-! ## What an event changes -/

namespace Event

def balanceChange : Event → ℤ → ℚ
  | deposited accountId amount _, other => if other = accountId then amount else 0
  | withdrawn accountId amount _, other => if other = accountId then -amount else 0
  | registered _, _ => 0
  | executed trade settlement, other => settlement.balanceChange trade other
  | filled trade settlement, other => settlement.balanceChange trade other
  | rejected _ _, _ => 0

/-- The new trade an event records. -/
def recorded : Event → Option Trade
  | registered trade | executed trade _ => some trade
  | _ => none

/-- The trade an event executes, as it stands in the table afterwards. -/
def executedTrade : Event → Option Trade
  | executed trade _ => some trade
  | filled trade settlement => some (trade.close settlement.status true)
  | _ => none

end Event

section Apply

variable {database : Database} {event : Event}

theorem balanceOf_apply (accountId : ℤ) :
    (event.apply database).balanceOf accountId =
      (database.balanceOf accountId).map (· + event.balanceChange accountId) := by
  cases event with
  | deposited | withdrawn => exact balanceOf_post accountId
  | executed | filled => exact balanceOf_settle accountId
  | registered | rejected =>
      simp [Event.apply, Event.balanceChange, Database.balanceOf, Function.comp_def]

@[simp]
theorem apply_instruments : (event.apply database).instruments = database.instruments := by
  cases event <;> simp [Event.apply]

@[simp]
theorem apply_products : (event.apply database).products = database.products := by
  cases event <;> simp [Event.apply]

@[simp]
theorem pptOf_apply (instrumentId : ℤ) :
    (event.apply database).pptOf instrumentId = database.pptOf instrumentId := by
  rw [Database.pptOf, apply_instruments, apply_products, Database.pptOf]

@[simp]
theorem apply_keys : (event.apply database).balances.keys = database.balances.keys := by
  cases event <;> simp [Event.apply]

end Apply

/-! ## What a sequence of events changes -/

section After

variable {database : Database} {events : List Event}

theorem filterMap_notified_concat (event : Event) :
    (events ++ [event]).filterMap Event.notified =
      events.filterMap Event.notified ++ event.notified.toList := by
  cases h : event.notified <;> simp [List.filterMap_append, h]

theorem balanceOf_after (accountId : ℤ) :
    (database.after events).balanceOf accountId =
      (database.balanceOf accountId).map
        (· + (events.map fun event => event.balanceChange accountId).sum) := by
  induction events generalizing database with
  | nil => simp
  | cons event events ih =>
      simp only [Database.after] at ih
      rw [Database.after, Replay.run_cons, ih, balanceOf_apply, Option.map_map]
      congr 1
      funext value
      simp [add_assoc]

theorem pptOf_after (instrumentId : ℤ) :
    (database.after events).pptOf instrumentId = database.pptOf instrumentId := by
  induction events generalizing database with
  | nil => rfl
  | cons event events ih => exact ih.trans (pptOf_apply instrumentId)

end After

end EasyTrade.Broker

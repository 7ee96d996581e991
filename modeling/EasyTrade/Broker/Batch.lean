import EasyTrade.Broker.Events

/-!
# Deciding about open trades

One run over the open trades, as the rules of the market see it: what is to be
done with a trade depends on the latest price of its instrument, on the fee,
and on what the accounts have at its turn.  Times and row ids play no part.
-/

namespace EasyTrade.Broker

/-- What the accounts have; `none` when there is no row. -/
@[ext]
structure Books where
  balance : ℤ → Option ℚ
  holding : ℤ → ℤ → Option ℚ

def Database.books (database : Database) : Books where
  balance := database.balanceOf
  holding := database.holdingOf

/-- The dictionaries a run works with. -/
structure Market where
  instruments : ℤ → Option Instrument
  prices : ℤ → Option Price
  products : ℤ → Option Product

inductive Decision
  /-- The price has not been reached. -/
  | wait
  | reject (status : String)
  | fill (direction : ActionType) (ppt : ℚ)
  deriving DecidableEq

namespace Books

/-- A long buy is executed when the account can pay for it; no decision is
reached when the account or the owner has no balance row. -/
def decideBuy (books : Books) (trade : Trade) (price : Price) (product : Product) :
    Option Decision :=
  if trade.entryPrice < price.low then
    some .wait
  else do
    let balance ← books.balance trade.accountId
    if trade.quantity * trade.entryPrice + product.ppt > balance then
      return .reject "Not enough money to buy stocks! Trade failed!"
    else
      let _ ← books.balance ownerId
      return .fill .longBuy product.ppt

/-- A long sell is executed when the account has the instruments. -/
def decideSell (books : Books) (trade : Trade) (instrument : Instrument) (price : Price)
    (product : Product) : Option Decision :=
  if trade.entryPrice > price.high then
    some .wait
  else
    match books.holding trade.accountId instrument.id with
    | none => some (.reject "Not enough stocks to sell! Trade failed!")
    | some quantity =>
      if quantity < trade.quantity then
        some (.reject "Not enough stocks to sell! Trade failed!")
      else do
        let _ ← books.balance trade.accountId
        let _ ← books.balance ownerId
        return .fill .longSell product.ppt

/-- What is to be done with an open trade; `none` when the run breaks off. -/
def decide (books : Books) (market : Market) (trade : Trade) : Option Decision := do
  let instrument ← market.instruments trade.instrumentId
  let price ← market.prices instrument.id
  let product ← market.products instrument.productId
  if equalsIgnoreCase trade.direction ActionType.longBuy.name then
    books.decideBuy trade price product
  else if equalsIgnoreCase trade.direction ActionType.longSell.name then
    books.decideSell trade instrument price product
  else
    return .reject "This is not a long running transcation! Trade failed!"

def post (books : Books) (accountId : ℤ) (change : ℚ) : Books :=
  { books with
    balance := fun other =>
      (books.balance other).map (· + if other = accountId then change else 0) }

def hold (books : Books) (accountId instrumentId : ℤ) (change : ℚ) : Books :=
  { books with
    holding := fun a i =>
      if a = accountId ∧ i = instrumentId then
        some ((books.holding accountId instrumentId).getD 0 + change)
      else books.holding a i }

/-- The books after a decision has been carried out. -/
def after (books : Books) (trade : Trade) : Decision → Books
  | .wait | .reject _ => books
  | .fill direction ppt =>
      (((books.post trade.accountId (TradeServiceBase.incomeOf direction
        (trade.quantity * trade.entryPrice))).post trade.accountId (-ppt)).post ownerId
          ppt).hold trade.accountId trade.instrumentId
            (quantityChange direction trade.quantity)

end Books

/-- The decisions of a whole run, in the order of the trades. -/
def batch (market : Market) : Books → List Trade → Option (List (Trade × Decision))
  | _, [] => some []
  | books, trade :: trades => do
      let decision ← books.decide market trade
      let rest ← batch market (books.after trade decision) trades
      return (trade, decision) :: rest

/-- The decision that an event carries out. -/
def Event.resolution : Event → Option (Trade × Decision)
  | filled trade settlement => some (trade, .fill settlement.direction settlement.ppt)
  | rejected trade status => some (trade, .reject status)
  | _ => none

/-- Events that only close trades that were open. -/
def Closing (events : List Event) : Prop :=
  ∀ event ∈ events, event.resolution.isSome

theorem Closing.concat {events : List Event} {event : Event} (hclosing : Closing events)
    (hresolution : event.resolution.isSome) : Closing (events ++ [event]) := by
  intro other hother
  rcases List.mem_append.mp hother with hother | hother
  · exact hclosing other hother
  · rwa [List.mem_singleton.mp hother]

/-- The decisions that close a trade. -/
def closings (decisions : List (Trade × Decision)) : List (Trade × Decision) :=
  decisions.filter fun entry => entry.2 ≠ .wait

/-- The dictionaries of a run. -/
def Database.market (database : Database) (environment : Environment) : Market where
  instruments := database.instruments.find?
  prices := fun id => (pricesOfResponse environment.latestPrices).find?
    fun price => price.instrumentId = id
  products := database.products.find?

/-- The open trades in the order in which the database returns them. -/
def openTrades (environment : Environment) (database : Database) : List Trade :=
  environment.order (database.trades.rows.filter fun trade => !trade.tradeClosed)

/-- The overdue trades of a time are closed first. -/
def expirations (environment : Environment) (database : Database) (time : DateTime) :
    List Event :=
  (environment.order (database.trades.rows.filter (Trade.overdue time))).map
    fun trade => .rejected trade "Time is up: trade failed"

/-- The events of one run that starts at `clock` and comes to its end: the
expirations at some later time, then the decisions about the trades that are
still open. -/
def Processed (environment : Environment) (database : Database) (clock : DateTime)
    (events : List Event) : Prop :=
  ∃ time decisions closed, clock ≤ time ∧
    events = expirations environment database time ++ closed ∧
    batch (database.market environment) database.books
      (openTrades environment
        (database.after (expirations environment database time))) = some decisions ∧
    closed.map Event.resolution = (closings decisions).map some

/-- A run over the open trades only closes trades. -/
theorem Processed.closing {environment : Environment} {database : Database}
    {clock : DateTime} {events : List Event}
    (hprocessed : Processed environment database clock events) : Closing events := by
  obtain ⟨time, decisions, closed, -, rfl, -, hclosed⟩ := hprocessed
  intro event hevent
  rcases List.mem_append.mp hevent with hexpired | hclosing
  · obtain ⟨trade, -, rfl⟩ := List.mem_map.mp hexpired
    rfl
  · have hmem : event.resolution ∈ closed.map Event.resolution :=
      List.mem_map_of_mem hclosing
    rw [hclosed] at hmem
    obtain ⟨entry, -, hentry⟩ := List.mem_map.mp hmem
    rw [← hentry]
    rfl

/-! ## Decisions and events -/

section Books

variable {database : Database}

theorem books_post (accountId : ℤ) (change : ℚ) (actionType : ActionType)
    (now : DateTime) :
    (database.post accountId change actionType now).books =
      database.books.post accountId change :=
  Books.ext (funext balanceOf_post)
    (funext fun a => funext fun i => holdingOf_post a i)

theorem books_hold {accountId instrumentId : ℤ} {change : ℚ} {id : ℤ} {now : DateTime}
    (hfresh : database.holdingRow accountId instrumentId = none →
      id ∉ database.ownedInstruments.keys) :
    (database.hold accountId instrumentId change id now).books =
      database.books.hold accountId instrumentId change :=
  Books.ext (funext balanceOf_hold)
    (funext fun a => funext fun i => holdingOf_hold hfresh a i)

/-- An event does to the books what the decision it carries out does. -/
theorem books_apply {event : Event} {trade : Trade} {decision : Decision}
    (hresolution : event.resolution = some (trade, decision))
    (hallowed : event.Allowed database) :
    (event.apply database).books = database.books.after trade decision := by
  cases event with
  | filled trade settlement =>
      cases hresolution
      have hfresh : (database.charge trade settlement).holdingRow trade.accountId
          trade.instrumentId = none → settlement.ownedInstrumentId ∉
            (database.charge trade settlement).ownedInstruments.keys := by
        simpa using hallowed.2.2.2.fresh
      calc
        (Event.apply (.filled trade settlement) database).books =
            (database.settle trade settlement).books := rfl
        _ = database.books.after trade (.fill settlement.direction settlement.ppt) := by
          rw [Database.settle, books_hold hfresh, Database.charge, books_post, books_post,
            books_post]
          rfl
  | rejected trade status =>
      cases hresolution
      rfl
  | deposited | withdrawn | registered | executed => cases hresolution

theorem books_expirations {environment : Environment} {time : DateTime} :
    (database.after (expirations environment database time)).books = database.books := by
  rw [expirations]
  generalize environment.order _ = trades
  induction trades generalizing database with
  | nil => rfl
  | cons trade trades ih => exact ih

end Books

/-! ## Trades waiting for their turn -/

/-- Different open trades, as they stand in the table. -/
structure Pending (database : Database) (trades : List Trade) : Prop where
  found : ∀ trade ∈ trades, database.trades.find? trade.id = some trade
  isOpen : ∀ trade ∈ trades, trade.tradeClosed = false
  distinct : (trades.map Trade.id).Nodup

section Pending

variable {environment : Environment} {database : Database} {event : Event}

theorem pending_order {filter : Trade → Bool}
    (hfilter : ∀ trade, filter trade = true → trade.tradeClosed = false) :
    Pending database (environment.order (database.trades.rows.filter filter)) := by
  have hperm := environment.order_perm (database.trades.rows.filter filter)
  refine ⟨fun trade htrade => ?_, fun trade htrade => ?_, ?_⟩
  · exact Table.find?_key (List.mem_filter.mp (hperm.mem_iff.mp htrade)).1
  · exact hfilter trade (List.mem_filter.mp (hperm.mem_iff.mp htrade)).2
  · rw [(hperm.map Trade.id).nodup_iff]
    exact database.trades.keysNodup.sublist (List.filter_sublist.map _)

/-- Closing a trade leaves the rows of the others alone. -/
theorem find?_trades_apply {trade : Trade} {decision : Decision}
    (hresolution : event.resolution = some (trade, decision)) {id : ℤ} (hid : trade.id ≠ id) :
    (event.apply database).trades.find? id = database.trades.find? id := by
  cases event with
  | filled closed settlement =>
      cases hresolution
      simp only [Event.apply, settle_trades]
      exact Table.find?_set_ne hid
  | rejected closed status =>
      cases hresolution
      exact Table.find?_set_ne hid
  | deposited | withdrawn | registered | executed => cases hresolution

theorem Pending.tail {trade : Trade} {trades : List Trade}
    (hpending : Pending database (trade :: trades)) : Pending database trades where
  found other hother := hpending.found other (List.mem_cons_of_mem trade hother)
  isOpen other hother := hpending.isOpen other (List.mem_cons_of_mem trade hother)
  distinct := (List.nodup_cons.mp hpending.distinct).2

theorem Pending.apply {trade : Trade} {trades : List Trade} {decision : Decision}
    (hpending : Pending database (trade :: trades))
    (hresolution : event.resolution = some (trade, decision)) :
    Pending (event.apply database) trades where
  found other hother := by
    have hne : trade.id ≠ other.id := fun heq =>
      (List.nodup_cons.mp hpending.distinct).1 (heq ▸ List.mem_map_of_mem hother)
    rw [find?_trades_apply hresolution hne]
    exact hpending.tail.found other hother
  isOpen := hpending.tail.isOpen
  distinct := hpending.tail.distinct

/-- A query for rows without unsaved changes returns them. -/
theorem filterMap_find?_of_mem {trades : List Trade}
    (hrows : ∀ trade ∈ trades, trade ∈ database.trades.rows) :
    (trades.filterMap fun row => database.trades.find? row.id) = trades := by
  induction trades with
  | nil => rfl
  | cons trade trades ih =>
      have htrade := Table.find?_key (hrows trade List.mem_cons_self)
      rw [List.filterMap_cons, htrade,
        ih fun other hother => hrows other (List.mem_cons_of_mem trade hother)]

end Pending

end EasyTrade.Broker

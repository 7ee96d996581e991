import EasyTrade.Core.Interleaving
import EasyTrade.Broker.Database

/-!
# What a broker request does outside its own memory

The repository methods, the transaction methods of `DbContext`, the calls to
other services and the clock, each with its effect on the shared state and on
the request's context.  Every command may throw instead, leaving everything as
it was; a commit that throws has not committed.
-/

namespace EasyTrade.Broker

open EasyTrade.Program

/-- The arguments of `ScoreTradeAsync` that come from the request. -/
structure FraudQuery where
  accountId : ℤ
  instrumentId : ℤ
  success : Bool
  quantity : ℚ
  price : ℚ
  totalValue : ℚ
  isBuy : Bool

inductive Command
  | getBalanceOfAccount (accountId : ℤ)
  | updateBalance (balance : Balance)
  | addBalanceHistory (balanceHistory : BalanceHistory)
  | getInstrument (instrumentId : ℤ)
  | getAllInstruments
  | getOwnedInstrument (accountId instrumentId : ℤ)
  | getOwnedInstrumentsOfAccount (accountId : ℤ)
  | addOwnedInstrument (ownedInstrument : OwnedInstrument)
  | updateOwnedInstrument (ownedInstrument : OwnedInstrument)
  | getProduct (productId : ℤ)
  | getProducts
  /-- `GetAllTrades().Where(filter)`: the filter runs in the database and may
  use its clock. -/
  | getTradesWhere (filter : DateTime → Trade → Bool)
  | addTrade (trade : Trade)
  | updateTrade (trade : Trade)
  | beginTransaction
  | saveChanges
  | commitTransaction
  | rollbackTransaction
  | getPricesByInstrumentId (id : ℤ) (count : ℕ)
  | getLatestPrices
  | scoreTradeAsync (query : FraudQuery)
  | utcNow
  | onTradeClosed (trade : Trade)

/-- The answer of a command that does not throw. -/
abbrev Command.Answer : Command → Type
  | getBalanceOfAccount _ => Option Balance
  | getInstrument _ => Option Instrument
  | getAllInstruments => List Instrument
  | getOwnedInstrument _ _ => Option OwnedInstrument
  | getOwnedInstrumentsOfAccount _ => List OwnedInstrument
  | getProduct _ => Option Product
  | getProducts => List Product
  | getTradesWhere _ => List Trade
  | getPricesByInstrumentId _ _ => List Price
  | getLatestPrices => List Price
  | scoreTradeAsync _ => ℚ
  | utcNow => DateTime
  | updateBalance _ | addBalanceHistory _ | addOwnedInstrument _
  | updateOwnedInstrument _ | addTrade _ | updateTrade _ | beginTransaction
  | saveChanges | commitTransaction | rollbackTransaction | onTradeClosed _ => Unit

/-- The surroundings of one request: the answers of the pricing service
(`none` for a status other than 200), the order in which the database returns
trades, and the service's configuration. -/
structure Environment where
  fraudDetectionEnabled : Bool
  pricesByInstrumentId : ℤ → ℕ → Option (List Price)
  latestPrices : Option (List Price)
  /-- The answer of the fraud detection service. -/
  fraudScore : FraudQuery → ℚ
  order : List Trade → List Trade
  order_perm : ∀ trades, (order trades).Perm trades

/-- `PriceServiceConnector`: anything but a 200 answer is an empty list. -/
def pricesOfResponse (response : Option (List Price)) : List Price :=
  response.getD []

/-- Time passes between commands. -/
def World.tick (world : World) (time : DateTime) : World :=
  ({ world.1 with clock := time }, world.2)

/-- A command that does its work. -/
def Command.run (environment : Environment) :
    (command : Command) → World → Except BrokerException command.Answer × World
  | getBalanceOfAccount accountId, world =>
      match world.view.balances.find? accountId with
      | none => (.ok none, world)
      | some row =>
          (.ok (some (world.2.balances.resolve row)),
            (world.1, { world.2 with balances := world.2.balances.attach row }))
  | updateBalance balance, world =>
      (.ok (), (world.1,
        { world.2 with balances := world.2.balances.update balance }))
  | addBalanceHistory row, world =>
      (.ok (), (world.1, { world.2 with
        addedBalanceHistories := world.2.addedBalanceHistories ++ [row] }))
  | getInstrument instrumentId, world =>
      (.ok (world.view.instruments.find? instrumentId), world)
  | getAllInstruments, world => (.ok world.view.instruments.rows, world)
  | getOwnedInstrument accountId instrumentId, world =>
      match world.view.holdingRow accountId instrumentId with
      | none => (.ok none, world)
      | some row =>
          (.ok (some (world.2.ownedInstruments.resolve row)),
            (world.1, { world.2 with
              ownedInstruments := world.2.ownedInstruments.attach row }))
  | getOwnedInstrumentsOfAccount accountId, world =>
      let found := world.2.ownedInstruments.attachAll
        (world.view.ownedInstruments.rows.filter (·.accountId = accountId))
      (.ok found.1, (world.1, { world.2 with ownedInstruments := found.2 }))
  | addOwnedInstrument row, world =>
      (.ok (), (world.1, { world.2 with
        addedOwnedInstruments := world.2.addedOwnedInstruments ++ [row] }))
  | updateOwnedInstrument row, world =>
      (.ok (), (world.1, { world.2 with
        ownedInstruments := world.2.ownedInstruments.update row }))
  | getProduct productId, world =>
      (.ok (world.view.products.find? productId), world)
  | getProducts, world => (.ok world.view.products.rows, world)
  | getTradesWhere filter, world =>
      let found := world.2.trades.attachAll
        (environment.order (world.view.trades.rows.filter (filter world.1.clock)))
      (.ok found.1, (world.1, { world.2 with trades := found.2 }))
  | addTrade row, world =>
      (.ok (), (world.1,
        { world.2 with addedTrades := world.2.addedTrades ++ [row] }))
  | updateTrade row, world =>
      (.ok (), (world.1, { world.2 with trades := world.2.trades.update row }))
  | beginTransaction, world =>
      match world.2.transaction with
      | none => (.ok (), (world.1, { world.2 with transaction := some [] }))
      | some _ =>
          (.error (.invalidOperation "The connection is already in a transaction"),
            world)
  | saveChanges, world => (.ok (), world.saveChanges)
  | commitTransaction, world =>
      match world.2.transaction with
      | some sent => (.ok (), world.commit sent)
      | none => (.error (.invalidOperation "There is no transaction"), world)
  | rollbackTransaction, world =>
      match world.2.transaction with
      | some _ => (.ok (), (world.1, { world.2 with transaction := none }))
      | none => (.error (.invalidOperation "There is no transaction"), world)
  | getPricesByInstrumentId id count, world =>
      (.ok (pricesOfResponse (environment.pricesByInstrumentId id count)), world)
  | getLatestPrices, world =>
      (.ok (pricesOfResponse environment.latestPrices), world)
  | scoreTradeAsync query, world => (.ok (environment.fraudScore query), world)
  | utcNow, world => (.ok world.1.clock, world)
  | onTradeClosed trade, world =>
      (.ok (), ({ world.1 with closedTrades := world.1.closedTrades ++ [trade] },
        world.2))

/-- Reading the clock and starting the notification task do not throw. -/
@[simp]
def Command.mayThrow : Command → Bool
  | utcNow | onTradeClosed _ => false
  | _ => true

/-- One command: time has passed since the last one, and the command does its
work or throws. -/
def step (environment : Environment) :
    Semantics BrokerException Command.Answer World :=
  fun command world answer world' =>
    (∃ time, world.1.clock ≤ time ∧
      command.run environment (world.tick time) = (answer, world')) ∨
    (command.mayThrow ∧ ∃ error, answer = .error error ∧ world' = world)

/-- A choice among the outcomes of a command. -/
inductive Move
  | work (time : DateTime)
  | throw (error : BrokerException)

/-- The outcome a choice stands for, if it is possible. -/
def move (environment : Environment) (command : Command) (m : Move)
    (world : World) : Option (Except BrokerException command.Answer × World) :=
  match m with
  | .work time =>
      if world.1.clock ≤ time then some (command.run environment (world.tick time))
      else none
  | .throw error => if command.mayThrow then some (.error error, world) else none

theorem step_of_move {environment : Environment} (command : Command) (m : Move)
    (world : World) (answer : Except BrokerException command.Answer) (world' : World)
    (h : move environment command m world = some (answer, world')) :
    step environment command world answer world' := by
  cases m with
  | work time =>
      simp only [move] at h
      split_ifs at h with htime
      exact Or.inl ⟨time, htime, Option.some.inj h⟩
  | throw error =>
      simp only [move] at h
      split_ifs at h with hthrow
      simp only [Option.some.injEq, Prod.mk.injEq] at h
      exact Or.inr ⟨hthrow, error, h.1.symm, h.2.symm⟩

/-- What a service method does while it handles a request. -/
abbrev Request (α : Type) := Prog BrokerException Command.Answer α

def issue (command : Command) : Request command.Answer := Prog.perform command

end EasyTrade.Broker

import EasyTrade.Core.IdentityMap
import EasyTrade.Broker.Entities

/-!
# The broker's database and its sessions

The tables the broker service reads and writes, the statements a save sends,
and the `DbContext` of one request: its identity maps, the rows waiting to be
inserted, and the statements sent inside the transaction that is open.
-/

namespace EasyTrade.Broker

structure Database where
  balances : Table Balance.accountId
  /-- Balance history in insertion order. -/
  balanceHistories : List BalanceHistory
  /-- No constraint beyond the generated id: the table has no unique key on
  account and instrument. -/
  ownedInstruments : Table OwnedInstrument.id
  trades : Table Trade.id
  instruments : Table Instrument.id
  products : Table Product.id

def OwnedInstrument.isFor (accountId instrumentId : ℤ) (row : OwnedInstrument) : Bool :=
  row.accountId = accountId ∧ row.instrumentId = instrumentId

@[simp]
theorem OwnedInstrument.isFor_iff {accountId instrumentId : ℤ} {row : OwnedInstrument} :
    row.isFor accountId instrumentId = true ↔
      row.accountId = accountId ∧ row.instrumentId = instrumentId :=
  decide_eq_true_iff

def OwnedInstrument.pair (row : OwnedInstrument) : ℤ × ℤ :=
  (row.accountId, row.instrumentId)

/-- The first row of an account and an instrument. -/
def Database.holdingRow (database : Database) (accountId instrumentId : ℤ) :
    Option OwnedInstrument :=
  database.ownedInstruments.rows.find? (OwnedInstrument.isFor accountId instrumentId)

/-- A statement sent by `SaveChanges`. -/
inductive Write
  /-- The new values of an update are absolute.  There is no concurrency token, so
  the row as it was read is known to the context but is not part of the statement. -/
  | updateBalance (original balance : Balance)
  | insertBalanceHistory (row : BalanceHistory)
  | updateOwnedInstrument (original row : OwnedInstrument)
  | insertOwnedInstrument (row : OwnedInstrument)
  | updateTrade (row : Trade)
  | insertTrade (row : Trade)
  deriving DecidableEq, Repr

/-- The holding that a statement writes. -/
def Write.holding : Write → Option OwnedInstrument
  | updateOwnedInstrument _ row | insertOwnedInstrument row => some row
  | _ => none

def Write.apply (database : Database) : Write → Database
  | updateBalance _ balance =>
      { database with balances := database.balances.set balance }
  | insertBalanceHistory row =>
      { database with balanceHistories := database.balanceHistories ++ [row] }
  | updateOwnedInstrument _ row =>
      { database with ownedInstruments := database.ownedInstruments.set row }
  | insertOwnedInstrument row =>
      { database with ownedInstruments := database.ownedInstruments.insert row }
  | updateTrade row => { database with trades := database.trades.set row }
  | insertTrade row => { database with trades := database.trades.insert row }

def Database.applyAll (database : Database) (writes : List Write) : Database :=
  writes.foldl Write.apply database

/-- Committed data with the statements of an open transaction. -/
def Database.within (database : Database) : Option (List Write) → Database
  | some writes => database.applyAll writes
  | none => database

/-- What all requests share. -/
structure Shared where
  database : Database
  /-- Auto-increment counters; they are not part of any transaction. -/
  nextOwnedInstrumentId : ℤ
  nextTradeId : ℤ
  /-- The committed transactions, in order. -/
  binlog : List (List Write)
  clock : DateTime
  /-- The trades the engine service was notified about. -/
  closedTrades : List Trade

/-- The state of one request's `DbContext`. -/
structure DbContext where
  balances : IdentityMap Balance.accountId
  ownedInstruments : IdentityMap OwnedInstrument.id
  trades : IdentityMap Trade.id
  addedBalanceHistories : List BalanceHistory
  addedOwnedInstruments : List OwnedInstrument
  addedTrades : List Trade
  /-- The statements sent in the open transaction, if there is one. -/
  transaction : Option (List Write)

/-- The context of a request that has not done anything yet. -/
def DbContext.fresh : DbContext where
  balances := Table.empty
  ownedInstruments := Table.empty
  trades := Table.empty
  addedBalanceHistories := []
  addedOwnedInstruments := []
  addedTrades := []
  transaction := none

/-- The shared state together with one request's context. -/
abbrev World := Shared × DbContext

/-- What the request's queries see: committed data and the statements of its
own transaction. -/
def World.view (world : World) : Database :=
  world.1.database.within world.2.transaction

def assignOwnedInstrumentIds : ℤ → List OwnedInstrument → List OwnedInstrument :=
  Table.number fun row id => { row with id := id }

def assignTradeIds : ℤ → List Trade → List Trade :=
  Table.number fun row id => { row with id := id }

/-- Generated ids are above the counter and above every id in use. -/
def World.firstOwnedInstrumentId (world : World) : ℤ :=
  max world.1.nextOwnedInstrumentId world.view.ownedInstruments.nextKey

def World.firstTradeId (world : World) : ℤ :=
  max world.1.nextTradeId world.view.trades.nextKey

/-- The statements that are due at the next save. -/
def World.unsaved (world : World) : List Write :=
  world.2.balances.dirty.map (fun entry => .updateBalance entry.original entry.current) ++
    world.2.addedBalanceHistories.map .insertBalanceHistory ++
    world.2.ownedInstruments.dirty.map
      (fun entry => .updateOwnedInstrument entry.original entry.current) ++
    (assignOwnedInstrumentIds world.firstOwnedInstrumentId
      world.2.addedOwnedInstruments).map .insertOwnedInstrument ++
    world.2.trades.dirty.map (fun entry => .updateTrade entry.current) ++
    (assignTradeIds world.firstTradeId world.2.addedTrades).map .insertTrade

/-- `SaveChanges`: the statements go to the open transaction, or are committed
at once when there is none.  Rows just inserted leave the context: a later
query reads them like any other row. -/
def World.saveChanges (world : World) : World :=
  let writes := world.unsaved
  let context : DbContext :=
    { world.2 with
      balances := world.2.balances.accept
      ownedInstruments := world.2.ownedInstruments.accept
      trades := world.2.trades.accept
      addedBalanceHistories := []
      addedOwnedInstruments := []
      addedTrades := [] }
  let shared : Shared :=
    { world.1 with
      nextOwnedInstrumentId := world.firstOwnedInstrumentId +
        world.2.addedOwnedInstruments.length
      nextTradeId := world.firstTradeId + world.2.addedTrades.length }
  match world.2.transaction with
  | some sent => (shared, { context with transaction := some (sent ++ writes) })
  | none =>
      ({ shared with
        database := shared.database.applyAll writes
        binlog := shared.binlog ++ [writes] }, context)

/-- The commit makes all statements of the transaction visible at once. -/
def World.commit (world : World) (sent : List Write) : World :=
  ({ world.1 with
    database := world.1.database.applyAll sent
    binlog := world.1.binlog ++ [sent] }, { world.2 with transaction := none })

end EasyTrade.Broker

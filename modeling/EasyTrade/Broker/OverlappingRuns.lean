import EasyTrade.Broker.Events
import EasyTrade.Broker.LostUpdate

/-!
# Overlapping runs

A run over the open trades reads once which trades are open.  Two runs that read
the same open trade both execute it, and both commit its effects.  As long as
every trade that a commit executes is still open at that moment, each long trade
is executed at most once.
-/

namespace EasyTrade.Broker

open EasyTrade.Program EasyTrade.Interleaving

/-- A long trade that a run has executed, with what it recorded. -/
structure Execution where
  /-- The row as it was closed. -/
  trade : Trade
  direction : ActionType
  ppt : ℚ
  traderValue : ℚ
  ownerValue : ℚ
  tradeDate : DateTime
  feeDate : DateTime
  collectDate : DateTime

namespace Execution

def income (execution : Execution) : ℚ :=
  TradeServiceBase.incomeOf execution.direction
    (execution.trade.quantity * execution.trade.entryPrice)

/-- The three history rows of an execution. -/
def rows (execution : Execution) : List BalanceHistory :=
  [BalanceHistory.ofAction execution.trade.accountId execution.traderValue execution.income
      execution.direction execution.tradeDate,
    BalanceHistory.ofAction execution.trade.accountId
      (execution.traderValue + execution.income) (-execution.ppt) .transactionFee
      execution.feeDate,
    BalanceHistory.ofAction ownerId execution.ownerValue execution.ppt .collectFee
      execution.collectDate]

/-- Whose holding of what an execution changes, and by how much. -/
def holdingChange (execution : Execution) : ℤ × ℤ × ℚ :=
  (execution.trade.accountId, execution.trade.instrumentId,
    quantityChange execution.direction execution.trade.quantity)

/-- A long trade of the given direction, closed and executed. -/
structure Valid (execution : Execution) : Prop where
  long : execution.direction = .longBuy ∨ execution.direction = .longSell
  direction : equalsIgnoreCase execution.trade.direction execution.direction.name = true
  tradeClosed : execution.trade.tradeClosed = true
  transactionHappened : execution.trade.transactionHappened = true

end Execution

/-- Whose holding of what the row is, and how much more it is than before. -/
def OwnedInstrument.changeFrom (row : OwnedInstrument) (quantity : ℚ) : ℤ × ℤ × ℚ :=
  (row.accountId, row.instrumentId, row.quantity - quantity)

namespace Write

def closedTrade : Write → Option Trade
  | updateTrade row => some row
  | _ => none

/-- The trade row that a statement marks as executed. -/
def executedTrade : Write → Option Trade
  | updateTrade row => if row.transactionHappened then some row else none
  | _ => none

/-- How a statement changes a holding, counted from the row as the request has read it. -/
def holdingChange : Write → Option (ℤ × ℤ × ℚ)
  | updateOwnedInstrument original row => some (row.changeFrom original.quantity)
  | insertOwnedInstrument row => some (row.changeFrom 0)
  | _ => none

/-- The trade that is marked as executed is still open. -/
def StillOpen (database : Database) : Write → Prop
  | updateTrade row => row.transactionHappened = true →
      (database.trades.find? row.id).any (fun stored => !stored.tradeClosed) = true
  | _ => True

instance (database : Database) : (write : Write) → Decidable (write.StillOpen database)
  | updateTrade row => inferInstanceAs (Decidable (row.transactionHappened = true →
      (database.trades.find? row.id).any (fun stored => !stored.tradeClosed) = true))
  | updateBalance _ _ | insertBalanceHistory _ | updateOwnedInstrument _ _
  | insertOwnedInstrument _ | insertTrade _ => inferInstanceAs (Decidable True)

end Write

/-- Every trade that the statements execute is still open. -/
def TradesStillOpen (database : Database) (sent : List Write) : Prop :=
  ∀ write ∈ sent, write.StillOpen database

instance (database : Database) (sent : List Write) :
    Decidable (TradesStillOpen database sent) :=
  inferInstanceAs (Decidable (∀ write ∈ sent, write.StillOpen database))

/-- The statements carry out the executions: for each its history rows, the change of its
holding and its closed trade, and balance changes as recorded. -/
structure CarriesOut (sent : List Write) (executions : List Execution) : Prop where
  rows : sent.filterMap Write.historyRow = executions.flatMap Execution.rows
  trades : sent.filterMap Write.executedTrade = executions.map Execution.trade
  holdings : sent.filterMap Write.holdingChange = executions.map Execution.holdingChange
  changes : ∀ accountId, (sent.map (Write.change accountId)).sum =
    valueChanges accountId (sent.filterMap Write.historyRow)
  closed : ∀ row ∈ sent.filterMap Write.closedTrade, row.tradeClosed = true
  valid : ∀ execution ∈ executions, execution.Valid

theorem CarriesOut.nil : CarriesOut [] [] :=
  ⟨rfl, rfl, rfl, fun _ => rfl, fun _ h => absurd h List.not_mem_nil,
    fun _ h => absurd h List.not_mem_nil⟩

theorem CarriesOut.append {first second : List Write} {earlier later : List Execution}
    (hfirst : CarriesOut first earlier) (hsecond : CarriesOut second later) :
    CarriesOut (first ++ second) (earlier ++ later) where
  rows := by rw [List.filterMap_append, hfirst.rows, hsecond.rows, List.flatMap_append]
  trades := by rw [List.filterMap_append, hfirst.trades, hsecond.trades, List.map_append]
  holdings := by
    rw [List.filterMap_append, hfirst.holdings, hsecond.holdings, List.map_append]
  changes accountId := by
    rw [List.map_append, List.sum_append, hfirst.changes, hsecond.changes,
      List.filterMap_append, valueChanges_append]
  closed row hrow := by
    rw [List.filterMap_append, List.mem_append] at hrow
    exact hrow.elim (hfirst.closed row) (hsecond.closed row)
  valid execution hexecution :=
    (List.mem_append.mp hexecution).elim (hfirst.valid execution) (hsecond.valid execution)

/-! ## One commit -/

section Commit

variable {database : Database} {sent : List Write} {write : Write} {id : ℤ}

/-- The trade has a row, and the row is closed. -/
def IsClosed (database : Database) (id : ℤ) : Prop :=
  ∃ row, database.trades.find? id = some row ∧ row.tradeClosed = true

/-- A closed trade stays closed. -/
theorem IsClosed.apply (hclosed : IsClosed database id)
    (hwrite : ∀ row, write.closedTrade = some row → row.tradeClosed = true) :
    IsClosed (write.apply database) id := by
  obtain ⟨stored, hstored, htradeClosed⟩ := hclosed
  cases write with
  | updateTrade row =>
      simp only [IsClosed, Write.apply, Table.find?_set]
      by_cases hid : row.id = id
      · rw [if_pos hid, hstored]
        exact ⟨row, rfl, hwrite row rfl⟩
      · rw [if_neg hid]
        exact ⟨stored, hstored, htradeClosed⟩
  | insertTrade row =>
      refine ⟨stored, ?_, htradeClosed⟩
      by_cases hrow : row.id ∈ database.trades.keys
      · simpa only [Write.apply, Table.insert_of_mem hrow] using hstored
      · have hne : row.id ≠ id := fun heq => hrow (heq ▸ Table.mem_keys_of_find? hstored)
        simpa only [Write.apply, Table.find?_insert hrow, if_neg hne] using hstored
  | _ => exact ⟨stored, hstored, htradeClosed⟩

theorem IsClosed.applyAll (hclosed : IsClosed database id)
    (hsent : ∀ row ∈ sent.filterMap Write.closedTrade, row.tradeClosed = true) :
    IsClosed (database.applyAll sent) id := by
  induction sent generalizing database with
  | nil => exact hclosed
  | cons write sent ih =>
      refine ih (hclosed.apply fun row hrow => ?_) fun row hrow => ?_
      · exact hsent row (List.mem_filterMap.mpr ⟨write, List.mem_cons_self, hrow⟩)
      · obtain ⟨other, hother, heq⟩ := List.mem_filterMap.mp hrow
        exact hsent row (List.mem_filterMap.mpr ⟨other, List.mem_cons_of_mem _ hother, heq⟩)

/-- A trade that has a row is closed by a commit that updates it. -/
theorem isClosed_of_updateTrade {row : Trade} (hrow : Write.updateTrade row ∈ sent)
    (hmem : row.id ∈ database.trades.keys)
    (hsent : ∀ row ∈ sent.filterMap Write.closedTrade, row.tradeClosed = true) :
    IsClosed (database.applyAll sent) row.id := by
  obtain ⟨before, after, rfl⟩ := List.append_of_mem hrow
  have hkept : row.id ∈ (database.applyAll before).trades.keys := by
    have hkeys : ∀ (writes : List Write) (database : Database),
        row.id ∈ database.trades.keys → row.id ∈ (database.applyAll writes).trades.keys := by
      intro writes
      induction writes with
      | nil => exact fun _ h => h
      | cons write writes ih =>
          intro database h
          refine ih _ ?_
          cases write with
          | updateTrade other => simpa only [Write.apply, Table.keys_set] using h
          | insertTrade other => exact Table.mem_keys_insert.mpr (Or.inl h)
          | _ => exact h
    exact hkeys before database hmem
  have hclosedRow : row.tradeClosed = true :=
    hsent row (List.mem_filterMap.mpr ⟨_, hrow, rfl⟩)
  have hafter : ∀ other ∈ after.filterMap Write.closedTrade, other.tradeClosed = true := by
    intro other hother
    obtain ⟨write, hwrite, heq⟩ := List.mem_filterMap.mp hother
    exact hsent other (List.mem_filterMap.mpr
      ⟨write, List.mem_append_right _ (List.mem_cons_of_mem _ hwrite), heq⟩)
  have hupdated : IsClosed ((Write.updateTrade row).apply (database.applyAll before)) row.id :=
    ⟨row, Table.find?_set_self hkept, hclosedRow⟩
  rw [Database.applyAll, List.foldl_append, List.foldl_cons]
  exact hupdated.applyAll hafter

/-- The journal since the start carries out each execution once, and what has been
executed is closed. -/
structure AtMostOnce (start : Shared) (database : Database) (transactions : List (List Write))
    (executions : List Execution) : Prop where
  journal : database = start.database.applyAll transactions.flatten
  carriesOut : CarriesOut transactions.flatten executions
  once : (executions.map fun execution => execution.trade.id).Nodup
  closed : ∀ execution ∈ executions, IsClosed database execution.trade.id

/-- The statements of one run. -/
def RunOnce (sent : List Write) : Prop :=
  ∃ executions, CarriesOut sent executions ∧
    (executions.map fun execution => execution.trade.id).Nodup

theorem CarriesOut.mem_sent {executions : List Execution} {execution : Execution}
    (hcarries : CarriesOut sent executions) (hexecution : execution ∈ executions) :
    Write.updateTrade execution.trade ∈ sent := by
  have hmem : execution.trade ∈ sent.filterMap Write.executedTrade := by
    rw [hcarries.trades]
    exact List.mem_map_of_mem hexecution
  obtain ⟨write, hwrite, htrade⟩ := List.mem_filterMap.mp hmem
  cases write with
  | updateTrade row =>
      simp only [Write.executedTrade] at htrade
      split_ifs at htrade
      rwa [← Option.some.inj htrade]
  | _ => cases htrade

theorem AtMostOnce.commit {start : Shared} {transactions : List (List Write)}
    {executions : List Execution}
    (honce : AtMostOnce start database transactions executions) (hrun : RunOnce sent)
    (hopen : TradesStillOpen database sent) :
    ∃ later, AtMostOnce start (database.applyAll sent) (transactions ++ [sent])
      (executions ++ later) := by
  obtain ⟨later, hcarries, hdistinct⟩ := hrun
  have hstillOpen : ∀ execution ∈ later, ∃ stored,
      database.trades.find? execution.trade.id = some stored ∧ stored.tradeClosed = false := by
    intro execution hexecution
    have hany := hopen _ (hcarries.mem_sent hexecution)
      (hcarries.valid execution hexecution).transactionHappened
    cases hfind : database.trades.find? execution.trade.id with
    | none => rw [hfind] at hany; cases hany
    | some stored =>
        rw [hfind] at hany
        exact ⟨stored, rfl, by simpa using hany⟩
  have hflatten : (transactions ++ [sent]).flatten = transactions.flatten ++ sent := by simp
  refine ⟨later, ?_, ?_, ?_, ?_⟩
  · rw [hflatten, applyAll_append, ← honce.journal]
  · rw [hflatten]
    exact honce.carriesOut.append hcarries
  · rw [List.map_append]
    refine honce.once.append hdistinct fun id hearlier hlater => ?_
    obtain ⟨first, hfirst, rfl⟩ := List.mem_map.mp hearlier
    obtain ⟨second, hsecond, hsame⟩ := List.mem_map.mp hlater
    obtain ⟨closedRow, hclosedRow, hclosed⟩ := honce.closed first hfirst
    obtain ⟨openRow, hopenRow, hopened⟩ := hstillOpen second hsecond
    have hsame : second.trade.id = first.trade.id := hsame
    rw [hsame, hclosedRow] at hopenRow
    rw [← Option.some.inj hopenRow, hclosed] at hopened
    cases hopened
  · intro execution hexecution
    rcases List.mem_append.mp hexecution with hearlier | hlater
    · exact (honce.closed execution hearlier).applyAll hcarries.closed
    · obtain ⟨stored, hstored, -⟩ := hstillOpen execution hlater
      exact isClosed_of_updateTrade (hcarries.mem_sent hlater)
        (Table.mem_keys_of_find? hstored) hcarries.closed

end Commit

/-! ## One run -/

/-- The changes of holdings that the next save is going to write. -/
def holdingChanges (ownedInstruments : IdentityMap OwnedInstrument.id)
    (added : List OwnedInstrument) : List (ℤ × ℤ × ℚ) :=
  ownedInstruments.dirty.map (fun entry => entry.current.changeFrom entry.original.quantity) ++
    added.map fun row => row.changeFrom 0

/-- The objects of a run just after a save. -/
structure Saved (context : DbContext) : Prop where
  balances : Drafted context.balances []
  addedBalanceHistories : context.addedBalanceHistories = []
  ownedInstruments : context.ownedInstruments.dirty = []
  stored : ∀ entry ∈ context.ownedInstruments.rows, entry.original = entry.current
  addedOwnedInstruments : context.addedOwnedInstruments = []
  trades : context.trades.dirty = []

/-- The objects of a run before a save: the executions that are due. -/
structure Due (context : DbContext) (executions : List Execution) : Prop where
  balances : Drafted context.balances context.addedBalanceHistories
  rows : context.addedBalanceHistories = executions.flatMap Execution.rows
  holdings : holdingChanges context.ownedInstruments context.addedOwnedInstruments =
    executions.map Execution.holdingChange
  closed : ∀ row ∈ context.trades.dirty.map Tracked.current, row.tradeClosed = true
  trades : (context.trades.dirty.map Tracked.current).filter Trade.transactionHappened =
    executions.map Execution.trade
  valid : ∀ execution ∈ executions, execution.Valid

section Run

variable {context : DbContext} {executions : List Execution}

theorem saved_fresh : Saved DbContext.fresh :=
  ⟨drafted_fresh, rfl, rfl, fun _ h => absurd h List.not_mem_nil, rfl, rfl⟩

theorem Saved.due (hsaved : Saved context) : Due context [] where
  balances := hsaved.addedBalanceHistories ▸ hsaved.balances
  rows := hsaved.addedBalanceHistories
  holdings := by
    rw [holdingChanges, hsaved.ownedInstruments, hsaved.addedOwnedInstruments]
    rfl
  closed := by rw [hsaved.trades]; exact fun _ h => absurd h List.not_mem_nil
  trades := by rw [hsaved.trades]; rfl
  valid := fun _ h => absurd h List.not_mem_nil

theorem filterMap_executedTrade (rows : List Trade) :
    (rows.map Write.updateTrade).filterMap Write.executedTrade =
      rows.filter Trade.transactionHappened := by
  induction rows with
  | nil => rfl
  | cons row rows ih =>
      cases hrow : row.transactionHappened <;>
        simp [Write.executedTrade, hrow] at ih ⊢ <;> exact ih

/-- A save sends the statements of the executions that are due. -/
theorem Due.carriesOut (hdue : Due context executions) (shared : Shared) :
    CarriesOut (World.unsaved (shared, context)) executions := by
  have hrows : (World.unsaved (shared, context)).filterMap Write.historyRow =
      context.addedBalanceHistories := by
    simp [World.unsaved, List.filterMap_append, List.filterMap_map, Function.comp_def,
      Write.historyRow]
  have hnumbered : ∀ first : ℤ, (assignOwnedInstrumentIds first
      context.addedOwnedInstruments).map (fun row => row.changeFrom 0) =
        context.addedOwnedInstruments.map fun row => row.changeFrom 0 := by
    intro first
    rw [assignOwnedInstrumentIds]
    refine Table.map_number ?_ first _
    exact fun row id => rfl
  have hholdings : (World.unsaved (shared, context)).filterMap Write.holdingChange =
      holdingChanges context.ownedInstruments context.addedOwnedInstruments := by
    rw [holdingChanges, ← hnumbered (World.firstOwnedInstrumentId (shared, context))]
    simp [World.unsaved, List.filterMap_append, List.filterMap_map, Function.comp_def,
      Write.holdingChange, List.filterMap_eq_map']
  have hclosed : (World.unsaved (shared, context)).filterMap Write.closedTrade =
      context.trades.dirty.map Tracked.current := by
    simp [World.unsaved, List.filterMap_append, List.filterMap_map, Function.comp_def,
      Write.closedTrade]
  have htrades : (World.unsaved (shared, context)).filterMap Write.executedTrade =
      (context.trades.dirty.map Tracked.current).filter Trade.transactionHappened := by
    rw [← filterMap_executedTrade]
    simp [World.unsaved, List.filterMap_append, List.filterMap_map, Function.comp_def,
      Write.executedTrade]
  refine ⟨hrows.trans hdue.rows, htrades.trans hdue.trades, hholdings.trans hdue.holdings,
    (hdue.balances.balanced shared).recorded, ?_, hdue.valid⟩
  rw [hclosed]
  exact hdue.closed

theorem Drafted.accept {balances : IdentityMap Balance.accountId} :
    Drafted balances.accept [] := by
  refine ⟨fun entry hentry => ?_, fun entry hentry _ => ?_, fun accountId => ?_⟩
  · obtain ⟨old, -, rfl⟩ := List.mem_map.mp hentry
    rfl
  · obtain ⟨old, -, rfl⟩ := List.mem_map.mp hentry
    rfl
  · simp [Table.sumBy, IdentityMap.accept, Function.comp_def, draft, valueChanges,
      Ledger.rowsOf]

/-- After a save no objects are waiting to be written. -/
theorem saved_saveChanges (shared : Shared) {sent : List Write}
    (hbegun : context.transaction = some sent) :
    Saved (World.saveChanges (shared, context)).2 ∧
      (World.saveChanges (shared, context)).2.transaction =
        some (sent ++ World.unsaved (shared, context)) := by
  simp only [World.saveChanges, hbegun, and_true]
  refine ⟨Drafted.accept, rfl, IdentityMap.dirty_accept, fun entry hentry => ?_, rfl,
    IdentityMap.dirty_accept⟩
  obtain ⟨old, -, rfl⟩ := List.mem_map.mp hentry
  rfl

theorem Saved.readHolding (hsaved : Saved context) (row : OwnedInstrument) :
    Saved (context.readHolding row) where
  __ := hsaved
  ownedInstruments := (IdentityMap.dirty_attach row).trans hsaved.ownedInstruments
  stored entry hentry := by
    rcases IdentityMap.mem_rows_attach hentry with hold | rfl
    · exact hsaved.stored entry hold
    · rfl

/-- A new holding is the only one to be written. -/
theorem Saved.holdingChanges_add (hsaved : Saved context) {accountId instrumentId : ℤ}
    {amount : ℚ} {now : DateTime} :
    holdingChanges context.ownedInstruments (context.addedOwnedInstruments ++
      [OwnedInstrument.new accountId instrumentId amount now]) =
        [(accountId, instrumentId, amount)] := by
  rw [holdingChanges, hsaved.ownedInstruments, hsaved.addedOwnedInstruments]
  simp [OwnedInstrument.changeFrom, OwnedInstrument.new]

/-- A holding that was read and changed is the only one to be written, and it is changed by
the amount. -/
theorem Saved.holdingChanges_update (hsaved : Saved context) {accountId instrumentId : ℤ}
    {row : OwnedInstrument} (hfinds : context.Finds accountId instrumentId row) (amount : ℚ)
    (now : DateTime) :
    holdingChanges ((context.readHolding row).hold (context.ownedInstruments.resolve row) amount
      now).ownedInstruments context.addedOwnedInstruments =
        [(accountId, instrumentId, amount)] := by
  let held := context.ownedInstruments.resolve row
  let changed : OwnedInstrument :=
    { held with quantity := held.quantity + amount, lastModificationDate := now }
  have htracked : ((context.ownedInstruments.attach row).find? row.id).map Tracked.current =
      some held := IdentityMap.find?_attach row
  obtain ⟨entry, hentry, hcurrent⟩ := Option.map_eq_some_iff.mp htracked
  have hkey : held.id = row.id := IdentityMap.key_resolve row
  have hid : changed.id = row.id := hkey
  have hread := hsaved.readHolding row
  have hdirty : ((context.readHolding row).hold held amount now).ownedInstruments.dirty =
      [⟨entry.original, changed, true⟩] :=
    IdentityMap.dirty_update_of_find? hread.ownedInstruments (hid ▸ hentry)
  have horiginal : entry.original = held :=
    (hread.stored entry (Table.mem_of_find? hentry)).trans hcurrent
  obtain ⟨haccount, hinstrument⟩ := OwnedInstrument.isFor_iff.mp hfinds.2
  rw [holdingChanges, hdirty, horiginal, hsaved.addedOwnedInstruments]
  simp only [List.map_cons, List.map_nil, List.append_nil, OwnedInstrument.changeFrom, changed,
    held, add_sub_cancel_left, haccount, hinstrument]

theorem Saved.readBalance (hsaved : Saved context) (row : Balance) :
    Saved { context with balances := context.balances.attach row } :=
  { hsaved with balances := hsaved.balances.attach row }

theorem Saved.readTrades (hsaved : Saved context) (rows : List Trade) :
    Saved { context with trades := (context.trades.attachAll rows).2 } :=
  { hsaved with trades := (IdentityMap.dirty_attachAll rows).trans hsaved.trades }

/-- A trade that is closed without having been executed. -/
theorem Saved.due_reject (hsaved : Saved context) (trade : Trade) (status : String) :
    Due { context with trades := context.trades.update (trade.close status false) } [] := by
  have hdue := hsaved.due
  have hdirty : (context.trades.update (trade.close status false)).dirty.map
      Tracked.current = [trade.close status false] := IdentityMap.dirty_update hsaved.trades
  refine ⟨hdue.balances, hdue.rows, hdue.holdings, fun row hrow => ?_, ?_, hdue.valid⟩
  · rw [hdirty, List.mem_singleton] at hrow
    rw [hrow]
    rfl
  · rw [hdirty]
    rfl

/-- A trade that is charged to its account, with the change of its holding, and closed as
executed. -/
theorem Saved.due_execute (hsaved : Saved context) {trade : Trade} {row owner : Balance}
    {ppt income : ℚ} {direction : ActionType} {tradeDate feeDate now : DateTime}
    {ownedInstruments : IdentityMap OwnedInstrument.id} {added : List OwnedInstrument}
    (status : String) (hrow : row.accountId = trade.accountId) (howner : owner.accountId = ownerId)
    (hlong : direction = .longBuy ∨ direction = .longSell)
    (hdirection : equalsIgnoreCase trade.direction direction.name = true)
    (hincome : income =
      TradeServiceBase.incomeOf direction (trade.quantity * trade.entryPrice))
    (hholding : holdingChanges ownedInstruments added =
      [(trade.accountId, trade.instrumentId, quantityChange direction trade.quantity)]) :
    ∃ execution : Execution, execution.trade = trade.close status true ∧
      Due
        { (({ context with balances := context.balances.attach row }).charge
            (context.balances.resolve row) income ppt direction tradeDate feeDate).collect
              owner ppt now with
          ownedInstruments := ownedInstruments
          addedOwnedInstruments := added
          trades := context.trades.update (trade.close status true) } [execution] := by
  let opened : DbContext := { context with balances := context.balances.attach row }
  let balance := context.balances.resolve row
  let charged := opened.charge balance income ppt direction tradeDate feeDate
  have hkey : balance.accountId = row.accountId := IdentityMap.key_resolve row
  have hopened : Drafted opened.balances opened.addedBalanceHistories :=
    hsaved.due.balances.attach row
  have htracked : (opened.balances.find? balance.accountId).map Tracked.current =
      some balance := by
    rw [hkey]
    exact IdentityMap.find?_attach row
  have hdirty : (context.trades.update (trade.close status true)).dirty.map
      Tracked.current = [trade.close status true] := IdentityMap.dirty_update hsaved.trades
  refine ⟨{ trade := trade.close status true
            direction := direction
            ppt := ppt
            traderValue := balance.value
            ownerValue := (charged.balances.resolve owner).value
            tradeDate := tradeDate
            feeDate := feeDate
            collectDate := now }, rfl, ?_⟩
  refine ⟨hopened.settle htracked howner, ?_, hholding, fun other hother => ?_, ?_,
    fun execution hexecution => ?_⟩
  · have haccount : balance.accountId = trade.accountId := hkey.trans hrow
    calc
      (charged.collect owner ppt now).addedBalanceHistories =
          context.addedBalanceHistories ++
            [BalanceHistory.ofAction balance.accountId balance.value income direction tradeDate,
              BalanceHistory.ofAction balance.accountId (balance.value + income) (-ppt)
                .transactionFee feeDate] ++
            [BalanceHistory.ofAction ownerId (charged.balances.resolve owner).value ppt
              .collectFee now] := rfl
      _ = _ := by
        rw [hsaved.addedBalanceHistories, haccount, hincome]
        rfl
  · rw [hdirty, List.mem_singleton] at hother
    rw [hother]
    rfl
  · rw [hdirty]
    rfl
  · rw [List.mem_singleton.mp hexecution]
    exact ⟨hlong, hdirection, rfl, rfl⟩

/-- What the body of the loop leaves due: the trade's execution or nothing. -/
def Decided (before : DbContext) (trade : Trade) (after : DbContext) : Prop :=
  ∃ executions, Due after executions ∧
    (executions.map fun execution => execution.trade.id).Sublist [trade.id] ∧
    after.transaction = before.transaction

theorem Saved.decided_wait (hsaved : Saved context) (trade : Trade) :
    Decided context trade context :=
  ⟨[], hsaved.due, List.nil_sublist _, rfl⟩

theorem closeTrade_respects {promise : List Write → Prop} {trade : Trade} {status : String}
    {happened : Bool} {ok : Unit → DbContext → Prop}
    (hok : ok ()
      { context with trades := context.trades.update (trade.close status happened) }) :
    Respects (answersFor promise) (LongTradeService.closeTrade trade status happened) ok
      context := by
  simp only [LongTradeService.closeTrade, respects_bind, respects_updateTrade,
    respects_onTradeClosed, answersFor, true_and]
  exact hok

theorem Saved.reject_respects (hsaved : Saved context) {before : DbContext} {trade : Trade}
    {status : String} (hsame : context.transaction = before.transaction) :
    Respects (answersFor RunOnce) (LongTradeService.closeTrade trade status false)
      (fun _ => Decided before trade) context :=
  closeTrade_respects ⟨[], hsaved.due_reject trade status, List.nil_sublist _, hsame⟩

theorem processLongBuy_respects (hsaved : Saved context) {trade : Trade}
    {instrument : Instrument} {price : Price} {product : Product}
    (hinstrument : instrument.id = trade.instrumentId)
    (hdirection : equalsIgnoreCase trade.direction ActionType.longBuy.name = true) :
    Respects (answersFor RunOnce)
      (LongTradeService.processLongBuy trade instrument price product)
      (fun _ => Decided context trade) context := by
  rw [LongTradeService.processLongBuy]
  split_ifs
  · exact hsaved.decided_wait trade
  simp only [respects_bind, respects_getBalanceOfAccount, respects_notNull, answersFor,
    true_and, reduceCtorEq, false_implies, implies_true, Option.some.injEq, forall_eq']
  intro row hrow
  split_ifs
  · exact (hsaved.readBalance row).reject_respects rfl
  simp only [respects_bind]
  refine TradeServiceBase.updateBalance_respects answersFor_of_isRoutine
    fun owner tradeDate feeDate now howner => ?_
  -- the last step of both ways to write the holding
  have hclose : ∀ (ownedInstruments : IdentityMap OwnedInstrument.id)
      (added : List OwnedInstrument), holdingChanges ownedInstruments added =
        [(trade.accountId, instrument.id, trade.quantity)] →
      Respects (answersFor RunOnce)
        (LongTradeService.closeTrade trade "Long buy transaction finished!" true)
        (fun _ => Decided context trade)
        { (({ context with balances := context.balances.attach row }).charge
            (context.balances.resolve row) (TradeServiceBase.incomeOf .longBuy
              (trade.quantity * trade.entryPrice)) product.ppt .longBuy tradeDate
                feeDate).collect owner product.ppt now with
          ownedInstruments := ownedInstruments
          addedOwnedInstruments := added } := by
    intro ownedInstruments added hholding
    rw [hinstrument] at hholding
    obtain ⟨execution, htrade, hdue⟩ := hsaved.due_execute "Long buy transaction finished!"
      hrow howner (Or.inl rfl) hdirection rfl hholding
    exact closeTrade_respects ⟨[execution], hdue, by simp [htrade, Trade.close], rfl⟩
  refine TradeServiceBase.updateOwnedInstrumentOf_respects answersFor_of_isRoutine trivial
    (fun _ => hclose _ _ hsaved.holdingChanges_add) fun held hfinds => ?_
  refine TradeServiceBase.updateOwnedInstrument_respects answersFor_of_isRoutine
    (fun _ => DbContext.hasRead_readHolding context held _ _) fun now => ?_
  exact hclose _ _ (hsaved.holdingChanges_update hfinds _ now)

theorem processLongSell_respects (hsaved : Saved context) {trade : Trade}
    {instrument : Instrument} {price : Price} {product : Product}
    (hinstrument : instrument.id = trade.instrumentId)
    (hdirection : equalsIgnoreCase trade.direction ActionType.longSell.name = true) :
    Respects (answersFor RunOnce)
      (LongTradeService.processLongSell trade instrument price product)
      (fun _ => Decided context trade) context := by
  rw [LongTradeService.processLongSell]
  split_ifs
  · exact hsaved.decided_wait trade
  simp only [respects_bind, respects_getOwnedInstrument, answersFor, true_and]
  refine ⟨hsaved.reject_respects rfl, fun held hfinds => ?_⟩
  rw [hinstrument] at hfinds
  split_ifs
  · exact (hsaved.readHolding held).reject_respects rfl
  simp only [respects_bind, respects_getBalanceOfAccount, respects_notNull, answersFor,
    true_and, reduceCtorEq, false_implies, implies_true, Option.some.injEq, forall_eq']
  intro row hrow
  refine TradeServiceBase.updateBalance_respects answersFor_of_isRoutine
    fun owner tradeDate feeDate now howner => ?_
  refine TradeServiceBase.updateOwnedInstrument_respects answersFor_of_isRoutine
    (fun _ => DbContext.hasRead_readHolding context held _ _) fun now => ?_
  obtain ⟨execution, htrade, hdue⟩ := hsaved.due_execute "Long sell transaction finished!"
    hrow howner (Or.inr rfl) hdirection (by rw [mul_comm])
    (hsaved.holdingChanges_update hfinds _ now)
  exact closeTrade_respects ⟨[execution], hdue, by simp [htrade, Trade.close], rfl⟩

/-- One turn of the loop: the trade is executed, or closed without an execution, or
left alone. -/
theorem processByDirection_respects (hsaved : Saved context) {trade : Trade}
    {instrument : Instrument} {price : Price} {product : Product}
    (hinstrument : instrument.id = trade.instrumentId) :
    Respects (answersFor RunOnce)
      (LongTradeService.processByDirection trade instrument price product)
      (fun _ => Decided context trade) context := by
  rw [LongTradeService.processByDirection]
  split_ifs with hbuy hsell
  · exact processLongBuy_respects hsaved hinstrument hbuy
  · exact processLongSell_respects hsaved hinstrument hsell
  · exact hsaved.reject_respects rfl

/-- Between two turns: everything is saved, and the trades to come are not among
those executed so far. -/
def Between (trades : List Trade) (context : DbContext) : Prop :=
  Saved context ∧ ∃ sent executions, context.transaction = some sent ∧
    CarriesOut sent executions ∧
    ((executions.map fun execution => execution.trade.id) ++ trades.map Trade.id).Nodup

theorem processOpenTrade_respects {instruments : ℤ → Option Instrument}
    {prices : ℤ → Option Price} {products : ℤ → Option Product} {trade : Trade}
    {trades : List Trade}
    (hids : ∀ id instrument, instruments id = some instrument → instrument.id = id)
    (hbetween : Between (trade :: trades) context) :
    Respects (answersFor RunOnce)
      (LongTradeService.processOpenTrade instruments prices products trade)
      (fun _ => Between trades) context := by
  obtain ⟨hsaved, sent, earlier, hsent, hcarries, hdistinct⟩ := hbetween
  simp only [LongTradeService.processOpenTrade, respects_bind, respects_index,
    respects_saveChanges]
  intro instrument hinstrument price _ product _
  refine (processByDirection_respects hsaved (hids _ _ hinstrument)).mono
    fun _ decided hdecided => ?_
  obtain ⟨executions, hdue, hexecuted, htransaction⟩ := hdecided
  have hbegun : decided.transaction = some sent := htransaction.trans hsent
  have hahead : ((earlier.map fun execution => execution.trade.id) ++
      (executions.map fun execution => execution.trade.id) ++ trades.map Trade.id).Nodup := by
    refine hdistinct.sublist ?_
    rw [List.append_assoc, List.map_cons, ← List.singleton_append (l := trades.map Trade.id)]
    exact (List.Sublist.refl _).append (hexecuted.append_right _)
  have hnext : ∀ shared, CarriesOut (sent ++ World.unsaved (shared, decided))
      (earlier ++ executions) := fun shared => hcarries.append (hdue.carriesOut shared)
  refine ⟨⟨sent, hbegun, fun shared => ⟨_, hnext shared, ?_⟩⟩, fun shared => ?_⟩
  · rw [List.map_append]
    exact hahead.sublist (List.sublist_append_left _ _)
  · obtain ⟨hsaved', htransaction'⟩ := saved_saveChanges shared hbegun
    exact ⟨hsaved', _, _, htransaction', hnext shared, by rwa [List.map_append]⟩

/-- One more trade is closed for being overdue. -/
theorem Due.close (hdue : Due context []) (trade : Trade) (status : String) :
    Due { context with trades := context.trades.update (trade.close status false) } [] := by
  have hnone : ∀ row ∈ context.trades.dirty.map Tracked.current,
      row.transactionHappened = false := by
    intro row hrow
    have hempty := hdue.trades
    rw [List.map_nil, List.filter_eq_nil_iff] at hempty
    simpa using hempty row hrow
  have hdirty : ∀ row ∈ (context.trades.update (trade.close status false)).dirty.map
      Tracked.current, row.tradeClosed = true ∧ row.transactionHappened = false := by
    intro row hrow
    obtain ⟨entry, hentry, rfl⟩ := List.mem_map.mp hrow
    obtain ⟨hmem, hmodified⟩ := List.mem_filter.mp hentry
    rcases IdentityMap.mem_rows_update hmem with hold | ⟨hcurrent, -⟩
    · have hold : entry.current ∈ context.trades.dirty.map Tracked.current :=
        List.mem_map_of_mem (List.mem_filter.mpr ⟨hold, hmodified⟩)
      exact ⟨hdue.closed _ hold, hnone _ hold⟩
    · rw [hcurrent]
      exact ⟨rfl, rfl⟩
  refine ⟨hdue.balances, hdue.rows, hdue.holdings, fun row hrow => (hdirty row hrow).1, ?_,
    hdue.valid⟩
  rw [List.map_nil, List.filter_eq_nil_iff]
  intro row hrow
  simp [(hdirty row hrow).2]

theorem closeOverdueTrades_respects {ok : Unit → DbContext → Prop} (hsaved : Saved context)
    (hok : ∀ after, Due after [] → after.transaction = context.transaction → ok () after) :
    Respects (answersFor RunOnce) LongTradeService.closeOverdueTrades ok context := by
  simp only [LongTradeService.closeOverdueTrades, respects_bind, respects_getTradesWhere,
    answersFor, true_and]
  intro rows _
  refine respects_forM
    (fun _ after => Due after [] ∧ after.transaction = context.transaction) ?_
    (fun after hafter => hok after hafter.1 hafter.2) _ ⟨(hsaved.readTrades rows).due, rfl⟩
  rintro trade trades after ⟨hdue, hsame⟩
  exact closeTrade_respects ⟨hdue.close trade _, hsame⟩

/-- Whatever a run reads, it sends the statements of each execution once. -/
theorem processLongRunningTransactions_respects :
    Respects (answersFor RunOnce) LongTradeService.processLongRunningTransactions
      (fun _ _ => True) DbContext.fresh := by
  simp only [LongTradeService.processLongRunningTransactions, respects_bind,
    respects_beginTransaction, answersFor, true_and]
  have hfresh : Saved { DbContext.fresh with transaction := some [] } :=
    { saved_fresh with }
  refine closeOverdueTrades_respects hfresh fun expired hexpired hbegun => ?_
  have hbegun : expired.transaction = some [] := hbegun
  have hsend : ∀ shared, CarriesOut ([] ++ World.unsaved (shared, expired)) [] :=
    fun shared => hexpired.carriesOut shared
  simp only [respects_saveChanges]
  refine ⟨⟨[], hbegun, fun shared => ⟨[], hsend shared, List.nodup_nil⟩⟩, fun shared => ?_⟩
  obtain ⟨hsaved, htransaction⟩ := saved_saveChanges shared hbegun
  simp only [respects_getTradesWhere, respects_getAllInstruments, respects_toDictionary,
    respects_getLatestPrices, respects_getProducts, answersFor, true_and]
  intro rows hrows instruments _ prices _ products _
  have hdistinct : (((World.saveChanges (shared, expired)).2.trades.attachAll rows).1.map
      Trade.id).Nodup := by
    rwa [IdentityMap.keys_attachAll]
  have hids : ∀ id instrument, (instruments.find? fun item => Instrument.id item = id) =
      some instrument → instrument.id = id := fun id instrument hfound => by
    simpa using List.find?_some hfound
  refine respects_forM Between
    (fun trade trades context hbetween => processOpenTrade_respects hids hbetween)
    (fun context hbetween => ?_) _
    ⟨hsaved.readTrades rows, _, [], htransaction, hsend shared, hdistinct⟩
  obtain ⟨hdone, sent, executions, hsent, hcarries, honce⟩ := hbetween
  refine respects_saveChangesOrRollback (fun _ => ⟨trivial, trivial⟩)
    ⟨sent, hsent, fun shared => ⟨executions ++ [], ?_, ?_⟩⟩ fun _ => trivial
  · exact hcarries.append (hdone.due.carriesOut shared)
  · rw [List.append_nil]
    exact honce.sublist (List.sublist_append_left _ _)

end Run

/-- At most once.  In every interleaving of runs in which each commit only executes
trades that are still open, the history rows committed since the start are those
of executions of different trades, each of which is closed; and the journal
closes each of them once and changes its holding once, by its quantity, and
changes no balance and no holding besides. -/
theorem executed_at_most_once {ι : Type} [DecidableEq ι] {environment : ι → Environment}
    {shared : Shared} {config : Requests ι}
    (hreaches : InterleavesWhen TradesStillOpen environment
      (Requests.arrive shared fun i =>
        Operation.processLongRunningTransactions.request (environment i)) config) :
    ∃ executions : List Execution,
      (executions.map fun execution => execution.trade.id).Nodup ∧
      (∀ execution ∈ executions, execution.Valid ∧
        IsClosed config.shared.database execution.trade.id) ∧
      config.shared.database.balanceHistories =
        shared.database.balanceHistories ++ executions.flatMap Execution.rows ∧
      ∃ transactions, config.shared.binlog = shared.binlog ++ transactions ∧
        config.shared.database = shared.database.applyAll transactions.flatten ∧
        CarriesOut transactions.flatten executions := by
  have hstart : ∃ transactions, shared.binlog = shared.binlog ++ transactions ∧
      ∃ executions, AtMostOnce shared shared.database transactions executions :=
    ⟨[], (List.append_nil _).symm, [], rfl, CarriesOut.nil, List.nodup_nil,
      fun _ h => absurd h List.not_mem_nil⟩
  have hfinal := invariant_of_promises
    (fun database binlog => ∃ transactions, binlog = shared.binlog ++ transactions ∧
      ∃ executions, AtMostOnce shared database transactions executions)
    ⟨[], CarriesOut.nil, List.nodup_nil⟩ ?_
    (fun _ => processLongRunningTransactions_respects) hstart hreaches
  · obtain ⟨transactions, hbinlog, executions, honce⟩ := hfinal
    refine ⟨executions, honce.once, fun execution hexecution =>
      ⟨honce.carriesOut.valid execution hexecution, honce.closed execution hexecution⟩, ?_,
      transactions, hbinlog, honce.journal, honce.carriesOut⟩
    rw [honce.journal, balanceHistories_applyAll, honce.carriesOut.rows]
  · rintro database binlog sent ⟨transactions, rfl, executions, honce⟩ hrun hopen
    obtain ⟨later, hlater⟩ := honce.commit hrun hopen
    exact ⟨transactions ++ [sent], List.append_assoc _ _ _, executions ++ later, hlater⟩

/-- The open long buy before its time is up. -/
def Sample.early : Shared := { Sample.shared with clock := 10 }

/-- The only open trade is read by two runs before either commits: both execute it,
and both sets of history rows stay. -/
theorem executed_twice :
    ∃ config : Requests Bool,
      Interleaves (fun _ => Sample.environment)
        (Requests.arrive Sample.early fun _ =>
          Operation.processLongRunningTransactions.request Sample.environment) config ∧
      config.shared.database.trades.keys = [1] ∧
      config.shared.database.balanceHistories.map BalanceHistory.entry =
        [(2, -10, "longbuy"), (2, -2, "transactionfee"), (1, 2, "collectfee"),
          (2, -10, "longbuy"), (2, -2, "transactionfee"), (1, 2, "collectfee")] ∧
      config.shared.binlog.map (fun sent => (sent.filterMap Write.executedTrade).map Trade.id) =
        [[1], [1]] := by
  obtain ⟨config, hcheck, hinterleaves⟩ := exists_interleaving
    (fun _ => Sample.environment)
    (Requests.arrive Sample.early fun _ : Bool =>
      Operation.processLongRunningTransactions.request Sample.environment)
    (List.replicate 22 (false, .work 10) ++ List.replicate 25 (true, .work 10) ++
      List.replicate 3 (false, .work 10))
    (fun config => decide (config.shared.database.trades.keys = [1] ∧
      config.shared.database.balanceHistories.map BalanceHistory.entry =
        [(2, -10, "longbuy"), (2, -2, "transactionfee"), (1, 2, "collectfee"),
          (2, -10, "longbuy"), (2, -2, "transactionfee"), (1, 2, "collectfee")] ∧
      config.shared.binlog.map (fun sent =>
        (sent.filterMap Write.executedTrade).map Trade.id) = [[1], [1]]))
    (by decide +kernel)
  exact ⟨config, hinterleaves, of_decide_eq_true hcheck⟩

/-- The second run begins after the first has committed. -/
theorem executed_at_most_once_in_turn :
    ∃ config : Requests Bool, (∀ i, (config.threads i).finished = true) ∧
      ∃ executions : List Execution,
        (executions.map fun execution => execution.trade.id).Nodup ∧
        (∀ execution ∈ executions, execution.Valid ∧
          IsClosed config.shared.database execution.trade.id) ∧
        config.shared.database.balanceHistories =
          Sample.early.database.balanceHistories ++ executions.flatMap Execution.rows ∧
        ∃ transactions, config.shared.binlog = Sample.early.binlog ++ transactions ∧
          config.shared.database = Sample.early.database.applyAll transactions.flatten ∧
          CarriesOut transactions.flatten executions := by
  obtain ⟨config, hcheck, hinterleaves⟩ := exists_interleavingWhen TradesStillOpen
    (fun _ => Sample.environment)
    (Requests.arrive Sample.early fun _ : Bool =>
      Operation.processLongRunningTransactions.request Sample.environment)
    (List.replicate 25 (false, .work 10) ++ List.replicate 9 (true, .work 10))
    (fun config => (config.threads false).finished && (config.threads true).finished)
    (by decide +kernel)
  rw [Bool.and_eq_true] at hcheck
  exact ⟨config, fun i => by cases i; exacts [hcheck.1, hcheck.2],
    executed_at_most_once hinterleaves⟩

end EasyTrade.Broker

import EasyTrade.Broker.Session

/-!
# Sessions simulate requests

The identity maps, the unsaved rows and the statements of an open transaction
together determine a session, and every command keeps it that way.  What is
proved of a program over sessions therefore holds of the request that runs it
against the database with a fresh context.
-/

namespace EasyTrade.Broker

open EasyTrade.Program

/-- What the objects of a request say: the rows its queries see, overwritten by
the objects in memory, with the new objects added. -/
def World.current (world : World) : Database where
  balances := world.2.balances.flush world.view.balances
  balanceHistories := world.view.balanceHistories ++ world.2.addedBalanceHistories
  ownedInstruments :=
    (assignOwnedInstrumentIds world.firstOwnedInstrumentId
      world.2.addedOwnedInstruments).foldl Table.insert
        (world.2.ownedInstruments.flush world.view.ownedInstruments)
  trades :=
    (assignTradeIds world.firstTradeId world.2.addedTrades).foldl Table.insert
      (world.2.trades.flush world.view.trades)
  instruments := world.view.instruments
  products := world.view.products

section Saving

theorem applyAll_append (database : Database) (first second : List Write) :
    database.applyAll (first ++ second) =
      (database.applyAll first).applyAll second :=
  List.foldl_append

theorem applyAll_updateBalances (database : Database)
    (entries : List (Tracked Balance)) :
    database.applyAll
        (entries.map fun entry => .updateBalance entry.original entry.current) =
      { database with
        balances := entries.foldl (fun table entry => table.set entry.current)
          database.balances } := by
  induction entries generalizing database with
  | nil => rfl
  | cons entry entries ih => exact ih _

theorem applyAll_insertBalanceHistories (database : Database)
    (rows : List BalanceHistory) :
    database.applyAll (rows.map .insertBalanceHistory) =
      { database with balanceHistories := database.balanceHistories ++ rows } := by
  induction rows generalizing database with
  | nil => simp [Database.applyAll]
  | cons row rows ih =>
      refine (ih _).trans ?_
      simp [Write.apply]

theorem applyAll_updateOwnedInstruments (database : Database)
    (entries : List (Tracked OwnedInstrument)) :
    database.applyAll
        (entries.map fun entry => .updateOwnedInstrument entry.original entry.current) =
      { database with
        ownedInstruments := entries.foldl
          (fun table entry => table.set entry.current) database.ownedInstruments } := by
  induction entries generalizing database with
  | nil => rfl
  | cons entry entries ih => exact ih _

theorem applyAll_insertOwnedInstruments (database : Database)
    (rows : List OwnedInstrument) :
    database.applyAll (rows.map .insertOwnedInstrument) =
      { database with
        ownedInstruments := rows.foldl Table.insert database.ownedInstruments } := by
  induction rows generalizing database with
  | nil => rfl
  | cons row rows ih => exact ih _

theorem applyAll_updateTrades (database : Database) (entries : List (Tracked Trade)) :
    database.applyAll (entries.map fun entry => .updateTrade entry.current) =
      { database with
        trades := entries.foldl (fun table entry => table.set entry.current)
          database.trades } := by
  induction entries generalizing database with
  | nil => rfl
  | cons entry entries ih => exact ih _

theorem applyAll_insertTrades (database : Database) (rows : List Trade) :
    database.applyAll (rows.map .insertTrade) =
      { database with trades := rows.foldl Table.insert database.trades } := by
  induction rows generalizing database with
  | nil => rfl
  | cons row rows ih => exact ih _

/-- The statements of a save make the rows what the objects say. -/
theorem World.applyAll_unsaved (world : World) :
    world.view.applyAll world.unsaved = world.current := by
  simp only [World.unsaved, applyAll_append, applyAll_updateBalances,
    applyAll_insertBalanceHistories, applyAll_updateOwnedInstruments,
    applyAll_insertOwnedInstruments, applyAll_updateTrades, applyAll_insertTrades]
  rfl

end Saving

/-! ## The relation -/

/-- The session of a request whose context is still in step with the
database. -/
structure Mirrored (world : World) (session : Session) : Prop where
  saved : session.saved = world.view
  current : session.current = world.current
  inTransaction : session.inTransaction = world.2.transaction.isSome
  clock : session.clock ≤ world.1.clock
  balances : world.2.balances.Mirrors world.view.balances
  ownedInstruments : world.2.ownedInstruments.Mirrors world.view.ownedInstruments
  trades : world.2.trades.Mirrors world.view.trades

/-- After a rollback the objects in memory no longer match any rows.  `earlier`
is the number of transactions that were committed before the request came. -/
structure Related (earlier : ℕ) (world : World) (session : Session) : Prop where
  committed : session.committed = world.1.database
  closedTrades : session.closedTrades = world.1.closedTrades
  commits : world.1.binlog.length = earlier + session.commits
  mirrored : session.rolledBack = false → Mirrored world session

section Simulation

variable {environment : Environment} {earlier : ℕ} {world : World} {session : Session}

theorem related_arrive (shared : Shared) :
    Related shared.binlog.length (shared, DbContext.fresh)
      (Session.arrive shared.database shared.clock shared.closedTrades) where
  committed := rfl
  closedTrades := rfl
  commits := rfl
  mirrored _ := {
    saved := rfl
    current := by
      simp [Session.arrive, World.current, World.view, Database.within,
        DbContext.fresh, assignOwnedInstrumentIds, assignTradeIds, Table.number,
        IdentityMap.flush, IdentityMap.dirty, Table.empty]
    inTransaction := rfl
    clock := le_rfl
    balances := IdentityMap.mirrors_empty _
    ownedInstruments := IdentityMap.mirrors_empty _
    trades := IdentityMap.mirrors_empty _ }

theorem Related.tick (hrelated : Related earlier world session) {time : DateTime}
    (htime : world.1.clock ≤ time) : Related earlier (world.tick time) session where
  committed := hrelated.committed
  closedTrades := hrelated.closedTrades
  commits := hrelated.commits
  mirrored hopen :=
    let h := hrelated.mirrored hopen
    { saved := h.saved
      current := h.current
      inTransaction := h.inTransaction
      clock := h.clock.trans htime
      balances := h.balances
      ownedInstruments := h.ownedInstruments
      trades := h.trades }

theorem applyAll_instruments (database : Database) (writes : List Write) :
    (database.applyAll writes).instruments = database.instruments := by
  induction writes generalizing database with
  | nil => rfl
  | cons write writes ih =>
      refine (ih _).trans ?_
      cases write <;> rfl

theorem applyAll_products (database : Database) (writes : List Write) :
    (database.applyAll writes).products = database.products := by
  induction writes generalizing database with
  | nil => rfl
  | cons write writes ih =>
      refine (ih _).trans ?_
      cases write <;> rfl

theorem view_instruments : world.view.instruments = world.1.database.instruments := by
  rw [World.view]
  cases world.2.transaction with
  | none => rfl
  | some writes => exact applyAll_instruments _ writes

theorem view_products : world.view.products = world.1.database.products := by
  rw [World.view]
  cases world.2.transaction with
  | none => rfl
  | some writes => exact applyAll_products _ writes

namespace Mirrored

/-- The request goes on with other objects for the balance rows. -/
theorem withBalances (h : Mirrored world session)
    {entries : IdentityMap Balance.accountId} {balances : Table Balance.accountId}
    (hentries : entries.Mirrors world.view.balances)
    (hflush : entries.flush world.view.balances = balances) :
    Mirrored (world.1, { world.2 with balances := entries })
      { session with current := { session.current with balances := balances } } where
  saved := h.saved
  current := by
    rw [h.current, ← hflush]
    rfl
  inTransaction := h.inTransaction
  clock := h.clock
  balances := hentries
  ownedInstruments := h.ownedInstruments
  trades := h.trades

theorem withOwnedInstruments (h : Mirrored world session)
    {entries : IdentityMap OwnedInstrument.id}
    {ownedInstruments : Table OwnedInstrument.id}
    (hentries : entries.Mirrors world.view.ownedInstruments)
    (hflush : (assignOwnedInstrumentIds world.firstOwnedInstrumentId
      world.2.addedOwnedInstruments).foldl Table.insert
        (entries.flush world.view.ownedInstruments) = ownedInstruments) :
    Mirrored (world.1, { world.2 with ownedInstruments := entries })
      { session with current :=
        { session.current with ownedInstruments := ownedInstruments } } where
  saved := h.saved
  current := by
    rw [h.current, ← hflush]
    rfl
  inTransaction := h.inTransaction
  clock := h.clock
  balances := h.balances
  ownedInstruments := hentries
  trades := h.trades

theorem withTrades (h : Mirrored world session) {entries : IdentityMap Trade.id}
    {trades : Table Trade.id}
    (hentries : entries.Mirrors world.view.trades)
    (hflush : (assignTradeIds world.firstTradeId world.2.addedTrades).foldl
      Table.insert (entries.flush world.view.trades) = trades) :
    Mirrored (world.1, { world.2 with trades := entries })
      { session with current := { session.current with trades := trades } } where
  saved := h.saved
  current := by
    rw [h.current, ← hflush]
    rfl
  inTransaction := h.inTransaction
  clock := h.clock
  balances := h.balances
  ownedInstruments := h.ownedInstruments
  trades := hentries

theorem find?_balances (h : Mirrored world session) (accountId : ℤ) :
    session.current.balances.find? accountId =
      (world.view.balances.find? accountId).map world.2.balances.resolve := by
  rw [h.current]
  cases hrow : world.view.balances.find? accountId with
  | none =>
      rw [Option.map_none, Table.find?_eq_none_iff, World.current,
        IdentityMap.keys_flush, ← Table.find?_eq_none_iff]
      exact hrow
  | some row => exact h.balances.resolve_eq hrow

/-- A row that was read is in the session what its object says. -/
theorem find?_ownedInstruments (h : Mirrored world session) {row : OwnedInstrument}
    (hrow : row ∈ world.view.ownedInstruments.rows) :
    session.current.ownedInstruments.find? row.id =
      (world.2.ownedInstruments.flush world.view.ownedInstruments).find? row.id := by
  rw [h.current]
  refine Table.find?_foldl_insert ?_ _
  rw [IdentityMap.keys_flush]
  exact List.mem_map_of_mem hrow

theorem find?_trades (h : Mirrored world session) {row : Trade}
    (hrow : row ∈ world.view.trades.rows) :
    session.current.trades.find? row.id =
      (world.2.trades.flush world.view.trades).find? row.id := by
  rw [h.current]
  refine Table.find?_foldl_insert ?_ _
  rw [IdentityMap.keys_flush]
  exact List.mem_map_of_mem hrow

end Mirrored

/-! ## Every command -/

/-- What is to be shown of a command that did its work. -/
def Follows (environment : Environment) (earlier : ℕ) (world : World) (session : Session)
    (command : Command) : Prop :=
  ∃ session', Session.effect environment command session
      (command.run environment world).1 session' ∧
    Related earlier (command.run environment world).2 session'

/-- A command that only touches the request's context. -/
theorem follows_of_context (hrelated : Related earlier world session) {command : Command}
    {answer : Except BrokerException command.Answer} {context : DbContext}
    {current : Database}
    (hrun : command.run environment world = (answer, (world.1, context)))
    (heffect : Session.effect environment command session answer
      { session with current := current })
    (hmirrored : Mirrored (world.1, context) { session with current := current }) :
    Follows environment earlier world session command := by
  refine ⟨{ session with current := current }, ?_, ?_⟩ <;> rw [hrun]
  · exact heffect
  · exact ⟨hrelated.committed, hrelated.closedTrades, hrelated.commits, fun _ => hmirrored⟩

variable (hrelated : Related earlier world session) (hopen : session.rolledBack = false)

include hrelated hopen

theorem follows_getBalanceOfAccount (accountId : ℤ) :
    Follows environment earlier world session (.getBalanceOfAccount accountId) := by
  have h := hrelated.mirrored hopen
  have hfind := h.find?_balances accountId
  cases hrow : world.view.balances.find? accountId with
  | none =>
      rw [hrow, Option.map_none] at hfind
      exact follows_of_context hrelated (by simp only [Command.run, hrow])
        ⟨congrArg _ hfind.symm, rfl⟩ h
  | some row =>
      rw [hrow, Option.map_some] at hfind
      have hread : world.view.balances.find? row.accountId = some row := by
        rwa [Table.key_of_find? hrow]
      refine follows_of_context hrelated (by simp only [Command.run, hrow])
        ⟨congrArg _ hfind.symm, rfl⟩ (h.withBalances (h.balances.attach hread) ?_)
      exact (IdentityMap.flush_attach row).trans
        (congrArg Database.balances h.current).symm

theorem follows_updateBalance (balance : Balance)
    (hread : balance.accountId ∈ session.current.balances.keys) :
    Follows environment earlier world session (.updateBalance balance) := by
  have h := hrelated.mirrored hopen
  have hstored : balance.accountId ∈ world.view.balances.keys := by
    rwa [h.current, World.current, IdentityMap.keys_flush] at hread
  refine follows_of_context hrelated rfl ⟨rfl, rfl⟩
    (h.withBalances (h.balances.update hstored) ?_)
  rw [h.balances.flush_update hstored, h.current]
  rfl

theorem follows_addBalanceHistory (row : BalanceHistory) :
    Follows environment earlier world session (.addBalanceHistory row) := by
  have h := hrelated.mirrored hopen
  refine follows_of_context hrelated rfl ⟨rfl, rfl⟩
    { saved := h.saved
      current := ?_
      inTransaction := h.inTransaction
      clock := h.clock
      balances := h.balances
      ownedInstruments := h.ownedInstruments
      trades := h.trades }
  rw [h.current]
  simp [World.current, World.view, World.firstOwnedInstrumentId, World.firstTradeId]

theorem follows_getOwnedInstrument (accountId instrumentId : ℤ) :
    Follows environment earlier world session (.getOwnedInstrument accountId instrumentId) := by
  have h := hrelated.mirrored hopen
  cases hrow : world.view.holdingRow accountId instrumentId with
  | none =>
      have hfind : (session.saved.holdingRow accountId instrumentId).bind
          (fun row => session.current.ownedInstruments.find? row.id) = none := by
        rw [h.saved, hrow]
        rfl
      exact follows_of_context hrelated (by simp only [Command.run, hrow])
        ⟨congrArg _ hfind.symm, rfl⟩ h
  | some row =>
      have hmem : row ∈ world.view.ownedInstruments.rows := List.mem_of_find?_eq_some hrow
      have hread := Table.find?_key hmem
      have hfind : (session.saved.holdingRow accountId instrumentId).bind
          (fun row => session.current.ownedInstruments.find? row.id) =
            some (world.2.ownedInstruments.resolve row) := by
        rw [h.saved, hrow]
        exact (h.find?_ownedInstruments hmem).trans
          (h.ownedInstruments.resolve_eq hread)
      refine follows_of_context hrelated (by simp only [Command.run, hrow])
        ⟨congrArg _ hfind.symm, rfl⟩
        (h.withOwnedInstruments (h.ownedInstruments.attach hread) ?_)
      rw [IdentityMap.flush_attach]
      exact (congrArg Database.ownedInstruments h.current).symm

theorem follows_getOwnedInstrumentsOfAccount (accountId : ℤ) :
    Follows environment earlier world session (.getOwnedInstrumentsOfAccount accountId) := by
  have h := hrelated.mirrored hopen
  obtain ⟨hattached, hflush, hobjects⟩ := h.ownedInstruments.attachAll
    fun row hrow => Table.find?_key (List.mem_filter.mp hrow).1
  refine follows_of_context hrelated rfl ⟨congrArg _ ?_, rfl⟩
    (h.withOwnedInstruments hattached ?_)
  · rw [hobjects, h.saved]
    exact List.filterMap_congr fun row hrow =>
      (h.find?_ownedInstruments (List.mem_filter.mp hrow).1).symm
  · rw [hflush]
    exact (congrArg Database.ownedInstruments h.current).symm

theorem follows_updateOwnedInstrument (row : OwnedInstrument)
    (hread : row.id ∈ session.saved.ownedInstruments.keys) :
    Follows environment earlier world session (.updateOwnedInstrument row) := by
  have h := hrelated.mirrored hopen
  rw [h.saved] at hread
  refine follows_of_context hrelated rfl ⟨rfl, rfl⟩
    (h.withOwnedInstruments (h.ownedInstruments.update hread) ?_)
  rw [h.ownedInstruments.flush_update hread, ← Table.set_foldl_insert, h.current]
  · rfl
  · rwa [IdentityMap.keys_flush]

theorem follows_getTradesWhere (filter : DateTime → Trade → Bool) :
    Follows environment earlier world session (.getTradesWhere filter) := by
  have h := hrelated.mirrored hopen
  have hrows : ∀ row ∈ environment.order
      (world.view.trades.rows.filter (filter world.1.clock)),
      row ∈ world.view.trades.rows := fun row hrow =>
    (List.mem_filter.mp ((environment.order_perm _).mem_iff.mp hrow)).1
  obtain ⟨hattached, hflush, hobjects⟩ := h.trades.attachAll
    fun row hrow => Table.find?_key (hrows row hrow)
  refine ⟨{ session with clock := world.1.clock },
    ⟨world.1.clock, h.clock, ?_, rfl⟩,
    ⟨hrelated.committed, hrelated.closedTrades, hrelated.commits, fun _ => ?_⟩⟩
  · rw [h.saved]
    refine congrArg Except.ok (hobjects.trans ?_)
    exact List.filterMap_congr fun row hrow => (h.find?_trades (hrows row hrow)).symm
  · have htrades : (assignTradeIds world.firstTradeId world.2.addedTrades).foldl
        Table.insert ((world.2.trades.attachAll (environment.order
          (world.view.trades.rows.filter (filter world.1.clock)))).2.flush
            world.view.trades) = session.current.trades := by
      rw [hflush]
      exact (congrArg Database.trades h.current).symm
    exact { h.withTrades hattached htrades with clock := le_rfl }

theorem follows_updateTrade (row : Trade) (hread : row.id ∈ session.saved.trades.keys) :
    Follows environment earlier world session (.updateTrade row) := by
  have h := hrelated.mirrored hopen
  rw [h.saved] at hread
  refine follows_of_context hrelated rfl ⟨rfl, rfl⟩
    (h.withTrades (h.trades.update hread) ?_)
  rw [h.trades.flush_update hread, ← Table.set_foldl_insert, h.current]
  · rfl
  · rwa [IdentityMap.keys_flush]

theorem follows_addOwnedInstrument (row : OwnedInstrument) :
    Follows environment earlier world session (.addOwnedInstrument row) := by
  have h := hrelated.mirrored hopen
  have hfresh : world.firstOwnedInstrumentId + world.2.addedOwnedInstruments.length ∉
      session.current.ownedInstruments.keys := by
    rw [h.current]
    refine Table.next_not_mem_keys (fun _ _ => rfl) fun k hk => ?_
    rw [IdentityMap.keys_flush] at hk
    exact (Table.lt_nextKey hk).trans_le (le_max_right _ _)
  refine ⟨_, ⟨_, hfresh, rfl, rfl⟩, hrelated.committed, hrelated.closedTrades,
    hrelated.commits, fun _ => ?_⟩
  refine { saved := h.saved
           current := ?_
           inTransaction := h.inTransaction
           clock := h.clock
           balances := h.balances
           ownedInstruments := h.ownedInstruments
           trades := h.trades }
  have hcurrent : World.current (Command.run environment (.addOwnedInstrument row) world).2 =
      { world.current with
        ownedInstruments := (assignOwnedInstrumentIds world.firstOwnedInstrumentId
          (world.2.addedOwnedInstruments ++ [row])).foldl Table.insert
            (world.2.ownedInstruments.flush world.view.ownedInstruments) } := rfl
  rw [hcurrent, assignOwnedInstrumentIds, Table.number_concat, List.foldl_append,
    h.current]
  rfl

theorem follows_addTrade (row : Trade) :
    Follows environment earlier world session (.addTrade row) := by
  have h := hrelated.mirrored hopen
  have hfresh : world.firstTradeId + world.2.addedTrades.length ∉
      session.current.trades.keys := by
    rw [h.current]
    refine Table.next_not_mem_keys (fun _ _ => rfl) fun k hk => ?_
    rw [IdentityMap.keys_flush] at hk
    exact (Table.lt_nextKey hk).trans_le (le_max_right _ _)
  refine ⟨_, ⟨_, hfresh, rfl, rfl⟩, hrelated.committed, hrelated.closedTrades,
    hrelated.commits, fun _ => ?_⟩
  refine { saved := h.saved
           current := ?_
           inTransaction := h.inTransaction
           clock := h.clock
           balances := h.balances
           ownedInstruments := h.ownedInstruments
           trades := h.trades }
  have hcurrent : World.current (Command.run environment (.addTrade row) world).2 =
      { world.current with
        trades := (assignTradeIds world.firstTradeId
          (world.2.addedTrades ++ [row])).foldl Table.insert
            (world.2.trades.flush world.view.trades) } := rfl
  rw [hcurrent, assignTradeIds, Table.number_concat, List.foldl_append, h.current]
  rfl

theorem follows_beginTransaction (hguard : session.inTransaction = false) :
    Follows environment earlier world session .beginTransaction := by
  have h := hrelated.mirrored hopen
  have hnone : world.2.transaction = none := by
    rw [h.inTransaction] at hguard
    exact Option.not_isSome_iff_eq_none.mp (by simp [hguard])
  have hview : World.view (world.1, { world.2 with transaction := some [] }) =
      world.view := by
    rw [World.view, World.view, hnone]
    rfl
  have hcurrent : World.current (world.1, { world.2 with transaction := some [] }) =
      world.current := by
    simp only [World.current, World.firstOwnedInstrumentId, World.firstTradeId, hview]
  refine ⟨{ session with inTransaction := true }, ?_, ?_⟩ <;>
    simp only [Command.run, hnone]
  · exact ⟨rfl, rfl⟩
  · refine ⟨hrelated.committed, hrelated.closedTrades, hrelated.commits, fun _ => ?_⟩
    exact
      { saved := h.saved.trans hview.symm
        current := h.current.trans hcurrent.symm
        inTransaction := rfl
        clock := h.clock
        balances := hview.symm ▸ h.balances
        ownedInstruments := hview.symm ▸ h.ownedInstruments
        trades := hview.symm ▸ h.trades }

theorem follows_saveChanges (hguard : session.inTransaction = true) :
    Follows environment earlier world session .saveChanges := by
  have h := hrelated.mirrored hopen
  rw [h.inTransaction] at hguard
  obtain ⟨sent, hsent⟩ := Option.isSome_iff_exists.mp hguard
  have hview : world.saveChanges.view = world.current := by
    rw [← World.applyAll_unsaved]
    simp only [World.saveChanges, World.view, hsent, Database.within, applyAll_append]
  have hcurrent : world.saveChanges.current = world.current := by
    rw [World.current, hview]
    simp [World.saveChanges, hsent, IdentityMap.flush, assignOwnedInstrumentIds,
      assignTradeIds, Table.number]
  refine ⟨{ session with saved := session.current }, ⟨rfl, rfl⟩,
    hrelated.committed.trans ?_, hrelated.closedTrades.trans ?_, ?_, fun _ => ?_⟩
  · simp [Command.run, World.saveChanges, hsent]
  · simp [Command.run, World.saveChanges, hsent]
  · simp [Command.run, World.saveChanges, hsent, hrelated.commits]
  refine
    { saved := h.current.trans hview.symm
      current := h.current.trans hcurrent.symm
      inTransaction := ?_
      clock := ?_
      balances := ?_
      ownedInstruments := ?_
      trades := ?_ } <;>
    simp only [Command.run, hview] <;>
    simp only [World.saveChanges, hsent]
  · simp [h.inTransaction, hsent]
  · exact h.clock
  · exact h.balances.accept
  · exact h.ownedInstruments.accept.foldl_insert _
  · exact h.trades.accept.foldl_insert _

theorem follows_commitTransaction (hguard : session.inTransaction = true) :
    Follows environment earlier world session .commitTransaction := by
  have h := hrelated.mirrored hopen
  rw [h.inTransaction] at hguard
  obtain ⟨sent, hsent⟩ := Option.isSome_iff_exists.mp hguard
  have hview : (world.commit sent).view = world.view := by
    simp [World.commit, World.view, hsent, Database.within]
  have hcurrent : (world.commit sent).current = world.current := by
    simp only [World.current, World.firstOwnedInstrumentId, World.firstTradeId, hview]
    rfl
  refine ⟨{ session with
    committed := session.saved
    inTransaction := false
    commits := session.commits + 1 }, ?_, ?_⟩ <;> simp only [Command.run, hsent]
  · exact ⟨rfl, rfl⟩
  · refine ⟨h.saved.trans ?_, hrelated.closedTrades, ?_, fun _ => ?_⟩
    · simp [World.commit, World.view, hsent, Database.within]
    · simp [World.commit, hrelated.commits, add_assoc]
    · exact
        { saved := h.saved.trans hview.symm
          current := h.current.trans hcurrent.symm
          inTransaction := rfl
          clock := h.clock
          balances := hview.symm ▸ h.balances
          ownedInstruments := hview.symm ▸ h.ownedInstruments
          trades := hview.symm ▸ h.trades }

theorem follows_rollbackTransaction (hguard : session.inTransaction = true) :
    Follows environment earlier world session .rollbackTransaction := by
  have h := hrelated.mirrored hopen
  rw [h.inTransaction] at hguard
  obtain ⟨sent, hsent⟩ := Option.isSome_iff_exists.mp hguard
  refine ⟨{ session with inTransaction := false, rolledBack := true }, ?_, ?_⟩ <;>
    simp only [Command.run, hsent]
  · exact ⟨rfl, rfl⟩
  · exact ⟨hrelated.committed, hrelated.closedTrades, hrelated.commits,
      fun hfalse => by cases hfalse⟩

/-- Every command a session accepts, session and request do alike. -/
theorem follows (command : Command) (haccepts : session.accepts command) :
    Follows environment earlier world session command := by
  have h := hrelated.mirrored hopen
  have hinstruments := hrelated.committed ▸ view_instruments
  have hproducts := hrelated.committed ▸ view_products
  cases command with
  | getBalanceOfAccount accountId =>
      exact follows_getBalanceOfAccount hrelated hopen accountId
  | updateBalance balance => exact follows_updateBalance hrelated hopen balance haccepts
  | addBalanceHistory row => exact follows_addBalanceHistory hrelated hopen row
  | getInstrument instrumentId =>
      exact follows_of_context hrelated rfl ⟨by rw [hinstruments], rfl⟩ h
  | getAllInstruments =>
      exact follows_of_context hrelated rfl ⟨by rw [hinstruments], rfl⟩ h
  | getOwnedInstrument accountId instrumentId =>
      exact follows_getOwnedInstrument hrelated hopen accountId instrumentId
  | getOwnedInstrumentsOfAccount accountId =>
      exact follows_getOwnedInstrumentsOfAccount hrelated hopen accountId
  | addOwnedInstrument row => exact follows_addOwnedInstrument hrelated hopen row
  | updateOwnedInstrument row =>
      exact follows_updateOwnedInstrument hrelated hopen row haccepts
  | getProduct productId =>
      exact follows_of_context hrelated rfl ⟨by rw [hproducts], rfl⟩ h
  | getProducts => exact follows_of_context hrelated rfl ⟨by rw [hproducts], rfl⟩ h
  | getTradesWhere filter => exact follows_getTradesWhere hrelated hopen filter
  | addTrade row => exact follows_addTrade hrelated hopen row
  | updateTrade row => exact follows_updateTrade hrelated hopen row haccepts
  | beginTransaction => exact follows_beginTransaction hrelated hopen haccepts
  | saveChanges => exact follows_saveChanges hrelated hopen haccepts
  | commitTransaction => exact follows_commitTransaction hrelated hopen haccepts
  | rollbackTransaction => exact follows_rollbackTransaction hrelated hopen haccepts
  | getPricesByInstrumentId id count => exact follows_of_context hrelated rfl ⟨rfl, rfl⟩ h
  | getLatestPrices => exact follows_of_context hrelated rfl ⟨rfl, rfl⟩ h
  | scoreTradeAsync query => exact follows_of_context hrelated rfl ⟨rfl, rfl⟩ h
  | utcNow =>
      exact ⟨{ session with clock := world.1.clock },
        ⟨world.1.clock, h.clock, rfl, rfl⟩, hrelated.committed,
        hrelated.closedTrades, hrelated.commits, fun _ => { h with clock := le_rfl }⟩
  | onTradeClosed trade =>
      refine ⟨_, ⟨rfl, rfl⟩, hrelated.committed, ?_, hrelated.commits, fun _ => ?_⟩
      · exact congrArg (· ++ [trade]) hrelated.closedTrades
      · exact
          { saved := h.saved
            current := h.current
            inTransaction := h.inTransaction
            clock := h.clock
            balances := h.balances
            ownedInstruments := h.ownedInstruments
            trades := h.trades }

end Simulation

/-- What is ensured of a program over sessions holds of every way a request can
end that runs it alone. -/
theorem Ensures.sound {α : Type} {environment : Environment} {program : Request α}
    {ok : α → Session → Prop} {fails : Database → List Trade → Prop} {shared : Shared}
    (hensures : Ensures environment program ok fails
      (Session.arrive shared.database shared.clock shared.closedTrades))
    {outcome : Except BrokerException α} {final : World}
    (hexec : Exec (step environment) program (shared, DbContext.fresh) outcome final) :
    ∃ session, Related shared.binlog.length final session ∧
      Session.finish ok fails outcome session := by
  refine wp_iff_forall_exec.mp (wp_of_simulation (Related shared.binlog.length) ?_
    (related_arrive shared) hensures)
    outcome final hexec
  rintro command world answer world' session hrelated ⟨hopen, haccepts⟩ hstep
  rcases hstep with ⟨time, htime, hrun⟩ | ⟨hthrow, error, rfl, rfl⟩
  · have hfollows : Follows environment shared.binlog.length (world.tick time) session
        command := follows (hrelated.tick htime) hopen command haccepts
    obtain ⟨session', heffect, hrelated'⟩ := hfollows
    rw [hrun] at heffect hrelated'
    exact ⟨session', Or.inl heffect, hrelated'⟩
  · exact ⟨session, Or.inr ⟨hthrow, error, rfl, rfl⟩, hrelated⟩

end EasyTrade.Broker

import EasyTrade.Broker.RequestParts
import EasyTrade.Broker.OverlappingRuns

/-!
# What stays on record

The history of balances is only ever added to, and a trade is only ever closed: its row
keeps all fields but the three that closing sets, and a row that is closed is not read by
anybody who would write it.  This holds whatever requests there are and however their
commands interleave, also when balances or holdings get lost.
-/

namespace EasyTrade.Broker

open EasyTrade.Program EasyTrade.Interleaving

/-! ## The record -/

/-- A trade as it was opened: everything but what closing it sets. -/
def Trade.opening (trade : Trade) : Trade :=
  { trade with tradeClosed := false, transactionHappened := false, status := "" }

/-- The trade is stored as it was opened. -/
def Registered (database : Database) (trade : Trade) : Prop :=
  ∃ stored ∈ database.trades.rows, stored.opening = trade.opening

/-- What was on record still is: history rows have only been added, and every trade is as it
was, or was open and is now closed. -/
structure RecordKept (before after : Database) : Prop where
  histories : before.balanceHistories <+: after.balanceHistories
  trades : ∀ trade ∈ before.trades.rows, trade ∈ after.trades.rows ∨
    trade.tradeClosed = false ∧ ∃ closed ∈ after.trades.rows,
      closed.opening = trade.opening ∧ closed.tradeClosed = true
  accounts : after.balances.keys = before.balances.keys
  instruments : after.instruments = before.instruments
  products : after.products = before.products

theorem RecordKept.refl (database : Database) : RecordKept database database :=
  ⟨List.prefix_refl _, fun _ => Or.inl, rfl, rfl, rfl⟩

/-- The trade is closed now and was so from the start. -/
def ClosedBefore (start : Database) (id : ℤ) : Prop :=
  ∃ trade ∈ start.trades.rows, trade.id = id ∧ trade.tradeClosed = true

/-- Every trade that the statements update is stored as it was opened, was not closed from the
start, and is closed. -/
def OnlyCloses (start database : Database) (sent : List Write) : Prop :=
  ∀ row, Write.updateTrade row ∈ sent →
    Registered database row ∧ ¬ ClosedBefore start row.id ∧ row.tradeClosed = true

/-! ## One commit -/

section Commit

variable {start database : Database} {sent : List Write} {write : Write} {row trade : Trade}

theorem id_eq_of_opening_eq {first second : Trade} (h : first.opening = second.opening) :
    first.id = second.id := by
  have hid : first.opening.id = second.opening.id := congrArg Trade.id h
  exact hid

/-- A row of the trade table after a statement. -/
theorem mem_trades_apply (write : Write) (htrade : trade ∈ database.trades.rows) :
    trade ∈ (write.apply database).trades.rows ∨
      ∃ row, write = .updateTrade row ∧ row.id = trade.id ∧
        row ∈ (write.apply database).trades.rows := by
  cases write with
  | updateTrade row =>
      by_cases hid : trade.id = row.id
      · refine Or.inr ⟨row, rfl, hid.symm, Table.mem_rows_set.mpr (Or.inr ⟨rfl, ?_⟩)⟩
        rw [← hid]
        exact List.mem_map_of_mem htrade
      · exact Or.inl (Table.mem_rows_set.mpr (Or.inl ⟨htrade, hid⟩))
  | insertTrade row =>
      refine Or.inl ?_
      by_cases hrow : row.id ∈ database.trades.keys
      · rwa [Write.apply, Table.insert_of_mem hrow]
      · rw [Write.apply, Table.rows_insert hrow]
        exact List.mem_append_left _ htrade
  | _ => exact Or.inl htrade

/-- A row that is stored under the id of another one has the same opening. -/
theorem Registered.opening_eq (hregistered : Registered database row)
    (htrade : trade ∈ database.trades.rows) (hid : row.id = trade.id) :
    row.opening = trade.opening := by
  obtain ⟨stored, hstored, hopening⟩ := hregistered
  have hsame : stored = trade := List.inj_on_of_nodup_map database.trades.keysNodup hstored
    htrade ((id_eq_of_opening_eq hopening).trans hid)
  rw [← hopening, hsame]

theorem Registered.apply (hregistered : Registered database trade)
    (hwrite : ∀ row, write = .updateTrade row → Registered database row) :
    Registered (write.apply database) trade := by
  obtain ⟨stored, hstored, hopening⟩ := hregistered
  rcases mem_trades_apply write hstored with hkept | ⟨row, rfl, hid, hrow⟩
  · exact ⟨stored, hkept, hopening⟩
  · exact ⟨row, hrow, ((hwrite row rfl).opening_eq hstored hid).trans hopening⟩

theorem OnlyCloses.tail (hcloses : OnlyCloses start database (write :: sent)) :
    OnlyCloses start (write.apply database) sent := by
  intro row hrow
  obtain ⟨hregistered, hopen, hclosed⟩ := hcloses row (List.mem_cons_of_mem _ hrow)
  exact ⟨hregistered.apply fun other heq => (hcloses other (heq ▸ List.mem_cons_self)).1, hopen,
    hclosed⟩

theorem Registered.applyAll (hregistered : Registered database trade)
    (hcloses : OnlyCloses start database sent) : Registered (database.applyAll sent) trade := by
  induction sent generalizing database with
  | nil => exact hregistered
  | cons write sent ih =>
      exact ih (hregistered.apply fun row heq => (hcloses row (heq ▸ List.mem_cons_self)).1)
        hcloses.tail

/-- One statement keeps the record. -/
theorem RecordKept.apply (hkept : RecordKept start database)
    (hcloses : OnlyCloses start database [write]) : RecordKept start (write.apply database) := by
  refine ⟨hkept.histories.trans ?_, fun trade htrade => ?_, ?_, ?_, ?_⟩
  · cases write <;> first | exact List.prefix_refl _ | exact List.prefix_append _ _
  · rcases hkept.trades trade htrade with hstored | ⟨hopen, closed, hstored, hopening, hclosed⟩
    · rcases mem_trades_apply write hstored with hsame | ⟨row, rfl, hid, hrow⟩
      · exact Or.inl hsame
      · obtain ⟨hregistered, hbefore, hclosed⟩ := hcloses row List.mem_cons_self
        refine Or.inr ⟨?_, row, hrow, hregistered.opening_eq hstored hid, hclosed⟩
        by_contra hwas
        exact hbefore ⟨trade, htrade, hid.symm, by simpa using hwas⟩
    · refine Or.inr ⟨hopen, ?_⟩
      rcases mem_trades_apply write hstored with hsame | ⟨row, rfl, hid, hrow⟩
      · exact ⟨closed, hsame, hopening, hclosed⟩
      · obtain ⟨hregistered, -, hnow⟩ := hcloses row List.mem_cons_self
        exact ⟨row, hrow, (hregistered.opening_eq hstored hid).trans hopening, hnow⟩
  · rw [← hkept.accounts]
    cases write <;> first | exact Table.keys_set _ _ | rfl
  · rw [← hkept.instruments]
    cases write <;> rfl
  · rw [← hkept.products]
    cases write <;> rfl

/-- A commit keeps the record. -/
theorem RecordKept.applyAll (hkept : RecordKept start database)
    (hcloses : OnlyCloses start database sent) :
    RecordKept start (database.applyAll sent) := by
  induction sent generalizing database with
  | nil => exact hkept
  | cons write sent ih =>
      refine ih (hkept.apply fun row hrow => hcloses row ?_) hcloses.tail
      rw [List.mem_singleton.mp hrow]
      exact List.mem_cons_self

/-- A trade that was closed from the start is stored as it was. -/
theorem RecordKept.mem_of_closedBefore (hkept : RecordKept start database)
    (hrow : row ∈ database.trades.rows) (hbefore : ClosedBefore start row.id) :
    row.tradeClosed = true := by
  obtain ⟨trade, htrade, hid, hclosed⟩ := hbefore
  rcases hkept.trades trade htrade with hstored | ⟨hopen, -⟩
  · rw [← List.inj_on_of_nodup_map database.trades.keysNodup hstored hrow hid]
    exact hclosed
  · rw [hclosed] at hopen
    cases hopen

/-- What a request sees inside its transaction: a stored row, or one that it has written. -/
theorem mem_trades_applyAll (htrade : trade ∈ (database.applyAll sent).trades.rows) :
    trade ∈ database.trades.rows ∨ .updateTrade trade ∈ sent ∨ .insertTrade trade ∈ sent := by
  induction sent generalizing database with
  | nil => exact Or.inl htrade
  | cons write sent ih =>
      rcases ih htrade with hstored | hupdated | hinserted
      · cases write with
        | updateTrade row =>
            rcases Table.mem_rows_set.mp hstored with ⟨hold, -⟩ | ⟨rfl, -⟩
            · exact Or.inl hold
            · exact Or.inr (Or.inl List.mem_cons_self)
        | insertTrade row =>
            rcases Table.mem_rows_of_insert hstored with hold | rfl
            · exact Or.inl hold
            · exact Or.inr (Or.inr List.mem_cons_self)
        | _ => exact Or.inl hstored
      · exact Or.inr (Or.inl (List.mem_cons_of_mem _ hupdated))
      · exact Or.inr (Or.inr (List.mem_cons_of_mem _ hinserted))

end Commit

/-! ## What a request knows -/

/-- The objects of a request are stored as they were opened and have not been closed from the
start; those to be saved are closed, and so are the rows that it has sent. -/
structure KnowsTrades (start database : Database) (context : DbContext) : Prop where
  objects : ∀ entry ∈ context.trades.rows, Registered database entry.current ∧
    ¬ ClosedBefore start entry.current.id ∧ (entry.modified = true →
      entry.current.tradeClosed = true)
  sent : ∀ sent, context.transaction = some sent → OnlyCloses start database sent

/-- Only open trades are read, in a transaction without new ones, and only an object that has
been read is written, a trade closed.  Nothing is saved outside a transaction. -/
def recordGuard : Command → DbContext → Prop
  | .getTradesWhere filter, context =>
      (∀ now trade, filter now trade = true → trade.tradeClosed = false) ∧
        ∀ sent, context.transaction = some sent → ∀ row, Write.insertTrade row ∉ sent
  | .updateTrade row, context => row.tradeClosed = true ∧
      ∃ entry ∈ context.trades.rows, entry.current.opening = row.opening
  | .updateOwnedInstrument row, context => context.HasRead row
  | .saveChanges, context => context.transaction ≠ none
  | _, _ => True

section Knowledge

variable {start database : Database} {context : DbContext} {sent : List Write}

theorem knowsTrades_fresh (start database : Database) :
    KnowsTrades start database DbContext.fresh :=
  ⟨fun _ h => absurd h List.not_mem_nil, fun _ h => by cases h⟩

theorem OnlyCloses.nil : OnlyCloses start database [] :=
  fun _ h => absurd h List.not_mem_nil

theorem KnowsTrades.withTransaction (hknows : KnowsTrades start database context)
    {transaction : Option (List Write)} (h : transaction = none ∨ transaction = some []) :
    KnowsTrades start database { context with transaction := transaction } := by
  refine ⟨hknows.objects, fun sent hsent => ?_⟩
  rcases h with rfl | rfl
  · cases hsent
  · cases hsent
    exact OnlyCloses.nil

/-- A save sends the objects that are closed. -/
theorem KnowsTrades.saveChanges (hknows : KnowsTrades start database context) (shared : Shared)
    (hsent : context.transaction = some sent) :
    KnowsTrades start database (World.saveChanges (shared, context)).2 := by
  have hsaved : (World.saveChanges (shared, context)).2.transaction =
      some (sent ++ World.unsaved (shared, context)) := by
    simp only [World.saveChanges, hsent]
  have htrades : (World.saveChanges (shared, context)).2.trades = context.trades.accept := by
    simp only [World.saveChanges, hsent]
  refine ⟨fun entry hentry => ?_, fun sent' hsent' row hrow => ?_⟩
  · rw [htrades] at hentry
    obtain ⟨old, hold, rfl⟩ := List.mem_map.mp hentry
    obtain ⟨hregistered, hbefore, -⟩ := hknows.objects old hold
    exact ⟨hregistered, hbefore, fun hmodified => by cases hmodified⟩
  · rw [hsaved] at hsent'
    cases hsent'
    rcases List.mem_append.mp hrow with hearlier | hnow
    · exact hknows.sent sent hsent row hearlier
    · simp only [World.unsaved, List.mem_append, List.mem_map, reduceCtorEq, and_false,
        exists_false, or_false, false_or, Write.updateTrade.injEq] at hnow
      obtain ⟨entry, hentry, rfl⟩ := hnow
      obtain ⟨hmem, hmodified⟩ := List.mem_filter.mp hentry
      obtain ⟨hregistered, hbefore, hclosed⟩ := hknows.objects entry hmem
      exact ⟨hregistered, hbefore, hclosed hmodified⟩

/-- An open trade that a request reads is stored as it was opened, and was open from the
start. -/
theorem KnowsTrades.read (hkept : RecordKept start database)
    (hknows : KnowsTrades start database context) {transaction : Option (List Write)}
    (htransaction : context.transaction = transaction)
    (hnew : ∀ sent, transaction = some sent → ∀ row, Write.insertTrade row ∉ sent)
    {trade : Trade} (htrade : trade ∈ (database.within transaction).trades.rows)
    (hopen : trade.tradeClosed = false) :
    Registered database trade ∧ ¬ ClosedBefore start trade.id := by
  have hstored : trade ∈ database.trades.rows := by
    cases transaction with
    | none => exact htrade
    | some sent =>
        rcases mem_trades_applyAll htrade with hstored | hupdated | hinserted
        · exact hstored
        · rw [((hknows.sent sent htransaction) trade hupdated).2.2] at hopen
          cases hopen
        · exact absurd hinserted (hnew sent rfl trade)
  refine ⟨⟨trade, hstored, rfl⟩, fun hbefore => ?_⟩
  rw [hkept.mem_of_closedBefore hstored hbefore] at hopen
  cases hopen

/-- A command of the request keeps what the request knows. -/
theorem KnowsTrades.step {environment : Environment} {command : Command} {shared shared' : Shared}
    {context' : DbContext} {answer : Except BrokerException command.Answer}
    (hkept : RecordKept start shared.database)
    (hknows : KnowsTrades start shared.database context) (hguard : recordGuard command context)
    (hstep : Broker.step environment command (shared, context) answer (shared', context')) :
    KnowsTrades start shared.database context' := by
  rcases hstep with ⟨time, -, hrun⟩ | ⟨-, error, -, hsame⟩
  swap
  · cases hsame
    exact hknows
  cases command with
  | getTradesWhere filter =>
      cases hrun
      refine ⟨fun entry hentry => ?_, hknows.sent⟩
      rcases IdentityMap.mem_rows_attachAll hentry with hold | ⟨row, hrow, rfl⟩
      · exact hknows.objects entry hold
      · have hmem := (environment.order_perm _).mem_iff.mp hrow
        obtain ⟨hstored, hfilter⟩ := List.mem_filter.mp hmem
        obtain ⟨hregistered, hbefore⟩ := hknows.read hkept rfl hguard.2 hstored
          (hguard.1 _ _ hfilter)
        exact ⟨hregistered, hbefore, fun hmodified => by cases hmodified⟩
  | updateTrade row =>
      obtain ⟨hclosed, read, hread, hopening⟩ := hguard
      cases hrun
      refine ⟨fun entry hentry => ?_, hknows.sent⟩
      rcases IdentityMap.mem_rows_update hentry with hold | ⟨hcurrent, -⟩
      · exact hknows.objects entry hold
      · obtain ⟨⟨stored, hstored, hsame⟩, hbefore, -⟩ := hknows.objects read hread
        rw [hcurrent]
        refine ⟨⟨stored, hstored, hsame.trans hopening⟩, ?_, fun _ => hclosed⟩
        rwa [← id_eq_of_opening_eq hopening]
  | saveChanges =>
      have hcontext : (World.saveChanges ({ shared with clock := time }, context)).2 =
          context' := congrArg (fun result => result.2.2) hrun
      obtain ⟨sent, hsent⟩ := Option.ne_none_iff_exists'.mp hguard
      rw [← hcontext]
      exact hknows.saveChanges _ hsent
  | beginTransaction =>
      simp only [Command.run] at hrun
      split at hrun <;> cases hrun
      · exact hknows.withTransaction (Or.inr rfl)
      · exact hknows
  | commitTransaction | rollbackTransaction =>
      simp only [Command.run] at hrun
      split at hrun <;> cases hrun
      · exact hknows.withTransaction (Or.inl rfl)
      · exact hknows
  | getBalanceOfAccount accountId =>
      simp only [Command.run] at hrun
      split at hrun <;> cases hrun <;> exact ⟨hknows.objects, hknows.sent⟩
  | getOwnedInstrument accountId instrumentId =>
      simp only [Command.run] at hrun
      split at hrun <;> cases hrun <;> exact ⟨hknows.objects, hknows.sent⟩
  | _ =>
      cases hrun
      exact ⟨hknows.objects, hknows.sent⟩

/-- What a request knows survives the commits of the others. -/
theorem KnowsTrades.applyAll (hknows : KnowsTrades start database context)
    (hcloses : OnlyCloses start database sent) :
    KnowsTrades start (database.applyAll sent) context := by
  refine ⟨fun entry hentry => ?_, fun own hown row hrow => ?_⟩
  · obtain ⟨hregistered, hrest⟩ := hknows.objects entry hentry
    exact ⟨hregistered.applyAll hcloses, hrest⟩
  · obtain ⟨hregistered, hrest⟩ := hknows.sent own hown row hrow
    exact ⟨hregistered.applyAll hcloses, hrest⟩

end Knowledge

/-! ## Quick trades and the registration of long trades -/

/-- Whoever answers for what is sent keeps to the guard of the record with the command. -/
def Command.unguarded (command : Command) : Prop :=
  ∀ promise context, answersFor promise command context → recordGuard command context

theorem issues_unguarded {environment : Environment} {operation : Operation}
    (horder : operation.isOrder = true) :
    (operation.request environment).Issues Command.unguarded := by
  refine (admitsParts_issues (fun _ _ _ _ => trivial) (fun _ _ _ hread => hread)
    (fun command hordinary => ?_) fun _ _ _ _ _ => trivial).request horder
  cases command with
  | getTradesWhere | updateTrade | updateOwnedInstrument => cases hordinary
  | saveChanges =>
      rintro promise context ⟨sent, hsent, -⟩
      exact Option.ne_none_iff_exists'.mpr ⟨sent, hsent⟩
  | _ => exact fun _ _ _ => trivial

section Quick

variable {environment : Environment} {accountId instrumentId : ℤ} {amount : ℚ}

/-- A request that answers for its save and leaves the trades alone keeps to the guard. -/
theorem respects_recordGuard {program : Request Unit} {promise : List Write → Prop}
    (hanswers : Respects (answersFor promise) program (fun _ _ => True) DbContext.fresh)
    (hissues : program.Issues Command.unguarded) :
    Respects recordGuard program (fun _ _ => True) DbContext.fresh := by
  have hkeeps : wp DbContext.step (fun command _ => command.unguarded) program
      (fun _ _ => True) DbContext.fresh := Prog.wp_of_issues hissues fun _ _ => id
  refine wp_mono (fun outcome _ _ => ?_) (wp_conj (fun command context hanswer hunguarded => ?_)
    hanswers hkeeps)
  · cases outcome <;> trivial
  · exact hunguarded promise context hanswer

/-- A long trade is registered by one insertion. -/
theorem createLongTransaction_recordGuard {duration : ℤ} {price : ℚ} {type : ActionType} :
    Respects recordGuard (LongTradeService.createLongTransaction accountId instrumentId amount
      duration price type) (fun _ _ => True) DbContext.fresh := by
  rw [LongTradeService.createLongTransaction, respects_bind, LongTradeService.validateInput]
  split_ifs
  iterate 3 trivial
  simp only [respects_pure, respects_bind, respects_getBalanceOfAccount]
  refine ⟨trivial, trivial, fun row hrow => ?_⟩
  rw [respects_getInstrument]
  refine ⟨trivial, fun instrument => ?_⟩
  cases instrument with
  | none => trivial
  | some instrument =>
  simp only [respects_bind, respects_beginTransaction, LongTradeService.expiry, respects_utcNow]
  refine ⟨trivial, trivial, fun opened => ⟨trivial, fun now => ?_⟩⟩
  cases now.addHours duration with
  | none => trivial
  | some expires =>
  simp only [respects_pure, respects_addTrade]
  exact ⟨trivial, respects_saveChangesOrRollback (fun _ => ⟨trivial, trivial⟩)
    (Option.some_ne_none []) fun _ => trivial⟩

end Quick

/-! ### The run over the open trades -/

/-- The request is inside its transaction, has sent no new trade and has none to insert, and
the given trades are tracked as they were opened. -/
structure Processing (trades : List Trade) (context : DbContext) : Prop where
  sent : ∃ sent, context.transaction = some sent ∧ ∀ row, Write.insertTrade row ∉ sent
  added : context.addedTrades = []
  tracked : ∀ trade ∈ trades, ∃ entry ∈ context.trades.rows,
    entry.current.opening = trade.opening

/-- The commands with which the given trades are closed. -/
def Command.closes (trades : List Trade) : Command → Prop
  | .getTradesWhere filter => ∀ now trade, filter now trade = true → trade.tradeClosed = false
  | .updateTrade row => row.tradeClosed = true ∧ ∃ trade ∈ trades, trade.opening = row.opening
  | .addTrade _ | .beginTransaction | .commitTransaction | .rollbackTransaction => False
  | _ => True

section Processing

variable {trades : List Trade} {context : DbContext}

/-- What is left to see of a run that answers for what it sends. -/
def closingGuard (command : Command) (context : DbContext) : Prop :=
  answersFor RunOnce command context → recordGuard command context

theorem Processing.closingGuard {command : Command} (hprocessing : Processing trades context)
    (hcloses : command.closes trades) : closingGuard command context := by
  intro hanswers
  cases command with
  | updateOwnedInstrument row => exact hanswers
  | getTradesWhere filter =>
      obtain ⟨sent, hsent, hnew⟩ := hprocessing.sent
      refine ⟨hcloses, fun sent' hsent' => ?_⟩
      rw [hsent] at hsent'
      cases hsent'
      exact hnew
  | updateTrade row =>
      obtain ⟨hclosed, trade, htrade, hopening⟩ := hcloses
      obtain ⟨entry, hentry, hread⟩ := hprocessing.tracked trade htrade
      exact ⟨hclosed, entry, hentry, hread.trans hopening⟩
  | saveChanges =>
      obtain ⟨sent, hsent, -⟩ := hprocessing.sent
      exact Option.ne_none_iff_exists'.mpr ⟨sent, hsent⟩
  | _ => trivial

/-- Closing one of the trades does not touch the openings of the others. -/
theorem Processing.updateTrade (hprocessing : Processing trades context) {row : Trade}
    (hrow : ∃ trade ∈ trades, trade.opening = row.opening) :
    Processing trades { context with trades := context.trades.update row } := by
  obtain ⟨closed, hmem, hclosed⟩ := hrow
  obtain ⟨old, hold, hsame⟩ := hprocessing.tracked closed hmem
  have hopening : old.current.opening = row.opening := hsame.trans hclosed
  refine { hprocessing with tracked := fun trade htrade => ?_ }
  obtain ⟨entry, hentry, hread⟩ := hprocessing.tracked trade htrade
  obtain ⟨entry', hentry', hcurrent⟩ := IdentityMap.exists_entry_update row hentry
  refine ⟨entry', hentry', ?_⟩
  rw [hcurrent]
  split_ifs with hid
  · have hentry : old = entry := List.inj_on_of_nodup_map context.trades.keysNodup hold hentry
      ((id_eq_of_opening_eq hopening).trans hid)
    rw [← hopening, hentry, hread]
  · exact hread

theorem Processing.saveChanges (hprocessing : Processing trades context) (shared : Shared) :
    Processing trades (World.saveChanges (shared, context)).2 := by
  obtain ⟨sent, hsent, hnew⟩ := hprocessing.sent
  simp only [World.saveChanges, hsent]
  refine ⟨⟨_, rfl, fun row hrow => ?_⟩, rfl, fun trade htrade => ?_⟩
  · rcases List.mem_append.mp hrow with hearlier | hnow
    · exact hnew row hearlier
    · simp [World.unsaved, hprocessing.added, assignTradeIds, Table.number] at hnow
  · obtain ⟨entry, hentry, hread⟩ := hprocessing.tracked trade htrade
    exact ⟨_, List.mem_map_of_mem hentry, hread⟩

theorem Processing.readTrades (hprocessing : Processing trades context) (rows : List Trade) :
    Processing trades { context with trades := (context.trades.attachAll rows).2 } := by
  refine { hprocessing with tracked := fun trade htrade => ?_ }
  obtain ⟨entry, hentry, hread⟩ := hprocessing.tracked trade htrade
  exact ⟨entry, IdentityMap.mem_rows_of_attachAll hentry, hread⟩

/-- The trades that a query hands out are tracked from then on. -/
theorem Processing.handedOut (hprocessing : Processing trades context) (rows : List Trade) :
    Processing (context.trades.attachAll rows).1
      { context with trades := (context.trades.attachAll rows).2 } := by
  refine { hprocessing with tracked := fun trade htrade => ?_ }
  obtain ⟨entry, hentry, hcurrent⟩ := IdentityMap.exists_entry_of_attachAll htrade
  exact ⟨entry, hentry, congrArg Trade.opening hcurrent⟩

/-- Step lemma: a command that closes trades leaves the request where it is. -/
theorem Processing.step {command : Command} {answer : Except BrokerException command.Answer}
    {context' : DbContext} (hprocessing : Processing trades context)
    (hcloses : command.closes trades)
    (hstep : DbContext.step command context answer context') : Processing trades context' := by
  rcases hstep with ⟨value, -, heffect⟩ | ⟨error, -, rfl⟩
  swap
  · exact hprocessing
  cases command with
  | getTradesWhere filter =>
      obtain ⟨rows, -, -, rfl⟩ := heffect
      exact hprocessing.readTrades rows
  | updateTrade row =>
      cases heffect
      exact hprocessing.updateTrade hcloses.2
  | saveChanges =>
      obtain ⟨shared, rfl⟩ := heffect
      exact hprocessing.saveChanges shared
  | addTrade | beginTransaction | commitTransaction | rollbackTransaction => cases hcloses
  | getBalanceOfAccount | getOwnedInstrument =>
      rcases heffect with ⟨-, rfl⟩ | ⟨_, -, -, rfl⟩
      · exact hprocessing
      · exact ⟨hprocessing.sent, hprocessing.added, hprocessing.tracked⟩
  | getOwnedInstrumentsOfAccount =>
      obtain ⟨_, -, rfl⟩ := heffect
      exact ⟨hprocessing.sent, hprocessing.added, hprocessing.tracked⟩
  | _ =>
      cases heffect
      exact ⟨hprocessing.sent, hprocessing.added, hprocessing.tracked⟩

/-- Run lemma: so does a part of the run that only closes trades, whatever else it keeps to. -/
theorem Processing.keeps {α : Type} {guard : Command → DbContext → Prop} {program : Request α}
    (hprocessing : Processing trades context)
    (hissues : program.Issues (fun command => command.closes trades))
    (hrespects : Respects guard program (fun _ _ => True) context) :
    Respects guard program (fun _ => Processing trades) context := by
  have hkept : wp DbContext.step (fun _ _ => True) program (fun _ => Processing trades) context :=
    Prog.wp_of_issues_invariant hissues (fun _ _ _ _ => trivial)
      (fun command context answer context' hcloses hprocessing hstep =>
        hprocessing.step hcloses hstep) hprocessing
  refine wp_mono (fun outcome final hfinal => ?_) (wp_conj (fun _ _ _ h => h) hkept hrespects)
  cases outcome with
  | ok value => exact hfinal.1
  | error error => trivial

/-- Such a part keeps to the guard. -/
theorem Processing.respects {α : Type} {program : Request α}
    (hprocessing : Processing trades context)
    (hissues : program.Issues (fun command => command.closes trades)) :
    Respects Broker.closingGuard program (fun _ _ => True) context := by
  refine wp_mono (fun outcome _ _ => ?_) (Prog.wp_of_issues_invariant hissues
    (fun command context hcloses hprocessing => hprocessing.closingGuard hcloses)
    (fun command context answer context' hcloses hprocessing hstep =>
      hprocessing.step hcloses hstep) hprocessing)
  cases outcome <;> trivial

theorem closeTrade_closes {trade : Trade} (htrade : trade ∈ trades) :
    (LongTradeService.closeTrade trade "Time is up: trade failed" false).Issues
      fun command => command.closes trades :=
  Prog.issues_bind (Prog.issues_perform ⟨rfl, trade, htrade, rfl⟩) fun _ =>
    Prog.issues_perform trivial

theorem processOpenTrade_closes {trade : Trade} (htrade : trade ∈ trades)
    (instruments : ℤ → Option Instrument) (prices : ℤ → Option Price)
    (products : ℤ → Option Product) :
    (LongTradeService.processOpenTrade instruments prices products trade).Issues
      fun command => command.closes trades := by
  refine issues_processOpenTrade (fun _ => trivial) (fun _ => trivial) (fun command hplain => ?_)
    fun closing _ => ⟨rfl, trade, htrade, rfl⟩
  cases command <;> trivial

/-- The run over the open trades keeps to every guard to which closing an overdue trade and
working on an open one keep. -/
theorem respects_processLongRunningTransactions {guard : Command → DbContext → Prop}
    (hbegin : ∀ context, guard .beginTransaction context)
    (hend : ∀ context, guard .commitTransaction context ∧ guard .rollbackTransaction context)
    (hplain : ∀ trades command context, Processing trades context → command.isPlain = true →
      guard command context)
    (hread : ∀ trades context, Processing trades context → ∀ filter ∈ tradeQueries,
      guard (.getTradesWhere filter) context)
    (hoverdue : ∀ trades context, Processing trades context → ∀ trade ∈ trades,
      Respects guard (LongTradeService.closeTrade trade "Time is up: trade failed" false)
        (fun _ _ => True) context)
    (hprocess : ∀ trades context, Processing trades context → ∀ trade ∈ trades,
      ∀ instruments prices products, Respects guard
        (LongTradeService.processOpenTrade instruments prices products trade)
        (fun _ _ => True) context) :
    Respects guard LongTradeService.processLongRunningTransactions (fun _ _ => True)
      DbContext.fresh := by
  -- a loop over the trades that have been handed out keeps them tracked
  have hloop : ∀ (trades : List Trade) (body : Trade → Request PUnit) (context : DbContext),
      (∀ context, Processing trades context → ∀ trade ∈ trades,
        Respects guard (body trade) (fun _ => Processing trades) context) →
      Processing trades context →
      Respects guard (forM trades body) (fun _ => Processing trades) context := by
    intro trades body context hbody hprocessing
    refine respects_forM (fun rest context => rest ⊆ trades ∧ Processing trades context)
      (fun trade rest context hrest => ?_) (fun context hdone => hdone.2) trades
      ⟨List.Subset.refl _, hprocessing⟩
    exact (hbody context hrest.2 trade (hrest.1 List.mem_cons_self)).mono fun _ _ hkept =>
      ⟨fun _ h => hrest.1 (List.mem_cons_of_mem _ h), hkept⟩
  rw [LongTradeService.processLongRunningTransactions, respects_bind, respects_beginTransaction]
  have hbegun : Processing [] { DbContext.fresh with transaction := some [] } :=
    ⟨⟨[], rfl, fun _ => List.not_mem_nil⟩, rfl, fun _ h => absurd h List.not_mem_nil⟩
  refine ⟨hbegin _, ?_⟩
  rw [respects_bind, LongTradeService.closeOverdueTrades, respects_bind, respects_getTradesWhere]
  refine ⟨hread _ _ hbegun _ List.mem_cons_self, fun rows _ => ?_⟩
  refine (hloop _ _ _ (fun context hprocessing trade htrade => hprocessing.keeps
    (closeTrade_closes htrade) (hoverdue _ context hprocessing trade htrade))
    (hbegun.handedOut rows)).mono fun _ context hclosed => ?_
  rw [respects_bind, respects_saveChanges]
  refine ⟨hplain _ _ _ hclosed rfl, fun shared => ?_⟩
  have hsaved := hclosed.saveChanges shared
  rw [respects_bind, respects_getTradesWhere]
  refine ⟨hread _ _ hsaved _ (List.mem_cons_of_mem _ List.mem_cons_self), fun rows _ => ?_⟩
  have hreading := hsaved.handedOut rows
  simp only [respects_bind, respects_getAllInstruments, respects_getLatestPrices,
    respects_getProducts, respects_toDictionary]
  refine ⟨hplain _ _ _ hreading rfl, fun instruments _ => ⟨hplain _ _ _ hreading rfl,
    fun prices _ => ⟨hplain _ _ _ hreading rfl, fun products _ => ?_⟩⟩⟩
  refine (hloop _ _ _ (fun context hprocessing trade htrade => hprocessing.keeps
    (processOpenTrade_closes htrade _ _ _)
    (hprocess _ context hprocessing trade htrade _ _ _)) hreading).mono
      fun _ context hprocessed => ?_
  exact respects_saveChangesOrRollback hend (hplain _ _ _ hprocessed rfl) fun _ => trivial

theorem processLongRunningTransactions_recordGuard :
    Respects recordGuard LongTradeService.processLongRunningTransactions (fun _ _ => True)
      DbContext.fresh := by
  have hcloses : Respects closingGuard LongTradeService.processLongRunningTransactions
      (fun _ _ => True) DbContext.fresh := by
    refine respects_processLongRunningTransactions (fun _ _ => trivial)
      (fun _ => ⟨fun _ => trivial, fun _ => trivial⟩)
      (fun trades command context hprocessing hplain => ?_)
      (fun trades context hprocessing filter hfilter => ?_)
      (fun trades context hprocessing trade htrade =>
        hprocessing.respects (closeTrade_closes htrade))
      fun trades context hprocessing trade htrade _ _ _ =>
        hprocessing.respects (processOpenTrade_closes htrade _ _ _)
    · refine hprocessing.closingGuard ?_
      cases command <;> trivial
    · refine hprocessing.closingGuard fun now trade htrade => ?_
      rcases List.mem_cons.mp hfilter with rfl | hopen
      · rw [Trade.overdue, Bool.and_eq_true, Bool.not_eq_true'] at htrade
        exact htrade.1
      · rw [List.mem_singleton.mp hopen] at htrade
        simpa using htrade
  refine wp_mono (fun outcome _ _ => ?_) (wp_conj
    (fun command context hanswers hclosing => hclosing hanswers)
    processLongRunningTransactions_respects hcloses)
  cases outcome <;> trivial

end Processing

/-! ## All requests -/

theorem Operation.respects_recordGuard (environment : Environment) (operation : Operation) :
    Respects recordGuard (operation.request environment) (fun _ _ => True) DbContext.fresh := by
  cases operation with
  | deposit | withdraw | quickBuy | quickSell =>
      exact Broker.respects_recordGuard (Operation.balanced rfl) (issues_unguarded rfl)
  | longBuy | longSell =>
      simp only [Operation.request, respects_bind, respects_pure]
      exact createLongTransaction_recordGuard
  | processLongRunningTransactions => exact processLongRunningTransactions_recordGuard

/-- Where nothing is asked of the commits, every interleaving will do. -/
theorem interleavesWhen_of_interleaves {ι : Type} [DecidableEq ι] {environment : ι → Environment}
    {start config : Requests ι} (hreaches : Interleaves environment start config) :
    InterleavesWhen (fun _ _ => True) environment start config := by
  refine Relation.ReflTransGen.mono (fun before after hstep => ?_) _ _ hreaches
  obtain ⟨i, hrest, hcommand⟩ := hstep
  exact .run i hrest ⟨fun _ _ _ _ => trivial, hcommand⟩

/-- Whatever requests are at work and in whichever order their commands take effect, nothing
that was on record when they arrived is taken back: history rows are only added, a trade stays
as it is or, if it was open, is closed with all that it was opened with, no account appears or
goes, and instruments and products stay. -/
theorem record_kept {ι : Type} [DecidableEq ι] {environment : ι → Environment}
    {operations : ι → Operation} {shared : Shared} {config : Requests ι}
    (hreaches : Interleaves environment
      (Requests.arrive shared fun i => (operations i).request (environment i)) config) :
    RecordKept shared.database config.shared.database := by
  refine invariant_of_commits (fun database _ => RecordKept shared.database database)
    (fun database context => RecordKept shared.database database ∧
      KnowsTrades shared.database database context) (fun _ hsave => hsave)
    (fun _ _ hread => hread) ?_ ?_
    (fun i => (operations i).respects_recordGuard (environment i)) (RecordKept.refl _)
    ⟨RecordKept.refl _, knowsTrades_fresh _ _⟩ (interleavesWhen_of_interleaves hreaches)
  · intro i command before context answer after context' _ hknows hguard hstep hsame
    exact ⟨hknows.1, hknows.2.step hknows.1 hguard hstep⟩
  · intro database binlog context sent hkept hknows hsent hfits
    have hcloses := hknows.2.sent sent hsent
    have hkept' := hkept.applyAll hcloses
    refine ⟨hkept', ⟨hkept', (hknows.2.applyAll hcloses).withTransaction (Or.inl rfl)⟩, ?_⟩
    exact fun other hother => ⟨hkept', hother.2.applyAll hcloses⟩

/-- A deposit commits while a run over the open trades is at work, which then closes the trade
whose time is up. -/
theorem record_kept_deposit :
    ∃ config : Requests Bool, (∀ i, (config.threads i).finished = true) ∧
      config.shared.database.trades.rows =
        [Sample.openTrade.close "Time is up: trade failed" false] ∧
      config.shared.database.balanceHistories.length = 1 ∧
      RecordKept Sample.shared.database config.shared.database := by
  let operations : Bool → Operation := fun i =>
    if i then .deposit 2 10 else .processLongRunningTransactions
  obtain ⟨config, hcheck, hinterleaves⟩ := exists_interleaving (fun _ => Sample.environment)
    (Requests.arrive Sample.shared fun i => (operations i).request Sample.environment)
    (List.replicate 3 (false, .work 100) ++ List.replicate 7 (true, .work 100) ++
      List.replicate 8 (false, .work 100))
    (fun config => (config.threads false).finished && (config.threads true).finished &&
      decide (config.shared.database.trades.rows =
          [Sample.openTrade.close "Time is up: trade failed" false] ∧
        config.shared.database.balanceHistories.length = 1)) (by decide +kernel)
  simp only [Bool.and_eq_true, decide_eq_true_eq] at hcheck
  obtain ⟨⟨hrun, hdeposit⟩, htrades, hhistories⟩ := hcheck
  exact ⟨config, fun i => by cases i; exacts [hrun, hdeposit], htrades, hhistories,
    record_kept hinterleaves⟩

end EasyTrade.Broker

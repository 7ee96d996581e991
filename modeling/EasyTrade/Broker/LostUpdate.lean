import EasyTrade.Broker.Concurrent
import EasyTrade.Broker.LedgerIntegrity

/-!
# Lost updates

A balance is written as an absolute value computed from an earlier read, and no
statement says which value was read.  Two requests that read the same balance
therefore lose one of their changes, while both history rows stay.  As long as
every commit still finds the balances its request has read, nothing is lost.
-/

namespace EasyTrade.Broker

open EasyTrade.Program EasyTrade.Interleaving

/-- The sum of `ValueChange` over the history rows of an account. -/
def valueChanges (accountId : ℤ) (rows : List BalanceHistory) : ℚ :=
  ((Ledger.rowsOf historyColumns accountId rows).map BalanceHistory.valueChange).sum

namespace Write

/-- What a statement changes an account by, counted from the row that the request
has read. -/
def change (accountId : ℤ) : Write → ℚ
  | updateBalance original balance =>
      if balance.accountId = accountId then balance.value - original.value else 0
  | _ => 0

/-- The account whose balance row is rewritten. -/
def rewritten : Write → Option ℤ
  | updateBalance _ balance => some balance.accountId
  | _ => none

def historyRow : Write → Option BalanceHistory
  | insertBalanceHistory row => some row
  | _ => none

/-- The balance row that is rewritten is still the one that was read. -/
def StillRead (database : Database) : Write → Prop
  | updateBalance original _ =>
      database.balances.find? original.accountId = some original
  | _ => True

instance (database : Database) : (write : Write) → Decidable (write.StillRead database)
  | updateBalance original _ => inferInstanceAs (Decidable
      (database.balances.find? original.accountId = some original))
  | insertBalanceHistory _ | updateOwnedInstrument _ _ | insertOwnedInstrument _
  | updateTrade _ | insertTrade _ => inferInstanceAs (Decidable True)

end Write

/-- No balance that the statements rewrite has been changed since it was read. -/
def BalancesUnchanged (database : Database) (sent : List Write) : Prop :=
  ∀ write ∈ sent, write.StillRead database

instance (database : Database) (sent : List Write) :
    Decidable (BalancesUnchanged database sent) :=
  inferInstanceAs (Decidable (∀ write ∈ sent, write.StillRead database))

/-- Every balance has changed since the start by what the appended history rows
say. -/
def Accounted (start database : Database) : Prop :=
  ∃ rows, database.balanceHistories = start.balanceHistories ++ rows ∧
    ∀ accountId, database.balanceOf accountId =
      (start.balanceOf accountId).map (· + valueChanges accountId rows)

/-- Statements that change every account by what their history rows say. -/
structure Balanced (sent : List Write) : Prop where
  once : (sent.filterMap Write.rewritten).Nodup
  sameAccount : ∀ original balance, Write.updateBalance original balance ∈ sent →
    original.accountId = balance.accountId
  recorded : ∀ accountId, (sent.map (Write.change accountId)).sum =
    valueChanges accountId (sent.filterMap Write.historyRow)

theorem valueChanges_append (accountId : ℤ) (first second : List BalanceHistory) :
    valueChanges accountId (first ++ second) =
      valueChanges accountId first + valueChanges accountId second := by
  rw [valueChanges, Ledger.rowsOf_append, List.map_append, List.sum_append, valueChanges,
    valueChanges]

theorem valueChanges_singleton (accountId : ℤ) (row : BalanceHistory) :
    valueChanges accountId [row] =
      if row.accountId = accountId then row.valueChange else 0 := by
  rw [valueChanges, Ledger.rowsOf, List.filter_cons]
  by_cases haccount : row.accountId = accountId <;> simp [historyColumns, haccount]

/-! ## One commit -/

section Commit

variable {start database : Database} {sent : List Write}

theorem balanceHistories_applyAll :
    (database.applyAll sent).balanceHistories =
      database.balanceHistories ++ sent.filterMap Write.historyRow := by
  induction sent generalizing database with
  | nil => exact (List.append_nil _).symm
  | cons write sent ih =>
      have happly : (write.apply database).balanceHistories =
          database.balanceHistories ++ write.historyRow.toList := by
        cases write <;> simp [Write.apply, Write.historyRow]
      calc
        (database.applyAll (write :: sent)).balanceHistories =
            ((write.apply database).applyAll sent).balanceHistories := rfl
        _ = _ := by
          rw [ih, happly, List.append_assoc]
          cases hrow : write.historyRow <;> simp [hrow]

theorem balanceOf_apply_write {write : Write} (hread : write.StillRead database)
    (hkey : ∀ original balance, write = .updateBalance original balance →
      original.accountId = balance.accountId) (accountId : ℤ) :
    (write.apply database).balanceOf accountId =
      (database.balanceOf accountId).map (· + write.change accountId) := by
  cases write with
  | updateBalance original balance =>
      have hfind : database.balances.find? original.accountId = some original := hread
      have hsame : original.accountId = balance.accountId := hkey original balance rfl
      rw [hsame] at hfind
      simp only [Write.apply, Database.balanceOf, Table.find?_set, Write.change]
      by_cases haccount : balance.accountId = accountId
      · rw [if_pos haccount, if_pos haccount, ← haccount, hfind]
        simp
      · rw [if_neg haccount, if_neg haccount]
        simp [Function.comp_def]
  | _ => simp [Write.apply, Database.balanceOf, Write.change, Function.comp_def]

/-- Another balance row is still the one that was read. -/
theorem Write.StillRead.apply {write other : Write} (hread : other.StillRead database)
    (hkey : ∀ original balance, other = .updateBalance original balance →
      original.accountId = balance.accountId)
    (hother : ∀ accountId, write.rewritten = some accountId →
      other.rewritten ≠ some accountId) : other.StillRead (write.apply database) := by
  cases other with
  | updateBalance original balance =>
      cases write with
      | updateBalance _ written =>
          have hne : written.accountId ≠ original.accountId := by
            intro heq
            refine hother written.accountId rfl ?_
            rw [Write.rewritten, heq, hkey original balance rfl]
          exact (Table.find?_set_ne hne).trans hread
      | _ => exact hread
  | _ => trivial

theorem balanceOf_applyAll (hread : BalancesUnchanged database sent)
    (honce : (sent.filterMap Write.rewritten).Nodup)
    (hkey : ∀ original balance, Write.updateBalance original balance ∈ sent →
      original.accountId = balance.accountId) (accountId : ℤ) :
    (database.applyAll sent).balanceOf accountId =
      (database.balanceOf accountId).map (· + (sent.map (Write.change accountId)).sum) := by
  induction sent generalizing database with
  | nil => simp [Database.applyAll]
  | cons write sent ih =>
      have hkeys : ∀ original balance, Write.updateBalance original balance ∈ sent →
          original.accountId = balance.accountId :=
        fun original balance hmem => hkey original balance (List.mem_cons_of_mem write hmem)
      have hothers : ∀ other ∈ sent, ∀ accountId, write.rewritten = some accountId →
          other.rewritten ≠ some accountId := by
        intro other hmem accountId hwrite hother
        rw [List.filterMap_cons, hwrite] at honce
        exact (List.nodup_cons.mp honce).1 (List.mem_filterMap.mpr ⟨other, hmem, hother⟩)
      have honce' : (sent.filterMap Write.rewritten).Nodup := by
        rw [List.filterMap_cons] at honce
        cases hwrite : write.rewritten with
        | none => rwa [hwrite] at honce
        | some accountId =>
            rw [hwrite] at honce
            exact (List.nodup_cons.mp honce).2
      have hread' : BalancesUnchanged (write.apply database) sent := by
        intro other hmem
        refine (hread other (List.mem_cons_of_mem write hmem)).apply ?_ (hothers other hmem)
        rintro original balance rfl
        exact hkeys original balance hmem
      have hfirst := balanceOf_apply_write (hread write List.mem_cons_self)
        (fun original balance heq => hkey original balance (heq ▸ List.mem_cons_self)) accountId
      calc
        (database.applyAll (write :: sent)).balanceOf accountId =
            ((write.apply database).applyAll sent).balanceOf accountId := rfl
        _ = ((write.apply database).balanceOf accountId).map
            (· + (sent.map (Write.change accountId)).sum) := ih hread' honce' hkeys
        _ = _ := by
          rw [hfirst, Option.map_map, List.map_cons, List.sum_cons]
          congr 1
          funext value
          exact add_assoc _ _ _

theorem Accounted.commit (haccounted : Accounted start database) (hbalanced : Balanced sent)
    (hread : BalancesUnchanged database sent) : Accounted start (database.applyAll sent) := by
  obtain ⟨rows, hrows, hbalances⟩ := haccounted
  refine ⟨rows ++ sent.filterMap Write.historyRow, ?_, fun accountId => ?_⟩
  · rw [balanceHistories_applyAll, hrows, List.append_assoc]
  · rw [balanceOf_applyAll hread hbalanced.once hbalanced.sameAccount, hbalances,
      hbalanced.recorded, Option.map_map, valueChanges_append]
    congr 1
    funext value
    exact add_assoc _ _ _

end Commit

/-! ## The objects of a request -/

/-- What a tracked balance has been changed by since it was read. -/
def draft (accountId : ℤ) (entry : Tracked Balance) : ℚ :=
  if entry.current.accountId = accountId then entry.current.value - entry.original.value
  else 0

/-- The history rows waiting to be inserted explain the changes of the tracked
balances. -/
structure Drafted (balances : IdentityMap Balance.accountId) (rows : List BalanceHistory) :
    Prop where
  sameAccount : ∀ entry ∈ balances.rows,
    entry.original.accountId = entry.current.accountId
  unmodified : ∀ entry ∈ balances.rows, entry.modified = false →
    entry.current = entry.original
  recorded : ∀ accountId, balances.sumBy (draft accountId) = valueChanges accountId rows

section Drafted

variable {balances : IdentityMap Balance.accountId} {rows : List BalanceHistory}

omit balances rows in
/-- Elements that contribute nothing can be left out of a sum. -/
theorem sum_map_filter {α : Type} {items : List α} {p : α → Bool} {f : α → ℚ}
    (hzero : ∀ item ∈ items, p item = false → f item = 0) :
    ((items.filter p).map f).sum = (items.map f).sum := by
  induction items with
  | nil => rfl
  | cons item items ih =>
      have htail := ih fun other hother => hzero other (List.mem_cons_of_mem item hother)
      cases hitem : p item with
      | true => simp [hitem, htail]
      | false => simp [hitem, htail, hzero item List.mem_cons_self hitem]

theorem drafted_fresh : Drafted Table.empty [] :=
  ⟨fun _ h => absurd h List.not_mem_nil, fun _ h => absurd h List.not_mem_nil,
    fun _ => rfl⟩

theorem Drafted.attach (hdrafted : Drafted balances rows) (row : Balance) :
    Drafted (balances.attach row) rows := by
  refine ⟨fun entry hentry => ?_, fun entry hentry hmodified => ?_, fun accountId => ?_⟩
  · rcases IdentityMap.mem_rows_attach hentry with hold | rfl
    · exact hdrafted.sameAccount entry hold
    · rfl
  · rcases IdentityMap.mem_rows_attach hentry with hold | rfl
    · exact hdrafted.unmodified entry hold hmodified
    · rfl
  · by_cases hmem : row.accountId ∈ Table.keys balances
    · rw [IdentityMap.attach_eq_self hmem]
      exact hdrafted.recorded accountId
    · rw [Table.sumBy, IdentityMap.rows_attach hmem, List.map_append, List.sum_append,
        ← hdrafted.recorded accountId]
      simp [draft, Table.sumBy]

/-- A balance is changed, and the change is recorded. -/
theorem Drafted.update (hdrafted : Drafted balances rows) (before after : Balance)
    (htracked : (balances.find? after.accountId).map Tracked.current = some before)
    {recorded : List BalanceHistory}
    (hrecorded : ∀ accountId, valueChanges accountId recorded =
      if after.accountId = accountId then after.value - before.value else 0) :
    Drafted (balances.update after) (rows ++ recorded) := by
  obtain ⟨entry, hentry, rfl⟩ := Option.map_eq_some_iff.mp htracked
  have hmem : entry ∈ balances.rows := Table.mem_of_find? hentry
  have hkey := Table.key_of_find? hentry
  rw [IdentityMap.update_of_find? hentry]
  refine ⟨fun other hother => ?_, fun other hother hmodified => ?_, fun accountId => ?_⟩
  · rcases Table.mem_rows_set.mp hother with ⟨hold, -⟩ | ⟨rfl, -⟩
    · exact hdrafted.sameAccount other hold
    · exact (hdrafted.sameAccount entry hmem).trans hkey
  · rcases Table.mem_rows_set.mp hother with ⟨hold, -⟩ | ⟨rfl, -⟩
    · exact hdrafted.unmodified other hold hmodified
    · cases hmodified
  · have hset : (Table.set balances ⟨entry.original, after, true⟩).sumBy (draft accountId) =
        balances.sumBy (draft accountId) + (draft accountId ⟨entry.original, after, true⟩ -
          draft accountId entry) := Table.sumBy_set hentry
    rw [hset, hdrafted.recorded, valueChanges_append, hrecorded]
    simp only [draft, hkey]
    split_ifs <;> ring

/-- The statements of a save explain themselves when the objects do. -/
theorem Drafted.balanced {context : DbContext} (shared : Shared)
    (hdrafted : Drafted context.balances context.addedBalanceHistories) :
    Balanced (World.unsaved (shared, context)) := by
  have hrows : (World.unsaved (shared, context)).filterMap Write.historyRow =
      context.addedBalanceHistories := by
    simp [World.unsaved, List.filterMap_append, List.filterMap_map, Function.comp_def,
      Write.historyRow]
  have hrewritten : (World.unsaved (shared, context)).filterMap Write.rewritten =
      context.balances.dirty.map fun entry => entry.current.accountId := by
    simp [World.unsaved, List.filterMap_append, List.filterMap_map, Function.comp_def,
      Write.rewritten]
  refine ⟨?_, fun original balance hmem => ?_, fun accountId => ?_⟩
  · rw [hrewritten]
    exact context.balances.keysNodup.sublist (List.filter_sublist.map _)
  · simp only [World.unsaved, List.mem_append, List.mem_map, reduceCtorEq, and_false,
      exists_false, or_false] at hmem
    obtain ⟨entry, hentry, heq⟩ := hmem
    cases heq
    exact hdrafted.sameAccount entry (List.mem_filter.mp hentry).1
  · have hchange : ((World.unsaved (shared, context)).map (Write.change accountId)).sum =
        (context.balances.dirty.map (draft accountId)).sum := by
      simp only [World.unsaved, List.map_append, List.map_map, List.sum_append,
        Function.comp_def, Write.change, List.map_const', List.sum_replicate, smul_zero,
        add_zero]
      rfl
    rw [hrows, ← hdrafted.recorded accountId, hchange, IdentityMap.dirty, Table.sumBy]
    refine sum_map_filter fun entry hentry hmodified => ?_
    rw [draft, hdrafted.unmodified entry hentry hmodified, sub_self, ite_self]

/-- A trade is settled between a balance that was read and the owner. -/
theorem Drafted.settle {context : DbContext} {balance row : Balance} {income ppt : ℚ}
    {actionType : ActionType} {tradeDate feeDate now : DateTime}
    (hdrafted : Drafted context.balances context.addedBalanceHistories)
    (htracked : (context.balances.find? balance.accountId).map Tracked.current = some balance)
    (hrow : row.accountId = ownerId) :
    Drafted
      ((context.charge balance income ppt actionType tradeDate feeDate).collect row ppt
        now).balances
      ((context.charge balance income ppt actionType tradeDate feeDate).collect row ppt
        now).addedBalanceHistories := by
  have hcharged : Drafted
      (context.charge balance income ppt actionType tradeDate feeDate).balances
      (context.charge balance income ppt actionType tradeDate feeDate).addedBalanceHistories := by
    refine hdrafted.update balance { balance with value := balance.value + income - ppt }
      htracked fun accountId => ?_
    rw [← List.singleton_append, valueChanges_append, valueChanges_singleton,
      valueChanges_singleton]
    by_cases haccount : balance.accountId = accountId
    · simp only [BalanceHistory.ofAction, haccount, if_true]
      ring
    · simp [BalanceHistory.ofAction, haccount]
  let owner := (context.charge balance income ppt actionType tradeDate feeDate).balances.resolve row
  have hkey : owner.accountId = row.accountId := IdentityMap.key_resolve row
  refine (hcharged.attach row).update owner { owner with value := owner.value + ppt } ?_
    fun accountId => ?_
  · rw [hkey]
    exact IdentityMap.find?_attach row
  · rw [valueChanges_singleton]
    by_cases howner : ownerId = accountId
    · simp [BalanceHistory.ofAction, hkey, hrow, howner]
    · simp [BalanceHistory.ofAction, hkey, hrow, howner]

end Drafted

/-! ## The requests -/

section Requests

variable {environment : Environment} {accountId instrumentId : ℤ} {amount : ℚ}

theorem answersFor_of_isRoutine {promise : List Write → Prop} (command : Command)
    (context : DbContext) (hroutine : command.isRoutine = true) :
    answersFor promise command context := by
  cases command <;> trivial

/-- A request saves once. -/
theorem answersFor_balanced {context : DbContext} (hbegun : context.transaction = some [])
    (hdrafted : Drafted context.balances context.addedBalanceHistories) :
    answersFor Balanced .saveChanges context :=
  ⟨[], hbegun, fun shared => hdrafted.balanced shared⟩

/-- The save that ends a request. -/
theorem saveChangesOrRollback_balanced {context : DbContext} {ok : Unit → DbContext → Prop}
    (hbegun : context.transaction = some [])
    (hdrafted : Drafted context.balances context.addedBalanceHistories)
    (hok : ∀ context, ok () context) :
    Respects (answersFor Balanced) saveChangesOrRollback ok context :=
  respects_saveChangesOrRollback (fun _ => ⟨trivial, trivial⟩)
    (answersFor_balanced hbegun hdrafted) fun _ => hok _

/-- A deposit and a withdrawal record what they change the balance by. -/
theorem modifyBalance_balanced {actionType : ActionType} :
    Respects (answersFor Balanced)
      (BalanceService.modifyBalance accountId amount actionType) (fun _ _ => True)
      DbContext.fresh := by
  simp only [BalanceService.modifyBalance, respects_bind, respects_getBalanceOfAccount]
  refine ⟨trivial, trivial, fun row hrow => ?_⟩
  let balance := DbContext.fresh.balances.resolve row
  have hkey : balance.accountId = accountId := (IdentityMap.key_resolve row).trans hrow
  have htracked : ((DbContext.fresh.balances.attach row).find? accountId).map
      Tracked.current = some balance := hrow ▸ IdentityMap.find?_attach row
  -- the rest of the request, once the new value is known
  have hrest : ∀ (balance' : Balance) (now : DateTime), balance'.accountId = accountId →
      ∀ difference, balance'.value - balance.value = difference →
      Drafted ((DbContext.fresh.balances.attach row).update balance')
        ([] ++ [BalanceHistory.ofAction accountId balance.value difference actionType now]) := by
    intro balance' now haccount difference hdifference
    refine (drafted_fresh.attach row).update balance balance' (haccount ▸ htracked)
      fun other => ?_
    rw [valueChanges_singleton, haccount, hdifference]
    rfl
  cases actionType with
  | withdraw =>
      simp only [respects_bind, respects_utcNow, respects_ofExcept, respects_beginTransaction,
        respects_updateBalance, respects_addBalanceHistory, respects_pure, answersFor,
        true_and, if_true, Balance.withdraw]
      intro now balance' hwithdraw
      split_ifs at hwithdraw
      cases hwithdraw
      exact saveChangesOrRollback_balanced rfl
        (hrest { balance with value := balance.value - amount } now hkey (-amount)
          (by simp)) fun _ => trivial
  | deposit =>
      simp only [respects_bind, respects_utcNow, respects_ofExcept, respects_beginTransaction,
        respects_updateBalance, respects_addBalanceHistory, respects_pure, answersFor,
        true_and, reduceCtorEq, if_false, Balance.deposit]
      intro now balance' hdeposit
      split_ifs at hdeposit
      cases hdeposit
      exact saveChangesOrRollback_balanced rfl
        (hrest { balance with value := balance.value + amount } now hkey amount
          (by simp)) fun _ => trivial
  | _ =>
      simp only [respects_bind, respects_utcNow, respects_throw, answersFor, true_and,
        implies_true]

/-- The objects of a quick trade after the charges. -/
theorem Drafted.settle_opened {context : DbContext} {row owner : Balance} {trade : Trade}
    {income ppt : ℚ} {actionType : ActionType} {tradeDate feeDate now : DateTime}
    (hdrafted : Drafted context.balances context.addedBalanceHistories)
    (howner : owner.accountId = ownerId) :
    Drafted
      (((context.opened row trade).charge (context.balances.resolve row) income ppt actionType
        tradeDate feeDate).collect owner ppt now).balances
      (((context.opened row trade).charge (context.balances.resolve row) income ppt actionType
        tradeDate feeDate).collect owner ppt now).addedBalanceHistories := by
  have hopened : Drafted (context.opened row trade).balances
      (context.opened row trade).addedBalanceHistories := hdrafted.attach row
  refine hopened.settle ?_ howner
  have hkey : (context.balances.resolve row).accountId = row.accountId :=
    IdentityMap.key_resolve row
  rw [hkey]
  exact IdentityMap.find?_attach row

/-- A quick buy: the trade, both charges and the holding go into one save. -/
theorem buyAssets_balanced :
    Respects (answersFor Balanced)
      (TradeService.buyAssets environment accountId instrumentId amount) (fun _ _ => True)
      DbContext.fresh := by
  refine TradeService.buyAssets_respects answersFor_of_isRoutine ?_
  intro row owner trade income ppt tradeDate feeDate now hrow howner
  let charged := ((DbContext.fresh.opened row trade).charge
    (DbContext.fresh.balances.resolve row) income ppt .buy tradeDate feeDate).collect owner
      ppt now
  have hdrafted : Drafted charged.balances charged.addedBalanceHistories :=
    Drafted.settle_opened drafted_fresh howner
  refine TradeServiceBase.updateOwnedInstrumentOf_respects answersFor_of_isRoutine trivial
    (fun _ => ?_) fun held hheld => ?_
  · exact saveChangesOrRollback_balanced rfl hdrafted fun _ => trivial
  · refine TradeServiceBase.updateOwnedInstrument_respects answersFor_of_isRoutine
      (fun _ => DbContext.hasRead_readHolding charged held _ _) fun _ => ?_
    exact saveChangesOrRollback_balanced rfl hdrafted fun _ => trivial

theorem sellAssets_balanced :
    Respects (answersFor Balanced)
      (TradeService.sellAssets environment accountId instrumentId amount) (fun _ _ => True)
      DbContext.fresh := by
  rw [TradeService.sellAssets, respects_bind, TradeService.validateInput]
  split_ifs
  · trivial
  simp only [respects_pure, respects_bind, respects_getBalanceOfAccount]
  refine ⟨trivial, trivial, fun row hrow => ?_⟩
  rw [respects_getInstrument]
  refine ⟨trivial, fun instrument => ?_⟩
  cases instrument with
  | none => trivial
  | some instrument =>
  simp only [respects_bind, getLastPriceByInstrumentId, respects_getPricesByInstrumentId,
    respects_notNull, respects_getProduct, respects_getOwnedInstrument, respects_pure,
    answersFor, true_and]
  intro prices price hprice product'
  refine ⟨trivial, fun held hheld => ?_⟩
  split_ifs
  · trivial
  simp only [respects_bind, respects_beginTransaction, respects_utcNow, respects_addTrade,
    respects_notNull, respects_pure]
  refine TradeService.checkFraud_respects answersFor_of_isRoutine fun _ => ?_
  simp only [answersFor, true_and]
  intro opened closed product hproduct
  refine TradeServiceBase.updateBalance_respects answersFor_of_isRoutine
    fun owner tradeDate feeDate now howner => ?_
  refine TradeServiceBase.updateOwnedInstrument_respects answersFor_of_isRoutine
    (fun _ => DbContext.hasRead_readHolding DbContext.fresh held _ _) fun _ => ?_
  let trade := Trade.quickTrade accountId instrumentId .sell price.openPrice amount opened
    closed
  let charged := (((DbContext.fresh.readHolding held).opened row trade).charge
    (DbContext.fresh.balances.resolve row) (TradeServiceBase.incomeOf .sell
      (price.openPrice * amount)) product.ppt .sell tradeDate feeDate).collect owner
        product.ppt now
  have hdrafted : Drafted charged.balances charged.addedBalanceHistories :=
    Drafted.settle_opened drafted_fresh howner
  exact saveChangesOrRollback_balanced rfl hdrafted fun _ => trivial

end Requests

/-- The operations that read balances and write them back in one save. -/
def Operation.isQuick : Operation → Bool
  | deposit _ _ | withdraw _ _ | quickBuy _ _ _ | quickSell _ _ _ => true
  | _ => false

theorem Operation.balanced {environment : Environment} {operation : Operation}
    (hquick : operation.isQuick = true) :
    Respects (answersFor Balanced) (operation.request environment) (fun _ _ => True)
      DbContext.fresh := by
  cases operation with
  | deposit | withdraw =>
      simp only [Operation.request, respects_bind, respects_pure]
      exact modifyBalance_balanced
  | quickBuy =>
      simp only [Operation.request, respects_bind, respects_pure]
      exact buyAssets_balanced
  | quickSell =>
      simp only [Operation.request, respects_bind, respects_pure]
      exact sellAssets_balanced
  | longBuy | longSell | processLongRunningTransactions => cases hquick

/-- No lost update.  In every interleaving of deposits, withdrawals and quick
trades in which each commit finds the balances it rewrites as its request has
read them, every balance is the initial one plus the changes of the history rows
committed since. -/
theorem balances_accounted {ι : Type} [DecidableEq ι] {environment : ι → Environment}
    {operations : ι → Operation} {shared : Shared} {config : Requests ι}
    (hquick : ∀ i, (operations i).isQuick = true)
    (hreaches : InterleavesWhen BalancesUnchanged environment
      (Requests.arrive shared fun i => (operations i).request (environment i)) config) :
    ∃ rows, config.shared.database.balanceHistories =
        shared.database.balanceHistories ++ rows ∧
      ∀ accountId, config.shared.database.balanceOf accountId =
        (shared.database.balanceOf accountId).map (· + valueChanges accountId rows) := by
  have hstart : Accounted shared.database shared.database := by
    refine ⟨[], (List.append_nil _).symm, fun accountId => ?_⟩
    simp [valueChanges, Ledger.rowsOf]
  have hempty : Balanced [] :=
    ⟨List.nodup_nil, fun _ _ h => absurd h List.not_mem_nil, fun _ => rfl⟩
  exact invariant_of_promises (fun database _ => Accounted shared.database database) hempty
    (fun _ _ _ haccounted hbalanced hread => haccounted.commit hbalanced hread)
    (fun i => Operation.balanced (hquick i)) hstart hreaches

/-- Two deposits of the same account: both read the balance before either
commits, and the second commit overwrites the first. -/
theorem lost_update :
    ∃ config : Requests Bool,
      Interleaves (fun _ => Sample.environment)
        (Requests.arrive Sample.shared fun _ =>
          (Operation.deposit 2 10).request Sample.environment) config ∧
      (∀ i, (config.threads i).finished = true) ∧
      ¬ ∃ rows, config.shared.database.balanceHistories =
          Sample.shared.database.balanceHistories ++ rows ∧
        ∀ accountId, config.shared.database.balanceOf accountId =
          (Sample.shared.database.balanceOf accountId).map
            (· + valueChanges accountId rows) := by
  obtain ⟨config, hcheck, hinterleaves⟩ := exists_interleaving
    (fun _ => Sample.environment)
    (Requests.arrive Sample.shared fun _ : Bool =>
      (Operation.deposit 2 10).request Sample.environment)
    ([(false, .work 100), (true, .work 100)] ++ List.replicate 6 (false, .work 100) ++
      List.replicate 6 (true, .work 100))
    (fun config => (config.threads false).finished && (config.threads true).finished &&
      decide (config.shared.database.balanceOf 2 = some 110 ∧
        valueChanges 2 config.shared.database.balanceHistories = 20)) (by decide +kernel)
  simp only [Bool.and_eq_true, decide_eq_true_eq] at hcheck
  obtain ⟨⟨hfirst, hsecond⟩, hbalance, hchanges⟩ := hcheck
  refine ⟨config, hinterleaves, fun i => by cases i <;> assumption, ?_⟩
  rintro ⟨rows, hrows, hbalances⟩
  have hrows : config.shared.database.balanceHistories = rows := hrows
  have hinitial : Sample.shared.database.balanceOf 2 = some 100 := by decide +kernel
  have hexpected := hbalances 2
  rw [hbalance, hinitial, Option.map_some, ← hrows, hchanges] at hexpected
  norm_num at hexpected

/-- A deposit of the trader and one of the owner, command by command. -/
theorem balances_accounted_deposits :
    ∃ config : Requests Bool, (∀ i, (config.threads i).finished = true) ∧
      ∃ rows, config.shared.database.balanceHistories =
          Sample.shared.database.balanceHistories ++ rows ∧
        ∀ accountId, config.shared.database.balanceOf accountId =
          (Sample.shared.database.balanceOf accountId).map
            (· + valueChanges accountId rows) := by
  let operations : Bool → Operation := fun i => .deposit (if i then ownerId else 2) 10
  obtain ⟨config, hcheck, hinterleaves⟩ := exists_interleavingWhen BalancesUnchanged
    (fun _ => Sample.environment)
    (Requests.arrive Sample.shared fun i => (operations i).request Sample.environment)
    (List.replicate 7 [(false, .work 100), (true, .work 100)]).flatten
    (fun config => (config.threads false).finished && (config.threads true).finished)
    (by decide +kernel)
  rw [Bool.and_eq_true] at hcheck
  exact ⟨config, fun i => by cases i; exacts [hcheck.1, hcheck.2],
    balances_accounted (fun _ => rfl) hinterleaves⟩

end EasyTrade.Broker

import EasyTrade.Broker.Services

/-!
# A request among others

Between any two commands of a request the others may have committed anything.
What is left to rely on is the request's own context: the objects it has read,
the changes it has made to them, and the statements it has sent.  This file
gives the commands their meaning on the context alone, with reads that return
arbitrary rows, and a proof rule for each of them.
-/

namespace EasyTrade.Broker

open EasyTrade.Program

namespace DbContext

/-- A row is found.  No row ever changes its account and its instrument, so an object that
has been read before is still the one that is looked for. -/
def Finds (context : DbContext) (accountId instrumentId : ℤ) (row : OwnedInstrument) : Prop :=
  row.isFor accountId instrumentId ∧
    (context.ownedInstruments.resolve row).isFor accountId instrumentId

/-- The request has read the row that it rewrites. -/
def HasRead (context : DbContext) (row : OwnedInstrument) : Prop :=
  ∃ entry ∈ context.ownedInstruments.rows,
    entry.current.id = row.id ∧ entry.current.pair = row.pair

/-- What a command that succeeds does to the context of a request, whatever the
database looks like at that moment. -/
def effect : (command : Command) → DbContext → command.Answer → DbContext → Prop
  | .getBalanceOfAccount accountId, context, value, context' =>
      (value = none ∧ context' = context) ∨
        ∃ row : Balance, row.accountId = accountId ∧
          value = some (context.balances.resolve row) ∧
          context' = { context with balances := context.balances.attach row }
  | .updateBalance balance, context, _, context' =>
      context' = { context with balances := context.balances.update balance }
  | .addBalanceHistory row, context, _, context' =>
      context' = { context with
        addedBalanceHistories := context.addedBalanceHistories ++ [row] }
  | .getOwnedInstrument accountId instrumentId, context, value, context' =>
      (value = none ∧ context' = context) ∨
        ∃ row : OwnedInstrument, context.Finds accountId instrumentId row ∧
          value = some (context.ownedInstruments.resolve row) ∧
          context' = { context with
            ownedInstruments := context.ownedInstruments.attach row }
  | .getOwnedInstrumentsOfAccount _, context, value, context' =>
      ∃ rows, value = (context.ownedInstruments.attachAll rows).1 ∧
        context' = { context with
          ownedInstruments := (context.ownedInstruments.attachAll rows).2 }
  | .addOwnedInstrument row, context, _, context' =>
      context' = { context with
        addedOwnedInstruments := context.addedOwnedInstruments ++ [row] }
  | .updateOwnedInstrument row, context, _, context' =>
      context' = { context with ownedInstruments := context.ownedInstruments.update row }
  | .getTradesWhere _, context, value, context' =>
      ∃ rows : List Trade, (rows.map Trade.id).Nodup ∧
        value = (context.trades.attachAll rows).1 ∧
        context' = { context with trades := (context.trades.attachAll rows).2 }
  | .addTrade row, context, _, context' =>
      context' = { context with addedTrades := context.addedTrades ++ [row] }
  | .updateTrade row, context, _, context' =>
      context' = { context with trades := context.trades.update row }
  | .beginTransaction, context, _, context' =>
      context' = { context with transaction := some [] }
  | .saveChanges, context, _, context' =>
      ∃ shared, context' = (World.saveChanges (shared, context)).2
  | .commitTransaction, context, _, context'
  | .rollbackTransaction, context, _, context' =>
      context' = { context with transaction := none }
  | _, context, _, context' => context' = context

/-- A command succeeds, or throws and leaves the context alone. -/
def step : Semantics BrokerException Command.Answer DbContext :=
  fun command context answer context' =>
    (∃ value, answer = .ok value ∧ effect command context value context') ∨
      ∃ error, answer = .error error ∧ context' = context

end DbContext

section Context

variable {environment : Environment}

/-- The objects of a request are for the accounts and instruments of their rows. -/
def World.Coherent (world : World) : Prop :=
  ∀ entry ∈ world.2.ownedInstruments.rows, ∀ row ∈ world.view.ownedInstruments.rows,
    entry.current.id = row.id → entry.current.pair = row.pair

theorem World.Coherent.finds {world : World} (hcoherent : world.Coherent)
    {accountId instrumentId : ℤ} {row : OwnedInstrument}
    (hfound : world.view.holdingRow accountId instrumentId = some row) :
    world.2.Finds accountId instrumentId row := by
  have hrow : row.isFor accountId instrumentId = true := List.find?_some hfound
  refine ⟨hrow, ?_⟩
  rw [IdentityMap.resolve]
  cases hentry : world.2.ownedInstruments.find? row.id with
  | none => exact hrow
  | some entry =>
      have hid := Table.key_of_find? hentry
      have hpair : entry.current.pair = row.pair :=
        hcoherent entry (Table.mem_of_find? hentry) row (List.mem_of_find?_eq_some hfound) hid
      rw [OwnedInstrument.isFor_iff] at hrow ⊢
      exact ⟨(congrArg Prod.fst hpair).trans hrow.1, (congrArg Prod.snd hpair).trans hrow.2⟩

theorem DbContext.step_of_run {command : Command} {world world' : World}
    {answer : Except BrokerException command.Answer} (hcoherent : world.Coherent)
    (hrun : command.run environment world = (answer, world')) :
    DbContext.step command world.2 answer world'.2 := by
  cases command with
  | getBalanceOfAccount accountId =>
      simp only [Command.run] at hrun
      cases hfind : world.view.balances.find? accountId with
      | none =>
          rw [hfind] at hrun
          cases hrun
          exact Or.inl ⟨_, rfl, Or.inl ⟨rfl, rfl⟩⟩
      | some row =>
          rw [hfind] at hrun
          cases hrun
          exact Or.inl ⟨_, rfl, Or.inr ⟨row, Table.key_of_find? hfind, rfl, rfl⟩⟩
  | getOwnedInstrument accountId instrumentId =>
      simp only [Command.run] at hrun
      cases hfind : world.view.holdingRow accountId instrumentId with
      | none =>
          rw [hfind] at hrun
          cases hrun
          exact Or.inl ⟨_, rfl, Or.inl ⟨rfl, rfl⟩⟩
      | some row =>
          rw [hfind] at hrun
          cases hrun
          exact Or.inl ⟨_, rfl, Or.inr ⟨row, hcoherent.finds hfind, rfl, rfl⟩⟩
  | getTradesWhere filter =>
      cases hrun
      refine Or.inl ⟨_, rfl, _, ?_, rfl, rfl⟩
      have hperm := environment.order_perm
        (world.view.trades.rows.filter (filter world.1.clock))
      rw [(hperm.map Trade.id).nodup_iff]
      exact world.view.trades.keysNodup.sublist (List.filter_sublist.map _)
  | beginTransaction | commitTransaction | rollbackTransaction =>
      simp only [Command.run] at hrun
      split at hrun <;> cases hrun
      · exact Or.inl ⟨_, rfl, rfl⟩
      · exact Or.inr ⟨_, rfl, rfl⟩
  | saveChanges =>
      cases hrun
      exact Or.inl ⟨_, rfl, world.1, rfl⟩
  | getOwnedInstrumentsOfAccount accountId =>
      cases hrun
      exact Or.inl ⟨_, rfl, _, rfl, rfl⟩
  | _ =>
      cases hrun
      exact Or.inl ⟨_, rfl, rfl⟩

/-- Whatever a command does in the presence of other requests, the context
semantics allows. -/
theorem DbContext.step_of_step {command : Command} {shared shared' : Shared}
    {context context' : DbContext} {answer : Except BrokerException command.Answer}
    (hcoherent : World.Coherent (shared, context))
    (hstep : Broker.step environment command (shared, context) answer (shared', context')) :
    DbContext.step command context answer context' := by
  rcases hstep with ⟨time, -, hrun⟩ | ⟨-, error, rfl, hsame⟩
  · have hlater : (World.tick (shared, context) time).Coherent := hcoherent
    exact DbContext.step_of_run hlater hrun
  · cases hsame
    exact Or.inr ⟨error, rfl, rfl⟩

end Context

/-- A postcondition that asks nothing of an exception. -/
def DbContext.finish {α : Type} (ok : α → DbContext → Prop) :
    Except BrokerException α → DbContext → Prop
  | .ok value, context => ok value context
  | .error _, _ => True

/-- The program issues every command under its guard, and satisfies `ok` if it
returns. -/
def Respects {α : Type} (guard : Command → DbContext → Prop) (program : Request α)
    (ok : α → DbContext → Prop) (context : DbContext) : Prop :=
  wp DbContext.step guard program (DbContext.finish ok) context

section Rules

variable {guard : Command → DbContext → Prop} {context : DbContext} {α β : Type}

theorem Respects.mono {program : Request α} {ok ok' : α → DbContext → Prop}
    (hok : ∀ value context, ok value context → ok' value context)
    (h : Respects guard program ok context) : Respects guard program ok' context := by
  refine wp_mono (fun outcome final hfinal => ?_) h
  cases outcome with
  | ok value => exact hok value final hfinal
  | error error => trivial

@[simp]
theorem respects_pure (value : α) (ok : α → DbContext → Prop) :
    Respects guard (pure value) ok context ↔ ok value context := Iff.rfl

@[simp]
theorem respects_throw (error : BrokerException) (ok : α → DbContext → Prop) :
    Respects guard (throw error) ok context ↔ True := Iff.rfl

@[simp]
theorem respects_bind (program : Request α) (next : α → Request β)
    (ok : β → DbContext → Prop) :
    Respects guard (program >>= next) ok context ↔
      Respects guard program (fun value context => Respects guard (next value) ok context)
        context := by
  have hpost : andThen
      (fun value => wp DbContext.step guard (next value) (DbContext.finish ok))
        (DbContext.finish ok) =
      DbContext.finish fun value context => Respects guard (next value) ok context := by
    funext outcome final
    cases outcome <;> rfl
  rw [Respects, wp_bind, hpost, Respects]

/-- The rule all command rules are instances of. -/
theorem respects_issue (command : Command) {ok : command.Answer → DbContext → Prop} :
    Respects guard (issue command) ok context ↔
      guard command context ∧ ∀ value context',
        DbContext.effect command context value context' → ok value context' := by
  rw [Respects, issue, wp_perform]
  refine and_congr Iff.rfl ⟨fun h value context' heffect => ?_, fun h => ?_⟩
  · exact h _ _ (Or.inl ⟨value, rfl, heffect⟩)
  · rintro answer context' (⟨value, rfl, heffect⟩ | ⟨error, rfl, -⟩)
    · exact h value context' heffect
    · trivial

/-- A command without an answer to look at. -/
theorem respects_issue_of_effect (command : Command) (value : command.Answer)
    {next : DbContext} {ok : command.Answer → DbContext → Prop}
    (hvalue : ∀ other, other = value)
    (heffect : ∀ value context',
      DbContext.effect command context value context' ↔ context' = next) :
    Respects guard (issue command) ok context ↔ guard command context ∧ ok value next := by
  rw [respects_issue]
  refine and_congr Iff.rfl ⟨fun h => h value next ((heffect _ _).mpr rfl), ?_⟩
  intro h other context' hnext
  rw [hvalue other, (heffect _ _).mp hnext]
  exact h

/-- A query that may find a row or not. -/
theorem respects_issue_of_query (command : Command) {γ : Type} {missing : command.Answer}
    {matching : γ → Prop} {answer : γ → command.Answer} {next : γ → DbContext}
    {ok : command.Answer → DbContext → Prop}
    (heffect : ∀ value context', DbContext.effect command context value context' ↔
      (value = missing ∧ context' = context) ∨
        ∃ row, matching row ∧ value = answer row ∧ context' = next row) :
    Respects guard (issue command) ok context ↔
      guard command context ∧ ok missing context ∧
        ∀ row, matching row → ok (answer row) (next row) := by
  rw [respects_issue]
  refine and_congr Iff.rfl ⟨fun h => ⟨?_, fun row hrow => ?_⟩, ?_⟩
  · exact h _ _ ((heffect _ _).mpr (Or.inl ⟨rfl, rfl⟩))
  · exact h _ _ ((heffect _ _).mpr (Or.inr ⟨row, hrow, rfl, rfl⟩))
  · rintro ⟨hnone, hsome⟩ value context' hvalue
    rcases (heffect _ _).mp hvalue with ⟨rfl, rfl⟩ | ⟨row, hrow, rfl, rfl⟩
    · exact hnone
    · exact hsome row hrow

/-- A command that leaves the context alone. -/
theorem respects_issue_of_read (command : Command)
    {ok : command.Answer → DbContext → Prop}
    (heffect : ∀ value context',
      DbContext.effect command context value context' ↔ context' = context) :
    Respects guard (issue command) ok context ↔
      guard command context ∧ ∀ value, ok value context := by
  rw [respects_issue]
  refine and_congr Iff.rfl ⟨fun h value => h value context ((heffect _ _).mpr rfl), ?_⟩
  intro h value context' hsame
  rw [(heffect _ _).mp hsame]
  exact h value

/-- Loop rule. -/
theorem respects_forM {ι : Type} {body : ι → Request PUnit} {ok : PUnit → DbContext → Prop}
    (invariant : List ι → DbContext → Prop)
    (hbody : ∀ item rest context, invariant (item :: rest) context →
      Respects guard (body item) (fun _ => invariant rest) context)
    (hdone : ∀ context, invariant [] context → ok ⟨⟩ context)
    (items : List ι) (hstart : invariant items context) :
    Respects guard (forM items body) ok context := by
  refine wp_forM invariant (fun item rest context hitem => ?_) hdone items hstart
  refine wp_mono (fun outcome final hfinal => ?_) (hbody item rest context hitem)
  cases outcome <;> exact hfinal

/-! ## One rule for each command -/

theorem respects_getBalanceOfAccount {accountId : ℤ}
    {ok : Option Balance → DbContext → Prop} :
    @Respects (Option Balance) guard (issue (.getBalanceOfAccount accountId)) ok context ↔
      guard (.getBalanceOfAccount accountId) context ∧ ok none context ∧
        ∀ row : Balance, row.accountId = accountId →
          ok (some (context.balances.resolve row))
            { context with balances := context.balances.attach row } :=
  respects_issue_of_query (.getBalanceOfAccount accountId) fun _ _ => Iff.rfl

theorem respects_updateBalance {balance : Balance} {ok : Unit → DbContext → Prop} :
    @Respects Unit guard (issue (.updateBalance balance)) ok context ↔
      guard (.updateBalance balance) context ∧
        ok () { context with balances := context.balances.update balance } :=
  respects_issue_of_effect (.updateBalance balance) () (fun _ => rfl) fun _ _ => Iff.rfl

theorem respects_addBalanceHistory {row : BalanceHistory} {ok : Unit → DbContext → Prop} :
    @Respects Unit guard (issue (.addBalanceHistory row)) ok context ↔
      guard (.addBalanceHistory row) context ∧
        ok () { context with
          addedBalanceHistories := context.addedBalanceHistories ++ [row] } :=
  respects_issue_of_effect (.addBalanceHistory row) () (fun _ => rfl) fun _ _ => Iff.rfl

theorem respects_getOwnedInstrument {accountId instrumentId : ℤ}
    {ok : Option OwnedInstrument → DbContext → Prop} :
    @Respects (Option OwnedInstrument) guard
        (issue (.getOwnedInstrument accountId instrumentId)) ok context ↔
      guard (.getOwnedInstrument accountId instrumentId) context ∧ ok none context ∧
        ∀ row : OwnedInstrument, context.Finds accountId instrumentId row →
          ok (some (context.ownedInstruments.resolve row))
            { context with ownedInstruments := context.ownedInstruments.attach row } :=
  respects_issue_of_query (.getOwnedInstrument accountId instrumentId) fun _ _ => Iff.rfl

theorem respects_addOwnedInstrument {row : OwnedInstrument} {ok : Unit → DbContext → Prop} :
    @Respects Unit guard (issue (.addOwnedInstrument row)) ok context ↔
      guard (.addOwnedInstrument row) context ∧
        ok () { context with
          addedOwnedInstruments := context.addedOwnedInstruments ++ [row] } :=
  respects_issue_of_effect (.addOwnedInstrument row) () (fun _ => rfl) fun _ _ => Iff.rfl

theorem respects_updateOwnedInstrument {row : OwnedInstrument}
    {ok : Unit → DbContext → Prop} :
    @Respects Unit guard (issue (.updateOwnedInstrument row)) ok context ↔
      guard (.updateOwnedInstrument row) context ∧
        ok () { context with
          ownedInstruments := context.ownedInstruments.update row } :=
  respects_issue_of_effect (.updateOwnedInstrument row) () (fun _ => rfl) fun _ _ => Iff.rfl

theorem respects_getTradesWhere {filter : DateTime → Trade → Bool}
    {ok : List Trade → DbContext → Prop} :
    @Respects (List Trade) guard (issue (.getTradesWhere filter)) ok context ↔
      guard (.getTradesWhere filter) context ∧
        ∀ rows : List Trade, (rows.map Trade.id).Nodup →
          ok (context.trades.attachAll rows).1
            { context with trades := (context.trades.attachAll rows).2 } := by
  rw [respects_issue (.getTradesWhere filter)]
  refine and_congr Iff.rfl ⟨fun h rows hrows => h _ _ ⟨rows, hrows, rfl, rfl⟩, ?_⟩
  rintro h value context' ⟨rows, hrows, rfl, rfl⟩
  exact h rows hrows

theorem respects_addTrade {row : Trade} {ok : Unit → DbContext → Prop} :
    @Respects Unit guard (issue (.addTrade row)) ok context ↔
      guard (.addTrade row) context ∧
        ok () { context with addedTrades := context.addedTrades ++ [row] } :=
  respects_issue_of_effect (.addTrade row) () (fun _ => rfl) fun _ _ => Iff.rfl

theorem respects_updateTrade {row : Trade} {ok : Unit → DbContext → Prop} :
    @Respects Unit guard (issue (.updateTrade row)) ok context ↔
      guard (.updateTrade row) context ∧
        ok () { context with trades := context.trades.update row } :=
  respects_issue_of_effect (.updateTrade row) () (fun _ => rfl) fun _ _ => Iff.rfl

theorem respects_beginTransaction {ok : Unit → DbContext → Prop} :
    @Respects Unit guard (issue .beginTransaction) ok context ↔
      guard .beginTransaction context ∧ ok () { context with transaction := some [] } :=
  respects_issue_of_effect .beginTransaction () (fun _ => rfl) fun _ _ => Iff.rfl

theorem respects_saveChanges {ok : Unit → DbContext → Prop} :
    @Respects Unit guard (issue .saveChanges) ok context ↔
      guard .saveChanges context ∧
        ∀ shared, ok () (World.saveChanges (shared, context)).2 := by
  rw [respects_issue .saveChanges]
  refine and_congr Iff.rfl ⟨fun h shared => h _ _ ⟨shared, rfl⟩, ?_⟩
  rintro h value context' ⟨shared, rfl⟩
  exact h shared

theorem respects_getInstrument {instrumentId : ℤ}
    {ok : Option Instrument → DbContext → Prop} :
    @Respects (Option Instrument) guard (issue (.getInstrument instrumentId)) ok context ↔
      guard (.getInstrument instrumentId) context ∧ ∀ value, ok value context :=
  respects_issue_of_read (.getInstrument instrumentId) fun _ _ => Iff.rfl

theorem respects_getAllInstruments {ok : List Instrument → DbContext → Prop} :
    @Respects (List Instrument) guard (issue .getAllInstruments) ok context ↔
      guard .getAllInstruments context ∧ ∀ value, ok value context :=
  respects_issue_of_read .getAllInstruments fun _ _ => Iff.rfl

theorem respects_getProduct {productId : ℤ} {ok : Option Product → DbContext → Prop} :
    @Respects (Option Product) guard (issue (.getProduct productId)) ok context ↔
      guard (.getProduct productId) context ∧ ∀ value, ok value context :=
  respects_issue_of_read (.getProduct productId) fun _ _ => Iff.rfl

theorem respects_getProducts {ok : List Product → DbContext → Prop} :
    @Respects (List Product) guard (issue .getProducts) ok context ↔
      guard .getProducts context ∧ ∀ value, ok value context :=
  respects_issue_of_read .getProducts fun _ _ => Iff.rfl

theorem respects_getPricesByInstrumentId {id : ℤ} {count : ℕ}
    {ok : List Price → DbContext → Prop} :
    @Respects (List Price) guard (issue (.getPricesByInstrumentId id count)) ok context ↔
      guard (.getPricesByInstrumentId id count) context ∧ ∀ value, ok value context :=
  respects_issue_of_read (.getPricesByInstrumentId id count) fun _ _ => Iff.rfl

theorem respects_getLatestPrices {ok : List Price → DbContext → Prop} :
    @Respects (List Price) guard (issue .getLatestPrices) ok context ↔
      guard .getLatestPrices context ∧ ∀ value, ok value context :=
  respects_issue_of_read .getLatestPrices fun _ _ => Iff.rfl

theorem respects_scoreTradeAsync {query : FraudQuery} {ok : ℚ → DbContext → Prop} :
    @Respects ℚ guard (issue (.scoreTradeAsync query)) ok context ↔
      guard (.scoreTradeAsync query) context ∧ ∀ value, ok value context :=
  respects_issue_of_read (.scoreTradeAsync query) fun _ _ => Iff.rfl

theorem respects_utcNow {ok : DateTime → DbContext → Prop} :
    @Respects DateTime guard (issue .utcNow) ok context ↔
      guard .utcNow context ∧ ∀ value, ok value context :=
  respects_issue_of_read .utcNow fun _ _ => Iff.rfl

theorem respects_onTradeClosed {trade : Trade} {ok : Unit → DbContext → Prop} :
    @Respects Unit guard (issue (.onTradeClosed trade)) ok context ↔
      guard (.onTradeClosed trade) context ∧ ok () context :=
  respects_issue_of_effect (.onTradeClosed trade) () (fun _ => rfl) fun _ _ => Iff.rfl

/-! ## Rules for the helpers of the services -/

theorem respects_notNull {value : Option α} {ok : α → DbContext → Prop} :
    Respects guard (notNull value) ok context ↔ ∀ v, value = some v → ok v context := by
  cases value <;> simp [notNull]

theorem respects_index {dictionary : ℤ → Option α} {key : ℤ} {ok : α → DbContext → Prop} :
    Respects guard (index dictionary key) ok context ↔
      ∀ v, dictionary key = some v → ok v context := by
  rw [index]
  cases dictionary key <;> simp

theorem respects_ofExcept {result : Except BrokerException α} {ok : α → DbContext → Prop} :
    Respects guard (ofExcept result) ok context ↔ ∀ v, result = .ok v → ok v context := by
  cases result <;> simp [ofExcept]

theorem respects_toDictionary {key : α → ℤ} {items : List α}
    {ok : (ℤ → Option α) → DbContext → Prop} :
    Respects guard (toDictionary key items) ok context ↔
      (firstRepeated [] (items.map key) = none →
        ok (fun k => items.find? fun item => key item = k) context) := by
  rw [toDictionary]
  cases firstRepeated [] (items.map key) <;> simp

/-- The save is what a request answers for: after it the request only commits,
or rolls back. -/
theorem respects_saveChangesOrRollback {ok : Unit → DbContext → Prop}
    (hend : ∀ context, guard .commitTransaction context ∧ guard .rollbackTransaction context)
    (hsave : guard .saveChanges context)
    (hok : ∀ shared, ok ()
      { (World.saveChanges (shared, context)).2 with transaction := none }) :
    Respects guard saveChangesOrRollback ok context := by
  have hrollback : ∀ (error : BrokerException) (context : DbContext),
      Respects guard (issue .rollbackTransaction >>= fun _ => throw (.db error)) ok
        context := by
    intro error context
    rw [respects_bind, respects_issue .rollbackTransaction]
    exact ⟨(hend context).2, fun _ _ _ => trivial⟩
  rw [Respects, saveChangesOrRollback, wp_tryCatch, wp_bind, issue, wp_perform]
  refine ⟨hsave, ?_⟩
  rintro answer middle (⟨value, rfl, shared, rfl⟩ | ⟨error, rfl, rfl⟩)
  · rw [andThen_ok, issue, wp_perform]
    refine ⟨(hend _).1, ?_⟩
    rintro answer final (⟨value, rfl, rfl⟩ | ⟨error, rfl, rfl⟩)
    · exact hok shared
    · exact hrollback error _
  · exact hrollback error _

end Rules

/-! ## What the methods of `TradeServiceBase` do to a context -/

/-- The commands about which no request here has anything to prove. -/
def Command.isRoutine : Command → Bool
  | .getOwnedInstrument _ _ | .getOwnedInstrumentsOfAccount _ | .updateOwnedInstrument _
  | .saveChanges => false
  | _ => true

namespace DbContext

/-- The trader's side of a trade: two history rows and the new balance. -/
def charge (context : DbContext) (balance : Balance) (income ppt : ℚ)
    (actionType : ActionType) (tradeDate feeDate : DateTime) : DbContext :=
  { context with
    balances := context.balances.update
      { balance with value := balance.value + income - ppt }
    addedBalanceHistories := context.addedBalanceHistories ++
      [BalanceHistory.ofAction balance.accountId balance.value income actionType tradeDate,
        BalanceHistory.ofAction balance.accountId (balance.value + income) (-ppt)
          .transactionFee feeDate] }

/-- The owner's side, with the row of the owner as it is found at that moment. -/
def collect (context : DbContext) (row : Balance) (fee : ℚ) (now : DateTime) : DbContext :=
  let owner := context.balances.resolve row
  { context with
    balances := (context.balances.attach row).update
      { owner with value := owner.value + fee }
    addedBalanceHistories := context.addedBalanceHistories ++
      [BalanceHistory.ofAction ownerId owner.value fee .collectFee now] }

/-- A holding that was found, with its new quantity. -/
def hold (context : DbContext) (ownedInstrument : OwnedInstrument) (amount : ℚ)
    (now : DateTime) : DbContext :=
  { context with
    ownedInstruments := context.ownedInstruments.update
      { ownedInstrument with
        quantity := ownedInstrument.quantity + amount
        lastModificationDate := now } }

/-- A holding that was not found. -/
def addHolding (context : DbContext) (accountId instrumentId : ℤ) (amount : ℚ)
    (now : DateTime) : DbContext :=
  { context with
    addedOwnedInstruments := context.addedOwnedInstruments ++
      [OwnedInstrument.new accountId instrumentId amount now] }

/-- The context after reading a holding. -/
def readHolding (context : DbContext) (row : OwnedInstrument) : DbContext :=
  { context with ownedInstruments := context.ownedInstruments.attach row }

/-- The object that is handed out may be rewritten. -/
theorem hasRead_readHolding (context : DbContext) (row : OwnedInstrument) (quantity : ℚ)
    (date : DateTime) :
    (context.readHolding row).HasRead { context.ownedInstruments.resolve row with
      quantity := quantity
      lastModificationDate := date } := by
  have htracked : ((context.ownedInstruments.attach row).find? row.id).map Tracked.current =
      some (context.ownedInstruments.resolve row) := IdentityMap.find?_attach row
  obtain ⟨entry, hentry, hcurrent⟩ := Option.map_eq_some_iff.mp htracked
  have hid : entry.current.id = (context.ownedInstruments.resolve row).id := by rw [hcurrent]
  have hpair : entry.current.pair = (context.ownedInstruments.resolve row).pair := by rw [hcurrent]
  exact ⟨entry, Table.mem_of_find? hentry, hid, hpair⟩

end DbContext

namespace TradeServiceBase

variable {guard : Command → DbContext → Prop} {context : DbContext}

theorem collectFee_respects {fee : ℚ} {ok : Unit → DbContext → Prop}
    (hguard : ∀ command context, command.isRoutine = true → guard command context)
    (hok : ∀ (row : Balance) now, row.accountId = ownerId →
      ok () (context.collect row fee now)) :
    Respects guard (collectFee fee) ok context := by
  simp only [collectFee, respects_bind, respects_getBalanceOfAccount, respects_notNull,
    respects_utcNow, respects_addBalanceHistory, respects_updateBalance,
    hguard (.getBalanceOfAccount _) _ rfl, hguard .utcNow _ rfl,
    hguard (.addBalanceHistory _) _ rfl, hguard (.updateBalance _) _ rfl, true_and,
    reduceCtorEq, false_implies, implies_true, Option.some.injEq, forall_eq']
  exact fun row hrow now => hok row now hrow

theorem updateBalance_respects {balance : Balance} {amount ppt : ℚ}
    {actionType : ActionType} {ok : Unit → DbContext → Prop}
    (hguard : ∀ command context, command.isRoutine = true → guard command context)
    (hok : ∀ (row : Balance) tradeDate feeDate now, row.accountId = ownerId →
      ok () ((context.charge balance (incomeOf actionType amount) ppt actionType tradeDate
        feeDate).collect row ppt now)) :
    Respects guard (updateBalance balance amount ppt actionType) ok context := by
  simp only [updateBalance, respects_bind, respects_utcNow, respects_addBalanceHistory,
    respects_updateBalance, hguard .utcNow _ rfl, hguard (.addBalanceHistory _) _ rfl,
    hguard (.updateBalance _) _ rfl, true_and]
  intro tradeDate feeDate
  refine collectFee_respects hguard fun row now hrow => ?_
  simpa [DbContext.charge] using hok row tradeDate feeDate now hrow

theorem updateOwnedInstrument_respects {ownedInstrument : OwnedInstrument} {amount : ℚ}
    {ok : Unit → DbContext → Prop}
    (hguard : ∀ command context, command.isRoutine = true → guard command context)
    (hwrite : ∀ now, guard (.updateOwnedInstrument
      { ownedInstrument with
        quantity := ownedInstrument.quantity + amount
        lastModificationDate := now }) context)
    (hok : ∀ now, ok () (context.hold ownedInstrument amount now)) :
    Respects guard (updateOwnedInstrument ownedInstrument amount) ok context := by
  simp only [updateOwnedInstrument, respects_bind, respects_utcNow,
    respects_updateOwnedInstrument, hguard .utcNow _ rfl, true_and]
  exact fun now => ⟨hwrite now, hok now⟩

theorem updateOwnedInstrumentOf_respects {accountId instrumentId : ℤ} {amount : ℚ}
    {ok : Unit → DbContext → Prop}
    (hguard : ∀ command context, command.isRoutine = true → guard command context)
    (hread : guard (.getOwnedInstrument accountId instrumentId) context)
    (hadd : ∀ now, ok () (context.addHolding accountId instrumentId amount now))
    (hfound : ∀ row : OwnedInstrument, context.Finds accountId instrumentId row →
      Respects guard
        (updateOwnedInstrument (context.ownedInstruments.resolve row) amount) ok
        (context.readHolding row)) :
    Respects guard (updateOwnedInstrumentOf accountId instrumentId amount) ok context := by
  simp only [updateOwnedInstrumentOf, respects_bind, respects_getOwnedInstrument,
    respects_utcNow, respects_addOwnedInstrument, hguard .utcNow _ rfl,
    hguard (.addOwnedInstrument _) _ rfl, true_and]
  exact ⟨hread, hadd, hfound⟩

end TradeServiceBase

/-- The context of a quick trade before the charges: a balance has been read and
the trade is waiting to be inserted. -/
def DbContext.opened (context : DbContext) (row : Balance) (trade : Trade) : DbContext :=
  { context with
    balances := context.balances.attach row
    addedTrades := context.addedTrades ++ [trade]
    transaction := some [] }

namespace TradeService

open TradeServiceBase

variable {guard : Command → DbContext → Prop} {context : DbContext}
variable {environment : Environment} {accountId instrumentId : ℤ} {amount : ℚ}

theorem checkFraud_respects {query : FraudQuery} {ok : ℚ → DbContext → Prop}
    (hguard : ∀ command context, command.isRoutine = true → guard command context)
    (hok : ∀ fraudScore, ok fraudScore context) :
    Respects guard (checkFraud environment query) ok context := by
  rw [checkFraud]
  split_ifs
  · exact respects_scoreTradeAsync.mpr ⟨hguard _ _ rfl, hok⟩
  · exact hok 0

/-- A quick buy comes down to the charges and to what is done with the holding. -/
theorem buyAssets_respects
    (hguard : ∀ command context, command.isRoutine = true → guard command context)
    (hrest : ∀ (row owner : Balance) (trade : Trade) (income ppt : ℚ) tradeDate feeDate now,
      row.accountId = accountId → owner.accountId = ownerId →
      Respects guard (updateOwnedInstrumentOf accountId instrumentId amount)
        (fun _ context => Respects guard saveChangesOrRollback (fun _ _ => True) context)
        (((DbContext.fresh.opened row trade).charge
          (DbContext.fresh.balances.resolve row) income ppt .buy tradeDate feeDate).collect
            owner ppt now)) :
    Respects guard (buyAssets environment accountId instrumentId amount) (fun _ _ => True)
      DbContext.fresh := by
  rw [buyAssets, respects_bind, validateInput]
  split_ifs
  · trivial
  simp only [respects_pure, respects_bind, respects_getBalanceOfAccount]
  refine ⟨hguard _ _ rfl, trivial, fun row hrow => ?_⟩
  rw [respects_getInstrument]
  refine ⟨hguard _ _ rfl, fun instrument => ?_⟩
  cases instrument with
  | none => trivial
  | some instrument =>
  simp only [respects_bind, getLastPriceByInstrumentId, respects_getPricesByInstrumentId,
    respects_notNull, respects_getProduct, respects_pure,
    hguard (.getPricesByInstrumentId _ _) _ rfl, hguard (.getProduct _) _ rfl, true_and]
  intro prices price hprice product' product hproduct
  split_ifs
  · trivial
  simp only [respects_bind, respects_beginTransaction, respects_utcNow, respects_addTrade,
    respects_pure]
  refine checkFraud_respects hguard fun _ => ?_
  simp only [hguard .beginTransaction _ rfl, hguard .utcNow _ rfl, hguard (.addTrade _) _ rfl,
    true_and]
  intro opened closed
  refine updateBalance_respects hguard fun owner tradeDate feeDate now howner => ?_
  exact hrest row owner _ _ _ tradeDate feeDate now hrow howner

end TradeService

end EasyTrade.Broker

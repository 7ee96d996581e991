import EasyTrade.Broker.Services

/-!
# Requests whose commands do their work

What the broker decides by itself shows in the runs in which no database, client or other
service fails.  Such a run always exists, and every error in it comes from the service.
-/

namespace EasyTrade.Broker

open EasyTrade.Program

/-- Every command does its work; time passes between two of them. -/
def works (environment : Environment) : Semantics BrokerException Command.Answer World :=
  fun command world answer world' => ∃ time, world.1.clock ≤ time ∧
    command.run environment (world.tick time) = (answer, world')

theorem step_of_works {environment : Environment} {command : Command} {world world' : World}
    {answer : Except BrokerException command.Answer}
    (hworks : works environment command world answer world') :
    step environment command world answer world' := Or.inl hworks

theorem clock_run (environment : Environment) (command : Command) (world : World) :
    (command.run environment world).2.1.clock = world.1.clock := by
  cases command with
  | saveChanges =>
    simp only [Command.run, World.saveChanges]
    split <;> rfl
  | getBalanceOfAccount | getOwnedInstrument | beginTransaction | commitTransaction
  | rollbackTransaction =>
    simp only [Command.run]
    split <;> rfl
  | _ => rfl

/-- There is a run that takes no time. -/
theorem exists_exec_works (environment : Environment) {α : Type} (program : Request α)
    (world : World) : ∃ outcome final, Exec (works environment) program world outcome final ∧
      final.1.clock = world.1.clock := by
  induction program generalizing world with
  | done value => exact ⟨.ok value, world, ⟨rfl, rfl⟩, rfl⟩
  | raise error => exact ⟨.error error, world, ⟨rfl, rfl⟩, rfl⟩
  | call command next ih =>
    have hworks : works environment command world
        (command.run environment (world.tick world.1.clock)).1
        (command.run environment (world.tick world.1.clock)).2 :=
      ⟨world.1.clock, le_rfl, rfl⟩
    obtain ⟨outcome, final, hexec, hclock⟩ := ih
      (command.run environment (world.tick world.1.clock)).1
      (command.run environment (world.tick world.1.clock)).2
    exact ⟨outcome, final, ⟨_, _, hworks, hexec⟩,
      hclock.trans (clock_run environment command _)⟩

/-- A command that does its work at the given time. -/
def workAt (environment : Environment) (command : Command) (time : DateTime) (world : World) :
    Option (Except BrokerException command.Answer × World) :=
  if world.1.clock ≤ time then some (command.run environment (world.tick time)) else none

theorem works_of_workAt {environment : Environment} {command : Command} {time : DateTime}
    {world world' : World} {answer : Except BrokerException command.Answer}
    (hwork : workAt environment command time world = some (answer, world')) :
    works environment command world answer world' := by
  unfold workAt at hwork
  split_ifs at hwork with htime
  exact ⟨time, htime, Option.some.inj hwork⟩

theorem exists_works_of_replay (environment : Environment) {α : Type} (program : Request α)
    (script : List DateTime) (world : World) (check : Except BrokerException α → World → Bool)
    (hreplay : (replay (workAt environment) program script world).any
      (fun result => check result.1 result.2) = true) :
    ∃ outcome final, check outcome final = true ∧
      Exec (works environment) program world outcome final := by
  have hwork : ∀ command time world answer world',
      workAt environment command time world = some (answer, world') →
        works environment command world answer world' := fun _ _ _ _ _ => works_of_workAt
  exact exists_exec hwork program script world check hreplay

/-- However a smooth run of the program ends, it ends with `post`. -/
def Smoothly (environment : Environment) {α : Type} (program : Request α)
    (post : Except BrokerException α → World → Prop) (world : World) : Prop :=
  wp (works environment) (fun _ _ => True) program post world

section Rules

variable {environment : Environment} {α β : Type} {world : World}

theorem smoothly_iff {program : Request α} {post : Except BrokerException α → World → Prop} :
    Smoothly environment program post world ↔
      ∀ outcome final, Exec (works environment) program world outcome final →
        post outcome final := wp_iff_forall_exec

theorem Smoothly.mono {program : Request α} {post post' : Except BrokerException α → World → Prop}
    (hpost : ∀ outcome final, post outcome final → post' outcome final)
    (h : Smoothly environment program post world) :
    Smoothly environment program post' world := wp_mono hpost h

theorem smoothly_pure (value : α) {post : Except BrokerException α → World → Prop} :
    Smoothly environment (pure value) post world ↔ post (.ok value) world := Iff.rfl

theorem smoothly_bind (program : Request α) (next : α → Request β)
    {post : Except BrokerException β → World → Prop} :
    Smoothly environment (program >>= next) post world ↔
      Smoothly environment program
        (andThen (fun value => Smoothly environment (next value) post) post) world :=
  wp_bind program next

theorem smoothly_issue (command : Command)
    {post : Except BrokerException command.Answer → World → Prop} :
    Smoothly environment (issue command) post world ↔
      ∀ time, world.1.clock ≤ time →
        post (command.run environment (world.tick time)).1
          (command.run environment (world.tick time)).2 := by
  rw [Smoothly, issue, wp_perform, true_and]
  constructor
  · intro hpost time htime
    exact hpost _ _ ⟨time, htime, rfl⟩
  · intro hpost answer world' hworks
    obtain ⟨time, htime, hrun⟩ := hworks
    have hdone := hpost time htime
    rw [hrun] at hdone
    exact hdone

/-! ### Reading -/

theorem smoothly_getBalanceOfAccount {accountId : ℤ} {balance : Balance}
    {post : Except BrokerException (Option Balance) → World → Prop}
    (hbalance : (world.view.balances.find? accountId).map world.2.balances.resolve = some balance)
    (hpost : ∀ time entries, world.1.clock ≤ time →
      post (.ok (some balance)) ({ world.1 with clock := time },
        { world.2 with balances := entries })) :
    Smoothly environment (issue (.getBalanceOfAccount accountId)) post world := by
  obtain ⟨row, hrow, rfl⟩ := Option.map_eq_some_iff.mp hbalance
  have hview : ∀ time, (world.tick time).view.balances.find? accountId = some row :=
    fun _ => hrow
  rw [smoothly_issue]
  intro time htime
  simp only [Command.run, hview]
  exact hpost time _ htime

theorem smoothly_getInstrument {instrumentId : ℤ} {answer : Option Instrument}
    {post : Except BrokerException (Option Instrument) → World → Prop}
    (hanswer : world.view.instruments.find? instrumentId = answer)
    (hpost : ∀ time, world.1.clock ≤ time → post (.ok answer) (world.tick time)) :
    Smoothly environment (issue (.getInstrument instrumentId)) post world := by
  subst hanswer
  exact (smoothly_issue _).mpr hpost

theorem smoothly_getProduct {productId : ℤ} {answer : Option Product}
    {post : Except BrokerException (Option Product) → World → Prop}
    (hanswer : world.view.products.find? productId = answer)
    (hpost : ∀ time, world.1.clock ≤ time → post (.ok answer) (world.tick time)) :
    Smoothly environment (issue (.getProduct productId)) post world := by
  subst hanswer
  exact (smoothly_issue _).mpr hpost

theorem smoothly_getLastPriceByInstrumentId {instrumentId : ℤ}
    {post : Except BrokerException (Option Price) → World → Prop}
    (hpost : ∀ time, world.1.clock ≤ time →
      post (.ok (pricesOfResponse (environment.pricesByInstrumentId instrumentId 1)).head?)
        (world.tick time)) :
    Smoothly environment (getLastPriceByInstrumentId instrumentId) post world :=
  (smoothly_bind _ _).mpr ((smoothly_issue _).mpr hpost)

theorem smoothly_notNull {value : α} {post : Except BrokerException α → World → Prop}
    (hpost : post (.ok value) world) :
    Smoothly environment (notNull (some value)) post world := hpost

end Rules

/-! ## Errors of the service's own -/

/-- The broker turned a request down for lack of money. -/
def LacksMoney {α : Type} (outcome : Except BrokerException α) : Prop :=
  ∃ message missing, outcome = .error (.notEnoughMoney message missing)

/-- No smooth run of the program ends with a lack of money. -/
def NeverLacksMoney {α : Type} (environment : Environment) (program : Request α) : Prop :=
  ∀ world, Smoothly environment program (fun outcome _ => ¬ LacksMoney outcome) world

section LacksMoney

variable {environment : Environment} {α β : Type}

theorem not_lacksMoney_ok (value : α) : ¬ LacksMoney (.ok value) := by
  rintro ⟨message, missing, houtcome⟩
  cases houtcome

theorem neverLacksMoney_pure (value : α) : NeverLacksMoney environment (pure value) :=
  fun _ => not_lacksMoney_ok value

theorem neverLacksMoney_throw {error : BrokerException}
    (herror : ¬ LacksMoney (.error error : Except BrokerException α)) :
    NeverLacksMoney environment (throw error : Request α) := fun _ => herror

theorem neverLacksMoney_issue (command : Command) :
    NeverLacksMoney environment (issue command) := by
  intro world
  rw [smoothly_issue]
  intro time _
  generalize world.tick time = world
  rintro ⟨message, missing, houtcome⟩
  cases command <;> simp only [Command.run] at houtcome <;>
    first
      | cases houtcome
      | split at houtcome <;> cases houtcome

theorem neverLacksMoney_bind {program : Request α} {next : α → Request β}
    (hprogram : NeverLacksMoney environment program)
    (hnext : ∀ value, NeverLacksMoney environment (next value)) :
    NeverLacksMoney environment (program >>= next) := by
  intro world
  rw [smoothly_bind]
  refine (hprogram world).mono fun outcome final houtcome => ?_
  cases outcome with
  | ok value => exact hnext value final
  | error error =>
    rintro ⟨message, missing, herror⟩
    cases herror
    exact houtcome ⟨message, missing, rfl⟩

theorem neverLacksMoney_notNull (value : Option α) :
    NeverLacksMoney environment (notNull value) := by
  cases value with
  | none => exact neverLacksMoney_throw fun ⟨_, _, herror⟩ => nomatch herror
  | some value => exact neverLacksMoney_pure value

theorem neverLacksMoney_saveChangesOrRollback :
    NeverLacksMoney environment saveChangesOrRollback := by
  intro world
  have htry : ∀ world, Smoothly environment (do
      issue .saveChanges
      issue .commitTransaction) (fun outcome _ => ¬ LacksMoney outcome) world :=
    neverLacksMoney_bind (neverLacksMoney_issue _) fun _ => neverLacksMoney_issue _
  have hcatch : ∀ (exception : BrokerException) world, Smoothly environment (do
      issue .rollbackTransaction
      throw (.db exception)) (fun (outcome : Except BrokerException Unit) _ =>
        ¬ LacksMoney outcome) world := fun exception =>
    neverLacksMoney_bind (neverLacksMoney_issue _) fun _ =>
      neverLacksMoney_throw fun ⟨_, _, herror⟩ => nomatch herror
  rw [saveChangesOrRollback, Smoothly]
  refine (wp_tryCatch _ _).mpr ((htry world).mono fun outcome final houtcome => ?_)
  cases outcome with
  | ok value => exact houtcome
  | error exception => exact hcatch exception final

theorem neverLacksMoney_collectFee (fee : ℚ) :
    NeverLacksMoney environment (TradeServiceBase.collectFee fee) :=
  neverLacksMoney_bind (neverLacksMoney_issue _) fun _ =>
    neverLacksMoney_bind (neverLacksMoney_notNull _) fun _ =>
      neverLacksMoney_bind (neverLacksMoney_issue _) fun _ =>
        neverLacksMoney_bind (neverLacksMoney_issue _) fun _ => neverLacksMoney_issue _

theorem neverLacksMoney_updateBalance (balance : Balance) (amount ppt : ℚ)
    (actionType : ActionType) :
    NeverLacksMoney environment (TradeServiceBase.updateBalance balance amount ppt actionType) :=
  neverLacksMoney_bind (neverLacksMoney_issue _) fun _ =>
    neverLacksMoney_bind (neverLacksMoney_issue _) fun _ =>
      neverLacksMoney_bind (neverLacksMoney_issue _) fun _ =>
        neverLacksMoney_bind (neverLacksMoney_issue _) fun _ =>
          neverLacksMoney_bind (neverLacksMoney_issue _) fun _ => neverLacksMoney_collectFee ppt

theorem neverLacksMoney_updateOwnedInstrument (ownedInstrument : OwnedInstrument) (amount : ℚ) :
    NeverLacksMoney environment
      (TradeServiceBase.updateOwnedInstrument ownedInstrument amount) :=
  neverLacksMoney_bind (neverLacksMoney_issue _) fun _ => neverLacksMoney_issue _

theorem neverLacksMoney_updateOwnedInstrumentOf (accountId instrumentId : ℤ) (amount : ℚ) :
    NeverLacksMoney environment
      (TradeServiceBase.updateOwnedInstrumentOf accountId instrumentId amount) := by
  refine neverLacksMoney_bind (neverLacksMoney_issue _) fun found => ?_
  cases found with
  | none => exact neverLacksMoney_bind (neverLacksMoney_issue _) fun _ => neverLacksMoney_issue _
  | some ownedInstrument => exact neverLacksMoney_updateOwnedInstrument ownedInstrument amount

theorem neverLacksMoney_checkFraud (query : FraudQuery) :
    NeverLacksMoney environment (TradeService.checkFraud environment query) := by
  unfold TradeService.checkFraud
  split_ifs
  · exact neverLacksMoney_issue _
  · exact neverLacksMoney_pure 0

end LacksMoney

/-! ## Notifications -/

/-- Every command but the notification of the engine service. -/
def Command.isQuiet : Command → Bool
  | onTradeClosed _ => false
  | _ => true

/-- A program that notifies nobody. -/
def Quiet {α : Type} (program : Request α) : Prop :=
  program.Issues fun command => command.isQuiet = true

section Quiet

variable {environment : Environment} {α β : Type}

theorem quiet_issue {command : Command} (hquiet : command.isQuiet = true) :
    Quiet (issue command) :=
  Prog.issues_perform (P := fun command : Command => command.isQuiet = true) hquiet

theorem quiet_bind {program : Request α} {next : α → Request β} (hprogram : Quiet program)
    (hnext : ∀ value, Quiet (next value)) : Quiet (program >>= next) :=
  Prog.issues_bind hprogram hnext

theorem quiet_notNull (value : Option α) : Quiet (notNull value) := by
  cases value <;> trivial

theorem quiet_updateBalance (balance : Balance) (amount ppt : ℚ) (actionType : ActionType) :
    Quiet (TradeServiceBase.updateBalance balance amount ppt actionType) := by
  refine quiet_bind (quiet_issue rfl) fun tradeDate => ?_
  refine quiet_bind (quiet_issue rfl) fun _ => ?_
  refine quiet_bind (quiet_issue rfl) fun feeDate => ?_
  refine quiet_bind (quiet_issue rfl) fun _ => ?_
  refine quiet_bind (quiet_issue rfl) fun _ => ?_
  refine quiet_bind (quiet_issue rfl) fun found => ?_
  refine quiet_bind (quiet_notNull found) fun ownerBalance => ?_
  refine quiet_bind (quiet_issue rfl) fun collectDate => ?_
  exact quiet_bind (quiet_issue rfl) fun _ => quiet_issue rfl

theorem quiet_updateOwnedInstrumentOf (accountId instrumentId : ℤ) (amount : ℚ) :
    Quiet (TradeServiceBase.updateOwnedInstrumentOf accountId instrumentId amount) := by
  refine quiet_bind (quiet_issue rfl) fun found => ?_
  cases found with
  | none => exact quiet_bind (quiet_issue rfl) fun _ => quiet_issue rfl
  | some ownedInstrument => exact quiet_bind (quiet_issue rfl) fun _ => quiet_issue rfl

theorem closedTrades_run {command : Command} (hquiet : command.isQuiet = true)
    (environment : Environment) (world : World) :
    (command.run environment world).2.1.closedTrades = world.1.closedTrades := by
  cases command with
  | onTradeClosed trade => exact absurd hquiet Bool.false_ne_true
  | saveChanges =>
    simp only [Command.run, World.saveChanges]
    split <;> rfl
  | getBalanceOfAccount | getOwnedInstrument | beginTransaction | commitTransaction
  | rollbackTransaction =>
    simp only [Command.run]
    split <;> rfl
  | _ => rfl

/-- A program without notifications leaves the list of notifications alone. -/
theorem closedTrades_of_quiet {program : Request α} (hquiet : Quiet program) (world : World) :
    Smoothly environment program
      (fun _ final => final.1.closedTrades = world.1.closedTrades) world := by
  induction program generalizing world with
  | done value => rfl
  | raise error => rfl
  | call command next ih =>
    refine ⟨trivial, fun answer world' hworks => ?_⟩
    obtain ⟨time, -, hrun⟩ := hworks
    have hkept : world'.1.closedTrades = world.1.closedTrades := by
      have hcommand := closedTrades_run hquiet.1 environment (world.tick time)
      rw [hrun] at hcommand
      exact hcommand
    exact (ih answer (hquiet.2 answer) world').mono fun _ final hfinal => hfinal.trans hkept

/-- A trade that is closed is reported as it is closed. -/
theorem smoothly_closeTrade (trade : Trade) (status : String) (happened : Bool)
    (world : World) :
    Smoothly environment (LongTradeService.closeTrade trade status happened)
      (fun _ final => final.1.closedTrades =
        world.1.closedTrades ++ [trade.close status happened]) world := by
  rw [LongTradeService.closeTrade, smoothly_bind, smoothly_issue]
  intro first _
  rw [Command.run, andThen_ok, smoothly_issue]
  intro second _
  rfl

end Quiet

end EasyTrade.Broker

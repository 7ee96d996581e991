import EasyTrade.Broker.HoldingRows
import EasyTrade.Broker.Requests

/-!
# Requests at work at the same time

Any number of requests issue their commands in any order, each with a context of
its own.  What becomes of the tables is decided by the commits, one after the
other, each with the statements its transaction has sent; so an argument about
all interleavings is an argument about the statements of one request, whatever
it has read, and about one commit.
-/

namespace EasyTrade.Broker

open EasyTrade.Program EasyTrade.Interleaving

/-- What a command, which has returned or thrown, has done to the committed tables
and to the transaction of its request. -/
inductive Progress (shared : Shared) (context : DbContext) (shared' : Shared)
    (context' : DbContext) : Command → (returned : Bool) → Prop
  /-- Nothing becomes visible and nothing is sent. -/
  | internal {command : Command} {returned : Bool}
      (hdatabase : shared'.database = shared.database)
      (hbinlog : shared'.binlog = shared.binlog)
      (htransaction : context'.transaction = context.transaction ∨
        context'.transaction = none ∨ context'.transaction = some []) :
      Progress shared context shared' context' command returned
  /-- A save inside a transaction. -/
  | sends {sent : List Write} (seen : Shared)
      (hdatabase : shared'.database = shared.database)
      (hbinlog : shared'.binlog = shared.binlog)
      (hsent : context.transaction = some sent)
      (htransaction : context'.transaction = some (sent ++ World.unsaved (seen, context))) :
      Progress shared context shared' context' .saveChanges true
  /-- A save without a transaction. -/
  | saves (htransaction : context.transaction = none) :
      Progress shared context shared' context' .saveChanges true
  | commits {sent : List Write}
      (hsent : context.transaction = some sent)
      (hdatabase : shared'.database = shared.database.applyAll sent)
      (hbinlog : shared'.binlog = shared.binlog ++ [sent])
      (hcontext : context' = { context with transaction := none }) :
      Progress shared context shared' context' .commitTransaction true

theorem Progress.of_run (environment : Environment) (command : Command) (world : World) :
    Progress world.1 world.2 (command.run environment world).2.1
      (command.run environment world).2.2 command (command.run environment world).1.isOk := by
  cases command with
  | getBalanceOfAccount accountId =>
      simp only [Command.run]
      split <;> exact .internal rfl rfl (Or.inl rfl)
  | getOwnedInstrument accountId instrumentId =>
      simp only [Command.run]
      split <;> exact .internal rfl rfl (Or.inl rfl)
  | beginTransaction =>
      simp only [Command.run]
      split
      · exact .internal rfl rfl (Or.inr (Or.inr rfl))
      · exact .internal rfl rfl (Or.inl rfl)
  | rollbackTransaction =>
      simp only [Command.run]
      split
      · exact .internal rfl rfl (Or.inr (Or.inl rfl))
      · exact .internal rfl rfl (Or.inl rfl)
  | commitTransaction =>
      simp only [Command.run]
      split
      · rename_i sent hsent
        exact .commits hsent rfl rfl rfl
      · exact .internal rfl rfl (Or.inl rfl)
  | saveChanges =>
      cases htransaction : world.2.transaction with
      | none => exact .saves htransaction
      | some sent =>
          simp only [Command.run, World.saveChanges, htransaction]
          exact .sends world.1 rfl rfl htransaction rfl
  | _ => exact .internal rfl rfl (Or.inl rfl)

theorem Progress.of_step {environment : Environment} {command : Command}
    {shared shared' : Shared} {context context' : DbContext}
    {answer : Except BrokerException command.Answer}
    (hstep : step environment command (shared, context) answer (shared', context')) :
    Progress shared context shared' context' command answer.isOk := by
  rcases hstep with ⟨time, -, hrun⟩ | ⟨-, error, rfl, hsame⟩
  · -- the clock is not part of what `Progress` speaks about
    have hprogress := Progress.of_run environment command (World.tick (shared, context) time)
    rw [hrun] at hprogress
    revert hprogress
    generalize answer.isOk = returned
    rintro (⟨hdatabase, hbinlog, htransaction⟩ |
      ⟨seen, hdatabase, hbinlog, hsent, htransaction⟩ | htransaction |
      ⟨hsent, hdatabase, hbinlog, hcontext⟩)
    · exact .internal hdatabase hbinlog htransaction
    · exact .sends seen hdatabase hbinlog hsent htransaction
    · exact .saves htransaction
    · exact .commits hsent hdatabase hbinlog hcontext
  · cases hsame
    exact .internal rfl rfl (Or.inl rfl)

variable {ι : Type} [DecidableEq ι]

/-- Requests at work, each with a context of its own. -/
abbrev Requests (ι : Type) :=
  Config BrokerException Command.Answer ι Shared DbContext Unit

/-- Requests that have just arrived. -/
def Requests.arrive (shared : Shared) (requests : ι → Request Unit) : Requests ι where
  shared := shared
  threads i := ⟨DbContext.fresh, requests i⟩

/-- Any order of the commands of all requests, with any outcome of each. -/
abbrev Interleaves (environment : ι → Environment) : Requests ι → Requests ι → Prop :=
  Reaches fun i => step (environment i)

/-- When a commit succeeds, its statements fit the tables they are applied to. -/
def commitsWhen (fits : Database → List Write → Prop) (command : Command) (world : World)
    (answer : Except BrokerException command.Answer) : Prop :=
  command = .commitTransaction → answer.isOk = true →
    ∀ sent, world.2.transaction = some sent → fits world.1.database sent

/-- The interleavings in which the statements of every commit fit. -/
abbrev InterleavesWhen (fits : Database → List Write → Prop)
    (environment : ι → Environment) : Requests ι → Requests ι → Prop :=
  Reaches (restrict (fun i => step (environment i)) (commitsWhen fits))

section Run

variable {environment : ι → Environment} {fits : Database → List Write → Prop}
variable {guard : Command → DbContext → Prop} {shared : Shared}
variable {requests : ι → Request Unit} {config : Requests ι}
variable (invariant : Database → List (List Write) → Prop)

/-- Run rule.  The requests keep their guards whatever they read, a command of
one keeps what it knows, and a commit keeps the invariant and what all of them
know: then the invariant holds whenever the run is interrupted.  The objects of
the requests are for the accounts and instruments of their rows all the time. -/
theorem invariant_of_commits (knows : Database → DbContext → Prop)
    (hsaves : ∀ context, guard .saveChanges context → context.transaction ≠ none)
    (hreads : ∀ row context, guard (.updateOwnedInstrument row) context → context.HasRead row)
    (hlocal : ∀ i command shared context answer shared' context',
      World.Coherent (shared, context) → knows shared.database context → guard command context →
      step (environment i) command (shared, context) answer (shared', context') →
      shared'.database = shared.database → knows shared.database context')
    (hcommit : ∀ database binlog context sent, invariant database binlog →
      knows database context → context.transaction = some sent → fits database sent →
        invariant (database.applyAll sent) (binlog ++ [sent]) ∧
          knows (database.applyAll sent) { context with transaction := none } ∧
          ∀ other, knows database other → knows (database.applyAll sent) other)
    (hrequests : ∀ i, Respects guard (requests i) (fun _ _ => True) DbContext.fresh)
    (hinvariant : invariant shared.database shared.binlog)
    (hknows : knows shared.database DbContext.fresh)
    (hreaches : InterleavesWhen fits environment (Requests.arrive shared requests) config) :
    invariant config.shared.database config.shared.binlog := by
  let holds : Shared → (ι → DbContext) → Prop := fun shared contexts =>
    invariant shared.database shared.binlog ∧ (∀ i, knows shared.database (contexts i)) ∧
      ∃ pairOf, shared.Assigned pairOf ∧ ∀ i, (contexts i).Assigned pairOf
  have hstart : Guarded (restrict (fun i => step (environment i)) (commitsWhen fits)) holds guard
      (Requests.arrive shared requests) := by
    refine ⟨⟨hinvariant, fun i => hknows, _, assigned_arrive shared, fun i => assigned_fresh⟩,
      fun i => ?_⟩
    refine wp_anti (fun command context answer context' hisolated => ?_)
      (wp_mono (fun _ _ _ => trivial) (hrequests i))
    obtain ⟨before, contexts, after, ⟨-, -, pairOf, hshared, hcontexts⟩, rfl, -, hstep⟩ := hisolated
    exact DbContext.step_of_step (hshared.coherent (hcontexts i)) hstep
  refine (hstart.reaches ?_ hreaches).holds.1
  rintro i command shared contexts answer shared' context' ⟨hinvariant, hknows, pairOf, hshared,
    hcontexts⟩ hguard ⟨hfits, hstep⟩
  obtain ⟨pairOf', hmono, hshared', hcontext'⟩ := assigned_step hshared (hcontexts i)
    (fun row hrow => hreads row _ (hrow ▸ hguard)) (fun hsave => hsaves _ (hsave ▸ hguard)) hstep
  -- what is left to see is what becomes of the tables
  suffices htables : invariant shared'.database shared'.binlog ∧
      knows shared'.database context' ∧
        ∀ other, knows shared.database other → knows shared'.database other by
    obtain ⟨hinvariant', hself, hothers⟩ := htables
    refine ⟨hinvariant', fun j => ?_, pairOf', hshared', fun j => ?_⟩ <;>
      rcases eq_or_ne j i with rfl | hj
    · rwa [Function.update_self]
    · rw [Function.update_of_ne hj]
      exact hothers _ (hknows j)
    · rwa [Function.update_self]
    · rw [Function.update_of_ne hj]
      exact (hcontexts j).mono hmono
  have hcoherent := hshared.coherent (hcontexts i)
  have hprogress := Progress.of_step hstep
  generalize hreturned : answer.isOk = returned at hprogress
  have hquiet : shared'.database = shared.database → shared'.binlog = shared.binlog →
      invariant shared'.database shared'.binlog ∧ knows shared'.database context' ∧
        ∀ other, knows shared.database other → knows shared'.database other := by
    intro hdatabase hbinlog
    rw [hdatabase, hbinlog]
    exact ⟨hinvariant, hlocal i command shared (contexts i) answer shared' context' hcoherent
      (hknows i) hguard hstep hdatabase, fun other hother => hother⟩
  cases hprogress with
  | internal hdatabase hbinlog htransaction => exact hquiet hdatabase hbinlog
  | sends seen hdatabase hbinlog hsent htransaction => exact hquiet hdatabase hbinlog
  | saves htransaction => exact absurd htransaction (hsaves _ hguard)
  | commits hsent hdatabase hbinlog hcontext =>
      rw [hdatabase, hbinlog, hcontext]
      exact hcommit _ _ _ _ hinvariant (hknows i) hsent (hfits rfl hreturned _ hsent)

/-- The guard of a request that only sends statements it can answer for, and only
rewrites holdings it has read. -/
@[simp]
def answersFor (promise : List Write → Prop) : Command → DbContext → Prop
  | .updateOwnedInstrument row, context => context.HasRead row
  | .saveChanges, context => ∃ sent, context.transaction = some sent ∧
      ∀ shared, promise (sent ++ World.unsaved (shared, context))
  | _, _ => True

/-- The run rule when all that matters about a request is what it sends. -/
theorem invariant_of_promises {promise : List Write → Prop}
    (hempty : promise [])
    (hcommit : ∀ database binlog sent, invariant database binlog → promise sent →
      fits database sent → invariant (database.applyAll sent) (binlog ++ [sent]))
    (hrequests : ∀ i, Respects (answersFor promise) (requests i) (fun _ _ => True)
      DbContext.fresh)
    (hinvariant : invariant shared.database shared.binlog)
    (hreaches : InterleavesWhen fits environment (Requests.arrive shared requests) config) :
    invariant config.shared.database config.shared.binlog := by
  have hknown : ∀ context : DbContext,
      context.transaction = none ∨ context.transaction = some [] →
        ∀ sent, context.transaction = some sent → promise sent := by
    rintro context (hnone | hbegun) sent hsent
    · rw [hnone] at hsent
      cases hsent
    · rw [hbegun] at hsent
      cases hsent
      exact hempty
  refine invariant_of_commits invariant
    (fun _ context => ∀ sent, context.transaction = some sent → promise sent)
    ?_ (fun _ _ hread => hread) ?_ ?_ hrequests hinvariant (hknown _ (Or.inl rfl)) hreaches
  · rintro context ⟨sent, hsent, -⟩ hnone
    rw [hsent] at hnone
    cases hnone
  · intro i command shared context answer shared' context' _ hknows hguard hstep hdatabase
    have hprogress := Progress.of_step hstep
    generalize answer.isOk = returned at hprogress
    cases hprogress with
    | internal hdatabase hbinlog htransaction =>
        rcases htransaction with hsame | hother
        · exact fun sent hsent => hknows sent (hsame.symm.trans hsent)
        · exact hknown context' hother
    | sends seen hdatabase hbinlog hsent htransaction =>
        obtain ⟨sent, hbegun, hpromise⟩ := hguard
        rintro sent' hsent'
        rw [htransaction, Option.some.inj (hsent.symm.trans hbegun)] at hsent'
        cases hsent'
        exact hpromise seen
    | saves htransaction =>
        obtain ⟨sent, hbegun, -⟩ := hguard
        rw [htransaction] at hbegun
        cases hbegun
    | commits hsent hdatabase hbinlog hcontext =>
        exact hknown context' (Or.inl (by rw [hcontext]))
  · intro database binlog context sent hinvariant hknows hsent hfits
    exact ⟨hcommit database binlog sent hinvariant (hknows sent hsent) hfits,
      hknown _ (Or.inl rfl), fun other hother => hother⟩

end Run

/-! ## Replaying a schedule -/

section Replay

variable {environment : ι → Environment} {start : Requests ι}

/-- An interleaving that exists because its schedule can be followed, with what
can be seen at its end. -/
theorem exists_interleaving (environment : ι → Environment) (start : Requests ι)
    (schedule : List (ι × Move)) (check : Requests ι → Bool)
    (hreplay : (Interleaving.replay (fun i => move (environment i)) start schedule).any
      check = true) :
    ∃ config, check config = true ∧ Interleaves environment start config := by
  have hmove : ∀ i command m world answer world',
      move (environment i) command m world = some (answer, world') →
        step (environment i) command world answer world' :=
    fun _ => step_of_move
  exact exists_reaches hmove start schedule check hreplay

def Command.isCommit : Command → Bool
  | .commitTransaction => true
  | _ => false

/-- A choice that does not let a commit go ahead whose statements do not fit. -/
def moveWhen (fits : Database → List Write → Prop)
    [∀ database sent, Decidable (fits database sent)] (environment : Environment)
    (command : Command) (m : Move) (world : World) :
    Option (Except BrokerException command.Answer × World) :=
  if command.isCommit = true → ∀ sent ∈ world.2.transaction, fits world.1.database sent then
    move environment command m world
  else none

theorem exists_interleavingWhen (fits : Database → List Write → Prop)
    [∀ database sent, Decidable (fits database sent)] (environment : ι → Environment)
    (start : Requests ι) (schedule : List (ι × Move)) (check : Requests ι → Bool)
    (hreplay : (Interleaving.replay (fun i => moveWhen fits (environment i)) start
      schedule).any check = true) :
    ∃ config, check config = true ∧ InterleavesWhen fits environment start config := by
  have hmove : ∀ i command m world answer world',
      moveWhen fits (environment i) command m world = some (answer, world') →
        restrict (fun i => step (environment i)) (commitsWhen fits) i command world answer
          world' := by
    intro i command m world answer world' h
    rw [moveWhen] at h
    split_ifs at h with hfits
    refine ⟨?_, step_of_move command m world answer world' h⟩
    rintro rfl - sent hsent
    exact hfits rfl sent hsent
  exact exists_reaches hmove start schedule check hreplay

end Replay

end EasyTrade.Broker

import Mathlib

/-!
# Programs over fallible commands

A request handler does everything outside its own memory through commands, and
every command may fail.  A program is therefore the tree of the commands it
issues, with one branch for each answer or exception it may get back.  The
same tree is run alone (`Exec`), reasoned about by weakest preconditions
(`wp`), or cut into single commands and interleaved with other programs.
-/

namespace EasyTrade.Program

/-- Programs that return an `α`, throw an `E`, or issue a command `c` and go
on with its answer in `Ans c` or with the exception it raised. -/
inductive Prog (E : Type) {C : Type} (Ans : C → Type) (α : Type) : Type
  | done (value : α)
  | raise (error : E)
  | call (command : C) (next : Except E (Ans command) → Prog E Ans α)

variable {E C : Type} {Ans : C → Type} {α β σ τ : Type}

namespace Prog

def bind : Prog E Ans α → (α → Prog E Ans β) → Prog E Ans β
  | done value, next => next value
  | raise error, _ => raise error
  | call command rest, next => call command fun answer => (rest answer).bind next

/-- `catch`: the handler sees the exceptions of commands and of `throw`
alike. -/
def tryCatch : Prog E Ans α → (E → Prog E Ans α) → Prog E Ans α
  | done value, _ => done value
  | raise error, handler => handler error
  | call command rest, handler =>
      call command fun answer => (rest answer).tryCatch handler

instance : Monad (Prog E Ans) where
  pure := done
  bind := bind

instance : MonadExcept E (Prog E Ans) where
  throw := raise
  tryCatch := tryCatch

/-- Issue one command and return its answer, or throw what it threw. -/
def perform (command : C) : Prog E Ans (Ans command) :=
  call command fun
    | .ok answer => done answer
    | .error error => raise error

end Prog

open Prog

/-- What a command may do from a state: the answers and exceptions it can end
with, each with the state it leaves. -/
abbrev Semantics (E : Type) {C : Type} (Ans : C → Type) (σ : Type) :=
  (command : C) → σ → Except E (Ans command) → σ → Prop

/-- A program ends with `outcome` and leaves `final` when it runs alone from
`start`. -/
def Exec (step : Semantics E Ans σ) :
    Prog E Ans α → σ → Except E α → σ → Prop
  | done value, start, outcome, final => outcome = .ok value ∧ final = start
  | raise error, start, outcome, final => outcome = .error error ∧ final = start
  | call command next, start, outcome, final =>
      ∃ answer middle, step command start answer middle ∧
        Exec step (next answer) middle outcome final

/-- Weakest precondition of a program: every command is issued in a state that
satisfies `guard`, and every way the program ends satisfies `post`. -/
def wp (step : Semantics E Ans σ) (guard : C → σ → Prop) :
    Prog E Ans α → (Except E α → σ → Prop) → σ → Prop
  | done value, post, state => post (.ok value) state
  | raise error, post, state => post (.error error) state
  | call command next, post, state =>
      guard command state ∧ ∀ answer state', step command state answer state' →
        wp step guard (next answer) post state'

/-- The postcondition of the first half of a sequence: a value is passed on,
an exception skips the second half. -/
def andThen (next : α → σ → Prop) (post : Except E β → σ → Prop) :
    Except E α → σ → Prop
  | .ok value, state => next value state
  | .error error, state => post (.error error) state

/-- The postcondition of the body of a `try`: an exception goes to the
handler. -/
def orElse (post : Except E α → σ → Prop) (handle : E → σ → Prop) :
    Except E α → σ → Prop
  | .ok value, state => post (.ok value) state
  | .error error, state => handle error state

section Rules

variable {step : Semantics E Ans σ} {guard : C → σ → Prop}
variable {post post' : Except E α → σ → Prop} {state : σ}

@[simp]
theorem andThen_ok (next : α → σ → Prop) (post : Except E β → σ → Prop)
    (value : α) : andThen next post (.ok value) state = next value state := rfl

@[simp]
theorem andThen_error (next : α → σ → Prop) (post : Except E β → σ → Prop)
    (error : E) :
    andThen next post (.error error) state = post (.error error) state := rfl

@[simp]
theorem orElse_ok (handle : E → σ → Prop) (value : α) :
    orElse post handle (.ok value) state = post (.ok value) state := rfl

@[simp]
theorem orElse_error (handle : E → σ → Prop) (error : E) :
    orElse post handle (.error error) state = handle error state := rfl

@[simp]
theorem wp_pure (value : α) :
    wp step guard (pure value) post state ↔ post (.ok value) state := Iff.rfl

@[simp]
theorem wp_throw (error : E) :
    wp step guard (throw error) post state ↔ post (.error error) state :=
  Iff.rfl

theorem wp_mono {program : Prog E Ans α}
    (hpost : ∀ outcome final, post outcome final → post' outcome final)
    (hwp : wp step guard program post state) :
    wp step guard program post' state := by
  induction program generalizing state with
  | done value => exact hpost _ _ hwp
  | raise error => exact hpost _ _ hwp
  | call command next ih =>
      exact ⟨hwp.1, fun answer state' hstep => ih answer (hwp.2 answer state' hstep)⟩

/-- What is proved for all outcomes of a command holds for some of them. -/
theorem wp_anti {step' : Semantics E Ans σ} {program : Prog E Ans α}
    (hstep : ∀ command state answer state', step' command state answer state' →
      step command state answer state')
    (hwp : wp step guard program post state) : wp step' guard program post state := by
  induction program generalizing state with
  | done value => exact hwp
  | raise error => exact hwp
  | call command next ih =>
      exact ⟨hwp.1, fun answer state' h => ih answer (hwp.2 _ _ (hstep _ _ _ _ h))⟩

/-- Two proofs about a program can be put together. -/
theorem wp_conj {guard' guard'' : C → σ → Prop} {program : Prog E Ans α}
    (hguard : ∀ command state, guard command state → guard' command state →
      guard'' command state)
    (hwp : wp step guard program post state) (hwp' : wp step guard' program post' state) :
    wp step guard'' program (fun outcome final => post outcome final ∧ post' outcome final)
      state := by
  induction program generalizing state with
  | done value => exact ⟨hwp, hwp'⟩
  | raise error => exact ⟨hwp, hwp'⟩
  | call command next ih =>
      exact ⟨hguard command state hwp.1 hwp'.1, fun answer state' hstep =>
        ih answer (hwp.2 answer state' hstep) (hwp'.2 answer state' hstep)⟩

/-- Two guards can be checked one after the other. -/
theorem wp_and {guard' : C → σ → Prop} {program : Prog E Ans α}
    (hwp : wp step guard program (fun _ _ => True) state)
    (hwp' : wp step guard' program (fun _ _ => True) state) :
    wp step (fun command state => guard command state ∧ guard' command state) program
      (fun _ _ => True) state :=
  wp_mono (fun _ _ _ => trivial) (wp_conj (fun _ _ => And.intro) hwp hwp')

/-- A run is one of any semantics that allows its commands. -/
theorem exec_mono {step' : Semantics E Ans σ} {program : Prog E Ans α} {final : σ}
    {outcome : Except E α}
    (hstep : ∀ command state answer state', step command state answer state' →
      step' command state answer state')
    (hexec : Exec step program state outcome final) :
    Exec step' program state outcome final := by
  induction program generalizing state with
  | done value => exact hexec
  | raise error => exact hexec
  | call command next ih =>
      obtain ⟨answer, middle, hfirst, hrest⟩ := hexec
      exact ⟨answer, middle, hstep _ _ _ _ hfirst, ih answer hrest⟩

@[simp]
theorem wp_bind {post : Except E β → σ → Prop} (program : Prog E Ans α)
    (next : α → Prog E Ans β) :
    wp step guard (program >>= next) post state ↔
      wp step guard program
        (andThen (fun value => wp step guard (next value) post) post) state := by
  change wp step guard (program.bind next) post state ↔ _
  induction program generalizing state with
  | done value => rfl
  | raise error => rfl
  | call command rest ih => simp only [Prog.bind, wp, ih]

@[simp]
theorem wp_tryCatch (program : Prog E Ans α) (handler : E → Prog E Ans α) :
    wp step guard (MonadExcept.tryCatch program handler) post state ↔
      wp step guard program
        (orElse post fun error => wp step guard (handler error) post) state := by
  change wp step guard (program.tryCatch handler) post state ↔ _
  induction program generalizing state with
  | done value => rfl
  | raise error => rfl
  | call command rest ih => simp only [Prog.tryCatch, wp, ih]

theorem wp_perform {command : C} {post : Except E (Ans command) → σ → Prop} :
    wp step guard (perform command) post state ↔
      guard command state ∧ ∀ answer state', step command state answer state' →
        post answer state' := by
  refine and_congr Iff.rfl (forall_congr' fun answer => ?_)
  cases answer <;> rfl

/-- Loop rule.  An invariant that every iteration re-establishes or leaves by
an exception satisfying the postcondition carries a `foreach` to its end. -/
theorem wp_forM {ι : Type} {body : ι → Prog E Ans PUnit}
    {post : Except E PUnit → σ → Prop} (invariant : List ι → σ → Prop)
    (hbody : ∀ item rest state, invariant (item :: rest) state →
      wp step guard (body item) (andThen (fun _ => invariant rest) post) state)
    (hdone : ∀ state, invariant [] state → post (.ok ⟨⟩) state)
    (items : List ι) (hstart : invariant items state) :
    wp step guard (forM items body) post state := by
  induction items generalizing state with
  | nil => exact hdone state hstart
  | cons item rest ih =>
      rw [List.forM_cons, wp_bind]
      refine wp_mono (fun outcome final hfinal => ?_) (hbody item rest state hstart)
      cases outcome with
      | ok value => exact ih hfinal
      | error error => exact hfinal

/-- Weakest preconditions without a guard speak about exactly the runs. -/
theorem wp_iff_forall_exec {program : Prog E Ans α} :
    wp step (fun _ _ => True) program post state ↔
      ∀ outcome final, Exec step program state outcome final →
        post outcome final := by
  induction program generalizing state with
  | done value => simp [wp, Exec]
  | raise error => simp [wp, Exec]
  | call command next ih =>
      simp only [wp, true_and, Exec, ih]
      exact ⟨fun h outcome final ⟨answer, middle, hstep, hexec⟩ =>
          h answer middle hstep outcome final hexec,
        fun h answer middle hstep outcome final hexec =>
          h outcome final ⟨answer, middle, hstep, hexec⟩⟩

/-- Where every command can be answered every program has a run. -/
theorem exists_exec_of_total
    (htotal : ∀ command state, ∃ answer state', step command state answer state')
    (program : Prog E Ans α) (state : σ) :
    ∃ outcome final, Exec step program state outcome final := by
  induction program generalizing state with
  | done value => exact ⟨.ok value, state, rfl, rfl⟩
  | raise error => exact ⟨.error error, state, rfl, rfl⟩
  | call command next ih =>
      obtain ⟨answer, state', hstep⟩ := htotal command state
      obtain ⟨outcome, final, hexec⟩ := ih answer state'
      exact ⟨outcome, final, answer, state', hstep, hexec⟩

/-- Simulation.  When every guarded abstract command can follow the concrete
one, what is proved of a program over abstract states holds over the concrete
states they are related to. -/
theorem wp_of_simulation {abstract : Semantics E Ans τ} {allowed : C → τ → Prop}
    (related : σ → τ → Prop)
    (hsim : ∀ command state answer state' model, related state model →
      allowed command model → step command state answer state' →
        ∃ model', abstract command model answer model' ∧ related state' model')
    {program : Prog E Ans α} {post : Except E α → τ → Prop} {model : τ}
    (hrelated : related state model)
    (hwp : wp abstract allowed program post model) :
    wp step (fun _ _ => True) program
      (fun outcome final => ∃ model', related final model' ∧ post outcome model')
      state := by
  induction program generalizing state model with
  | done value => exact ⟨model, hrelated, hwp⟩
  | raise error => exact ⟨model, hrelated, hwp⟩
  | call command next ih =>
      refine ⟨trivial, fun answer state' hstep => ?_⟩
      obtain ⟨model', habstract, hrelated'⟩ :=
        hsim _ _ _ _ _ hrelated hwp.1 hstep
      exact ih answer hrelated' (hwp.2 _ _ habstract)

end Rules

/-! ## The commands of a program -/

namespace Prog

/-- Every command that the program may issue satisfies `P`. -/
def Issues (P : C → Prop) : Prog E Ans α → Prop
  | done _ => True
  | raise _ => True
  | call command next => P command ∧ ∀ answer, (next answer).Issues P

variable {P : C → Prop} {program : Prog E Ans α}

theorem issues_pure (value : α) : (pure value : Prog E Ans α).Issues P := trivial

theorem issues_throw (error : E) : (throw error : Prog E Ans α).Issues P := trivial

theorem issues_perform {command : C} (hcommand : P command) :
    (perform command : Prog E Ans (Ans command)).Issues P := by
  refine ⟨hcommand, fun answer => ?_⟩
  cases answer <;> trivial

theorem issues_bind {next : α → Prog E Ans β} (hprogram : program.Issues P)
    (hnext : ∀ value, (next value).Issues P) : (program >>= next).Issues P := by
  change (program.bind next).Issues P
  induction program with
  | done value => exact hnext value
  | raise error => trivial
  | call command rest ih => exact ⟨hprogram.1, fun answer => ih answer (hprogram.2 answer)⟩

theorem issues_tryCatch {handler : E → Prog E Ans α} (hprogram : program.Issues P)
    (hhandler : ∀ error, (handler error).Issues P) :
    (MonadExcept.tryCatch program handler).Issues P := by
  change (program.tryCatch handler).Issues P
  induction program with
  | done value => trivial
  | raise error => exact hhandler error
  | call command rest ih => exact ⟨hprogram.1, fun answer => ih answer (hprogram.2 answer)⟩

theorem issues_ite {condition : Prop} [Decidable condition] {other : Prog E Ans α}
    (hprogram : program.Issues P) (hother : other.Issues P) :
    (if condition then program else other).Issues P := by
  split_ifs
  · exact hprogram
  · exact hother

theorem issues_forM {ι : Type} {body : ι → Prog E Ans PUnit}
    (hbody : ∀ item, (body item).Issues P) (items : List ι) : (forM items body).Issues P := by
  induction items with
  | nil => trivial
  | cons item rest ih =>
      rw [List.forM_cons]
      exact issues_bind (hbody item) fun _ => ih

/-- A property of programs that carries over to what is composed of them. -/
structure Compositional (admits : {α : Type} → Prog E Ans α → Prop) : Prop where
  pure : ∀ {α : Type} (value : α), admits (pure value)
  throw : ∀ {α : Type} (error : E), admits (throw error : Prog E Ans α)
  bind : ∀ {α β : Type} {program : Prog E Ans α} {next : α → Prog E Ans β},
    admits program → (∀ value, admits (next value)) → admits (program >>= next)
  tryCatch : ∀ {α : Type} {program : Prog E Ans α} {handler : E → Prog E Ans α},
    admits program → (∀ error, admits (handler error)) →
      admits (MonadExcept.tryCatch program handler)

theorem compositional_issues (P : C → Prop) :
    Compositional fun {_} (program : Prog E Ans _) => program.Issues P :=
  ⟨issues_pure, issues_throw, issues_bind, issues_tryCatch⟩

/-- So does keeping to a guard whatever the state is. -/
theorem compositional_wp (step : Semantics E Ans σ) (guard : C → σ → Prop) :
    Compositional fun {_} (program : Prog E Ans _) =>
      ∀ state, wp step guard program (fun _ _ => True) state := by
  refine ⟨fun _ _ => trivial, fun _ _ => trivial, fun hprogram hnext state => ?_,
    fun hprogram hhandler state => ?_⟩
  · rw [wp_bind]
    refine wp_mono (fun outcome final _ => ?_) (hprogram state)
    cases outcome with
    | ok value => exact hnext value final
    | error error => trivial
  · rw [wp_tryCatch]
    refine wp_mono (fun outcome final _ => ?_) (hprogram state)
    cases outcome with
    | ok value => trivial
    | error error => exact hhandler error final

theorem Compositional.forM {admits : {α : Type} → Prog E Ans α → Prop}
    (hadmits : Compositional @admits) {ι : Type} {body : ι → Prog E Ans PUnit} {items : List ι}
    (hbody : ∀ item ∈ items, admits (body item)) : admits (forM items body) := by
  induction items with
  | nil => exact hadmits.pure _
  | cons item rest ih =>
      rw [List.forM_cons]
      exact hadmits.bind (hbody item List.mem_cons_self) fun _ =>
        ih fun other hother => hbody other (List.mem_cons_of_mem item hother)

/-- A program keeps to every guard that its commands satisfy anyway. -/
theorem wp_of_issues {step : Semantics E Ans σ} {guard : C → σ → Prop} {state : σ}
    (hissues : program.Issues P) (hguard : ∀ command state, P command → guard command state) :
    wp step guard program (fun _ _ => True) state := by
  induction program generalizing state with
  | done value => trivial
  | raise error => trivial
  | call command next ih =>
      exact ⟨hguard command state hissues.1, fun answer _ _ => ih answer (hissues.2 answer)⟩

/-- A program keeps to a guard, and keeps an invariant, when each of its commands does. -/
theorem wp_of_issues_invariant {step : Semantics E Ans σ} {guard : C → σ → Prop}
    {invariant : σ → Prop} {state : σ} (hissues : program.Issues P)
    (hguard : ∀ command state, P command → invariant state → guard command state)
    (hstep : ∀ command state answer state', P command → invariant state →
      step command state answer state' → invariant state') (hinvariant : invariant state) :
    wp step guard program (fun _ => invariant) state := by
  induction program generalizing state with
  | done value => exact hinvariant
  | raise error => exact hinvariant
  | call command next ih =>
      exact ⟨hguard command state hissues.1 hinvariant, fun answer state' hcommand =>
        ih answer (hissues.2 answer) (hstep _ _ _ _ hissues.1 hinvariant hcommand)⟩

end Prog

/-! ## Commands in between -/

namespace Prog

/-- The first program is the second one with commands in between that satisfy `P`.  Their
answers are not looked at, and an exception there or at the next command ends the program. -/
inductive Interposes (P : C → Prop) : Prog E Ans α → Prog E Ans α → Prop
  | done (value : α) : Interposes P (done value) (done value)
  | raise (error : E) : Interposes P (raise error) (raise error)
  | call {command : C} {next next' : Except E (Ans command) → Prog E Ans α}
      (hnext : ∀ answer, Interposes P (next answer) (next' answer)) :
      Interposes P (call command next) (call command next')
  | between {command other : C} {next : Except E (Ans command) → Prog E Ans α}
      {next' : Except E (Ans other) → Prog E Ans α} (hcommand : P command)
      (hok : ∀ value, Interposes P (next (.ok value)) (call other next'))
      (herror : ∀ error, next (.error error) = raise error)
      (hother : ∀ error, next' (.error error) = raise error) :
      Interposes P (call command next) (call other next')

variable {P : C → Prop}

theorem Interposes.refl (program : Prog E Ans α) : Interposes P program program := by
  induction program with
  | done value => exact .done value
  | raise error => exact .raise error
  | call command next ih => exact .call ih

theorem Interposes.bind {program program' : Prog E Ans α} {next next' : α → Prog E Ans β}
    (hprogram : Interposes P program program')
    (hnext : ∀ value, Interposes P (next value) (next' value)) :
    Interposes P (program >>= next) (program' >>= next') := by
  change Interposes P (program.bind next) (program'.bind next')
  induction hprogram with
  | done value => exact hnext value
  | raise error => exact .raise error
  | call _ ih => exact .call ih
  | between hcommand _ herror hother ih =>
      refine .between hcommand ih (fun error => ?_) fun error => ?_
      · rw [herror]
        rfl
      · rw [hother]
        rfl

section Runs

variable {step : Semantics E Ans σ} {longer shorter : Prog E Ans α} {state final : σ}

/-- Where commands in between change nothing that the next command would notice, a program
that returns could have done without them. -/
theorem Interposes.exec_shorter (hinterposes : Interposes P longer shorter)
    (hsilent : ∀ command state value state', P command → step command state (.ok value) state' →
      ∀ other result state'', step other state' (.ok result) state'' →
        step other state (.ok result) state'')
    {value : α} (hexec : Exec step longer state (.ok value) final) :
    Exec step shorter state (.ok value) final := by
  induction hinterposes generalizing state with
  | done _ => exact hexec
  | raise _ => exact hexec
  | call _ ih =>
      obtain ⟨answer, middle, hstep, hrest⟩ := hexec
      exact ⟨answer, middle, hstep, ih answer hrest⟩
  | between hcommand _ herror hother ih =>
      obtain ⟨answer, middle, hstep, hrest⟩ := hexec
      cases answer with
      | error error =>
          rw [herror] at hrest
          cases hrest.1
      | ok answered =>
          obtain ⟨answer, middle', hnext, hrest⟩ := ih answered hrest
          cases answer with
          | error error =>
              rw [hother] at hrest
              cases hrest.1
          | ok result =>
              exact ⟨.ok result, middle', hsilent _ _ _ _ hcommand hstep _ _ _ hnext, hrest⟩

/-- Where commands in between may be answered without any effect, they do not get in the way. -/
theorem Interposes.exec_longer (hinterposes : Interposes P longer shorter)
    (hanswer : ∀ command state, P command → ∃ value, step command state (.ok value) state)
    {outcome : Except E α} (hexec : Exec step shorter state outcome final) :
    Exec step longer state outcome final := by
  induction hinterposes generalizing state with
  | done _ => exact hexec
  | raise _ => exact hexec
  | call _ ih =>
      obtain ⟨answer, middle, hstep, hrest⟩ := hexec
      exact ⟨answer, middle, hstep, ih answer hrest⟩
  | between hcommand _ _ _ ih =>
      obtain ⟨value, hstep⟩ := hanswer _ state hcommand
      exact ⟨.ok value, state, hstep, ih value hexec⟩

end Runs

end Prog

/-! ## Replaying a run -/

section Replay

variable {M : Type}

/-- Runs a program along a script that settles each command's outcome.
`none`: the script ends too early or asks for an impossible outcome. -/
def replay
    (move : (command : C) → M → σ → Option (Except E (Ans command) × σ)) :
    Prog E Ans α → List M → σ → Option (Except E α × σ)
  | done value, _, state => some (.ok value, state)
  | raise error, _, state => some (.error error, state)
  | call _ _, [], _ => none
  | call command next, m :: script, state =>
      (move command m state).bind fun result =>
        replay move (next result.1) script result.2

theorem exec_of_replay {step : Semantics E Ans σ}
    {move : (command : C) → M → σ → Option (Except E (Ans command) × σ)}
    (hmove : ∀ command m state answer state',
      move command m state = some (answer, state') →
        step command state answer state')
    {program : Prog E Ans α} {script : List M} {state final : σ}
    {outcome : Except E α}
    (hreplay : replay move program script state = some (outcome, final)) :
    Exec step program state outcome final := by
  induction program generalizing script state with
  | done value =>
      simp only [replay, Option.some.injEq, Prod.mk.injEq] at hreplay
      exact ⟨hreplay.1.symm, hreplay.2.symm⟩
  | raise error =>
      simp only [replay, Option.some.injEq, Prod.mk.injEq] at hreplay
      exact ⟨hreplay.1.symm, hreplay.2.symm⟩
  | call command next ih =>
      cases script with
      | nil => simp [replay] at hreplay
      | cons m script =>
          simp only [replay, Option.bind_eq_some_iff] at hreplay
          obtain ⟨⟨answer, middle⟩, hstep, hrest⟩ := hreplay
          exact ⟨answer, middle, hmove _ _ _ _ _ hstep, ih answer hrest⟩

/-- A run that exists because its script can be followed, with what can be seen at its
end. -/
theorem exists_exec {step : Semantics E Ans σ}
    {move : (command : C) → M → σ → Option (Except E (Ans command) × σ)}
    (hmove : ∀ command m state answer state',
      move command m state = some (answer, state') →
        step command state answer state')
    (program : Prog E Ans α) (script : List M) (state : σ) (check : Except E α → σ → Bool)
    (hreplay : (replay move program script state).any
      (fun result => check result.1 result.2) = true) :
    ∃ outcome final, check outcome final = true ∧ Exec step program state outcome final := by
  cases hresult : replay move program script state with
  | none => rw [hresult] at hreplay; cases hreplay
  | some result =>
      rw [hresult] at hreplay
      exact ⟨result.1, result.2, hreplay, exec_of_replay hmove hresult⟩

end Replay

end EasyTrade.Program

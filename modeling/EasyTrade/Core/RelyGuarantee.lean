import EasyTrade.Core.Interleaving

/-!
# Threads that take notes

Threads work on a shared state and each keeps notes of the commands it has issued
and of their answers; the shared state is all that they affect.  What a thread
may rely on is a relation between the shared state and its own notes that the
commands of all other threads preserve, and it may be a different relation for
each thread.  A safety argument then checks each program alone, against every
answer it may get, and each command once.
-/

namespace EasyTrade.Interleaving

open EasyTrade.Program

variable {E C : Type} {Ans : C → Type} {ι S M α N : Type} [DecidableEq ι]

/-- Notes taken after a command. -/
abbrev Note (E : Type) {C : Type} (Ans : C → Type) (M : Type) :=
  M → (command : C) → Except E (Ans command) → M

/-- When a command may be answered as it is. -/
abbrev Condition (E : Type) {C : Type} (Ans : C → Type) (σ : Type) :=
  (command : C) → σ → Except E (Ans command) → Prop

/-- A command on the shared state and on the notes of its thread. -/
def noted (step : Semantics E Ans S) (note : Note E Ans M) : Semantics E Ans (S × M) :=
  fun command start answer final =>
    step command start.1 answer final.1 ∧ final.2 = note start.2 command answer

/-- What is left of a command for a thread that only sees its own notes. -/
def remembers (permitted : Condition E Ans M) (note : Note E Ans M) : Semantics E Ans M :=
  fun command memory answer memory' =>
    permitted command memory answer ∧ memory' = note memory command answer

/-- Threads that have not begun. -/
def Config.start (shared : S) (memory : M) (programs : ι → Prog E Ans α) :
    Config E Ans ι S M α where
  shared := shared
  threads i := ⟨memory, programs i⟩

/-- Everything that may happen while every command satisfies the condition. -/
abbrev ReachesWhen (step : Semantics E Ans S) (note : Note E Ans M)
    (allowed : Condition E Ans (S × M)) : Config E Ans ι S M α → Config E Ans ι S M α → Prop :=
  Reaches (restrict (fun _ => noted step note) allowed)

section Rules

variable {permitted : Condition E Ans M} {note : Note E Ans M} {guard : C → M → Prop}
variable {memory : M}

theorem wp_remembers_perform {command : C} {post : Except E (Ans command) → M → Prop} :
    wp (remembers permitted note) guard (Prog.perform command) post memory ↔
      guard command memory ∧
        (∀ value, permitted command memory (.ok value) →
          post (.ok value) (note memory command (.ok value))) ∧
        ∀ error, permitted command memory (.error error) →
          post (.error error) (note memory command (.error error)) := by
  rw [wp_perform]
  refine and_congr Iff.rfl ⟨fun h => ⟨?_, ?_⟩, fun h answer memory' hstep => ?_⟩
  · exact fun value hpermitted => h _ _ ⟨hpermitted, rfl⟩
  · exact fun error hpermitted => h _ _ ⟨hpermitted, rfl⟩
  · obtain ⟨hpermitted, rfl⟩ := hstep
    cases answer with
    | ok value => exact h.1 value hpermitted
    | error error => exact h.2 error hpermitted

/-- What is checked with some of a thread's notes holds with all of them. -/
theorem wp_of_view {M' : Type} {permitted' : Condition E Ans M'} {note' : Note E Ans M'}
    (view : M' → M) (hnote : ∀ memory command answer,
      view (note' memory command answer) = note (view memory) command answer)
    (hpermitted : ∀ command memory answer, permitted' command memory answer →
      permitted command (view memory) answer)
    {program : Prog E Ans α} {memory : M'}
    (hwp : wp (remembers permitted note) guard program (fun _ _ => True) (view memory)) :
    wp (remembers permitted' note') (fun command memory => guard command (view memory)) program
      (fun _ _ => True) memory := by
  induction program generalizing memory with
  | done value => trivial
  | raise error => trivial
  | call command next ih =>
      refine ⟨hwp.1, fun answer memory' hstep => ih answer ?_⟩
      rw [hstep.2, hnote]
      exact hwp.2 answer _ ⟨hpermitted _ _ _ hstep.1, rfl⟩

/-- A guard that every command satisfies says nothing about a program. -/
theorem wp_of_forall_guard {program : Prog E Ans α}
    (hguard : ∀ command memory, guard command memory) :
    wp (remembers permitted note) guard program (fun _ _ => True) memory := by
  induction program generalizing memory with
  | done value => trivial
  | raise error => trivial
  | call command next ih => exact ⟨hguard command memory, fun answer memory' _ => ih answer⟩

end Rules

/-- What is true throughout a run: the invariant of the shared state, what each
thread relies on, and that what is left of its program keeps to its guard. -/
structure Upheld (permitted : Condition E Ans M) (note : Note E Ans M) (invariant : S → Prop)
    (relies : ι → S → M → Prop) (guard : ι → C → M → Prop) (config : Config E Ans ι S M α) :
    Prop where
  shared : invariant config.shared
  memory : ∀ i, relies i config.shared (config.threads i).memory
  rest : ∀ i, wp (remembers permitted note) (guard i) (config.threads i).rest
    (fun _ _ => True) (config.threads i).memory

section Rule

variable {step : Semantics E Ans S} {note : Note E Ans M}
variable {allowed : Condition E Ans (S × M)} {permitted : Condition E Ans M}
variable {invariant : S → Prop} {relies : ι → S → M → Prop} {guard : ι → C → M → Prop}

/-- What one command of thread `i` has to guarantee. -/
def Guarantees (step : Semantics E Ans S) (note : Note E Ans M)
    (allowed : Condition E Ans (S × M)) (invariant : S → Prop) (relies : ι → S → M → Prop)
    (guard : ι → C → M → Prop) : Prop :=
  ∀ i command shared memory answer shared', invariant shared → relies i shared memory →
    guard i command memory → allowed command (shared, memory) answer →
    step command shared answer shared' →
      invariant shared' ∧ relies i shared' (note memory command answer) ∧
        ∀ j, j ≠ i → ∀ other, relies j shared other → relies j shared' other

theorem Upheld.of_step {config config' : Config E Ans ι S M α}
    (hpermitted : ∀ command shared memory answer, allowed command (shared, memory) answer →
      permitted command memory answer)
    (hguarantees : Guarantees step note allowed invariant relies guard)
    (hupheld : Upheld permitted note invariant relies guard config)
    (hstep : Step (restrict (fun _ => noted step note) allowed) config config') :
    Upheld permitted note invariant relies guard config' := by
  obtain ⟨i, hrest, hallowed, hcommand, hnote⟩ := hstep
  dsimp only at hcommand hnote
  subst hnote
  have hwp := hupheld.rest i
  rw [hrest] at hwp
  obtain ⟨hguard, hnext⟩ := hwp
  obtain ⟨hinvariant, hself, hothers⟩ := hguarantees i _ _ _ _ _ hupheld.shared
    (hupheld.memory i) hguard hallowed hcommand
  refine ⟨hinvariant, fun j => ?_, fun j => ?_⟩
  · by_cases hj : j = i
    · subst j
      simpa [Config.advance] using hself
    · simpa [Config.advance, hj] using hothers j hj _ (hupheld.memory j)
  · by_cases hj : j = i
    · subst j
      simpa [Config.advance] using hnext _ _ ⟨hpermitted _ _ _ _ hallowed, rfl⟩
    · simpa [Config.advance, hj] using hupheld.rest j

/-- Run rule.  What every command guarantees and every program keeps to is true
whenever the run is interrupted. -/
theorem Upheld.reaches {config config' : Config E Ans ι S M α}
    (hpermitted : ∀ command shared memory answer, allowed command (shared, memory) answer →
      permitted command memory answer)
    (hguarantees : Guarantees step note allowed invariant relies guard)
    (hupheld : Upheld permitted note invariant relies guard config)
    (hreaches : ReachesWhen step note allowed config config') :
    Upheld permitted note invariant relies guard config' := by
  induction hreaches with
  | refl => exact hupheld
  | tail _ hstep ih => exact ih.of_step hpermitted hguarantees hstep

/-- Whatever all threads do, what is left of each of them still ends as its program does. -/
theorem wp_rest_of_reaches {start config : Config E Ans ι S M α}
    (post : ι → Except E α → M → Prop)
    (hpermitted : ∀ command shared memory answer, allowed command (shared, memory) answer →
      permitted command memory answer)
    (hstart : ∀ i, wp (remembers permitted note) (guard i) (start.threads i).rest (post i)
      (start.threads i).memory)
    (hreaches : ReachesWhen step note allowed start config) (i : ι) :
    wp (remembers permitted note) (guard i) (config.threads i).rest (post i)
      (config.threads i).memory := by
  induction hreaches with
  | refl => exact hstart i
  | tail _ hstep ih =>
      obtain ⟨j, hrest, hallowed, hcommand, hnote⟩ := hstep
      dsimp only at hnote
      subst hnote
      by_cases hi : i = j
      · subst hi
        rw [hrest] at ih
        simpa [Config.advance] using ih.2 _ _ ⟨hpermitted _ _ _ _ hallowed, rfl⟩
      · simpa [Config.advance, hi] using ih

end Rule

/-! ## Runs without notes -/

/-- The configuration without the notes. -/
def Config.plain (config : Config E Ans ι S M α) : Config E Ans ι S Unit α where
  shared := config.shared
  threads i := ⟨(), (config.threads i).rest⟩

theorem Config.plain_advance (config : Config E Ans ι S M α) (i : ι) (shared : S) (memory : M)
    (rest : Prog E Ans α) :
    (config.advance i shared memory rest).plain = config.plain.advance i shared () rest := by
  have hthreads : (config.advance i shared memory rest).plain.threads =
      (config.plain.advance i shared () rest).threads := by
    funext j
    by_cases hj : j = i
    · subst j
      simp [Config.plain, Config.advance]
    · simp [Config.plain, Config.advance, hj]
  exact congrArg (Config.mk shared) hthreads

/-- Notes can be taken of every run, and a condition that every command satisfies is no
condition. -/
theorem exists_noted {step : Semantics E Ans S} (note : Note E Ans M)
    (allowed : Condition E Ans (S × M))
    (hallowed : ∀ command shared memory answer shared', step command shared answer shared' →
      allowed command (shared, memory) answer)
    (config : Config E Ans ι S M α) {plain : Config E Ans ι S Unit α}
    (hreaches : ReachesWhen step (fun _ _ _ => ()) (fun _ _ _ => True) config.plain plain) :
    ∃ config', config'.plain = plain ∧ ReachesWhen step note allowed config config' := by
  induction hreaches with
  | refl => exact ⟨config, rfl, .refl⟩
  | tail _ hstep ih =>
      obtain ⟨middle, rfl, hmiddle⟩ := ih
      obtain ⟨i, hrest, -, hcommand, -⟩ := hstep
      exact ⟨_, middle.plain_advance i _ _ _,
        hmiddle.tail (.run i hrest ⟨hallowed _ _ _ _ _ hcommand, hcommand, rfl⟩)⟩

/-! ## Replaying a schedule -/

section Replay

variable {step : Semantics E Ans S} {note : Note E Ans M}

/-- A choice for a command, refused when its condition is not met. -/
def attempt (move : (command : C) → N → S → Option (Except E (Ans command) × S))
    (note : Note E Ans M) (allowed : Condition E Ans (S × M))
    [∀ command start answer, Decidable (allowed command start answer)] (command : C) (n : N)
    (start : S × M) : Option (Except E (Ans command) × (S × M)) :=
  (move command n start.1).bind fun result =>
    if allowed command start result.1 then
      some (result.1, (result.2, note start.2 command result.1))
    else none

theorem noted_of_attempt
    {move : (command : C) → N → S → Option (Except E (Ans command) × S)}
    (hmove : ∀ command n start answer final, move command n start = some (answer, final) →
      step command start answer final)
    {allowed : Condition E Ans (S × M)}
    [∀ command start answer, Decidable (allowed command start answer)] (command : C) (n : N)
    (start : S × M) (answer : Except E (Ans command)) (final : S × M)
    (hattempt : attempt move note allowed command n start = some (answer, final)) :
    allowed command start answer ∧ noted step note command start answer final := by
  obtain ⟨⟨answer₁, shared⟩, hresult, hchecked⟩ := Option.bind_eq_some_iff.mp hattempt
  dsimp only at hchecked
  split_ifs at hchecked with hallowed
  cases hchecked
  exact ⟨hallowed, hmove _ _ _ _ _ hresult, rfl⟩

/-- A run that exists because its schedule can be followed, with what can be seen
at its end. -/
theorem exists_reachesWhen
    {move : (command : C) → N → S → Option (Except E (Ans command) × S)}
    (hmove : ∀ command n start answer final, move command n start = some (answer, final) →
      step command start answer final)
    (note : Note E Ans M) (allowed : Condition E Ans (S × M))
    [∀ command start answer, Decidable (allowed command start answer)]
    (start : Config E Ans ι S M α) (schedule : List (ι × N))
    (check : Config E Ans ι S M α → Bool)
    (hreplay : (replay (fun _ => attempt move note allowed) start schedule).any check = true) :
    ∃ config, check config = true ∧ ReachesWhen step note allowed start config := by
  have hattempt : ∀ (i : ι) command n state answer state',
      attempt move note allowed command n state = some (answer, state') →
        restrict (fun _ : ι => noted step note) allowed i command state answer state' :=
    fun _ command n state answer state' h => noted_of_attempt hmove command n state answer state' h
  exact exists_reaches hattempt start schedule check hreplay

end Replay

end EasyTrade.Interleaving

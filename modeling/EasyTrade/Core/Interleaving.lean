import EasyTrade.Core.Program

/-!
# Interleaved programs

Any number of programs work on one shared state, each with a memory of its own.
A step of the system is one command of one program.  The rule proved here
splits a safety argument in two: each program is checked alone against every
answer it may get, and each single command is checked against the invariant of
the shared state.
-/

namespace EasyTrade.Interleaving

open EasyTrade.Program

variable {E C : Type} {Ans : C → Type} {ι S L α M : Type} [DecidableEq ι]

/-- A program under way: its own memory and what is left of it. -/
structure Thread (E : Type) {C : Type} (Ans : C → Type) (L α : Type) where
  memory : L
  rest : Prog E Ans α

/-- The shared state and all programs at one moment. -/
structure Config (E : Type) {C : Type} (Ans : C → Type) (ι S L α : Type) where
  shared : S
  threads : ι → Thread E Ans L α

/-- A program that has returned or thrown. -/
def Thread.finished (thread : Thread E Ans L α) : Bool :=
  match thread.rest with
  | .call _ _ => false
  | _ => true

/-- The configuration after thread `i` has issued one command. -/
def Config.advance (config : Config E Ans ι S L α) (i : ι) (shared : S)
    (memory : L) (rest : Prog E Ans α) : Config E Ans ι S L α where
  shared := shared
  threads := Function.update config.threads i ⟨memory, rest⟩

/-- One command of one thread. -/
inductive Step (step : ι → Semantics E Ans (S × L)) :
    Config E Ans ι S L α → Config E Ans ι S L α → Prop
  | run {config : Config E Ans ι S L α} (i : ι) {command : C}
      {next : Except E (Ans command) → Prog E Ans α}
      {answer : Except E (Ans command)} {shared : S} {memory : L}
      (hrest : (config.threads i).rest = .call command next)
      (hstep : step i command (config.shared, (config.threads i).memory) answer
        (shared, memory)) :
      Step step config (config.advance i shared memory (next answer))

/-- Every order of the commands of all threads, cut off anywhere. -/
abbrev Reaches (step : ι → Semantics E Ans (S × L)) :
    Config E Ans ι S L α → Config E Ans ι S L α → Prop :=
  Relation.ReflTransGen (Step step)

/-- The commands of `step` that end with an outcome accepted by `allowed`. -/
def restrict (step : ι → Semantics E Ans (S × L))
    (allowed : (command : C) → S × L → Except E (Ans command) → Prop) :
    ι → Semantics E Ans (S × L) :=
  fun i command start answer final =>
    allowed command start answer ∧ step i command start answer final

/-- A command as one thread sees it while the others may have changed the
shared state and their memories in any way that keeps the invariant. -/
def isolated (step : Semantics E Ans (S × L)) (invariant : S → (ι → L) → Prop) (i : ι) :
    Semantics E Ans L :=
  fun command memory answer memory' =>
    ∃ shared memories shared', invariant shared memories ∧ memories i = memory ∧
      step command (shared, memory) answer (shared', memory')

/-- What is true throughout a run: the invariant of the shared state and of all
memories holds, and what is left of each program issues each command under its
guard. -/
structure Guarded (step : ι → Semantics E Ans (S × L)) (invariant : S → (ι → L) → Prop)
    (guard : C → L → Prop) (config : Config E Ans ι S L α) : Prop where
  holds : invariant config.shared fun i => (config.threads i).memory
  rest : ∀ i, wp (isolated (step i) invariant i) guard
    (config.threads i).rest (fun _ _ => True) (config.threads i).memory

section Invariance

variable {step : ι → Semantics E Ans (S × L)} {invariant : S → (ι → L) → Prop}
variable {guard : C → L → Prop}

theorem Config.memory_advance (config : Config E Ans ι S L α) (i : ι) (shared : S)
    (memory : L) (rest : Prog E Ans α) :
    (fun j => ((config.advance i shared memory rest).threads j).memory) =
      Function.update (fun j => (config.threads j).memory) i memory := by
  funext j
  by_cases hj : j = i
  · subst hj
    simp [Config.advance]
  · simp [Config.advance, hj]

theorem Guarded.of_step {config config' : Config E Ans ι S L α}
    (hpreserve : ∀ i command shared memories answer shared' memory',
      invariant shared memories → guard command (memories i) →
      step i command (shared, memories i) answer (shared', memory') →
        invariant shared' (Function.update memories i memory'))
    (hguarded : Guarded step invariant guard config)
    (hstep : Step step config config') : Guarded step invariant guard config' := by
  obtain ⟨i, hrest, hcommand⟩ := hstep
  have hwp := hguarded.rest i
  rw [hrest] at hwp
  obtain ⟨hguard, hnext⟩ := hwp
  refine ⟨?_, fun j => ?_⟩
  · rw [Config.memory_advance]
    exact hpreserve i _ _ _ _ _ _ hguarded.holds hguard hcommand
  · by_cases hj : j = i
    · subst j
      simpa [Config.advance] using hnext _ _ ⟨_, _, _, hguarded.holds, rfl, hcommand⟩
    · simpa [Config.advance, hj] using hguarded.rest j

/-- Invariance over whole runs: guarded threads stay guarded under every
interleaving. -/
theorem Guarded.reaches {config config' : Config E Ans ι S L α}
    (hpreserve : ∀ i command shared memories answer shared' memory',
      invariant shared memories → guard command (memories i) →
      step i command (shared, memories i) answer (shared', memory') →
        invariant shared' (Function.update memories i memory'))
    (hguarded : Guarded step invariant guard config)
    (hreaches : Reaches step config config') : Guarded step invariant guard config' := by
  induction hreaches with
  | refl => exact hguarded
  | tail _ hstep ih => exact ih.of_step hpreserve hstep

end Invariance

/-! ## Replaying a schedule -/

/-- Lets the threads take the steps of a schedule.  `none`: a thread is told
to move after its end or to take an impossible step. -/
def replay
    (move : ι → (command : C) → M → S × L → Option (Except E (Ans command) × (S × L))) :
    Config E Ans ι S L α → List (ι × M) → Option (Config E Ans ι S L α)
  | config, [] => some config
  | config, (i, m) :: schedule =>
      match (config.threads i).rest with
      | .call command next =>
          (move i command m (config.shared, (config.threads i).memory)).bind
            fun result => replay move
              (config.advance i result.2.1 result.2.2 (next result.1)) schedule
      | _ => none

theorem reaches_of_replay {step : ι → Semantics E Ans (S × L)}
    {move : ι → (command : C) → M → S × L → Option (Except E (Ans command) × (S × L))}
    (hmove : ∀ i command m state answer state',
      move i command m state = some (answer, state') →
        step i command state answer state')
    {config config' : Config E Ans ι S L α} {schedule : List (ι × M)}
    (hreplay : replay move config schedule = some config') :
    Reaches step config config' := by
  induction schedule generalizing config with
  | nil =>
      simp only [replay, Option.some.injEq] at hreplay
      rw [hreplay]
  | cons entry schedule ih =>
      obtain ⟨i, m⟩ := entry
      simp only [replay] at hreplay
      split at hreplay
      · rename_i command next hrest
        obtain ⟨⟨answer, shared, memory⟩, hresult, htail⟩ :=
          Option.bind_eq_some_iff.mp hreplay
        exact Relation.ReflTransGen.head
          (Step.run i hrest (hmove _ _ _ _ _ _ hresult)) (ih htail)
      · simp at hreplay

/-- A run that exists because its schedule can be followed, with what can be seen at its
end. -/
theorem exists_reaches {step : ι → Semantics E Ans (S × L)}
    {move : ι → (command : C) → M → S × L → Option (Except E (Ans command) × (S × L))}
    (hmove : ∀ i command m state answer state',
      move i command m state = some (answer, state') →
        step i command state answer state')
    (start : Config E Ans ι S L α) (schedule : List (ι × M)) (check : Config E Ans ι S L α → Bool)
    (hreplay : (replay move start schedule).any check = true) :
    ∃ config, check config = true ∧ Reaches step start config := by
  cases hresult : replay move start schedule with
  | none => rw [hresult] at hreplay; cases hreplay
  | some config =>
      rw [hresult] at hreplay
      exact ⟨config, hreplay, reaches_of_replay hmove hresult⟩

end EasyTrade.Interleaving

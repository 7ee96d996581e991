import Mathlib

/-!
# Replaying events

A system told as a sequence of events: each event says in which states it can
happen and what it makes of them.  Two rules carry facts about single events
over to whole sequences, one for invariants and one for quantities that every
event changes by a known amount.
-/

namespace EasyTrade.Replay

variable {State Event M : Type}

/-- The state after a sequence of events. -/
def run (apply : Event → State → State) (start : State) (events : List Event) : State :=
  events.foldl (fun state event => apply event state) start

/-- Every event of the sequence can happen where it does. -/
def Possible (apply : Event → State → State) (allowed : Event → State → Prop) :
    State → List Event → Prop
  | _, [] => True
  | state, event :: events =>
      allowed event state ∧ Possible apply allowed (apply event state) events

variable {apply : Event → State → State} {allowed : Event → State → Prop}

@[simp]
theorem run_nil (start : State) : run apply start [] = start := rfl

@[simp]
theorem run_cons (start : State) (event : Event) (events : List Event) :
    run apply start (event :: events) = run apply (apply event start) events := rfl

theorem run_append (start : State) (first second : List Event) :
    run apply start (first ++ second) = run apply (run apply start first) second :=
  List.foldl_append

theorem possible_append {start : State} {first second : List Event} :
    Possible apply allowed start (first ++ second) ↔
      Possible apply allowed start first ∧
        Possible apply allowed (run apply start first) second := by
  induction first generalizing start with
  | nil => simp [Possible]
  | cons event first ih => simp [Possible, ih, and_assoc]

theorem possible_concat {start : State} {events : List Event} {event : Event} :
    Possible apply allowed start (events ++ [event]) ↔
      Possible apply allowed start events ∧ allowed event (run apply start events) := by
  simp [possible_append, Possible]

/-- Invariants. -/
theorem Possible.invariant {invariant : State → Prop}
    (hstep : ∀ event state, invariant state → allowed event state →
      invariant (apply event state))
    {start : State} {events : List Event} (hstart : invariant start)
    (hpossible : Possible apply allowed start events) :
    invariant (run apply start events) := by
  induction events generalizing start with
  | nil => exact hstart
  | cons event events ih => exact ih (hstep event start hstart hpossible.1) hpossible.2

/-- Every event of a possible sequence happens in some state that satisfies the
invariant. -/
theorem Possible.allowed_of_mem {invariant : State → Prop}
    (hstep : ∀ event state, invariant state → allowed event state →
      invariant (apply event state))
    {start : State} {events : List Event} (hstart : invariant start)
    (hpossible : Possible apply allowed start events) {event : Event}
    (hevent : event ∈ events) : ∃ state, invariant state ∧ allowed event state := by
  induction events generalizing start with
  | nil => exact absurd hevent List.not_mem_nil
  | cons head events ih =>
      rcases List.mem_cons.mp hevent with rfl | hevent
      · exact ⟨start, hstart, hpossible.1⟩
      · exact ih (hstep head start hstart hpossible.1) hpossible.2 hevent

/-- Quantities: an invariant may be needed to see what an event changes. -/
theorem Possible.measure [AddCommMonoid M] (invariant : State → Prop)
    (quantity : State → M) (change : Event → M)
    (hinvariant : ∀ event state, invariant state → allowed event state →
      invariant (apply event state))
    (hstep : ∀ event state, invariant state → allowed event state →
      quantity (apply event state) = quantity state + change event)
    {start : State} {events : List Event} (hstart : invariant start)
    (hpossible : Possible apply allowed start events) :
    quantity (run apply start events) =
      quantity start + (events.map change).sum := by
  induction events generalizing start with
  | nil => simp
  | cons event events ih =>
      rw [run_cons, ih (hinvariant event start hstart hpossible.1) hpossible.2,
        hstep event start hstart hpossible.1, List.map_cons, List.sum_cons, add_assoc]

end EasyTrade.Replay

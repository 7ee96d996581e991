import EasyTrade.Aggregator.Clock

/-!
# What stops when a clock is stopped

Every tick that is taken runs its function once, and the wait group is empty only when
nothing is left to run.  Functions may still start after `Stop` has returned: when the
`select` finds both a tick and the closed channel, and when a tick has been taken but its
function is still to start.  Those are the only ways.
-/

namespace EasyTrade.Aggregator

open scoped List

section Log

theorem takenTicks_append (events events' : List Event) :
    takenTicks (events ++ events') = takenTicks events ++ takenTicks events' :=
  List.filterMap_append

theorem startedTicks_append (events events' : List Event) :
    startedTicks (events ++ events') = startedTicks events ++ startedTicks events' :=
  List.filterMap_append

theorem endedTicks_append (events events' : List Event) :
    endedTicks (events ++ events') = endedTicks events ++ endedTicks events' :=
  List.filterMap_append

theorem SilentAfter.nil (mark : Event) : SilentAfter mark [] := by
  intro before after heq
  exact absurd heq (by simp)

/-- One more event keeps the silence unless it is the start of a tick function behind the
mark. -/
theorem SilentAfter.concat {mark event : Event} {events : List Event}
    (hsilent : SilentAfter mark events)
    (hevent : mark ∈ events → startedTicks [event] = []) :
    SilentAfter mark (events ++ [event]) := by
  intro before after heq
  cases after using List.reverseRecOn with
  | nil => rfl
  | append_singleton after last =>
      have hsplit : events ++ [event] = (before ++ mark :: after) ++ [last] := by
        rw [heq, List.append_assoc, List.cons_append]
      obtain ⟨hevents, hlast⟩ := List.append_inj' hsplit rfl
      rw [startedTicks_append, hsilent before after hevents, ← hlast]
      exact hevent (by rw [hevents]; exact List.mem_append_right _ List.mem_cons_self)

end Log

/-- The books of a clock: what the wait group counts, and where every tick is. -/
structure Consistent (clock : Clock) : Prop where
  counted : clock.wg = clock.loop.share + clock.ready.length + clock.running.length +
    clock.ended.length + clock.others
  numbered : takenTicks clock.events = List.range clock.taken
  once : (startedTicks clock.events ++ clock.pending).Perm (takenTicks clock.events)
  finished : (endedTicks clock.events ++ clock.executing).Perm (startedTicks clock.events)
  waited : .waitReturned ∈ clock.events → clock.loop = .done ∧ clock.ready = [] ∧
    clock.running = [] ∧ clock.ended = []
  silent : SilentAfter .waitReturned clock.events

theorem consistent_started (others : ℕ) : Consistent (Clock.started others) where
  counted := by simp [Clock.started, Loop.share, Nat.add_comm]
  numbered := rfl
  once := .nil
  finished := .nil
  waited := by simp [Clock.started]
  silent := .nil _

/-- Once the wait group has been empty, the clock itself does not move any more. -/
theorem Consistent.not_waited {clock : Clock} (hclock : Consistent clock)
    (hloop : clock.loop ≠ .done ∨ clock.ready ≠ [] ∨ clock.running ≠ [] ∨ clock.ended ≠ []) :
    .waitReturned ∉ clock.events := by
  intro hwaited
  obtain ⟨hdone, hready, hrunning, hended⟩ := hclock.waited hwaited
  simp [hdone, hready, hrunning, hended] at hloop

section Step

variable {nonBlocking : Bool} {clock clock' : Clock} {action : Action}

/-- The counter of the wait group is right. -/
theorem Consistent.counted_step (hclock : Consistent clock)
    (hstep : Step nonBlocking clock action clock') :
    clock'.wg = clock'.loop.share + clock'.ready.length + clock'.running.length +
      clock'.ended.length + clock'.others := by
  have hcounted := hclock.counted
  cases hstep with
  | arrive | closeQuitChan | setQuit | stopReturns | waitReturns => exact hcounted
  | takeTick hloop | takeQuit hloop | startInline _ hloop | endInline hloop
  | stopTicker hloop => rwa [hloop] at hcounted
  | addGoroutine _ hloop | goTick hloop | doneLoop hloop =>
      rw [hloop] at hcounted
      simp only [Clock.goTo, Loop.share, List.length_append, List.length_singleton] at hcounted ⊢
      omega
  | checkQuit hloop =>
      rw [hloop] at hcounted
      rw [Clock.goTo]
      dsimp only
      split <;> exact hcounted
  | startSpawned hmem | endSpawned hmem | doneSpawned hmem =>
      have hpos := List.length_pos_of_mem hmem
      simp only [Clock.observe, List.length_append, List.length_singleton,
        List.length_erase_of_mem hmem]
      omega
  | othersAdd => simp only [hcounted]; omega
  | othersDone hothers => simp only [hcounted]; omega

/-- An element that is moved from one list to the end of another one. -/
theorem perm_moved {tick : ℕ} {front before after : List ℕ} (hmem : tick ∈ after) :
    (front ++ [tick] ++ (before ++ after.erase tick)).Perm (front ++ (before ++ after)) := by
  rw [List.append_assoc]
  refine List.Perm.append_left front ?_
  calc [tick] ++ (before ++ after.erase tick)
      = tick :: (before ++ after.erase tick) := rfl
    _ ~ before ++ tick :: after.erase tick := List.perm_middle.symm
    _ ~ before ++ after := (List.perm_cons_erase hmem).symm.append_left before

/-- Every tick that has been taken has been started once or waits for it. -/
theorem Consistent.once_step (hclock : Consistent clock)
    (hstep : Step nonBlocking clock action clock') :
    takenTicks clock'.events = List.range clock'.taken ∧
      (startedTicks clock'.events ++ clock'.pending).Perm (takenTicks clock'.events) := by
  have hnumbered := hclock.numbered
  have honce := hclock.once
  rw [Clock.pending] at honce ⊢
  cases hstep with
  | arrive | closeQuitChan | setQuit | doneSpawned | othersAdd | othersDone =>
      exact ⟨hnumbered, honce⟩
  | takeQuit hloop | addGoroutine _ hloop | stopTicker hloop | doneLoop hloop =>
      rw [hloop] at honce
      exact ⟨hnumbered, honce⟩
  | checkQuit hloop =>
      rw [hloop] at honce
      refine ⟨hnumbered, ?_⟩
      rw [Clock.goTo]
      dsimp only
      split <;> exact honce
  | takeTick hloop =>
      rw [hloop] at honce
      simp only [Clock.observe, Clock.goTo, takenTicks_append, startedTicks_append]
      refine ⟨?_, ?_⟩
      · rw [hnumbered, List.range_succ]
        rfl
      · calc startedTicks clock.events ++ [] ++ ([clock.taken] ++ clock.ready)
            = startedTicks clock.events ++ clock.taken :: clock.ready := by
              rw [List.append_nil, List.singleton_append]
          _ ~ clock.taken :: (startedTicks clock.events ++ clock.ready) := List.perm_middle
          _ ~ clock.taken :: takenTicks clock.events := honce.cons _
          _ ~ takenTicks clock.events ++ [clock.taken] := (List.perm_append_singleton _ _).symm
  | @goTick tick hloop =>
      rw [hloop] at honce
      have hhanded : clock.ready ++ [tick] ~ [tick] ++ clock.ready :=
        List.perm_append_comm
      exact ⟨hnumbered, (hhanded.append_left _).trans honce⟩
  | startInline _ hloop =>
      rw [hloop] at honce
      simp only [Clock.observe, Clock.goTo, takenTicks_append, startedTicks_append]
      refine ⟨by rw [hnumbered]; exact List.append_nil _, ?_⟩
      calc startedTicks clock.events ++ [_] ++ ([] ++ clock.ready)
          = startedTicks clock.events ++ ([_] ++ clock.ready) := List.append_assoc ..
        _ ~ takenTicks clock.events := honce
        _ = takenTicks clock.events ++ [] := (List.append_nil _).symm
  | startSpawned hready =>
      simp only [Clock.observe, takenTicks_append, startedTicks_append]
      refine ⟨by rw [hnumbered]; exact List.append_nil _, ?_⟩
      refine ((perm_moved hready).trans honce).trans ?_
      exact List.Perm.of_eq (List.append_nil _).symm
  | endInline hloop =>
      rw [hloop] at honce
      simp only [Clock.observe, Clock.goTo, takenTicks_append, startedTicks_append]
      refine ⟨by rw [hnumbered]; exact List.append_nil _, ?_⟩
      calc startedTicks clock.events ++ [] ++ ([] ++ clock.ready)
          = startedTicks clock.events ++ ([] ++ clock.ready) := by rw [List.append_nil]
        _ ~ takenTicks clock.events := honce
        _ = takenTicks clock.events ++ [] := (List.append_nil _).symm
  | endSpawned | stopReturns | waitReturns =>
      simp only [Clock.observe, takenTicks_append, startedTicks_append]
      refine ⟨by rw [hnumbered]; exact List.append_nil _, ?_⟩
      calc startedTicks clock.events ++ [] ++ (clock.loop.pending ++ clock.ready)
          = startedTicks clock.events ++ (clock.loop.pending ++ clock.ready) := by
            rw [List.append_nil]
        _ ~ takenTicks clock.events := honce
        _ = takenTicks clock.events ++ [] := (List.append_nil _).symm

/-- Every function that has been started has ended once or is running. -/
theorem Consistent.finished_step (hclock : Consistent clock)
    (hstep : Step nonBlocking clock action clock') :
    (endedTicks clock'.events ++ clock'.executing).Perm (startedTicks clock'.events) := by
  have hfinished := hclock.finished
  rw [Clock.executing] at hfinished ⊢
  cases hstep with
  | arrive | closeQuitChan | setQuit | doneSpawned | othersAdd | othersDone => exact hfinished
  | takeQuit hloop | addGoroutine _ hloop | goTick hloop | stopTicker hloop | doneLoop hloop =>
      rw [hloop] at hfinished
      exact hfinished
  | checkQuit hloop =>
      rw [hloop] at hfinished
      rw [Clock.goTo]
      dsimp only
      split <;> exact hfinished
  | takeTick hloop =>
      rw [hloop] at hfinished
      simp only [Clock.observe, Clock.goTo, endedTicks_append, startedTicks_append]
      calc endedTicks clock.events ++ [] ++ ([] ++ clock.running)
          = endedTicks clock.events ++ ([] ++ clock.running) := by rw [List.append_nil]
        _ ~ startedTicks clock.events := hfinished
        _ = startedTicks clock.events ++ [] := (List.append_nil _).symm
  | @startInline tick _ hloop =>
      rw [hloop] at hfinished
      simp only [Clock.observe, Clock.goTo, endedTicks_append, startedTicks_append]
      calc endedTicks clock.events ++ [] ++ ([tick] ++ clock.running)
          = endedTicks clock.events ++ tick :: clock.running := by
            rw [List.append_nil, List.singleton_append]
        _ ~ tick :: (endedTicks clock.events ++ clock.running) := List.perm_middle
        _ ~ tick :: startedTicks clock.events := hfinished.cons tick
        _ ~ startedTicks clock.events ++ [tick] := (List.perm_append_singleton _ _).symm
  | @endInline tick hloop =>
      rw [hloop] at hfinished
      simp only [Clock.observe, Clock.goTo, endedTicks_append, startedTicks_append]
      calc endedTicks clock.events ++ [tick] ++ ([] ++ clock.running)
          = endedTicks clock.events ++ ([tick] ++ clock.running) := List.append_assoc ..
        _ ~ startedTicks clock.events := hfinished
        _ = startedTicks clock.events ++ [] := (List.append_nil _).symm
  | @startSpawned tick hready =>
      simp only [Clock.observe, endedTicks_append, startedTicks_append]
      calc endedTicks clock.events ++ [] ++ (clock.loop.executing ++ (clock.running ++ [tick]))
          = endedTicks clock.events ++ (clock.loop.executing ++ clock.running) ++ [tick] := by
            rw [List.append_nil, List.append_assoc, List.append_assoc]
        _ ~ startedTicks clock.events ++ [tick] := hfinished.append_right [tick]
  | @endSpawned tick hrunning =>
      simp only [Clock.observe, endedTicks_append, startedTicks_append]
      calc endedTicks clock.events ++ [tick] ++
            (clock.loop.executing ++ clock.running.erase tick)
          ~ endedTicks clock.events ++ (clock.loop.executing ++ clock.running) :=
            perm_moved hrunning
        _ ~ startedTicks clock.events := hfinished
        _ = startedTicks clock.events ++ [] := (List.append_nil _).symm
  | stopReturns | waitReturns =>
      simp only [Clock.observe, endedTicks_append, startedTicks_append]
      calc endedTicks clock.events ++ [] ++ (clock.loop.executing ++ clock.running)
          = endedTicks clock.events ++ (clock.loop.executing ++ clock.running) := by
            rw [List.append_nil]
        _ ~ startedTicks clock.events := hfinished
        _ = startedTicks clock.events ++ [] := (List.append_nil _).symm

/-- When the wait group is empty nothing of the clock is left. -/
theorem Consistent.idle_of_wg (hclock : Consistent clock) (hzero : clock.wg = 0) :
    clock.loop = .done ∧ clock.ready = [] ∧ clock.running = [] ∧ clock.ended = [] := by
  have hcounted := hclock.counted
  have hshare : clock.loop.share = 0 := by omega
  have hdone : clock.loop = .done := by
    cases hloop : clock.loop <;> rw [hloop] at hshare <;> first | rfl | cases hshare
  refine ⟨hdone, ?_, ?_, ?_⟩ <;> rw [← List.length_eq_zero_iff] <;> omega

/-- A clock that nothing is left of stays so. -/
theorem Consistent.waited_step (hclock : Consistent clock)
    (hstep : Step nonBlocking clock action clock') :
    (.waitReturned ∈ clock'.events → clock'.loop = .done ∧ clock'.ready = [] ∧
      clock'.running = [] ∧ clock'.ended = []) ∧ SilentAfter .waitReturned clock'.events := by
  have hwaited := hclock.waited
  have hsilent := hclock.silent
  cases hstep with
  | arrive | closeQuitChan | setQuit | othersAdd | othersDone => exact ⟨hwaited, hsilent⟩
  | takeQuit hloop | addGoroutine _ hloop | goTick hloop | checkQuit hloop | stopTicker hloop
  | doneLoop hloop =>
      have hnot := hclock.not_waited (Or.inl (by rw [hloop]; exact Loop.noConfusion))
      exact ⟨fun h => absurd h hnot, hsilent⟩
  | doneSpawned hended =>
      have hnot := hclock.not_waited (Or.inr (Or.inr (Or.inr (List.ne_nil_of_mem hended))))
      exact ⟨fun h => absurd h hnot, hsilent⟩
  | takeTick hloop | startInline _ hloop | endInline hloop =>
      have hnot := hclock.not_waited (Or.inl (by rw [hloop]; exact Loop.noConfusion))
      refine ⟨fun h => ?_, hsilent.concat fun h => absurd h hnot⟩
      simp [Clock.observe, Clock.goTo, hnot] at h
  | startSpawned hready =>
      have hnot := hclock.not_waited (Or.inr (Or.inl (List.ne_nil_of_mem hready)))
      refine ⟨fun h => ?_, hsilent.concat fun h => absurd h hnot⟩
      simp [Clock.observe, hnot] at h
  | endSpawned hrunning =>
      have hnot := hclock.not_waited (Or.inr (Or.inr (Or.inl (List.ne_nil_of_mem hrunning))))
      refine ⟨fun h => ?_, hsilent.concat fun h => absurd h hnot⟩
      simp [Clock.observe, hnot] at h
  | stopReturns =>
      refine ⟨fun h => hwaited ?_, hsilent.concat fun _ => rfl⟩
      simpa [Clock.observe] using h
  | waitReturns hzero =>
      exact ⟨fun _ => hclock.idle_of_wg hzero, hsilent.concat fun _ => rfl⟩

theorem Consistent.step (hclock : Consistent clock)
    (hstep : Step nonBlocking clock action clock') : Consistent clock' where
  counted := hclock.counted_step hstep
  numbered := (hclock.once_step hstep).1
  once := (hclock.once_step hstep).2
  finished := hclock.finished_step hstep
  waited := (hclock.waited_step hstep).1
  silent := (hclock.waited_step hstep).2

end Step

/-! ## Runs -/

section Runs

variable {nonBlocking : Bool} {allowed : Action → Clock → Prop} {clock clock' : Clock}

theorem Runs.consistent (hruns : Runs nonBlocking allowed clock) : Consistent clock := by
  induction hruns with
  | started others => exact consistent_started others
  | step _ _ hstep ih => exact ih.step hstep

/-- A tick whose function is still to start can start it, whatever else happens. -/
theorem exists_start (nonBlocking : Bool) {tick : ℕ} (hpending : tick ∈ clock.pending) :
    ∃ clock', Reaches nonBlocking clock clock' ∧
      clock'.events = clock.events ++ [.tickStarted tick] := by
  have hspawned : ∀ clock : Clock, tick ∈ clock.ready → ∃ clock',
      Reaches nonBlocking clock clock' ∧
        clock'.events = clock.events ++ [.tickStarted tick] :=
    fun clock hready => ⟨_, .single ⟨_, .startSpawned hready⟩, rfl⟩
  have hadded : ∀ clock : Clock, clock.loop = .added tick → ∃ clock',
      Reaches nonBlocking clock clock' ∧
        clock'.events = clock.events ++ [.tickStarted tick] := by
    intro clock hloop
    obtain ⟨clock', hreaches, hevents⟩ := hspawned
      ({ clock with ready := clock.ready ++ [tick] }.goTo .checking)
      (List.mem_append_right _ (List.mem_singleton_self tick))
    exact ⟨clock', .head ⟨_, .goTick hloop⟩ hreaches, hevents⟩
  rw [Clock.pending, List.mem_append] at hpending
  cases hpending with
  | inr hready => exact hspawned clock hready
  | inl hloop =>
      cases hstate : clock.loop with
      | took other =>
          rw [hstate, Loop.pending, List.mem_singleton] at hloop
          subst hloop
          cases hmode : nonBlocking with
          | false => exact ⟨_, .single ⟨_, .startInline rfl hstate⟩, rfl⟩
          | true =>
              rw [hmode] at hadded
              obtain ⟨clock', hreaches, hevents⟩ := hadded
                ({ clock with wg := clock.wg + 1 }.goTo (.added tick)) rfl
              exact ⟨clock', .head ⟨_, .addGoroutine rfl hstate⟩ hreaches, hevents⟩
      | added other =>
          rw [hstate, Loop.pending, List.mem_singleton] at hloop
          subst hloop
          exact hadded clock hstate
      | selecting | ticking | checking | stopping | returning | done =>
          rw [hstate] at hloop
          exact absurd hloop List.not_mem_nil

/-- Every tick that is taken runs its function once: it has been started or can still be, and
none has been started twice. -/
structure TicksRunOnce (nonBlocking : Bool) (clock : Clock) : Prop where
  once : (startedTicks clock.events ++ clock.pending).Perm (takenTicks clock.events)
  nodup : (takenTicks clock.events).Nodup
  starts : ∀ tick ∈ clock.pending, ∃ clock', Reaches nonBlocking clock clock' ∧
    tick ∈ startedTicks clock'.events

/-- When the wait group has been waited for, all functions have ended and none starts. -/
structure WaitsForTicks (clock : Clock) : Prop where
  idle : .waitReturned ∈ clock.events → clock.pending = [] ∧ clock.executing = [] ∧
    (endedTicks clock.events).Perm (takenTicks clock.events)
  silent : SilentAfter .waitReturned clock.events

theorem Consistent.ticksRunOnce (hclock : Consistent clock) : TicksRunOnce nonBlocking clock where
  once := hclock.once
  nodup := by
    rw [hclock.numbered]
    exact List.nodup_range
  starts := by
    intro tick hpending
    obtain ⟨clock', hreaches, hevents⟩ := exists_start nonBlocking hpending
    refine ⟨clock', hreaches, ?_⟩
    rw [hevents, startedTicks_append]
    exact List.mem_append_right _ (List.mem_singleton_self tick)

theorem Consistent.waitsForTicks (hclock : Consistent clock) : WaitsForTicks clock where
  idle := by
    intro hwaited
    obtain ⟨hdone, hready, hrunning, -⟩ := hclock.waited hwaited
    have hpending : clock.pending = [] := by rw [Clock.pending, hdone, hready]; rfl
    have hexecuting : clock.executing = [] := by rw [Clock.executing, hdone, hrunning]; rfl
    have hstarted := hclock.once
    have hended := hclock.finished
    rw [hpending, List.append_nil] at hstarted
    rw [hexecuting, List.append_nil] at hended
    exact ⟨hpending, hexecuting, hended.trans hstarted⟩
  silent := hclock.silent

/-! ## Stopping -/

/-- When `Stop` returns, no tick waits for its function to start, and from then on the `select`
does not choose a tick. -/
def punctual : Action → Clock → Prop
  | .takeTick, clock => .stopReturned ∉ clock.events
  | .stopReturns, clock => clock.pending = []
  | _, _ => True

/-- After `Stop` nothing is left to start. -/
structure Quiet (clock : Clock) : Prop where
  pending : .stopReturned ∈ clock.events → clock.pending = []
  silent : SilentAfter .stopReturned clock.events

theorem Quiet.not_stopped (hquiet : Quiet clock)
    (hpending : clock.loop.pending ≠ [] ∨ clock.ready ≠ []) : .stopReturned ∉ clock.events := by
  intro hstopped
  have hnone := hquiet.pending hstopped
  rw [Clock.pending, List.append_eq_nil_iff] at hnone
  simp [hnone] at hpending

theorem Quiet.step {action : Action} (hquiet : Quiet clock) (hpunctual : punctual action clock)
    (hstep : Step nonBlocking clock action clock') : Quiet clock' := by
  have hpending := hquiet.pending
  have hsilent := hquiet.silent
  cases hstep with
  | arrive | closeQuitChan | setQuit | doneSpawned | othersAdd | othersDone =>
      exact ⟨hpending, hsilent⟩
  | takeQuit hloop | stopTicker hloop | doneLoop hloop =>
      rw [Clock.pending, hloop] at hpending
      exact ⟨hpending, hsilent⟩
  | checkQuit hloop =>
      rw [Clock.pending, hloop] at hpending
      refine ⟨?_, hsilent⟩
      rw [Clock.pending, Clock.goTo]
      dsimp only
      split <;> exact hpending
  | addGoroutine _ hloop | goTick hloop =>
      have hnot := hquiet.not_stopped (Or.inl (by rw [hloop]; exact List.cons_ne_nil _ _))
      exact ⟨fun h => absurd h hnot, hsilent⟩
  | takeTick =>
      refine ⟨fun h => ?_, hsilent.concat fun _ => rfl⟩
      exact absurd h (by simpa [Clock.observe, Clock.goTo, punctual] using hpunctual)
  | startInline _ hloop =>
      have hnot := hquiet.not_stopped (Or.inl (by rw [hloop]; exact List.cons_ne_nil _ _))
      refine ⟨fun h => ?_, hsilent.concat fun h => absurd h hnot⟩
      exact absurd h (by simpa [Clock.observe, Clock.goTo] using hnot)
  | startSpawned hready =>
      have hnot := hquiet.not_stopped (Or.inr (List.ne_nil_of_mem hready))
      refine ⟨fun h => ?_, hsilent.concat fun h => absurd h hnot⟩
      exact absurd h (by simpa [Clock.observe] using hnot)
  | endInline hloop =>
      rw [Clock.pending, hloop] at hpending
      refine ⟨fun h => hpending ?_, hsilent.concat fun _ => rfl⟩
      simpa [Clock.observe, Clock.goTo] using h
  | endSpawned | waitReturns =>
      refine ⟨fun h => hpending ?_, hsilent.concat fun _ => rfl⟩
      simpa [Clock.observe] using h
  | stopReturns => exact ⟨fun _ => hpunctual, hsilent.concat fun _ => rfl⟩

theorem Runs.quiet (hruns : Runs nonBlocking punctual clock) : Quiet clock := by
  induction hruns with
  | started others => exact ⟨fun h => absurd h List.not_mem_nil, .nil _⟩
  | step _ hpunctual hstep ih => exact ih.step hpunctual hstep

/-- A clock whose `Stop` finds nothing left to start and whose `select` then keeps to the closed
channel is stopped when `Stop` returns.  Its ticks run once and are waited for, as those of
every clock. -/
theorem clock_stops (hruns : Runs nonBlocking punctual clock) :
    SilentAfter .stopReturned clock.events ∧ TicksRunOnce nonBlocking clock ∧
      WaitsForTicks clock :=
  ⟨hruns.quiet.silent, hruns.consistent.ticksRunOnce, hruns.consistent.waitsForTicks⟩

/-- The condition leaves out only what goes wrong: after any other step of any run a tick
function can start behind the return of `Stop`. -/
theorem exists_late_start {action : Action} (hstep : Step nonBlocking clock action clock')
    (hnot : ¬ punctual action clock) :
    ∃ later, Reaches nonBlocking clock' later ∧ ¬ SilentAfter .stopReturned later.events := by
  have hstopped : .stopReturned ∈ clock'.events ∧ ∃ tick, tick ∈ clock'.pending := by
    cases hstep with
    | takeTick hloop =>
        have hstopped := not_not.mp hnot
        exact ⟨List.mem_append_left _ hstopped, clock.taken, List.mem_cons_self⟩
    | stopReturns =>
        exact ⟨List.mem_append_right _ (List.mem_singleton_self _),
          List.exists_mem_of_ne_nil _ hnot⟩
    | _ => exact absurd trivial hnot
  obtain ⟨hstopped, tick, hpending⟩ := hstopped
  obtain ⟨later, hreaches, hevents⟩ := exists_start nonBlocking hpending
  refine ⟨later, hreaches, fun hsilent => ?_⟩
  obtain ⟨before, after, hsplit⟩ := List.append_of_mem hstopped
  have hnone := hsilent before (after ++ [.tickStarted tick]) (by
    rw [hevents, hsplit, List.append_assoc, List.cons_append])
  rw [startedTicks_append, List.append_eq_nil_iff] at hnone
  exact absurd hnone.2 (List.cons_ne_nil _ _)

end Runs

/-- A non-blocking clock takes two ticks and is stopped while the function of the second one is
running.  Its `select` finds the closed channel, and the wait group waits for the function. -/
theorem clock_stops_two_ticks : ∃ clock,
    clock.events = [.tickTaken 0, .tickStarted 0, .tickTaken 1, .tickStarted 1, .tickEnded 0,
      .stopReturned, .tickEnded 1, .waitReturned] ∧
    SilentAfter .stopReturned clock.events ∧ TicksRunOnce true clock ∧ WaitsForTicks clock := by
  have hready : Runs true punctual ⟨2, .selecting, [], [], [], false, false, 1, 0, 0, []⟩ :=
    ((Runs.started 0).step (by trivial) (.arrive _)).step (by trivial) (.arrive _)
  have hspawned : Runs true punctual
      ⟨1, .checking, [0], [], [], false, false, 2, 0, 1, [.tickTaken 0]⟩ :=
    ((hready.step (by exact List.not_mem_nil) (.takeTick rfl Nat.two_pos)).step (by trivial)
      (.addGoroutine rfl rfl)).step (by trivial) (.goTick rfl)
  have hrunning : Runs true punctual
      ⟨1, .selecting, [], [0], [], false, false, 2, 0, 1, [.tickTaken 0, .tickStarted 0]⟩ :=
    (hspawned.step (by trivial) (.startSpawned List.mem_cons_self)).step (by trivial)
      (.checkQuit rfl)
  have hadded : Runs true punctual ⟨0, .checking, [1], [0], [], false, false, 3, 0, 2,
      [.tickTaken 0, .tickStarted 0, .tickTaken 1]⟩ :=
    ((hrunning.step (by simp [punctual]) (.takeTick rfl Nat.one_pos)).step (by trivial)
      (.addGoroutine rfl rfl)).step (by trivial) (.goTick rfl)
  have hboth : Runs true punctual ⟨0, .checking, [], [0, 1], [], false, false, 3, 0, 2,
      [.tickTaken 0, .tickStarted 0, .tickTaken 1, .tickStarted 1]⟩ :=
    hadded.step (show punctual (.startSpawned 1) _ from trivial)
      (.startSpawned (List.mem_singleton_self 1))
  have hended : Runs true punctual ⟨0, .selecting, [], [1], [], false, false, 2, 0, 2,
      [.tickTaken 0, .tickStarted 0, .tickTaken 1, .tickStarted 1, .tickEnded 0]⟩ :=
    ((hboth.step (by trivial) (.endSpawned List.mem_cons_self)).step (by trivial)
      (.doneSpawned List.mem_cons_self)).step (by trivial) (.checkQuit rfl)
  have hstopped : Runs true punctual ⟨0, .selecting, [], [1], [], true, true, 2, 0, 2,
      [.tickTaken 0, .tickStarted 0, .tickTaken 1, .tickStarted 1, .tickEnded 0,
        .stopReturned]⟩ :=
    ((hended.step (by trivial) (.closeQuitChan rfl)).step (by trivial)
      (.setQuit rfl rfl)).step (by rfl) (.stopReturns rfl (by decide))
  have hreturned : Runs true punctual ⟨0, .done, [], [1], [], true, true, 1, 0, 2,
      [.tickTaken 0, .tickStarted 0, .tickTaken 1, .tickStarted 1, .tickEnded 0,
        .stopReturned]⟩ :=
    ((hstopped.step (by trivial) (.takeQuit rfl rfl)).step (by trivial)
      (.stopTicker rfl)).step (by trivial) (.doneLoop rfl)
  have hwaited : Runs true punctual ⟨0, .done, [], [], [], true, true, 0, 0, 2,
      [.tickTaken 0, .tickStarted 0, .tickTaken 1, .tickStarted 1, .tickEnded 0,
        .stopReturned, .tickEnded 1, .waitReturned]⟩ :=
    ((hreturned.step (by trivial) (.endSpawned List.mem_cons_self)).step (by trivial)
      (.doneSpawned List.mem_cons_self)).step (by trivial) (.waitReturns rfl)
  exact ⟨_, rfl, clock_stops hwaited⟩

/-- A blocking clock finds both a tick and the closed channel after `Stop` has returned, takes
the tick and runs its function. -/
theorem not_silent_after_stop : ¬ ∀ nonBlocking clock,
    Runs nonBlocking (fun _ _ => True) clock → SilentAfter .stopReturned clock.events := by
  intro h
  have hready : Runs false (fun _ _ => True) { Clock.started 0 with channel := 1 } :=
    .step (.started 0) trivial (.arrive _)
  have hclosed := hready.step trivial (.closeQuitChan rfl)
  have hquit := hclosed.step trivial (.setQuit rfl rfl)
  have hstopped := hquit.step trivial (.stopReturns rfl List.not_mem_nil)
  have htook := hstopped.step trivial (.takeTick rfl Nat.one_pos)
  have hstarted := htook.step trivial (.startInline rfl rfl)
  exact absurd (h false _ hstarted [] [.tickTaken 0, .tickStarted 0] rfl)
    (List.cons_ne_nil _ _)

end EasyTrade.Aggregator

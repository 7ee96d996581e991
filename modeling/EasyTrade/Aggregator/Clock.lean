import Mathlib

/-!
# The clock of the aggregator

The goroutine of a clock, the goroutines with its tick functions, the caller of `Stop`
and the wait group, as the steps they take on sequentially consistent memory.  A log
keeps what can be observed; the program keeps no such record.
-/

namespace EasyTrade.Aggregator

/-- What the log of a run records.  Ticks are numbered as they are taken from the channel. -/
inductive Event
  | tickTaken (tick : ℕ)
  | tickStarted (tick : ℕ)
  | tickEnded (tick : ℕ)
  | stopReturned
  | waitReturned
  deriving DecidableEq, Repr

/-- Where the goroutine that `StartWithClockTimer` starts is in its loop: at the `select`; with a
tick taken from the channel, after `s.wg.Add(1)` for its goroutine or inside of `s.tick()`; in
front of `if s.quit`, of `ct.Stop()` and of the deferred `s.wg.Done()`. -/
inductive Loop
  | selecting
  | took (tick : ℕ)
  | added (tick : ℕ)
  | ticking (tick : ℕ)
  | checking
  | stopping
  | returning
  | done
  deriving DecidableEq, Repr

/-- The channel with the ticks that are ready to be taken; the goroutines with tick functions that
are still to start, that run, and that have ended but for their deferred `s.wg.Done()`; and the
counter of the wait group, which others may use as well. -/
structure Clock where
  channel : ℕ
  loop : Loop
  ready : List ℕ
  running : List ℕ
  ended : List ℕ
  quitChanClosed : Bool
  quit : Bool
  wg : ℕ
  others : ℕ
  taken : ℕ
  events : List Event
  deriving DecidableEq, Repr

/-- `StartWithClockTimer` has returned: the wait group counts the goroutine of the clock. -/
def Clock.started (others : ℕ) : Clock where
  channel := 0
  loop := .selecting
  ready := []
  running := []
  ended := []
  quitChanClosed := false
  quit := false
  wg := others + 1
  others := others
  taken := 0
  events := []

namespace Clock

def observe (clock : Clock) (event : Event) : Clock :=
  { clock with events := clock.events ++ [event] }

def goTo (clock : Clock) (loop : Loop) : Clock := { clock with loop := loop }

end Clock

inductive Action
  | arrive | takeTick | takeQuit | addGoroutine | goTick | startInline | endInline
  | startSpawned (tick : ℕ) | endSpawned (tick : ℕ) | doneSpawned (tick : ℕ)
  | checkQuit | stopTicker | doneLoop
  | closeQuitChan | setQuit | stopReturns
  | waitReturns | othersAdd | othersDone
  deriving DecidableEq, Repr

/-- One step of a clock: of its loop, of a goroutine with a tick function, of `Stop`, of whoever
waits for the wait group, or of the others that use it. -/
inductive Step (nonBlocking : Bool) : Clock → Action → Clock → Prop
  | arrive (clock : Clock) :
      Step nonBlocking clock .arrive { clock with channel := clock.channel + 1 }
  | takeTick {clock : Clock} (hloop : clock.loop = .selecting) (hready : 0 < clock.channel) :
      Step nonBlocking clock .takeTick
        (({ clock with channel := clock.channel - 1, taken := clock.taken + 1 }.goTo
          (.took clock.taken)).observe (.tickTaken clock.taken))
  | takeQuit {clock : Clock} (hloop : clock.loop = .selecting)
      (hready : clock.quitChanClosed = true) :
      Step nonBlocking clock .takeQuit (clock.goTo .stopping)
  | addGoroutine {clock : Clock} {tick : ℕ} (hmode : nonBlocking = true)
      (hloop : clock.loop = .took tick) :
      Step nonBlocking clock .addGoroutine ({ clock with wg := clock.wg + 1 }.goTo (.added tick))
  | goTick {clock : Clock} {tick : ℕ} (hloop : clock.loop = .added tick) :
      Step nonBlocking clock .goTick
        ({ clock with ready := clock.ready ++ [tick] }.goTo .checking)
  | startInline {clock : Clock} {tick : ℕ} (hmode : nonBlocking = false)
      (hloop : clock.loop = .took tick) :
      Step nonBlocking clock .startInline
        ((clock.goTo (.ticking tick)).observe (.tickStarted tick))
  | endInline {clock : Clock} {tick : ℕ} (hloop : clock.loop = .ticking tick) :
      Step nonBlocking clock .endInline ((clock.goTo .checking).observe (.tickEnded tick))
  | startSpawned {clock : Clock} {tick : ℕ} (hready : tick ∈ clock.ready) :
      Step nonBlocking clock (.startSpawned tick)
        ({ clock with
          ready := clock.ready.erase tick
          running := clock.running ++ [tick] }.observe (.tickStarted tick))
  | endSpawned {clock : Clock} {tick : ℕ} (hrunning : tick ∈ clock.running) :
      Step nonBlocking clock (.endSpawned tick)
        ({ clock with
          running := clock.running.erase tick
          ended := clock.ended ++ [tick] }.observe (.tickEnded tick))
  | doneSpawned {clock : Clock} {tick : ℕ} (hended : tick ∈ clock.ended) :
      Step nonBlocking clock (.doneSpawned tick)
        { clock with ended := clock.ended.erase tick, wg := clock.wg - 1 }
  | checkQuit {clock : Clock} (hloop : clock.loop = .checking) :
      Step nonBlocking clock .checkQuit
        (clock.goTo (if clock.quit then .stopping else .selecting))
  | stopTicker {clock : Clock} (hloop : clock.loop = .stopping) :
      Step nonBlocking clock .stopTicker (clock.goTo .returning)
  | doneLoop {clock : Clock} (hloop : clock.loop = .returning) :
      Step nonBlocking clock .doneLoop ({ clock with wg := clock.wg - 1 }.goTo .done)
  | closeQuitChan {clock : Clock} (hopen : clock.quitChanClosed = false) :
      Step nonBlocking clock .closeQuitChan { clock with quitChanClosed := true }
  | setQuit {clock : Clock} (hclosed : clock.quitChanClosed = true) (hquit : clock.quit = false) :
      Step nonBlocking clock .setQuit { clock with quit := true }
  | stopReturns {clock : Clock} (hquit : clock.quit = true)
      (hcalled : .stopReturned ∉ clock.events) :
      Step nonBlocking clock .stopReturns (clock.observe .stopReturned)
  | waitReturns {clock : Clock} (hzero : clock.wg = 0) :
      Step nonBlocking clock .waitReturns (clock.observe .waitReturned)
  | othersAdd (clock : Clock) :
      Step nonBlocking clock .othersAdd
        { clock with others := clock.others + 1, wg := clock.wg + 1 }
  | othersDone {clock : Clock} (hothers : 0 < clock.others) :
      Step nonBlocking clock .othersDone
        { clock with others := clock.others - 1, wg := clock.wg - 1 }

/-- What can be reached when every step is one of those allowed in its state. -/
inductive Runs (nonBlocking : Bool) (allowed : Action → Clock → Prop) : Clock → Prop
  | started (others : ℕ) : Runs nonBlocking allowed (Clock.started others)
  | step {clock clock' : Clock} {action : Action} (hruns : Runs nonBlocking allowed clock)
      (hallowed : allowed action clock) (hstep : Step nonBlocking clock action clock') :
      Runs nonBlocking allowed clock'

abbrev Reaches (nonBlocking : Bool) : Clock → Clock → Prop :=
  Relation.ReflTransGen fun clock clock' => ∃ action, Step nonBlocking clock action clock'

/-! ## Reading the log -/

def Event.taken? : Event → Option ℕ
  | tickTaken tick => some tick
  | _ => none

def Event.started? : Event → Option ℕ
  | tickStarted tick => some tick
  | _ => none

def Event.ended? : Event → Option ℕ
  | tickEnded tick => some tick
  | _ => none

/-- The ticks that have been taken, whose functions have been started, and whose functions
have ended. -/
def takenTicks (events : List Event) : List ℕ := events.filterMap Event.taken?

def startedTicks (events : List Event) : List ℕ := events.filterMap Event.started?

def endedTicks (events : List Event) : List ℕ := events.filterMap Event.ended?

/-- No tick function starts after `mark`. -/
def SilentAfter (mark : Event) (events : List Event) : Prop :=
  ∀ before after, events = before ++ mark :: after → startedTicks after = []

/-- The tick that the loop has taken and neither started nor handed over yet. -/
def Loop.pending : Loop → List ℕ
  | took tick => [tick]
  | added tick => [tick]
  | _ => []

def Loop.executing : Loop → List ℕ
  | ticking tick => [tick]
  | _ => []

/-- The loop's part of the counter of the wait group. -/
def Loop.share : Loop → ℕ
  | added _ => 2
  | done => 0
  | _ => 1

namespace Clock

/-- The ticks that have been taken and whose functions are still to start. -/
def pending (clock : Clock) : List ℕ := clock.loop.pending ++ clock.ready

def executing (clock : Clock) : List ℕ := clock.loop.executing ++ clock.running

end Clock

end EasyTrade.Aggregator

import EasyTrade.CardOrders.Writers

/-!
# The hand-over to the courier

A run of the manufacture scheduler first adds a courier process for every finished
card and only then removes the finished ones from its list.  An exception in
between leaves them in the list, and the next run hands them over again.  When no
run fails after it has handed something over, every process is handed over exactly
once: it is in the list until then and leaves it afterwards.
-/

namespace EasyTrade.CardOrders

open EasyTrade.Program EasyTrade.Interleaving

/-! ## The list and what has left it -/

/-- The manufacture list as far as the hand-over is concerned: the identities of its
processes, how many there have been, and those that have been handed over. -/
@[ext]
structure HandOver where
  refs : List ℕ
  modCount : ℕ
  count : ℕ
  handedOver : List ℕ

namespace HandOver

def add (state : HandOver) : HandOver :=
  { state with
    refs := state.refs ++ [state.count]
    modCount := state.modCount + 1
    count := state.count + 1 }

def pass (state : HandOver) (ref : ℕ) : HandOver :=
  { state with handedOver := state.handedOver ++ [ref] }

def remove (state : HandOver) (ref : ℕ) : HandOver :=
  if ref ∈ state.refs then
    { state with refs := state.refs.erase ref, modCount := state.modCount + 1 }
  else state

/-- Every process has been handed over at most once, and exactly once when it is no
longer in the list. -/
structure Once (state : HandOver) : Prop where
  atMostOnce : ∀ ref, state.handedOver.count ref ≤ 1
  exactlyOnce : ∀ ref < state.count, ref ∉ state.refs → state.handedOver.count ref = 1

structure Consistent (state : HandOver) : Prop where
  nodup : state.refs.Nodup
  below : ∀ ref ∈ state.refs, ref < state.count
  once : state.handedOver.Nodup
  handedBelow : ∀ ref ∈ state.handedOver, ref < state.count
  gone : ∀ ref < state.count, ref ∉ state.refs → ref ∈ state.handedOver

/-- How far a run of the scheduler has come. -/
structure Progress where
  /-- The modification count that the iterator expects. -/
  expected : ℕ
  /-- How many processes it has returned. -/
  cursor : ℕ
  /-- The last of them, unless it has been handed over. -/
  current : Option ℕ
  /-- What has been handed over and not been removed. -/
  handed : List ℕ
  /-- What has been handed over. -/
  passed : List ℕ

namespace Progress

def start : Progress := ⟨0, 0, none, [], []⟩

/-- What a scheduler may rely on: nothing in the list has been handed over unless it
knows, and its iterator throws when the list is no longer as it was. -/
structure Tracks (progress : Progress) (state : HandOver) : Prop where
  expected : progress.expected ≤ state.modCount
  returned : state.modCount = progress.expected →
    ∀ ref ∈ progress.handed, ref ∈ state.refs.take progress.cursor
  current : ∀ ref, progress.current = some ref → ref ∈ state.refs ∧ ref ∉ progress.handed ∧
    (state.modCount = progress.expected → ref ∈ state.refs.take progress.cursor)
  passed : ∀ ref ∈ progress.passed, ref ∈ state.handedOver
  handed : ∀ ref ∈ state.refs, ref ∈ state.handedOver → ref ∈ progress.handed

/-- `syncList.iterator()`. -/
def iterate (progress : Progress) (modCount : ℕ) : Progress :=
  { progress with expected := modCount, cursor := 0, current := none }

/-- The iterator returns the process `ref`. -/
def advance (progress : Progress) (ref : ℕ) : Progress :=
  { progress with cursor := progress.cursor + 1, current := some ref }

def handOver (progress : Progress) (ref : ℕ) : Progress :=
  { progress with
    current := none
    handed := ref :: progress.handed
    passed := ref :: progress.passed }

def remove (progress : Progress) (ref : ℕ) : Progress :=
  { progress with current := none, handed := progress.handed.filter (· ≠ ref) }

end Progress

section Operations

variable {state : HandOver} {progress : Progress} {ref : ℕ}

theorem Consistent.toOnce (hstate : state.Consistent) : state.Once where
  atMostOnce := List.nodup_iff_count_le_one.mp hstate.once
  exactlyOnce ref href hgone :=
    List.count_eq_one_of_mem hstate.once (hstate.gone ref href hgone)

theorem Consistent.add (hstate : state.Consistent) : state.add.Consistent := by
  have hnew : state.count ∉ state.refs := fun hmem => lt_irrefl _ (hstate.below _ hmem)
  refine ⟨?_, fun ref href => ?_, hstate.once, fun ref href => ?_, fun ref href hgone => ?_⟩
  · exact hstate.nodup.append (List.nodup_singleton _) (List.disjoint_singleton.mpr hnew)
  · rcases List.mem_append.mp href with hold | hadded
    · exact (hstate.below ref hold).trans (Nat.lt_succ_self _)
    · rw [List.mem_singleton.mp hadded]
      exact Nat.lt_succ_self _
  · exact (hstate.handedBelow ref href).trans (Nat.lt_succ_self _)
  · have hold : ref ∉ state.refs := fun hmem => hgone (List.mem_append_left _ hmem)
    have hother : ref ≠ state.count := fun heq => hgone (by simp [HandOver.add, heq])
    exact hstate.gone ref (lt_of_le_of_ne (Nat.lt_succ_iff.mp href) hother) hold

theorem Progress.Tracks.add (hstate : state.Consistent) (htracks : progress.Tracks state) :
    progress.Tracks state.add where
  expected := htracks.expected.trans (Nat.le_succ _)
  returned heq := absurd heq (Nat.ne_of_gt (Nat.lt_succ_of_le htracks.expected))
  current ref href := by
    obtain ⟨hmem, hnot, -⟩ := htracks.current ref href
    exact ⟨List.mem_append_left _ hmem, hnot,
      fun heq => absurd heq (Nat.ne_of_gt (Nat.lt_succ_of_le htracks.expected))⟩
  passed := htracks.passed
  handed ref href hover := by
    rcases List.mem_append.mp href with hold | hadded
    · exact htracks.handed ref hold hover
    · rw [List.mem_singleton.mp hadded] at hover
      exact absurd (hstate.handedBelow _ hover) (lt_irrefl _)

/-- A process in the list that is not known to be handed over is handed over. -/
theorem Consistent.pass (hstate : state.Consistent) (htracks : progress.Tracks state)
    (hcurrent : progress.current = some ref) : (state.pass ref).Consistent := by
  obtain ⟨hmem, hnot, -⟩ := htracks.current ref hcurrent
  have hnew : ref ∉ state.handedOver := fun hover => hnot (htracks.handed ref hmem hover)
  refine ⟨hstate.nodup, hstate.below, ?_, fun other hother => ?_, fun other hother hgone => ?_⟩
  · exact hstate.once.append (List.nodup_singleton _) (List.disjoint_singleton.mpr hnew)
  · rcases List.mem_append.mp hother with hold | hadded
    · exact hstate.handedBelow other hold
    · rw [List.mem_singleton.mp hadded]
      exact hstate.below ref hmem
  · exact List.mem_append_left _ (hstate.gone other hother hgone)

theorem Progress.Tracks.pass (htracks : progress.Tracks state)
    (hcurrent : progress.current = some ref) :
    (progress.handOver ref).Tracks (state.pass ref) := by
  obtain ⟨hmem, hnot, hreturned⟩ := htracks.current ref hcurrent
  refine ⟨htracks.expected, fun heq other hother => ?_, fun other hother => (by cases hother),
    fun other hother => ?_, fun other hother hover => ?_⟩
  · rcases List.mem_cons.mp hother with rfl | hold
    · exact hreturned heq
    · exact htracks.returned heq other hold
  · rcases List.mem_cons.mp hother with rfl | hold
    · exact List.mem_append_right _ (List.mem_singleton.mpr rfl)
    · exact List.mem_append_left _ (htracks.passed other hold)
  · rcases List.mem_append.mp hover with hold | hadded
    · exact List.mem_cons_of_mem _ (htracks.handed other hother hold)
    · rw [List.mem_singleton.mp hadded]
      exact List.mem_cons_self

theorem Consistent.remove (hstate : state.Consistent) (hover : ref ∈ state.handedOver) :
    (state.remove ref).Consistent := by
  rw [HandOver.remove]
  split_ifs with hmem
  · refine ⟨hstate.nodup.erase ref, fun other hother => ?_, hstate.once, hstate.handedBelow,
      fun other hother hgone => ?_⟩
    · exact hstate.below other (List.mem_of_mem_erase hother)
    · by_cases hsame : other = ref
      · rw [hsame]
        exact hover
      · exact hstate.gone other hother fun hin =>
          hgone ((List.mem_erase_of_ne hsame).mpr hin)
  · exact hstate

theorem Progress.Tracks.remove (hstate : state.Consistent) (htracks : progress.Tracks state) :
    (progress.remove ref).Tracks (state.remove ref) := by
  rw [HandOver.remove]
  split_ifs with hmem
  · refine ⟨htracks.expected.trans (Nat.le_succ _), fun heq => ?_,
      fun other hother => (by cases hother), htracks.passed, fun other hother hover => ?_⟩
    · exact absurd heq (Nat.ne_of_gt (Nat.lt_succ_of_le htracks.expected))
    · have hne : other ≠ ref := fun heq => hstate.nodup.not_mem_erase (heq ▸ hother)
      exact List.mem_filter.mpr ⟨htracks.handed other (List.mem_of_mem_erase hother) hover,
        decide_eq_true hne⟩
  · refine ⟨htracks.expected, fun heq other hother => ?_, fun other hother => (by cases hother),
      htracks.passed, fun other hother hover => ?_⟩
    · exact htracks.returned heq other (List.mem_filter.mp hother).1
    · have hne : other ≠ ref := fun heq => hmem (heq ▸ hother)
      exact List.mem_filter.mpr ⟨htracks.handed other hother hover, decide_eq_true hne⟩

theorem Progress.Tracks.iterate (htracks : progress.Tracks state) (hnone : progress.handed = []) :
    (progress.iterate state.modCount).Tracks state where
  expected := le_refl _
  returned _ other hother := by
    have hnil : other ∈ progress.handed := hother
    rw [hnone] at hnil
    cases hnil
  current other hother := by cases hother
  passed := htracks.passed
  handed := htracks.handed

/-- Positions differ, and so do the processes at them. -/
theorem Progress.Tracks.advance (hstate : state.Consistent) (htracks : progress.Tracks state)
    (hmodCount : state.modCount = progress.expected)
    (href : state.refs[progress.cursor]? = some ref) : (progress.advance ref).Tracks state := by
  have htake : state.refs.take (progress.cursor + 1) =
      state.refs.take progress.cursor ++ [ref] := by
    rw [List.take_add_one, href]
    rfl
  have hnot : ref ∉ state.refs.take progress.cursor := by
    have hnodup := hstate.nodup.sublist (List.take_sublist (progress.cursor + 1) state.refs)
    rw [htake] at hnodup
    exact List.disjoint_singleton.mp (List.disjoint_of_nodup_append hnodup)
  refine ⟨htracks.expected, fun heq other hother => ?_, fun other hother => ?_, htracks.passed,
    htracks.handed⟩
  · change other ∈ state.refs.take (progress.cursor + 1)
    rw [htake]
    exact List.mem_append_left _ (htracks.returned heq other hother)
  · cases hother
    refine ⟨List.mem_of_getElem? href, fun hhanded => hnot (htracks.returned hmodCount ref hhanded),
      fun _ => ?_⟩
    change ref ∈ state.refs.take (progress.cursor + 1)
    rw [htake]
    exact List.mem_append_right _ (List.mem_singleton.mpr rfl)

end Operations

end HandOver

open HandOver (Progress)

/-! ## The lists of the third party -/

def ThirdParty.handOver (thirdParty : ThirdParty) : HandOver where
  refs := thirdParty.manufacture.elements.map ManufactureProcess.ref
  modCount := thirdParty.manufacture.modCount
  count := thirdParty.manufactureCount
  handedOver := thirdParty.handedOver

/-- What a command means for the hand-over. -/
def ListCommand.effect : ListCommand → HandOver → HandOver
  | addManufactureProcess _, state => state.add
  | removeManufactureProcess ref, state => state.remove ref
  | addCourierProcess cause _, state => state.pass cause
  | _, state => state

theorem map_ref_changeAt (processes : List ManufactureProcess) (ref : ℕ)
    (change : ManufactureProcess → ManufactureProcess)
    (hchange : ∀ old, (change old).ref = old.ref) :
    (processes.map (changeAt ManufactureProcess.ref ref change)).map ManufactureProcess.ref =
      processes.map ManufactureProcess.ref := by
  rw [List.map_map]
  refine List.map_congr_left fun old _ => ?_
  rw [Function.comp_apply, changeAt]
  split_ifs
  · exact hchange old
  · rfl

theorem refs_remove (processes : ArrayList ManufactureProcess) (ref : ℕ) :
    (processes.remove (·.ref = ref)).elements.map ManufactureProcess.ref =
      (processes.elements.map ManufactureProcess.ref).erase ref := by
  rw [ArrayList.elements_remove, List.erase_eq_eraseP, List.eraseP_map]
  congr 2
  funext process
  exact decide_eq_decide.mpr eq_comm

theorem handOver_remove (thirdParty : ThirdParty) (ref : ℕ) :
    ((ListCommand.removeManufactureProcess ref).run thirdParty).2.handOver =
      thirdParty.handOver.remove ref := by
  have hany : thirdParty.manufacture.elements.any (·.ref = ref) = true ↔
      ref ∈ thirdParty.handOver.refs := by
    rw [List.any_eq_true]
    simp only [decide_eq_true_eq]
    exact List.mem_map.symm
  have hrefs := refs_remove thirdParty.manufacture ref
  have hmodCount := thirdParty.manufacture.modCount_remove (·.ref = ref)
  rw [HandOver.remove]
  by_cases hin : ref ∈ thirdParty.handOver.refs
  · rw [if_pos (hany.mpr hin)] at hmodCount
    rw [if_pos hin]
    exact HandOver.ext hrefs hmodCount rfl rfl
  · rw [if_neg (mt hany.mp hin)] at hmodCount
    rw [if_neg hin]
    exact HandOver.ext (hrefs.trans (List.erase_of_not_mem hin)) hmodCount rfl rfl

theorem handOver_run (command : ListCommand) (thirdParty : ThirdParty) :
    (command.run thirdParty).2.handOver = command.effect thirdParty.handOver := by
  cases command with
  | addManufactureProcess request => exact HandOver.ext (List.map_append ..) rfl rfl rfl
  | removeManufactureProcess ref => exact handOver_remove thirdParty ref
  | setManufactureStatus ref status =>
      exact HandOver.ext (map_ref_changeAt _ _ _ fun _ => rfl) rfl rfl rfl
  | setCardDetails ref cardDetails =>
      exact HandOver.ext (map_ref_changeAt _ _ _ fun _ => rfl) rfl rfl rfl
  | _ => rfl

/-! ## Notes of the scheduler -/

def noteProgress : Note CardException Command.Answer Progress
  | progress, .list .manufactureIterator, .ok iterator => progress.iterate iterator.1
  | progress, .list (.manufactureNext ..), .ok process => progress.advance process.ref
  | progress, .list (.addCourierProcess cause _), .ok _ => progress.handOver cause
  | progress, .list (.removeManufactureProcess ref), .ok _ => progress.remove ref
  | progress, _, _ => progress

/-- A command ends a run of the scheduler: it throws, or the response it has got makes
the program throw. -/
def Command.failed : (command : Command) → Except CardException command.Answer → Bool
  | .http (.await _), .ok .failure => true
  | _, .ok _ => false
  | _, .error _ => true

theorem Command.failed_error (command : Command) (error : CardException) :
    command.failed (.error error) = true := by
  cases command with
  | http command => cases command <;> rfl
  | _ => rfl

/-- Nothing fails while a process that has been handed over is still to be removed. -/
def removesHandedOver : Condition CardException Command.Answer (World × Progress) :=
  fun command start answer => start.2.handed ≠ [] → command.failed answer = false

instance (command : Command) (start : World × Progress)
    (answer : Except CardException command.Answer) :
    Decidable (removesHandedOver command start answer) :=
  inferInstanceAs (Decidable (start.2.handed ≠ [] → command.failed answer = false))

/-- How the manufacture scheduler goes about its list. -/
def schedulerGuard : Command → Progress → Prop
  | .list .manufactureIterator, progress => progress.handed = []
  | .list (.manufactureNext cursor expectedModCount), progress =>
      cursor = progress.cursor ∧ expectedModCount = progress.expected
  | .list (.addCourierProcess cause _), progress => progress.current = some cause
  | .list (.removeManufactureProcess ref), progress => ref ∈ progress.passed
  | _, _ => True

/-- Nobody else hands anything over or removes it. -/
def otherGuard : Command → Progress → Prop
  | .list (.addCourierProcess ..), _ | .list (.removeManufactureProcess _), _ => False
  | _, _ => True

def handOverGuard (party : Party) : Command → Progress → Prop :=
  if party = .manufactureScheduler then schedulerGuard else otherGuard

/-! ## The scheduler -/

section Scheduler

/-- A run under the condition that nothing fails while something is to be removed. -/
abbrev Schedules {α : Type} (task : Task α) (post : Except CardException α → Progress → Prop)
    (progress : Progress) : Prop :=
  wp (remembers (fun command progress answer => progress.handed ≠ [] →
    command.failed answer = false) noteProgress) schedulerGuard task post progress

/-- A part of a run that leaves no note; it fails only when nothing is to be removed. -/
def Quiet {α : Type} (task : Task α) : Prop :=
  ∀ progress (post : Except CardException α → Progress → Prop),
    (∀ value, post (.ok value) progress) →
    (progress.handed = [] → ∀ error, post (.error error) progress) →
    Schedules task post progress

variable {α β : Type}

theorem quiet_pure (value : α) : Quiet (pure value) := fun _ _ hok _ => hok value

theorem quiet_bind {task : Task α} {next : α → Task β} (htask : Quiet task)
    (hnext : ∀ value, Quiet (next value)) : Quiet (task >>= next) := by
  intro progress post hok herror
  rw [Schedules, wp_bind]
  exact htask progress _ (fun value => hnext value progress post hok herror) herror

theorem quiet_ite {condition : Prop} [Decidable condition] {task other : Task α}
    (htask : Quiet task) (hother : Quiet other) : Quiet (if condition then task else other) := by
  split_ifs
  · exact htask
  · exact hother

theorem handed_eq_nil {progress : Progress} {command : Command}
    {answer : Except CardException command.Answer}
    (hpermitted : progress.handed ≠ [] → command.failed answer = false)
    (hfailed : command.failed answer = true) : progress.handed = [] := by
  by_contra hhanded
  rw [hpermitted hhanded] at hfailed
  cases hfailed

theorem handed_eq_nil_of_error {progress : Progress} {command : Command} {error : CardException}
    (hpermitted : progress.handed ≠ [] → command.failed (.error error) = false) :
    progress.handed = [] :=
  handed_eq_nil hpermitted (command.failed_error error)

theorem quiet_perform {command : Command} (hguard : ∀ progress, schedulerGuard command progress)
    (hnote : ∀ progress answer, noteProgress progress command answer = progress) :
    Quiet (Prog.perform command) := by
  intro progress post hok herror
  rw [Schedules, wp_remembers_perform]
  refine ⟨hguard progress, fun value _ => ?_, fun error hpermitted => ?_⟩
  · rw [hnote]
    exact hok value
  · rw [hnote]
    exact herror (handed_eq_nil_of_error hpermitted) error

theorem quiet_ambient (command : LocalCommand) : Quiet (ambient command) :=
  quiet_perform (fun _ => trivial) fun _ _ => rfl

theorem quiet_httpCall (request : HttpRequest) : Quiet (httpCall request) := by
  refine quiet_bind (quiet_perform (fun _ => trivial) fun _ _ => rfl) fun call => ?_
  intro progress post hok herror
  rw [Schedules, wp_bind, wp_http]
  refine ⟨trivial, fun response hpermitted => ?_, fun error hpermitted => ?_⟩
  · cases response with
    | standard response => exact hok response
    | failure => exact herror (handed_eq_nil hpermitted rfl) CardException.io
  · exact herror (handed_eq_nil_of_error hpermitted) error

theorem quiet_updateStatus (status : OrderStatus) (orderId : Guid) (details : Details) :
    Quiet (ServiceHelper.updateStatus status orderId details) :=
  quiet_bind (quiet_ambient _) fun _ => quiet_bind (quiet_httpCall _) fun _ => quiet_pure ()

/-- Working on a process that is not finished hands nothing over. -/
theorem quiet_processIssueAndErrorStatus (process : ManufactureProcess) :
    Quiet (ManufactureScheduler.processIssueAndErrorStatus process) := by
  have hstatus : ∀ status, Quiet (list (.setManufactureStatus process.ref status)) := fun status =>
    quiet_perform (fun _ => trivial) fun _ _ => rfl
  have hdetails : ∀ details, Quiet (list (.setCardDetails process.ref details)) := fun details =>
    quiet_perform (fun _ => trivial) fun _ _ => rfl
  have hlate : ∀ errorBody : ErrorRequest, Quiet (do
      list (.setManufactureStatus process.ref .manufactureError)
      ServiceHelper.updateStatus .cardError process.request.creditCardOrderId
        (.error errorBody)) := fun errorBody =>
    quiet_bind (hstatus _) fun _ => quiet_updateStatus _ _ _
  have hcard : Quiet (ManufactureScheduler.generateCardDetails process.request.cardLevel) :=
    quiet_bind (quiet_ambient _) fun _ => quiet_bind (quiet_ambient _) fun _ =>
      quiet_bind (quiet_ambient _) fun _ => quiet_bind (quiet_ambient _) fun _ =>
        quiet_bind (quiet_ambient _) fun _ => quiet_pure _
  refine quiet_bind (quiet_ambient _) fun crisis => ?_
  refine quiet_ite ?_ (quiet_bind (quiet_ambient _) fun chance => ?_)
  · exact quiet_ite (hlate .factoryFailure) (quiet_pure ())
  · refine quiet_ite (quiet_bind (quiet_ambient _) fun coin => ?_) ?_
    · exact quiet_ite (hlate .delayOnChips) (hlate .factoryFailure)
    · exact quiet_bind hcard fun cardBody => quiet_bind (hdetails _) fun _ =>
        quiet_bind (hstatus _) fun _ => quiet_updateStatus _ _ _

/-- The process that the iterator has just returned is handed over when its card is
finished, and only then is it to be removed. -/
theorem schedules_processOne {process : ManufactureProcess} {progress : Progress}
    {post : Except CardException (List ManufactureProcess) → Progress → Prop}
    (hcurrent : progress.current = some process.ref) (hkept : post (.ok []) progress)
    (hhanded : post (.ok [process]) (progress.handOver process.ref))
    (hfailed : progress.handed = [] → ∀ error, post (.error error) progress) :
    Schedules (ManufactureScheduler.processOne process) post progress := by
  rw [ManufactureScheduler.processOne]
  cases process.status with
  | issuing | manufactureError =>
      dsimp only
      rw [Schedules, wp_bind]
      exact quiet_processIssueAndErrorStatus process progress _ (fun _ => hkept) hfailed
  | cardCreated =>
      dsimp only
      rw [Schedules, wp_bind, wp_list]
      exact ⟨hcurrent, fun _ _ => hhanded, fun error hpermitted =>
        hfailed (handed_eq_nil_of_error hpermitted) error⟩

/-- A loop over the list has returned what it has handed over, or failed without
anything left to be removed. -/
def Processed (before : Progress) :
    Except CardException (List ManufactureProcess) → Progress → Prop
  | .ok removed, after =>
      (∀ ref ∈ after.handed, ref ∈ before.handed ∨ ref ∈ removed.map ManufactureProcess.ref) ∧
      (∀ ref ∈ before.passed, ref ∈ after.passed) ∧
      ∀ ref ∈ removed.map ManufactureProcess.ref, ref ∈ after.passed
  | .error _, after => after.handed = []

theorem processed_nil (progress : Progress) : Processed progress (.ok []) progress :=
  ⟨fun _ => Or.inl, fun _ => id, fun _ hnil => absurd hnil List.not_mem_nil⟩

theorem Processed.cons {before after : Progress} {process : ManufactureProcess}
    {removed : List ManufactureProcess}
    (hprocessed : Processed (before.handOver process.ref) (.ok removed) after) :
    Processed before (.ok (process :: removed)) after := by
  obtain ⟨hhanded, hpassed, hremoved⟩ := hprocessed
  refine ⟨fun ref href => ?_, fun ref href => hpassed ref (List.mem_cons_of_mem _ href),
    fun ref href => ?_⟩
  · rcases hhanded ref href with hbefore | hrest
    · rcases List.mem_cons.mp hbefore with rfl | hold
      · exact Or.inr List.mem_cons_self
      · exact Or.inl hold
    · exact Or.inr (List.mem_cons_of_mem _ hrest)
  · rcases List.mem_cons.mp href with rfl | hrest
    · exact hpassed _ List.mem_cons_self
    · exact hremoved ref hrest

/-- The list of what is to be removed grows at its front. -/
theorem schedules_append {removed : List ManufactureProcess}
    {task : Task (List ManufactureProcess)} {before middle : Progress}
    (htask : Schedules task (Processed middle) middle)
    (hprocessed : ∀ rest after, Processed middle (.ok rest) after →
      Processed before (.ok (removed ++ rest)) after) :
    Schedules (do return removed ++ (← task)) (Processed before) middle := by
  rw [Schedules, wp_bind]
  refine wp_mono (fun outcome after hafter => ?_) htask
  cases outcome with
  | ok rest => exact hprocessed rest after hafter
  | error error => exact hafter

theorem schedules_processAll (left : ℕ) (progress : Progress) :
    Schedules (ManufactureScheduler.processAll progress.expected left progress.cursor)
      (Processed progress) progress := by
  induction left generalizing progress with
  | zero =>
      rw [ManufactureScheduler.processAll, Schedules, wp_bind, wp_list]
      refine ⟨trivial, fun more _ => ?_, fun _ hpermitted => handed_eq_nil_of_error hpermitted⟩
      rw [andThen_ok]
      split_ifs
      · rw [wp_bind, wp_list]
        exact ⟨⟨rfl, rfl⟩, fun process _ => processed_nil progress,
          fun _ hpermitted => handed_eq_nil_of_error hpermitted⟩
      · exact processed_nil progress
  | succ left ih =>
      rw [ManufactureScheduler.processAll, Schedules, wp_bind, wp_list]
      refine ⟨trivial, fun more _ => ?_, fun _ hpermitted => handed_eq_nil_of_error hpermitted⟩
      rw [andThen_ok]
      split_ifs
      · rw [wp_bind, wp_list]
        refine ⟨⟨rfl, rfl⟩, fun process _ => ?_,
          fun _ hpermitted => handed_eq_nil_of_error hpermitted⟩
        rw [andThen_ok, wp_bind]
        refine schedules_processOne rfl ?_ ?_ fun hempty error => hempty
        · exact schedules_append (ih (progress.advance process.ref)) fun rest after => id
        · exact schedules_append (ih ((progress.advance process.ref).handOver process.ref))
            fun rest after hafter => Processed.cons hafter
      · exact processed_nil progress

/-- A run leaves nothing behind that it has handed over. -/
theorem schedules_run {progress : Progress} (hempty : progress.handed = []) :
    Schedules ManufactureScheduler.run (fun _ after => after.handed = []) progress := by
  rw [ManufactureScheduler.run, Schedules, wp_tryCatch, wp_bind, wp_list]
  refine ⟨hempty, fun iterator _ => ?_, fun _ _ => hempty⟩
  rw [andThen_ok, wp_bind]
  refine wp_mono (fun outcome after hafter => ?_)
    (schedules_processAll iterator.2 (progress.iterate iterator.1))
  cases outcome with
  | error error => exact hafter
  | ok removed =>
      obtain ⟨hhanded, -, hremoved⟩ := hafter
      refine wp_forM (fun rest after =>
        (∀ ref ∈ after.handed, ref ∈ rest.map ManufactureProcess.ref) ∧
        ∀ ref ∈ rest.map ManufactureProcess.ref, ref ∈ after.passed) ?_ ?_ removed ⟨?_, hremoved⟩
      · intro process rest after hafter
        rw [wp_list]
        refine ⟨hafter.2 _ List.mem_cons_self, fun _ _ => ⟨fun ref href => ?_, fun ref href => ?_⟩,
          fun _ hpermitted => handed_eq_nil_of_error hpermitted⟩
        · obtain ⟨hold, hother⟩ := List.mem_filter.mp href
          exact (List.mem_cons.mp (hafter.1 ref hold)).resolve_left (of_decide_eq_true hother)
        · exact hafter.2 ref (List.mem_cons_of_mem _ href)
      · exact fun after hafter => List.eq_nil_iff_forall_not_mem.mpr fun ref href =>
          List.not_mem_nil (hafter.1 ref href)
      · intro ref href
        refine (hhanded ref href).resolve_left fun hbefore => ?_
        change ref ∈ progress.handed at hbefore
        rw [hempty] at hbefore
        cases hbefore

end Scheduler

/-! ## Everybody else -/

section Others

variable {α : Type} {permitted : Condition CardException Command.Answer Progress}
variable {progress : Progress}

theorem aboutStatuses_noteProgress : AboutStatuses noteProgress otherGuard where
  ambient _ _ := trivial
  ambient_note _ _ _ := rfl
  read _ _ := trivial
  updateOrder _ _ _ := trivial
  updateOrder_note _ _ _ _ := rfl
  insert_note _ _ _ _ _ _ := rfl

theorem others_of_issues {task : Task α}
    (hissues : task.Issues fun command => ∀ progress, otherGuard command progress) :
    wp (remembers permitted noteProgress) otherGuard task (fun _ _ => True) progress :=
  Prog.wp_of_issues hissues fun _ progress hguard => hguard progress

theorem others_updateStatus (id : Guid) (request : StatusRequest) :
    wp (remembers permitted noteProgress) otherGuard (OrderController.updateStatus id request)
      (fun _ _ => True) progress := by
  refine wp_updateStatus aboutStatuses_noteProgress fun status type _ _ _ => ?_
  cases type with
  | cardCreated => exact fun card => ⟨trivial, fun _ _ => trivial⟩
  | _ => exact fun _ _ => trivial

theorem others_client (request : ClientRequest) :
    wp (remembers permitted noteProgress) otherGuard request.serve (fun _ _ => True)
      progress := by
  cases request with
  | nothing => trivial
  | createCreditCardOrder request =>
      exact others_of_issues (Prog.issues_bind (issues_createCreditCardOrder (fun _ _ => trivial)
        (fun _ => trivial) (fun _ => trivial) fun _ _ _ _ => trivial) fun _ => trivial)
  | updateStatus id request =>
      rw [ClientRequest.serve, wp_bind]
      refine wp_mono (fun outcome final _ => ?_) (others_updateStatus id request)
      cases outcome <;> trivial
  | deleteOrder accountId =>
      exact others_of_issues (Prog.issues_bind (issues_deleteOrder (fun _ => trivial)
        (fun _ => trivial) fun _ => trivial) fun _ => trivial)
  | getLatestStatus accountId =>
      exact others_of_issues
        (Prog.issues_bind (issues_getLatestStatus fun _ => trivial) fun _ => trivial)

theorem others_program (workload : Workload) {party : Party}
    (hother : party ≠ .manufactureScheduler) :
    wp (remembers permitted noteProgress) otherGuard (workload.program party)
      (fun _ _ => True) progress := by
  cases party with
  | client n => exact others_client (workload.clients n)
  | orderServer n =>
      exact wp_orderServer trivial (fun _ _ _ => trivial)
        (fun _ id body => others_updateStatus id body)
        fun _ _ => others_of_issues (issues_getShippingAddress fun _ => trivial)
  | manufacturer n =>
      exact others_of_issues (issues_manufacturerController (fun _ _ => trivial)
        (fun _ _ => trivial) fun _ _ _ => trivial)
  | workScheduler =>
      refine others_of_issues (issues_repeated ?_ _)
      exact issues_workScheduler (fun _ _ => trivial) (fun _ => trivial) (fun _ _ => trivial)
        (fun _ _ => trivial) (fun _ _ => trivial) fun _ _ _ _ => trivial
  | manufactureScheduler => exact absurd rfl hother
  | courierScheduler =>
      refine others_of_issues (issues_repeated (issues_courierScheduler (fun _ _ => trivial)
        (fun _ _ => trivial) (fun command hcourier progress => ?_) fun _ _ _ => trivial) _)
      cases command <;> trivial

end Others

/-! ## The system -/

section System

variable {schema : Schema} {thirdParty : ThirdParty} {progress : Progress}

/-- A command of the scheduler. -/
theorem tracks_of_scheduler {command : ListCommand}
    (hstate : thirdParty.handOver.Consistent) (htracks : progress.Tracks thirdParty.handOver)
    (hguard : schedulerGuard (.list command) progress) :
    (command.effect thirdParty.handOver).Consistent ∧
      (noteProgress progress (.list command) (command.run thirdParty).1).Tracks
        (command.effect thirdParty.handOver) := by
  cases command with
  | manufactureIterator => exact ⟨hstate, htracks.iterate hguard⟩
  | manufactureNext cursor expectedModCount =>
      obtain ⟨rfl, rfl⟩ := hguard
      refine ⟨hstate, ?_⟩
      cases hnext : thirdParty.manufacture.next progress.cursor progress.expected with
      | error error =>
          rw [ListCommand.run, hnext]
          cases error <;> exact htracks
      | ok process =>
          rw [ListCommand.run, hnext]
          obtain ⟨hmodCount, hget⟩ := ArrayList.next_eq_ok_iff.mp hnext
          have href : thirdParty.handOver.refs[progress.cursor]? = some process.ref := by
            rw [ThirdParty.handOver, List.getElem?_map, hget]
            rfl
          exact htracks.advance hstate hmodCount href
  | addManufactureProcess request => exact ⟨hstate.add, htracks.add hstate⟩
  | addCourierProcess cause orderId =>
      exact ⟨hstate.pass htracks hguard, htracks.pass hguard⟩
  | removeManufactureProcess ref =>
      exact ⟨hstate.remove (htracks.passed ref hguard), htracks.remove hstate⟩
  | _ => exact ⟨hstate, htracks⟩

/-- A command of anybody else. -/
theorem consistent_of_other {command : ListCommand} (hstate : thirdParty.handOver.Consistent)
    (hguard : otherGuard (.list command) progress) :
    (command.effect thirdParty.handOver).Consistent := by
  cases command with
  | addManufactureProcess request => exact hstate.add
  | addCourierProcess cause orderId => cases hguard
  | removeManufactureProcess ref => cases hguard
  | _ => exact hstate

theorem tracks_of_other {command : ListCommand} {other : Progress}
    (hstate : thirdParty.handOver.Consistent) (hguard : otherGuard (.list command) progress)
    (htracks : other.Tracks thirdParty.handOver) :
    other.Tracks (command.effect thirdParty.handOver) := by
  cases command with
  | addManufactureProcess request => exact htracks.add hstate
  | addCourierProcess cause orderId => cases hguard
  | removeManufactureProcess ref => cases hguard
  | _ => exact htracks

theorem guarantees_handOver : Guarantees (step schema) noteProgress removesHandedOver
    (fun world : World => world.thirdParty.handOver.Consistent)
    (fun party world progress =>
      party = Party.manufactureScheduler → progress.Tracks world.thirdParty.handOver)
    handOverGuard := by
  intro party command world progress answer world' hstate htracks hguard _ hstep
  cases command with
  | sql statement =>
      obtain ⟨database, -, rfl⟩ := step_sql hstep
      exact ⟨hstate, htracks, fun _ _ _ hother => hother⟩
  | ambient command =>
      rw [step_ambient hstep]
      exact ⟨hstate, htracks, fun _ _ _ hother => hother⟩
  | http command =>
      obtain ⟨choice, calls, -, rfl⟩ := step_http hstep
      exact ⟨hstate, htracks, fun _ _ _ hother => hother⟩
  | list command =>
      obtain ⟨rfl, rfl⟩ := step_list hstep
      simp only [handOver_run]
      by_cases hparty : party = .manufactureScheduler
      · rw [handOverGuard, if_pos hparty] at hguard
        obtain ⟨hstate', htracks'⟩ := tracks_of_scheduler hstate (htracks hparty) hguard
        exact ⟨hstate', fun _ => htracks',
          fun other hne _ _ hscheduler => absurd (hscheduler.trans hparty.symm) hne⟩
      · rw [handOverGuard, if_neg hparty] at hguard
        exact ⟨consistent_of_other hstate hguard, fun hscheduler => absurd hscheduler hparty,
          fun _ _ other hother hscheduler =>
            tracks_of_other hstate hguard (hother hscheduler)⟩

end System

/-- Every process is handed over once.  In every interleaving in which nothing fails
in a run of the manufacture scheduler between a hand-over and the removal of what has
been handed over, no process is handed over twice at any time, and every process
that has left the manufacture list has been handed over exactly once. -/
theorem handed_over_once {schema : Schema} {workload : Workload} {world : World}
    {system : System Progress}
    (hstate : world.thirdParty.handOver.Consistent)
    (hnew : world.thirdParty.handOver.refs.Disjoint world.thirdParty.handedOver)
    (hreaches : InterleavesWhen schema noteProgress removesHandedOver
      (workload.start Progress.start world) system) :
    system.shared.thirdParty.handOver.Once := by
  have htracks : Progress.start.Tracks world.thirdParty.handOver := by
    refine ⟨Nat.zero_le _, fun _ ref href => ?_, fun ref href => ?_, fun ref href => ?_,
      fun ref href hover => absurd hover (hnew href)⟩
    · cases href
    · cases href
    · cases href
  have hprogram : ∀ party, wp (remembers (fun command progress answer => progress.handed ≠ [] →
      command.failed answer = false) noteProgress) (handOverGuard party)
      (workload.program party) (fun _ _ => True) Progress.start := by
    intro party
    by_cases hparty : party = .manufactureScheduler
    · subst hparty
      rw [handOverGuard, if_pos rfl]
      exact wp_mono (fun _ _ _ => trivial) (wp_repeated (fun progress => progress.handed = [])
        (fun progress hempty => schedules_run hempty) workload.manufactureRuns rfl)
    · rw [handOverGuard, if_neg hparty]
      exact others_program workload hparty
  have hstart : Upheld (fun command progress answer => progress.handed ≠ [] →
      command.failed answer = false) noteProgress
      (fun world : World => world.thirdParty.handOver.Consistent)
      (fun party world progress =>
        party = Party.manufactureScheduler → progress.Tracks world.thirdParty.handOver)
      handOverGuard (workload.start Progress.start world) :=
    ⟨hstate, fun _ _ => htracks, hprogram⟩
  exact (hstart.reaches (fun _ _ _ _ hallowed => hallowed) guarantees_handOver
    hreaches).shared.toOnce

theorem consistent_empty (accounts : List ℤ) :
    (World.empty accounts).thirdParty.handOver.Consistent where
  nodup := List.nodup_nil
  below _ href := absurd href List.not_mem_nil
  once := List.nodup_nil
  handedBelow _ href := absurd href List.not_mem_nil
  gone _ href := absurd href (Nat.not_lt_zero _)

namespace Sample

/-- Two orders, for which cards are made in one run of the work scheduler and handed
over in the runs of the manufacture scheduler. -/
def twoProcesses : Workload where
  clients n :=
    if n < 2 then
      .createCreditCardOrder ⟨n + 1, "email@mail.ail", "Jane Doe", "Box 13", "silver"⟩
    else .nothing
  workRuns := 1
  manufactureRuns := 3
  courierRuns := 0

/-- The order `id` of the client `n` is created. -/
def created (n : ℕ) (id : ℤ) : List (Party × Choice) :=
  [(.client n, .goes 0), (.client n, .goes id), (.client n, .goes 0), (.client n, .goes 0)]

/-- The work scheduler has the next order manufactured. -/
def manufacture (n : ℕ) : List (Party × Choice) := List.flatten [
  List.replicate 2 (.workScheduler, .goes 0),
  [(.manufacturer n, .goes n), (.manufacturer n, .goes 0), (.manufacturer n, .goes 0)],
  List.replicate 3 (.workScheduler, .goes 0)]

/-- The card of the next process is made; what becomes of the report is open. -/
def cardMade : List (Party × Choice) := List.flatten [
  [(.manufactureScheduler, .goes 0), (.manufactureScheduler, .goes 50)],
  List.replicate 8 (.manufactureScheduler, .goes 0)]

end Sample

/-- The first run makes the first card, and its report is lost; the second run hands
that card over. -/
theorem handed_over_once_later : ∃ system : System Progress,
    system.shared.thirdParty.handedOver = [0] ∧ 0 ∉ system.shared.thirdParty.handOver.refs ∧
    system.shared.thirdParty.handOver.Once := by
  obtain ⟨system, hcheck, hinterleaves⟩ := exists_interleavingWhen .dump noteProgress
    removesHandedOver (Sample.twoProcesses.start Progress.start (World.empty [1, 2]))
    (List.flatten [Sample.created 0 101, [(.workScheduler, .inOrder [101])], Sample.manufacture 0,
      List.replicate 3 (.manufactureScheduler, .goes 0), Sample.cardMade,
      [(.manufactureScheduler, .fails)], List.replicate 6 (.manufactureScheduler, .goes 0)])
    (fun system => decide (system.shared.thirdParty.handedOver = [0] ∧
      0 ∉ system.shared.thirdParty.handOver.refs))
    (by decide +kernel)
  obtain ⟨hhanded, hgone⟩ := of_decide_eq_true hcheck
  exact ⟨system, hhanded, hgone, handed_over_once (consistent_empty [1, 2])
    (List.disjoint_nil_left _) hinterleaves⟩

/-- The second run hands over the first card and then fails to report the second one,
so the third run hands over the first card again. -/
theorem handed_over_twice :
    (World.empty [1, 2]).thirdParty.handOver.Consistent ∧
    ∃ system : System Unit,
      Interleaves .dump (Sample.twoProcesses.start () (World.empty [1, 2])) system ∧
      system.shared.thirdParty.handedOver = [0, 0] ∧
      ¬ system.shared.thirdParty.handOver.Once := by
  obtain ⟨system, hcheck, hinterleaves⟩ := exists_interleaving .dump
    (Sample.twoProcesses.start () (World.empty [1, 2]))
    (List.flatten [Sample.created 0 101, Sample.created 1 102,
      [(.workScheduler, .inOrder [101, 102])], Sample.manufacture 0, Sample.manufacture 1,
      List.replicate 3 (.manufactureScheduler, .goes 0), Sample.cardMade,
      [(.manufactureScheduler, .fails)],
      List.replicate 6 (.manufactureScheduler, .goes 0), Sample.cardMade,
      [(.manufactureScheduler, .fails)],
      List.replicate 4 (.manufactureScheduler, .goes 0)])
    (fun system => decide (system.shared.thirdParty.handedOver = [0, 0]))
    (by decide +kernel)
  have hhanded := of_decide_eq_true hcheck
  refine ⟨consistent_empty [1, 2], system, hinterleaves, hhanded, fun honce => ?_⟩
  have hatMost : system.shared.thirdParty.handedOver.count 0 ≤ 1 := honce.atMostOnce 0
  rw [hhanded] at hatMost
  exact absurd hatMost (by decide)

end EasyTrade.CardOrders

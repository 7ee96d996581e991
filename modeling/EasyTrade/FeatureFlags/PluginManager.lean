import EasyTrade.Core.RelyGuarantee
import EasyTrade.FeatureFlags.FlagService

/-!
# Cached states of plugins

The broker keeps the states of plugins that it has been told for some time.  Its calls run
next to each other and next to the requests that turn flags on and off.  Whatever the order,
a call answers with what the flag service has told one of the calls of that time.
-/

namespace EasyTrade.FeatureFlags

open EasyTrade.Program EasyTrade.Interleaving

/-! ## Asking the flag service -/

inductive ConnectorException
  /-- The flag that has been received has no state, but the broker's `Flag` needs one. -/
  | json
  /-- The service has not been reached. -/
  | http
  deriving DecidableEq

/-- `GetFlag`, and what the provider reads of the flag. -/
def getFlag (registry : Registry) (id : String) (reached : Bool) :
    Except ConnectorException (Option Bool) :=
  if reached then
    match (handle registry (.getFlagById id)).1 with
    | .ok flag => flag.enabled.elim (.error .json) fun enabled => .ok (some enabled)
    | _ => .ok none
  else .error .http

/-- `ResolveBooleanValueAsync` of the provider. -/
def resolveBooleanValue (flag : Except ConnectorException (Option Bool)) (defaultValue : Bool) :
    Except ConnectorException Bool :=
  flag.map fun enabled => enabled.getD defaultValue

/-- The client of OpenFeature, which asks the provider and answers with the default when the
provider throws. -/
class FeatureClient where
  getBooleanValueAsync : (provider : Bool → Except ConnectorException Bool) →
    (defaultValue : Bool) → Bool
  ok : ∀ provider defaultValue value, provider defaultValue = .ok value →
    getBooleanValueAsync provider defaultValue = value
  error : ∀ provider defaultValue exception, provider defaultValue = .error exception →
    getBooleanValueAsync provider defaultValue = defaultValue

section Client

variable [FeatureClient]

/-- `GetBooleanValueAsync` with the provider of the broker. -/
def getBooleanValue (registry : Registry) (pluginName : String) (defaultValue reached : Bool) :
    Bool :=
  FeatureClient.getBooleanValueAsync
    (resolveBooleanValue (getFlag registry pluginName reached)) defaultValue

/-- Every way of failing ends with the default. -/
theorem getBooleanValue_reached (registry : Registry) (pluginName : String) (defaultValue : Bool) :
    getBooleanValue registry pluginName defaultValue true =
      ((registry.find? pluginName).bind Flag.enabled).getD defaultValue := by
  rw [getBooleanValue, getFlag, if_pos rfl, handle, getFlagById]
  cases registry.find? pluginName with
  | none => exact FeatureClient.ok _ _ _ rfl
  | some flag =>
      simp only [Response.ofFlag, Option.bind_some]
      cases flag.enabled with
      | none => exact FeatureClient.error _ _ .json rfl
      | some enabled => exact FeatureClient.ok _ _ _ rfl

end Client

/-! ## The plugin manager -/

/-- What calls and requests do to the broker's clock and cache and to the flag service.  A call
gives its caller an `answer`. -/
inductive Command
  | utcNow
  | tryGetValue (pluginName : String)
  | getBooleanValue (pluginName : String) (defaultValue : Bool)
  | setCache (pluginName : String) (cached : Bool × ℤ)
  | answer (pluginName : String) (value : Bool)
  | request (request : Request)

abbrev Command.Answer : Command → Type
  | utcNow => ℤ
  | tryGetValue _ => Option (Bool × ℤ)
  | getBooleanValue _ _ => Bool
  | setCache _ _ | answer _ _ => Unit
  | request _ => Response

/-- Programs whose commands do not throw. -/
abbrev Task (α : Type) := Prog Empty Command.Answer α

def issue (command : Command) : Task command.Answer := Prog.perform command

/-- `TimeSpan.FromSeconds`, in ticks. -/
def fromSeconds (seconds : ℤ) : ℤ := seconds * 10000000

/-- `GetPluginState`. -/
def getPluginState (cacheDurationS : ℤ) (pluginName : String) (defaultValue : Bool) :
    Task Bool := do
  let now : ℤ ← issue .utcNow
  let cached : Option (Bool × ℤ) ← issue (.tryGetValue pluginName)
  match cached.filter fun cached => now < cached.2 with
  | some (value, _) => return value
  | none =>
    let value : Bool ← issue (.getBooleanValue pluginName defaultValue)
    issue (.setCache pluginName (value, now + fromSeconds cacheDurationS))
    return value

/-- A caller of the plugin manager, or a client of the flag service. -/
inductive Client
  | caller (pluginName : String) (defaultValue : Bool)
  | client (request : Request)

def Client.program (cacheDurationS : ℤ) : Client → Task Unit
  | caller pluginName defaultValue => do
      let value ← getPluginState cacheDurationS pluginName defaultValue
      issue (.answer pluginName value)
  | client request => do
      let _ ← issue (.request request)
      return ()

/-! ## What the commands do -/

/-- What the log of a run records, each with its time: the requests that the flag service has
handled, and the questions of the broker with whether they have reached it. -/
inductive Event
  | requested (time : ℤ) (request : Request)
  | evaluated (time : ℤ) (pluginName : String) (defaultValue reached : Bool)
  deriving DecidableEq

def Event.time : Event → ℤ
  | requested time _ => time
  | evaluated time _ _ _ => time

def Event.request? : Event → Option Request
  | requested _ request => some request
  | evaluated _ _ _ _ => none

/-- The requests that have been handled. -/
def requests (log : List Event) : List Request := log.filterMap Event.request?

theorem requests_append (log log' : List Event) :
    requests (log ++ log') = requests log ++ requests log' := List.filterMap_append

structure Shared where
  time : ℤ
  registry : Registry
  cache : String → Option (Bool × ℤ)
  log : List Event

def Shared.start (time : ℤ) (registry : Registry) : Shared := ⟨time, registry, fun _ => none, []⟩

def Shared.observe (shared : Shared) (event : Event) : Shared :=
  { shared with log := shared.log ++ [event] }

section Effects

variable [FeatureClient]

/-- A command at the present time. -/
def effect : (command : Command) → Shared → command.Answer → Shared → Prop
  | .utcNow, shared, now, shared' => now = shared.time ∧ shared' = shared
  | .tryGetValue pluginName, shared, cached, shared' =>
      cached = shared.cache pluginName ∧ shared' = shared
  | .getBooleanValue pluginName defaultValue, shared, value, shared' =>
      ∃ reached, value = getBooleanValue shared.registry pluginName defaultValue reached ∧
        shared' = shared.observe (.evaluated shared.time pluginName defaultValue reached)
  | .setCache pluginName cached, shared, _, shared' =>
      shared' = { shared with cache := Function.update shared.cache pluginName (some cached) }
  | .answer _ _, shared, _, shared' => shared' = shared
  | .request request, shared, response, shared' =>
      response = (handle shared.registry request).1 ∧
        shared' = { shared with registry := (handle shared.registry request).2 }.observe
          (.requested shared.time request)

/-- Time may pass in front of a command. -/
def step : Semantics Empty Command.Answer Shared := fun command shared answer shared' =>
  ∃ time value, shared.time ≤ time ∧ answer = .ok value ∧
    effect command { shared with time } value shared'

end Effects

/-! ## Notes of a call -/

/-- When a call has read the clock, and the state of a plugin it has been given last, with a
time since when the flag service has told it. -/
structure Notes where
  started : Option ℤ
  told : Option (String × Bool × ℤ)

def Notes.empty : Notes := ⟨none, none⟩

def note (duration : ℤ) : Note Empty Command.Answer Notes
  | notes, .utcNow, .ok now => { notes with started := some now }
  | notes, .tryGetValue pluginName, .ok (some (value, expires)) =>
      { notes with told := some (pluginName, value, expires - duration) }
  | notes, .getBooleanValue pluginName _, .ok value =>
      { notes with told := notes.started.map fun started => (pluginName, value, started) }
  | notes, _, _ => notes

/-- The flag service, created with these flags, has been asked for the state of the plugin, at
`since` or later, and this was the answer. -/
def Told [FeatureClient] (registry : Registry) (log : List Event) (pluginName : String)
    (value : Bool) (since : ℤ) : Prop :=
  ∃ before time defaultValue reached after,
    log = before ++ .evaluated time pluginName defaultValue reached :: after ∧ since ≤ time ∧
      value = getBooleanValue (served registry (requests before)) pluginName defaultValue reached

section Told

variable [FeatureClient] {registry : Registry} {log : List Event} {pluginName : String}
variable {value : Bool} {since since' : ℤ}

theorem Told.mono (htold : Told registry log pluginName value since) (hle : since' ≤ since) :
    Told registry log pluginName value since' := by
  obtain ⟨before, time, defaultValue, reached, after, hlog, hsince, hvalue⟩ := htold
  exact ⟨before, time, defaultValue, reached, after, hlog, hle.trans hsince, hvalue⟩

theorem Told.concat (htold : Told registry log pluginName value since) (event : Event) :
    Told registry (log ++ [event]) pluginName value since := by
  obtain ⟨before, time, defaultValue, reached, after, hlog, hsince, hvalue⟩ := htold
  refine ⟨before, time, defaultValue, reached, after ++ [event], ?_, hsince, hvalue⟩
  rw [hlog, List.append_assoc, List.cons_append]

end Told

/-! ## One command -/

section Steps

variable [FeatureClient] {registry : Registry} {duration : ℤ}

/-- The log accounts for the flags, and every entry of the cache is something that the flag
service has told. -/
structure Consistent (registry : Registry) (duration : ℤ) (shared : Shared) : Prop where
  flags : shared.registry = served registry (requests shared.log)
  past : ∀ event ∈ shared.log, event.time ≤ shared.time
  ordered : shared.log.Pairwise fun earlier later => earlier.time ≤ later.time
  cached : ∀ pluginName value expires, shared.cache pluginName = some (value, expires) →
    Told registry shared.log pluginName value (expires - duration)

structure Notes.Holds (registry : Registry) (notes : Notes) (shared : Shared) : Prop where
  started : ∀ started, notes.started = some started → started ≤ shared.time
  told : ∀ pluginName value since, notes.told = some (pluginName, value, since) →
    Told registry shared.log pluginName value since

/-- The states that may be stored and answered: those that the call has been given, not too long
ago. -/
def guard (duration : ℤ) : Command → Notes → Prop
  | .getBooleanValue _ _, notes => notes.started ≠ none
  | .setCache pluginName (value, expires), notes =>
      ∃ since, notes.told = some (pluginName, value, since) ∧ expires - duration ≤ since
  | .answer pluginName value, notes =>
      ∃ started since, notes.started = some started ∧
        notes.told = some (pluginName, value, since) ∧
        (started - duration < since ∨ started ≤ since)
  | _, _ => True

theorem consistent_start (time : ℤ) (registry : Registry) :
    Consistent registry duration (Shared.start time registry) where
  flags := rfl
  past _ hmem := absurd hmem List.not_mem_nil
  ordered := .nil
  cached _ _ _ hcached := by cases hcached

theorem Consistent.later {shared : Shared} (hshared : Consistent registry duration shared)
    {time : ℤ} (htime : shared.time ≤ time) :
    Consistent registry duration { shared with time } where
  flags := hshared.flags
  past event hmem := (hshared.past event hmem).trans htime
  ordered := hshared.ordered
  cached := hshared.cached

theorem Notes.Holds.later {notes : Notes} {shared : Shared} (hnotes : notes.Holds registry shared)
    {time : ℤ} (htime : shared.time ≤ time) : notes.Holds registry { shared with time } where
  started started hstarted := (hnotes.started started hstarted).trans htime
  told := hnotes.told

/-- One more event at the present time. -/
theorem Consistent.observe {shared : Shared} {event : Event} {registry' : Registry}
    (hshared : Consistent registry duration shared) (htime : event.time = shared.time)
    (hregistry : registry' = served registry (requests (shared.log ++ [event]))) :
    Consistent registry duration ({ shared with registry := registry' }.observe event) where
  flags := hregistry
  past other hmem := by
    rcases List.mem_append.mp hmem with hold | hnew
    · exact hshared.past other hold
    · rw [List.mem_singleton.mp hnew, htime]
      exact le_rfl
  ordered := by
    refine List.pairwise_append.mpr ⟨hshared.ordered, List.pairwise_singleton _ _, ?_⟩
    intro other hold event' hnew
    rw [List.mem_singleton.mp hnew, htime]
    exact hshared.past other hold
  cached _ _ _ hcached := (hshared.cached _ _ _ hcached).concat event

theorem Notes.Holds.observe {notes : Notes} {shared : Shared} (hnotes : notes.Holds registry shared)
    (event : Event) (registry' : Registry) :
    notes.Holds registry ({ shared with registry := registry' }.observe event) where
  started := hnotes.started
  told _ _ _ htold := (hnotes.told _ _ _ htold).concat event

/-- The step: what a command of one call guarantees to all of them. -/
theorem guarantees_step {ι : Type} : Guarantees step (note duration) (fun _ _ _ => True)
    (Consistent registry duration) (fun (_ : ι) shared notes => notes.Holds registry shared)
    (fun _ => guard duration) := by
  rintro i command shared notes answer shared' hshared hnotes hguard - ⟨time, value, htime, rfl,
    heffect⟩
  replace hshared := hshared.later htime
  have hothers : ∀ other : Notes, other.Holds registry shared →
      other.Holds registry { shared with time } := fun other hother => hother.later htime
  replace hnotes := hothers notes hnotes
  generalize { shared with time } = shared at hshared hothers hnotes heffect
  cases command with
  | utcNow =>
      obtain ⟨rfl, rfl⟩ := heffect
      refine ⟨hshared, ⟨fun started hstarted => ?_, hnotes.told⟩, fun j _ other => hothers other⟩
      cases hstarted
      exact le_rfl
  | tryGetValue pluginName =>
      obtain ⟨rfl, rfl⟩ := heffect
      refine ⟨hshared, ?_, fun j _ other => hothers other⟩
      cases hcached : shared'.cache pluginName with
      | none => exact hnotes
      | some cached =>
          refine ⟨hnotes.started, fun name value since htold => ?_⟩
          cases htold
          exact hshared.cached _ _ _ hcached
  | getBooleanValue pluginName defaultValue =>
      obtain ⟨reached, rfl, rfl⟩ := heffect
      let event := Event.evaluated shared.time pluginName defaultValue reached
      refine ⟨hshared.observe rfl ?_, ⟨hnotes.started, fun name value since htold => ?_⟩,
        fun j _ other hother => (hothers other hother).observe event shared.registry⟩
      · rw [hshared.flags]
        rw [requests_append]
        exact congrArg (served registry) (List.append_nil _).symm
      · obtain ⟨started, hstarted⟩ := Option.ne_none_iff_exists'.mp hguard
        simp only [note, hstarted, Option.map_some, Option.some.injEq, Prod.mk.injEq] at htold
        obtain ⟨rfl, rfl, rfl⟩ := htold
        exact ⟨shared.log, _, _, _, [], rfl, hnotes.started _ hstarted, by rw [hshared.flags]⟩
  | setCache pluginName cached =>
      obtain rfl : shared' = _ := heffect
      obtain ⟨since, htold, hsince⟩ := hguard
      refine ⟨⟨hshared.flags, hshared.past, hshared.ordered, ?_⟩, ⟨hnotes.started, hnotes.told⟩,
        fun j _ other hother => ⟨(hothers other hother).started, (hothers other hother).told⟩⟩
      intro name value expires hcached
      dsimp only at hcached
      by_cases hname : name = pluginName
      · subst hname
        rw [Function.update_self] at hcached
        cases hcached
        exact (hnotes.told _ _ _ htold).mono hsince
      · rw [Function.update_of_ne hname] at hcached
        exact hshared.cached _ _ _ hcached
  | answer pluginName value =>
      obtain rfl : shared' = shared := heffect
      exact ⟨hshared, hnotes, fun j _ other => hothers other⟩
  | request request =>
      obtain ⟨rfl, rfl⟩ := heffect
      let event := Event.requested shared.time request
      refine ⟨hshared.observe rfl ?_, hnotes.observe event _,
        fun j _ other hother => (hothers other hother).observe event _⟩
      rw [hshared.flags, requests_append]
      exact (served_concat _ _ _).symm

end Steps

/-! ## The programs -/

section Programs

variable {duration : ℤ} {notes : Notes} {α : Type}

/-- A program that keeps to the guard whatever it is answered. -/
abbrev Keeps (duration : ℤ) (task : Task α) (post : Except Empty α → Notes → Prop)
    (notes : Notes) : Prop :=
  wp (remembers (fun _ _ _ => True) (note duration)) (guard duration) task post notes

theorem keeps_issue {command : Command} {post : Except Empty command.Answer → Notes → Prop}
    (hguard : guard duration command notes)
    (hpost : ∀ value, post (.ok value) (note duration notes command (.ok value))) :
    Keeps duration (issue command) post notes :=
  wp_remembers_perform.mpr ⟨hguard, fun value _ => hpost value, fun error => error.elim⟩

/-- What a call has been told is recent enough when it started at `started`. -/
def Recent (duration started : ℤ) (pluginName : String) (value : Bool) (notes : Notes) : Prop :=
  ∃ since, notes.started = some started ∧ notes.told = some (pluginName, value, since) ∧
    (started - duration < since ∨ started ≤ since)

/-- `GetPluginState` stores what it has been told, and ends with a recent state. -/
theorem keeps_getPluginState {cacheDurationS : ℤ} (pluginName : String) (defaultValue : Bool) :
    Keeps (fromSeconds cacheDurationS) (getPluginState cacheDurationS pluginName defaultValue)
      (fun outcome notes => ∀ value, outcome = .ok value →
        ∃ started, Recent (fromSeconds cacheDurationS) started pluginName value notes) notes := by
  refine (wp_bind _ _).mpr (keeps_issue trivial fun (now : ℤ) => (wp_bind _ _).mpr
    (keeps_issue trivial fun (cached : Option (Bool × ℤ)) => ?_))
  dsimp only [andThen]
  cases hfresh : cached.filter fun cached => decide (now < cached.2) with
  | some entry =>
      obtain ⟨value, expires⟩ := entry
      obtain ⟨rfl, hnow⟩ := Option.filter_eq_some_iff.mp hfresh
      have hexpires : now < expires := of_decide_eq_true hnow
      rintro other hother
      cases hother
      exact ⟨now, expires - fromSeconds cacheDurationS, rfl, rfl, Or.inl (by omega)⟩
  | none =>
      have hstarted : (note (fromSeconds cacheDurationS)
          (note (fromSeconds cacheDurationS) notes .utcNow (.ok now)) (.tryGetValue pluginName)
            (.ok cached)).started = some now := by
        rcases cached with _ | ⟨value, expires⟩ <;> rfl
      generalize note _ (note _ notes .utcNow (.ok now)) (.tryGetValue pluginName)
        (.ok cached) = notes at hstarted
      refine (wp_bind _ _).mpr (keeps_issue ?_ fun value => (wp_bind _ _).mpr
        (keeps_issue ?_ fun _ => ?_))
      · exact Option.ne_none_iff_exists'.mpr ⟨now, hstarted⟩
      · exact ⟨now, by simp [note, hstarted], by omega⟩
      · rintro other hother
        cases hother
        exact ⟨now, now, hstarted, by simp [note, hstarted], Or.inr le_rfl⟩

theorem keeps_program {cacheDurationS : ℤ} (client : Client) :
    Keeps (fromSeconds cacheDurationS) (client.program cacheDurationS) (fun _ _ => True)
      notes := by
  cases client with
  | client request => exact (wp_bind _ _).mpr (keeps_issue trivial fun _ => trivial)
  | caller pluginName defaultValue =>
      refine (wp_bind _ _).mpr (wp_mono (fun outcome final hfinal => ?_)
        (keeps_getPluginState pluginName defaultValue))
      cases outcome with
      | error error => cases error
      | ok value =>
          obtain ⟨started, since, hstarted, htold, hsince⟩ := hfinal value rfl
          exact keeps_issue ⟨started, since, hstarted, htold, hsince⟩ fun _ => trivial

/-- What a program is about to answer. -/
def answering : Task Unit → Option (String × Bool)
  | .call (.answer pluginName value) _ => some (pluginName, value)
  | _ => none

theorem recent_of_answering {duration : ℤ} {notes : Notes} {task : Task Unit}
    {pluginName : String} {value : Bool} (hkeeps : Keeps duration task (fun _ _ => True) notes)
    (hanswering : answering task = some (pluginName, value)) :
    ∃ started, Recent duration started pluginName value notes := by
  unfold answering at hanswering
  split at hanswering
  · cases hanswering
    exact hkeeps.1
  · cases hanswering

end Programs

/-! ## Whole runs -/

section Runs

variable [FeatureClient] {ι : Type} [DecidableEq ι] {cacheDurationS time : ℤ} {registry : Registry}
variable {clients : ι → Client}

/-- Calls of the broker's and requests to the flag service. -/
abbrev System (ι : Type) := Config Empty Command.Answer ι Shared Notes Unit

/-- Nothing is in the cache, and nobody has begun. -/
def System.start (cacheDurationS time : ℤ) (registry : Registry) (clients : ι → Client) :
    System ι :=
  Config.start (Shared.start time registry) Notes.empty fun i => (clients i).program cacheDurationS

/-- Any order of the commands of all clients, with time passing in between. -/
abbrev Interleaves (cacheDurationS : ℤ) : System ι → System ι → Prop :=
  ReachesWhen step (note (fromSeconds cacheDurationS)) fun _ _ _ => True

/-- The run. -/
theorem upheld_of_interleaves {system : System ι}
    (hreaches : Interleaves cacheDurationS (System.start cacheDurationS time registry clients)
      system) :
    Upheld (fun _ _ _ => True) (note (fromSeconds cacheDurationS))
      (Consistent registry (fromSeconds cacheDurationS))
      (fun _ shared notes => notes.Holds registry shared)
      (fun _ => guard (fromSeconds cacheDurationS)) system := by
  refine Upheld.reaches (fun _ _ _ _ _ => trivial) guarantees_step ?_ hreaches
  refine ⟨consistent_start time registry, fun i => ⟨fun _ hstarted => ?_, fun _ _ _ htold => ?_⟩,
    fun i => keeps_program (clients i)⟩
  · cases hstarted
  · cases htold

/-- A call is about to answer. -/
def System.Answers (system : System ι) (i : ι) (started : ℤ) (pluginName : String)
    (value : Bool) : Prop :=
  (system.threads i).memory.started = some started ∧
    answering (system.threads i).rest = some (pluginName, value)

omit [DecidableEq ι] in
theorem recent_of_answers {system : System ι}
    (hupheld : Upheld (fun _ _ _ => True) (note (fromSeconds cacheDurationS))
      (Consistent registry (fromSeconds cacheDurationS))
      (fun _ shared notes => notes.Holds registry shared)
      (fun _ => guard (fromSeconds cacheDurationS)) system) {i : ι} {started : ℤ}
    {pluginName : String} {value : Bool} (hanswers : system.Answers i started pluginName value) :
    Recent (fromSeconds cacheDurationS) started pluginName value (system.threads i).memory := by
  obtain ⟨hstarted, hanswering⟩ := hanswers
  obtain ⟨started', hrecent⟩ := recent_of_answering (hupheld.rest i) hanswering
  obtain rfl : started = started' :=
    Option.some.inj (hstarted.symm.trans hrecent.choose_spec.1)
  exact hrecent

/-- Whatever the order of calls and requests, a call answers with what the flag service has
told a call since its start, or at most the duration of the cache before it. -/
theorem answered_recently {system : System ι}
    (hreaches : Interleaves cacheDurationS (System.start cacheDurationS time registry clients)
      system) {i : ι} {started : ℤ} {pluginName : String} {value : Bool}
    (hanswers : system.Answers i started pluginName value) :
    ∃ since, (started - fromSeconds cacheDurationS < since ∨ started ≤ since) ∧
      Told registry system.shared.log pluginName value since := by
  have hupheld := upheld_of_interleaves hreaches
  obtain ⟨since, -, htold, hsince⟩ := recent_of_answers hupheld hanswers
  exact ⟨since, hsince, (hupheld.memory i).told _ _ _ htold⟩

/-- A flag that has been turned on or off is seen by every call that starts when the entries
of the cache from before have run out, as long as the flag service can be reached. -/
theorem update_seen {system : System ι}
    (hreaches : Interleaves cacheDurationS (System.start cacheDurationS time registry clients)
      system) {i : ι} {started : ℤ} {pluginName : String} {value enabled : Bool} {flag : Flag}
    (hanswers : system.Answers i started pluginName value)
    (hupdates : ∀ at_ wanted, .requested at_ (.updateFlag pluginName wanted) ∈ system.shared.log →
      at_ + fromSeconds cacheDurationS ≤ started ∧ at_ < started)
    (hreached : ∀ at_ defaultValue reached,
      .evaluated at_ pluginName defaultValue reached ∈ system.shared.log → reached = true)
    (hflag : system.shared.registry.find? pluginName = some flag)
    (henabled : flag.enabled = some enabled) : value = enabled := by
  have hupheld := upheld_of_interleaves hreaches
  have hshared := hupheld.shared
  obtain ⟨since, -, htold, hsince⟩ := recent_of_answers hupheld hanswers
  obtain ⟨before, moment, defaultValue, reached, after, hlog, hmoment, rfl⟩ :=
    (hupheld.memory i).told _ _ _ htold
  obtain rfl : reached = true := hreached moment defaultValue reached (by simp [hlog])
  -- what comes after the answer is too late to be one of the updates
  have hafter : ∀ wanted, .updateFlag pluginName wanted ∉ requests after := by
    intro wanted hmem
    obtain ⟨event, hevent, hrequest⟩ := List.mem_filterMap.mp hmem
    cases event with
    | evaluated at_ name default reached => cases hrequest
    | requested at_ request =>
        cases hrequest
        have hordered := hshared.ordered
        rw [hlog, List.pairwise_append, List.pairwise_cons] at hordered
        have hlate : moment ≤ at_ := hordered.2.1.1 _ hevent
        have hearly := hupdates at_ wanted (by simp [hlog, hevent])
        omega
  have hsame : system.shared.registry.find? pluginName =
      (served registry (requests before)).find? pluginName := by
    rw [hshared.flags, hlog, requests_append]
    exact find?_served_append _ _ _ _ hafter
  rw [getBooleanValue_reached, ← hsame, hflag, Option.bind_some, henabled, Option.getD_some]

end Runs

/-! ## A run -/

/-- The time of a command, and whether the flag service is reached. -/
structure Move where
  time : ℤ
  reached : Bool

section Moves

variable [FeatureClient]

def perform : (command : Command) → Bool → Shared → command.Answer × Shared
  | .utcNow, _, shared => (shared.time, shared)
  | .tryGetValue pluginName, _, shared => (shared.cache pluginName, shared)
  | .getBooleanValue pluginName defaultValue, reached, shared =>
      (getBooleanValue shared.registry pluginName defaultValue reached,
        shared.observe (.evaluated shared.time pluginName defaultValue reached))
  | .setCache pluginName cached, _, shared =>
      ((), { shared with cache := Function.update shared.cache pluginName (some cached) })
  | .answer _ _, _, shared => ((), shared)
  | .request request, _, shared =>
      ((handle shared.registry request).1,
        { shared with registry := (handle shared.registry request).2 }.observe
          (.requested shared.time request))

def move (command : Command) (m : Move) (shared : Shared) :
    Option (Except Empty command.Answer × Shared) :=
  if shared.time ≤ m.time then
    let result := perform command m.reached { shared with time := m.time }
    some (.ok result.1, result.2)
  else none

theorem effect_perform (command : Command) (reached : Bool) (shared : Shared) :
    effect command shared (perform command reached shared).1
      (perform command reached shared).2 := by
  cases command with
  | utcNow | tryGetValue | request => exact ⟨rfl, rfl⟩
  | getBooleanValue => exact ⟨reached, rfl, rfl⟩
  | setCache | answer => rfl

theorem step_of_move (command : Command) (m : Move) (shared : Shared)
    (answer : Except Empty command.Answer) (shared' : Shared)
    (hmove : move command m shared = some (answer, shared')) :
    step command shared answer shared' := by
  unfold move at hmove
  split_ifs at hmove with htime
  cases hmove
  exact ⟨m.time, _, htime, rfl, effect_perform _ _ _⟩

end Moves

namespace Sample

def highCpuUsage (enabled : Option Bool) : Flag where
  id := "high_cpu_usage"
  enabled := enabled
  name := "K8s: high CPU usage"
  description := ""
  isModifiable := true
  tag := "problem_pattern"

def registry : Registry := ⟨[highCpuUsage (some false)], List.nodup_singleton _⟩

instance client : FeatureClient where
  getBooleanValueAsync provider defaultValue := (provider defaultValue).toOption.getD defaultValue
  ok _ _ _ hvalue := by rw [hvalue]; rfl
  error _ _ _ herror := by rw [herror]; rfl

/-- The broker asks for the flag before it is turned on, half a minute later and a minute
later. -/
def clients (n : Fin 4) : Client :=
  if n = 1 then .client (.updateFlag "high_cpu_usage" (some true))
  else .caller "high_cpu_usage" false

def schedule : List (Fin 4 × Move) :=
  [(0, ⟨5, true⟩), (0, ⟨5, true⟩), (0, ⟨5, true⟩), (0, ⟨5, true⟩), (0, ⟨5, true⟩),
    (1, ⟨10, true⟩), (2, ⟨300000010, true⟩), (2, ⟨300000010, true⟩),
    (3, ⟨600000010, true⟩), (3, ⟨600000010, true⟩), (3, ⟨600000500, true⟩),
    (3, ⟨600000900, true⟩)]

/-- What there is to see when the two later calls are about to answer. -/
def seen (system : System (Fin 4)) : Bool :=
  (system.threads 2).memory.started = some 300000010 ∧
    answering (system.threads 2).rest = some ("high_cpu_usage", false) ∧
    (system.threads 3).memory.started = some 600000010 ∧
    (answering (system.threads 3).rest).map Prod.fst = some "high_cpu_usage" ∧
    system.shared.log = [.evaluated 5 "high_cpu_usage" false true,
      .requested 10 (.updateFlag "high_cpu_usage" (some true)),
      .evaluated 600000500 "high_cpu_usage" false true] ∧
    system.shared.registry.find? "high_cpu_usage" = some (highCpuUsage (some true))

theorem exists_seen : ∃ system, seen system = true ∧
    Interleaves 60 (System.start 60 0 registry clients) system :=
  exists_reachesWhen step_of_move (note (fromSeconds 60)) (fun _ _ _ => True)
    (System.start 60 0 registry clients) schedule seen (by decide)

end Sample

/-- Half a minute later the call answers from the cache, with the state before the update. -/
theorem answered_recently_from_cache : ∃ system : System (Fin 4),
    system.Answers 2 300000010 "high_cpu_usage" false ∧
      system.shared.registry.find? "high_cpu_usage" = some (Sample.highCpuUsage (some true)) ∧
      ∃ since, (300000010 - fromSeconds 60 < since ∨ 300000010 ≤ since) ∧
        Told Sample.registry system.shared.log "high_cpu_usage" false since := by
  obtain ⟨system, hseen, hreaches⟩ := Sample.exists_seen
  obtain ⟨hstarted, hanswering, -, -, -, hflag⟩ := of_decide_eq_true hseen
  have hanswers : system.Answers 2 300000010 "high_cpu_usage" false := ⟨hstarted, hanswering⟩
  exact ⟨system, hanswers, hflag, answered_recently hreaches hanswers⟩

/-- A minute later the entry has run out, and the call sees the update. -/
theorem update_seen_minute_later : ∃ (system : System (Fin 4)) (value : Bool),
    system.Answers 2 300000010 "high_cpu_usage" false ∧
      system.Answers 3 600000010 "high_cpu_usage" value ∧ value = true := by
  obtain ⟨system, hseen, hreaches⟩ := Sample.exists_seen
  obtain ⟨hearlier, hcached, hstarted, hanswering, hlog, hflag⟩ := of_decide_eq_true hseen
  obtain ⟨⟨name, value⟩, hrest, rfl⟩ := Option.map_eq_some_iff.mp hanswering
  have hanswers : system.Answers 3 600000010 "high_cpu_usage" value := ⟨hstarted, hrest⟩
  exact ⟨system, value, ⟨hearlier, hcached⟩, hanswers, update_seen hreaches hanswers
    (by simp [hlog, fromSeconds]) (by simp [hlog]) hflag rfl⟩

end EasyTrade.FeatureFlags

import EasyTrade.Core.Chronicle
import EasyTrade.ProblemOperator.Operator

/-!
# Applying and rolling back in turn

An update is only accepted when nothing has been stored since its copy was read, so the
annotation that the operator has decided upon is still the one that is replaced.  Effects
are therefore stored in turn, whatever fails, however many operators run and whoever else
writes, and a run stores its object exactly once or fails.
-/

namespace EasyTrade.ProblemOperator

open EasyTrade.Program EasyTrade.Interleaving

def Event.effect : Event → Option Effect
  | .stored _ effect _ _ => effect
  | _ => none

/-- What has reached the persisted object. -/
def effects (history : List Event) : List Effect :=
  history.filterMap Event.effect

/-- How many updates of the operator have been accepted since its last report. -/
def Event.countStored (operator : ℕ) (count : ℕ) : Event → ℕ
  | stored writer _ _ _ => if writer = operator then count + 1 else count
  | reported reporter _ => if reporter = operator then 0 else count
  | written _ _ => count

def storedSince (operator : ℕ) (history : List Event) : ℕ :=
  history.foldl (Event.countStored operator) 0

/-- What the annotation amounts to before anything is stored. -/
def initialEffect (isOn : Bool) : Effect :=
  if isOn then .apply else .rollback

/-- Nothing is stored by a run that ends with an error, and exactly one object by any
other. -/
def RunStored (before : List Event) (event : Event) : Prop :=
  ∀ operator outcome, event = .reported operator outcome →
    storedSince operator before = if outcome.isOk then 1 else 0

/-- Effects alternate, and the annotation says which was the last. -/
structure Alternating (initiallyOn : Bool) (cluster : Cluster) : Prop where
  alternate : (initialEffect initiallyOn :: effects cluster.history).IsChain (· ≠ ·)
  annotation : cluster.deployment.isOn highCpuUsage = true ↔
    (effects cluster.history).getLast?.getD (initialEffect initiallyOn) = .apply
  runs : Throughout RunStored cluster.history

/-! ## Copies -/

/-- An object that has been made from a copy, with an effect or without. -/
structure Changed (copy obj : Deployment) (effect : Option Effect) : Prop where
  version : obj.resourceVersion = copy.resourceVersion
  isOn : obj.isOn highCpuUsage = (effect.map (decide <| · = Effect.apply)).getD
    (copy.isOn highCpuUsage)
  flips : effect ≠ none → copy.isOn highCpuUsage ≠ obj.isOn highCpuUsage

/-- What an operator knows: the last copy that it has read, and what it has stored in this
run. -/
structure Knows where
  read : Option Deployment
  stored : ℕ

def noteRun : Note OperatorError Command.Answer Knows
  | knows, .getResource, .ok obj => { knows with read := some obj }
  | knows, .updateResource .., .ok _ => { knows with stored := knows.stored + 1 }
  | knows, .report .., _ => { knows with stored := 0 }
  | knows, _, _ => knows

structure Tracks (operator : ℕ) (cluster : Cluster) (knows : Knows) : Prop where
  read : ∀ copy ∈ knows.read, cluster.deployment.Copied copy
  stored : storedSince operator cluster.history = knows.stored

def operatorGuard (operator : ℕ) : Command → Knows → Prop
  | .updateResource writer obj effect, knows =>
      writer = operator ∧ ∃ copy ∈ knows.read, Changed copy obj effect
  | .report reporter outcome, knows =>
      reporter = operator ∧ knows.stored = if outcome.isOk then 1 else 0
  | .write, _ => False
  | _, _ => True

def writerGuard : Command → Knows → Prop
  | .write, _ => True
  | _, _ => False

def partyGuard : Party → Command → Knows → Prop
  | .operator n => operatorGuard n
  | .writer _ => writerGuard

def partyRelies : Party → Cluster → Knows → Prop
  | .operator n => Tracks n
  | .writer _ => fun _ _ => True

/-! ## What is stored -/

section Store

variable {cluster cluster' : Cluster} {obj : Deployment} {operator : ℕ} {knows : Knows}
variable {event : Event} {initiallyOn : Bool}

theorem effects_concat (history : List Event) :
    effects (history ++ [event]) = effects history ++ event.effect.toList := by
  rw [effects, List.filterMap_append, effects]
  cases heffect : event.effect <;> simp [heffect]

theorem storedSince_concat (history : List Event) :
    storedSince operator (history ++ [event]) =
      event.countStored operator (storedSince operator history) := by
  rw [storedSince, List.foldl_append]
  rfl

/-- An event without an effect that leaves the annotation keeps the alternation. -/
theorem Alternating.idle (hcluster : Alternating initiallyOn cluster)
    (hhistory : cluster'.history = cluster.history ++ [event]) (hnone : event.effect = none)
    (hisOn : cluster'.deployment.isOn highCpuUsage = cluster.deployment.isOn highCpuUsage)
    (hrun : RunStored cluster.history event) : Alternating initiallyOn cluster' := by
  have heffects : effects cluster'.history = effects cluster.history := by
    rw [hhistory, effects_concat, hnone]
    exact List.append_nil _
  refine ⟨?_, ?_, ?_⟩
  · rw [heffects]
    exact hcluster.alternate
  · rw [heffects, hisOn]
    exact hcluster.annotation
  · rw [hhistory]
    exact hcluster.runs.concat hrun

/-- An effect that turns the annotation comes after the other effect. -/
theorem Alternating.turn {effect : Effect} (hcluster : Alternating initiallyOn cluster)
    (hhistory : cluster'.history = cluster.history ++ [event]) (hsome : event.effect = some effect)
    (hisOn : cluster'.deployment.isOn highCpuUsage = decide (effect = .apply))
    (hflips : cluster.deployment.isOn highCpuUsage ≠ cluster'.deployment.isOn highCpuUsage)
    (hrun : RunStored cluster.history event) : Alternating initiallyOn cluster' := by
  have heffects : effects cluster'.history = effects cluster.history ++ [effect] := by
    rw [hhistory, effects_concat, hsome]
    rfl
  have hlast : (effects cluster.history).getLast?.getD (initialEffect initiallyOn) ≠ effect := by
    intro hlast
    have hbefore := hcluster.annotation
    rw [hlast] at hbefore
    refine hflips (Bool.eq_iff_iff.mpr ?_)
    rw [hbefore, hisOn, decide_eq_true_iff]
  refine ⟨?_, ?_, ?_⟩
  · rw [heffects, ← List.cons_append]
    refine List.isChain_append.mpr ⟨hcluster.alternate, List.isChain_singleton _, ?_⟩
    intro last hmem other hother
    rw [List.getLast?_cons, Option.mem_some_iff] at hmem
    rw [List.head?_cons, Option.mem_some_iff] at hother
    rw [← hmem, ← hother]
    exact hlast
  · rw [heffects, List.getLast?_concat, hisOn, decide_eq_true_iff]
    rfl
  · rw [hhistory]
    exact hcluster.runs.concat hrun

end Store

/-! ## What every command guarantees -/

section Guarantee

variable {cluster cluster' : Cluster} {initiallyOn : Bool} {knows : Knows}

theorem runStored_of_stored (history : List Event) {operator : ℕ} {effect : Option Effect}
    {before after : PodTemplate} : RunStored history (.stored operator effect before after) := by
  intro reporter outcome h
  cases h

/-- An accepted update replaces the object that its copy was read from. -/
theorem Alternating.update {operator : ℕ} {obj : Deployment} {effect : Option Effect}
    (hcluster : Alternating initiallyOn cluster) (htracks : Tracks operator cluster knows)
    (hguard : ∃ copy ∈ knows.read, Changed copy obj effect)
    (hversion : obj.resourceVersion = cluster.deployment.resourceVersion)
    (hstore : cluster.store obj (.stored operator effect) = some cluster') :
    Alternating initiallyOn cluster' := by
  obtain ⟨copy, hcopy, hchanged⟩ := hguard
  have hsame : copy = cluster.deployment :=
    (htracks.read copy hcopy).current (hchanged.version.symm.trans hversion)
  have hisOn : cluster'.deployment.isOn highCpuUsage = obj.isOn highCpuUsage := by
    rw [Cluster.deployment_of_store hstore, Cluster.isOn_accepted]
  rw [hsame] at hchanged
  have hhistory := Cluster.history_of_store hstore
  cases effect with
  | none => exact hcluster.idle hhistory rfl (hisOn.trans hchanged.isOn) (runStored_of_stored _)
  | some effect =>
      refine hcluster.turn hhistory rfl (hisOn.trans hchanged.isOn) ?_ (runStored_of_stored _)
      rw [hisOn]
      exact hchanged.flips (Option.some_ne_none effect)

theorem Alternating.report {operator : ℕ} {outcome : Except OperatorError Unit}
    (hcluster : Alternating initiallyOn cluster) (htracks : Tracks operator cluster knows)
    (hguard : knows.stored = if outcome.isOk then 1 else 0) :
    Alternating initiallyOn (cluster.report operator outcome) := by
  refine hcluster.idle rfl rfl rfl fun reporter reported h => ?_
  cases h
  exact htracks.stored.trans hguard

theorem Alternating.write {obj : Deployment} (hcluster : Alternating initiallyOn cluster)
    (hlookup : (getAllAnnotations obj).lookup (annotationPrefix ++ highCpuUsage) =
      (getAllAnnotations cluster.deployment).lookup (annotationPrefix ++ highCpuUsage))
    (hstore : cluster.store obj .written = some cluster') : Alternating initiallyOn cluster' := by
  refine hcluster.idle (Cluster.history_of_store hstore) rfl ?_ fun _ _ h => (by cases h)
  rw [Cluster.deployment_of_store hstore, Cluster.isOn_accepted, Deployment.isOn, hlookup,
    Deployment.isOn]

/-- What is stored by one party leaves what the others know. -/
theorem relies_of_store {party : Party} {obj : Deployment}
    (event : PodTemplate → PodTemplate → Event)
    (hevent : ∀ n before after count, party = .operator n →
      (event before after).countStored n count = count)
    (hstore : cluster.store obj event = some cluster')
    (hrelies : partyRelies party cluster knows) : partyRelies party cluster' knows := by
  cases party with
  | writer n => trivial
  | operator n =>
      refine ⟨fun copy hcopy => (hrelies.read copy hcopy).store hstore, ?_⟩
      rw [Cluster.history_of_store hstore, storedSince_concat, hevent n _ _ _ rfl]
      exact hrelies.stored

theorem relies_of_report {party : Party} {operator : ℕ} {outcome : Except OperatorError Unit}
    (hparty : party ≠ .operator operator) (hrelies : partyRelies party cluster knows) :
    partyRelies party (cluster.report operator outcome) knows := by
  cases party with
  | writer n => trivial
  | operator n =>
      have hne : operator ≠ n := fun heq => hparty (congrArg Party.operator heq.symm)
      refine ⟨hrelies.read, ?_⟩
      rw [Cluster.report, storedSince_concat, Event.countStored, if_neg hne]
      exact hrelies.stored

theorem guarantees_alternation (initiallyOn : Bool) :
    Guarantees clusterStep noteRun (fun _ _ _ => True) (Alternating initiallyOn) partyRelies
      partyGuard := by
  intro party command cluster knows answer cluster' hcluster hrelies hguard _ hstep
  cases party with
  | writer n =>
      cases does_of_clusterStep hstep with
      | fails failure => exact ⟨hcluster, trivial, fun _ _ _ h => h⟩
      | write hname hversion hlookup hstore =>
          exact ⟨hcluster.write hlookup hstore, trivial,
            fun other _ _ h => relies_of_store .written (fun _ _ _ _ _ => rfl) hstore h⟩
      | _ => cases hguard
  | operator n =>
      have htracks : Tracks n cluster knows := hrelies
      cases does_of_clusterStep hstep with
      | fails failure =>
          refine ⟨hcluster, ?_, fun _ _ _ h => h⟩
          cases command with
          | report operator outcome =>
              obtain ⟨choice, hmove⟩ := hstep
              cases choice <;> cases hmove
          | _ => exact htracks
      | ctxErr => exact ⟨hcluster, htracks, fun _ _ _ h => h⟩
      | getFlag enabled => exact ⟨hcluster, htracks, fun _ _ _ h => h⟩
      | getResource =>
          refine ⟨hcluster, ⟨fun copy hcopy => ?_, htracks.stored⟩, fun _ _ _ h => h⟩
          cases hcopy
          exact cluster.deployment.copied_self
      | listReplicaSets hsets => exact ⟨hcluster, htracks, fun _ _ _ h => h⟩
      | updateResource hversion hstore =>
          obtain ⟨rfl, hcopy⟩ := hguard
          refine ⟨hcluster.update htracks hcopy hversion hstore, ?_, fun other hother _ h => ?_⟩
          · refine ⟨fun copy hcopy => (htracks.read copy hcopy).store hstore, ?_⟩
            rw [Cluster.history_of_store hstore, storedSince_concat, htracks.stored,
              Event.countStored, if_pos rfl]
            rfl
          · refine relies_of_store (.stored _ _) (fun m _ _ _ hm => if_neg fun heq => ?_) hstore h
            exact hother (hm.trans (congrArg Party.operator heq.symm))
      | report =>
          obtain ⟨rfl, hstored⟩ := hguard
          refine ⟨hcluster.report htracks hstored, ⟨htracks.read, ?_⟩,
            fun other hother _ h => relies_of_report hother h⟩
          rw [Cluster.report, storedSince_concat, Event.countStored, if_pos rfl]
          rfl
      | write => cases hguard

end Guarantee

/-! ## What every program keeps to -/

section Programs

variable {setting : Setting} {operator : ℕ} {knows : Knows} {flag : Flag}

/-- An operator's program. -/
abbrev Operates {α : Type} (operator : ℕ) (task : Task α)
    (post : Except OperatorError α → Knows → Prop) (knows : Knows) : Prop :=
  wp (remembers (fun _ _ _ => True) noteRun) (operatorGuard operator) task post knows

/-- Nothing is stored until the last command of the run. -/
def StoresOnce : Except OperatorError Unit → Knows → Prop :=
  fun outcome final => final.stored = if outcome.isOk then 1 else 0

/-- A command that leaves no note. -/
theorem operates_perform {command : Command}
    {post : Except OperatorError command.Answer → Knows → Prop}
    (hguard : operatorGuard operator command knows)
    (hnote : ∀ answer, noteRun knows command answer = knows)
    (hpost : ∀ outcome, post outcome knows) :
    Operates operator (perform command) post knows := by
  rw [perform, Operates, wp_remembers_perform]
  refine ⟨hguard, fun value _ => ?_, fun error _ => ?_⟩
  all_goals
    rw [hnote]
    exact hpost _

theorem operates_settle {α : Type} {result : Except OperatorError α}
    {post : Except OperatorError α → Knows → Prop} (hpost : post result knows) :
    Operates operator (settle result) post knows := by
  cases result <;> exact hpost

/-- Only the template of the object is replaced. -/
theorem operates_rollbackChange {obj : Deployment}
    {post : Except OperatorError Deployment → Knows → Prop}
    (hok : ∀ template, post (.ok { obj with template }) knows)
    (herror : ∀ error, post (.error error) knows) :
    Operates operator (BrokerController.RollbackChange obj) post knows := by
  rw [BrokerController.RollbackChange, RollbackDeployment, Operates, wp_bind]
  refine operates_settle ?_
  cases deploymentRevision obj with
  | error error => exact herror error
  | ok deployRev =>
      rw [andThen_ok, wp_bind]
      refine operates_perform trivial (fun _ => rfl) fun outcome => ?_
      cases outcome with
      | error error => exact herror error
      | ok items =>
          rw [andThen_ok, wp_bind]
          refine operates_settle ?_
          cases previousTemplate deployRev items with
          | error error => exact herror error
          | ok template => exact hok template

theorem operates_applyChange {obj : Deployment}
    {post : Except OperatorError Deployment → Knows → Prop}
    (hok : ∀ template, post (.ok { obj with template }) knows)
    (herror : ∀ error, post (.error error) knows) :
    Operates operator (BrokerController.ApplyChange setting obj) post knows := by
  rw [BrokerController.ApplyChange]
  cases setting.cpuLimit with
  | none => exact herror .quantity
  | some cpuLimit => exact hok (obj.template.limitCpu cpuLimit)

theorem changed_set {copy obj : Deployment} {value : AnnotationValue} {effect : Effect}
    (hflag : flag.id = highCpuUsage) (hobj : obj = copy ∨ obj = setFlagAnnotation flag copy .off)
    (hvalue : value.Bool = decide (effect = .apply))
    (hflips : copy.isOn highCpuUsage ≠ value.Bool) (template : PodTemplate) :
    Changed copy { setFlagAnnotation flag obj value with template } (some effect) := by
  have hisOn : (value |> setFlagAnnotation flag obj).isOn highCpuUsage = value.Bool := by
    rw [← hflag, isOn_set]
  refine ⟨?_, hisOn.trans hvalue, fun _ => ?_⟩
  · rcases hobj with rfl | rfl <;> rfl
  · intro heq
    exact hflips (heq.trans hisOn)

theorem operates_change {copy : Deployment} (hflag : flag.id = highCpuUsage)
    {post : Except OperatorError (Deployment × Option Effect) → Knows → Prop}
    (hok : ∀ obj effect, Changed copy obj effect → post (.ok (obj, effect)) knows)
    (herror : ∀ error, post (.error error) knows) :
    Operates operator (change setting flag copy) post knows := by
  have hdecided := decided_getObjectState flag copy
  rw [change]
  generalize getObjectState flag copy = decided at hdecided ⊢
  obtain ⟨state, obj⟩ := decided
  cases state with
  | synchronized =>
      have hisOn := hdecided.isOn
      rw [hflag] at hisOn
      refine hok obj none ⟨?_, hisOn, fun h => absurd rfl h⟩
      exact hdecided.unchanged.elim (congrArg _) (congrArg Deployment.resourceVersion)
  | shouldApply =>
      obtain ⟨hoff, -⟩ := hdecided.shouldApply rfl
      rw [hflag] at hoff
      rw [Operates, wp_bind]
      refine operates_applyChange (fun template => ?_) herror
      refine hok _ _ (changed_set hflag hdecided.unchanged rfl ?_ template)
      rw [hoff]
      decide
  | shouldRollback =>
      obtain ⟨hon, -⟩ := hdecided.shouldRollback rfl
      rw [hflag] at hon
      rw [Operates, wp_bind]
      refine operates_rollbackChange (fun template => ?_) herror
      refine hok _ _ (changed_set hflag hdecided.unchanged rfl ?_ template)
      rw [hon]
      decide

theorem operates_attempt (hflag : flag.id = highCpuUsage) (hnone : knows.stored = 0) :
    Operates operator (attempt setting operator flag) StoresOnce knows := by
  rw [attempt, Operates, wp_bind]
  refine operates_perform trivial (fun _ => rfl) fun outcome => ?_
  cases outcome with
  | error error => exact hnone
  | ok value =>
      rw [andThen_ok, wp_bind, perform, wp_remembers_perform]
      refine ⟨trivial, fun copy _ => ?_, fun error _ => hnone⟩
      rw [andThen_ok, wp_bind]
      refine operates_change hflag (fun obj effect hchanged => ?_) fun error => hnone
      change Operates operator (perform (.updateResource operator obj effect)) StoresOnce _
      rw [perform, Operates, wp_remembers_perform]
      refine ⟨⟨rfl, copy, rfl, hchanged⟩, fun value _ => ?_, fun error _ => hnone⟩
      exact congrArg (· + 1) hnone

theorem operates_retryOnConflict (steps : ℕ) (hsteps : steps ≠ 0) {task : Task Unit}
    (htask : ∀ knows, knows.stored = 0 → Operates operator task StoresOnce knows)
    (hnone : knows.stored = 0) :
    Operates operator (RetryOnConflict steps task) StoresOnce knows := by
  induction steps generalizing knows with
  | zero => exact absurd rfl hsteps
  | succ steps ih =>
      rw [RetryOnConflict, Operates, wp_tryCatch]
      refine wp_mono (fun outcome final hfinal => ?_) (htask knows hnone)
      cases outcome with
      | ok value => exact hfinal
      | error error =>
          rw [orElse_error]
          split_ifs with hagain
          · exact ih hagain.2 hfinal
          · exact hfinal

theorem operates_updateState (hnone : knows.stored = 0) :
    Operates operator (updateState setting operator) StoresOnce knows := by
  rw [updateState, Operates, wp_bind]
  refine operates_perform trivial (fun _ => rfl) fun outcome => ?_
  cases outcome with
  | error error => exact hnone
  | ok enabled =>
      exact operates_retryOnConflict setting.DefaultRetry setting.retries
        (fun _ => operates_attempt rfl) hnone

theorem operates_run (rounds : ℕ) (hnone : knows.stored = 0) :
    Operates operator (Run setting operator rounds) (fun _ _ => True) knows := by
  induction rounds generalizing knows with
  | zero => trivial
  | succ rounds ih =>
      rw [Run, Operates, wp_bind, wp_tryCatch, wp_bind]
      refine wp_mono (fun outcome final hfinal => ?_) (operates_updateState hnone)
      cases outcome with
      | ok value =>
          rw [andThen_ok, wp_pure, orElse_ok, andThen_ok, wp_bind, perform, wp_remembers_perform]
          exact ⟨⟨rfl, hfinal⟩, fun _ _ => ih rfl, fun _ _ => trivial⟩
      | error error =>
          rw [andThen_error, orElse_error, wp_pure, andThen_ok, wp_bind, perform,
            wp_remembers_perform]
          exact ⟨⟨rfl, hfinal⟩, fun _ _ => ih rfl, fun _ _ => trivial⟩

theorem writes_writeRepeatedly (writes : ℕ) :
    wp (remembers (fun _ _ _ => True) noteRun) writerGuard (writeRepeatedly writes)
      (fun _ _ => True) knows := by
  have hissues : (writeRepeatedly writes).Issues
      fun command => ∀ knows, writerGuard command knows :=
    issues_writeRepeatedly (fun _ => trivial) writes
  exact Prog.wp_of_issues hissues fun _ knows hguard => hguard knows

end Programs

theorem upheld_alternation (workload : Workload) (deployment : Deployment) (revision : ℕ)
    (replicaSets : List ReplicaSet) :
    Upheld (fun _ _ _ => True) noteRun (Alternating (deployment.isOn highCpuUsage)) partyRelies
      partyGuard (workload.start ⟨none, 0⟩ (.start deployment revision replicaSets)) := by
  refine ⟨⟨List.isChain_singleton _, ?_, throughout_nil⟩, fun party => ?_, fun party => ?_⟩
  · change deployment.isOn highCpuUsage = true ↔ initialEffect _ = .apply
    cases deployment.isOn highCpuUsage <;> decide
  · cases party with
    | operator n =>
        refine ⟨fun copy hcopy => ?_, rfl⟩
        cases hcopy
    | writer n => trivial
  · cases party with
    | operator n => exact operates_run (workload.rounds n) rfl
    | writer n => exact writes_writeRepeatedly (workload.writes n)

/-- Applying and rolling back in turn.  Whatever the deployment is like, in every
interleaving of any number of operators and of writers that leave the flag's annotation
alone, with any flag values and any failures, the effects that are stored alternate, the
annotation is `on` exactly when the last of them is an apply (or it was `on` and there is
none), and a run stores nothing when it ends with an error. -/
theorem effects_alternate {workload : Workload} {deployment : Deployment} {revision : ℕ}
    {replicaSets : List ReplicaSet} {system : System Unit}
    (hinterleaves :
      Interleaves (workload.start () (.start deployment revision replicaSets)) system) :
    Alternating (deployment.isOn highCpuUsage) system.shared := by
  obtain ⟨noted, rfl, hreaches⟩ := exists_noted noteRun (fun _ _ _ => True)
    (fun _ _ _ _ _ _ => trivial)
    (workload.start ⟨none, 0⟩ (.start deployment revision replicaSets)) hinterleaves
  exact ((upheld_alternation workload deployment revision replicaSets).reaches
    (fun _ _ _ _ _ => trivial) (guarantees_alternation _) hreaches).shared

/-- The flag goes on, which takes a second attempt because somebody else has written in
between, and then off. -/
theorem effects_alternate_once :
    ∃ system : System Unit, effects system.shared.history = [.apply, .rollback] ∧
      Alternating false system.shared := by
  obtain ⟨system, hcheck, hinterleaves⟩ := exists_reachesWhen clusterStep_of_move
    (fun _ _ _ => ()) (fun _ _ _ => True)
    (Workload.start ⟨Sample.setting, fun _ => 2, fun _ => 1⟩ ()
      (.start (Sample.deployment (Sample.template none) 1) 1
        [Sample.replicaSet (Sample.template none) 1]))
    [(.operator 0, .flag true), (.operator 0, .goes), (.operator 0, .goes),
      (.writer 0, .writes { Sample.deployment (Sample.template none) 1 with other := "scaled" }),
      (.operator 0, .goes), (.operator 0, .goes), (.operator 0, .goes), (.operator 0, .goes),
      (.operator 0, .goes), (.operator 0, .flag false), (.operator 0, .goes), (.operator 0, .goes),
      (.operator 0, .inOrder [Sample.replicaSet (Sample.template none) 1,
        Sample.replicaSet (Sample.template (some (3 / 10))) 2]),
      (.operator 0, .goes), (.operator 0, .goes)]
    (fun system => decide (effects system.shared.history = [.apply, .rollback]))
    (by decide +kernel)
  exact ⟨system, of_decide_eq_true hcheck, effects_alternate hinterleaves⟩

end EasyTrade.ProblemOperator

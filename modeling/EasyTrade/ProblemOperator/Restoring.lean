import EasyTrade.Core.Chronicle
import EasyTrade.ProblemOperator.Revisions

/-!
# Going back to the template before

Rolling back takes the template of the revision before the present one.  That is the
template before the change was applied if applying it has changed the template, and
otherwise a template that has nothing to do with it, or none at all.
-/

namespace EasyTrade.ProblemOperator

open EasyTrade.Program EasyTrade.Interleaving

/-- `RollbackChange` fails by itself. -/
def OperatorError.ofRollback : OperatorError → Bool
  | revisionAnnotationNotFound | revisionNotANumber | noPreviousReplicaSet => true
  | _ => false

/-- How rolling back turns out: the template that is stored, or `none` when it fails. -/
def Event.rolledBack : Event → Option (Option PodTemplate)
  | stored _ (some .rollback) _ after => some (some after)
  | reported _ (.error error) => if error.ofRollback then some none else none
  | _ => none

/-- The event neither stores an effect nor changes the template. -/
def Event.Keeps : Event → Prop
  | stored _ effect before after => effect = none ∧ before = after
  | written before after => before = after
  | reported _ _ => True

/-- The template before the change that is applied, as long as nobody has changed the
template since. -/
def Event.track (base : Option PodTemplate) : Event → Option PodTemplate
  | stored _ (some .apply) before _ => some before
  | stored _ (some .rollback) _ _ => none
  | stored _ none before after | written before after => if before = after then base else none
  | reported _ _ => base

def appliedTo (history : List Event) : Option PodTemplate :=
  history.foldl Event.track none

/-- Rolling back goes back to the template before exactly when its containers did not all
have the limit already. -/
def Restores (setting : Setting) (before : List Event) (event : Event) : Prop :=
  ∀ template result, appliedTo before = some template → event.rolledBack = some result →
    (result = some template ↔ ∃ cpuLimit, setting.cpuLimit = some cpuLimit ∧
      ¬ template.Limited cpuLimit)

/-- The change is in force. -/
structure Applied (setting : Setting) (cluster : Cluster) (template : PodTemplate) : Prop where
  limited : ∃ cpuLimit, setting.cpuLimit = some cpuLimit ∧
    cluster.deployment.template = template.limitCpu cpuLimit
  previous : cluster.deployment.template ≠ template → ∃ set ∈ cluster.own,
    set.template = template ∧ ∃ n, n + 1 = cluster.revision ∧ set.revision = some (toString n)

structure Restoring (setting : Setting) (cluster : Cluster) : Prop where
  revisions : cluster.RevisionHistory
  applied : ∀ template, appliedTo cluster.history = some template →
    Applied setting cluster template
  restores : Throughout (Restores setting) cluster.history

/-! ## Rolling back -/

section Rollback

variable {setting : Setting} {cluster : Cluster} {template : PodTemplate}
variable {sets : List ReplicaSet}

theorem appliedTo_concat (history : List Event) (event : Event) :
    appliedTo (history ++ [event]) = event.track (appliedTo history) := by
  rw [appliedTo, List.foldl_append]
  rfl

theorem appliedTo_of_keeps {history between : List Event}
    (hkeeps : ∀ event ∈ between, event.Keeps) :
    appliedTo (history ++ between) = appliedTo history := by
  induction between generalizing history with
  | nil => rw [List.append_nil]
  | cons event between ih =>
      have hevent : event.track (appliedTo history) = appliedTo history := by
        have hkeep := hkeeps event List.mem_cons_self
        cases event with
        | stored operator effect before after =>
            obtain ⟨rfl, rfl⟩ := hkeep
            exact if_pos rfl
        | written before after => exact if_pos hkeep
        | reported operator outcome => rfl
      calc appliedTo (history ++ event :: between)
          = appliedTo ((history ++ [event]) ++ between) := by rw [List.append_assoc]; rfl
        _ = appliedTo (history ++ [event]) :=
            ih fun other hother => hkeeps other (List.mem_cons_of_mem _ hother)
        _ = appliedTo history := (appliedTo_concat history event).trans hevent

/-- What the loop finds in the replica sets of a deployment with the change applied. -/
theorem Restoring.previousTemplate (hcluster : Restoring setting cluster)
    (happlied : appliedTo cluster.history = some template) (hsets : sets.Perm cluster.own) :
    (∀ found, previousTemplate cluster.revision sets = .ok found →
      (found = template ↔ ∃ cpuLimit, setting.cpuLimit = some cpuLimit ∧
        ¬ template.Limited cpuLimit)) ∧
    ∀ error, ProblemOperator.previousTemplate cluster.revision sets = .error error →
      ¬ ∃ cpuLimit, setting.cpuLimit = some cpuLimit ∧ ¬ template.Limited cpuLimit := by
  obtain ⟨⟨cpuLimit, hsetting, hlimited⟩, hprevious⟩ := hcluster.applied template happlied
  have hrevisions := hcluster.revisions
  have hnumbered : ∀ set ∈ sets, ∃ n ≤ cluster.revision, set.revision = some (toString n) :=
    fun set hset => hrevisions.numbered set (hsets.subset hset)
  have hchanged : cluster.deployment.template ≠ template ↔
      ∃ cpuLimit, setting.cpuLimit = some cpuLimit ∧ ¬ template.Limited cpuLimit := by
    rw [hlimited, ne_eq, PodTemplate.limitCpu_eq_iff, hsetting]
    simp
  rw [← hchanged]
  rcases previousTemplate_cases hrevisions.bound hnumbered with
    ⟨set, hset, n, hn, hset_n, hfound⟩ | ⟨hnone, herror⟩
  · refine ⟨fun found h => ?_, fun error h => ?_⟩
    all_goals
      rw [hfound] at h
      cases h
    constructor
    · intro hsame hunchanged
      obtain ⟨current, hcurrent, hcurrent_template, hcurrent_revision⟩ := hrevisions.current
      have heq : set = current := hrevisions.templates set (hsets.subset hset) current hcurrent
        (hsame.trans (hunchanged.symm.trans hcurrent_template.symm))
      rw [heq, hcurrent_revision] at hset_n
      have hnumber := toString_injective (Option.some.inj hset_n)
      omega
    · intro hne
      obtain ⟨old, hold, hold_template, m, hm, hold_revision⟩ := hprevious hne
      have hmn : m = n := by omega
      have heq : set = old := hrevisions.revisions set (hsets.subset hset) old hold
        (by rw [hset_n, hold_revision, hmn])
      rw [heq]
      exact hold_template
  · refine ⟨fun found h => ?_, fun error _ hne => ?_⟩
    · rw [herror] at h
      cases h
    obtain ⟨old, hold, -, m, hm, hold_revision⟩ := hprevious hne
    exact hnone old (hsets.symm.subset hold) m hm hold_revision

end Rollback

/-! ## Copies and lists -/

/-- What the operator has seen: the last copy and the replica sets listed for it. -/
structure Seen where
  read : Option Deployment
  listed : Option (List ReplicaSet)

def noteSeen : Note OperatorError Command.Answer Seen
  | _, .getResource, .ok obj => ⟨some obj, none⟩
  | seen, .listReplicaSets _, .ok sets => { seen with listed := some sets }
  | _, .updateResource .., .ok _ => ⟨none, none⟩
  | seen, _, _ => seen

/-- What the operator may rely on: as long as the change is in force, the copy and the list
are up to date in everything that matters for rolling back. -/
structure UpToDate (cluster : Cluster) (seen : Seen) : Prop where
  copied : ∀ copy ∈ seen.read, cluster.deployment.Copied copy
  name : ∀ copy ∈ seen.read, copy.name = cluster.deployment.name
  revision : ∀ copy ∈ seen.read, appliedTo cluster.history ≠ none →
    (getAllAnnotations copy).lookup revisionAnnotation = some (toString cluster.revision)
  listed : ∀ sets ∈ seen.listed, appliedTo cluster.history ≠ none → sets.Perm cluster.own

/-- Rolling back the copy fails. -/
def RollbackFails (seen : Seen) (error : OperatorError) : Prop :=
  ∃ copy ∈ seen.read, deploymentRevision copy = .error error ∨
    ∃ deployRev, deploymentRevision copy = .ok deployRev ∧
      ∃ sets ∈ seen.listed, previousTemplate deployRev sets = .error error

/-- The template of an object that has been made from a copy. -/
def Derives (setting : Setting) (seen : Seen) (copy : Deployment) (template : PodTemplate) :
    Option Effect → Prop
  | none => template = copy.template
  | some .apply => ∃ cpuLimit, setting.cpuLimit = some cpuLimit ∧
      template = copy.template.limitCpu cpuLimit
  | some .rollback => ∃ deployRev, deploymentRevision copy = .ok deployRev ∧
      ∃ sets ∈ seen.listed, previousTemplate deployRev sets = .ok template

structure Derived (setting : Setting) (seen : Seen) (copy obj : Deployment)
    (effect : Option Effect) : Prop where
  name : obj.name = copy.name
  version : obj.resourceVersion = copy.resourceVersion
  template : Derives setting seen copy obj.template effect

def restoringGuard (setting : Setting) : Command → Seen → Prop
  | .listReplicaSets app, seen => ∃ copy ∈ seen.read, copy.name = app
  | .updateResource _ obj effect, seen => ∃ copy ∈ seen.read, Derived setting seen copy obj effect
  | .report _ outcome, seen => ∀ error, outcome = .error error → error.ofRollback = true →
      RollbackFails seen error
  | .write, _ => False
  | _, _ => True

def bystanderGuard : Command → Seen → Prop
  | .write, _ => True
  | _, _ => False

def guardOf (setting : Setting) (party : Party) : Command → Seen → Prop :=
  if party = .operator 0 then restoringGuard setting else bystanderGuard

def reliesOf (party : Party) (cluster : Cluster) (seen : Seen) : Prop :=
  party = .operator 0 → UpToDate cluster seen

section Store

variable {setting : Setting} {cluster cluster' : Cluster} {obj : Deployment} {seen : Seen}
variable {template : PodTemplate}

/-- The change stays in force when the template stays. -/
theorem Applied.store_of_eq {event : PodTemplate → PodTemplate → Event}
    (happlied : Applied setting cluster template) (hname : obj.name = cluster.deployment.name)
    (hstore : cluster.store obj event = some cluster')
    (hsame : obj.template = cluster.deployment.template) : Applied setting cluster' template := by
  obtain ⟨hrevision, hsets⟩ := Cluster.of_store_of_eq hstore hsame
  have htemplate : cluster'.deployment.template = cluster.deployment.template :=
    (Cluster.template_of_store hstore).trans hsame
  have hown : cluster'.own = cluster.own := by
    rw [Cluster.own, hsets, Cluster.name_of_store hstore, hname, Cluster.own]
  refine ⟨?_, ?_⟩
  · rw [htemplate]
    exact happlied.limited
  · rw [htemplate, hown, hrevision]
    exact happlied.previous

/-- Applying the change puts it in force. -/
theorem Applied.of_apply {event : PodTemplate → PodTemplate → Event} {cpuLimit : Quantity}
    (hcluster : cluster.RevisionHistory) (hname : obj.name = cluster.deployment.name)
    (hstore : cluster.store obj event = some cluster') (hsetting : setting.cpuLimit = some cpuLimit)
    (htemplate : obj.template = cluster.deployment.template.limitCpu cpuLimit) :
    Applied setting cluster' cluster.deployment.template := by
  refine ⟨⟨cpuLimit, hsetting, (Cluster.template_of_store hstore).trans htemplate⟩, fun hne => ?_⟩
  rw [Cluster.template_of_store hstore] at hne
  obtain ⟨current, hcurrent, hcurrent_template, hcurrent_revision⟩ := hcluster.current
  have hkept : current ∈ cluster'.own := by
    refine (Cluster.own_of_store hstore hname hne).mpr (.inl ⟨hcurrent, ?_⟩)
    rw [hcurrent_template]
    exact hne.symm
  obtain ⟨hrevision, -, -⟩ := Cluster.of_store_of_ne hstore hne
  exact ⟨current, hkept, hcurrent_template, cluster.revision, hrevision.symm, hcurrent_revision⟩

/-- An event that leaves what is in force. -/
theorem Restoring.record {event : Event} (hcluster : Restoring setting cluster)
    (hhistory : cluster'.history = cluster.history ++ [event])
    (hrevisions : cluster'.RevisionHistory)
    (happlied : ∀ template, event.track (appliedTo cluster.history) = some template →
      Applied setting cluster' template)
    (hrestores : Restores setting cluster.history event) : Restoring setting cluster' := by
  refine ⟨hrevisions, fun template htemplate => ?_, ?_⟩
  · rw [hhistory, appliedTo_concat] at htemplate
    exact happlied template htemplate
  · rw [hhistory]
    exact hcluster.restores.concat hrestores

/-- An accepted update keeps to what its effect promises. -/
theorem Restoring.update {operator : ℕ} {effect : Option Effect}
    (hcluster : Restoring setting cluster) (hseen : UpToDate cluster seen)
    (hguard : ∃ copy ∈ seen.read, Derived setting seen copy obj effect)
    (hversion : obj.resourceVersion = cluster.deployment.resourceVersion)
    (hstore : cluster.store obj (.stored operator effect) = some cluster') :
    Restoring setting cluster' := by
  obtain ⟨copy, hcopy, hderived⟩ := hguard
  have hsame : copy = cluster.deployment :=
    (hseen.copied copy hcopy).current (hderived.version.symm.trans hversion)
  rw [hsame] at hderived
  have hrevisions := hcluster.revisions.store hderived.name hstore
  have htemplate := hderived.template
  refine hcluster.record (Cluster.history_of_store hstore) hrevisions (fun template htrack => ?_)
    fun template result happlied hresult => ?_
  · cases effect with
    | none =>
        rw [Event.track, if_pos htemplate.symm] at htrack
        exact (hcluster.applied template htrack).store_of_eq hderived.name hstore htemplate
    | some effect =>
        cases effect with
        | apply =>
            obtain ⟨cpuLimit, hsetting, hlimited⟩ := htemplate
            cases htrack
            exact .of_apply hcluster.revisions hderived.name hstore hsetting hlimited
        | rollback => cases htrack
  · cases effect with
    | none => cases hresult
    | some effect =>
        cases effect with
        | apply => cases hresult
        | rollback =>
            obtain ⟨deployRev, hdeployRev, sets, hsets, hfound⟩ := htemplate
            rw [deploymentRevision_eq hcluster.revisions.bound hcluster.revisions.annotation]
              at hdeployRev
            cases hdeployRev
            cases hresult
            have hlisted := hseen.listed sets hsets (by rw [happlied]; exact Option.some_ne_none _)
            rw [Option.some.injEq]
            exact (hcluster.previousTemplate happlied hlisted).1 _ hfound

theorem Restoring.report {operator : ℕ} {outcome : Except OperatorError Unit}
    (hcluster : Restoring setting cluster) (hseen : UpToDate cluster seen)
    (hguard : ∀ error, outcome = .error error → error.ofRollback = true →
      RollbackFails seen error) : Restoring setting (cluster.report operator outcome) := by
  refine hcluster.record rfl ⟨hcluster.revisions.annotation, hcluster.revisions.bound,
    hcluster.revisions.numbered, hcluster.revisions.templates, hcluster.revisions.revisions,
    hcluster.revisions.current⟩ (fun template htrack => ?_)
    fun template result happlied hresult => ?_
  · obtain ⟨hlimited, hprevious⟩ := hcluster.applied template htrack
    exact ⟨hlimited, hprevious⟩
  · cases outcome with
    | ok value => cases hresult
    | error error =>
        rw [Event.rolledBack] at hresult
        split_ifs at hresult with hrollback
        cases hresult
        have hforce : appliedTo cluster.history ≠ none := by
          rw [happlied]
          exact Option.some_ne_none _
        refine iff_of_false (fun h => by cases h) ?_
        obtain ⟨copy, hcopy, hfails⟩ := hguard error rfl hrollback
        have hdeployRev :=
          deploymentRevision_eq hcluster.revisions.bound (hseen.revision copy hcopy hforce)
        rw [hdeployRev] at hfails
        rcases hfails with hfails | ⟨deployRev, hrev, sets, hsets, herror⟩
        · cases hfails
        · cases hrev
          exact (hcluster.previousTemplate happlied (hseen.listed sets hsets hforce)).2 error herror

/-- Others may store any template. -/
theorem Restoring.write (hcluster : Restoring setting cluster)
    (hname : obj.name = cluster.deployment.name)
    (hstore : cluster.store obj .written = some cluster') : Restoring setting cluster' := by
  refine hcluster.record (Cluster.history_of_store hstore)
    (hcluster.revisions.store hname hstore) (fun template htrack => ?_)
    fun template result _ hresult => (by cases hresult)
  rw [Event.track] at htrack
  split_ifs at htrack with hsame
  exact (hcluster.applied template htrack).store_of_eq hname hstore hsame.symm

theorem UpToDate.write (hseen : UpToDate cluster seen) (hname : obj.name = cluster.deployment.name)
    (hstore : cluster.store obj .written = some cluster') : UpToDate cluster' seen := by
  have hforce : appliedTo cluster'.history ≠ none →
      cluster.deployment.template = obj.template ∧ appliedTo cluster.history ≠ none := by
    rw [Cluster.history_of_store hstore, appliedTo_concat, Event.track]
    split_ifs with hsame
    · exact fun h => ⟨hsame, h⟩
    · exact fun h => absurd rfl h
  refine ⟨fun copy hcopy => (hseen.copied copy hcopy).store hstore, fun copy hcopy => ?_,
    fun copy hcopy happlied => ?_, fun sets hsets happlied => ?_⟩
  · rw [Cluster.name_of_store hstore, hname]
    exact hseen.name copy hcopy
  all_goals
    obtain ⟨hsame, hbefore⟩ := hforce happlied
    obtain ⟨hrevision, hkept⟩ := Cluster.of_store_of_eq hstore hsame.symm
  · rw [hrevision]
    exact hseen.revision copy hcopy hbefore
  · have hown : cluster'.own = cluster.own := by
      rw [Cluster.own, hkept, Cluster.name_of_store hstore, hname, Cluster.own]
    rw [hown]
    exact hseen.listed sets hsets hbefore

theorem UpToDate.report {operator : ℕ} {outcome : Except OperatorError Unit}
    (hseen : UpToDate cluster seen) : UpToDate (cluster.report operator outcome) seen := by
  have happlied : appliedTo (cluster.report operator outcome).history =
      appliedTo cluster.history := appliedTo_concat _ _
  refine ⟨hseen.copied, hseen.name, fun copy hcopy hforce => ?_, fun sets hsets hforce => ?_⟩
  all_goals rw [happlied] at hforce
  · exact hseen.revision copy hcopy hforce
  · exact hseen.listed sets hsets hforce

end Store

/-- No command fails the way rolling back does. -/
def failsAsCommand {σ : Type} : Condition OperatorError Command.Answer σ :=
  fun _ _ answer => ∀ error, answer = .error error → error.ofRollback = false

theorem failsAsCommand_of_step {σ : Type} {command : Command} {cluster cluster' : Cluster}
    {answer : Except OperatorError command.Answer} {start : σ}
    (hstep : clusterStep command cluster answer cluster') :
    failsAsCommand command start answer := by
  intro error herror
  cases does_of_clusterStep hstep <;> cases herror
  rfl

theorem guarantees_restoring (setting : Setting) :
    Guarantees clusterStep noteSeen failsAsCommand (Restoring setting) reliesOf
      (guardOf setting) := by
  intro party command cluster seen answer cluster' hcluster hrelies hguard _ hstep
  by_cases hparty : party = .operator 0
  · have hseen : UpToDate cluster seen := hrelies hparty
    rw [guardOf, if_pos hparty] at hguard
    have hothers : ∀ other ≠ party, ∀ seen,
        reliesOf other cluster seen → reliesOf other cluster' seen :=
      fun other hother _ _ h => absurd (h.trans hparty.symm) hother
    cases does_of_clusterStep hstep with
    | fails failure =>
        refine ⟨hcluster, fun _ => ?_, hothers⟩
        cases command <;> exact hseen
    | ctxErr => exact ⟨hcluster, fun _ => hseen, hothers⟩
    | getFlag enabled => exact ⟨hcluster, fun _ => hseen, hothers⟩
    | getResource =>
        refine ⟨hcluster, fun _ => ⟨?_, ?_, ?_, ?_⟩, hothers⟩
        · rintro copy ⟨⟩
          exact cluster.deployment.copied_self
        · rintro copy ⟨⟩
          rfl
        · rintro copy ⟨⟩ -
          exact hcluster.revisions.annotation
        · rintro sets ⟨⟩
    | listReplicaSets hsets =>
        refine ⟨hcluster, fun _ => ⟨hseen.copied, hseen.name, hseen.revision, ?_⟩, hothers⟩
        rintro sets ⟨⟩ -
        obtain ⟨copy, hcopy, rfl⟩ := hguard
        rw [hseen.name copy hcopy] at hsets
        exact hsets
    | updateResource hversion hstore =>
        refine ⟨hcluster.update hseen hguard hversion hstore, fun _ => ⟨?_, ?_, ?_, ?_⟩, hothers⟩
        all_goals rintro _ ⟨⟩
    | report =>
        exact ⟨hcluster.report hseen hguard, fun _ => hseen.report, hothers⟩
    | write => cases hguard
  · rw [guardOf, if_neg hparty] at hguard
    cases does_of_clusterStep hstep with
    | fails failure => exact ⟨hcluster, fun h => absurd h hparty, fun _ _ _ h => h⟩
    | write hname hversion hlookup hstore =>
        exact ⟨hcluster.write hname hstore, fun h => absurd h hparty,
          fun other _ _ h hoperator => (h hoperator).write hname hstore⟩
    | _ => cases hguard

/-! ## What the operator keeps to -/

section Programs

variable {setting : Setting} {seen : Seen} {flag : Flag}

/-- A program of the operator. -/
abbrev Follows {α : Type} (setting : Setting) (task : Task α)
    (post : Except OperatorError α → Seen → Prop) (seen : Seen) : Prop :=
  wp (remembers failsAsCommand noteSeen) (restoringGuard setting) task post seen

/-- An error of rolling back is the error of rolling back what has been seen. -/
def Excused {α : Type} : Except OperatorError α → Seen → Prop :=
  fun outcome final => ∀ error, outcome = .error error → error.ofRollback = true →
    RollbackFails final error

theorem excused_ok {α : Type} (value : α) : Excused (.ok value) seen := by
  intro error h
  cases h

theorem excused_of_failsAsCommand {α : Type} {error : OperatorError}
    (hfails : error.ofRollback = false) : Excused (.error error : Except OperatorError α) seen := by
  intro other h hrollback
  cases h
  rw [hfails] at hrollback
  cases hrollback

/-- A command that is not noted. -/
theorem follows_perform {command : Command}
    {post : Except OperatorError command.Answer → Seen → Prop}
    (hguard : restoringGuard setting command seen)
    (hok : ∀ value, post (.ok value) (noteSeen seen command (.ok value)))
    (herror : ∀ error, error.ofRollback = false →
      post (.error error) (noteSeen seen command (.error error))) :
    Follows setting (perform command) post seen := by
  rw [perform, Follows, wp_remembers_perform]
  exact ⟨hguard, fun value _ => hok value, fun error hfails => herror error (hfails error rfl)⟩

/-- The annotation of the flag is not that of the revision. -/
theorem deploymentRevision_set (copy : Deployment) (value : AnnotationValue)
    (hflag : flag.id = highCpuUsage) :
    deploymentRevision (value |> setFlagAnnotation flag copy) = deploymentRevision copy := by
  have hne : revisionAnnotation ≠ getAnnotationName flag := by
    rw [getAnnotationName, hflag]
    decide
  rw [deploymentRevision, getAllAnnotations_set, Finmap.lookup_insert_of_ne _ hne,
    deploymentRevision]

/-- Rolling back an object that differs from the copy by its flag. -/
theorem follows_rollbackChange {copy obj : Deployment}
    {post : Except OperatorError Deployment → Seen → Prop} (hread : seen.read = some copy)
    (hname : obj.name = copy.name) (hrevision : deploymentRevision obj = deploymentRevision copy)
    (hok : ∀ template listed, Derives setting ⟨some copy, listed⟩ copy template (some .rollback) →
      post (.ok { obj with template }) ⟨some copy, listed⟩)
    (herror : ∀ error final, Excused (.error error : Except OperatorError Deployment) final →
      post (.error error) final) :
    Follows setting (BrokerController.RollbackChange obj) post seen := by
  obtain ⟨read, listed⟩ := seen
  cases hread
  rw [BrokerController.RollbackChange, RollbackDeployment, Follows, wp_bind, hrevision]
  cases hdeployRev : deploymentRevision copy with
  | error error =>
      refine herror error _ fun other hsame _ => ?_
      cases hsame
      exact ⟨copy, rfl, .inl hdeployRev⟩
  | ok deployRev =>
      change Follows setting (perform (.listReplicaSets obj.name) >>= _) post _
      rw [Follows, wp_bind]
      refine follows_perform ⟨copy, rfl, hname.symm⟩ (fun items => ?_) fun error hfails =>
        herror error _ (excused_of_failsAsCommand hfails)
      rw [andThen_ok, wp_bind]
      cases hfound : previousTemplate deployRev items with
      | error error =>
          refine herror error _ fun other hsame _ => ?_
          cases hsame
          exact ⟨copy, rfl, .inr ⟨deployRev, hdeployRev, items, rfl, hfound⟩⟩
      | ok template => exact hok template _ ⟨deployRev, hdeployRev, items, rfl, hfound⟩

theorem follows_change {copy : Deployment} (hflag : flag.id = highCpuUsage)
    {post : Except OperatorError (Deployment × Option Effect) → Seen → Prop}
    (hread : seen.read = some copy)
    (hok : ∀ obj effect listed, Derived setting ⟨some copy, listed⟩ copy obj effect →
      post (.ok (obj, effect)) ⟨some copy, listed⟩)
    (herror : ∀ error final, Excused (.error error : Except OperatorError Unit) final →
      post (.error error) final) :
    Follows setting (change setting flag copy) post seen := by
  have hdecided := decided_getObjectState flag copy
  rw [change]
  generalize getObjectState flag copy = decided at hdecided ⊢
  obtain ⟨state, obj⟩ := decided
  have hname : obj.name = copy.name :=
    hdecided.unchanged.elim (congrArg _) (congrArg Deployment.name)
  have hversion : obj.resourceVersion = copy.resourceVersion :=
    hdecided.unchanged.elim (congrArg _) (congrArg Deployment.resourceVersion)
  have htemplate : obj.template = copy.template :=
    hdecided.unchanged.elim (congrArg _) (congrArg Deployment.template)
  have hrevision : deploymentRevision obj = deploymentRevision copy := by
    rcases hdecided.unchanged with hsame | hset
    · exact congrArg deploymentRevision hsame
    · exact (congrArg deploymentRevision hset).trans (deploymentRevision_set copy .off hflag)
  cases state with
  | synchronized =>
      obtain ⟨read, listed⟩ := seen
      cases hread
      exact hok obj none listed ⟨hname, hversion, htemplate⟩
  | shouldApply =>
      obtain ⟨read, listed⟩ := seen
      cases hread
      change Follows setting (BrokerController.ApplyChange setting _ >>= _) post _
      rw [Follows, wp_bind, BrokerController.ApplyChange]
      cases hsetting : setting.cpuLimit with
      | none => exact herror .quantity _ (excused_of_failsAsCommand rfl)
      | some cpuLimit =>
          refine hok _ (some .apply) listed ⟨hname, hversion, cpuLimit, hsetting, ?_⟩
          exact congrArg (PodTemplate.limitCpu · cpuLimit) htemplate
  | shouldRollback =>
      change Follows setting (BrokerController.RollbackChange _ >>= _) post _
      rw [Follows, wp_bind]
      refine follows_rollbackChange hread hname
        ((deploymentRevision_set obj .off hflag).trans hrevision) (fun template listed hfound => ?_)
        fun error final hexcused => herror error final fun other hsame => ?_
      · exact hok _ (some .rollback) listed ⟨hname, hversion, hfound⟩
      · cases hsame
        exact hexcused error rfl

theorem follows_attempt (operator : ℕ) (hflag : flag.id = highCpuUsage) :
    Follows setting (attempt setting operator flag) Excused seen := by
  rw [attempt, Follows, wp_bind]
  refine follows_perform trivial (fun value => ?_) fun error hfails =>
    excused_of_failsAsCommand hfails
  rw [andThen_ok, wp_bind]
  refine follows_perform trivial (fun copy => ?_) fun error hfails =>
    excused_of_failsAsCommand hfails
  rw [andThen_ok, wp_bind]
  refine follows_change hflag rfl (fun obj effect listed hderived => ?_) fun error final h => h
  change Follows setting (perform (.updateResource operator obj effect)) Excused _
  exact follows_perform ⟨copy, rfl, hderived⟩ (fun value => excused_ok value) fun error hfails =>
    excused_of_failsAsCommand hfails

theorem follows_retryOnConflict (steps : ℕ) {task : Task Unit}
    (htask : ∀ seen, Follows setting task Excused seen) :
    Follows setting (RetryOnConflict steps task) Excused seen := by
  induction steps generalizing seen with
  | zero => exact excused_ok ()
  | succ steps ih =>
      rw [RetryOnConflict, Follows, wp_tryCatch]
      refine wp_mono (fun outcome final hfinal => ?_) (htask seen)
      cases outcome with
      | ok value => exact hfinal
      | error error =>
          rw [orElse_error]
          split_ifs with hagain
          · exact ih
          · exact hfinal

theorem follows_run (operator rounds : ℕ) :
    Follows setting (Run setting operator rounds) (fun _ _ => True) seen := by
  induction rounds generalizing seen with
  | zero => trivial
  | succ rounds ih =>
      have hupdate : Follows setting (updateState setting operator) Excused seen := by
        rw [updateState, Follows, wp_bind]
        refine follows_perform trivial (fun enabled => ?_) fun error hfails =>
          excused_of_failsAsCommand hfails
        exact follows_retryOnConflict setting.DefaultRetry fun _ => follows_attempt operator rfl
      rw [Run, Follows, wp_bind, wp_tryCatch, wp_bind]
      refine wp_mono (fun outcome final hfinal => ?_) hupdate
      cases outcome with
      | ok value =>
          rw [andThen_ok, wp_pure, orElse_ok, andThen_ok, wp_bind]
          exact follows_perform (excused_ok ()) (fun _ => ih) fun _ _ => trivial
      | error error =>
          rw [andThen_error, orElse_error, wp_pure, andThen_ok, wp_bind]
          exact follows_perform hfinal (fun _ => ih) fun _ _ => trivial

theorem bystander_writeRepeatedly (writes : ℕ) :
    wp (remembers failsAsCommand noteSeen) bystanderGuard (writeRepeatedly writes)
      (fun _ _ => True) seen := by
  have hissues : (writeRepeatedly writes).Issues
      fun command => ∀ seen, bystanderGuard command seen :=
    issues_writeRepeatedly (fun _ => trivial) writes
  exact Prog.wp_of_issues hissues fun _ seen hguard => hguard seen

end Programs

theorem upheld_restoring {setting : Setting} (rounds : ℕ) (writes : ℕ → ℕ) {deployment : Deployment}
    {revision : ℕ} {replicaSets : List ReplicaSet}
    (hrevisions : (Cluster.start deployment revision replicaSets).RevisionHistory) :
    Upheld failsAsCommand noteSeen (Restoring setting) reliesOf (guardOf setting)
      ((Workload.single setting rounds writes).start ⟨none, none⟩
        (.start deployment revision replicaSets)) := by
  refine ⟨⟨hrevisions, fun template h => ?_, throughout_nil⟩, fun party _ => ⟨?_, ?_, ?_, ?_⟩,
    fun party => ?_⟩
  · cases h
  · rintro copy ⟨⟩
  · rintro copy ⟨⟩
  · rintro copy ⟨⟩
  · rintro sets ⟨⟩
  · rw [guardOf]
    cases party with
    | writer n => exact bystander_writeRepeatedly (writes n)
    | operator n =>
        by_cases hn : n = 0
        · rw [if_pos (congrArg Party.operator hn)]
          exact follows_run n _
        · have hparty : Party.operator n ≠ .operator 0 := fun h => hn (Party.operator.inj h)
          rw [if_neg hparty]
          change wp _ _ (Run setting n (if n = 0 then rounds else 0)) _ _
          rw [if_neg hn]
          trivial

/-- When rolling back restores the deployment.  For every deployment and every revision
history, in every run of the operator and of other writers: when rolling back comes to an
end while nobody has changed the template since the change was applied, it has gone back
to the template before exactly when some container did not have the limit already. -/
theorem rollback_restores {setting : Setting} {rounds : ℕ} {writes : ℕ → ℕ}
    {deployment : Deployment} {revision : ℕ} {replicaSets : List ReplicaSet} {system : System Unit}
    (hrevisions : (Cluster.start deployment revision replicaSets).RevisionHistory)
    (hinterleaves : Interleaves ((Workload.single setting rounds writes).start ()
      (.start deployment revision replicaSets)) system)
    {operator : ℕ} {template applied : PodTemplate} {result : Option PodTemplate} {last : Event}
    {before between after : List Event}
    (hhistory : system.shared.history = before ++
      .stored operator (some .apply) template applied :: (between ++ last :: after))
    (hkeeps : ∀ event ∈ between, event.Keeps) (hlast : last.rolledBack = some result) :
    result = some template ↔
      ∃ cpuLimit, setting.cpuLimit = some cpuLimit ∧ ¬ template.Limited cpuLimit := by
  obtain ⟨noted, rfl, hreaches⟩ := exists_noted noteSeen failsAsCommand
    (fun _ _ _ _ _ => failsAsCommand_of_step) ((Workload.single setting rounds writes).start
      ⟨none, none⟩ (.start deployment revision replicaSets)) hinterleaves
  have hupheld := (upheld_restoring rounds writes hrevisions).reaches
    (fun _ _ _ _ hallowed => hallowed) (guarantees_restoring setting) hreaches
  have hsplit : noted.shared.history =
      (before ++ [.stored operator (some .apply) template applied] ++ between) ++
        last :: after := by
    rw [List.append_assoc, List.append_assoc]
    exact hhistory
  refine hupheld.shared.restores _ last after hsplit template result ?_ hlast
  rw [appliedTo_of_keeps hkeeps, appliedTo_concat]
  rfl

/-! ## Cycles -/

namespace Sample

/-- A deployment that has been at this template since its last revision, and at another one
before. -/
def secondRevision (cpuLimit : Option Quantity) : Cluster :=
  .start (deployment (template cpuLimit) 2) 2
    [replicaSet ⟨[], "before"⟩ 1, replicaSet (template cpuLimit) 2]

theorem revisionHistory_secondRevision (cpuLimit : Option Quantity) :
    (secondRevision cpuLimit).RevisionHistory := by
  have hne : (⟨[], "before"⟩ : PodTemplate) ≠ template cpuLimit := fun h =>
    absurd (congrArg PodTemplate.containers h).symm (List.cons_ne_nil _ _)
  have hrevision : some (toString 1) ≠ some (toString 2) := by decide
  have hown : ∀ set, set ∈ (secondRevision cpuLimit).own ↔
      set = replicaSet ⟨[], "before"⟩ 1 ∨ set = replicaSet (template cpuLimit) 2 := fun set => by
    change set ∈ [replicaSet ⟨[], "before"⟩ 1, replicaSet (template cpuLimit) 2] ↔ _
    rw [List.mem_cons, List.mem_singleton]
  refine ⟨Finmap.lookup_insert _, (by norm_num : 2 < 2 ^ 63), ?_, ?_, ?_, ?_⟩
  · intro set hset
    rcases (hown set).mp hset with rfl | rfl
    · exact ⟨1, Nat.le_succ 1, rfl⟩
    · exact ⟨2, le_refl _, rfl⟩
  · intro set hset other hother heq
    rcases (hown set).mp hset with rfl | rfl <;> rcases (hown other).mp hother with rfl | rfl
    · rfl
    · exact absurd heq hne
    · exact absurd heq.symm hne
    · rfl
  · intro set hset other hother heq
    rcases (hown set).mp hset with rfl | rfl <;> rcases (hown other).mp hother with rfl | rfl
    · rfl
    · exact absurd heq hrevision
    · exact absurd heq.symm hrevision
    · rfl
  · exact ⟨replicaSet (template cpuLimit) 2, (hown _).mpr (.inr rfl), rfl, rfl⟩

/-- The flag goes on and off. -/
def cycle (listed : List ReplicaSet) : List (Party × Choice) :=
  [(.operator 0, .flag true), (.operator 0, .goes), (.operator 0, .goes), (.operator 0, .goes),
    (.operator 0, .goes), (.operator 0, .flag false), (.operator 0, .goes), (.operator 0, .goes),
    (.operator 0, .inOrder listed), (.operator 0, .goes), (.operator 0, .goes)]

/-- What is recorded of a cycle. -/
def cycleEvents (cpuLimit : Option Quantity) (restored : PodTemplate) : List Event :=
  [.stored 0 (some .apply) (template cpuLimit) (template (some (3 / 10))), .reported 0 (.ok ()),
    .stored 0 (some .rollback) (template (some (3 / 10))) restored, .reported 0 (.ok ())]

theorem not_limited : ¬ (template none).Limited (3 / 10) := by
  intro hlimited
  cases hlimited _ List.mem_cons_self

end Sample

/-- The deployment's limit has the value already: going on changes nothing, and going off
goes back to the template of the revision before. -/
theorem rollback_does_not_restore :
    (Sample.secondRevision (some (3 / 10))).RevisionHistory ∧
    ∃ system : System Unit,
      Interleaves ((Workload.single Sample.setting 2 fun _ => 0).start ()
        (Sample.secondRevision (some (3 / 10)))) system ∧
      system.shared.history = Sample.cycleEvents (some (3 / 10)) ⟨[], "before"⟩ ∧
      (⟨[], "before"⟩ : PodTemplate) ≠ Sample.template (some (3 / 10)) := by
  obtain ⟨system, hcheck, hinterleaves⟩ := exists_reachesWhen clusterStep_of_move
    (fun _ _ _ => ()) (fun _ _ _ => True)
    ((Workload.single Sample.setting 2 fun _ => 0).start () (Sample.secondRevision (some (3 / 10))))
    (Sample.cycle [Sample.replicaSet ⟨[], "before"⟩ 1,
      Sample.replicaSet (Sample.template (some (3 / 10))) 2])
    (fun system =>
      decide (system.shared.history = Sample.cycleEvents (some (3 / 10)) ⟨[], "before"⟩))
    (by decide +kernel)
  exact ⟨Sample.revisionHistory_secondRevision _, system, hinterleaves, of_decide_eq_true hcheck,
    by decide⟩

/-- The deployment has had no limit: after two cycles it is as it was. -/
theorem rollback_restores_twice :
    ∃ (system : System Unit) (restored : PodTemplate),
      system.shared.history = Sample.cycleEvents none restored ++
        Sample.cycleEvents none restored ∧ restored = Sample.template none := by
  obtain ⟨system, hcheck, hinterleaves⟩ := exists_reachesWhen clusterStep_of_move
    (fun _ _ _ => ()) (fun _ _ _ => True)
    ((Workload.single Sample.setting 4 fun _ => 0).start () (Sample.secondRevision none))
    (Sample.cycle [Sample.replicaSet ⟨[], "before"⟩ 1, Sample.replicaSet (Sample.template none) 2,
        Sample.replicaSet (Sample.template (some (3 / 10))) 3] ++
      Sample.cycle [Sample.replicaSet ⟨[], "before"⟩ 1, Sample.replicaSet (Sample.template none) 4,
        Sample.replicaSet (Sample.template (some (3 / 10))) 5])
    (fun system => decide (system.shared.history =
      Sample.cycleEvents none (Sample.template none) ++
        Sample.cycleEvents none (Sample.template none)))
    (by decide +kernel)
  have hhistory := of_decide_eq_true hcheck
  have hsplit : system.shared.history = Sample.cycleEvents none (Sample.template none) ++
      .stored 0 (some .apply) (Sample.template none) (Sample.template (some (3 / 10))) ::
        ([.reported 0 (.ok ())] ++
          .stored 0 (some .rollback) (Sample.template (some (3 / 10))) (Sample.template none) ::
            [.reported 0 (.ok ())]) := hhistory
  have hkeeps : ∀ event ∈ [Event.reported 0 (.ok ())], event.Keeps := by
    intro event hevent
    rw [List.mem_singleton.mp hevent]
    trivial
  have hrestored := (rollback_restores (Sample.revisionHistory_secondRevision none) hinterleaves
    hsplit hkeeps rfl).mpr ⟨3 / 10, rfl, Sample.not_limited⟩
  exact ⟨system, _, hhistory, Option.some.inj hrestored⟩

end EasyTrade.ProblemOperator

import EasyTrade.Core.RelyGuarantee
import EasyTrade.ProblemOperator.Objects

/-!
# The cluster

The API server stores a deployment when it is sent with its current resource version.
Whenever the pod template changes, the deployment gets the next revision, which a replica
set with this template carries from then on.  Everything that has been stored and
how every run of the operator has ended is recorded; nobody reads the record.
-/

namespace EasyTrade.ProblemOperator

open EasyTrade.Program EasyTrade.Interleaving

/-- Why a request is not answered as it should be. -/
inductive Failure
  | conflict
  | contextDone
  | unavailable
  deriving DecidableEq, Repr

inductive OperatorError
  | failed (failure : Failure)
  | quantity
  | revisionAnnotationNotFound
  | revisionNotANumber
  | noPreviousReplicaSet
  deriving DecidableEq, Repr

/-- `errors.IsConflict`. -/
def OperatorError.isConflict (error : OperatorError) : Bool :=
  decide (error = failed .conflict)

/-- What has been done to a copy of the object. -/
inductive Effect
  | apply
  | rollback
  deriving DecidableEq, Repr

inductive Event
  /-- The update of an operator is accepted, with what it has done to its copy. -/
  | stored (operator : ℕ) (effect : Option Effect) (before after : PodTemplate)
  /-- Somebody else's update is accepted. -/
  | written (before after : PodTemplate)
  /-- A run of an operator ends. -/
  | reported (operator : ℕ) (outcome : Except OperatorError Unit)
  deriving DecidableEq

structure Cluster where
  deployment : Deployment
  /-- The revision of the deployment. -/
  revision : ℕ
  replicaSets : List ReplicaSet
  history : List Event

def highCpuUsage : String := "high_cpu_usage"

namespace Cluster

/-- A cluster before anything that is recorded. -/
def start (deployment : Deployment) (revision : ℕ) (replicaSets : List ReplicaSet) : Cluster :=
  ⟨deployment, revision, replicaSets, []⟩

variable (cluster : Cluster)

/-- The replica set with the template that is rolled out gets the new revision. -/
def renumbered (template : PodTemplate) (revision : ℕ) : ReplicaSet → ReplicaSet := fun set =>
  if set.app = cluster.deployment.name ∧ set.template = template then
    { set with revision := some (toString revision) }
  else set

/-- The replica sets once a template has been rolled out: the one that has it already is
used again. -/
def rolledOut (template : PodTemplate) (revision : ℕ) : List ReplicaSet :=
  if cluster.replicaSets.any fun set =>
      set.app = cluster.deployment.name ∧ set.template = template then
    cluster.replicaSets.map (cluster.renumbered template revision)
  else
    cluster.replicaSets ++ [⟨cluster.deployment.name, some (toString revision), template⟩]

/-- What becomes of an accepted object.  Its revision annotation is not its writer's to
change, and an object that is stored as it was keeps its version. -/
def accepted (obj : Deployment) (revision : ℕ) : Deployment :=
  let stored : Deployment :=
    { obj with
      annotations := some ((getAllAnnotations obj).insert revisionAnnotation (toString revision)) }
  if stored = cluster.deployment then stored
  else { stored with resourceVersion := cluster.deployment.resourceVersion + 1 }

/-- The deployment is stored.  `none`: there are no more revisions. -/
def store (obj : Deployment) (event : PodTemplate → PodTemplate → Event) : Option Cluster :=
  let history := cluster.history ++ [event cluster.deployment.template obj.template]
  if obj.template = cluster.deployment.template then
    some { cluster with deployment := cluster.accepted obj cluster.revision, history }
  else if cluster.revision + 1 < 2 ^ 63 then
    some
      { deployment := cluster.accepted obj (cluster.revision + 1)
        revision := cluster.revision + 1
        replicaSets := cluster.rolledOut obj.template (cluster.revision + 1)
        history }
  else none

def report (operator : ℕ) (outcome : Except OperatorError Unit) : Cluster :=
  { cluster with history := cluster.history ++ [.reported operator outcome] }

end Cluster

/-! ## Commands -/

inductive Command
  | ctxErr
  /-- Whether the flag is enabled. -/
  | getFlag (flagName : String)
  | getResource
  /-- `List` with the label selector `app=...`. -/
  | listReplicaSets (app : String)
  /-- `Update`, with what has been done to the object. -/
  | updateResource (operator : ℕ) (obj : Deployment) (effect : Option Effect)
  /-- What is logged at the end of a run. -/
  | report (operator : ℕ) (outcome : Except OperatorError Unit)
  /-- Somebody else changes the deployment. -/
  | write

abbrev Command.Answer : Command → Type
  | ctxErr | updateResource .. | report .. | write => Unit
  | getFlag _ => Bool
  | getResource => Deployment
  | listReplicaSets _ => List ReplicaSet

/-- How a command turns out. -/
inductive Choice
  | fails (failure : Failure)
  | goes
  | flag (enabled : Bool)
  | inOrder (sets : List ReplicaSet)
  | writes (obj : Deployment)

/-- What a command answers and does.  Nobody but the operators touches the annotation of the
flag.  `none`: the command cannot turn out this way. -/
def Command.move : (command : Command) → Choice → Cluster →
    Option (Except OperatorError command.Answer × Cluster)
  | report operator outcome, _, cluster => some (.ok (), cluster.report operator outcome)
  | ctxErr, .fails failure, cluster => some (.error (.failed failure), cluster)
  | getFlag _, .fails failure, cluster => some (.error (.failed failure), cluster)
  | getResource, .fails failure, cluster => some (.error (.failed failure), cluster)
  | listReplicaSets _, .fails failure, cluster => some (.error (.failed failure), cluster)
  | updateResource .., .fails failure, cluster => some (.error (.failed failure), cluster)
  | write, .fails failure, cluster => some (.error (.failed failure), cluster)
  | ctxErr, .goes, cluster => some (.ok (), cluster)
  | getFlag _, .flag enabled, cluster => some (.ok enabled, cluster)
  | getResource, .goes, cluster => some (.ok cluster.deployment, cluster)
  | listReplicaSets app, .inOrder sets, cluster =>
      if sets.Perm (cluster.replicaSets.filter (·.app = app)) then some (.ok sets, cluster)
      else none
  | updateResource operator obj effect, .goes, cluster =>
      if obj.resourceVersion = cluster.deployment.resourceVersion then
        (cluster.store obj (.stored operator effect)).map fun cluster => (.ok (), cluster)
      else some (.error (.failed .conflict), cluster)
  | write, .writes obj, cluster =>
      if obj.name = cluster.deployment.name ∧
          obj.resourceVersion = cluster.deployment.resourceVersion ∧
          (getAllAnnotations obj).lookup (annotationPrefix ++ highCpuUsage) =
            (getAllAnnotations cluster.deployment).lookup (annotationPrefix ++ highCpuUsage) then
        (cluster.store obj .written).map fun cluster => (.ok (), cluster)
      else none
  | _, _, _ => none

/-- Everything a command may do. -/
def clusterStep : Semantics OperatorError Command.Answer Cluster :=
  fun command cluster answer cluster' =>
    ∃ choice, command.move choice cluster = some (answer, cluster')

theorem clusterStep_of_move (command : Command) (choice : Choice) (cluster : Cluster)
    (answer : Except OperatorError command.Answer) (cluster' : Cluster)
    (hmove : command.move choice cluster = some (answer, cluster')) :
    clusterStep command cluster answer cluster' :=
  ⟨choice, hmove⟩

/-! ## What one command does -/

/-- What a command may answer and how it changes the cluster. -/
inductive Does : (command : Command) → Cluster → Except OperatorError command.Answer → Cluster →
    Prop
  | fails {command cluster} (failure : Failure) :
      Does command cluster (.error (.failed failure)) cluster
  | ctxErr {cluster} : Does .ctxErr cluster (.ok ()) cluster
  | getFlag {cluster flagName} (enabled : Bool) :
      Does (.getFlag flagName) cluster (.ok enabled) cluster
  | getResource {cluster} : Does .getResource cluster (.ok cluster.deployment) cluster
  | listReplicaSets {cluster app sets}
      (hsets : sets.Perm (cluster.replicaSets.filter (·.app = app))) :
      Does (.listReplicaSets app) cluster (.ok sets) cluster
  | updateResource {cluster cluster' operator obj effect}
      (hversion : obj.resourceVersion = cluster.deployment.resourceVersion)
      (hstore : cluster.store obj (.stored operator effect) = some cluster') :
      Does (.updateResource operator obj effect) cluster (.ok ()) cluster'
  | report {cluster operator outcome} :
      Does (.report operator outcome) cluster (.ok ()) (cluster.report operator outcome)
  | write {cluster cluster' obj} (hname : obj.name = cluster.deployment.name)
      (hversion : obj.resourceVersion = cluster.deployment.resourceVersion)
      (hlookup : (getAllAnnotations obj).lookup (annotationPrefix ++ highCpuUsage) =
        (getAllAnnotations cluster.deployment).lookup (annotationPrefix ++ highCpuUsage))
      (hstore : cluster.store obj .written = some cluster') :
      Does .write cluster (.ok ()) cluster'

theorem does_of_clusterStep {command : Command} {cluster cluster' : Cluster}
    {answer : Except OperatorError command.Answer}
    (hstep : clusterStep command cluster answer cluster') :
    Does command cluster answer cluster' := by
  obtain ⟨choice, hmove⟩ := hstep
  cases command with
  | report operator outcome => cases choice <;> cases hmove <;> exact .report
  | ctxErr =>
      cases choice <;> cases hmove
      · exact .fails _
      · exact .ctxErr
  | getFlag flagName =>
      cases choice <;> cases hmove
      · exact .fails _
      · exact .getFlag _
  | getResource =>
      cases choice <;> cases hmove
      · exact .fails _
      · exact .getResource
  | listReplicaSets app =>
      cases choice with
      | fails failure => cases hmove; exact .fails _
      | inOrder sets =>
          rw [Command.move] at hmove
          split_ifs at hmove with hsets
          cases hmove
          exact .listReplicaSets hsets
      | _ => cases hmove
  | updateResource operator obj effect =>
      cases choice with
      | fails failure => cases hmove; exact .fails _
      | goes =>
          rw [Command.move] at hmove
          split_ifs at hmove with hversion
          · obtain ⟨stored, hstore, hresult⟩ := Option.map_eq_some_iff.mp hmove
            cases hresult
            exact .updateResource hversion hstore
          · cases hmove
            exact .fails _
      | _ => cases hmove
  | write =>
      cases choice with
      | fails failure => cases hmove; exact .fails _
      | writes obj =>
          rw [Command.move] at hmove
          split_ifs at hmove with hkept
          obtain ⟨stored, hstore, hresult⟩ := Option.map_eq_some_iff.mp hmove
          cases hresult
          exact .write hkept.1 hkept.2.1 hkept.2.2 hstore
      | _ => cases hmove

/-! ## What storing changes -/

section Store

variable {cluster cluster' : Cluster} {obj : Deployment}
variable {event : PodTemplate → PodTemplate → Event}

theorem Cluster.history_of_store (hstore : cluster.store obj event = some cluster') :
    cluster'.history = cluster.history ++ [event cluster.deployment.template obj.template] := by
  rw [Cluster.store] at hstore
  split_ifs at hstore <;> cases hstore <;> rfl

/-- The stored deployment is the object, but for its version and its revision. -/
theorem Cluster.deployment_of_store (hstore : cluster.store obj event = some cluster') :
    cluster'.deployment = cluster.accepted obj cluster'.revision := by
  rw [Cluster.store] at hstore
  split_ifs at hstore <;> cases hstore <;> rfl

theorem Cluster.accepted_template (revision : ℕ) :
    (cluster.accepted obj revision).template = obj.template := by
  rw [Cluster.accepted]
  dsimp only
  split_ifs <;> rfl

theorem Cluster.accepted_name (revision : ℕ) :
    (cluster.accepted obj revision).name = obj.name := by
  rw [Cluster.accepted]
  dsimp only
  split_ifs <;> rfl

theorem Cluster.accepted_annotations (revision : ℕ) :
    getAllAnnotations (cluster.accepted obj revision) =
      (getAllAnnotations obj).insert revisionAnnotation (toString revision) := by
  rw [Cluster.accepted]
  dsimp only
  split_ifs <;> rfl

/-- The version grows unless nothing changes. -/
theorem Cluster.accepted_version (obj : Deployment) (revision : ℕ) :
    cluster.accepted obj revision = cluster.deployment ∨
      (cluster.accepted obj revision).resourceVersion =
        cluster.deployment.resourceVersion + 1 := by
  rw [Cluster.accepted]
  dsimp only
  split_ifs with hsame
  · exact .inl hsame
  · exact .inr rfl

theorem Cluster.isOn_accepted (revision : ℕ) :
    (cluster.accepted obj revision).isOn highCpuUsage = obj.isOn highCpuUsage := by
  have hne : annotationPrefix ++ highCpuUsage ≠ revisionAnnotation := by decide
  rw [Deployment.isOn, Cluster.accepted_annotations, Finmap.lookup_insert_of_ne _ hne,
    Deployment.isOn]

/-- A copy is the persisted object as long as the version is the same. -/
structure Deployment.Copied (deployment copy : Deployment) : Prop where
  version : copy.resourceVersion ≤ deployment.resourceVersion
  current : copy.resourceVersion = deployment.resourceVersion → copy = deployment

theorem Deployment.copied_self (deployment : Deployment) : deployment.Copied deployment :=
  ⟨le_refl _, fun _ => rfl⟩

/-- A copy stays what it is, whatever is stored. -/
theorem Deployment.Copied.store {copy : Deployment} (hcopy : cluster.deployment.Copied copy)
    (hstore : cluster.store obj event = some cluster') : cluster'.deployment.Copied copy := by
  have hle := hcopy.version
  have hversion := cluster.accepted_version obj cluster'.revision
  rw [← Cluster.deployment_of_store hstore] at hversion
  rcases hversion with heq | hnext
  · refine ⟨?_, fun hsame => ?_⟩
    · rw [heq]
      exact hle
    · rw [heq] at hsame ⊢
      exact hcopy.current hsame
  · refine ⟨?_, fun hsame => ?_⟩
    · omega
    · omega

end Store

end EasyTrade.ProblemOperator

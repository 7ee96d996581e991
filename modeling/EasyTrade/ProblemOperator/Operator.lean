import EasyTrade.ProblemOperator.Cluster

/-!
# The problem operator

In every run the operator asks for the flag, gets the deployment of the broker service,
applies the change or rolls it back when the annotation is not the flag's state, and
updates the deployment.  After a conflict it starts over with a new copy.  One controller
is registered, for one flag.
-/

namespace EasyTrade.ProblemOperator

open EasyTrade.Program EasyTrade.Interleaving

abbrev Task (α : Type) := Prog OperatorError Command.Answer α

def perform (command : Command) : Task command.Answer := Prog.perform command

/-- `retry.RetryOnConflict` with so many steps, without the waiting. -/
def RetryOnConflict : (steps : ℕ) → Task Unit → Task Unit
  | 0, _ => return ()
  | steps + 1, fn =>
      tryCatch fn fun error =>
        if error.isConflict ∧ steps ≠ 0 then RetryOnConflict steps fn else throw error

/-! ## The controller of the broker service -/

/-- The environment of the operator, how quantities are written, and how often an update is
tried. -/
structure Setting where
  cpuLimitEnv : Option String
  ParseQuantity : String → Option Quantity
  /-- `retry.DefaultRetry.Steps`. -/
  DefaultRetry : ℕ
  retries : DefaultRetry ≠ 0

def cpuLimitValueDefault : String := "300m"

def Setting.cpuLimit (setting : Setting) : Option Quantity :=
  setting.ParseQuantity (setting.cpuLimitEnv.getD cpuLimitValueDefault)

def ResourceCPU : String := "cpu"

def Container.limitCpu (container : Container) (cpuLimit : Quantity) : Container :=
  { container with limits := some ((container.limits.getD ∅).insert ResourceCPU cpuLimit) }

def PodTemplate.limitCpu (template : PodTemplate) (cpuLimit : Quantity) : PodTemplate :=
  { template with containers := template.containers.map (·.limitCpu cpuLimit) }

/-- The loop of `RollbackDeployment` over the replica sets. -/
def previousTemplate (deployRev : ℤ) : List ReplicaSet → Except OperatorError PodTemplate
  | [] => .error .noPreviousReplicaSet
  | replicaSet :: items =>
      match replicaSet.revision with
      | none => .error .revisionAnnotationNotFound
      | some rsRevStr =>
          match Atoi rsRevStr with
          | none => .error .revisionNotANumber
          | some rsRev =>
              -- the difference wraps round like any `int`
              if rsRev = (deployRev - 1).bmod (2 ^ 64) then .ok replicaSet.template
              else previousTemplate deployRev items

/-- What `RollbackDeployment` reads from the deployment. -/
def deploymentRevision (deployment : Deployment) : Except OperatorError ℤ :=
  match (getAllAnnotations deployment).lookup revisionAnnotation with
  | none => .error .revisionAnnotationNotFound
  | some deployRevStr =>
      match Atoi deployRevStr with
      | none => .error .revisionNotANumber
      | some deployRev => .ok deployRev

/-- A value or an error of the program itself. -/
def settle {α : Type} : Except OperatorError α → Task α
  | .ok value => return value
  | .error error => throw error

def RollbackDeployment (deployment : Deployment) : Task Deployment := do
  let deployRev ← settle (deploymentRevision deployment)
  let items ← perform (.listReplicaSets deployment.name)
  let template ← settle (previousTemplate deployRev items)
  return { deployment with template }

namespace BrokerController

def ApplyChange (setting : Setting) (deployment : Deployment) : Task Deployment :=
  match setting.cpuLimit with
  | none => throw .quantity
  | some cpuLimit => return { deployment with template := deployment.template.limitCpu cpuLimit }

def RollbackChange (deployment : Deployment) : Task Deployment :=
  RollbackDeployment deployment

end BrokerController

/-! ## The operator -/

section Operator

variable (setting : Setting) (operator : ℕ)

/-- What `processController` does with its copy between getting and updating it. -/
def change (flag : Flag) (obj : Deployment) : Task (Deployment × Option Effect) :=
  match getObjectState flag obj with
  | (.shouldApply, obj) => do
      let obj := setFlagAnnotation flag obj .on
      let obj ← BrokerController.ApplyChange setting obj
      return (obj, some .apply)
  | (.shouldRollback, obj) => do
      let obj := setFlagAnnotation flag obj .off
      let obj ← BrokerController.RollbackChange obj
      return (obj, some .rollback)
  | (.synchronized, obj) => return (obj, none)

/-- The function that `processController` retries. -/
def attempt (flag : Flag) : Task Unit := do
  perform .ctxErr
  let obj ← perform .getResource
  let (obj, effect) ← change setting flag obj
  perform (.updateResource operator obj effect)

def processController (flag : Flag) : Task Unit :=
  RetryOnConflict setting.DefaultRetry (attempt setting operator flag)

def updateState : Task Unit := do
  let enabled ← perform (.getFlag highCpuUsage)
  processController setting operator ⟨highCpuUsage, enabled⟩

/-- So many rounds of the endless loop of `Run`; how often it ticks is left open. -/
def Run : (rounds : ℕ) → Task Unit
  | 0 => return ()
  | rounds + 1 => do
      let outcome ← tryCatch (do
        updateState setting operator
        return .ok ()) fun error => return .error error
      perform (.report operator outcome)
      Run rounds

end Operator

/-! ## Together -/

inductive Party
  | operator (n : ℕ)
  | writer (n : ℕ)
  deriving DecidableEq, Repr

/-- So many changes of the deployment by somebody else. -/
def writeRepeatedly : ℕ → Task Unit
  | 0 => return ()
  | writes + 1 => do
      tryCatch (perform .write) fun _ => return ()
      writeRepeatedly writes

theorem issues_writeRepeatedly {P : Command → Prop} (hwrite : P .write) (writes : ℕ) :
    (writeRepeatedly writes).Issues P := by
  induction writes with
  | zero => exact Prog.issues_pure ()
  | succ writes ih =>
      refine Prog.issues_bind ?_ fun _ => ih
      exact Prog.issues_tryCatch (Prog.issues_perform hwrite) fun _ => Prog.issues_pure ()

structure Workload where
  setting : Setting
  /-- How often each operator runs. -/
  rounds : ℕ → ℕ
  /-- How often each of the others writes. -/
  writes : ℕ → ℕ

/-- One operator. -/
def Workload.single (setting : Setting) (rounds : ℕ) (writes : ℕ → ℕ) : Workload :=
  ⟨setting, fun n => if n = 0 then rounds else 0, writes⟩

def Workload.program (workload : Workload) : Party → Task Unit
  | .operator n => Run workload.setting n (workload.rounds n)
  | .writer n => writeRepeatedly (workload.writes n)

abbrev System (M : Type) := Config OperatorError Command.Answer Party Cluster M Unit

def Workload.start {M : Type} (workload : Workload) (memory : M) (cluster : Cluster) : System M :=
  Config.start cluster memory workload.program

/-- Any order of the commands of all parties, with any outcome of each. -/
abbrev Interleaves : System Unit → System Unit → Prop :=
  ReachesWhen clusterStep (fun _ _ _ => ()) fun _ _ _ => True

namespace Sample

def setting : Setting where
  cpuLimitEnv := none
  ParseQuantity s := if s = "300m" then some (3 / 10) else none
  DefaultRetry := 5
  retries := by decide

/-- One container with this CPU limit. -/
def template (cpuLimit : Option Quantity) : PodTemplate :=
  ⟨[⟨cpuLimit.map fun limit => (∅ : StringMap Quantity).insert ResourceCPU limit, "broker"⟩], ""⟩

def deployment (template : PodTemplate) (revision : ℕ) : Deployment where
  name := "broker-service"
  resourceVersion := 1
  annotations := some ((∅ : StringMap String).insert revisionAnnotation (toString revision))
  template := template
  other := ""

def replicaSet (template : PodTemplate) (revision : ℕ) : ReplicaSet :=
  ⟨"broker-service", some (toString revision), template⟩

end Sample

end EasyTrade.ProblemOperator

import Mathlib

/-!
# Annotated objects

The operator keeps its own state in an annotation of the object that it works on: the
change for a flag has been applied when the flag's annotation is `on`.
-/

namespace EasyTrade.ProblemOperator

/-- A map with string keys. -/
abbrev StringMap (α : Type) := Finmap fun _ : String => α

/-- A resource quantity by its value. -/
abbrev Quantity := ℚ

structure Container where
  /-- `Resources.Limits`; `none` is the nil map. -/
  limits : Option (StringMap Quantity)
  /-- Everything else that is specified of the container. -/
  other : String
  deriving DecidableEq

structure PodTemplate where
  containers : List Container
  /-- Everything else that is specified of the pods. -/
  other : String
  deriving DecidableEq

structure Deployment where
  name : String
  resourceVersion : ℕ
  /-- `none` is the nil map. -/
  annotations : Option (StringMap String)
  template : PodTemplate
  /-- Everything else that is specified of the deployment. -/
  other : String
  deriving DecidableEq

structure ReplicaSet where
  /-- The label `app`. -/
  app : String
  /-- The revision annotation. -/
  revision : Option String
  template : PodTemplate
  deriving DecidableEq

structure Flag where
  id : String
  enabled : Bool
  deriving DecidableEq, Repr

/-! ## Annotations -/

inductive StateAction
  | synchronized
  | shouldApply
  | shouldRollback
  deriving DecidableEq, Repr

inductive AnnotationValue
  | on
  | off
  deriving DecidableEq, Repr

def AnnotationValue.text : AnnotationValue → String
  | on => "on"
  | off => "off"

def AnnotationValue.Bool (value : AnnotationValue) : Bool :=
  decide (value = on)

def annotationPrefix : String := "problem-operator/"

def getAnnotationName (flag : Flag) : String :=
  annotationPrefix ++ flag.id

def getAllAnnotations (obj : Deployment) : StringMap String :=
  obj.annotations.getD ∅

def setFlagAnnotation (flag : Flag) (obj : Deployment) (value : AnnotationValue) : Deployment :=
  { obj with
    annotations := some ((getAllAnnotations obj).insert (getAnnotationName flag) value.text) }

/-- The flag's annotation, and the object, to which it is added when it is not there. -/
def getFlagAnnotation (flag : Flag) (obj : Deployment) : AnnotationValue × Deployment :=
  match (getAllAnnotations obj).lookup (getAnnotationName flag) with
  | some strValue => if strValue = AnnotationValue.on.text then (.on, obj) else (.off, obj)
  | none => (.off, setFlagAnnotation flag obj .off)

def getObjectState (flag : Flag) (obj : Deployment) : StateAction × Deployment :=
  let (state, obj) := getFlagAnnotation flag obj
  if flag.enabled = state.Bool then (.synchronized, obj)
  else if flag.enabled then (.shouldApply, obj)
  else (.shouldRollback, obj)

/-- The annotation says that the change for the flag has been applied. -/
def Deployment.isOn (obj : Deployment) (flagId : String) : Bool :=
  decide ((getAllAnnotations obj).lookup (annotationPrefix ++ flagId) =
    some AnnotationValue.on.text)

section Annotations

variable (flag : Flag) (obj : Deployment)

@[simp]
theorem getAllAnnotations_set (value : AnnotationValue) :
    getAllAnnotations (value |> setFlagAnnotation flag obj) =
      (getAllAnnotations obj).insert (getAnnotationName flag) value.text := rfl

@[simp]
theorem isOn_set (value : AnnotationValue) :
    (value |> setFlagAnnotation flag obj).isOn flag.id = value.Bool := by
  rw [Deployment.isOn, getAllAnnotations_set, getAnnotationName, Finmap.lookup_insert]
  cases value <;> rfl

theorem getFlagAnnotation_fst : (obj |> getFlagAnnotation flag).1.Bool = obj.isOn flag.id := by
  rw [Deployment.isOn, getFlagAnnotation, getAnnotationName]
  cases (getAllAnnotations obj).lookup (annotationPrefix ++ flag.id) with
  | none => rfl
  | some strValue =>
      by_cases hon : strValue = AnnotationValue.on.text
      · simp [hon, AnnotationValue.Bool]
      · simp [hon, AnnotationValue.Bool]

/-- Reading the annotation changes at most a missing one. -/
theorem getFlagAnnotation_snd :
    (obj |> getFlagAnnotation flag).2 = obj ∨
      obj.isOn flag.id = false ∧
        (obj |> getFlagAnnotation flag).2 = setFlagAnnotation flag obj .off := by
  rw [Deployment.isOn, getFlagAnnotation, getAnnotationName]
  cases (getAllAnnotations obj).lookup (annotationPrefix ++ flag.id) with
  | none => exact .inr ⟨rfl, rfl⟩
  | some strValue =>
      left
      dsimp only
      split_ifs <;> rfl

end Annotations

/-- What `getObjectState` says of the object: its annotation is the flag's state, or it is
not and there is something to do.  The object keeps all but a missing annotation. -/
structure Decided (flag : Flag) (obj : Deployment) (state : StateAction) (obj' : Deployment) :
    Prop where
  isOn : obj'.isOn flag.id = obj.isOn flag.id
  unchanged : obj' = obj ∨ obj' = setFlagAnnotation flag obj .off
  synchronized : state = .synchronized → flag.enabled = obj.isOn flag.id
  shouldApply : state = .shouldApply → obj.isOn flag.id = false ∧ flag.enabled = true
  shouldRollback : state = .shouldRollback → obj.isOn flag.id = true ∧ flag.enabled = false

theorem decided_getObjectState (flag : Flag) (obj : Deployment) :
    Decided flag obj (getObjectState flag obj).1 (getObjectState flag obj).2 := by
  have hvalue := getFlagAnnotation_fst flag obj
  have hobj := getFlagAnnotation_snd flag obj
  have hsnd : (getObjectState flag obj).2 = (obj |> getFlagAnnotation flag).2 := by
    simp only [getObjectState]
    split_ifs <;> rfl
  have hfst : (getObjectState flag obj).1 =
      if flag.enabled = obj.isOn flag.id then .synchronized
      else if flag.enabled then .shouldApply else .shouldRollback := by
    simp only [getObjectState, hvalue]
    split_ifs <;> rfl
  rw [hsnd, hfst]
  refine ⟨?_, ?_, fun h => ?_, fun h => ?_, fun h => ?_⟩
  · rcases hobj with hsame | ⟨hoff, hset⟩
    · rw [hsame]
    · rw [hset, isOn_set, hoff]
      rfl
  · exact hobj.imp id And.right
  all_goals split_ifs at h with hequal henabled
  · exact hequal
  · rw [henabled] at hequal
    exact ⟨Bool.eq_false_of_not_eq_true fun hon => hequal hon.symm, henabled⟩
  · rw [Bool.not_eq_true] at henabled
    rw [henabled] at hequal
    exact ⟨Bool.eq_true_of_not_eq_false fun hoff => hequal hoff.symm, henabled⟩

/-! ## Revisions -/

def revisionAnnotation : String := "deployment.kubernetes.io/revision"

/-- The digits of `strconv.Atoi`. -/
def atoiDigits (digits : List Char) : Option ℕ :=
  if digits ≠ [] ∧ digits.all Char.isDigit then some (Nat.ofDigitChars 10 digits 0) else none

/-- `strconv.Atoi`: a 64-bit integer in decimal digits with an optional sign. -/
def Atoi (s : String) : Option ℤ :=
  let value : Option ℤ :=
    match s.toList with
    | '-' :: digits => (atoiDigits digits).map fun n => -(n : ℤ)
    | '+' :: digits => (atoiDigits digits).map Int.ofNat
    | digits => (atoiDigits digits).map Int.ofNat
  value.filter fun n => -2 ^ 63 ≤ n ∧ n < 2 ^ 63

theorem atoiDigits_toDigits (n : ℕ) : atoiDigits (Nat.toDigits 10 n) = some n := by
  have hdigits : (Nat.toDigits 10 n).all Char.isDigit := by
    refine List.all_eq_true.mpr fun c hc => ?_
    exact Nat.isDigit_of_mem_toDigits (by decide) (by decide) hc
  rw [atoiDigits, if_pos ⟨Nat.toDigits_ne_nil, hdigits⟩, Nat.ofDigitChars_ten_toDigits]

/-- A revision is read back as it has been written. -/
theorem atoi_toString {n : ℕ} (hn : n < 2 ^ 63) : Atoi (toString n) = some (n : ℤ) := by
  have hsign : ∀ c ∈ Nat.toDigits 10 n, c ≠ '-' ∧ c ≠ '+' := by
    intro c hc
    have hdigit : c.isDigit := Nat.isDigit_of_mem_toDigits (by decide) (by decide) hc
    constructor
    · rintro rfl
      cases hdigit
    · rintro rfl
      cases hdigit
  have hlist : (toString n).toList = Nat.toDigits 10 n := Nat.toList_repr
  have hvalue := atoiDigits_toDigits n
  rw [Atoi, hlist]
  cases hcases : Nat.toDigits 10 n with
  | nil => exact absurd hcases Nat.toDigits_ne_nil
  | cons first rest =>
      obtain ⟨hminus, hplus⟩ := hsign first (hcases ▸ List.mem_cons_self)
      rw [hcases] at hvalue
      split
      · rename_i heq; exact absurd (List.cons.inj heq).1 hminus
      · rename_i heq; exact absurd (List.cons.inj heq).1 hplus
      · rw [hvalue]
        have hrange : -2 ^ 63 ≤ (n : ℤ) ∧ (n : ℤ) < 2 ^ 63 := by omega
        have hfilter : decide (-2 ^ 63 ≤ (n : ℤ) ∧ (n : ℤ) < 2 ^ 63) = true :=
          decide_eq_true hrange
        rw [Option.map_some, Option.filter_some, Int.ofNat_eq_natCast, if_pos hfilter]

theorem toString_injective {m n : ℕ} (h : toString m = toString n) : m = n :=
  Nat.repr_injective h

end EasyTrade.ProblemOperator

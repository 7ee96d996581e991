import EasyTrade.ProblemOperator.Operator

/-!
# Revisions

Each template that has been rolled out is kept in one replica set, which carries the
revision at which it was rolled out last.  Changing the template leaves the template
before it at the revision before; storing the template as it is leaves there whatever was
there.
-/

namespace EasyTrade.ProblemOperator

namespace Cluster

/-- The replica sets of the deployment. -/
def own (cluster : Cluster) : List ReplicaSet :=
  cluster.replicaSets.filter (·.app = cluster.deployment.name)

/-- What Kubernetes keeps of the revisions of a deployment. -/
structure RevisionHistory (cluster : Cluster) : Prop where
  annotation : (getAllAnnotations cluster.deployment).lookup revisionAnnotation =
    some (toString cluster.revision)
  bound : cluster.revision < 2 ^ 63
  numbered : ∀ set ∈ cluster.own, ∃ n ≤ cluster.revision, set.revision = some (toString n)
  templates : ∀ set ∈ cluster.own, ∀ other ∈ cluster.own,
    set.template = other.template → set = other
  revisions : ∀ set ∈ cluster.own, ∀ other ∈ cluster.own,
    set.revision = other.revision → set = other
  current : ∃ set ∈ cluster.own, set.template = cluster.deployment.template ∧
    set.revision = some (toString cluster.revision)

section RollOut

variable {cluster cluster' : Cluster} {obj : Deployment} {set : ReplicaSet}
variable {template : PodTemplate} {revision : ℕ}

theorem mem_own : set ∈ cluster.own ↔
    set ∈ cluster.replicaSets ∧ set.app = cluster.deployment.name := by
  rw [own, List.mem_filter, decide_eq_true_iff]

/-- The replica set of a template that is rolled out. -/
def newest (cluster : Cluster) (template : PodTemplate) (revision : ℕ) : ReplicaSet :=
  ⟨cluster.deployment.name, some (toString revision), template⟩

theorem renumbered_of_own (hset : set.app = cluster.deployment.name)
    (htemplate : set.template = template) :
    cluster.renumbered template revision set = cluster.newest template revision := by
  obtain ⟨app, number, kept⟩ := set
  cases hset
  cases htemplate
  exact if_pos ⟨rfl, rfl⟩

theorem renumbered_of_ne (hset : ¬ (set.app = cluster.deployment.name ∧ set.template = template)) :
    cluster.renumbered template revision set = set :=
  if_neg hset

/-- Rolling out a template changes the replica set of this template only. -/
theorem mem_rolledOut (hset : set.app = cluster.deployment.name) :
    set ∈ cluster.rolledOut template revision ↔
      set ∈ cluster.own ∧ set.template ≠ template ∨ set = cluster.newest template revision := by
  rw [rolledOut, mem_own]
  split_ifs with hany
  · obtain ⟨used, hused, hmatches⟩ := List.any_eq_true.mp hany
    obtain ⟨happ, htemplate⟩ := of_decide_eq_true hmatches
    rw [List.mem_map]
    constructor
    · rintro ⟨old, hold, rfl⟩
      by_cases hmatch : old.app = cluster.deployment.name ∧ old.template = template
      · exact .inr (renumbered_of_own hmatch.1 hmatch.2)
      · rw [renumbered_of_ne hmatch] at hset ⊢
        exact .inl ⟨⟨hold, hset⟩, fun h => hmatch ⟨hset, h⟩⟩
    · rintro (⟨⟨hold, -⟩, hne⟩ | rfl)
      · exact ⟨set, hold, renumbered_of_ne fun h => hne h.2⟩
      · exact ⟨used, hused, renumbered_of_own happ htemplate⟩
  · have hnone : ∀ old ∈ cluster.replicaSets, old.app = cluster.deployment.name →
        old.template ≠ template := by
      intro old hold happ htemplate
      exact hany (List.any_eq_true.mpr ⟨old, hold, decide_eq_true ⟨happ, htemplate⟩⟩)
    rw [List.mem_append, List.mem_singleton]
    refine or_congr ⟨fun hold => ⟨⟨hold, hset⟩, hnone set hold hset⟩, fun h => h.1.1⟩ Iff.rfl

theorem template_of_store {event : PodTemplate → PodTemplate → Event}
    (hstore : cluster.store obj event = some cluster') :
    cluster'.deployment.template = obj.template := by
  rw [deployment_of_store hstore, accepted_template]

theorem name_of_store {event : PodTemplate → PodTemplate → Event}
    (hstore : cluster.store obj event = some cluster') : cluster'.deployment.name = obj.name := by
  rw [deployment_of_store hstore, accepted_name]

theorem annotation_of_store {event : PodTemplate → PodTemplate → Event}
    (hstore : cluster.store obj event = some cluster') :
    (getAllAnnotations cluster'.deployment).lookup revisionAnnotation =
      some (toString cluster'.revision) := by
  rw [deployment_of_store hstore, accepted_annotations, Finmap.lookup_insert]

/-- Storing the same template. -/
theorem of_store_of_eq {event : PodTemplate → PodTemplate → Event}
    (hstore : cluster.store obj event = some cluster')
    (hsame : obj.template = cluster.deployment.template) :
    cluster'.revision = cluster.revision ∧ cluster'.replicaSets = cluster.replicaSets := by
  rw [store, if_pos hsame] at hstore
  cases hstore
  exact ⟨rfl, rfl⟩

/-- Storing another template. -/
theorem of_store_of_ne {event : PodTemplate → PodTemplate → Event}
    (hstore : cluster.store obj event = some cluster')
    (hne : obj.template ≠ cluster.deployment.template) :
    cluster'.revision = cluster.revision + 1 ∧ cluster.revision + 1 < 2 ^ 63 ∧
      cluster'.replicaSets = cluster.rolledOut obj.template (cluster.revision + 1) := by
  rw [store, if_neg hne] at hstore
  split_ifs at hstore with hbound
  cases hstore
  exact ⟨rfl, hbound, rfl⟩

theorem own_of_store {event : PodTemplate → PodTemplate → Event}
    (hstore : cluster.store obj event = some cluster')
    (hname : obj.name = cluster.deployment.name)
    (hne : obj.template ≠ cluster.deployment.template) :
    set ∈ cluster'.own ↔ set ∈ cluster.own ∧ set.template ≠ obj.template ∨
      set = cluster.newest obj.template (cluster.revision + 1) := by
  obtain ⟨-, -, hsets⟩ := of_store_of_ne hstore hne
  rw [mem_own, hsets, name_of_store hstore, hname]
  constructor
  · rintro ⟨hset, happ⟩
    exact (mem_rolledOut happ).mp hset
  · intro hset
    have happ : set.app = cluster.deployment.name := by
      rcases hset with ⟨hold, -⟩ | rfl
      · exact (mem_own.mp hold).2
      · rfl
    exact ⟨(mem_rolledOut happ).mpr hset, happ⟩

/-- Nothing else has the revision that is new. -/
theorem RevisionHistory.ne_newest (hcluster : cluster.RevisionHistory) (hset : set ∈ cluster.own) :
    set.revision ≠ some (toString (cluster.revision + 1)) := by
  obtain ⟨n, hle, hn⟩ := hcluster.numbered set hset
  rw [hn]
  intro heq
  have hsame : n = cluster.revision + 1 := toString_injective (Option.some.inj heq)
  omega

/-- Whatever is stored, the revisions are kept. -/
theorem RevisionHistory.store {event : PodTemplate → PodTemplate → Event}
    (hcluster : cluster.RevisionHistory) (hname : obj.name = cluster.deployment.name)
    (hstore : cluster.store obj event = some cluster') : cluster'.RevisionHistory := by
  by_cases hsame : obj.template = cluster.deployment.template
  · obtain ⟨hrevision, hsets⟩ := of_store_of_eq hstore hsame
    have hown : cluster'.own = cluster.own := by
      rw [own, hsets, name_of_store hstore, hname, own]
    refine ⟨annotation_of_store hstore, ?_, ?_, ?_, ?_, ?_⟩
    · rw [hrevision]
      exact hcluster.bound
    · rw [hown, hrevision]
      exact hcluster.numbered
    · rw [hown]
      exact hcluster.templates
    · rw [hown]
      exact hcluster.revisions
    · rw [hown, hrevision, template_of_store hstore, hsame]
      exact hcluster.current
  · obtain ⟨hrevision, hbound, -⟩ := of_store_of_ne hstore hsame
    have hown : ∀ set, set ∈ cluster'.own ↔ set ∈ cluster.own ∧ set.template ≠ obj.template ∨
        set = cluster.newest obj.template (cluster.revision + 1) := fun set =>
      own_of_store hstore hname hsame
    refine ⟨annotation_of_store hstore, ?_, fun set hset => ?_, fun set hset other hother heq => ?_,
      fun set hset other hother heq => ?_, ?_⟩
    · rw [hrevision]
      exact hbound
    · rw [hrevision]
      rcases (hown set).mp hset with ⟨hold, -⟩ | rfl
      · obtain ⟨n, hle, hn⟩ := hcluster.numbered set hold
        exact ⟨n, hle.trans (Nat.le_succ _), hn⟩
      · exact ⟨cluster.revision + 1, le_refl _, rfl⟩
    · rcases (hown set).mp hset with ⟨hold, hne⟩ | rfl <;>
        rcases (hown other).mp hother with ⟨hold', hne'⟩ | rfl
      · exact hcluster.templates set hold other hold' heq
      · exact absurd heq hne
      · exact absurd heq.symm hne'
      · rfl
    · rcases (hown set).mp hset with ⟨hold, -⟩ | rfl <;>
        rcases (hown other).mp hother with ⟨hold', -⟩ | rfl
      · exact hcluster.revisions set hold other hold' heq
      · exact absurd heq (hcluster.ne_newest hold)
      · exact absurd heq.symm (hcluster.ne_newest hold')
      · rfl
    · refine ⟨cluster.newest obj.template (cluster.revision + 1), (hown _).mpr (.inr rfl), ?_, ?_⟩
      · exact (template_of_store hstore).symm
      · rw [hrevision]
        rfl

end RollOut

end Cluster

/-! ## The previous template -/

section Previous

variable {sets : List ReplicaSet} {revision : ℕ}

/-- What the loop answers when every replica set carries a number. -/
theorem previousTemplate_cases (hbound : revision < 2 ^ 63)
    (hnumbered : ∀ set ∈ sets, ∃ n ≤ revision, set.revision = some (toString n)) :
    (∃ set ∈ sets, ∃ n, n + 1 = revision ∧ set.revision = some (toString n) ∧
        previousTemplate revision sets = .ok set.template) ∨
      (∀ set ∈ sets, ∀ n, n + 1 = revision → set.revision ≠ some (toString n)) ∧
        previousTemplate revision sets = .error .noPreviousReplicaSet := by
  induction sets with
  | nil => exact .inr ⟨fun set hset => absurd hset List.not_mem_nil, rfl⟩
  | cons first rest ih =>
      obtain ⟨n, hle, hn⟩ := hnumbered first List.mem_cons_self
      have hbefore : ((revision : ℤ) - 1).bmod (2 ^ 64) = revision - 1 :=
        Int.bmod_eq_of_le (by omega) (by omega)
      have hloop : previousTemplate revision (first :: rest) =
          if (n : ℤ) = revision - 1 then .ok first.template
          else previousTemplate revision rest := by
        rw [previousTemplate, hn]
        dsimp only
        rw [atoi_toString (hle.trans_lt hbound), hbefore]
      by_cases hprevious : n + 1 = revision
      · refine .inl ⟨first, List.mem_cons_self, n, hprevious, hn, ?_⟩
        rw [hloop, if_pos (by omega)]
      · rw [hloop, if_neg (by omega)]
        refine (ih fun set hset => hnumbered set (List.mem_cons_of_mem _ hset)).imp ?_ ?_
        · rintro ⟨set, hset, hfound⟩
          exact ⟨set, List.mem_cons_of_mem _ hset, hfound⟩
        · rintro ⟨hnone, herror⟩
          refine ⟨fun set hset m hm heq => ?_, herror⟩
          rcases List.mem_cons.mp hset with rfl | hmem
          · rw [hn] at heq
            exact hprevious (toString_injective (Option.some.inj heq) ▸ hm)
          · exact hnone set hmem m hm heq

theorem deploymentRevision_eq {deployment : Deployment} (hbound : revision < 2 ^ 63)
    (hlookup : (getAllAnnotations deployment).lookup revisionAnnotation =
      some (toString revision)) : deploymentRevision deployment = .ok (revision : ℤ) := by
  rw [deploymentRevision, hlookup]
  dsimp only
  rw [atoi_toString hbound]

end Previous

/-! ## The limit -/

section Limit

def Container.cpuLimit (container : Container) : Option Quantity :=
  container.limits.bind (·.lookup ResourceCPU)

/-- All containers have this limit already. -/
def PodTemplate.Limited (template : PodTemplate) (cpuLimit : Quantity) : Prop :=
  ∀ container ∈ template.containers, container.cpuLimit = some cpuLimit

theorem Container.limitCpu_eq_iff (container : Container) (cpuLimit : Quantity) :
    container.limitCpu cpuLimit = container ↔ container.cpuLimit = some cpuLimit := by
  obtain ⟨limits, other⟩ := container
  cases limits with
  | none => exact iff_of_false (fun h => by cases h) (fun h => by cases h)
  | some limits =>
      have hinsert : limits.insert ResourceCPU cpuLimit = limits ↔
          limits.lookup ResourceCPU = some cpuLimit := by
        constructor
        · intro h
          calc limits.lookup ResourceCPU
              = (limits.insert ResourceCPU cpuLimit).lookup ResourceCPU := by rw [h]
            _ = some cpuLimit := Finmap.lookup_insert limits
        · intro h
          refine Finmap.ext_lookup fun name => ?_
          by_cases hname : name = ResourceCPU
          · rw [hname, Finmap.lookup_insert, h]
          · exact Finmap.lookup_insert_of_ne _ hname
      rw [Container.limitCpu, Container.cpuLimit, Option.bind_some, ← hinsert]
      constructor
      · intro h
        exact Option.some.inj (congrArg Container.limits h)
      · intro h
        rw [Option.getD_some, h]

theorem PodTemplate.limitCpu_eq_iff (template : PodTemplate) (cpuLimit : Quantity) :
    template.limitCpu cpuLimit = template ↔ template.Limited cpuLimit := by
  obtain ⟨containers, other⟩ := template
  have hmap : containers.map (·.limitCpu cpuLimit) = containers ↔
      ∀ container ∈ containers, container.limitCpu cpuLimit = container := by
    constructor
    · intro h
      exact List.map_inj_left.mp (h.trans (List.map_id containers).symm)
    · intro h
      exact (List.map_congr_left h).trans (List.map_id containers)
  rw [PodTemplate.Limited, PodTemplate.limitCpu, PodTemplate.mk.injEq, hmap]
  simp only [Container.limitCpu_eq_iff, and_true]

end Limit

end EasyTrade.ProblemOperator

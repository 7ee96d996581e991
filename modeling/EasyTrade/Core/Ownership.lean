import EasyTrade.Core.RelyGuarantee

/-!
# Threads that hold things

A thread may hold something that no other thread holds: a request that it alone has
accepted, a row that it alone has inserted.  This is not a relation between the shared state
and the notes of one thread, but one between the notes of any two threads.
-/

namespace EasyTrade.Interleaving

open EasyTrade.Program

variable {E C : Type} {Ans : C → Type} {ι S M α : Type} [DecidableEq ι]

/-- The notes of any two threads are apart. -/
def Config.Apart (apart : M → M → Prop) (config : Config E Ans ι S M α) : Prop :=
  ∀ i j, i ≠ j → apart (config.threads i).memory (config.threads j).memory

section Rule

variable {step : Semantics E Ans S} {note : Note E Ans M}
variable {allowed : Condition E Ans (S × M)} {permitted : Condition E Ans M}
variable {invariant : S → Prop} {relies : ι → S → M → Prop} {guard : ι → C → M → Prop}
variable {apart : M → M → Prop}

/-- What one command of thread `i` has to guarantee to the threads whose notes are apart
from its own. -/
def GuaranteesApart (step : Semantics E Ans S) (note : Note E Ans M)
    (allowed : Condition E Ans (S × M)) (invariant : S → Prop) (relies : ι → S → M → Prop)
    (guard : ι → C → M → Prop) (apart : M → M → Prop) : Prop :=
  ∀ i command shared memory answer shared', invariant shared → relies i shared memory →
    guard i command memory → allowed command (shared, memory) answer →
    step command shared answer shared' →
      invariant shared' ∧ relies i shared' (note memory command answer) ∧
        ∀ j, j ≠ i → ∀ other, relies j shared other → apart memory other →
          relies j shared' other ∧ apart (note memory command answer) other

theorem Upheld.apart_of_step {config config' : Config E Ans ι S M α}
    (hsymm : ∀ memory other, apart memory other → apart other memory)
    (hpermitted : ∀ command shared memory answer, allowed command (shared, memory) answer →
      permitted command memory answer)
    (hguarantees : GuaranteesApart step note allowed invariant relies guard apart)
    (hupheld : Upheld permitted note invariant relies guard config) (hapart : config.Apart apart)
    (hstep : Step (restrict (fun _ => noted step note) allowed) config config') :
    Upheld permitted note invariant relies guard config' ∧ config'.Apart apart := by
  obtain ⟨i, hrest, hallowed, hcommand, hnote⟩ := hstep
  dsimp only at hcommand hnote
  subst hnote
  have hwp := hupheld.rest i
  rw [hrest] at hwp
  obtain ⟨hguard, hnext⟩ := hwp
  obtain ⟨hinvariant, hself, hothers⟩ := hguarantees i _ _ _ _ _ hupheld.shared
    (hupheld.memory i) hguard hallowed hcommand
  have hother : ∀ j, j ≠ i → relies j _ (config.threads j).memory ∧
      apart _ (config.threads j).memory := fun j hj =>
    hothers j hj _ (hupheld.memory j) (hapart i j (Ne.symm hj))
  refine ⟨⟨hinvariant, fun j => ?_, fun j => ?_⟩, fun j k hjk => ?_⟩
  · by_cases hj : j = i
    · subst j
      simpa [Config.advance] using hself
    · simpa [Config.advance, hj] using (hother j hj).1
  · by_cases hj : j = i
    · subst j
      simpa [Config.advance] using hnext _ _ ⟨hpermitted _ _ _ _ hallowed, rfl⟩
    · simpa [Config.advance, hj] using hupheld.rest j
  · by_cases hj : j = i
    · subst j
      simpa [Config.advance, Ne.symm hjk] using (hother k (Ne.symm hjk)).2
    · by_cases hk : k = i
      · subst k
        simpa [Config.advance, hj] using hsymm _ _ (hother j hj).2
      · simpa [Config.advance, hj, hk] using hapart j k hjk

/-- Run rule for threads that hold things. -/
theorem Upheld.apart_reaches {config config' : Config E Ans ι S M α}
    (hsymm : ∀ memory other, apart memory other → apart other memory)
    (hpermitted : ∀ command shared memory answer, allowed command (shared, memory) answer →
      permitted command memory answer)
    (hguarantees : GuaranteesApart step note allowed invariant relies guard apart)
    (hupheld : Upheld permitted note invariant relies guard config) (hapart : config.Apart apart)
    (hreaches : ReachesWhen step note allowed config config') :
    Upheld permitted note invariant relies guard config' ∧ config'.Apart apart := by
  induction hreaches with
  | refl => exact ⟨hupheld, hapart⟩
  | tail _ hstep ih => exact ih.1.apart_of_step hsymm hpermitted hguarantees ih.2 hstep

end Rule

end EasyTrade.Interleaving

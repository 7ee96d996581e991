import Mathlib

/-!
# Shuffling in place

A loop runs down an array and swaps every element with one that is drawn from the part in
front of it, itself included.  The draws are in bijection with the permutations, so
that draws which are equally likely give every order, and every choice of first elements, the
same chance.
-/

namespace EasyTrade.Shuffle

open scoped Nat

variable {α : Type} {n : ℕ}

/-- What is drawn at each index: an index up to it. -/
abbrev Draws (n : ℕ) := (k : Fin n) → Fin (k + 1)

/-- What is drawn at an index, as an index of the array. -/
def Draws.at (draws : Draws n) {i : ℕ} (hi : i < n) : Fin n :=
  Fin.castLE hi (draws ⟨i, hi⟩)

theorem Draws.at_le (draws : Draws n) {i : ℕ} (hi : i < n) : (draws.at hi : ℕ) ≤ i :=
  Nat.le_of_lt_succ (draws ⟨i, hi⟩).isLt

/-- The iterations of the loop with an index below `i`, the highest one first.  There is none
for the index zero. -/
def shuffleBelow (draws : Draws n) : (i : ℕ) → i ≤ n → Vector α n → Vector α n
  | 0, _, xs => xs
  | 1, _, xs => xs
  | i + 2, hi, xs =>
      shuffleBelow draws (i + 1) (Nat.le_of_succ_le hi)
        (xs.swap (draws.at hi) (i + 1) (draws.at hi).isLt hi)

def shuffle (draws : Draws n) (xs : Vector α n) : Vector α n :=
  shuffleBelow draws n le_rfl xs

/-! ## The permutation of the draws -/

/-- Where the element comes from that the iterations below `i` put at an index. -/
def sourceBelow (draws : Draws n) : (i : ℕ) → i ≤ n → Equiv.Perm (Fin n)
  | 0, _ => 1
  | i + 1, hi => Equiv.swap (draws.at hi) ⟨i, hi⟩ * sourceBelow draws i (Nat.le_of_succ_le hi)

def source (draws : Draws n) : Equiv.Perm (Fin n) := sourceBelow draws n le_rfl

theorem sourceBelow_succ (draws : Draws n) {i : ℕ} (hi : i + 1 ≤ n) (k : Fin n) :
    sourceBelow draws (i + 1) hi k =
      Equiv.swap (draws.at hi) ⟨i, hi⟩ (sourceBelow draws i (Nat.le_of_succ_le hi) k) := rfl

/-- An iteration for the index zero would change nothing. -/
theorem sourceBelow_one (draws : Draws n) (hi : 1 ≤ n) (k : Fin n) :
    sourceBelow draws 1 hi k = k := by
  have hzero : draws.at hi = ⟨0, hi⟩ := Fin.ext (Nat.le_zero.mp (draws.at_le hi))
  rw [sourceBelow_succ, hzero, Equiv.swap_self]
  rfl

theorem swap_get (xs : Vector α n) {i j : ℕ} (hi : i < n) (hj : j < n) (k : Fin n) :
    (xs.swap i j hi hj).get k = xs.get (Equiv.swap ⟨i, hi⟩ ⟨j, hj⟩ k) := by
  simp only [Vector.get_eq_getElem, Vector.getElem_swap, Equiv.swap_apply_def, Fin.ext_iff]
  split_ifs <;> rfl

theorem shuffleBelow_get (draws : Draws n) {i : ℕ} (hi : i ≤ n) (xs : Vector α n) (k : Fin n) :
    (shuffleBelow draws i hi xs).get k = xs.get (sourceBelow draws i hi k) := by
  induction i, hi, xs using shuffleBelow.induct draws with
  | case1 hi xs => rfl
  | case2 hi xs =>
      rw [sourceBelow_one]
      rfl
  | case3 i hi xs ih => rw [shuffleBelow, ih, swap_get, sourceBelow_succ _ hi]

theorem shuffle_get (draws : Draws n) (xs : Vector α n) (k : Fin n) :
    (shuffle draws xs).get k = xs.get (source draws k) :=
  shuffleBelow_get draws le_rfl xs k

/-- The iterations below `i` leave the rest of the array alone. -/
theorem sourceBelow_of_le (draws : Draws n) {i : ℕ} (hi : i ≤ n) {k : Fin n} (hk : i ≤ k) :
    sourceBelow draws i hi k = k := by
  induction i with
  | zero => rfl
  | succ i ih =>
      have hdrawn : k ≠ draws.at hi := fun heq => by
        have hle := draws.at_le hi
        omega
      have hlast : k ≠ ⟨i, hi⟩ := fun heq => by
        subst heq
        exact absurd hk (Nat.not_succ_le_self i)
      rw [sourceBelow_succ, ih (Nat.le_of_succ_le hi) (Nat.le_of_succ_le hk)]
      exact Equiv.swap_apply_of_ne_of_ne hdrawn hlast

/-- The first of the iterations decides what the last index gets. -/
theorem sourceBelow_last (draws : Draws n) {i : ℕ} (hi : i + 1 ≤ n) :
    sourceBelow draws (i + 1) hi ⟨i, hi⟩ = draws.at hi := by
  rw [sourceBelow_succ, sourceBelow_of_le draws _ (k := ⟨i, hi⟩) le_rfl, Equiv.swap_apply_right]

theorem draws_eq_of_sourceBelow_eq {draws draws' : Draws n} {i : ℕ} (hi : i ≤ n)
    (heq : sourceBelow draws i hi = sourceBelow draws' i hi) {k : Fin n} (hk : (k : ℕ) < i) :
    draws k = draws' k := by
  induction i with
  | zero => exact absurd hk (Nat.not_lt_zero _)
  | succ i ih =>
      have hat : draws.at hi = draws'.at hi := by
        rw [← sourceBelow_last draws hi, heq, sourceBelow_last]
      rcases Nat.lt_succ_iff_lt_or_eq.mp hk with hlt | heqi
      · refine ih (Nat.le_of_succ_le hi) ?_ hlt
        rw [sourceBelow, sourceBelow, hat] at heq
        exact mul_left_cancel heq
      · obtain rfl : k = ⟨i, hi⟩ := Fin.ext heqi
        exact Fin.castLE_injective hi hat

theorem source_injective : Function.Injective (source : Draws n → Equiv.Perm (Fin n)) :=
  fun _ _ heq => funext fun k => draws_eq_of_sourceBelow_eq le_rfl heq k.isLt

theorem card_draws : Fintype.card (Draws n) = n ! := by
  rw [Fintype.card_pi]
  simp only [Fintype.card_fin]
  rw [Fin.prod_univ_eq_prod_range (fun k => k + 1) n, Finset.prod_range_add_one_eq_factorial]

/-- The draws that a permutation takes are exactly one. -/
theorem source_bijective : Function.Bijective (source : Draws n → Equiv.Perm (Fin n)) := by
  refine (Fintype.bijective_iff_injective_and_card _).mpr ⟨source_injective, ?_⟩
  rw [card_draws, Fintype.card_perm, Fintype.card_fin]

/-- Draws can be counted by their permutations. -/
theorem card_draws_filter (P : Equiv.Perm (Fin n) → Prop) [DecidablePred P] :
    (Finset.univ.filter fun draws : Draws n => P (source draws)).card =
      (Finset.univ.filter P).card :=
  Finset.card_equiv (Equiv.ofBijective source source_bijective) fun draws => by simp

/-! ## Counting permutations -/

section Counting

variable {ι : Type} [Fintype ι] [DecidableEq ι]

/-- The permutations that do as prescribed on some of the elements permute the others. -/
theorem card_perm_extending (p : ι → Prop) [DecidablePred p] (f : {k // p k} ↪ ι) :
    (Finset.univ.filter fun σ : Equiv.Perm ι => ∀ k, σ k.1 = f k).card =
      (Fintype.card {k // ¬ p k})! := by
  classical
  -- one such permutation turns all others into permutations that fix these elements
  let π : Equiv.Perm ι := (Equiv.ofInjective f f.injective).extendSubtype
  have hπ : ∀ k, π k.1 = f k := fun k => by
    rw [Equiv.extendSubtype_apply_of_mem _ k.1 k.2, Equiv.ofInjective_apply]
  have hfix : ∀ σ : Equiv.Perm ι, (∀ a, ¬¬ p a → σ a = a) ↔ ∀ k, (π * σ) k.1 = f k := by
    intro σ
    simp only [not_not, Subtype.forall, ← hπ, Equiv.Perm.mul_apply, π.injective.eq_iff]
  rw [← Fintype.card_perm, Fintype.card_congr (Equiv.Perm.subtypeEquivSubtypePerm _),
    Fintype.card_subtype]
  refine (Finset.card_equiv (Equiv.mulLeft π) fun σ => ?_).symm
  simp only [Finset.mem_filter, Finset.mem_univ, true_and, hfix]
  rfl

/-- Every element comes from every other one equally often. -/
theorem card_perm_apply_eq (k i : ι) :
    (Finset.univ.filter fun σ : Equiv.Perm ι => σ k = i).card = (Fintype.card ι - 1)! := by
  have hcard := card_perm_extending (· = k)
    ⟨fun _ => i, fun a b _ => Subtype.ext (a.2.trans b.2.symm)⟩
  rw [Fintype.card_subtype_compl, Fintype.card_subtype_eq] at hcard
  rw [← hcard]
  congr 1
  ext σ
  simp only [Finset.mem_filter, Finset.mem_univ, true_and, Subtype.forall]
  exact ⟨fun h a ha => ha ▸ h, fun h => h k rfl⟩

end Counting

end EasyTrade.Shuffle

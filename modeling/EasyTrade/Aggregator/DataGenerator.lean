import EasyTrade.Core.PrefixSums

/-!
# Packages of fake signups

A fake signup asks for a package that is drawn with the probabilities of its platform.
`rand.Float32` is a draw from `[0, 1)`, and the arithmetic is exact.
-/

namespace EasyTrade.Aggregator

open EasyTrade.PrefixSums

section Code

variable {T K : Type*} [Field K] [LinearOrder K]

/-- The first loop of `getRandomValueWithProbability`. -/
def sumOf (probabilities : List K) : K := probabilities.foldl (· + ·) 0

/-- Its second loop, with `sum` and `resultId` as they are before an iteration. -/
def findResultId (random : K) : (probabilities : List K) → (sum : K) → (resultId : ℕ) → ℕ
  | [], _, resultId => resultId
  | p :: probabilities, sum, resultId =>
      if sum + p ≥ random then resultId
      else findResultId random probabilities (sum + p) (resultId + 1)

/-- The index of the element that is returned. -/
def resultId (probabilities : List K) (draw : K) : ℕ :=
  findResultId (draw * sumOf probabilities) probabilities 0 0

/-- `none`: the index is out of range. -/
def getRandomValueWithProbability (elements : List T) (probabilities : List K) (draw : K) :
    Option T :=
  elements[resultId probabilities draw]?

inductive OfferPackage
  | starterPackage
  | lightPackage
  | proPackage
  deriving DecidableEq, Repr

structure PackageProbability (K : Type*) where
  starter : K
  light : K
  pro : K

/-- The `elements` of `getRandomPackage`. -/
def packages : List OfferPackage := [.starterPackage, .lightPackage, .proPackage]

/-- Its `probabilities`. -/
def PackageProbability.probabilities (packageProb : PackageProbability K) : List K :=
  [packageProb.starter, packageProb.light, packageProb.pro]

def getRandomPackage (packageProb : PackageProbability K) (draw : K) : Option OfferPackage :=
  getRandomValueWithProbability packages packageProb.probabilities draw

end Code

/-! ## The element that is returned -/

section Choice

variable {T K : Type*} [Field K] [LinearOrder K]
variable {elements : List T} {probabilities : List K} {draw : K} {i : ℕ}

omit [LinearOrder K] in
theorem sumOf_eq (probabilities : List K) : sumOf probabilities = probabilities.sum :=
  List.sum_eq_foldl.symm

theorem findResultId_eq (random : K) (probabilities : List K) (sum : K) (n : ℕ) :
    findResultId random probabilities sum n = n + firstReaching random probabilities sum := by
  induction probabilities generalizing sum n with
  | nil => rfl
  | cons p probabilities ih =>
      rw [findResultId, firstReaching]
      split_ifs
      · rfl
      · rw [ih, Nat.add_assoc, Nat.add_comm 1]

theorem resultId_eq (probabilities : List K) (draw : K) :
    resultId probabilities draw = firstReaching (draw * probabilities.sum) probabilities 0 := by
  rw [resultId, findResultId_eq, Nat.zero_add, sumOf_eq]

variable [IsStrictOrderedRing K]

/-- An index is the result for the draws between two quotients of prefix sums, the lower
one excluded but for the first index. -/
theorem resultId_eq_iff (hnonneg : ∀ p ∈ probabilities, 0 ≤ p) (hsum : 0 < probabilities.sum)
    (hi : i < probabilities.length) :
    resultId probabilities draw = i ↔
      draw ≤ sumTo probabilities (i + 1) / probabilities.sum ∧
        (i = 0 ∨ sumTo probabilities i / probabilities.sum < draw) := by
  rw [resultId_eq, firstReaching_eq_iff hnonneg hi, zero_add, zero_add, le_div_iff₀ hsum,
    div_lt_iff₀ hsum]

theorem resultId_lt (hsum : 0 < probabilities.sum) (hdraw : draw < 1) :
    resultId probabilities draw < probabilities.length := by
  have hne : probabilities ≠ [] := fun hnil => by
    rw [hnil, List.sum_nil] at hsum
    exact lt_irrefl 0 hsum
  rw [resultId_eq]
  refine firstReaching_lt hne ?_
  calc draw * probabilities.sum ≤ 1 * probabilities.sum :=
        mul_le_mul_of_nonneg_right hdraw.le hsum.le
    _ = 0 + probabilities.sum := by rw [one_mul, zero_add]

/-- The draws for which an index is the result. -/
def drawsOf (probabilities : List K) (i : ℕ) : Set K :=
  {draw | 0 ≤ draw ∧ draw < 1 ∧ resultId probabilities draw = i}

theorem isInterval_drawsOf (hnonneg : ∀ p ∈ probabilities, 0 ≤ p)
    (hsum : 0 < probabilities.sum) (hi : i < probabilities.length) :
    IsInterval (drawsOf probabilities i) (probabilities[i] / probabilities.sum) := by
  have hp : 0 ≤ probabilities[i] := hnonneg _ (List.getElem_mem hi)
  have hbefore : 0 ≤ sumTo probabilities i / probabilities.sum :=
    div_nonneg (sumTo_nonneg hnonneg i) hsum.le
  have hafter : sumTo probabilities (i + 1) / probabilities.sum ≤ 1 :=
    (div_le_one hsum).mpr (sumTo_le_sum hnonneg (i + 1))
  have hlength : sumTo probabilities (i + 1) / probabilities.sum -
      sumTo probabilities i / probabilities.sum = probabilities[i] / probabilities.sum := by
    rw [← sub_div, sumTo_succ hi, add_sub_cancel_left]
  refine ⟨sumTo probabilities i / probabilities.sum,
    sumTo probabilities (i + 1) / probabilities.sum, ?_, hlength, fun draw hdraw => ?_,
    fun draw hdraw => ?_⟩
  · rw [← sub_nonneg, hlength]
    exact div_nonneg hp hsum.le
  · exact ⟨hbefore.trans hdraw.1.le, hdraw.2.trans_le hafter,
      (resultId_eq_iff hnonneg hsum hi).mpr ⟨hdraw.2.le, Or.inr hdraw.1⟩⟩
  · obtain ⟨hlow, -, hresult⟩ := hdraw
    obtain ⟨hhigh, hfirst⟩ := (resultId_eq_iff hnonneg hsum hi).mp hresult
    refine ⟨?_, hhigh⟩
    rcases hfirst with rfl | habove
    · rw [sumTo_zero, zero_div]
      exact hlow
    · exact habove.le

/-- The probability of each index, for a draw that is uniform. -/
theorem volume_drawsOf {probabilities : List ℝ} (hnonneg : ∀ p ∈ probabilities, 0 ≤ p)
    (hsum : 0 < probabilities.sum) (hi : i < probabilities.length) :
    MeasureTheory.volume (drawsOf probabilities i) =
      ENNReal.ofReal (probabilities[i] / probabilities.sum) :=
  (isInterval_drawsOf hnonneg hsum hi).volume

/-- A draw that is not `0` never returns an element whose probability is `0`. -/
theorem pos_of_resultId (hnonneg : ∀ p ∈ probabilities, 0 ≤ p) (hsum : 0 < probabilities.sum)
    (hi : i < probabilities.length) (hresult : resultId probabilities draw = i)
    (hdraw : 0 < draw) : 0 < probabilities[i] := by
  obtain ⟨hhigh, hfirst⟩ := (resultId_eq_iff hnonneg hsum hi).mp hresult
  have hless : sumTo probabilities i / probabilities.sum < draw := by
    rcases hfirst with rfl | habove
    · rwa [sumTo_zero, zero_div]
    · exact habove
  have hlt := (div_lt_div_iff_of_pos_right hsum).mp (hless.trans_le hhigh)
  rw [sumTo_succ hi] at hlt
  exact pos_of_lt_add_right hlt

/-- The draw `0` returns the first element, whatever its probability is. -/
theorem resultId_zero (hnonneg : ∀ p ∈ probabilities, 0 ≤ p) (hsum : 0 < probabilities.sum) :
    resultId probabilities 0 = 0 := by
  have hlength : 0 < probabilities.length := by
    refine List.length_pos_of_ne_nil fun hnil => ?_
    rw [hnil, List.sum_nil] at hsum
    exact lt_irrefl 0 hsum
  exact (resultId_eq_iff hnonneg hsum hlength).mpr
    ⟨div_nonneg (sumTo_nonneg hnonneg 1) hsum.le, Or.inl rfl⟩

/-- What a weighted choice promises: the index is in range, the probability of the
element is positive, and each element is returned for an interval of draws that is as long
as its share of the probabilities. -/
structure RespectsWeights (elements : List T) (probabilities : List K) (draw : K) : Prop where
  inRange : (getRandomValueWithProbability elements probabilities draw).isSome = true
  positive : ∃ p, probabilities[resultId probabilities draw]? = some p ∧ 0 < p
  shares : ∀ (i : ℕ) (hi : i < probabilities.length),
    IsInterval (drawsOf probabilities i) (probabilities[i] / sumOf probabilities)

/-- A choice respects its weights but for the draw `0`, which returns the first element
even if its probability is `0`. -/
theorem respectsWeights_iff (hlength : probabilities.length = elements.length)
    (hnonneg : ∀ p ∈ probabilities, 0 ≤ p) (hsum : 0 < sumOf probabilities) (hlow : 0 ≤ draw)
    (hhigh : draw < 1) :
    RespectsWeights elements probabilities draw ↔
      (draw = 0 → ∀ p ∈ probabilities.head?, 0 < p) := by
  rw [sumOf_eq] at hsum
  have hlt := resultId_lt hsum hhigh
  constructor
  · rintro hrespects rfl first hfirst
    obtain ⟨p, hp, hpos⟩ := hrespects.positive
    rw [resultId_zero hnonneg hsum, ← List.head?_eq_getElem?] at hp
    exact Option.some.inj (hfirst.symm.trans hp) ▸ hpos
  · intro hfirst
    refine ⟨?_, ⟨_, List.getElem?_eq_getElem hlt, ?_⟩, fun i hi => ?_⟩
    · rw [getRandomValueWithProbability, List.getElem?_eq_getElem (hlength ▸ hlt)]
      rfl
    · rcases hlow.eq_or_lt with rfl | hpos
      · refine hfirst rfl _ ?_
        rw [List.head?_eq_getElem?, ← resultId_zero hnonneg hsum]
        exact List.getElem?_eq_getElem hlt
      · exact pos_of_resultId hnonneg hsum hlt rfl hpos
    · rw [sumOf_eq]
      exact isInterval_drawsOf hnonneg hsum hi

end Choice

namespace Sample

/-- The packages of Stratton-oakmount.com. -/
def withoutStarter : PackageProbability ℚ := ⟨0, 1 / 10, 9 / 10⟩

end Sample

/-- Most of the draws belong to the package whose probability is 9/10. -/
theorem respectsWeights_half :
    getRandomPackage Sample.withoutStarter (1 / 2) = some .proPackage ∧
    RespectsWeights packages Sample.withoutStarter.probabilities (1 / 2) := by
  refine ⟨by decide +kernel, (respectsWeights_iff ?_ ?_ ?_ ?_ ?_).mpr fun hzero => ?_⟩
  · rfl
  · decide +kernel
  · decide +kernel
  · decide +kernel
  · decide +kernel
  · exact absurd hzero (by decide +kernel)

/-- Nobody is to ask for the starter package, and the draw `0` asks for it. -/
theorem starter_drawn :
    (∀ p ∈ Sample.withoutStarter.probabilities, 0 ≤ p) ∧
    0 < sumOf Sample.withoutStarter.probabilities ∧
    getRandomPackage Sample.withoutStarter 0 = some .starterPackage ∧
    ¬RespectsWeights packages Sample.withoutStarter.probabilities 0 := by
  refine ⟨by decide +kernel, by decide +kernel, by decide +kernel, fun hrespects => ?_⟩
  obtain ⟨p, hp, hpos⟩ := hrespects.positive
  have hfirst : Sample.withoutStarter.probabilities[resultId
      Sample.withoutStarter.probabilities 0]? = some 0 := by
    decide +kernel
  rw [Option.some.inj (hp.symm.trans hfirst)] at hpos
  exact lt_irrefl 0 hpos

end EasyTrade.Aggregator

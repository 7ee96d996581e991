import Mathlib

/-!
# What the load generator orders

The visits that schedule long trades compute price and amount of the order from what the page
shows: one pair of formulas for a trade that succeeds, one for a trade that fails, and one for
a trade whose price is never reached.  Numbers are rational, so arithmetic is exact.
-/

namespace EasyTrade.LoadGenerator

/-- The library function `randomBetween`, of which nothing but its range is known. -/
structure RandomBetween where
  value : ℚ → ℚ → ℚ
  mem_uIcc : ∀ a b, value a b ∈ Set.uIcc a b

namespace RandomBetween

/-- The number that is always the second argument. -/
def second : RandomBetween := ⟨fun _ b => b, fun _ _ => Set.right_mem_uIcc⟩

/-- A number between one and something that is at least one is rounded down to a positive
number that is not larger. -/
theorem one_le_floor (randomBetween : RandomBetween) {bound : ℚ} (hbound : 1 ≤ bound) :
    1 ≤ ⌊randomBetween.value 1 bound⌋ ∧ (⌊randomBetween.value 1 bound⌋ : ℚ) ≤ bound ∧
      ⌊randomBetween.value 1 bound⌋ ≤ ⌊bound⌋ := by
  have hmem := randomBetween.mem_uIcc 1 bound
  rw [Set.uIcc_of_le hbound, Set.mem_Icc] at hmem
  have hone : ((1 : ℤ) : ℚ) ≤ randomBetween.value 1 bound := by
    rw [Int.cast_one]
    exact hmem.1
  exact ⟨Int.le_floor.mpr hone, (Int.floor_le _).trans hmem.2, Int.floor_mono hmem.2⟩

end RandomBetween

/-! ## Long buys -/

structure BuyOptions where
  balance : ℚ
  askPrice : ℚ
  maxCost : ℚ

structure BuyResult where
  price : ℚ
  amount : ℚ

/-- Above the price that is asked, and for at most the money that is to be spent. -/
def successBuyCalculator (randomBetween : RandomBetween) (options : BuyOptions) : BuyResult :=
  let price := options.askPrice * 1.1
  let amount := ⌊randomBetween.value 1 (options.maxCost / price)⌋
  ⟨price, amount⟩

/-- A hundredth of the price that is asked. -/
def timeoutBuyCalculator (randomBetween : RandomBetween) (options : BuyOptions) : BuyResult :=
  let price := options.askPrice * 0.01
  let amount := ⌊randomBetween.value 1 (options.maxCost / price)⌋
  ⟨price, amount⟩

/-- Three tenths of the balance, often enough to exceed it. -/
def errorBuyCalculator (options : BuyOptions) : BuyResult :=
  let proportion : ℚ := 0.3
  let price := max options.balance options.askPrice * proportion
  let amount := ⌈2 / proportion⌉
  ⟨price, amount⟩

/-- Whatever the balance, the amount is the same. -/
theorem amount_errorBuyCalculator (options : BuyOptions) :
    (errorBuyCalculator options).amount = 7 := by
  have hceil : ⌈(2 : ℚ) / 0.3⌉ = 7 := by norm_num [Int.ceil_eq_iff]
  calc (errorBuyCalculator options).amount = (⌈(2 : ℚ) / 0.3⌉ : ℚ) := rfl
    _ = 7 := by rw [hceil]; rfl

/-! ## Long sells -/

structure SellOptions where
  askPrice : ℚ
  ownedAmount : ℚ
  ratio : ℚ

structure SellResult where
  price : ℚ
  amount : ℚ

/-- Below the price that is asked, and some of what is owned. -/
def successSellCalculator (randomBetween : RandomBetween) (options : SellOptions) : SellResult where
  price := options.askPrice * 0.9
  amount := ⌊randomBetween.value 1 (options.ownedAmount * options.ratio)⌋

def timeoutSellCalculator (randomBetween : RandomBetween) (options : SellOptions) : SellResult where
  price := options.askPrice * 100
  amount := ⌊randomBetween.value 1 (options.ownedAmount * options.ratio)⌋

/-- More than is owned. -/
def errorSellCalculator (options : SellOptions) : SellResult where
  price := options.askPrice * 0.9
  amount := options.ownedAmount * 10

end EasyTrade.LoadGenerator

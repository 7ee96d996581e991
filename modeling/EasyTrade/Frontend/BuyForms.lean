import EasyTrade.Broker.Entities

/-!
# The buy forms of the frontend

The form for a quick buy compares its total with the balance before it sends anything.  The
form for a long buy can fill itself in for a trade that succeeds, fails or times out.
-/

namespace EasyTrade.Frontend

open Broker

namespace QuickBuyForm

/-- The fields of the form. -/
structure FormData where
  amount : ℚ
  price : ℚ
  currentBalance : ℚ
  total : ℚ
  deriving DecidableEq

/-- What the form refuses before it sends anything. -/
def formSchema (data : FormData) : Bool :=
  0 < data.amount ∧ 0 < data.price ∧ data.amount * data.price ≤ data.currentBalance

/-- The form when the user has entered an amount; the other fields are read-only. -/
def values (price : Price) (balance : Option Balance) (amount : ℚ) : FormData where
  amount := amount
  price := price.closePrice
  currentBalance := (balance.map Balance.value).getD 0
  total := amount * price.closePrice

def accepts (price : Price) (balance : Option Balance) (amount : ℚ) : Bool :=
  formSchema (values price balance amount)

/-- With an amount and a price there is only the balance to check; the fee is not in the total. -/
theorem accepts_iff {price : Price} {balance : Balance} {amount : ℚ} (hamount : 0 < amount)
    (hprice : 0 < price.closePrice) :
    accepts price (some balance) amount = true ↔ amount * price.closePrice ≤ balance.value := by
  simp only [accepts, formSchema, values, Option.map_some, Option.getD_some, decide_eq_true_eq,
    hamount, hprice, true_and]

end QuickBuyForm

namespace BuyForm

structure Values where
  amount : ℤ
  price : ℚ
  time : ℤ
  deriving DecidableEq

/-- As many as the balance pays for, without the fee. -/
def setSuccessTransaction (availableBalance : Option ℚ) (price : ℚ) : Values :=
  ⟨⌊availableBalance.getD price / price⌋, price, 1⟩

/-- One more than the balance can pay for. -/
def setFailTransaction (availableBalance : Option ℚ) (price : ℚ) : Values :=
  ⟨⌈availableBalance.getD 1000000 / price⌉ + 1, price, 1⟩

/-- At a price that nobody sells for. -/
def setTimeoutTransaction (availableBalance : Option ℚ) (price : ℚ) : Values :=
  ⟨⌊availableBalance.getD price / price⌋, price / 1000, 1⟩

/-- The balance and the price that the form gives to its autofill button. -/
def availableBalance (balance : Option Balance) : Option ℚ :=
  some ((balance.map Balance.value).getD 0)

def success (price : Price) (balance : Option Balance) : Values :=
  setSuccessTransaction (availableBalance balance) price.closePrice

def fail (price : Price) (balance : Option Balance) : Values :=
  setFailTransaction (availableBalance balance) price.closePrice

theorem success_eq (price : Price) (balance : Balance) :
    success price (some balance) = ⟨⌊balance.value / price.closePrice⌋, price.closePrice, 1⟩ := rfl

theorem fail_eq (price : Price) (balance : Balance) :
    fail price (some balance) = ⟨⌈balance.value / price.closePrice⌉ + 1, price.closePrice, 1⟩ := rfl

end BuyForm

/-! ## What the autofilled amounts cost -/

section Cost

variable {balance price fee : ℚ}

/-- Buying as often as the balance allows leaves the fractional part for the fee. -/
theorem floor_mul_add_le_iff (hprice : 0 < price) :
    (⌊balance / price⌋ : ℚ) * price + fee ≤ balance ↔
      fee ≤ Int.fract (balance / price) * price := by
  have hsplit : balance =
      (⌊balance / price⌋ : ℚ) * price + Int.fract (balance / price) * price := by
    calc balance = balance / price * price := (div_mul_cancel₀ balance hprice.ne').symm
      _ = ((⌊balance / price⌋ : ℚ) + Int.fract (balance / price)) * price := by
          rw [Int.floor_add_fract]
      _ = (⌊balance / price⌋ : ℚ) * price + Int.fract (balance / price) * price := add_mul _ _ _
  constructor
  · intro hle
    linarith
  · intro hle
    linarith

/-- One more than the balance pays for is too expensive at any fee. -/
theorem lt_ceil_mul_add (hprice : 0 < price) (hfee : 0 ≤ fee) :
    balance < ((⌈balance / price⌉ + 1 : ℤ) : ℚ) * price + fee := by
  have hceil : balance / price ≤ (⌈balance / price⌉ : ℚ) := Int.le_ceil _
  have hcost : balance ≤ (⌈balance / price⌉ : ℚ) * price := (div_le_iff₀ hprice).mp hceil
  push_cast
  linarith

end Cost

end EasyTrade.Frontend

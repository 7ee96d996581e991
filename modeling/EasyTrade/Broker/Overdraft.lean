import EasyTrade.Broker.TradeLog

/-!
# Overdrawn accounts

Withdrawals and buys check that the account can pay, the fee included.  A sell
checks that the instruments are there, but not that balance and income cover the
fee, so a seller can be overdrawn by the fee.  Accounts stay out of debt as long
as every sell that is executed covers it.
-/

namespace EasyTrade.Broker

/-- Nobody owes anything, and no fee is negative. -/
structure Database.Solvent (database : Database) : Prop where
  balances : ∀ accountId value, database.balanceOf accountId = some value → 0 ≤ value
  fees : ∀ product ∈ database.products.rows, 0 ≤ product.ppt

/-- Balance and income pay for the fee.  The owner pays it to itself. -/
def CoversFee (balance : Option ℚ) (accountId : ℤ) (income ppt : ℚ) : Prop :=
  ∀ value, balance = some value → accountId ≠ ownerId ∧ ppt ≤ value + income ∨
    accountId = ownerId ∧ 0 ≤ value + income

/-- A sell covers its fee. -/
def Event.Covered : Event → Database → Prop
  | executed trade settlement, database | filled trade settlement, database =>
      settlement.direction = .sell ∨ settlement.direction = .longSell →
        CoversFee (database.balanceOf trade.accountId) trade.accountId
          (trade.quantity * trade.entryPrice) settlement.ppt
  | _, _ => True

section Settle

variable {database : Database} {trade : Trade} {settlement : Settlement}

theorem ppt_nonneg (hsolvent : database.Solvent) {instrumentId : ℤ} {ppt : ℚ}
    (hppt : database.pptOf instrumentId = some ppt) : 0 ≤ ppt := by
  simp only [Database.pptOf, Option.bind_eq_bind, Option.bind_eq_some_iff] at hppt
  obtain ⟨instrument, -, product, hproduct, hppt⟩ := hppt
  cases hppt
  exact hsolvent.fees product (Table.mem_of_find? hproduct)

/-- What is left to the trader: a buyer has been checked, a seller is covered. -/
theorem Settleable.trader_nonneg (hsettleable : Settleable database trade settlement)
    (htrades : settlement.Trades) (hsolvent : database.Solvent)
    (hcovered : settlement.direction = .sell ∨ settlement.direction = .longSell →
      CoversFee (database.balanceOf trade.accountId) trade.accountId
        (trade.quantity * trade.entryPrice) settlement.ppt)
    {value : ℚ} (hvalue : database.balanceOf trade.accountId = some value) :
    0 ≤ value + settlement.balanceChange trade trade.accountId := by
  have hppt := ppt_nonneg hsolvent hsettleable.fee
  rw [Settlement.balanceChange, if_pos rfl, Settlement.income, TradeServiceBase.incomeOf]
  by_cases hsell : settlement.direction = .sell ∨ settlement.direction = .longSell
  · rw [if_pos hsell]
    rcases hcovered hsell value hvalue with ⟨howner, hcover⟩ | ⟨howner, hcover⟩
    · rw [if_neg howner]
      linarith
    · rw [if_pos howner]
      linarith
  · have hbuy : settlement.direction = .buy ∨ settlement.direction = .longBuy := by
      rcases htrades with h | h | h | h <;> simp [h] at hsell ⊢
    obtain ⟨enough, henough, hcost⟩ := hsettleable.affordable hbuy
    obtain rfl : enough = value := Option.some.inj (henough.symm.trans hvalue)
    rw [if_neg hsell]
    split_ifs <;> linarith

theorem Settleable.solvent (hsettleable : Settleable database trade settlement)
    (htrades : settlement.Trades) (hsolvent : database.Solvent)
    (hcovered : settlement.direction = .sell ∨ settlement.direction = .longSell →
      CoversFee (database.balanceOf trade.accountId) trade.accountId
        (trade.quantity * trade.entryPrice) settlement.ppt) :
    (database.settle trade settlement).Solvent := by
  refine ⟨fun accountId value hvalue => ?_, by simpa using hsolvent.fees⟩
  rw [balanceOf_settle, Option.map_eq_some_iff] at hvalue
  obtain ⟨before, hbefore, rfl⟩ := hvalue
  by_cases haccount : accountId = trade.accountId
  · subst haccount
    exact hsettleable.trader_nonneg htrades hsolvent hcovered hbefore
  · have hpositive := hsolvent.balances accountId before hbefore
    have hppt := ppt_nonneg hsolvent hsettleable.fee
    rw [Settlement.balanceChange, if_neg haccount]
    split_ifs <;> linarith

end Settle

section Events

variable {database : Database} {event : Event}

theorem Database.Solvent.post_nonneg (hsolvent : database.Solvent) {accountId : ℤ}
    {change : ℚ} {actionType : ActionType} {now : DateTime}
    (hchange : ∀ value, database.balanceOf accountId = some value → 0 ≤ value + change) :
    (database.post accountId change actionType now).Solvent := by
  refine ⟨fun other value hvalue => ?_, by simpa using hsolvent.fees⟩
  rw [balanceOf_post, Option.map_eq_some_iff] at hvalue
  obtain ⟨before, hbefore, rfl⟩ := hvalue
  by_cases hother : other = accountId
  · subst hother
    rw [if_pos rfl]
    exact hchange before hbefore
  · rw [if_neg hother, add_zero]
    exact hsolvent.balances other before hbefore

theorem Database.Solvent.apply (hsolvent : database.Solvent)
    (hallowed : event.Allowed database) (hcovered : event.Covered database) :
    (event.apply database).Solvent := by
  cases event with
  | deposited accountId amount date =>
      refine hsolvent.post_nonneg fun value hvalue => ?_
      have hpositive := hsolvent.balances accountId value hvalue
      linarith [hallowed.1]
  | withdrawn accountId amount date =>
      refine hsolvent.post_nonneg fun value hvalue => ?_
      obtain ⟨-, enough, henough, hle⟩ := hallowed
      obtain rfl : enough = value := Option.some.inj (henough.symm.trans hvalue)
      linarith
  | registered | rejected => exact ⟨hsolvent.balances, hsolvent.fees⟩
  | executed trade settlement =>
      obtain ⟨hsettleable, htrades⟩ := settleable_of_executed hallowed
      have hsettled := hsettleable.solvent htrades hsolvent hcovered
      exact ⟨hsettled.balances, hsettled.fees⟩
  | filled trade settlement =>
      obtain ⟨hsettleable, htrades⟩ := settleable_of_filled hallowed
      have hsettled := hsettleable.solvent htrades hsolvent hcovered
      exact ⟨hsettled.balances, hsettled.fees⟩

end Events

/-! ## The condition on requests -/

/-- The sell that a decision executes covers its fee. -/
def Books.Covers (books : Books) (trade : Trade) : Decision → Prop
  | .fill .longSell ppt => CoversFee (books.balance trade.accountId) trade.accountId
      (trade.quantity * trade.entryPrice) ppt
  | _ => True

section Requests

variable {environment : Environment} {operation : Operation} {shared shared' : Shared}

end Requests

namespace Sample

end Sample

end EasyTrade.Broker

import EasyTrade.Core.Rounding
import EasyTrade.Broker.LedgerIntegrity

/-!
# The balance history as it is stored

A request computes with decimals of any scale, but every decimal column keeps eight
decimals.  The old value, the change and the new balance of a posting are rounded each on
its own, so the stored rows still explain the stored balance exactly when nothing is lost
by rounding before adding.
-/

namespace EasyTrade.Broker

open Rounding

/-! ## Decimal columns -/

/-- `SetScale(8)`: the unit in the last place of every decimal column. -/
def decimalUnit : ℚ := 1 / 10 ^ 8

theorem decimalUnit_pos : 0 < decimalUnit := by
  rw [decimalUnit]
  positivity

/-- A decimal as its column stores it. -/
def storedDecimal (x : ℚ) : ℚ := roundTo decimalUnit x

@[simp]
theorem storedDecimal_storedDecimal (x : ℚ) :
    storedDecimal (storedDecimal x) = storedDecimal x :=
  roundTo_roundTo decimalUnit_pos x

def Balance.stored (row : Balance) : Balance :=
  { row with value := storedDecimal row.value }

theorem Balance.accountId_stored (row : Balance) : row.stored.accountId = row.accountId := rfl

def BalanceHistory.stored (row : BalanceHistory) : BalanceHistory :=
  { row with
    oldValue := storedDecimal row.oldValue
    valueChange := storedDecimal row.valueChange }

def OwnedInstrument.stored (row : OwnedInstrument) : OwnedInstrument :=
  { row with quantity := storedDecimal row.quantity }

theorem OwnedInstrument.id_stored (row : OwnedInstrument) : row.stored.id = row.id := rfl

def Trade.stored (row : Trade) : Trade :=
  { row with
    quantity := storedDecimal row.quantity
    entryPrice := storedDecimal row.entryPrice }

theorem Trade.id_stored (row : Trade) : row.stored.id = row.id := rfl

def Product.stored (row : Product) : Product :=
  { row with ppt := storedDecimal row.ppt }

theorem Product.id_stored (row : Product) : row.stored.id = row.id := rfl

/-- What the database keeps of the rows that were sent to it. -/
def Database.stored (database : Database) : Database where
  balances := database.balances.map Balance.stored Balance.accountId_stored
  balanceHistories := database.balanceHistories.map BalanceHistory.stored
  ownedInstruments :=
    database.ownedInstruments.map OwnedInstrument.stored OwnedInstrument.id_stored
  trades := database.trades.map Trade.stored Trade.id_stored
  instruments := database.instruments
  products := database.products.map Product.stored Product.id_stored

deriving instance DecidableEq for Database

def Shared.stored (shared : Shared) : Shared :=
  { shared with database := shared.database.stored }

section Stored

variable (database : Database)

theorem balanceOf_stored (accountId : ℤ) :
    database.stored.balanceOf accountId = (database.balanceOf accountId).map storedDecimal := by
  have hfind : database.stored.balances.find? accountId =
      (database.balances.find? accountId).map Balance.stored :=
    Table.find?_map Balance.accountId_stored database.balances accountId
  rw [Database.balanceOf, hfind, Option.map_map, Database.balanceOf, Option.map_map]
  rfl

/-- Reading and storing again changes nothing. -/
theorem stored_stored : database.stored.stored = database.stored := by
  have hhistory : BalanceHistory.stored ∘ BalanceHistory.stored = BalanceHistory.stored := by
    funext row
    simp [BalanceHistory.stored]
  simp only [Database.stored, List.map_map, hhistory]
  rw [Table.map_map_of_idem, Table.map_map_of_idem, Table.map_map_of_idem,
    Table.map_map_of_idem]
  · simp [Product.stored]
  · simp [Trade.stored]
  · simp [OwnedInstrument.stored]
  · simp [Balance.stored]

theorem rewrites_stored : historyColumns.Rewrites storedDecimal BalanceHistory.stored where
  account _ := rfl
  oldValue _ := rfl
  change _ := rfl

end Stored

/-! ## Storing the postings of one request -/

section Posted

variable {initial : ℤ → Option ℚ} {start database : Database} {appended : List BalanceHistory}

theorem balanceOf_of_stored (hstored : database.stored = database) :
    database.balanceOf = fun accountId => (database.balanceOf accountId).map storedDecimal := by
  funext accountId
  rw [← balanceOf_stored, hstored]

/-- Rows that were stored before are not touched. -/
theorem Posted.stored_balanceHistories (hposted : Posted start database appended)
    (hstored : start.stored = start) :
    database.stored.balanceHistories =
      start.balanceHistories ++ appended.map BalanceHistory.stored := by
  have hearlier : start.balanceHistories.map BalanceHistory.stored = start.balanceHistories :=
    congrArg Database.balanceHistories hstored
  rw [Database.stored, hposted.1, List.map_append, hearlier]

/-- Storing the rows of a request keeps the ledger exactly when every old value rounds
together with its change. -/
theorem Posted.stored_iff (hposted : Posted start database appended)
    (hstored : start.stored = start)
    (hbefore : Ledger.Unbroken historyColumns initial start.balanceOf start.balanceHistories) :
    Ledger.Unbroken historyColumns initial database.stored.balanceOf
        database.stored.balanceHistories ↔
      ∀ row ∈ appended, RoundTogether decimalUnit row.oldValue row.valueChange := by
  rw [hposted.stored_balanceHistories hstored, hbefore.append_iff, balanceOf_of_stored hstored,
    funext (balanceOf_stored database), hposted.2.map_iff rewrites_stored]
  exact forall₂_congr fun row _ => roundTo_add_iff decimalUnit_pos

/-- A ledger that holds after a request has been stored has held before it. -/
theorem Posted.unbroken_of_stored (hposted : Posted start database appended)
    (hstored : start.stored = start)
    (hafter : Ledger.Unbroken historyColumns initial database.stored.balanceOf
      database.stored.balanceHistories) :
    Ledger.Unbroken historyColumns initial start.balanceOf start.balanceHistories := by
  rw [hposted.stored_balanceHistories hstored, funext (balanceOf_stored database)] at hafter
  rw [balanceOf_of_stored hstored]
  exact hposted.2.of_append_map rewrites_stored hafter

end Posted

/-- An old value in memory rounds together with its change, for each posting of a trade:
the income of the trader, the fee, and the fee for the owner, who may be the trader. -/
def Database.ChargeRounds (database : Database) (accountId : ℤ) (income ppt : ℚ) : Prop :=
  ∀ value ∈ database.balanceOf accountId, ∀ ownerValue ∈ database.balanceOf ownerId,
    RoundTogether decimalUnit value income ∧
      RoundTogether decimalUnit (value + income) (-ppt) ∧
        RoundTogether decimalUnit
          (if accountId = ownerId then value + income - ppt else ownerValue) ppt

instance (database : Database) (accountId : ℤ) (income ppt : ℚ) :
    Decidable (database.ChargeRounds accountId income ppt) :=
  inferInstanceAs (Decidable (∀ value ∈ database.balanceOf accountId,
    ∀ ownerValue ∈ database.balanceOf ownerId, _ ∧ _ ∧ _))

namespace Operation

/-- The operations that move money at once. -/
def isImmediate : Operation → Bool
  | deposit _ _ | withdraw _ _ | quickBuy _ _ _ | quickSell _ _ _ => true
  | longBuy _ _ _ _ _ | longSell _ _ _ _ _ | processLongRunningTransactions => false

/-- The balances in memory round together with what the operation posts to them. -/
def RoundsWell (environment : Environment) (database : Database) : Operation → Prop
  | deposit accountId amount =>
      ∀ value ∈ database.balanceOf accountId, RoundTogether decimalUnit value amount
  | withdraw accountId amount =>
      ∀ value ∈ database.balanceOf accountId, RoundTogether decimalUnit value (-amount)
  | quickBuy accountId instrumentId amount =>
      ∀ price ∈ (pricesOfResponse (environment.pricesByInstrumentId instrumentId 1)).head?,
        ∀ ppt ∈ database.pptOf instrumentId,
          database.ChargeRounds accountId (-(amount * price.openPrice)) ppt
  | quickSell accountId instrumentId amount =>
      ∀ price ∈ (pricesOfResponse (environment.pricesByInstrumentId instrumentId 1)).head?,
        ∀ ppt ∈ database.pptOf instrumentId,
          database.ChargeRounds accountId (amount * price.openPrice) ppt
  | _ => False

end Operation

section Postings

variable {environment : Environment} {database : Database}

/-- The rows of a settled trade. -/
theorem posted_settle {trade : Trade} {settlement : Settlement}
    (hsettleable : Settleable database trade settlement) :
    ∃ appended, Posted database (database.settle trade settlement) appended ∧
      ((∀ row ∈ appended, RoundTogether decimalUnit row.oldValue row.valueChange) ↔
        database.ChargeRounds trade.accountId (settlement.income trade) settlement.ppt) := by
  obtain ⟨balance, hbalance⟩ := find?_balances_of_mem hsettleable.trader
  obtain ⟨owner, howner⟩ := find?_balances_of_mem hsettleable.owner
  have hvalue : database.balanceOf trade.accountId = some balance.value :=
    TradeService.balanceOf_eq hbalance
  have hownerValue : database.balanceOf ownerId = some owner.value :=
    TradeService.balanceOf_eq howner
  have htrade := (Posted.refl database).post hvalue (settlement.income trade)
    settlement.direction settlement.tradeDate
  have hcredited : (database.post trade.accountId (settlement.income trade)
      settlement.direction settlement.tradeDate).balanceOf trade.accountId =
        some (balance.value + settlement.income trade) := by
    rw [balanceOf_post, hvalue, Option.map_some, if_pos rfl]
  have hfee := htrade.post hcredited (-settlement.ppt) .transactionFee settlement.feeDate
  have hcharged : ((database.post trade.accountId (settlement.income trade)
      settlement.direction settlement.tradeDate).post trade.accountId (-settlement.ppt)
        .transactionFee settlement.feeDate).balanceOf ownerId =
      some (if trade.accountId = ownerId then
        balance.value + settlement.income trade - settlement.ppt else owner.value) := by
    rw [balanceOf_post, balanceOf_post, hownerValue]
    by_cases hsame : trade.accountId = ownerId
    · rw [hsame] at hvalue
      have hequal : owner.value = balance.value :=
        Option.some.inj (hownerValue.symm.trans hvalue)
      simp [hsame, hequal, sub_eq_add_neg]
    · simp [hsame, Ne.symm hsame]
  have hcollect := hfee.post hcharged settlement.ppt .collectFee settlement.collectDate
  refine ⟨_, hcollect.hold _ _ _ _ _, ?_⟩
  simp [Database.ChargeRounds, hvalue, hownerValue, BalanceHistory.ofAction]

/-- The rows of a quick trade, at the price that the pricing service returns. -/
theorem posted_carries {accountId instrumentId : ℤ} {amount : ℚ} {direction : ActionType}
    {event : Event}
    (hcarries : TradeService.Carries environment accountId instrumentId amount direction event)
    (hallowed : event.Allowed database) :
    ∃ appended, Posted database (event.apply database) appended ∧
      ((∀ row ∈ appended, RoundTogether decimalUnit row.oldValue row.valueChange) ↔
        ∀ price ∈ (pricesOfResponse (environment.pricesByInstrumentId instrumentId 1)).head?,
          ∀ ppt ∈ database.pptOf instrumentId, database.ChargeRounds accountId
            (TradeServiceBase.incomeOf direction (amount * price.openPrice)) ppt) := by
  obtain ⟨price, id, opened, closed, settlement, hprice, rfl, rfl⟩ := hcarries
  obtain ⟨-, -, -, -, -, hsettleable⟩ := hallowed
  obtain ⟨appended, hposted, hrows⟩ := posted_settle hsettleable
  have hfee : database.pptOf instrumentId = some settlement.ppt := hsettleable.fee
  refine ⟨appended, hposted, hrows.trans ?_⟩
  simp [hprice, hfee, Settlement.income, Trade.quickTrade]

/-- What an immediate operation posts rounds together exactly when the operation rounds
well. -/
theorem posted_of_effects {operation : Operation} {clock : DateTime} {events : List Event}
    (himmediate : operation.isImmediate = true)
    (heffects : operation.Effects environment database clock events)
    (hpossible : Possible database events) :
    ∃ appended, Posted database (database.after events) appended ∧
      ((∀ row ∈ appended, RoundTogether decimalUnit row.oldValue row.valueChange) ↔
        operation.RoundsWell environment database) := by
  cases operation with
  | deposit accountId amount =>
      obtain ⟨date, rfl⟩ := heffects
      obtain ⟨⟨-, haccount⟩, -⟩ := hpossible
      obtain ⟨balance, hbalance⟩ := find?_balances_of_mem haccount
      have hvalue := TradeService.balanceOf_eq hbalance
      refine ⟨_, (Posted.refl database).post hvalue amount .deposit date, ?_⟩
      simp [Operation.RoundsWell, hvalue, BalanceHistory.ofAction]
  | withdraw accountId amount =>
      obtain ⟨date, rfl⟩ := heffects
      obtain ⟨⟨-, value, hvalue, -⟩, -⟩ := hpossible
      refine ⟨_, (Posted.refl database).post hvalue (-amount) .withdraw date, ?_⟩
      simp [Operation.RoundsWell, hvalue, BalanceHistory.ofAction]
  | quickBuy =>
      obtain ⟨event, rfl, hcarries⟩ := heffects
      have hposted := posted_carries hcarries hpossible.1
      simp only [TradeServiceBase.incomeOf, reduceCtorEq, or_self, if_false] at hposted
      exact hposted
  | quickSell =>
      obtain ⟨event, rfl, hcarries⟩ := heffects
      have hposted := posted_carries hcarries hpossible.1
      simp only [TradeServiceBase.incomeOf, true_or, if_true] at hposted
      exact hposted
  | longBuy | longSell | processLongRunningTransactions => cases himmediate

end Postings

/-! ## Runs over stored rows -/

/-- Immediate operations are served one at a time: each succeeds under the condition, and
the next one reads what the database has stored. -/
inductive StoredRuns (condition : Environment → Database → Operation → Prop)
    (start : Shared) : Shared → Prop
  | idle : StoredRuns condition start start
  | serve {environment : Environment} {operation : Operation} {middle final : Shared} :
      StoredRuns condition start middle →
      operation.isImmediate = true →
      condition environment middle.database operation →
      Serves environment operation middle (.ok ()) final →
      StoredRuns condition start final.stored

section StoredRuns

variable {initial : ℤ → Option ℚ} {environment : Environment} {operation : Operation}
variable {condition : Environment → Database → Operation → Prop} {start middle final : Shared}

theorem StoredRuns.stored (hruns : StoredRuns condition start final)
    (hstart : start.database.stored = start.database) :
    final.database.stored = final.database := by
  cases hruns with
  | idle => exact hstart
  | serve _ _ _ _ => exact stored_stored _

/-- What a served request has posted rounds together exactly when the request rounds
well. -/
theorem posted_of_serves (himmediate : operation.isImmediate = true)
    (hserves : Serves environment operation middle (.ok ()) final) :
    ∃ appended, Posted middle.database final.database appended ∧
      ((∀ row ∈ appended, RoundTogether decimalUnit row.oldValue row.valueChange) ↔
        operation.RoundsWell environment middle.database) := by
  obtain ⟨events, heffects, hpossible, hfinal, -, -⟩ := serves_ok hserves
  rw [hfinal]
  exact posted_of_effects himmediate heffects hpossible

/-- One request keeps the stored ledger exactly when it rounds well. -/
theorem served_unbroken_iff (himmediate : operation.isImmediate = true)
    (hserves : Serves environment operation middle (.ok ()) final)
    (hstored : middle.database.stored = middle.database)
    (hbefore : Ledger.Unbroken historyColumns initial middle.database.balanceOf
      middle.database.balanceHistories) :
    Ledger.Unbroken historyColumns initial final.stored.database.balanceOf
        final.stored.database.balanceHistories ↔
      operation.RoundsWell environment middle.database := by
  obtain ⟨appended, hposted, hrows⟩ := posted_of_serves himmediate hserves
  rw [← hrows]
  exact hposted.stored_iff hstored hbefore

/-- The stored rows explain the stored balances after every run whose requests round
well. -/
theorem StoredRuns.stored_unbroken (hruns : StoredRuns Operation.RoundsWell start final)
    (hstored : start.database.stored = start.database)
    (hstart : Ledger.Unbroken historyColumns initial start.database.balanceOf
      start.database.balanceHistories) :
    Ledger.Unbroken historyColumns initial final.database.balanceOf
      final.database.balanceHistories := by
  induction hruns with
  | idle => exact hstart
  | serve hearlier himmediate hrounds hserves ih =>
      exact (served_unbroken_iff himmediate hserves (hearlier.stored hstored) ih).mpr hrounds

/-- No later request mends the stored rows: where they explain the stored balances, every
request of the run has rounded well. -/
theorem StoredRuns.roundsWell (hruns : StoredRuns (fun _ _ _ => True) start final)
    (hstored : start.database.stored = start.database)
    (hfinal : Ledger.Unbroken historyColumns initial final.database.balanceOf
      final.database.balanceHistories) :
    StoredRuns Operation.RoundsWell start final := by
  induction hruns with
  | idle => exact StoredRuns.idle
  | serve hearlier himmediate _ hserves ih =>
      have hread := hearlier.stored hstored
      obtain ⟨appended, hposted, -⟩ := posted_of_serves himmediate hserves
      have hbefore := hposted.unbroken_of_stored hread hfinal
      have hrounds := (served_unbroken_iff himmediate hserves hread hbefore).mp hfinal
      exact (ih hbefore).serve himmediate hrounds hserves

/-- The trader buys at a price and a fee that have no more decimals than their columns. -/
theorem stored_unbroken_buy :
    ∃ final : Shared, final.database.balanceOf 2 = some 68 ∧
      Ledger.Unbroken historyColumns Sample.shared.database.balanceOf final.database.balanceOf
        final.database.balanceHistories := by
  obtain ⟨outcome, final, hcheck, hserves⟩ := exists_serves Sample.environment (.quickBuy 2 1 3)
    Sample.shared (List.replicate 60 (.work 100))
    (fun outcome final => outcome = .ok () ∧ final.stored.database.balanceOf 2 = some 68)
    (by decide +kernel)
  obtain ⟨rfl, hvalue⟩ := of_decide_eq_true hcheck
  have hrounds : (Operation.quickBuy 2 1 3).RoundsWell Sample.environment
      Sample.shared.database := by
    rw [Operation.RoundsWell]
    decide +kernel
  have hruns : StoredRuns Operation.RoundsWell Sample.shared final.stored :=
    StoredRuns.idle.serve rfl hrounds hserves
  exact ⟨final.stored, hvalue, hruns.stored_unbroken (by decide +kernel)
    (Ledger.Unbroken.refl _)⟩

/-- Half a unit is withdrawn: the balance is rounded up to what it was, the change to a
whole unit. -/
theorem withdraw_half_unit :
    ∃ start final : Shared, ∃ initial : ℤ → Option ℚ,
      start.database.stored = start.database ∧
        Ledger.Unbroken historyColumns initial start.database.balanceOf
          start.database.balanceHistories ∧
        StoredRuns (fun _ _ _ => True) start final ∧
          ¬Ledger.Unbroken historyColumns initial final.database.balanceOf
            final.database.balanceHistories := by
  obtain ⟨outcome, final, hcheck, hserves⟩ := exists_serves Sample.environment
    (.withdraw 2 (decimalUnit / 2)) Sample.shared (List.replicate 60 (.work 100))
    (fun outcome final => outcome = .ok () ∧ final.stored.database.balanceOf 2 = some 100 ∧
      final.stored.database.balanceHistories.map BalanceHistory.entry =
        [(2, -decimalUnit, "withdraw")])
    (by decide +kernel)
  obtain ⟨rfl, hvalue, hrows⟩ := of_decide_eq_true hcheck
  have hruns : StoredRuns (fun _ _ _ => True) Sample.shared final.stored :=
    StoredRuns.idle.serve rfl trivial hserves
  refine ⟨Sample.shared, final.stored, _, by decide +kernel, Ledger.Unbroken.refl _, hruns, ?_⟩
  intro hunbroken
  have hstart : Sample.shared.database.balanceOf 2 = some 100 := by decide +kernel
  have hbalance := hunbroken.balance_eq hstart
  obtain ⟨row, hrow, hentry⟩ := List.map_eq_singleton_iff.mp hrows
  simp only [BalanceHistory.entry, Prod.mk.injEq] at hentry
  obtain ⟨haccount, hchange, -⟩ := hentry
  have hmine : historyColumns.account row = 2 := haccount
  have hposted : historyColumns.change row = -decimalUnit := hchange
  have hzero : (100 : ℚ) = 100 + -decimalUnit := by
    simpa [hvalue, hrow, Ledger.rowsOf, hmine, hposted] using hbalance
  have hunit := decimalUnit_pos
  linarith

end StoredRuns

end EasyTrade.Broker

import EasyTrade.Broker.Portfolio

/-!
# The sell forms of the frontend

The forms start from the quantity and the price of the list of instruments.  The form for a
quick sell compares its amount with the quantity before it sends anything.  The form for a long
sell can fill itself in for a trade that succeeds, fails or times out.  A sell costs nothing
beforehand, so that, other than the buy forms, they agree with the broker as long as the list
is not out of date.
-/

namespace EasyTrade.Frontend

open Program Broker

namespace QuickSellForm

structure FormData where
  amount : ℚ
  price : ℚ
  possessedAmount : ℚ
  total : ℚ
  deriving DecidableEq

def formSchema (data : FormData) : Bool :=
  0 < data.amount ∧ 0 < data.price ∧ data.amount ≤ data.possessedAmount

/-- The form when the user has entered an amount; the other fields are read-only. -/
def values (instrument : InstrumentDTO) (amount : ℚ) : FormData where
  amount := amount
  price := instrument.price.closePrice
  possessedAmount := instrument.amount
  total := amount * instrument.price.closePrice

def accepts (instrument : InstrumentDTO) (amount : ℚ) : Bool :=
  formSchema (values instrument amount)

theorem accepts_iff {instrument : InstrumentDTO} {amount : ℚ} (hamount : 0 < amount)
    (hprice : 0 < instrument.price.closePrice) :
    accepts instrument amount = true ↔ amount ≤ instrument.amount := by
  simp only [accepts, formSchema, values, decide_eq_true_eq, hamount, hprice, true_and]

end QuickSellForm

namespace SellForm

structure Values where
  amount : ℚ
  price : ℚ
  time : ℤ
  deriving DecidableEq

def formSchema (values : Values) : Bool :=
  0 < values.amount ∧ 0 < values.price ∧ 1 ≤ values.time ∧ values.time ≤ 24

def setSuccessTransaction (price amount : ℚ) : Values := ⟨amount, price, 1⟩

def setFailTransaction (price amount : ℚ) : Values := ⟨amount + 1, price, 1⟩

def setTimeoutTransaction (price amount : ℚ) : Values := ⟨amount, price + 1000, 1⟩

def success (instrument : InstrumentDTO) : Values :=
  setSuccessTransaction instrument.price.closePrice instrument.amount

def fail (instrument : InstrumentDTO) : Values :=
  setFailTransaction instrument.price.closePrice instrument.amount

def timeout (instrument : InstrumentDTO) : Values :=
  setTimeoutTransaction instrument.price.closePrice instrument.amount

end SellForm

/-! ## What the list shows -/

/-- The list is not out of date: the instrument can be traded, and this is what the account
holds of it. -/
structure UpToDate (database : Database) (accountId : ℤ) (entry : InstrumentDTO) : Prop where
  listed : ∃ instrument product, database.instruments.find? entry.id = some instrument ∧
    database.products.find? instrument.productId = some product
  amount : entry.amount = (database.holdingOf accountId entry.id).getD 0

theorem upToDate_of_getInstruments {environment : Environment} {accountId : ℤ} {shared : Shared}
    {listed : List InstrumentDTO} {entry : InstrumentDTO} {world : World}
    (hexec : Exec (step environment) (InstrumentService.getInstruments accountId)
      (shared, DbContext.fresh) (.ok listed) world)
    (hentry : entry ∈ listed) : UpToDate world.1.database accountId entry := by
  obtain ⟨hsame, hlists⟩ := lists_of_getInstruments hexec
  obtain ⟨instrument, hinstrument, product, price, hproduct, -, rfl⟩ :=
    (hlists.entries entry).mp hentry
  rw [hsame]
  exact ⟨⟨instrument, product, Table.find?_key hinstrument, hproduct⟩, rfl⟩

/-! ## The quick sell -/

section QuickSell

variable {environment : Environment} {shared : Shared} {accountId instrumentId : ℤ} {amount : ℚ}
variable {instrument : Instrument} {product : Product} {price : Price}

theorem succeeds_checkFraud {accounts : List ℤ} (query : FraudQuery) :
    Succeeds environment accounts (TradeService.checkFraud environment query) := by
  unfold TradeService.checkFraud
  split_ifs
  · exact succeeds_issue _
  · exact succeeds_pure 0

/-- Once there is enough to sell, nothing stands in the way of the sale. -/
theorem succeeds_sale {accounts : List ℤ} (howner : ownerId ∈ accounts)
    {query : FraudQuery} {trade : DateTime → DateTime → Trade} {balance : Balance}
    {income amount : ℚ} {product : Product} {row : OwnedInstrument} :
    Succeeds environment accounts (do
      let _fraudScore ← TradeService.checkFraud environment query
      issue .beginTransaction
      let opened ← issue .utcNow
      let closed ← issue .utcNow
      issue (.addTrade (trade opened closed))
      let product ← notNull (some product)
      TradeServiceBase.updateBalance balance income product.ppt .sell
      TradeServiceBase.updateOwnedInstrument row amount
      saveChangesOrRollback
      return trade opened closed) := by
  refine succeeds_bind (succeeds_checkFraud _) fun _ => ?_
  refine succeeds_bind (succeeds_issue _) fun _ => ?_
  refine succeeds_bind (succeeds_issue _) fun opened => ?_
  refine succeeds_bind (succeeds_issue _) fun closed => ?_
  refine succeeds_bind (succeeds_issue _) fun _ => ?_
  refine succeeds_bind (succeeds_pure product) fun product => ?_
  refine succeeds_bind (succeeds_updateBalance howner _ _ _ _) fun _ => ?_
  refine succeeds_bind (succeeds_updateOwnedInstrument _ _) fun _ => ?_
  exact succeeds_bind succeeds_saveChangesOrRollback fun _ => succeeds_pure _

/-- Where nothing fails, a quick sell lacks nothing but what is to be sold. -/
theorem sellAssets_ends (hamount : 0 < amount)
    (haccount : accountId ∈ shared.database.balances.keys)
    (howner : ownerId ∈ shared.database.balances.keys)
    (hinstrument : shared.database.instruments.find? instrumentId = some instrument)
    (hproduct : shared.database.products.find? instrument.productId = some product)
    (hprice : (pricesOfResponse (environment.pricesByInstrumentId instrumentId 1)).head? =
      some price) :
    wp (Session.effect environment) (fun _ _ => True)
      (TradeService.sellAssets environment accountId instrumentId amount)
      (fun outcome _ =>
        (amount ≤ (shared.database.holdingOf accountId instrumentId).getD 0 →
          ∃ trade, outcome = .ok trade) ∧
        ((shared.database.holdingOf accountId instrumentId).getD 0 < amount →
          outcome = .error .notEnoughAssets))
      (Session.arrive shared.database shared.clock shared.closedTrades) := by
  obtain ⟨balance, hbalance⟩ := find?_balances_of_mem haccount
  have hvalid : TradeService.validateInput amount = pure () := if_neg (not_lt.mpr hamount.le)
  rw [TradeService.sellAssets, hvalid]
  refine (wp_bind _ _).mpr ?_
  refine wp_issue_bind ?_
  rintro _ _ ⟨rfl, rfl⟩
  have hfound : (Session.arrive shared.database shared.clock
      shared.closedTrades).current.balances.find? accountId = some balance := hbalance
  rw [andThen_ok, hfound]
  refine wp_issue_bind ?_
  rintro _ _ ⟨rfl, rfl⟩
  have hlisted : (Session.arrive shared.database shared.clock
      shared.closedTrades).committed.instruments.find? instrumentId = some instrument :=
    hinstrument
  rw [andThen_ok, hlisted]
  dsimp only
  rw [getLastPriceByInstrumentId]
  refine (wp_bind _ _).mpr (wp_issue_bind ?_)
  rintro _ _ ⟨rfl, rfl⟩
  rw [andThen_ok, wp_pure, andThen_ok, hprice]
  refine (wp_bind _ _).mpr (wp_issue_bind ?_)
  rintro _ _ ⟨rfl, rfl⟩
  have hsold : (Session.arrive shared.database shared.clock
      shared.closedTrades).committed.products.find? instrument.productId = some product :=
    hproduct
  rw [andThen_ok, hsold]
  refine wp_issue_bind ?_
  rintro _ _ ⟨rfl, rfl⟩
  have hread : ((Session.arrive shared.database shared.clock
      shared.closedTrades).saved.holdingRow accountId instrumentId).bind (fun row =>
        (Session.arrive shared.database shared.clock
          shared.closedTrades).current.ownedInstruments.find? row.id) =
      shared.database.holdingRow accountId instrumentId :=
    TradeServiceBase.bind_find?_holdingRow rfl accountId instrumentId
  rw [andThen_ok, hread, Database.holdingOf]
  cases hrow : shared.database.holdingRow accountId instrumentId with
  | none =>
      rw [Option.map_none, Option.getD_none]
      exact ⟨fun henough => absurd henough (not_le.mpr hamount), fun _ => rfl⟩
  | some row =>
      rw [Option.map_some, Option.getD_some]
      dsimp only
      split_ifs with hmissing
      · exact ⟨fun henough => absurd henough (not_le.mpr hmissing), fun _ => rfl⟩
      · refine wp_mono ?_ (succeeds_sale howner (Session.arrive shared.database shared.clock
          shared.closedTrades) rfl)
        rintro outcome final ⟨hsold, -⟩
        exact ⟨fun _ => hsold, fun hlacking => absurd hlacking hmissing⟩

end QuickSell

/-! ## The long sell -/

/-- The run that meets an order that the form has filled in and accepted, of an account that
is alone and still holds what the list shows. -/
structure Meets (accountId : ℤ) (entry : InstrumentDTO) (values : SellForm.Values)
    (environment : Environment) (before final : Shared) (trade : Trade) (latest : Price) :
    Prop where
  accepted : SellForm.formSchema values = true
  run : NextRun (.longSell accountId entry.id values.amount values.time values.price) environment
    before final trade
  alone : Alone before.database trade
  upToDate : UpToDate before.database accountId entry
  latest : environment.latestPrice entry.id = some latest

section LongSell

variable {accountId : ℤ} {entry : InstrumentDTO} {values : SellForm.Values}
variable {environment : Environment} {before final : Shared} {trade : Trade} {latest : Price}

theorem Meets.isFor (h : Meets accountId entry values environment before final trade latest) :
    trade.accountId = accountId ∧ trade.instrumentId = entry.id := by
  obtain ⟨id, opened, expires, hsame⟩ := h.run.scheduled.registers fun _ _ _ _ h => h
  cases hsame
  exact ⟨rfl, rfl⟩

/-- A long sell at a price that is reached fails when the account has no row or too little. -/
theorem longSell_lacks {instrumentId duration : ℤ} {amount price : ℚ}
    (hrun : NextRun (.longSell accountId instrumentId amount duration price) environment before
      final trade)
    (halone : Alone before.database trade)
    (hlatest : environment.latestPrice trade.instrumentId = some latest)
    (hhigh : price ≤ latest.high)
    (hfew : ∀ quantity, before.database.holdingOf trade.accountId trade.instrumentId =
      some quantity → quantity < amount) :
    final.database.trades.find? trade.id =
      some (trade.close "Not enough stocks to sell! Trade failed!" false) := by
  obtain ⟨books, ppt, decision, hturn, hfinal, hbooks⟩ := hrun.sellTurn hlatest
  obtain ⟨-, hamount, hprice, -⟩ := hrun.ordered fun _ _ _ _ h => h
  have hlacking : ∀ quantity, books.holding trade.accountId trade.instrumentId = some quantity →
      quantity < trade.quantity := by
    intro quantity hquantity
    rw [hamount]
    exact hfew quantity ((hbooks halone).symm.trans hquantity)
  rw [hfinal, hturn.fails.mpr ⟨hprice ▸ hhigh, hlacking⟩]
  rfl

/-- How the run ends for the order: it waits for its price, it is executed when the list shows
enough, and otherwise it fails. -/
theorem Meets.ends (h : Meets accountId entry values environment before final trade latest) :
    (latest.high < values.price → final.database.trades.find? trade.id = some trade) ∧
    (values.price ≤ latest.high → values.amount ≤ entry.amount →
      final.database.trades.find? trade.id =
        some (trade.close "Long sell transaction finished!" true)) ∧
    (values.price ≤ latest.high → entry.amount < values.amount →
      final.database.trades.find? trade.id =
        some (trade.close "Not enough stocks to sell! Trade failed!" false)) := by
  obtain ⟨haccount, hinstrument⟩ := h.isFor
  have hlatest : environment.latestPrice trade.instrumentId = some latest :=
    hinstrument ▸ h.latest
  have hheld : (before.database.holdingOf trade.accountId trade.instrumentId).getD 0 =
      entry.amount := by
    rw [haccount, hinstrument]
    exact h.upToDate.amount.symm
  refine ⟨h.run.longSell_waits hlatest, fun hreached henough => ?_, fun hreached hmissing => ?_⟩
  · cases hrow : before.database.holdingOf trade.accountId trade.instrumentId with
    | none =>
        -- the form does not accept an amount of zero
        rw [hrow, Option.getD_none] at hheld
        exact absurd (hheld ▸ henough) (not_le.mpr (of_decide_eq_true h.accepted).1)
    | some held =>
        rw [hrow, Option.getD_some] at hheld
        exact h.run.longSell_executes h.alone hlatest hrow hreached (hheld ▸ henough)
  · refine longSell_lacks h.run h.alone hlatest hreached fun quantity hquantity => ?_
    rw [hquantity, Option.getD_some] at hheld
    exact hheld ▸ hmissing

end LongSell

/-! ## Forms and broker -/

/-- Both accounts of a sell exist, and the pricing service has a price for the instrument. -/
structure CanTrade (environment : Environment) (database : Database)
    (accountId instrumentId : ℤ) : Prop where
  account : accountId ∈ database.balances.keys
  owner : ownerId ∈ database.balances.keys
  priced : pricesOfResponse (environment.pricesByInstrumentId instrumentId 1) ≠ []

/-- As long as the list is not out of date, the form for a quick sell accepts exactly what the
broker sells, and the orders that the other form fills in end as their names say, or wait for
their price. -/
structure SellFormsAgree (accountId : ℤ) (entry : InstrumentDTO) : Prop where
  quickSell : ∀ environment shared amount outcome final, 0 < amount →
    UpToDate shared.database accountId entry →
    CanTrade environment shared.database accountId entry.id →
    Exec (works environment) (TradeService.sellAssets environment accountId entry.id amount)
      (shared, DbContext.fresh) outcome final →
    (QuickSellForm.accepts entry amount = true → ∃ trade, outcome = .ok trade) ∧
      (QuickSellForm.accepts entry amount = false → outcome = .error .notEnoughAssets)
  success : ∀ environment before final trade latest,
    Meets accountId entry (SellForm.success entry) environment before final trade latest →
    final.database.trades.find? trade.id = some (if latest.high < entry.price.closePrice then trade
      else trade.close "Long sell transaction finished!" true)
  fail : ∀ environment before final trade latest,
    Meets accountId entry (SellForm.fail entry) environment before final trade latest →
    final.database.trades.find? trade.id = some (if latest.high < entry.price.closePrice then trade
      else trade.close "Not enough stocks to sell! Trade failed!" false)
  timeout : ∀ environment before final trade latest,
    Meets accountId entry (SellForm.timeout entry) environment before final trade latest →
    final.database.trades.find? trade.id =
      some (if latest.high < entry.price.closePrice + 1000 then trade
        else trade.close "Long sell transaction finished!" true)

section Agreement

variable {environment : Environment} {accountId : ℤ} {entry : InstrumentDTO}

theorem quickSell_agrees {shared : Shared} {amount : ℚ} {outcome : Except BrokerException Trade}
    {final : World} (hclose : 0 < entry.price.closePrice) (hamount : 0 < amount)
    (hcurrent : UpToDate shared.database accountId entry)
    (hcan : CanTrade environment shared.database accountId entry.id)
    (hexec : Exec (works environment)
      (TradeService.sellAssets environment accountId entry.id amount) (shared, DbContext.fresh)
      outcome final) :
    (QuickSellForm.accepts entry amount = true → ∃ trade, outcome = .ok trade) ∧
      (QuickSellForm.accepts entry amount = false → outcome = .error .notEnoughAssets) := by
  obtain ⟨instrument, product, hinstrument, hproduct⟩ := hcurrent.listed
  obtain ⟨price, others, hprices⟩ := List.exists_cons_of_ne_nil hcan.priced
  have hprice : (pricesOfResponse (environment.pricesByInstrumentId entry.id 1)).head? =
      some price := by rw [hprices, List.head?_cons]
  have haccepted : Ensures environment
      (TradeService.sellAssets environment accountId entry.id amount) (fun _ _ => True)
      (fun _ _ => True) (Session.arrive shared.database shared.clock shared.closedTrades) :=
    TradeService.sellAssets_spec trivial fun _ _ _ _ _ _ => trivial
  obtain ⟨session, -, hsells, hlacks⟩ := session_of_works haccepted
    (sellAssets_ends hamount hcan.account hcan.owner hinstrument hproduct hprice) hexec
  rw [← hcurrent.amount] at hsells hlacks
  have hform := QuickSellForm.accepts_iff hamount hclose
  refine ⟨fun haccepts => hsells (hform.mp haccepts), fun hrefuses => hlacks ?_⟩
  rw [← not_le, ← hform, hrefuses]
  exact Bool.false_ne_true

theorem sellFormsAgree (accountId : ℤ) (hclose : 0 < entry.price.closePrice) :
    SellFormsAgree accountId entry where
  quickSell environment shared amount outcome final hamount hcurrent hcan hexec :=
    quickSell_agrees hclose hamount hcurrent hcan hexec
  success environment before final trade latest hmeets := by
    obtain ⟨hwaits, hexecutes, -⟩ := hmeets.ends
    split_ifs with hhigh
    · exact hwaits hhigh
    · exact hexecutes (not_lt.mp hhigh) le_rfl
  fail environment before final trade latest hmeets := by
    obtain ⟨hwaits, -, hfails⟩ := hmeets.ends
    split_ifs with hhigh
    · exact hwaits hhigh
    · exact hfails (not_lt.mp hhigh) (lt_add_one entry.amount)
  timeout environment before final trade latest hmeets := by
    obtain ⟨hwaits, hexecutes, -⟩ := hmeets.ends
    split_ifs with hhigh
    · exact hwaits hhigh
    · exact hexecutes (not_lt.mp hhigh) le_rfl

/-- A list that has just been read is not out of date, and until it is, its sell forms agree
with the broker. -/
theorem sellForms_agree {shared : Shared} {listed : List InstrumentDTO} {world : World}
    (hexec : Exec (step environment) (InstrumentService.getInstruments accountId)
      (shared, DbContext.fresh) (.ok listed) world)
    (hentry : entry ∈ listed) (hclose : 0 < entry.price.closePrice) :
    UpToDate world.1.database accountId entry ∧ SellFormsAgree accountId entry :=
  ⟨upToDate_of_getInstruments hexec hentry, sellFormsAgree accountId hclose⟩

end Agreement

/-- The trader's five shares as they are listed. -/
def Sample.listedShares : InstrumentDTO :=
  InstrumentDTO.holding ⟨1, 1, "EZ", "EasyTrade", "EasyTrade shares"⟩ ⟨1, "Share", 2⟩
    ⟨1, 0, 10, 12, 9, 11⟩ 5

/-- Three of the listed shares can be sold at once. -/
theorem sellForms_agree_sample :
    ∃ world : World, UpToDate world.1.database 2 Sample.listedShares ∧
      SellFormsAgree 2 Sample.listedShares ∧
      QuickSellForm.accepts Sample.listedShares 3 = true ∧ ∃ trade final,
        Exec (works Broker.Sample.environment)
          (TradeService.sellAssets Broker.Sample.environment 2 1 3)
          (world.1, DbContext.fresh) (.ok trade) final := by
  obtain ⟨outcome, world, hcheck, hexec⟩ := exists_works_of_replay Broker.Sample.environment
    (InstrumentService.getInstruments 2) [100, 100, 100, 100]
    (Broker.Sample.shared, DbContext.fresh)
    (fun outcome world => decide (outcome.toOption = some [Sample.listedShares] ∧
      world.1.database.balances.keys = [ownerId, 2]))
    (by decide +kernel)
  obtain ⟨hlisted, hkeys⟩ := of_decide_eq_true hcheck
  cases outcome with
  | error error => cases hlisted
  | ok listed =>
      cases hlisted
      obtain ⟨hcurrent, hagree⟩ := sellForms_agree
        (exec_mono (fun _ _ _ _ => step_of_works) hexec) (List.mem_singleton.mpr rfl)
        (by decide)
      obtain ⟨outcome, final, hsell, -⟩ := exists_exec_works Broker.Sample.environment
        (TradeService.sellAssets Broker.Sample.environment 2 1 3) (world.1, DbContext.fresh)
      have hcan : CanTrade Broker.Sample.environment world.1.database 2 1 :=
        { account := hkeys ▸ by decide
          owner := hkeys ▸ by decide
          priced := List.cons_ne_nil _ _ }
      obtain ⟨hsold, -⟩ := hagree.quickSell Broker.Sample.environment world.1 3 outcome final
        (by norm_num) hcurrent hcan hsell
      obtain ⟨trade, rfl⟩ := hsold (by decide +kernel)
      exact ⟨world, hcurrent, hagree, by decide +kernel, trade, final, hsell⟩

end EasyTrade.Frontend

import EasyTrade.Broker.Requests
import EasyTrade.Broker.Smooth
import EasyTrade.Frontend.BuyForms

/-!
# What the forms and the broker find affordable

The forms reckon with the close price and without the fee.  The broker takes the open price,
or the price of the order, and adds the fee.
-/

namespace EasyTrade.Frontend

open Program Broker

/-- What a form shows and the broker reads: the balance, and an instrument with its product
and its latest price. -/
structure Sight where
  balance : Balance
  instrument : Instrument
  price : Price
  product : Product
  open_pos : 0 < price.openPrice
  high_pos : 0 < price.high
  low_pos : 0 < price.low
  close_pos : 0 < price.closePrice
  ppt_nonneg : 0 ≤ product.ppt

/-- The broker sees the same, from its database and from the pricing service. -/
structure Seen (environment : Environment) (world : World) (accountId instrumentId : ℤ)
    (sight : Sight) : Prop where
  balance : (world.view.balances.find? accountId).map world.2.balances.resolve =
    some sight.balance
  instrument : world.view.instruments.find? instrumentId = some sight.instrument
  price : (pricesOfResponse (environment.pricesByInstrumentId instrumentId 1)).head? =
    some sight.price
  product : world.view.products.find? sight.instrument.productId = some sight.product

section Broker

variable {environment : Environment} {world : World} {accountId instrumentId : ℤ}

/-! ## The quick buy -/

/-- The broker turns a quick buy down exactly when open price and fee exceed the balance. -/
theorem buyAssets_lacksMoney_iff {sight : Sight} {amount : ℚ} (hamount : 0 < amount)
    (hseen : Seen environment world accountId instrumentId sight) :
    Smoothly environment (TradeService.buyAssets environment accountId instrumentId amount)
      (fun outcome _ => LacksMoney outcome ↔
        sight.balance.value < amount * sight.price.openPrice + sight.product.ppt) world := by
  have hvalid : TradeService.validateInput amount = pure () := if_neg (not_lt.mpr hamount.le)
  rw [TradeService.buyAssets, hvalid, smoothly_bind, smoothly_pure, andThen_ok, smoothly_bind]
  refine smoothly_getBalanceOfAccount hseen.balance fun first entries _ => ?_
  rw [andThen_ok]
  dsimp only
  rw [smoothly_bind]
  refine smoothly_getInstrument hseen.instrument fun second _ => ?_
  rw [andThen_ok]
  dsimp only
  rw [smoothly_bind]
  refine smoothly_getLastPriceByInstrumentId fun third _ => ?_
  rw [andThen_ok, hseen.price, smoothly_bind]
  refine smoothly_notNull ?_
  rw [andThen_ok, smoothly_bind]
  refine smoothly_getProduct hseen.product fun fourth _ => ?_
  rw [andThen_ok, smoothly_bind]
  refine smoothly_notNull ?_
  rw [andThen_ok]
  split_ifs with hlacking
  · exact iff_of_true ⟨_, _, rfl⟩ hlacking
  · refine Smoothly.mono (fun outcome _ houtcome => iff_of_false houtcome hlacking) ?_
    refine neverLacksMoney_bind (neverLacksMoney_checkFraud _) (fun _ =>
      neverLacksMoney_bind (neverLacksMoney_issue _) fun _ =>
        neverLacksMoney_bind (neverLacksMoney_issue _) fun _ =>
          neverLacksMoney_bind (neverLacksMoney_issue _) fun _ =>
            neverLacksMoney_bind (neverLacksMoney_issue _) fun _ =>
              neverLacksMoney_bind (neverLacksMoney_updateBalance _ _ _ _) fun _ =>
                neverLacksMoney_bind (neverLacksMoney_updateOwnedInstrumentOf _ _ _) fun _ =>
                  neverLacksMoney_bind neverLacksMoney_saveChangesOrRollback fun _ =>
                    neverLacksMoney_pure _) _

/-! ## The long buy -/

/-- The status of a long buy that the account cannot pay for. -/
def Rejected (trade : Trade) (start final : World) : Prop :=
  final.1.closedTrades = start.1.closedTrades ++
    [trade.close "Not enough money to buy stocks! Trade failed!" false]

/-- A long buy is rejected exactly when it triggers and its price with the fee exceeds the
balance. -/
theorem processLongBuy_rejected_iff (environment : Environment) {balance : Balance}
    {trade : Trade} (instrument : Instrument) (price : Price) (product : Product)
    (hbalance : (world.view.balances.find? trade.accountId).map world.2.balances.resolve =
      some balance) :
    Smoothly environment (LongTradeService.processLongBuy trade instrument price product)
      (fun _ final => Rejected trade world final ↔ price.low ≤ trade.entryPrice ∧
        balance.value < trade.quantity * trade.entryPrice + product.ppt) world := by
  rw [LongTradeService.processLongBuy]
  split_ifs with hlow
  · refine iff_of_false (fun hrejected => ?_) fun htriggered => not_le.mpr hlow htriggered.1
    exact absurd (List.self_eq_append_right.mp hrejected) (List.cons_ne_nil _ _)
  rw [smoothly_bind]
  refine smoothly_getBalanceOfAccount hbalance fun first entries _ => ?_
  rw [andThen_ok, smoothly_bind]
  refine smoothly_notNull ?_
  rw [andThen_ok]
  dsimp only
  split_ifs with hlacking
  · refine (smoothly_closeTrade trade _ _ _).mono fun _ final hfinal => ?_
    exact iff_of_true hfinal ⟨not_lt.mp hlow, hlacking⟩
  -- what follows reports the trade as executed, or nothing when an update throws
  have hunchanged : ∀ final : World, final.1.closedTrades = world.1.closedTrades →
      ¬ Rejected trade world final := fun final hfinal hrejected =>
    absurd (List.self_eq_append_right.mp (hfinal.symm.trans hrejected)) (List.cons_ne_nil _ _)
  refine Smoothly.mono (fun _ final hfinal => iff_of_false hfinal fun htriggered =>
    hlacking htriggered.2) ?_
  rw [smoothly_bind]
  refine (closedTrades_of_quiet (quiet_updateBalance balance _ product.ppt .longBuy) _).mono
    fun outcome second hsecond => ?_
  cases outcome with
  | error error => exact hunchanged second hsecond
  | ok value =>
    rw [andThen_ok, smoothly_bind]
    refine (closedTrades_of_quiet (quiet_updateOwnedInstrumentOf trade.accountId instrument.id
      trade.quantity) _).mono fun outcome third hthird => ?_
    cases outcome with
    | error error => exact hunchanged third (hthird.trans hsecond)
    | ok value =>
      rw [andThen_ok]
      refine (smoothly_closeTrade trade _ true third).mono fun _ final hfinal hrejected => ?_
      rw [Rejected, hfinal, hthird, hsecond] at hrejected
      have hstatus := List.head_eq_of_cons_eq (List.append_cancel_left hrejected)
      exact Bool.false_ne_true (congrArg Trade.transactionHappened hstatus).symm

end Broker

/-! ## Forms and broker -/

section Agreement

variable (environment : Environment) (world : World) (accountId instrumentId : ℤ)
  (sight : Sight) (amount : ℚ)

/-- A smooth run of the quick buy is turned down for lack of money. -/
def QuickBuyRejected : Prop :=
  ∃ outcome final, Exec (works environment)
    (TradeService.buyAssets environment accountId instrumentId amount) world outcome final ∧
      LacksMoney outcome

/-- A smooth run over the trade rejects it for lack of money. -/
def LongBuyRejected (trade : Trade) : Prop :=
  ∃ outcome final, Exec (works environment) (LongTradeService.processLongBuy trade
    sight.instrument sight.price sight.product) world outcome final ∧ Rejected trade world final

/-- An order with the amount and the price that the form has filled in. -/
def Orders (values : BuyForm.Values) (trade : Trade) : Prop :=
  trade.accountId = accountId ∧ trade.quantity = values.amount ∧ trade.entryPrice = values.price

/-- The trade triggers at the price that both sides see. -/
def Triggers (trade : Trade) : Prop := sight.price.low ≤ trade.entryPrice

/-- The forms and the broker agree on what is affordable. -/
structure FormsAgree : Prop where
  quickBuy : QuickBuyForm.accepts sight.price (some sight.balance) amount = true ↔
    ¬ QuickBuyRejected environment world accountId instrumentId amount
  success : ∀ trade, Orders accountId (BuyForm.success sight.price (some sight.balance)) trade →
    Triggers sight trade → ¬ LongBuyRejected environment world sight trade
  fail : ∀ trade, Orders accountId (BuyForm.fail sight.price (some sight.balance)) trade →
    Triggers sight trade → LongBuyRejected environment world sight trade

end Agreement

section Agreement

variable {environment : Environment} {world : World} {accountId instrumentId : ℤ}
  {sight : Sight} {amount : ℚ}

theorem quickBuyRejected_iff (hamount : 0 < amount)
    (hseen : Seen environment world accountId instrumentId sight) :
    QuickBuyRejected environment world accountId instrumentId amount ↔
      sight.balance.value < amount * sight.price.openPrice + sight.product.ppt := by
  have hdecided := smoothly_iff.mp (buyAssets_lacksMoney_iff hamount hseen)
  constructor
  · rintro ⟨outcome, final, hexec, hlacking⟩
    exact (hdecided outcome final hexec).mp hlacking
  · intro hlacking
    obtain ⟨outcome, final, hexec, -⟩ := exists_exec_works environment
      (TradeService.buyAssets environment accountId instrumentId amount) world
    exact ⟨outcome, final, hexec, (hdecided outcome final hexec).mpr hlacking⟩

theorem longBuyRejected_iff {values : BuyForm.Values} {trade : Trade}
    (hseen : Seen environment world accountId instrumentId sight)
    (horders : Orders accountId values trade) (htriggers : Triggers sight trade) :
    LongBuyRejected environment world sight trade ↔
      sight.balance.value < values.amount * values.price + sight.product.ppt := by
  obtain ⟨haccount, hquantity, hprice⟩ := horders
  subst haccount
  have hdecided := smoothly_iff.mp (processLongBuy_rejected_iff environment
    sight.instrument sight.price sight.product hseen.balance)
  rw [hquantity, hprice] at hdecided
  rw [Triggers, hprice] at htriggers
  constructor
  · rintro ⟨outcome, final, hexec, hrejected⟩
    exact ((hdecided outcome final hexec).mp hrejected).2
  · intro hlacking
    obtain ⟨outcome, final, hexec, -⟩ := exists_exec_works environment
      (LongTradeService.processLongBuy trade sight.instrument sight.price sight.product) world
    exact ⟨outcome, final, hexec, (hdecided outcome final hexec).mpr ⟨htriggers, hlacking⟩⟩

/-- An order that the form has filled in. -/
def orderOf (accountId instrumentId : ℤ) (values : BuyForm.Values) : Trade :=
  Trade.longTrade accountId instrumentId .longBuy values.price values.amount 0 0

/-- The amount for a failing trade costs more than the balance, whatever the fee. -/
theorem fail_rejected {trade : Trade} (hseen : Seen environment world accountId instrumentId sight)
    (horders : Orders accountId (BuyForm.fail sight.price (some sight.balance)) trade)
    (htriggers : Triggers sight trade) : LongBuyRejected environment world sight trade := by
  rw [longBuyRejected_iff hseen horders htriggers, BuyForm.fail_eq]
  exact lt_ceil_mul_add sight.close_pos sight.ppt_nonneg

/-- The amount for a successful trade leaves enough for the fee, or the trade waits. -/
theorem success_passes_iff (hseen : Seen environment world accountId instrumentId sight) :
    (∀ trade, Orders accountId (BuyForm.success sight.price (some sight.balance)) trade →
      Triggers sight trade → ¬ LongBuyRejected environment world sight trade) ↔
        sight.price.closePrice < sight.price.low ∨ sight.product.ppt ≤
          Int.fract (sight.balance.value / sight.price.closePrice) * sight.price.closePrice := by
  rw [← floor_mul_add_le_iff sight.close_pos]
  constructor
  · intro hpasses
    by_contra hneither
    rw [not_or, not_lt, not_le] at hneither
    have horders : Orders accountId (BuyForm.success sight.price (some sight.balance))
        (orderOf accountId instrumentId (BuyForm.success sight.price (some sight.balance))) :=
      ⟨rfl, rfl, rfl⟩
    exact hpasses _ horders hneither.1
      ((longBuyRejected_iff hseen horders hneither.1).mpr hneither.2)
  · intro hleft trade horders htriggers
    rw [longBuyRejected_iff hseen horders htriggers, not_lt, BuyForm.success_eq]
    rcases hleft with hwaits | haffordable
    · obtain ⟨-, -, hprice⟩ := horders
      rw [Triggers, hprice] at htriggers
      exact absurd hwaits (not_lt.mpr htriggers)
    · exact haffordable

/-- Both sides find the amount affordable, or neither does, when the balance does not lie
between the two costs. -/
theorem quickBuy_agrees_iff (hamount : 0 < amount)
    (hseen : Seen environment world accountId instrumentId sight) :
    (QuickBuyForm.accepts sight.price (some sight.balance) amount = true ↔
      ¬ QuickBuyRejected environment world accountId instrumentId amount) ↔
        sight.balance.value < min (amount * sight.price.closePrice)
            (amount * sight.price.openPrice + sight.product.ppt) ∨
          max (amount * sight.price.closePrice)
            (amount * sight.price.openPrice + sight.product.ppt) ≤ sight.balance.value := by
  rw [quickBuyRejected_iff hamount hseen, QuickBuyForm.accepts_iff hamount sight.close_pos,
    not_lt, lt_min_iff, max_le_iff]
  constructor
  · intro hagree
    by_cases hform : amount * sight.price.closePrice ≤ sight.balance.value
    · exact Or.inr ⟨hform, hagree.mp hform⟩
    · exact Or.inl ⟨not_le.mp hform, not_le.mp fun hbroker => hform (hagree.mpr hbroker)⟩
  · rintro (⟨hform, hbroker⟩ | ⟨hform, hbroker⟩)
    · exact iff_of_false (not_le.mpr hform) (not_le.mpr hbroker)
    · exact iff_of_true hform hbroker

/-- The forms and the broker agree when the balance does not lie between the form's cost
and the broker's, and when the fee fits into what a successful trade leaves. -/
theorem formsAgree_iff (hamount : 0 < amount)
    (hseen : Seen environment world accountId instrumentId sight) :
    FormsAgree environment world accountId instrumentId sight amount ↔
      (sight.balance.value < min (amount * sight.price.closePrice)
          (amount * sight.price.openPrice + sight.product.ppt) ∨
        max (amount * sight.price.closePrice)
          (amount * sight.price.openPrice + sight.product.ppt) ≤ sight.balance.value) ∧
      (sight.price.closePrice < sight.price.low ∨ sight.product.ppt ≤
        Int.fract (sight.balance.value / sight.price.closePrice) * sight.price.closePrice) := by
  rw [← quickBuy_agrees_iff hamount hseen, ← success_passes_iff hseen]
  constructor
  · intro hagree
    exact ⟨hagree.quickBuy, hagree.success⟩
  · rintro ⟨hquickBuy, hsuccess⟩
    exact ⟨hquickBuy, hsuccess, fun _ horders htriggers =>
      fail_rejected hseen horders htriggers⟩

end Agreement

/-! ## A price that has risen -/

namespace Sample

/-- The trader's hundred, and a share that opened at 10 and closed at 11 with a fee of 2. -/
def sight (balance : ℚ) : Sight where
  balance := ⟨2, balance⟩
  instrument := ⟨1, 1, "EZ", "EasyTrade", "EasyTrade shares"⟩
  price := ⟨1, 0, 10, 12, 9, 11⟩
  product := ⟨1, "Share", 2⟩
  open_pos := by norm_num
  high_pos := by norm_num
  low_pos := by norm_num
  close_pos := by norm_num
  ppt_nonneg := by norm_num

/-- A request that has just arrived, from a trader with the given balance. -/
def world (balance : ℚ) : World :=
  ({ Broker.Sample.shared with
    database := { Broker.Sample.shared.database with
      balances := ⟨[⟨ownerId, 0⟩, ⟨2, balance⟩], by simp [ownerId]⟩ } }, DbContext.fresh)

theorem seen (balance : ℚ) :
    Seen Broker.Sample.environment (world balance) 2 1 (sight balance) where
  balance := rfl
  instrument := rfl
  price := rfl
  product := rfl

end Sample

/-- With 90 the success amount is 8 shares for 88, which leaves the fee. -/
theorem formsAgree_ninety :
    0 < (3 : ℚ) ∧ Seen Broker.Sample.environment (Sample.world 90) 2 1 (Sample.sight 90) ∧
      FormsAgree Broker.Sample.environment (Sample.world 90) 2 1 (Sample.sight 90) 3 := by
  refine ⟨by norm_num, Sample.seen 90, (formsAgree_iff (by norm_num) (Sample.seen 90)).mpr ?_⟩
  have hleft : Int.fract ((90 : ℚ) / 11) * 11 = 2 := by
    have hfloor : ⌊(90 : ℚ) / 11⌋ = 8 := by norm_num [Int.floor_eq_iff]
    rw [Int.fract, hfloor]
    norm_num
  constructor
  · exact Or.inr (by norm_num [Sample.sight])
  · exact Or.inr hleft.ge

/-- With 100 the success amount is 9 shares for 99, and the fee of 2 is missing. -/
theorem forms_disagree :
    ¬ ∀ (environment : Environment) (world : World) (accountId instrumentId : ℤ)
      (sight : Sight) (amount : ℚ), 0 < amount →
        Seen environment world accountId instrumentId sight →
          FormsAgree environment world accountId instrumentId sight amount := by
  intro hall
  have hagree := hall Broker.Sample.environment (Sample.world 100) 2 1 (Sample.sight 100) 3
    (by norm_num) (Sample.seen 100)
  rcases (success_passes_iff (Sample.seen 100)).mp hagree.success with hwaits | hleft
  · exact absurd hwaits (by norm_num [Sample.sight])
  · have hfract : Int.fract ((100 : ℚ) / 11) * 11 = 1 := by
      have hfloor : ⌊(100 : ℚ) / 11⌋ = 9 := by norm_num [Int.floor_eq_iff]
      rw [Int.fract, hfloor]
      norm_num
    have hle : (2 : ℚ) ≤ Int.fract ((100 : ℚ) / 11) * 11 := hleft
    rw [hfract] at hle
    exact absurd hle (by norm_num)

end EasyTrade.Frontend

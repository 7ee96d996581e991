import EasyTrade.Broker.NextRun
import EasyTrade.LoadGenerator.Calculators

/-!
# How the ordered trades end

The load generator's formulas against the run of the broker that meets the trades.  A
successful buy forgets the fee and an ask price above the deposit, a failing buy forgets that
its price has to be reached, and a sell rounds a fraction of a small holding down to nothing.
-/

namespace EasyTrade.LoadGenerator

open Broker

/-- What a visit and the broker work with: the deposit just made, the balance after it, the
holding and the configured ratio, the fee, and the latest price record around the ask price. -/
structure Setting where
  deposit : ℚ
  balance : ℚ
  ownedAmount : ℚ
  ratio : ℚ
  ppt : ℚ
  low : ℚ
  askPrice : ℚ
  high : ℚ
  deposit_pos : 0 < deposit
  deposit_le : deposit ≤ balance
  one_le_ownedAmount : 1 ≤ ownedAmount
  ratio_pos : 0 < ratio
  ratio_le_one : ratio ≤ 1
  low_le : low ≤ askPrice
  le_high : askPrice ≤ high

namespace Setting

def buyOptions (setting : Setting) : BuyOptions :=
  ⟨setting.balance, setting.askPrice, setting.deposit⟩

def sellOptions (setting : Setting) : SellOptions :=
  ⟨setting.askPrice, setting.ownedAmount, setting.ratio⟩

/-- A run reads the price record of the setting. -/
def Reads (setting : Setting) (environment : Environment) (trade : Trade) : Prop :=
  ∃ latest, environment.latestPrice trade.instrumentId = some latest ∧
    latest.low = setting.low ∧ latest.high = setting.high

/-- The run that meets a long buy, of an account with the balance of the setting and no other
activity. -/
structure BuyRun (setting : Setting) (result : BuyResult) (environment : Environment)
    (before final : Shared) (trade : Trade) : Prop where
  run : ∃ duration, NextRun (.longBuy trade.accountId trade.instrumentId result.amount duration
    result.price) environment before final trade
  reads : setting.Reads environment trade
  ppt : before.database.pptOf trade.instrumentId = some setting.ppt
  balance : before.database.balanceOf trade.accountId = some setting.balance
  alone : Alone before.database trade

/-- The run that meets a long sell, of an account with the holding of the setting and no other
activity. -/
structure SellRun (setting : Setting) (result : SellResult) (environment : Environment)
    (before final : Shared) (trade : Trade) : Prop where
  run : ∃ duration, NextRun (.longSell trade.accountId trade.instrumentId result.amount duration
    result.price) environment before final trade
  reads : setting.Reads environment trade
  holding : before.database.holdingOf trade.accountId trade.instrumentId =
    some setting.ownedAmount
  alone : Alone before.database trade

/-- The prices that a run reads lie between a tenth of the ask price and ten times it. -/
def InBand (setting : Setting) (environment : Environment) (trade : Trade) : Prop :=
  ∃ latest, environment.latestPrice trade.instrumentId = some latest ∧
    setting.askPrice / 10 ≤ latest.low ∧ latest.high ≤ 10 * setting.askPrice

end Setting

/-! ## The endings of the scenarios -/

/-- The run has executed the trade. -/
def Executed (final : Shared) (trade : Trade) (status : String) : Prop :=
  final.database.trades.find? trade.id = some (trade.close status true)

/-- The run has closed the trade without executing it. -/
def Failed (final : Shared) (trade : Trade) (status : String) : Prop :=
  final.database.trades.find? trade.id = some (trade.close status false)

/-- Every scenario orders a trade that ends as the scenario is named. -/
structure EndsAsNamed (setting : Setting) : Prop where
  successBuy : ∀ randomBetween,
    0 < (successBuyCalculator randomBetween setting.buyOptions).price ∧
    0 < (successBuyCalculator randomBetween setting.buyOptions).amount ∧
    ∀ environment before final trade,
      setting.BuyRun (successBuyCalculator randomBetween setting.buyOptions) environment before
        final trade → Executed final trade "Long buy transaction finished!"
  errorBuy : ∀ environment before final trade,
    setting.BuyRun (errorBuyCalculator setting.buyOptions) environment before final trade →
      Failed final trade "Not enough money to buy stocks! Trade failed!"
  timeoutBuy : ∀ randomBetween,
    0 < (timeoutBuyCalculator randomBetween setting.buyOptions).amount ∧
    ∀ duration environment before final trade,
      NextRun (.longBuy trade.accountId trade.instrumentId
          (timeoutBuyCalculator randomBetween setting.buyOptions).amount duration
          (timeoutBuyCalculator randomBetween setting.buyOptions).price)
        environment before final trade →
      setting.InBand environment trade →
      final.database.trades.find? trade.id = some trade
  successSell : ∀ randomBetween,
    0 < (successSellCalculator randomBetween setting.sellOptions).price ∧
    0 < (successSellCalculator randomBetween setting.sellOptions).amount ∧
    ∀ environment before final trade,
      setting.SellRun (successSellCalculator randomBetween setting.sellOptions) environment
        before final trade → Executed final trade "Long sell transaction finished!"
  errorSell : ∀ environment before final trade,
    setting.SellRun (errorSellCalculator setting.sellOptions) environment before final trade →
      Failed final trade "Not enough stocks to sell! Trade failed!"
  timeoutSell : ∀ randomBetween,
    0 < (timeoutSellCalculator randomBetween setting.sellOptions).amount ∧
    ∀ duration environment before final trade,
      NextRun (.longSell trade.accountId trade.instrumentId
          (timeoutSellCalculator randomBetween setting.sellOptions).amount duration
          (timeoutSellCalculator randomBetween setting.sellOptions).price)
        environment before final trade →
      setting.InBand environment trade →
      final.database.trades.find? trade.id = some trade

/-- The deposit pays for one piece at the raised price, buying as many as it pays for leaves
the fee, the failing price is reached and lacks money, and the ratio of the holding is at
least one piece. -/
structure Setting.Works (setting : Setting) : Prop where
  askPrice_pos : 0 < setting.askPrice
  affordsOne : setting.askPrice * 1.1 ≤ setting.deposit
  leavesFee : ⌊setting.deposit / (setting.askPrice * 1.1)⌋ * (setting.askPrice * 1.1) +
    setting.ppt ≤ setting.balance
  reachesError : setting.low ≤ max setting.balance setting.askPrice * 0.3
  lacksMoney : setting.balance <
    7 * (max setting.balance setting.askPrice * 0.3) + setting.ppt
  sellsOne : 1 ≤ setting.ownedAmount * setting.ratio

section Runs

variable {setting : Setting} {environment : Environment} {before final : Shared}
variable {trade : Trade}

/-- How a long buy of the setting ends. -/
theorem Setting.BuyRun.ends {result : BuyResult}
    (hrun : setting.BuyRun result environment before final trade) :
    (Executed final trade "Long buy transaction finished!" ↔
      setting.low ≤ result.price ∧
        result.amount * result.price + setting.ppt ≤ setting.balance) ∧
    (Failed final trade "Not enough money to buy stocks! Trade failed!" ↔
      setting.low ≤ result.price ∧
        setting.balance < result.amount * result.price + setting.ppt) := by
  obtain ⟨⟨duration, hnext⟩, ⟨latest, hlatest, hlow, -⟩, hppt, hbalance, halone⟩ := hrun
  rw [← hlow]
  exact hnext.longBuy_ends halone hlatest hppt hbalance

theorem Setting.SellRun.executed {result : SellResult}
    (hrun : setting.SellRun result environment before final trade)
    (hhigh : result.price ≤ setting.high) (henough : result.amount ≤ setting.ownedAmount) :
    Executed final trade "Long sell transaction finished!" := by
  obtain ⟨⟨duration, hnext⟩, ⟨latest, hlatest, -, hsame⟩, hholding, halone⟩ := hrun
  exact hnext.longSell_executes halone hlatest hholding (hsame ▸ hhigh) henough

theorem Setting.SellRun.failed {result : SellResult}
    (hrun : setting.SellRun result environment before final trade)
    (hhigh : result.price ≤ setting.high) (hmissing : setting.ownedAmount < result.amount) :
    Failed final trade "Not enough stocks to sell! Trade failed!" := by
  obtain ⟨⟨duration, hnext⟩, ⟨latest, hlatest, -, hsame⟩, hholding, halone⟩ := hrun
  exact hnext.longSell_fails halone hlatest hholding (hsame ▸ hhigh) hmissing

end Runs

/-! ## A broker for every setting -/

section Exists

variable (setting : Setting)

/-- The owner, a trader with the balance of the setting, and one instrument with its fee. -/
def Setting.shared : Shared :=
  { Broker.Sample.shared with
    database := { Broker.Sample.shared.database with
      balances := ⟨[⟨ownerId, 0⟩, ⟨2, setting.balance⟩], by simp [ownerId]⟩
      trades := Table.empty
      products := ⟨[⟨1, "Share", setting.ppt⟩], by simp⟩ } }

/-- The pricing service returns the record of the setting. -/
def Setting.environment : Environment :=
  { Broker.Sample.environment with
    latestPrices :=
      some [⟨1, 0, setting.askPrice, setting.high, setting.low, setting.askPrice⟩] }

theorem Setting.exists_buyRun (result : BuyResult) (hamount : 0 ≤ result.amount)
    (hprice : 0 ≤ result.price) :
    ∃ environment before final trade, setting.BuyRun result environment before final trade := by
  have hfunded : Funded setting.shared.database :=
    ⟨List.mem_cons_self, fun _ hmem _ => absurd hmem List.not_mem_nil⟩
  have htrader : (2 : ℤ) ∈ setting.shared.database.balances.keys :=
    List.mem_cons_of_mem _ List.mem_cons_self
  have hdistinct : ((pricesOfResponse setting.environment.latestPrices).map
      Price.instrumentId).Nodup := List.nodup_singleton 1
  have hlists : ∀ trade : Trade, trade.instrumentId = 1 →
      (setting.shared.database.market setting.environment).Lists trade := by
    intro trade htrade
    rw [Market.Lists, htrade]
    exact ⟨_, _, _, rfl, rfl, rfl⟩
  have hexpires : ((100 : DateTime).addHours 1).isSome = true := by decide
  obtain ⟨placed, final, trade, hnext, haccount, hinstrument, halone, hplaced⟩ :=
    exists_nextRun_longBuy hfunded (fun _ hmem => absurd hmem List.not_mem_nil) htrader
      hdistinct hlists hamount hprice zero_le_one hexpires
  refine ⟨setting.environment, placed, final, trade, ⟨1, ?_⟩, ?_, ?_, ?_, halone⟩
  · rw [haccount, hinstrument]
    exact hnext
  · rw [Setting.Reads, hinstrument]
    exact ⟨_, rfl, rfl, rfl⟩
  · rw [hplaced, hinstrument]
    rfl
  · rw [hplaced, haccount]
    rfl

end Exists

/-! ## When the scenarios end as named -/

section Works

variable {setting : Setting}

/-- The amount of a successful buy at the largest random number. -/
theorem Setting.successBuy_second (setting : Setting) :
    successBuyCalculator RandomBetween.second setting.buyOptions =
      ⟨setting.askPrice * 1.1, ⌊setting.deposit / (setting.askPrice * 1.1)⌋⟩ := rfl

/-- A successful buy of at least one piece leaves room for the fee. -/
theorem EndsAsNamed.affords (hends : EndsAsNamed setting) :
    0 < setting.askPrice ∧ setting.askPrice * 1.1 ≤ setting.deposit ∧
      ⌊setting.deposit / (setting.askPrice * 1.1)⌋ * (setting.askPrice * 1.1) + setting.ppt ≤
        setting.balance := by
  obtain ⟨hraised, hamount, hexecuted⟩ := hends.successBuy RandomBetween.second
  rw [setting.successBuy_second] at hraised hamount hexecuted
  dsimp only at hraised hamount
  have hask : 0 < setting.askPrice := by linarith
  have hone : 1 ≤ setting.deposit / (setting.askPrice * 1.1) :=
    Int.floor_pos.mp (Int.cast_pos.mp hamount)
  obtain ⟨environment, before, final, trade, hrun⟩ :=
    setting.exists_buyRun ⟨setting.askPrice * 1.1,
      ⌊setting.deposit / (setting.askPrice * 1.1)⌋⟩ hamount.le hraised.le
  have hpaid := hrun.ends.1.mp (hexecuted environment before final trade hrun)
  exact ⟨hask, (one_le_div hraised).mp hone, hpaid.2⟩

/-- A failing buy is reached by the lowest price and not by the balance. -/
theorem EndsAsNamed.lacksMoney (hends : EndsAsNamed setting) :
    setting.low ≤ max setting.balance setting.askPrice * 0.3 ∧
      setting.balance < 7 * (max setting.balance setting.askPrice * 0.3) + setting.ppt := by
  have hbalance : 0 < setting.balance := setting.deposit_pos.trans_le setting.deposit_le
  have hprice : 0 ≤ (errorBuyCalculator setting.buyOptions).price :=
    mul_nonneg (hbalance.le.trans (le_max_left _ _)) (by norm_num)
  have hamount : 0 ≤ (errorBuyCalculator setting.buyOptions).amount := by
    rw [amount_errorBuyCalculator]
    norm_num
  obtain ⟨environment, before, final, trade, hrun⟩ := setting.exists_buyRun _ hamount hprice
  have hlacking := hrun.ends.2.mp (hends.errorBuy environment before final trade hrun)
  rwa [amount_errorBuyCalculator] at hlacking

theorem EndsAsNamed.sellsOne (hends : EndsAsNamed setting) :
    1 ≤ setting.ownedAmount * setting.ratio := by
  have hsold : 0 < (⌊setting.ownedAmount * setting.ratio⌋ : ℚ) :=
    (hends.successSell RandomBetween.second).2.1
  exact Int.floor_pos.mp (Int.cast_pos.mp hsold)

theorem EndsAsNamed.works (hends : EndsAsNamed setting) : setting.Works := by
  obtain ⟨hask, hone, hfee⟩ := hends.affords
  obtain ⟨hreached, hlacking⟩ := hends.lacksMoney
  exact ⟨hask, hone, hfee, hreached, hlacking, hends.sellsOne⟩

/-- A buy at the raised price costs at most what the largest amount costs. -/
theorem Setting.Works.successBuy (hworks : setting.Works) (randomBetween : RandomBetween) :
    0 < (successBuyCalculator randomBetween setting.buyOptions).price ∧
    0 < (successBuyCalculator randomBetween setting.buyOptions).amount ∧
    ∀ environment before final trade,
      setting.BuyRun (successBuyCalculator randomBetween setting.buyOptions) environment before
        final trade → Executed final trade "Long buy transaction finished!" := by
  have hask := hworks.askPrice_pos
  have hprice : 0 < setting.askPrice * 1.1 := mul_pos hask (by norm_num)
  have hone : 1 ≤ setting.deposit / (setting.askPrice * 1.1) :=
    (one_le_div hprice).mpr hworks.affordsOne
  obtain ⟨hpositive, -, hlargest⟩ := randomBetween.one_le_floor hone
  have hamount : 0 < (successBuyCalculator randomBetween setting.buyOptions).amount :=
    Int.cast_pos.mpr hpositive
  refine ⟨hprice, hamount, fun environment before final trade hrun => ?_⟩
  have hreached : setting.low ≤ setting.askPrice * 1.1 := by linarith [setting.low_le]
  have hcost : (successBuyCalculator randomBetween setting.buyOptions).amount *
      (setting.askPrice * 1.1) ≤
        ⌊setting.deposit / (setting.askPrice * 1.1)⌋ * (setting.askPrice * 1.1) :=
    mul_le_mul_of_nonneg_right (Int.cast_le.mpr hlargest) hprice.le
  exact hrun.ends.1.mpr
    ⟨hreached, (add_le_add_left hcost setting.ppt).trans hworks.leavesFee⟩

/-- A hundredth of the ask price is below every price in the band. -/
theorem Setting.Works.timeoutBuy (hworks : setting.Works) (randomBetween : RandomBetween) :
    0 < (timeoutBuyCalculator randomBetween setting.buyOptions).amount ∧
    ∀ duration environment before final trade,
      NextRun (.longBuy trade.accountId trade.instrumentId
          (timeoutBuyCalculator randomBetween setting.buyOptions).amount duration
          (timeoutBuyCalculator randomBetween setting.buyOptions).price)
        environment before final trade →
      setting.InBand environment trade →
      final.database.trades.find? trade.id = some trade := by
  have hask := hworks.askPrice_pos
  have hprice : 0 < setting.askPrice * 0.01 := mul_pos hask (by norm_num)
  have hone : 1 ≤ setting.deposit / (setting.askPrice * 0.01) :=
    (one_le_div hprice).mpr (by linarith [hworks.affordsOne])
  refine ⟨Int.cast_pos.mpr (randomBetween.one_le_floor hone).1, ?_⟩
  rintro duration environment before final trade hrun ⟨latest, hlatest, hlow, -⟩
  have hbelow : setting.askPrice * 0.01 < latest.low := by linarith
  exact hrun.longBuy_waits hlatest hbelow

theorem Setting.Works.successSell (hworks : setting.Works) (randomBetween : RandomBetween) :
    0 < (successSellCalculator randomBetween setting.sellOptions).price ∧
    0 < (successSellCalculator randomBetween setting.sellOptions).amount ∧
    ∀ environment before final trade,
      setting.SellRun (successSellCalculator randomBetween setting.sellOptions) environment
        before final trade → Executed final trade "Long sell transaction finished!" := by
  have hask := hworks.askPrice_pos
  obtain ⟨hpositive, hbound, -⟩ := randomBetween.one_le_floor hworks.sellsOne
  refine ⟨mul_pos hask (by norm_num), Int.cast_pos.mpr hpositive, ?_⟩
  intro environment before final trade hrun
  have hhigh : setting.askPrice * 0.9 ≤ setting.high := by linarith [setting.le_high]
  have hshare : setting.ownedAmount * setting.ratio ≤ setting.ownedAmount :=
    mul_le_of_le_one_right (zero_le_one.trans setting.one_le_ownedAmount) setting.ratio_le_one
  exact hrun.executed hhigh (hbound.trans hshare)

/-- A hundred times the ask price is above every price in the band. -/
theorem Setting.Works.timeoutSell (hworks : setting.Works) (randomBetween : RandomBetween) :
    0 < (timeoutSellCalculator randomBetween setting.sellOptions).amount ∧
    ∀ duration environment before final trade,
      NextRun (.longSell trade.accountId trade.instrumentId
          (timeoutSellCalculator randomBetween setting.sellOptions).amount duration
          (timeoutSellCalculator randomBetween setting.sellOptions).price)
        environment before final trade →
      setting.InBand environment trade →
      final.database.trades.find? trade.id = some trade := by
  have hask := hworks.askPrice_pos
  refine ⟨Int.cast_pos.mpr (randomBetween.one_le_floor hworks.sellsOne).1, ?_⟩
  rintro duration environment before final trade hrun ⟨latest, hlatest, -, hhigh⟩
  have habove : latest.high < setting.askPrice * 100 := by linarith
  exact hrun.longSell_waits hlatest habove

theorem Setting.Works.endsAsNamed (hworks : setting.Works) : EndsAsNamed setting where
  successBuy := hworks.successBuy
  errorBuy _ _ _ _ hrun := by
    refine hrun.ends.2.mpr ⟨hworks.reachesError, ?_⟩
    rw [amount_errorBuyCalculator]
    exact hworks.lacksMoney
  timeoutBuy := hworks.timeoutBuy
  successSell := hworks.successSell
  errorSell _ _ _ _ hrun := by
    have hask := hworks.askPrice_pos
    have hhigh : setting.askPrice * 0.9 ≤ setting.high := by linarith [setting.le_high]
    have hmore : setting.ownedAmount < setting.ownedAmount * 10 := by
      linarith [setting.one_le_ownedAmount]
    exact hrun.failed hhigh hmore
  timeoutSell := hworks.timeoutSell

/-- The ordered trades end as their scenarios are named exactly when the setting works. -/
theorem endsAsNamed_iff (setting : Setting) : EndsAsNamed setting ↔ setting.Works :=
  ⟨EndsAsNamed.works, Setting.Works.endsAsNamed⟩

end Works

namespace Sample

/-- Thousand paid in, shares at 100 with a fee of 5, and a tenth of the holding to sell. -/
def setting (ownedAmount : ℚ) (howned : 1 ≤ ownedAmount) : Setting where
  deposit := 1000
  balance := 1000
  ownedAmount := ownedAmount
  ratio := 0.1
  ppt := 5
  low := 95
  askPrice := 100
  high := 105
  deposit_pos := by norm_num
  deposit_le := le_rfl
  one_le_ownedAmount := howned
  ratio_pos := by norm_num
  ratio_le_one := by norm_num
  low_le := by norm_num
  le_high := by norm_num

end Sample

/-- With twenty shares to sell from, all six scenarios work. -/
theorem endsAsNamed_twenty : EndsAsNamed (Sample.setting 20 (by norm_num)) := by
  have hfloor : ⌊(1000 : ℚ) / (100 * 1.1)⌋ = 9 := by norm_num [Int.floor_eq_iff]
  refine (endsAsNamed_iff _).mpr ⟨?_, ?_, ?_, ?_, ?_, ?_⟩
  · norm_num [Sample.setting]
  · norm_num [Sample.setting]
  · rw [Sample.setting]
    norm_num [hfloor]
  · norm_num [Sample.setting]
  · norm_num [Sample.setting]
  · norm_num [Sample.setting]

/-- Of five shares the configured tenth is half a share, and nothing is sold. -/
theorem sell_amount_zero : ¬ ∀ setting, EndsAsNamed setting := by
  intro hall
  have hamount : 0 < (⌊(5 : ℚ) * 0.1⌋ : ℚ) :=
    ((hall (Sample.setting 5 (by norm_num))).successSell RandomBetween.second).2.1
  have hfloor : ⌊(5 : ℚ) * 0.1⌋ = 0 := by norm_num [Int.floor_eq_iff]
  rw [hfloor, Int.cast_zero] at hamount
  exact lt_irrefl 0 hamount

end EasyTrade.LoadGenerator

import EasyTrade.Core.DoubleRounding
import EasyTrade.Core.Ledger

/-!
# The generator of the seed data

Accounts with their balances and instruments, the two histories that all accounts share,
and the actions that are generated for an account over a period.  Amounts are exact.  A
point in time is a number of microseconds, and so is a duration.
-/

namespace EasyTrade.UserGenerator

inductive ActionType where
  | withdraw
  | deposit
  | buy
  | sell
  | transactionfee
  deriving DecidableEq

def ActionType.str : ActionType → String
  | withdraw => "withdraw"
  | deposit => "deposit"
  | buy => "buy"
  | sell => "sell"
  | transactionfee => "transactionfee"

inductive InstrumentCode where
  | easytravel
  | easyplanes
  | easyhotels
  | jangrp
  | corfig
  | cmrtin
  | chamat
  | blstcr
  | cafgal
  | decgrp
  | petban
  | batbat
  | stollc
  | lebrga
  | moroba
  deriving DecidableEq

/-- The codes in the order of the enumeration. -/
def InstrumentCode.values : List InstrumentCode :=
  [easytravel, easyplanes, easyhotels, jangrp, corfig, cmrtin, chamat, blstcr, cafgal, decgrp,
    petban, batbat, stollc, lebrga, moroba]

structure ValueError where
  message : String
  deriving DecidableEq

def minBalanceValue : ℚ := 10000
def maxBalanceValue : ℚ := 100000
def minWithdrawValue : ℚ := 0
def minDepositValue : ℚ := 0
def startingIndex : ℕ := 1
def highBalanceThreshold : ℚ := 2
def lowBalanceThreshold : ℚ := 0.3
def balanceWithdrawRatio : ℚ := 0.5
def desiredStockQuantity : ℚ := 500
def minStockBuyRatio : ℚ := 0.3
def maxStockBuyRatio : ℚ := 0.7
def minStockSellRatio : ℚ := 0.3
def maxStockSellRatio : ℚ := 0.6
def minDailyActions : ℕ := 3
def maxDailyActions : ℕ := 7
def tradeSuccessChance : ℚ := 0.9

/-! ## Time -/

abbrev Timestamp := ℤ

structure TimePeriod where
  start : Timestamp
  end_ : Timestamp

def day : ℤ := 24 * 60 * 60 * 1000000

/-- A duration divided by a number: to the nearest microsecond, a tie to the even one. -/
def divideDuration (delta : ℤ) (parts : ℕ) : ℤ :=
  let below := delta / parts
  let rest := delta % parts
  if 2 * rest < parts then below
  else if parts < 2 * rest then below + 1
  else if below % 2 = 0 then below
  else below + 1

namespace TimePeriod

def delta (period : TimePeriod) : ℤ := period.end_ - period.start

def slice (period : TimePeriod) (parts : ℕ) : List TimePeriod :=
  let interval := divideDuration period.delta parts
  let slices :=
    (List.range parts).map (fun i : ℕ => period.start + i * interval) ++ [period.end_]
  slices.zipWith TimePeriod.mk slices.tail

def sliceWithInterval (period : TimePeriod) (interval : ℤ) : List TimePeriod :=
  let ratio := period.delta / interval
  (List.range ratio.toNat).map fun i : ℕ =>
    ⟨period.start + i * interval, period.start + (i + 1) * interval⟩

/-- The source divides in doubles, in which the number of whole intervals is exact; the period of
a generation is one of whole days. -/
theorem length_sliceWithInterval (period : TimePeriod) {interval parts : ℤ}
    (hinterval : interval ≠ 0) (hbits : |parts| < 2 ^ 53)
    (hdelta : period.delta = parts * interval) :
    (period.sliceWithInterval interval).length =
      ⌊DoubleRounding.toDouble (period.delta / interval)⌋.toNat := by
  have hquotient : (period.delta : ℚ) / interval = parts := by
    rw [hdelta, Int.cast_mul, mul_div_cancel_right₀ _ (Int.cast_ne_zero.mpr hinterval)]
  rw [hquotient, DoubleRounding.toDouble_intCast hbits, Int.floor_intCast]
  simp [sliceWithInterval, hdelta, hinterval]

end TimePeriod

/-! ## Random choices -/

/-- What `random()` returns. -/
abbrev Random := { x : ℚ // 0 ≤ x ∧ x < 1 }

def randomBetween (start end_ : ℚ) (random : Random) : ℚ := (end_ - start) * random + start

/-- The draws of one action: `random_between` of its ratio, and `get_trade_success`. -/
structure Draws where
  ratio : Random
  success : Random

/-- What is drawn at random for one account.  `dateTimeBetween` is faker's
`date_time_between`, of which nothing is assumed. -/
structure Choices where
  balanceReference : Random
  dailyActions : ℕ
  dailyActions_mem : minDailyActions ≤ dailyActions ∧ dailyActions ≤ maxDailyActions
  dateTimeBetween : TimePeriod → Timestamp
  draws : ℕ → Draws

/-! ## The balance and its history -/

structure BalanceEntry where
  id : ℕ
  accountId : ℕ
  oldValue : ℚ
  valueChange : ℚ
  actionType : ActionType
  actionDate : Timestamp
  deriving DecidableEq

structure BalanceHistory where
  entryId : ℕ := startingIndex
  entries : List BalanceEntry := []

def BalanceHistory.newEntry (history : BalanceHistory) (accountId : ℕ)
    (oldValue valueChange : ℚ) (actionType : ActionType) (actionDate : Timestamp) :
    BalanceHistory where
  entryId := history.entryId + 1
  entries := history.entries ++
    [⟨history.entryId, accountId, oldValue, valueChange, actionType, actionDate⟩]

structure Balance where
  accountId : ℕ
  value : ℚ := 0

/-! ## Instruments -/

structure Instrument where
  id : ℕ
  code : InstrumentCode
  values : ℤ → ℚ

/-- The key of the values is the minute of the day. -/
def Instrument.getValue (instrument : Instrument) (timestamp : Timestamp) : ℚ :=
  instrument.values (timestamp % day / (60 * 1000000))

/-- The instruments by their codes, as the factory numbers them.  The price of an instrument
at a minute of the day is positive. -/
structure Market where
  values : InstrumentCode → ℤ → ℚ
  value_pos : ∀ code minute, 0 < values code minute

def Market.instruments (market : Market) (code : InstrumentCode) : Instrument :=
  ⟨startingIndex + InstrumentCode.values.idxOf code, code, market.values code⟩

structure OwnedInstrument where
  id : ℕ
  accountId : ℕ
  instrumentId : ℕ
  quantity : ℚ
  lastModification : Timestamp

def OwnedInstrument.modify (owned : OwnedInstrument) (quantityChange : ℚ)
    (timestamp : Timestamp) : OwnedInstrument :=
  { owned with quantity := owned.quantity + quantityChange, lastModification := timestamp }

/-! ## Accounts -/

/-- The dictionary of the owned instruments has an entry for every code. -/
structure Account where
  id : ℕ
  balance : Balance
  ownedInstruments : InstrumentCode → OwnedInstrument

namespace Account

def canSell (account : Account) (code : InstrumentCode) (quantity : ℚ) : Bool :=
  decide ((account.ownedInstruments code).quantity ≥ quantity)

def canBuy (account : Account) (price : ℚ) : Bool :=
  decide (account.balance.value ≥ price)

def modifyInstrument (account : Account) (code : InstrumentCode) (quantity : ℚ)
    (timestamp : Timestamp) : Account :=
  { account with
    ownedInstruments := Function.update account.ownedInstruments code
      ((account.ownedInstruments code).modify quantity timestamp) }

/-- `sorted` is stable. -/
def getInstrumentsByQuantity (account : Account) : List InstrumentCode :=
  InstrumentCode.values.mergeSort fun left right =>
    decide ((account.ownedInstruments left).quantity ≤ (account.ownedInstruments right).quantity)

theorem getInstrumentsByQuantity_ne_nil (account : Account) :
    account.getInstrumentsByQuantity ≠ [] := by
  intro hnil
  have hlength := congrArg List.length hnil
  rw [getInstrumentsByQuantity, List.length_mergeSort] at hlength
  exact absurd hlength (by decide)

end Account

/-! ## Trades -/

structure TradeEntry where
  id : ℕ
  accountId : ℕ
  instrumentId : ℕ
  actionType : ActionType
  quantity : ℚ
  price : ℚ
  timestampOpen : Timestamp
  timestampClose : Timestamp
  tradeEnded : Bool
  tradeSuccessful : Bool
  status : String
  deriving DecidableEq

structure TradeHistory where
  entryId : ℕ := startingIndex
  entries : List TradeEntry := []

def TradeHistory.newEntry (history : TradeHistory) (accountId instrumentId : ℕ)
    (actionType : ActionType) (quantity price : ℚ) (timestampOpen timestampClose : Timestamp)
    (tradeEnded tradeSuccessful : Bool) (status : String) : TradeHistory where
  entryId := history.entryId + 1
  entries := history.entries ++
    [⟨history.entryId, accountId, instrumentId, actionType, quantity, price, timestampOpen,
      timestampClose, tradeEnded, tradeSuccessful, status⟩]

/-- An account that is worked on, and the histories it shares with all others. -/
structure Books where
  account : Account
  balanceHistory : BalanceHistory
  tradeHistory : TradeHistory

namespace Books

/-- `Balance.remove_funds`, with whether the funds were removed. -/
def removeFunds (books : Books) (action : ActionType) (amount : ℚ) (timestamp : Timestamp) :
    Bool × Books :=
  let balance := books.account.balance
  if amount ≤ minWithdrawValue then (false, books)
  else if amount > balance.value then (false, books)
  else
    (true,
      { books with
        balanceHistory := books.balanceHistory.newEntry balance.accountId balance.value (-amount)
          action timestamp
        account := { books.account with
          balance := { balance with value := balance.value - amount } } })

/-- `Balance.add_funds`. -/
def addFunds (books : Books) (action : ActionType) (amount : ℚ) (timestamp : Timestamp) :
    Bool × Books :=
  let balance := books.account.balance
  if amount < minDepositValue then (false, books)
  else
    (true,
      { books with
        balanceHistory := books.balanceHistory.newEntry balance.accountId balance.value amount
          action timestamp
        account := { books.account with
          balance := { balance with value := balance.value + amount } } })

/-- `Balance.action`. -/
def action (books : Books) : ActionType → ℚ → Timestamp → Bool × Books
  | .withdraw => books.removeFunds .withdraw
  | .deposit => books.addFunds .deposit
  | .buy => books.removeFunds .buy
  | .sell => books.addFunds .sell
  | .transactionfee => books.removeFunds .transactionfee

def modifyInstrument (books : Books) (code : InstrumentCode) (quantity : ℚ)
    (timestamp : Timestamp) : Books :=
  { books with account := books.account.modifyInstrument code quantity timestamp }

/-- `Account.buy_instrument`; what `remove_funds` returns is not looked at. -/
def buyInstrument (books : Books) (code : InstrumentCode) (quantity price : ℚ)
    (timestamp : Timestamp) : Bool × Books :=
  if !books.account.canBuy price then (false, books)
  else (true, (books.removeFunds .buy price timestamp).2.modifyInstrument code quantity timestamp)

/-- `Account.sell_instrument`. -/
def sellInstrument (books : Books) (code : InstrumentCode) (quantity price : ℚ)
    (timestamp : Timestamp) : Bool × Books :=
  if !books.account.canSell code quantity then (false, books)
  else
    (true, ((books.modifyInstrument code (-quantity) timestamp).addFunds .sell price timestamp).2)

/-- `Account.deposit_funds`. -/
def depositFunds (books : Books) (amount : ℚ) (timestamp : Timestamp) : Books :=
  (books.action .deposit amount timestamp).2

/-- `Account.withdraw_funds`. -/
def withdrawFunds (books : Books) (amount : ℚ) (timestamp : Timestamp) : Books :=
  (books.action .withdraw amount timestamp).2

/-- The end of `TradeManager.trade`. -/
def newTrade (books : Books) (action : ActionType) (instrument : Instrument)
    (quantity unitPrice : ℚ) (timestamp : Timestamp) (duration : ℤ) (tradeSuccess : Bool) :
    Books :=
  { books with
    tradeHistory := books.tradeHistory.newEntry books.account.id instrument.id action quantity
      unitPrice timestamp (timestamp + duration) true tradeSuccess
      (if tradeSuccess then "Transaction completed successfully"
        else "Transaction did not succeed") }

end Books

def getTradeSuccess (chance : ℚ) (random : Random) : Bool := decide (random ≤ chance)

/-- The look-up in `transactions`. -/
def transaction (books : Books) :
    ActionType → Except ValueError (InstrumentCode → ℚ → ℚ → Timestamp → Bool × Books)
  | .buy => .ok books.buyInstrument
  | .sell => .ok books.sellInstrument
  | action => .error ⟨"Unknown action " ++ action.str⟩

/-- `TradeManager.trade`: a trade that the account refuses is not recorded, one that is
unlucky is recorded and changes nothing else. -/
def trade (action : ActionType) (books : Books) (instrument : Instrument) (quantity : ℚ)
    (timestamp : Timestamp) (duration : ℤ) (random : Random) : Except ValueError Books := do
  let unitPrice := instrument.getValue timestamp
  let price := quantity * unitPrice
  let tradeSuccess := getTradeSuccess tradeSuccessChance random
  if tradeSuccess then
    let run ← transaction books action
    let (result, books) := run instrument.code quantity price timestamp
    if !result then return books
    return books.newTrade action instrument quantity unitPrice timestamp duration tradeSuccess
  return books.newTrade action instrument quantity unitPrice timestamp duration tradeSuccess

/-! ## Actions -/

namespace Actions

def lowBalanceAction (books : Books) (timestamp : Timestamp) (balanceReference : ℚ) : Books :=
  books.depositFunds (balanceReference - books.account.balance.value) timestamp

def highBalanceAction (books : Books) (timestamp : Timestamp) : Books :=
  books.withdrawFunds (balanceWithdrawRatio * books.account.balance.value) timestamp

def lowInstrumentQuantityAction (books : Books) (instrument : Instrument)
    (timestamp : Timestamp) (draws : Draws) : Except ValueError Books :=
  let buyCredit := books.account.balance.value *
    randomBetween minStockBuyRatio maxStockBuyRatio draws.ratio
  let buyQuantity : ℤ := ⌊buyCredit / instrument.getValue timestamp⌋
  trade .buy books instrument buyQuantity timestamp 0 draws.success

def highInstrumentQuantityAction (books : Books) (instrument : Instrument)
    (ownedQuantity : ℚ) (timestamp : Timestamp) (draws : Draws) : Except ValueError Books :=
  let sellQuantity : ℤ :=
    ⌊ownedQuantity * randomBetween minStockSellRatio maxStockSellRatio draws.ratio⌋
  trade .sell books instrument sellQuantity timestamp 0 draws.success

end Actions

def createDailyPeriods (period : TimePeriod) : List TimePeriod := period.sliceWithInterval day

/-- `Timeframe.get_datetime_series` on a day. -/
def createDailyActionTimestamps (choices : Choices) (period : TimePeriod) (actions : ℕ) :
    List Timestamp :=
  (period.slice actions).map choices.dateTimeBetween

def createActionTimestamps (choices : Choices) (period : TimePeriod) (dailyActions : ℕ) :
    List Timestamp :=
  (createDailyPeriods period).flatMap fun day =>
    createDailyActionTimestamps choices day dailyActions

variable (market : Market)

def generateAction (books : Books) (timestamp : Timestamp) (balanceReference : ℚ)
    (draws : Draws) : Except ValueError Books :=
  if books.account.balance.value < lowBalanceThreshold * balanceReference then
    .ok (Actions.lowBalanceAction books timestamp balanceReference)
  else if books.account.balance.value > highBalanceThreshold * balanceReference then
    .ok (Actions.highBalanceAction books timestamp)
  else
    let code := books.account.getInstrumentsByQuantity.head
      books.account.getInstrumentsByQuantity_ne_nil
    let instrument := market.instruments code
    let owned := books.account.ownedInstruments code
    if owned.quantity < desiredStockQuantity then
      Actions.lowInstrumentQuantityAction books instrument timestamp draws
    else if owned.quantity > desiredStockQuantity then
      Actions.highInstrumentQuantityAction books instrument owned.quantity timestamp draws
    else .ok books

/-- The loop of `make_history`, with the draws of the actions by their positions. -/
def generateActions (balanceReference : ℚ) (draws : ℕ → Draws) :
    List Timestamp → Books → Except ValueError Books
  | [], books => .ok books
  | timestamp :: rest, books => do
      let books ← generateAction market books timestamp balanceReference (draws 0)
      generateActions balanceReference (fun i => draws (i + 1)) rest books

def makeHistory (choices : Choices) (books : Books) (period : TimePeriod) :
    Except ValueError Books :=
  let balanceReference := randomBetween minBalanceValue maxBalanceValue choices.balanceReference
  let actionTimestamps := createActionTimestamps choices period choices.dailyActions
  generateActions market balanceReference choices.draws actionTimestamps books

/-! ## The whole generation -/

/-- The counters of `AccountFactory` and of its `OwnedInstrumentFactory`. -/
structure AccountFactory where
  accountId : ℕ := startingIndex
  instrumentId : ℕ := startingIndex

def createOwnedInstruments (factory : AccountFactory) (accountId : ℕ) (timestamp : Timestamp) :
    (InstrumentCode → OwnedInstrument) × AccountFactory :=
  (fun code =>
    { id := factory.instrumentId + InstrumentCode.values.idxOf code
      accountId := accountId
      instrumentId := (market.instruments code).id
      quantity := 0
      lastModification := timestamp },
    { factory with instrumentId := factory.instrumentId + InstrumentCode.values.length })

def createAccountForUser (factory : AccountFactory) (timestamp : Timestamp) :
    Account × AccountFactory :=
  let accountId := factory.accountId
  let factory := { factory with accountId := factory.accountId + 1 }
  let (ownedInstruments, factory) := createOwnedInstruments market factory accountId timestamp
  (⟨accountId, { accountId := accountId }, ownedInstruments⟩, factory)

/-- `get_accounts` for so many users. -/
def getAccounts (timestamp : Timestamp) : (users : ℕ) → AccountFactory → List Account
  | 0, _ => []
  | users + 1, factory =>
      let (account, factory) := createAccountForUser market factory timestamp
      account :: getAccounts timestamp users factory

/-- `get_owned_instruments`. -/
def getOwnedInstruments (accounts : List Account) : List OwnedInstrument :=
  accounts.flatMap fun account => InstrumentCode.values.map account.ownedInstruments

structure SeedData where
  accounts : List Account
  balanceHistory : BalanceHistory
  tradeHistory : TradeHistory

/-- The body of the loop of the entry point, which passes over the first `preset`
accounts. -/
def makeHistoryBeyond (preset : ℕ) (choices : Choices) (period : TimePeriod) (books : Books) :
    Except ValueError Books :=
  if books.account.id > preset then makeHistory market choices books period else .ok books

def makeHistories (preset : ℕ) (choices : ℕ → Choices) (period : TimePeriod) :
    List Account → BalanceHistory → TradeHistory → Except ValueError SeedData
  | [], balanceHistory, tradeHistory => .ok ⟨[], balanceHistory, tradeHistory⟩
  | account :: rest, balanceHistory, tradeHistory => do
      let books ← makeHistoryBeyond market preset (choices account.id) period
        ⟨account, balanceHistory, tradeHistory⟩
      let seed ← makeHistories preset choices period rest books.balanceHistory books.tradeHistory
      return { seed with accounts := books.account :: seed.accounts }

/-- `entrypoint_generate_easy_trade_data` for so many users; there `preset` is 5. -/
def generateEasyTradeData (preset : ℕ) (choices : ℕ → Choices) (period : TimePeriod)
    (users : ℕ) : Except ValueError SeedData :=
  makeHistories market preset choices period (getAccounts market period.start users {}) {} {}

end EasyTrade.UserGenerator

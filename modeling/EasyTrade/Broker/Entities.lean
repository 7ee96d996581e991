import Mathlib

/-!
# Entities of the broker service

The rows and value objects the broker works on, under the names the service
gives them.  A `decimal` is a rational number, so arithmetic is exact; a
`DateTime` is its number of ticks.
-/

namespace EasyTrade.Broker

/-- A `DateTime` as its number of 100 ns ticks. -/
abbrev DateTime := ℤ

namespace DateTime

def maxTicks : ℤ := 3155378975999999999

def ticksPerHour : ℤ := 36000000000

/-- `AddHours` throws outside the range of `DateTime`. -/
def addHours (time : DateTime) (hours : ℤ) : Option DateTime :=
  let ticks := time + hours * ticksPerHour
  if 0 ≤ ticks ∧ ticks ≤ maxTicks then some ticks else none

end DateTime

/-- `Constants.OwnerId`: the account that collects the transaction fees. -/
def ownerId : ℤ := 1

inductive ActionType
  | sell
  | buy
  | deposit
  | withdraw
  | packageFee
  | transactionFee
  | collectFee
  | longSell
  | longBuy
  deriving DecidableEq, Repr

namespace ActionType

/-- `ActionType.ToString()`. -/
def name : ActionType → String
  | sell => "Sell"
  | buy => "Buy"
  | deposit => "Deposit"
  | withdraw => "Withdraw"
  | packageFee => "PackageFee"
  | transactionFee => "TransactionFee"
  | collectFee => "CollectFee"
  | longSell => "LongSell"
  | longBuy => "LongBuy"

/-- The name as it is stored in a row: `ToString().ToLower()`, spelled out. -/
def stored : ActionType → String
  | sell => "sell"
  | buy => "buy"
  | deposit => "deposit"
  | withdraw => "withdraw"
  | packageFee => "packagefee"
  | transactionFee => "transactionfee"
  | collectFee => "collectfee"
  | longSell => "longsell"
  | longBuy => "longbuy"

theorem stored_eq_toLower (actionType : ActionType) :
    actionType.stored = actionType.name.toLower := by
  cases actionType <;> decide +kernel

end ActionType

/-- `StringComparison.OrdinalIgnoreCase` against one of the ASCII action
names. -/
def equalsIgnoreCase (text name : String) : Bool :=
  text.toList.map Char.toLower == name.toList.map Char.toLower

theorem equalsIgnoreCase_stored (actionType : ActionType) :
    equalsIgnoreCase actionType.stored actionType.name := by
  cases actionType <;> decide +kernel

/-- The exceptions the operations of the service can end with. -/
inductive BrokerException
  | accountNotFound (id : ℤ)
  | instrumentNotFound (id : ℤ)
  | negativeAmount (message : String)
  | notEnoughMoney (message : String) (missing : ℚ)
  | notEnoughAssets
  /-- `DbException` around the exception of `SaveChanges` or the commit. -/
  | db (inner : BrokerException)
  | nullReference
  /-- Indexing a dictionary by a key it does not have. -/
  | keyNotFound (key : ℤ)
  /-- `ToDictionary` over two elements with one key. -/
  | duplicateKey (key : ℤ)
  | argumentOutOfRange
  | invalidOperation (message : String)
  /-- Whatever a database driver or an HTTP client throws. -/
  | unexpected (message : String)
  deriving DecidableEq, Repr

/-- `NegativeAmountException()`. -/
def BrokerException.negativeAmountDefault : BrokerException :=
  .negativeAmount "Amount can't be lower that 0"

structure Balance where
  accountId : ℤ
  value : ℚ
  deriving DecidableEq, Repr

namespace Balance

def deposit (balance : Balance) (amount : ℚ) : Except BrokerException Balance :=
  if amount < 0 then
    .error .negativeAmountDefault
  else
    .ok { balance with value := balance.value + amount }

def withdraw (balance : Balance) (amount : ℚ) : Except BrokerException Balance :=
  if amount < 0 then
    .error .negativeAmountDefault
  else if amount > balance.value then
    .error (.notEnoughMoney "Not enough money to withdraw" (amount - balance.value))
  else
    .ok { balance with value := balance.value - amount }

end Balance

structure BalanceHistory where
  accountId : ℤ
  oldValue : ℚ
  valueChange : ℚ
  actionType : String
  actionDate : DateTime
  deriving DecidableEq, Repr

/-- The constructor that stores the action's name and the current time. -/
def BalanceHistory.ofAction (accountId : ℤ) (oldValue valueChange : ℚ)
    (actionType : ActionType) (now : DateTime) : BalanceHistory where
  accountId := accountId
  oldValue := oldValue
  valueChange := valueChange
  actionType := actionType.stored
  actionDate := now

structure Instrument where
  id : ℤ
  productId : ℤ
  code : String
  name : String
  description : String
  deriving DecidableEq, Repr

structure OwnedInstrument where
  id : ℤ
  accountId : ℤ
  instrumentId : ℤ
  quantity : ℚ
  lastModificationDate : DateTime
  deriving DecidableEq, Repr

/-- A new row; the database generates its id when it is saved. -/
def OwnedInstrument.new (accountId instrumentId : ℤ) (quantity : ℚ)
    (now : DateTime) : OwnedInstrument where
  id := 0
  accountId := accountId
  instrumentId := instrumentId
  quantity := quantity
  lastModificationDate := now

structure Product where
  id : ℤ
  name : String
  /-- Price per transaction: the fee of every trade. -/
  ppt : ℚ
  deriving DecidableEq, Repr

structure Price where
  instrumentId : ℤ
  timestamp : DateTime
  openPrice : ℚ
  high : ℚ
  low : ℚ
  closePrice : ℚ
  deriving DecidableEq, Repr

/-- An entry of an account's instrument list.  `PriceDTO` has the fields of
`Price`. -/
structure InstrumentDTO where
  id : ℤ
  code : String
  name : String
  description : String
  productId : ℤ
  productName : String
  price : Price
  amount : ℚ
  deriving DecidableEq, Repr

def InstrumentDTO.of (instrument : Instrument) (ownedInstrument : Option OwnedInstrument)
    (product : Product) (price : Price) : InstrumentDTO where
  id := instrument.id
  code := instrument.code
  name := instrument.name
  description := instrument.description
  productId := product.id
  productName := product.name
  price := price
  amount := (ownedInstrument.map OwnedInstrument.quantity).getD 0

structure Trade where
  id : ℤ
  accountId : ℤ
  instrumentId : ℤ
  direction : String
  quantity : ℚ
  entryPrice : ℚ
  timestampOpen : DateTime
  timestampClose : Option DateTime
  tradeClosed : Bool
  transactionHappened : Bool
  status : String
  deriving DecidableEq, Repr

namespace Trade

/-- `Trade.QuickTrade`, with the two readings of the clock it makes. -/
def quickTrade (accountId instrumentId : ℤ) (direction : ActionType)
    (price quantity : ℚ) (opened closed : DateTime) : Trade where
  id := 0
  accountId := accountId
  instrumentId := instrumentId
  direction := direction.stored
  quantity := quantity
  entryPrice := price
  timestampOpen := opened
  timestampClose := some closed
  tradeClosed := true
  transactionHappened := true
  status := "Instant " ++ direction.name ++ " done."

/-- `Trade.LongTrade`, with the time it opens and the time it expires. -/
def longTrade (accountId instrumentId : ℤ) (direction : ActionType)
    (price quantity : ℚ) (opened expires : DateTime) : Trade where
  id := 0
  accountId := accountId
  instrumentId := instrumentId
  direction := direction.stored
  quantity := quantity
  entryPrice := price
  timestampOpen := opened
  timestampClose := some expires
  tradeClosed := false
  transactionHappened := false
  status := direction.name ++ " registered."

/-- A trade after `CloseTrade`. -/
def close (trade : Trade) (status : String) (transactionHappened : Bool) : Trade :=
  { trade with
    status := status
    transactionHappened := transactionHappened
    tradeClosed := true }

/-- The filter of `CloseOverdueTrades`: open and past its close time.  A
trade without a close time is never overdue. -/
def overdue (now : DateTime) (trade : Trade) : Bool :=
  !trade.tradeClosed && trade.timestampClose.any (· < now)

end Trade

end EasyTrade.Broker

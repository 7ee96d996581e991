import EasyTrade.Broker.Commands

/-!
# The broker's services

`BalanceService`, `TradeServiceBase`, `TradeService`, `LongTradeService` and
`InstrumentService`, method by method.  An entity is a value: where the service
mutates an object and then hands it to the repository's `Update`, the model
hands over the mutated value.
-/

namespace EasyTrade.Broker

open EasyTrade.Program

/-- The `!` operator followed by a member access. -/
def notNull {α : Type} : Option α → Request α
  | some value => pure value
  | none => throw .nullReference

/-- The first key that occurs a second time. -/
def firstRepeated (seen : List ℤ) : List ℤ → Option ℤ
  | [] => none
  | key :: rest =>
      if key ∈ seen then some key else firstRepeated (key :: seen) rest

/-- `ToDictionary`, as the lookup function of the dictionary. -/
def toDictionary {α : Type} (key : α → ℤ) (items : List α) :
    Request (ℤ → Option α) :=
  match firstRepeated [] (items.map key) with
  | some repeated => throw (.duplicateKey repeated)
  | none => pure fun k => items.find? fun item => key item = k

/-- The indexer of a dictionary. -/
def index {α : Type} (dictionary : ℤ → Option α) (key : ℤ) : Request α :=
  match dictionary key with
  | some value => pure value
  | none => throw (.keyNotFound key)

/-- The exception of a failed entity method. -/
def ofExcept {α : Type} : Except BrokerException α → Request α
  | .ok value => pure value
  | .error error => throw error

/-- `PriceServiceConnector.GetLastPriceByInstrumentId`. -/
def getLastPriceByInstrumentId (id : ℤ) : Request (Option Price) := do
  let prices ← issue (.getPricesByInstrumentId id 1)
  return prices.head?

/-- The `try` block that ends every modifying operation, the same in
`TradeServiceBase` and in `BalanceService`. -/
def saveChangesOrRollback : Request Unit := do
  try
    issue .saveChanges
    issue .commitTransaction
  catch exception =>
    issue .rollbackTransaction
    throw (.db exception)

namespace BalanceService

def modifyBalance (accountId : ℤ) (amount : ℚ) (actionType : ActionType) :
    Request Balance := do
  let some balance ← issue (.getBalanceOfAccount accountId)
    | throw (.accountNotFound accountId)
  let balanceDifference := if actionType = .withdraw then -amount else amount
  let now ← issue .utcNow
  let balanceHistory := BalanceHistory.ofAction accountId balance.value
    balanceDifference actionType now
  let balance ← match actionType with
    | .withdraw => ofExcept (balance.withdraw amount)
    | .deposit => ofExcept (balance.deposit amount)
    | _ => throw (.invalidOperation "Operation is not valid")
  issue .beginTransaction
  issue (.updateBalance balance)
  issue (.addBalanceHistory balanceHistory)
  saveChangesOrRollback
  return balance

def deposit (accountId : ℤ) (amount : ℚ) : Request Balance :=
  modifyBalance accountId amount .deposit

def withdraw (accountId : ℤ) (amount : ℚ) : Request Balance :=
  modifyBalance accountId amount .withdraw

end BalanceService

namespace TradeServiceBase

/-- `UpdateOwnedInstrument(OwnedInstrument, decimal)`. -/
def updateOwnedInstrument (ownedInstrument : OwnedInstrument) (amount : ℚ) :
    Request Unit := do
  let now ← issue .utcNow
  issue (.updateOwnedInstrument
    { ownedInstrument with
      quantity := ownedInstrument.quantity + amount
      lastModificationDate := now })

/-- `UpdateOwnedInstrument(int, int, decimal)`. -/
def updateOwnedInstrumentOf (accountId instrumentId : ℤ) (amount : ℚ) :
    Request Unit := do
  match ← issue (.getOwnedInstrument accountId instrumentId) with
  | none =>
      let now ← issue .utcNow
      issue (.addOwnedInstrument
        (OwnedInstrument.new accountId instrumentId amount now))
  | some ownedInstrument => updateOwnedInstrument ownedInstrument amount

def collectFee (fee : ℚ) : Request Unit := do
  let ownerBalance ← notNull (← issue (.getBalanceOfAccount ownerId))
  let now ← issue .utcNow
  issue (.addBalanceHistory
    (BalanceHistory.ofAction ownerId ownerBalance.value fee .collectFee now))
  issue (.updateBalance { ownerBalance with value := ownerBalance.value + fee })

/-- What a trade adds to the trader's balance before the fee. -/
def incomeOf (actionType : ActionType) (amount : ℚ) : ℚ :=
  if actionType = .sell ∨ actionType = .longSell then amount else -amount

def updateBalance (balance : Balance) (amount ppt : ℚ) (actionType : ActionType) :
    Request Unit := do
  let income := incomeOf actionType amount
  let now ← issue .utcNow
  issue (.addBalanceHistory
    (BalanceHistory.ofAction balance.accountId balance.value income actionType now))
  let balance := { balance with value := balance.value + income }
  let now ← issue .utcNow
  issue (.addBalanceHistory
    (BalanceHistory.ofAction balance.accountId balance.value (-ppt) .transactionFee now))
  let balance := { balance with value := balance.value - ppt }
  issue (.updateBalance balance)
  collectFee ppt

end TradeServiceBase

namespace TradeService

open TradeServiceBase

def validateInput (amount : ℚ) : Request Unit :=
  if amount < 0 then throw .negativeAmountDefault else pure ()

/-- The fraud score is logged and does not decide anything; the call may
throw. -/
def checkFraud (environment : Environment) (query : FraudQuery) : Request ℚ :=
  if environment.fraudDetectionEnabled then issue (.scoreTradeAsync query)
  else pure 0

def buyAssets (environment : Environment) (accountId instrumentId : ℤ) (amount : ℚ) :
    Request Trade := do
  validateInput amount
  let some balance ← issue (.getBalanceOfAccount accountId)
    | throw (.accountNotFound accountId)
  let some instrument ← issue (.getInstrument instrumentId)
    | throw (.instrumentNotFound instrumentId)
  let lastPrice ← notNull (← getLastPriceByInstrumentId instrumentId)
  let price := lastPrice.openPrice
  let product ← notNull (← issue (.getProduct instrument.productId))
  let cost := amount * price
  let totalCost := cost + product.ppt
  if totalCost > balance.value then
    throw (.notEnoughMoney "Not enough money to buy this asset"
      (totalCost - balance.value))
  else
    let _fraudScore ←
      checkFraud environment ⟨accountId, instrumentId, true, amount, price, cost, true⟩
    issue .beginTransaction
    let opened ← issue .utcNow
    let closed ← issue .utcNow
    let trade := Trade.quickTrade accountId instrumentId .buy price amount opened closed
    issue (.addTrade trade)
    updateBalance balance cost product.ppt .buy
    updateOwnedInstrumentOf accountId instrumentId amount
    saveChangesOrRollback
    return trade

def sellAssets (environment : Environment) (accountId instrumentId : ℤ) (amount : ℚ) :
    Request Trade := do
  validateInput amount
  let some balance ← issue (.getBalanceOfAccount accountId)
    | throw (.accountNotFound accountId)
  let some instrument ← issue (.getInstrument instrumentId)
    | throw (.instrumentNotFound instrumentId)
  let lastPrice ← notNull (← getLastPriceByInstrumentId instrumentId)
  let price := lastPrice.openPrice
  let product ← issue (.getProduct instrument.productId)
  match ← issue (.getOwnedInstrument accountId instrumentId) with
  | none => throw .notEnoughAssets
  | some ownedInstrument =>
    if ownedInstrument.quantity < amount then
      throw .notEnoughAssets
    else
      let income := price * amount
      let _fraudScore ←
        checkFraud environment ⟨accountId, instrumentId, true, amount, price, income, false⟩
      issue .beginTransaction
      let opened ← issue .utcNow
      let closed ← issue .utcNow
      let trade := Trade.quickTrade accountId instrumentId .sell price amount opened closed
      issue (.addTrade trade)
      -- here, and not at the query, a missing product is noticed
      let product ← notNull product
      updateBalance balance income product.ppt .sell
      updateOwnedInstrument ownedInstrument (-amount)
      saveChangesOrRollback
      return trade

end TradeService

namespace LongTradeService

open TradeServiceBase

def validateInput (amount price : ℚ) (duration : ℤ) : Request Unit :=
  if amount < 0 then throw .negativeAmountDefault
  else if price < 0 then throw (.negativeAmount "Price cannot be lower that 0")
  else if duration < 0 then throw (.negativeAmount "Duration cannot be lower that 0")
  else pure ()

/-- `AddHours` on the second reading of the clock. -/
def expiry (duration : ℤ) : Request DateTime := do
  let now ← issue .utcNow
  match now.addHours duration with
  | some time => pure time
  | none => throw .argumentOutOfRange

def createLongTransaction (accountId instrumentId : ℤ) (amount : ℚ) (duration : ℤ)
    (price : ℚ) (type : ActionType) : Request Trade := do
  validateInput amount price duration
  let some _ ← issue (.getBalanceOfAccount accountId)
    | throw (.accountNotFound accountId)
  let some _ ← issue (.getInstrument instrumentId)
    | throw (.instrumentNotFound instrumentId)
  issue .beginTransaction
  let opened ← issue .utcNow
  let expires ← expiry duration
  let trade := Trade.longTrade accountId instrumentId type price amount opened expires
  issue (.addTrade trade)
  saveChangesOrRollback
  return trade

def buyAssets (accountId instrumentId : ℤ) (amount : ℚ) (duration : ℤ) (price : ℚ) :
    Request Trade :=
  createLongTransaction accountId instrumentId amount duration price .longBuy

def sellAssets (accountId instrumentId : ℤ) (amount : ℚ) (duration : ℤ) (price : ℚ) :
    Request Trade :=
  createLongTransaction accountId instrumentId amount duration price .longSell

/-- The engine service is notified here, while the transaction is open. -/
def closeTrade (trade : Trade) (status : String) (transactionHappened : Bool) :
    Request Unit := do
  issue (.updateTrade (trade.close status transactionHappened))
  issue (.onTradeClosed (trade.close status transactionHappened))

def closeOverdueTrades : Request Unit := do
  let trades : List Trade ← issue (.getTradesWhere Trade.overdue)
  forM trades fun trade => closeTrade trade "Time is up: trade failed" false

def processLongBuy (trade : Trade) (instrument : Instrument) (price : Price)
    (product : Product) : Request Unit := do
  if trade.entryPrice < price.low then
    return
  else
    let balance ← notNull (← issue (.getBalanceOfAccount trade.accountId))
    let cost := trade.quantity * trade.entryPrice
    let totalCost := cost + product.ppt
    if totalCost > balance.value then
      closeTrade trade "Not enough money to buy stocks! Trade failed!" false
    else
      updateBalance balance cost product.ppt .longBuy
      updateOwnedInstrumentOf trade.accountId instrument.id trade.quantity
      closeTrade trade "Long buy transaction finished!" true

def processLongSell (trade : Trade) (instrument : Instrument) (price : Price)
    (product : Product) : Request Unit := do
  if trade.entryPrice > price.high then
    return
  else
    match ← issue (.getOwnedInstrument trade.accountId instrument.id) with
    | none => closeTrade trade "Not enough stocks to sell! Trade failed!" false
    | some ownedInstrument =>
      if ownedInstrument.quantity < trade.quantity then
        closeTrade trade "Not enough stocks to sell! Trade failed!" false
      else
        let balance ← notNull (← issue (.getBalanceOfAccount trade.accountId))
        let income := trade.entryPrice * trade.quantity
        updateBalance balance income product.ppt .longSell
        updateOwnedInstrument ownedInstrument (-trade.quantity)
        closeTrade trade "Long sell transaction finished!" true

/-- What is done with an open trade, by its direction. -/
def processByDirection (openTrade : Trade) (instrument : Instrument) (price : Price)
    (product : Product) : Request Unit :=
  if equalsIgnoreCase openTrade.direction ActionType.longBuy.name then
    processLongBuy openTrade instrument price product
  else if equalsIgnoreCase openTrade.direction ActionType.longSell.name then
    processLongSell openTrade instrument price product
  else
    closeTrade openTrade "This is not a long running transcation! Trade failed!" false

/-- The body of the loop over the open trades. -/
def processOpenTrade (instruments : ℤ → Option Instrument) (prices : ℤ → Option Price)
    (products : ℤ → Option Product) (openTrade : Trade) : Request Unit := do
  let instrument ← index instruments openTrade.instrumentId
  let price ← index prices instrument.id
  let product ← index products instrument.productId
  processByDirection openTrade instrument price product
  issue .saveChanges

def processLongRunningTransactions : Request Unit := do
  issue .beginTransaction
  closeOverdueTrades
  issue .saveChanges
  let openTrades : List Trade ←
    issue (.getTradesWhere fun _ trade => !trade.tradeClosed)
  let instruments ← toDictionary Instrument.id (← issue .getAllInstruments)
  let prices ← toDictionary Price.instrumentId (← issue .getLatestPrices)
  let products ← toDictionary Product.id (← issue .getProducts)
  forM openTrades (processOpenTrade instruments prices products)
  saveChangesOrRollback

end LongTradeService

namespace InstrumentService

/-- An instrument is left out of the list when its product or its price is
missing. -/
def getInstruments (accountId : ℤ) : Request (List InstrumentDTO) := do
  let instruments : List Instrument ← issue .getAllInstruments
  let ownedInstruments ← toDictionary OwnedInstrument.instrumentId
    (← issue (.getOwnedInstrumentsOfAccount accountId))
  let prices ← toDictionary Price.instrumentId (← issue .getLatestPrices)
  let products ← toDictionary Product.id (← issue .getProducts)
  return instruments.filterMap fun instrument => do
    let product ← products instrument.productId
    let price ← prices instrument.id
    return InstrumentDTO.of instrument (ownedInstruments instrument.id) product price

end InstrumentService

end EasyTrade.Broker

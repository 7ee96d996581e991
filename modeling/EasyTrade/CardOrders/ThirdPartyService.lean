import EasyTrade.CardOrders.OrderService

/-!
# The third party service

`ManufactureScheduler`, `CourierScheduler`, `ServiceHelper` and
`ManufacturerController`, method by method.  Each scheduler is the only one to
change the fields of the processes in its list, so the process that an iterator
has returned is still as it was until the scheduler itself changes it.
-/

namespace EasyTrade.CardOrders

open EasyTrade.Program

namespace ServiceHelper

/-- `updateStatus`.  A response other than 200 is only logged. -/
def updateStatus (status : OrderStatus) (creditCardOrderId : Guid) (details : Details) :
    Task Unit := do
  let timestamp ← ambient .now
  let _ ← httpCall (.updateStatus creditCardOrderId
    ⟨creditCardOrderId, some status.statusType, timestamp, details⟩)

def getShippingAddress (creditCardOrderId : Guid) : Task (Option ShippingAddressResponse) := do
  let standardResponse ← httpCall (.getShippingAddress creditCardOrderId)
  if standardResponse.statusCode = 200 then
    match standardResponse.results with
    | .shippingAddress response => return some response
    | _ => throw .illegalArgument
  else
    return none

end ServiceHelper

namespace ManufactureScheduler

def delayChance : ℕ := 20

/-- `String.format("%0{width}d", n)`. -/
def zeroPadded (width n : ℕ) : String :=
  String.ofList (List.replicate (width - (toString n).length) '0') ++ toString n

def generateCardDetails (cardLevel : String) : Task CreditCardRequest := do
  let cal ← ambient (.calendarAfter 3)
  let first ← ambient (.nextInt 100000)
  let second ← ambient (.nextInt 1000000)
  let third ← ambient (.nextInt 100000)
  let cvs ← ambient (.nextInt 1000)
  return ⟨cardLevel, zeroPadded 5 first ++ zeroPadded 6 second ++ zeroPadded 5 third,
    zeroPadded 3 cvs, cal⟩

def processIssueAndErrorStatus (process : ManufactureProcess) : Task Unit := do
  if ← ambient (.getBooleanValue "factory_crisis") then
    if process.status ≠ .manufactureError then
      list (.setManufactureStatus process.ref .manufactureError)
      ServiceHelper.updateStatus .cardError process.request.creditCardOrderId
        (.error .factoryFailure)
  else if (← ambient (.nextInt 100)) < delayChance then
    let errorBody ← do
      if (← ambient (.nextInt 2)) = 0 then pure ErrorRequest.delayOnChips
      else pure ErrorRequest.factoryFailure
    list (.setManufactureStatus process.ref .manufactureError)
    ServiceHelper.updateStatus .cardError process.request.creditCardOrderId (.error errorBody)
  else
    let cardBody ← generateCardDetails process.request.cardLevel
    list (.setCardDetails process.ref cardBody)
    list (.setManufactureStatus process.ref .cardCreated)
    ServiceHelper.updateStatus .cardCreated process.request.creditCardOrderId
      (.creditCard cardBody)

/-- The body of the first loop: what is to be removed in the end. -/
def processOne (process : ManufactureProcess) : Task (List ManufactureProcess) := do
  match process.status with
  | .issuing | .manufactureError =>
      processIssueAndErrorStatus process
      return []
  | .cardCreated =>
      list (.addCourierProcess process.ref process.request.creditCardOrderId)
      return [process]

/-- `for (ManufactureProcess process : syncList)`.  An iterator returns at most
the `left` elements that its list had; when the list seems to go on after them, it
has grown, and `next` throws. -/
def processAll (expectedModCount : ℕ) :
    (left cursor : ℕ) → Task (List ManufactureProcess)
  | 0, cursor => do
      if ← list (.manufactureHasNext cursor) then
        let _ ← list (.manufactureNext cursor expectedModCount)
      return []
  | left + 1, cursor => do
      if ← list (.manufactureHasNext cursor) then
        let process ← list (.manufactureNext cursor expectedModCount)
        let toBeRemoved ← processOne process
        return toBeRemoved ++ (← processAll expectedModCount left (cursor + 1))
      else
        return []

/-- `run`, without the sleep at its end. -/
def run : Task Unit :=
  tryCatch (do
    let (expectedModCount, size) ← list .manufactureIterator
    let toBeRemoved ← processAll expectedModCount size 0
    forM toBeRemoved fun process => list (.removeManufactureProcess process.ref))
    fun _ => return ()

end ManufactureScheduler

namespace CourierScheduler

def processNewCardReceivedStatus (process : CourierProcess) : Task Unit := do
  match ← ServiceHelper.getShippingAddress process.creditCardOrderId with
  | some shippingAddress =>
      list (.setAddress process.ref shippingAddress)
      list (.setCourierStatus process.ref .cardSent)
      let guid ← ambient .randomUUID
      list (.setShippingId process.ref guid)
      ServiceHelper.updateStatus .cardShipped process.creditCardOrderId
        (.shippingId ⟨toString guid⟩)
  | none => return ()

def processCardSentStatus (process : CourierProcess) : Task Unit := do
  list (.setCourierStatus process.ref .cardDelivered)
  ServiceHelper.updateStatus .cardDelivered process.creditCardOrderId .absent

/-- The body of the first loop: what is to be removed in the end. -/
def processOne (process : CourierProcess) : Task (List CourierProcess) := do
  match process.status with
  | .newCardReceived =>
      processNewCardReceivedStatus process
      return []
  | .cardSent =>
      processCardSentStatus process
      return []
  | .cardDelivered => return [process]

/-- `for (CourierProcess process : syncList)`. -/
def processAll (expectedModCount : ℕ) : (left cursor : ℕ) → Task (List CourierProcess)
  | 0, cursor => do
      if ← list (.courierHasNext cursor) then
        let _ ← list (.courierNext cursor expectedModCount)
      return []
  | left + 1, cursor => do
      if ← list (.courierHasNext cursor) then
        let process ← list (.courierNext cursor expectedModCount)
        let toBeRemoved ← processOne process
        return toBeRemoved ++ (← processAll expectedModCount left (cursor + 1))
      else
        return []

/-- `run`, without the sleep at its end. -/
def run : Task Unit :=
  tryCatch (do
    let (expectedModCount, size) ← list .courierIterator
    let toBeRemoved ← processAll expectedModCount size 0
    forM toBeRemoved fun process => list (.removeCourierProcess process.ref))
    fun _ => return ()

end CourierScheduler

namespace ManufacturerController

def issueCreditCard (request : ManufactureRequest) : Task StandardResponse := do
  list (.addManufactureProcess request)
  return ⟨200, "Credit card is being manufactured", .absent⟩

/-- A thread that serves one request of the other service. -/
def serve : Task Unit := do
  let (call, request) ← http (.accept .thirdPartyService)
  let response ← tryCatch (do
    match request with
    | .issueCreditCard (some body) => return .standard (← issueCreditCard body)
    | _ => return HttpResponse.failure)
    fun _ => return .failure
  http (.reply call response)

end ManufacturerController

end EasyTrade.CardOrders

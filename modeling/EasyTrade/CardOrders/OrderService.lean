import EasyTrade.CardOrders.World

/-!
# The credit card order service

`OrderController`, `DatabaseHelper` and `WorkScheduler`, method by method.
Opening a connection is not a step of its own: when it fails, so does the
statement it was opened for.  Logging is left out.
-/

namespace EasyTrade.CardOrders

open EasyTrade.Program

/-- The value of a conversion, or its exception. -/
def ofExcept {α : Type} : Except CardException α → Task α
  | .ok value => pure value
  | .error error => throw error

/-- Sends a request to the other service and reads the response as a
`StandardResponse`; the framework's own answers are none. -/
def httpCall (request : HttpRequest) : Task StandardResponse := do
  let call ← http (.send request)
  match ← http (.await call) with
  | .standard response => pure response
  | .failure => throw .io

namespace DatabaseHelper

/-- `insertNewStatus`, with the time read before the statement is sent. -/
def insertNewStatus (orderId : Guid) (statusType : StatusType) (details : String) :
    Task Unit := do
  let timestamp ← ambient .now
  sql (.insertNewStatus orderId statusType details timestamp)

def deleteOrderForAccountId (accountId : ℤ) : Task Unit := do
  sql (.deleteOrderStatus accountId)
  sql (.deleteCreditCard accountId)
  sql (.deleteOrder accountId)

end DatabaseHelper

namespace OrderController

def buildResponseEntity (statusCode : ℕ) (message : String) (results : Results) :
    StandardResponse :=
  ⟨statusCode, message, results⟩

/-- `catch (SQLException e)`. -/
def handleSQLException : CardException → Task StandardResponse
  | .sql => pure (buildResponseEntity 500 "An exception occurred!" .absent)
  | exception => throw exception

def orderAlreadyExists : String := "A credit card order for given accountId already exists!"

def orderIdsDoNotMatch : String :=
  "Credit card order found in path and request body don't match!"

def noStatusForId : String := "There does not exist a status for the credit card order: "

def statusUpdated : String := "Credit card order status updated successfully."

def wrongSequence (oldStatusType newStatusType : StatusType) : String :=
  StatusType.sequenceError.description ++ " Tried to update from " ++ oldStatusType.type ++
    " to " ++ newStatusType.type ++ "!"

def unknownStatusChange (oldStatusType newStatusType : StatusType) : String :=
  "This status change is somehow unsupported? Tried to update from " ++ oldStatusType.type ++
    " to " ++ newStatusType.type ++ "!"

def createCreditCardOrder (request : CreditCardOrderRequest) : Task StandardResponse :=
  tryCatch (do
    let orderCount ← sql (.getOrderCountForAccountId request.accountId)
    if orderCount = 0 then
      let guid ← sql (.insertNewOrder request)
      DatabaseHelper.insertNewStatus guid .orderCreated StatusType.orderCreated.description
      return buildResponseEntity 201 "Credit card order has been created." (.creditCardOrder guid)
    else
      return buildResponseEntity 400 orderAlreadyExists .absent)
    handleSQLException

def getShippingAddress (id : Guid) : Task StandardResponse :=
  tryCatch (do
    match ← sql (.getShippingAddress id) with
    | some response =>
        return buildResponseEntity 200 "Address found successfully." (.shippingAddress response)
    | none => return buildResponseEntity 404 "There is no address for given order id." .absent)
    handleSQLException

/-- `getLatestStatus`, with the feature flag `credit_card_meltdown` off. -/
def getLatestStatus (accountId : ℤ) : Task StandardResponse :=
  tryCatch (do
    match ← sql (.getLastOrderStatusForAccountId accountId) with
    | some status => return buildResponseEntity 200 "Status found successfully." (.status status)
    | none =>
        return buildResponseEntity 404 "Status for the given account id does not exist!" .absent)
    handleSQLException

def deleteOrder (accountId : ℤ) : Task StandardResponse :=
  tryCatch (do
    DatabaseHelper.deleteOrderForAccountId accountId
    return buildResponseEntity 200 "Order and/or card successfully deleted." .absent)
    handleSQLException

/-- The text of the details of an error. -/
def errorDetails (request : ErrorRequest) : String :=
  "There occurred an error of type '" ++ request.errorType ++ "' and a code of '" ++
    toString request.errorCode ++ "'. Error message: " ++ request.errorMessage

def actOnNewStatus (request : StatusRequest) (status : CreditCardOrderStatus) :
    Task StandardResponse := do
  match request.type with
  | none => throw .illegalArgument
  | some newStatusType =>
    if newStatusType.sequence ≤ status.status.sequence then
      return buildResponseEntity 400 (wrongSequence status.status newStatusType) .absent
    else
      match newStatusType with
      | .cardOrdered | .cardDelivered =>
          DatabaseHelper.insertNewStatus request.orderId newStatusType newStatusType.description
          return buildResponseEntity 200 statusUpdated .absent
      | .cardError =>
          let errorRequest ← ofExcept request.details.toErrorRequest
          DatabaseHelper.insertNewStatus request.orderId newStatusType
            (errorDetails errorRequest)
          return buildResponseEntity 200 statusUpdated .absent
      | .cardShipped =>
          let shippingIdRequest ← ofExcept request.details.toShippingIdRequest
          sql (.updateOrder request.orderId shippingIdRequest)
          DatabaseHelper.insertNewStatus request.orderId newStatusType newStatusType.description
          return buildResponseEntity 200 statusUpdated .absent
      | .cardCreated =>
          let creditCardRequest ← ofExcept request.details.toCreditCardRequest
          sql (.insertNewCreditCard request.orderId creditCardRequest)
          DatabaseHelper.insertNewStatus request.orderId newStatusType newStatusType.description
          return buildResponseEntity 200 statusUpdated .absent
      | .orderCreated | .sequenceError =>
          return buildResponseEntity 400 (unknownStatusChange status.status newStatusType) .absent

/-- `updateStatus`, which is `handleNewStatus`. -/
def updateStatus (id : Guid) (request : StatusRequest) : Task StandardResponse :=
  tryCatch (do
    if id ≠ request.orderId then
      return buildResponseEntity 400 orderIdsDoNotMatch .absent
    else
      match ← sql (.getLastOrderStatus id) with
      | none => return buildResponseEntity 400 (noStatusForId ++ toString id) .absent
      | some status => actOnNewStatus request status)
    handleSQLException

/-- A thread that serves one request of the other service.  An exception that the
controller lets through is answered by the framework. -/
def serve : Task Unit := do
  let (call, request) ← http (.accept .creditCardOrderService)
  let response ← tryCatch (do
    match request with
    | .updateStatus id body => return .standard (← updateStatus id body)
    | .getShippingAddress id => return .standard (← getShippingAddress id)
    | .issueCreditCard _ => return HttpResponse.failure)
    fun _ => return .failure
  http (.reply call response)

end OrderController

namespace WorkScheduler

/-- The body of the loop of `run`. -/
def orderCard (orderId : Guid) : Task Unit := do
  let body ← sql (.getCreditCardManufactureData orderId)
  let standardResponse ← httpCall (.issueCreditCard body)
  if standardResponse.statusCode = 200 then
    DatabaseHelper.insertNewStatus orderId .cardOrdered StatusType.cardOrdered.description

/-- `run`, without the sleep at its end. -/
def run : Task Unit :=
  tryCatch (do
    let orders ← sql .getOrderIdsWithStatusOrderCreated
    forM orders orderCard)
    fun _ => return ()

end WorkScheduler

end EasyTrade.CardOrders

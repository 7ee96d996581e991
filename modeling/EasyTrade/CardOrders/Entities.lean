import EasyTrade.Core.AutoTable
import EasyTrade.Core.Table

/-!
# Card orders and the messages about them

The rows and enumerations of the credit card order service and of the third
party service, and the bodies they send to each other.  Dates are microseconds
on the local clock until a `datetime` column stores them in whole seconds.
-/

namespace EasyTrade.CardOrders

/-- A `UUID`. -/
abbrev Guid := ℕ

/-- A `LocalDateTime`, in microseconds. -/
abbrev LocalDateTime := ℤ

/-- What a `datetime` column keeps of a time: the nearest second. -/
def LocalDateTime.stored (time : LocalDateTime) : ℤ := (time + 500000) / 1000000

inductive CardException
  | sql
  | noSuchElement
  | illegalArgument
  | io
  | concurrentModification
  deriving DecidableEq, Repr

/-! ## Credit card order service -/

inductive StatusType
  | orderCreated
  | cardOrdered
  | cardCreated
  | cardError
  | cardShipped
  | cardDelivered
  | sequenceError
  deriving DecidableEq, Repr

namespace StatusType

def sequence : StatusType → ℕ
  | orderCreated => 10
  | cardOrdered => 20
  | cardCreated => 39
  | cardError => 30
  | cardShipped => 40
  | cardDelivered => 50
  | sequenceError => 99

def type : StatusType → String
  | orderCreated => "order_created"
  | cardOrdered => "card_ordered"
  | cardCreated => "card_created"
  | cardError => "card_error"
  | cardShipped => "card_shipped"
  | cardDelivered => "card_delivered"
  | sequenceError => "sequence_error"

def description : StatusType → String
  | orderCreated => "An order for a credit card has been accepted."
  | cardOrdered => "Credit card is being manufactured."
  | cardCreated => "Card has been successfully manufactured."
  | cardError => "There occurred an error during card manufacture."
  | cardShipped => "Card has been shipped to the client."
  | cardDelivered => "Card has been received by the client."
  | sequenceError => "Wrong sequence of status occurred. Please verify the whole process!"

/-- Different statuses have different places in the sequence. -/
theorem sequence_injective : Function.Injective sequence := by
  intro left right heq
  cases left <;> cases right <;> first | rfl | cases heq

end StatusType

structure CreditCardOrder where
  id : Guid
  accountId : ℤ
  email : String
  name : String
  shippingId : Option String
  shippingAddress : String
  cardLevel : String
  deriving DecidableEq, Repr

/-- A row of `CreditCardOrderStatus`.  The column holds the text `type` of the
status. -/
structure CreditCardOrderStatus where
  id : ℤ
  creditCardOrderId : Guid
  timestamp : ℤ
  status : StatusType
  details : String
  deriving DecidableEq, Repr

structure CreditCard where
  id : ℤ
  creditCardOrderId : Guid
  level : String
  number : String
  cvs : String
  validDate : ℤ
  deriving DecidableEq, Repr

structure CreditCardOrderRequest where
  accountId : ℤ
  email : String
  name : String
  shippingAddress : String
  cardLevel : String
  deriving DecidableEq, Repr

structure ErrorRequest where
  errorCode : ℤ
  errorType : String
  errorMessage : String
  deriving DecidableEq, Repr

structure ShippingIdRequest where
  shippingId : String
  deriving DecidableEq, Repr

structure CreditCardRequest where
  cardLevel : String
  cardNumber : String
  cardCVS : String
  cardValidDate : LocalDateTime
  deriving DecidableEq, Repr

/-- `Optional<Object> details`, as far as `convertValue` can make something of
it. -/
inductive Details
  | absent
  | error (request : ErrorRequest)
  | shippingId (request : ShippingIdRequest)
  | creditCard (request : CreditCardRequest)
  | other
  deriving DecidableEq, Repr

namespace Details

/-- `mapper.convertValue(details.get(), ErrorRequest.class)`. -/
def toErrorRequest : Details → Except CardException ErrorRequest
  | absent => .error .noSuchElement
  | error request => .ok request
  | _ => .error .illegalArgument

def toShippingIdRequest : Details → Except CardException ShippingIdRequest
  | absent => .error .noSuchElement
  | shippingId request => .ok request
  | _ => .error .illegalArgument

def toCreditCardRequest : Details → Except CardException CreditCardRequest
  | absent => .error .noSuchElement
  | creditCard request => .ok request
  | _ => .error .illegalArgument

end Details

structure StatusRequest where
  orderId : Guid
  /-- The constant that `StatusType.valueOf` finds for the text in upper case,
  if there is one. -/
  type : Option StatusType
  timestamp : LocalDateTime
  details : Details
  deriving DecidableEq, Repr

/-- The body sent to the manufacturer, who reads it as its `CreditCardRequest`. -/
structure ManufactureRequest where
  creditCardOrderId : Guid
  name : String
  cardLevel : String
  deriving DecidableEq, Repr

structure ShippingAddressResponse where
  shippingAddress : String
  name : String
  email : String
  deriving DecidableEq, Repr

/-- The `results` of a response. -/
inductive Results
  | absent
  | creditCardOrder (creditCardOrderId : Guid)
  | shippingAddress (response : ShippingAddressResponse)
  | status (status : CreditCardOrderStatus)
  deriving DecidableEq, Repr

structure StandardResponse where
  statusCode : ℕ
  message : String
  results : Results
  deriving DecidableEq, Repr

/-! ## Third party service -/

inductive OrderStatus
  | orderCreated
  | cardOrdered
  | cardCreated
  | cardError
  | cardShipped
  | cardDelivered
  | sequenceError
  deriving DecidableEq, Repr

/-- What the order service makes of `status.toString()`: the constants of the two
services have the same names. -/
def OrderStatus.statusType : OrderStatus → StatusType
  | orderCreated => .orderCreated
  | cardOrdered => .cardOrdered
  | cardCreated => .cardCreated
  | cardError => .cardError
  | cardShipped => .cardShipped
  | cardDelivered => .cardDelivered
  | sequenceError => .sequenceError

inductive ManufactureStatus
  | issuing
  | manufactureError
  | cardCreated
  deriving DecidableEq, Repr

inductive CourierStatus
  | newCardReceived
  | cardSent
  | cardDelivered
  deriving DecidableEq, Repr

/-- `ref` is the identity of the object. -/
structure ManufactureProcess where
  ref : ℕ
  request : ManufactureRequest
  status : ManufactureStatus
  cardDetails : Option CreditCardRequest
  deriving DecidableEq, Repr

/-- `new ManufactureProcess(request)`. -/
def ManufactureProcess.new (ref : ℕ) (request : ManufactureRequest) : ManufactureProcess where
  ref := ref
  request := request
  status := .issuing
  cardDetails := none

structure CourierProcess where
  ref : ℕ
  creditCardOrderId : Guid
  status : CourierStatus
  address : Option ShippingAddressResponse
  shippingId : Option Guid
  deriving DecidableEq, Repr

/-- `new CourierProcess(creditCardOrderId)`. -/
def CourierProcess.new (ref : ℕ) (creditCardOrderId : Guid) : CourierProcess where
  ref := ref
  creditCardOrderId := creditCardOrderId
  status := .newCardReceived
  address := none
  shippingId := none

namespace ErrorRequest

/-- `ErrorBody.FACTORY_FAILURE`. -/
def factoryFailure : ErrorRequest := ⟨22, "delay", "Factory failure"⟩

/-- `ErrorBody.DELAY_ON_CHIPS`. -/
def delayOnChips : ErrorRequest := ⟨35, "delay", "Delay on chips"⟩

end ErrorRequest

/-! ## Messages between the services -/

/-- A body the sender may leave out is `none`: `getCreditCardManufactureData`
returns `null` for an unknown order. -/
inductive HttpRequest
  | issueCreditCard (body : Option ManufactureRequest)
  | updateStatus (id : Guid) (body : StatusRequest)
  | getShippingAddress (id : Guid)
  deriving DecidableEq, Repr

inductive HttpResponse
  | standard (response : StandardResponse)
  /-- The framework's own answer to an exception or to a body it cannot read. -/
  | failure
  deriving DecidableEq, Repr

end EasyTrade.CardOrders

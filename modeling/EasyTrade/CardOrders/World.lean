import EasyTrade.Core.ArrayList
import EasyTrade.Core.RelyGuarantee
import EasyTrade.CardOrders.Database

/-!
# What the two services share

The order service's database, the third party's two lists and the HTTP calls
under way between them, with the commands that read and change them.  A request
that has been sent waits until a thread of the other service accepts it, which
may never happen; its sender waits for a response or gives up with an
`IOException`, whatever becomes of the request.
-/

namespace EasyTrade.CardOrders

open EasyTrade.Program EasyTrade.Interleaving

/-! ## The third party's lists -/

structure ThirdParty where
  /-- `ManufactureScheduler.syncList`. -/
  manufacture : ArrayList ManufactureProcess
  /-- `CourierScheduler.syncList`. -/
  courier : ArrayList CourierProcess
  /-- How many processes have been made; their identities are counted up. -/
  manufactureCount : ℕ
  courierCount : ℕ
  /-- The manufacture processes for which a courier process has been added, in
  that order.  The service keeps no such record. -/
  handedOver : List ℕ

def ThirdParty.empty : ThirdParty := ⟨ArrayList.empty, ArrayList.empty, 0, 0, []⟩

/-- What the schedulers and the controller do to the lists and their elements. -/
inductive ListCommand
  /-- `syncList.iterator()`: the modification count and the size it starts from. -/
  | manufactureIterator
  | manufactureHasNext (cursor : ℕ)
  | manufactureNext (cursor expectedModCount : ℕ)
  | setManufactureStatus (ref : ℕ) (status : ManufactureStatus)
  | setCardDetails (ref : ℕ) (cardDetails : CreditCardRequest)
  /-- `ManufactureScheduler.addProcess(new ManufactureProcess(request))`. -/
  | addManufactureProcess (request : ManufactureRequest)
  | removeManufactureProcess (ref : ℕ)
  | courierIterator
  | courierHasNext (cursor : ℕ)
  | courierNext (cursor expectedModCount : ℕ)
  | setAddress (ref : ℕ) (address : ShippingAddressResponse)
  | setCourierStatus (ref : ℕ) (status : CourierStatus)
  | setShippingId (ref : ℕ) (shippingId : Guid)
  /-- `CourierScheduler.addProcess(new CourierProcess(creditCardOrderId))` on behalf
  of the manufacture process `cause`. -/
  | addCourierProcess (cause : ℕ) (creditCardOrderId : Guid)
  | removeCourierProcess (ref : ℕ)

abbrev ListCommand.Answer : ListCommand → Type
  | manufactureIterator | courierIterator => ℕ × ℕ
  | manufactureHasNext _ | courierHasNext _ => Bool
  | manufactureNext .. => ManufactureProcess
  | courierNext .. => CourierProcess
  | setManufactureStatus .. | setCardDetails .. | addManufactureProcess _
  | removeManufactureProcess _ | setAddress .. | setCourierStatus .. | setShippingId ..
  | addCourierProcess .. | removeCourierProcess _ => Unit

/-- The exception of an iterator. -/
def ofIteration {α : Type} : Except IterationError α → Except CardException α
  | .ok element => .ok element
  | .error .concurrentModification => .error .concurrentModification
  | .error .noSuchElement => .error .noSuchElement

/-- The elements of a list with one of them changed. -/
def changeAt {α : Type} (key : α → ℕ) (ref : ℕ) (change : α → α) (element : α) : α :=
  if key element = ref then change element else element

def ListCommand.run : (command : ListCommand) → ThirdParty →
    Except CardException command.Answer × ThirdParty
  | manufactureIterator, thirdParty =>
      (.ok (thirdParty.manufacture.modCount, thirdParty.manufacture.elements.length),
        thirdParty)
  | manufactureHasNext cursor, thirdParty =>
      (.ok (thirdParty.manufacture.hasNext cursor), thirdParty)
  | manufactureNext cursor expectedModCount, thirdParty =>
      (ofIteration (thirdParty.manufacture.next cursor expectedModCount), thirdParty)
  | setManufactureStatus ref status, thirdParty =>
      (.ok (), { thirdParty with
        manufacture := thirdParty.manufacture.mutate
          (changeAt ManufactureProcess.ref ref fun process => { process with status }) })
  | setCardDetails ref cardDetails, thirdParty =>
      (.ok (), { thirdParty with
        manufacture := thirdParty.manufacture.mutate
          (changeAt ManufactureProcess.ref ref fun process =>
            { process with cardDetails := some cardDetails }) })
  | addManufactureProcess request, thirdParty =>
      (.ok (), { thirdParty with
        manufacture := thirdParty.manufacture.add
          (ManufactureProcess.new thirdParty.manufactureCount request)
        manufactureCount := thirdParty.manufactureCount + 1 })
  | removeManufactureProcess ref, thirdParty =>
      (.ok (), { thirdParty with
        manufacture := thirdParty.manufacture.remove (·.ref = ref) })
  | courierIterator, thirdParty =>
      (.ok (thirdParty.courier.modCount, thirdParty.courier.elements.length), thirdParty)
  | courierHasNext cursor, thirdParty =>
      (.ok (thirdParty.courier.hasNext cursor), thirdParty)
  | courierNext cursor expectedModCount, thirdParty =>
      (ofIteration (thirdParty.courier.next cursor expectedModCount), thirdParty)
  | setAddress ref address, thirdParty =>
      (.ok (), { thirdParty with
        courier := thirdParty.courier.mutate
          (changeAt CourierProcess.ref ref fun process =>
            { process with address := some address }) })
  | setCourierStatus ref status, thirdParty =>
      (.ok (), { thirdParty with
        courier := thirdParty.courier.mutate
          (changeAt CourierProcess.ref ref fun process => { process with status }) })
  | setShippingId ref shippingId, thirdParty =>
      (.ok (), { thirdParty with
        courier := thirdParty.courier.mutate
          (changeAt CourierProcess.ref ref fun process =>
            { process with shippingId := some shippingId }) })
  | addCourierProcess cause creditCardOrderId, thirdParty =>
      (.ok (), { thirdParty with
        courier := thirdParty.courier.add
          (CourierProcess.new thirdParty.courierCount creditCardOrderId)
        courierCount := thirdParty.courierCount + 1
        handedOver := thirdParty.handedOver ++ [cause] })
  | removeCourierProcess ref, thirdParty =>
      (.ok (), { thirdParty with courier := thirdParty.courier.remove (·.ref = ref) })

/-! ## Clock, random numbers and feature flags -/

inductive LocalCommand
  | now
  /-- The calendar that many years from now. -/
  | calendarAfter (years : ℕ)
  | nextInt (bound : ℕ)
  | randomUUID
  | getBooleanValue (flag : String)

abbrev LocalCommand.Answer : LocalCommand → Type
  | now | calendarAfter _ => LocalDateTime
  | nextInt _ => ℕ
  | randomUUID => Guid
  | getBooleanValue _ => Bool

def LocalCommand.answer (n : ℤ) : (command : LocalCommand) → command.Answer
  | now | calendarAfter _ => n
  | nextInt bound => n.toNat % bound
  | randomUUID => n.toNat
  | getBooleanValue _ => decide (n = 1)

/-! ## HTTP -/

inductive Service
  | creditCardOrderService
  | thirdPartyService
  deriving DecidableEq, Repr

/-- The service that a request is for. -/
def HttpRequest.service : HttpRequest → Service
  | issueCreditCard _ => .thirdPartyService
  | updateStatus .. | getShippingAddress _ => .creditCardOrderService

structure Call where
  request : HttpRequest
  accepted : Bool
  response : Option HttpResponse
  deriving DecidableEq, Repr

inductive HttpCommand
  | send (request : HttpRequest)
  | await (call : ℕ)
  | accept (service : Service)
  | reply (call : ℕ) (response : HttpResponse)

abbrev HttpCommand.Answer : HttpCommand → Type
  | send _ => ℕ
  | await _ => HttpResponse
  | accept _ => ℕ × HttpRequest
  | reply .. => Unit

def HttpCommand.move : (command : HttpCommand) → Choice → List Call →
    Option (Except CardException command.Answer × List Call)
  | send _, .fails, calls => some (.error .io, calls)
  | send request, _, calls =>
      some (.ok calls.length, calls ++ [⟨request, false, none⟩])
  | await _, .fails, calls => some (.error .io, calls)
  | await call, _, calls =>
      (calls[call]?.bind Call.response).map fun response => (.ok response, calls)
  | accept service, choice, calls =>
      match calls[choice.number]? with
      | some call =>
          if call.request.service = service ∧ call.accepted = false then
            some (.ok (choice.number, call.request),
              calls.modify choice.number fun call => { call with accepted := true })
          else none
      | none => none
  | reply call response, _, calls =>
      some (.ok (), calls.modify call fun call => { call with response := some response })

/-! ## All together -/

structure World where
  database : Database
  thirdParty : ThirdParty
  calls : List Call

/-- Nothing has been ordered yet. -/
def World.empty (accounts : List ℤ) : World := ⟨Database.empty accounts, ThirdParty.empty, []⟩

inductive Command
  | sql (statement : Statement)
  | list (command : ListCommand)
  | ambient (command : LocalCommand)
  | http (command : HttpCommand)

abbrev Command.Answer : Command → Type
  | sql statement => statement.Answer
  | list command => command.Answer
  | ambient command => command.Answer
  | http command => command.Answer

/-- What a command answers and does.  `none`: it cannot turn out this way. -/
def Command.move (schema : Schema) : (command : Command) → Choice → World →
    Option (Except CardException command.Answer × World)
  | sql statement, choice, world =>
      (statement.move schema choice world.database).map fun result =>
        (result.1, { world with database := result.2 })
  | list command, _, world =>
      some ((command.run world.thirdParty).1,
        { world with thirdParty := (command.run world.thirdParty).2 })
  | ambient command, .goes n, world => some (.ok (command.answer n), world)
  | ambient _, _, _ => none
  | http command, choice, world =>
      (command.move choice world.calls).map fun result =>
        (result.1, { world with calls := result.2 })

/-- Everything a command may do. -/
def step (schema : Schema) : Semantics CardException Command.Answer World :=
  fun command world answer world' =>
    ∃ choice, command.move schema choice world = some (answer, world')

theorem step_of_move {schema : Schema} (command : Command) (choice : Choice) (world : World)
    (answer : Except CardException command.Answer) (world' : World)
    (hmove : command.move schema choice world = some (answer, world')) :
    step schema command world answer world' :=
  ⟨choice, hmove⟩

/-- A program of one of the two services. -/
abbrev Task (α : Type) := Prog CardException Command.Answer α

def sql (statement : Statement) : Task statement.Answer := Prog.perform (Command.sql statement)

def list (command : ListCommand) : Task command.Answer := Prog.perform (Command.list command)

def ambient (command : LocalCommand) : Task command.Answer := Prog.perform (Command.ambient command)

def http (command : HttpCommand) : Task command.Answer := Prog.perform (Command.http command)

end EasyTrade.CardOrders

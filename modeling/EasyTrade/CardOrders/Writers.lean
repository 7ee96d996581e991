import EasyTrade.CardOrders.System

/-!
# Accepting a status

What `updateStatus` does with the tables does not depend on who keeps which notes
of it: it reads the current status and, if the new one comes later in the
sequence, writes the card or the shipping id and then the status.  Here its
commands are checked against an arbitrary guard.
-/

namespace EasyTrade.CardOrders

open EasyTrade.Program EasyTrade.Interleaving

variable {M : Type} {permitted : Condition CardException Command.Answer M}
variable {note : Note CardException Command.Answer M} {guard : Command → M → Prop}
variable {memory : M}

/-- Notes that are only about statuses and cards, and a guard that leaves
everything else alone. -/
structure AboutStatuses (note : Note CardException Command.Answer M)
    (guard : Command → M → Prop) : Prop where
  ambient : ∀ command memory, guard (.ambient command) memory
  ambient_note : ∀ memory command answer, note memory (.ambient command) answer = memory
  read : ∀ orderId memory, guard (.sql (.getLastOrderStatus orderId)) memory
  updateOrder : ∀ orderId request memory, guard (.sql (.updateOrder orderId request)) memory
  updateOrder_note : ∀ memory orderId request answer,
    note memory (.sql (.updateOrder orderId request)) answer = memory
  insert_note : ∀ memory orderId type details time answer,
    note memory (.sql (.insertNewStatus orderId type details time)) answer = memory

/-- The writes by which a new status is accepted are all right. -/
def Accepts (note : Note CardException Command.Answer M) (guard : Command → M → Prop)
    (memory : M) (orderId : Guid) : StatusType → Prop
  | .cardCreated => ∀ request, guard (.sql (.insertNewCreditCard orderId request)) memory ∧
      ∀ details time, guard (.sql (.insertNewStatus orderId .cardCreated details time))
        (note memory (.sql (.insertNewCreditCard orderId request)) (.ok ()))
  | type => ∀ details time, guard (.sql (.insertNewStatus orderId type details time)) memory

theorem wp_handleSQLException (exception : CardException) :
    wp (remembers permitted note) guard (OrderController.handleSQLException exception)
      (fun _ _ => True) memory := by
  cases exception <;> trivial

section Accepting

variable (habout : AboutStatuses note guard)

include habout

theorem wp_insertNewStatus {orderId : Guid} {type : StatusType} {details : String}
    {post : Except CardException Unit → M → Prop}
    (hinsert : ∀ time, guard (.sql (.insertNewStatus orderId type details time)) memory)
    (hpost : ∀ outcome, post outcome memory) :
    wp (remembers permitted note) guard (DatabaseHelper.insertNewStatus orderId type details)
      post memory := by
  simp only [DatabaseHelper.insertNewStatus, wp_bind, wp_ambient, wp_sql, andThen_ok,
    andThen_error, habout.ambient, habout.ambient_note, habout.insert_note, hinsert, hpost,
    implies_true, and_true]

theorem wp_actOnNewStatus {request : StatusRequest} {status : CreditCardOrderStatus}
    {post : Except CardException StandardResponse → M → Prop}
    (haccepts : ∀ type, request.type = some type → status.status.sequence < type.sequence →
      Accepts note guard memory request.orderId type)
    (hpost : ∀ outcome memory, post outcome memory) :
    wp (remembers permitted note) guard (OrderController.actOnNewStatus request status)
      post memory := by
  rw [OrderController.actOnNewStatus]
  cases htype : request.type with
  | none => exact hpost _ _
  | some newStatusType =>
      dsimp only
      split_ifs with hsequence
      · exact hpost _ _
      · have haccept := haccepts newStatusType htype (not_le.mp hsequence)
        have hinsert : ∀ details response memory,
            (∀ time, guard (.sql (.insertNewStatus request.orderId newStatusType details time))
              memory) →
            wp (remembers permitted note) guard (do
              DatabaseHelper.insertNewStatus request.orderId newStatusType details
              return response) post memory := by
          intro details response memory hguard
          rw [wp_bind]
          refine wp_insertNewStatus habout hguard fun outcome => ?_
          cases outcome <;> exact hpost _ _
        cases newStatusType with
        | orderCreated | sequenceError => exact hpost _ _
        | cardOrdered | cardDelivered => exact hinsert _ _ _ (haccept _)
        | cardError =>
          cases request.details.toErrorRequest with
          | error error => exact hpost _ _
          | ok errorRequest => exact hinsert _ _ _ (haccept _)
        | cardShipped =>
          cases request.details.toShippingIdRequest with
          | error error => exact hpost _ _
          | ok shippingIdRequest =>
              change wp _ _ (sql (.updateOrder _ _) >>= fun _ => _) post memory
              rw [wp_bind, wp_sql]
              refine ⟨habout.updateOrder _ _ _, fun _ _ => ?_, fun _ _ => hpost _ _⟩
              rw [habout.updateOrder_note]
              exact hinsert _ _ _ (haccept _)
        | cardCreated =>
          cases request.details.toCreditCardRequest with
          | error error => exact hpost _ _
          | ok creditCardRequest =>
              change wp _ _ (sql (.insertNewCreditCard _ _) >>= fun _ => _) post memory
              obtain ⟨hcard, hstatus⟩ := haccept creditCardRequest
              rw [wp_bind, wp_sql]
              exact ⟨hcard, fun _ _ => hinsert _ _ _ (hstatus _), fun _ _ => hpost _ _⟩

/-- A status is accepted for the order that the request is about, whose current
status has been read just before. -/
theorem wp_updateStatus {id : Guid} {request : StatusRequest}
    (haccepts : ∀ status type, id = request.orderId → request.type = some type →
      status.status.sequence < type.sequence →
        Accepts note guard (note memory (.sql (.getLastOrderStatus id)) (.ok (some status)))
          request.orderId type) :
    wp (remembers permitted note) guard (OrderController.updateStatus id request)
      (fun _ _ => True) memory := by
  rw [OrderController.updateStatus, wp_tryCatch]
  split_ifs with hid
  · trivial
  · rw [wp_bind, wp_sql]
    refine ⟨habout.read id memory, fun row _ => ?_, fun error _ => wp_handleSQLException error⟩
    cases row with
    | none => trivial
    | some status =>
        refine wp_actOnNewStatus habout (haccepts status · (not_not.mp hid))
          fun outcome memory => ?_
        cases outcome with
        | ok value => trivial
        | error error => exact wp_handleSQLException error

end Accepting

/-- A server thread: what it may do depends on the request that it has accepted. -/
theorem wp_orderServer
    (haccept : guard (.http (.accept .creditCardOrderService)) memory)
    (hreply : ∀ call response memory, guard (.http (.reply call response)) memory)
    (hupdate : ∀ call id body, wp (remembers permitted note) guard
      (OrderController.updateStatus id body) (fun _ _ => True)
      (note memory (.http (.accept .creditCardOrderService)) (.ok (call, .updateStatus id body))))
    (haddress : ∀ id memory, wp (remembers permitted note) guard
      (OrderController.getShippingAddress id) (fun _ _ => True) memory) :
    wp (remembers permitted note) guard OrderController.serve (fun _ _ => True) memory := by
  rw [OrderController.serve, wp_bind, wp_http]
  refine ⟨haccept, fun accepted _ => ?_, fun _ _ => trivial⟩
  obtain ⟨call, request⟩ := accepted
  have hanswer : ∀ response memory, wp (remembers permitted note) guard
      (http (.reply call response)) (fun _ _ => True) memory := by
    intro response memory
    rw [wp_http]
    exact ⟨hreply call response memory, fun _ _ => trivial, fun _ _ => trivial⟩
  rw [andThen_ok, wp_bind, wp_tryCatch]
  cases request with
  | issueCreditCard body => exact hanswer _ _
  | updateStatus id body =>
      rw [wp_bind]
      refine wp_mono (fun outcome final _ => ?_) (hupdate call id body)
      cases outcome <;> exact hanswer _ _
  | getShippingAddress id =>
      rw [wp_bind]
      refine wp_mono (fun outcome final _ => ?_) (haddress id _)
      cases outcome <;> exact hanswer _ _

end EasyTrade.CardOrders

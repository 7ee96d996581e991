import EasyTrade.CardOrders.ThirdPartyService

/-!
# The two services at work

Clients of the order service, the server threads of both services and the three
schedulers work at the same time.  Each scheduler runs any number of times, one
run after the other; there are as many server threads as requests.
-/

namespace EasyTrade.CardOrders

open EasyTrade.Program EasyTrade.Interleaving

inductive Party
  | client (n : ℕ)
  | orderServer (n : ℕ)
  | manufacturer (n : ℕ)
  | workScheduler
  | manufactureScheduler
  | courierScheduler
  deriving DecidableEq, Repr

/-- What a client asks of the order service. -/
inductive ClientRequest
  | nothing
  | createCreditCardOrder (request : CreditCardOrderRequest)
  | updateStatus (id : Guid) (request : StatusRequest)
  | deleteOrder (accountId : ℤ)
  | getLatestStatus (accountId : ℤ)

def ClientRequest.serve : ClientRequest → Task Unit
  | nothing => return ()
  | createCreditCardOrder request => do
      let _ ← OrderController.createCreditCardOrder request
  | updateStatus id request => do
      let _ ← OrderController.updateStatus id request
  | deleteOrder accountId => do
      let _ ← OrderController.deleteOrder accountId
  | getLatestStatus accountId => do
      let _ ← OrderController.getLatestStatus accountId

/-- One run after the other. -/
def repeated (run : Task Unit) : ℕ → Task Unit
  | 0 => return ()
  | n + 1 => do
      run
      repeated run n

structure Workload where
  clients : ℕ → ClientRequest
  workRuns : ℕ
  manufactureRuns : ℕ
  courierRuns : ℕ

def Workload.program (workload : Workload) : Party → Task Unit
  | .client n => (workload.clients n).serve
  | .orderServer _ => OrderController.serve
  | .manufacturer _ => ManufacturerController.serve
  | .workScheduler => repeated WorkScheduler.run workload.workRuns
  | .manufactureScheduler => repeated ManufactureScheduler.run workload.manufactureRuns
  | .courierScheduler => repeated CourierScheduler.run workload.courierRuns

/-- Everybody at work, each with notes of type `M`. -/
abbrev System (M : Type) := Config CardException Command.Answer Party World M Unit

def Workload.start {M : Type} (workload : Workload) (memory : M) (world : World) : System M :=
  Config.start world memory workload.program

/-- Any order of the commands of all parties, with any outcome of each. -/
abbrev Interleaves (schema : Schema) : System Unit → System Unit → Prop :=
  ReachesWhen (step schema) (fun _ _ _ => ()) fun _ _ _ => True

/-- The interleavings in which every command satisfies a condition. -/
abbrev InterleavesWhen {M : Type} (schema : Schema) (note : Note CardException Command.Answer M)
    (allowed : Condition CardException Command.Answer (World × M)) :
    System M → System M → Prop :=
  ReachesWhen (step schema) note allowed

theorem exists_interleaving (schema : Schema) (start : System Unit)
    (schedule : List (Party × Choice)) (check : System Unit → Bool)
    (hreplay : (replay (fun _ => attempt (Command.move schema) (fun _ _ _ => ())
      fun _ _ _ => True) start schedule).any check = true) :
    ∃ system, check system = true ∧ Interleaves schema start system :=
  exists_reachesWhen step_of_move _ _ start schedule check hreplay

theorem exists_interleavingWhen {M : Type} (schema : Schema)
    (note : Note CardException Command.Answer M)
    (allowed : Condition CardException Command.Answer (World × M))
    [∀ command start answer, Decidable (allowed command start answer)] (start : System M)
    (schedule : List (Party × Choice)) (check : System M → Bool)
    (hreplay : (replay (fun _ => attempt (Command.move schema) note allowed) start
      schedule).any check = true) :
    ∃ system, check system = true ∧ InterleavesWhen schema note allowed start system :=
  exists_reachesWhen step_of_move _ _ start schedule check hreplay

/-! ## What one command does -/

section Commands

variable {schema : Schema} {world world' : World}

theorem step_sql {statement : Statement} {answer : Except CardException statement.Answer}
    (hstep : step schema (.sql statement) world answer world') :
    ∃ database, Changes schema world.database statement answer.isOk database ∧
      world' = { world with database } := by
  obtain ⟨choice, hmove⟩ := hstep
  obtain ⟨⟨answer', database⟩, hstatement, hresult⟩ := Option.map_eq_some_iff.mp hmove
  cases hresult
  exact ⟨database, Changes.of_move hstatement, rfl⟩

theorem error_of_step_sql {statement : Statement} {error : CardException}
    (hstep : step schema (.sql statement) world (.error error) world') :
    error = .sql ∧ world' = world := by
  obtain ⟨choice, hmove⟩ := hstep
  obtain ⟨⟨answer, database⟩, hstatement, hresult⟩ := Option.map_eq_some_iff.mp hmove
  cases hresult
  rw [(Changes.of_move hstatement).eq_of_failed]
  exact ⟨Statement.error_of_move hstatement, rfl⟩

theorem step_list {command : ListCommand} {answer : Except CardException command.Answer}
    (hstep : step schema (.list command) world answer world') :
    answer = (command.run world.thirdParty).1 ∧
      world' = { world with thirdParty := (command.run world.thirdParty).2 } := by
  obtain ⟨choice, hmove⟩ := hstep
  cases hmove
  exact ⟨rfl, rfl⟩

theorem step_ambient {command : LocalCommand} {answer : Except CardException command.Answer}
    (hstep : step schema (.ambient command) world answer world') : world' = world := by
  obtain ⟨choice, hmove⟩ := hstep
  cases choice <;> cases hmove
  rfl

theorem step_http {command : HttpCommand} {answer : Except CardException command.Answer}
    (hstep : step schema (.http command) world answer world') :
    ∃ choice calls, command.move choice world.calls = some (answer, calls) ∧
      world' = { world with calls } := by
  obtain ⟨choice, hmove⟩ := hstep
  obtain ⟨⟨answer', calls⟩, hhttp, hresult⟩ := Option.map_eq_some_iff.mp hmove
  cases hresult
  exact ⟨choice, calls, hhttp, rfl⟩

/-- What becomes of the calls under way. -/
inductive CallsChange (calls : List Call) : (command : HttpCommand) →
    Except CardException command.Answer → List Call → Prop
  | fails (command : HttpCommand) (error : CardException) :
      CallsChange calls command (.error error) calls
  | sent (request : HttpRequest) : CallsChange calls (.send request) (.ok calls.length)
      (calls ++ [⟨request, false, none⟩])
  | answered (call : ℕ) (response : HttpResponse) :
      CallsChange calls (.await call) (.ok response) calls
  | accepted {service : Service} {n : ℕ} {call : Call} (hcall : calls[n]? = some call)
      (hservice : call.request.service = service) (hfree : call.accepted = false) :
      CallsChange calls (.accept service) (.ok (n, call.request))
        (calls.modify n fun call => { call with accepted := true })
  | replied (call : ℕ) (response : HttpResponse) :
      CallsChange calls (.reply call response) (.ok ())
        (calls.modify call fun call => { call with response := some response })

theorem CallsChange.of_move {command : HttpCommand} {choice : Choice} {calls calls' : List Call}
    {answer : Except CardException command.Answer}
    (hmove : command.move choice calls = some (answer, calls')) :
    CallsChange calls command answer calls' := by
  cases command with
  | send request =>
      cases choice with
      | fails => cases hmove; exact .fails _ _
      | _ => cases hmove; exact .sent request
  | await call =>
      cases choice with
      | fails => cases hmove; exact .fails _ _
      | _ =>
          obtain ⟨response, -, hresult⟩ := Option.map_eq_some_iff.mp hmove
          cases hresult
          exact .answered call response
  | accept service =>
      rw [HttpCommand.move] at hmove
      split at hmove
      · rename_i call hcall
        split_ifs at hmove with hfree
        cases hmove
        exact .accepted hcall hfree.1 hfree.2
      · cases hmove
  | reply call response =>
      cases hmove
      exact .replied call response

end Commands

/-! ## Programs -/

/-- The commands of the manufacture scheduler. -/
def ListCommand.byManufacture : ListCommand → Bool
  | manufactureIterator | manufactureHasNext _ | manufactureNext .. | setManufactureStatus ..
  | setCardDetails .. | removeManufactureProcess _ | addCourierProcess .. => true
  | _ => false

/-- The commands of the courier scheduler. -/
def ListCommand.byCourier : ListCommand → Bool
  | courierIterator | courierHasNext _ | courierNext .. | setAddress .. | setCourierStatus ..
  | setShippingId .. | removeCourierProcess _ => true
  | _ => false

section Issues

open Prog

variable {P : Command → Prop}

theorem issues_repeated {run : Task Unit} (hrun : run.Issues P) (n : ℕ) :
    (repeated run n).Issues P := by
  induction n with
  | zero => exact issues_pure ()
  | succ n ih => exact issues_bind hrun fun _ => ih

theorem issues_ofExcept {α : Type} (result : Except CardException α) :
    (ofExcept result).Issues P := by
  cases result <;> trivial

theorem issues_httpCall {request : HttpRequest} (hsend : P (.http (.send request)))
    (hawait : ∀ call, P (.http (.await call))) : (httpCall request).Issues P := by
  refine issues_bind (issues_perform hsend) fun call => ?_
  refine issues_bind (issues_perform (hawait call)) fun response => ?_
  cases response with
  | standard response => exact issues_pure response
  | failure => exact issues_throw CardException.io

theorem issues_handleSQLException (exception : CardException) :
    (OrderController.handleSQLException exception).Issues P := by
  cases exception <;> trivial

theorem issues_getShippingAddress {id : Guid} (hread : P (.sql (.getShippingAddress id))) :
    (OrderController.getShippingAddress id).Issues P := by
  refine issues_tryCatch (issues_bind (issues_perform hread) fun row => ?_)
    issues_handleSQLException
  cases row <;> trivial

theorem issues_getLatestStatus {accountId : ℤ}
    (hread : P (.sql (.getLastOrderStatusForAccountId accountId))) :
    (OrderController.getLatestStatus accountId).Issues P := by
  refine issues_tryCatch (issues_bind (issues_perform hread) fun row => ?_)
    issues_handleSQLException
  cases row <;> trivial

theorem issues_deleteOrder {accountId : ℤ} (hstatuses : P (.sql (.deleteOrderStatus accountId)))
    (hcards : P (.sql (.deleteCreditCard accountId)))
    (horders : P (.sql (.deleteOrder accountId))) :
    (OrderController.deleteOrder accountId).Issues P := by
  refine issues_tryCatch (issues_bind ?_ fun _ => trivial) issues_handleSQLException
  exact issues_bind (issues_perform hstatuses) fun _ =>
    issues_bind (issues_perform hcards) fun _ => issues_perform horders

section OrderWriters

variable (hambient : ∀ command, P (.ambient command))

include hambient

theorem issues_insertNewStatus {orderId : Guid} {type : StatusType} {details : String}
    (hinsert : ∀ time, P (.sql (.insertNewStatus orderId type details time))) :
    (DatabaseHelper.insertNewStatus orderId type details).Issues P :=
  issues_bind (issues_perform (hambient _)) fun time => issues_perform (hinsert time)

theorem issues_createCreditCardOrder {request : CreditCardOrderRequest}
    (hcount : P (.sql (.getOrderCountForAccountId request.accountId)))
    (horder : P (.sql (.insertNewOrder request)))
    (hstatus : ∀ orderId details time,
      P (.sql (.insertNewStatus orderId .orderCreated details time))) :
    (OrderController.createCreditCardOrder request).Issues P := by
  refine issues_tryCatch (issues_bind (issues_perform hcount) fun orderCount => ?_)
    issues_handleSQLException
  refine issues_ite (issues_bind (issues_perform horder) fun guid => ?_) trivial
  exact issues_bind (issues_insertNewStatus hambient (hstatus guid _)) fun _ => trivial

theorem issues_workScheduler (hread : P (.sql .getOrderIdsWithStatusOrderCreated))
    (hdata : ∀ orderId, P (.sql (.getCreditCardManufactureData orderId)))
    (hsend : ∀ body, P (.http (.send (.issueCreditCard body))))
    (hawait : ∀ call, P (.http (.await call)))
    (hstatus : ∀ orderId details time,
      P (.sql (.insertNewStatus orderId .cardOrdered details time))) :
    WorkScheduler.run.Issues P := by
  refine issues_tryCatch (issues_bind (issues_perform hread) fun orders => ?_) fun _ => trivial
  refine issues_forM (fun orderId => issues_bind (issues_perform (hdata orderId)) fun body => ?_) _
  refine issues_bind (issues_httpCall (hsend body) hawait) fun response => ?_
  exact issues_ite (issues_insertNewStatus hambient (hstatus orderId _)) trivial

/-- No request inserts the first status. -/
theorem issues_actOnNewStatus {request : StatusRequest} {status : CreditCardOrderStatus}
    (hcard : ∀ card, P (.sql (.insertNewCreditCard request.orderId card)))
    (hshipping : ∀ shippingId, P (.sql (.updateOrder request.orderId shippingId)))
    (hstatus : ∀ type details time, type ≠ .orderCreated →
      P (.sql (.insertNewStatus request.orderId type details time))) :
    (OrderController.actOnNewStatus request status).Issues P := by
  rw [OrderController.actOnNewStatus]
  cases request.type with
  | none => trivial
  | some newStatusType =>
      refine issues_ite trivial ?_
      have hinsert : ∀ (type : StatusType) details (response : StandardResponse),
          type ≠ .orderCreated → Issues P (do
            DatabaseHelper.insertNewStatus request.orderId type details
            return response) := fun type details response htype =>
        issues_bind (issues_insertNewStatus hambient fun time => hstatus type details time htype)
          fun _ => issues_pure response
      cases newStatusType with
      | orderCreated | sequenceError => trivial
      | cardOrdered | cardDelivered => exact hinsert _ _ _ nofun
      | cardError => exact issues_bind (issues_ofExcept _) fun _ => hinsert _ _ _ nofun
      | cardShipped =>
          exact issues_bind (issues_ofExcept _) fun _ =>
            issues_bind (issues_perform (hshipping _)) fun _ => hinsert _ _ _ nofun
      | cardCreated =>
          exact issues_bind (issues_ofExcept _) fun _ =>
            issues_bind (issues_perform (hcard _)) fun _ => hinsert _ _ _ nofun

theorem issues_newStatus {id : Guid} {request : StatusRequest}
    (hread : P (.sql (.getLastOrderStatus id)))
    (hcard : ∀ card, P (.sql (.insertNewCreditCard request.orderId card)))
    (hshipping : ∀ shippingId, P (.sql (.updateOrder request.orderId shippingId)))
    (hstatus : ∀ type details time, type ≠ .orderCreated →
      P (.sql (.insertNewStatus request.orderId type details time))) :
    (OrderController.updateStatus id request).Issues P := by
  refine issues_tryCatch (issues_ite trivial ?_) issues_handleSQLException
  refine issues_bind (issues_perform hread) fun row => ?_
  cases row with
  | none => trivial
  | some status => exact issues_actOnNewStatus hambient hcard hshipping hstatus

end OrderWriters

theorem issues_orderController (haccept : P (.http (.accept .creditCardOrderService)))
    (hupdate : ∀ id request, (OrderController.updateStatus id request).Issues P)
    (haddress : ∀ id, P (.sql (.getShippingAddress id)))
    (hreply : ∀ call response, P (.http (.reply call response))) :
    OrderController.serve.Issues P := by
  refine issues_bind (issues_perform haccept) fun accepted => ?_
  obtain ⟨call, request⟩ := accepted
  refine issues_bind (issues_tryCatch ?_ fun _ => issues_pure _) fun response =>
    issues_perform (hreply _ _)
  cases request with
  | issueCreditCard body => exact issues_pure HttpResponse.failure
  | updateStatus id body => exact issues_bind (hupdate id body) fun _ => issues_pure _
  | getShippingAddress id =>
      exact issues_bind (issues_getShippingAddress (haddress id)) fun _ => issues_pure _

theorem issues_updateStatus (hambient : ∀ command, P (.ambient command))
    (hawait : ∀ call, P (.http (.await call))) {status : OrderStatus} {creditCardOrderId : Guid}
    {details : Details}
    (hsend : ∀ time, P (.http (.send (.updateStatus creditCardOrderId
      ⟨creditCardOrderId, some status.statusType, time, details⟩)))) :
    (ServiceHelper.updateStatus status creditCardOrderId details).Issues P :=
  issues_bind (issues_perform (hambient _)) fun time =>
    issues_bind (issues_httpCall (hsend time) hawait) fun _ => issues_pure ()

section ThirdParty

variable (hambient : ∀ command, P (.ambient command))
variable (hawait : ∀ call, P (.http (.await call)))

include hambient hawait

section Manufacture

variable (hlist : ∀ command : ListCommand, command.byManufacture = true → P (.list command))
variable (hsend : ∀ orderId type time details, type = .cardError ∨ type = .cardCreated →
  P (.http (.send (.updateStatus orderId ⟨orderId, some type, time, details⟩))))

include hlist hsend

theorem issues_processIssueAndErrorStatus (process : ManufactureProcess) :
    (ManufactureScheduler.processIssueAndErrorStatus process).Issues P := by
  have hlate : ∀ errorBody : ErrorRequest, Issues P (do
      list (.setManufactureStatus process.ref .manufactureError)
      ServiceHelper.updateStatus .cardError process.request.creditCardOrderId
        (.error errorBody)) := fun errorBody =>
    issues_bind (issues_perform (hlist _ rfl)) fun _ =>
      issues_updateStatus hambient hawait fun time => hsend _ _ time _ (Or.inl rfl)
  refine issues_bind (issues_perform (hambient _)) fun crisis => ?_
  refine issues_ite ?_ (issues_bind (issues_perform (hambient _)) fun chance => ?_)
  · exact issues_ite (hlate .factoryFailure) (issues_pure ())
  · refine issues_ite (issues_bind (issues_perform (hambient _)) fun coin => ?_) ?_
    · exact issues_ite (hlate .delayOnChips) (hlate .factoryFailure)
    · refine issues_bind ?_ fun cardBody => ?_
      · exact issues_bind (issues_perform (hambient _)) fun _ =>
          issues_bind (issues_perform (hambient _)) fun _ =>
            issues_bind (issues_perform (hambient _)) fun _ =>
              issues_bind (issues_perform (hambient _)) fun _ =>
                issues_bind (issues_perform (hambient _)) fun _ => issues_pure _
      · exact issues_bind (issues_perform (hlist _ rfl)) fun _ =>
          issues_bind (issues_perform (hlist _ rfl)) fun _ =>
            issues_updateStatus hambient hawait fun time => hsend _ _ time _ (Or.inr rfl)

theorem issues_manufactureScheduler : ManufactureScheduler.run.Issues P := by
  have hone : ∀ process, (ManufactureScheduler.processOne process).Issues P := by
    intro process
    rw [ManufactureScheduler.processOne]
    cases process.status with
    | issuing | manufactureError =>
        exact issues_bind
          (issues_processIssueAndErrorStatus hambient hawait hlist hsend process)
          fun _ => issues_pure []
    | cardCreated => exact issues_bind (issues_perform (hlist _ rfl)) fun _ => issues_pure [process]
  have hall : ∀ expectedModCount left cursor,
      (ManufactureScheduler.processAll expectedModCount left cursor).Issues P := by
    intro expectedModCount left
    induction left with
    | zero =>
        intro cursor
        exact issues_bind (issues_perform (hlist _ rfl)) fun _ =>
          issues_ite (issues_bind (issues_perform (hlist _ rfl)) fun _ => issues_pure [])
            (issues_pure [])
    | succ left ih =>
        intro cursor
        refine issues_bind (issues_perform (hlist _ rfl)) fun _ => issues_ite ?_ (issues_pure [])
        exact issues_bind (issues_perform (hlist _ rfl)) fun process =>
          issues_bind (hone process) fun _ => issues_bind (ih (cursor + 1)) fun _ =>
            issues_pure _
  refine issues_tryCatch ?_ fun _ => issues_pure ()
  exact issues_bind (issues_perform (hlist _ rfl)) fun _ => issues_bind (hall _ _ _) fun _ =>
    issues_forM (fun _ => issues_perform (hlist _ rfl)) _

end Manufacture

theorem issues_courierScheduler
    (hlist : ∀ command : ListCommand, command.byCourier = true → P (.list command))
    (hsend : ∀ request : HttpRequest, request.service = .creditCardOrderService →
      P (.http (.send request))) :
    CourierScheduler.run.Issues P := by
  have haddress : ∀ orderId, (ServiceHelper.getShippingAddress orderId).Issues P := by
    intro orderId
    refine issues_bind (issues_httpCall (hsend _ rfl) hawait) fun response =>
      issues_ite ?_ (issues_pure none)
    cases response.results with
    | shippingAddress address => exact issues_pure (some address)
    | _ => exact issues_throw CardException.illegalArgument
  have hone : ∀ process, (CourierScheduler.processOne process).Issues P := by
    intro process
    rw [CourierScheduler.processOne]
    cases process.status with
    | newCardReceived =>
        refine issues_bind (issues_bind (haddress _) fun address => ?_) fun _ => issues_pure []
        cases address with
        | none => exact issues_pure ()
        | some address =>
            exact issues_bind (issues_perform (hlist _ rfl)) fun _ =>
              issues_bind (issues_perform (hlist _ rfl)) fun _ =>
                issues_bind (issues_perform (hambient _)) fun _ =>
                  issues_bind (issues_perform (hlist _ rfl)) fun _ =>
                    issues_updateStatus hambient hawait fun _ => hsend _ rfl
    | cardSent =>
        exact issues_bind (issues_bind (issues_perform (hlist _ rfl)) fun _ =>
          issues_updateStatus hambient hawait fun _ => hsend _ rfl) fun _ => issues_pure []
    | cardDelivered => exact issues_pure [process]
  have hall : ∀ expectedModCount left cursor,
      (CourierScheduler.processAll expectedModCount left cursor).Issues P := by
    intro expectedModCount left
    induction left with
    | zero =>
        intro cursor
        exact issues_bind (issues_perform (hlist _ rfl)) fun _ =>
          issues_ite (issues_bind (issues_perform (hlist _ rfl)) fun _ => issues_pure [])
            (issues_pure [])
    | succ left ih =>
        intro cursor
        refine issues_bind (issues_perform (hlist _ rfl)) fun _ => issues_ite ?_ (issues_pure [])
        exact issues_bind (issues_perform (hlist _ rfl)) fun process =>
          issues_bind (hone process) fun _ => issues_bind (ih (cursor + 1)) fun _ =>
            issues_pure _
  refine issues_tryCatch ?_ fun _ => issues_pure ()
  exact issues_bind (issues_perform (hlist _ rfl)) fun _ => issues_bind (hall _ _ _) fun _ =>
    issues_forM (fun _ => issues_perform (hlist _ rfl)) _

omit hambient hawait in
theorem issues_manufacturerController
    (hadd : ∀ request, P (.list (.addManufactureProcess request)))
    (haccept : ∀ service, P (.http (.accept service)))
    (hreply : ∀ call response, P (.http (.reply call response))) :
    ManufacturerController.serve.Issues P := by
  refine issues_bind (issues_perform (haccept _)) fun accepted => ?_
  refine issues_bind (issues_tryCatch ?_ fun _ => issues_pure _) fun response =>
    issues_perform (hreply _ _)
  obtain ⟨call, request⟩ := accepted
  cases request with
  | issueCreditCard body =>
      cases body with
      | none => exact issues_pure HttpResponse.failure
      | some body =>
          exact issues_bind (issues_bind (issues_perform (hadd _)) fun _ => issues_pure _)
            fun _ => issues_pure _
  | _ => exact issues_pure HttpResponse.failure

end ThirdParty

end Issues

section Rules

variable {M : Type} {permitted : Condition CardException Command.Answer M}
variable {note : Note CardException Command.Answer M} {guard : Command → M → Prop}
variable {memory : M}

@[simp]
theorem wp_sql {statement : Statement}
    {post : Except CardException statement.Answer → M → Prop} :
    @wp _ _ _ (no_index statement.Answer) _ (remembers permitted note) guard (sql statement) post
        memory ↔
      guard (.sql statement) memory ∧
        (∀ value, permitted (.sql statement) memory (.ok value) →
          post (.ok value) (note memory (.sql statement) (.ok value))) ∧
        ∀ error, permitted (.sql statement) memory (.error error) →
          post (.error error) (note memory (.sql statement) (.error error)) :=
  wp_remembers_perform

@[simp]
theorem wp_list {command : ListCommand}
    {post : Except CardException command.Answer → M → Prop} :
    @wp _ _ _ (no_index command.Answer) _ (remembers permitted note) guard (list command) post
        memory ↔
      guard (.list command) memory ∧
        (∀ value, permitted (.list command) memory (.ok value) →
          post (.ok value) (note memory (.list command) (.ok value))) ∧
        ∀ error, permitted (.list command) memory (.error error) →
          post (.error error) (note memory (.list command) (.error error)) :=
  wp_remembers_perform

@[simp]
theorem wp_ambient {command : LocalCommand}
    {post : Except CardException command.Answer → M → Prop} :
    @wp _ _ _ (no_index command.Answer) _ (remembers permitted note) guard (ambient command) post
        memory ↔
      guard (.ambient command) memory ∧
        (∀ value, permitted (.ambient command) memory (.ok value) →
          post (.ok value) (note memory (.ambient command) (.ok value))) ∧
        ∀ error, permitted (.ambient command) memory (.error error) →
          post (.error error) (note memory (.ambient command) (.error error)) :=
  wp_remembers_perform

@[simp]
theorem wp_http {command : HttpCommand}
    {post : Except CardException command.Answer → M → Prop} :
    @wp _ _ _ (no_index command.Answer) _ (remembers permitted note) guard (http command) post
        memory ↔
      guard (.http command) memory ∧
        (∀ value, permitted (.http command) memory (.ok value) →
          post (.ok value) (note memory (.http command) (.ok value))) ∧
        ∀ error, permitted (.http command) memory (.error error) →
          post (.error error) (note memory (.http command) (.error error)) :=
  wp_remembers_perform

/-- A call to the other service, for a thread that takes no notes of it. -/
theorem wp_httpCall {request : HttpRequest}
    {post : Except CardException StandardResponse → M → Prop}
    (hsend : guard (.http (.send request)) memory)
    (hawait : ∀ call, guard (.http (.await call)) memory)
    (hsent : ∀ answer, note memory (.http (.send request)) answer = memory)
    (hawaited : ∀ call answer, note memory (.http (.await call)) answer = memory)
    (hpost : ∀ outcome, post outcome memory) :
    wp (remembers permitted note) guard (httpCall request) post memory := by
  simp only [httpCall, wp_bind, wp_http, andThen_ok, andThen_error, hsend, hawait, hsent,
    hawaited, hpost, implies_true, and_true, true_and]
  intro call _ response _
  cases response <;> exact hpost _

/-- Runs that end in a state like the one they began in can be repeated. -/
theorem wp_repeated {run : Task Unit} (ready : M → Prop)
    (hrun : ∀ memory, ready memory → wp (remembers permitted note) guard run
      (fun _ => ready) memory)
    (n : ℕ) (hready : ready memory) :
    wp (remembers permitted note) guard (repeated run n) (fun _ => ready) memory := by
  induction n generalizing memory with
  | zero => exact hready
  | succ n ih =>
      rw [repeated, wp_bind]
      refine wp_mono (fun outcome final hfinal => ?_) (hrun memory hready)
      cases outcome with
      | ok value => exact ih hfinal
      | error error => exact hfinal

end Rules

/-! ## Invariants of the database -/

/-- Run rule.  A property of the database is checked against the statements, and each
program against its guard; nothing else touches the database. -/
theorem database_of_reaches {M : Type} {schema : Schema} {workload : Workload} {world : World}
    {memory : M} {system : System M} {note : Note CardException Command.Answer M}
    {allowed : Condition CardException Command.Answer (World × M)} {guard : Command → M → Prop}
    (invariant : Database → Prop) (hstart : invariant world.database)
    (hprogram : ∀ party, wp (remembers (fun _ _ _ => True) note) guard (workload.program party)
      (fun _ _ => True) memory)
    (hchange : ∀ (statement : Statement) (world : World) memory
      (answer : Except CardException statement.Answer) database, invariant world.database →
      guard (.sql statement) memory → allowed (.sql statement) (world, memory) answer →
      Changes schema world.database statement answer.isOk database → invariant database)
    (hreaches : InterleavesWhen schema note allowed (workload.start memory world) system) :
    invariant system.shared.database := by
  have hupheld : Upheld (fun _ _ _ => True) note (fun world : World => invariant world.database)
      (fun _ _ _ => True) (fun _ => guard) (workload.start memory world) :=
    ⟨hstart, fun _ => trivial, hprogram⟩
  have hguarantees : Guarantees (step schema) note allowed
      (fun world : World => invariant world.database) (fun _ : Party => fun _ _ => True)
      (fun _ => guard) := by
    intro i command world memory answer world' hinvariant _ hguard hallowed hstep
    refine ⟨?_, trivial, fun _ _ _ _ => trivial⟩
    cases command with
    | sql statement =>
        obtain ⟨database, hchanges, rfl⟩ := step_sql hstep
        exact hchange statement world memory answer database hinvariant hguard hallowed hchanges
    | list command => rw [(step_list hstep).2]; exact hinvariant
    | ambient command => rw [step_ambient hstep]; exact hinvariant
    | http command =>
        obtain ⟨choice, calls, -, rfl⟩ := step_http hstep
        exact hinvariant
  exact (hupheld.reaches (fun _ _ _ _ _ => trivial) hguarantees hreaches).shared

end EasyTrade.CardOrders

import EasyTrade.CardOrders.StatusHistory

/-!
# Requests that are done as a whole

A request for a card order consists of several statements, each of which is committed at
once.  When one of them throws, the request is answered with an error and what the ones
before it have changed stays.  Requests are served one after the other here; the third
party and the network may do meanwhile what they like.
-/

namespace EasyTrade.CardOrders

open EasyTrade.Program EasyTrade.Interleaving

inductive OrderRequest
  | createCreditCardOrder (request : CreditCardOrderRequest)
  | updateStatus (id : Guid) (request : StatusRequest)
  | deleteOrder (accountId : ℤ)

def OrderRequest.task : OrderRequest → Task StandardResponse
  | createCreditCardOrder request => OrderController.createCreditCardOrder request
  | updateStatus id request => OrderController.updateStatus id request
  | deleteOrder accountId => OrderController.deleteOrder accountId

/-- An error status, or an exception that the framework answers. -/
def isErrorAnswer : Except CardException StandardResponse → Bool
  | .ok response => decide (400 ≤ response.statusCode)
  | .error _ => true

/-- The three tables hold the rows that they held before. -/
structure Database.SameRows (before after : Database) : Prop where
  orders : after.orders.rows = before.orders.rows
  statuses : after.statuses.rows = before.statuses.rows
  cards : after.cards.rows = before.cards.rows

theorem Database.SameRows.refl (database : Database) : database.SameRows database :=
  ⟨rfl, rfl, rfl⟩

/-- When the statement throws, the request has already changed a row: the order or the card
is there but not its status, the order has a new shipping id, or rows that refer to the
order are gone. -/
def OrderRequest.CutShort (before : Database) : OrderRequest → Statement → Prop
  | createCreditCardOrder _, .insertNewStatus .. => True
  | updateStatus _ _, .insertNewStatus _ .cardCreated _ _ => True
  | updateStatus _ request, .insertNewStatus _ .cardShipped _ _ =>
      ∃ order ∈ before.orders.find? request.orderId, ∃ shipping,
        request.details = .shippingId shipping ∧ order.shippingId ≠ some shipping.shippingId
  | deleteOrder accountId, .deleteCreditCard _ =>
      ∃ order ∈ before.ordersOf accountId, before.statusesOf order.id ≠ []
  | deleteOrder accountId, .deleteOrder _ =>
      ∃ order ∈ before.ordersOf accountId,
        before.statusesOf order.id ≠ [] ∨ before.cardsOf order.id ≠ []
  | _, _ => False

/-- The statement that has thrown. -/
def noteThrown : Note CardException Command.Answer (Option Statement)
  | _, .sql statement, .error _ => some statement
  | thrown, _, _ => thrown

/-- A command as the tables see it: the third party and the network may be in any state. -/
def tablesStep (schema : Schema) : Semantics CardException Command.Answer Database :=
  fun command database answer database' => ∃ world world' : World,
    world.database = database ∧ world'.database = database' ∧
      step schema command world answer world'

abbrev watchedStep (schema : Schema) :
    Semantics CardException Command.Answer (Database × Option Statement) :=
  noted (tablesStep schema) noteThrown

/-- A run of the services is one that the tables see. -/
theorem exec_tables {schema : Schema} {α : Type} {program : Task α} {world world' : World}
    {outcome : Except CardException α} (hexec : Exec (step schema) program world outcome world') :
    Exec (tablesStep schema) program world.database outcome world'.database := by
  induction program generalizing world with
  | done value => exact ⟨hexec.1, congrArg World.database hexec.2⟩
  | raise error => exact ⟨hexec.1, congrArg World.database hexec.2⟩
  | call command next ih =>
      obtain ⟨answer, middle, hstep, hrest⟩ := hexec
      exact ⟨answer, middle.database, ⟨world, middle, rfl, rfl, hstep⟩, ih answer hrest⟩

/-! ## What requests do -/

section Rules

variable {schema : Schema} {database : Database} {thrown : Option Statement}

/-- A program run alone. -/
abbrev Performs {α : Type} (schema : Schema) (task : Task α)
    (post : Except CardException α → Database × Option Statement → Prop)
    (start : Database × Option Statement) : Prop :=
  wp (watchedStep schema) (fun _ _ => True) task post start

/-- A statement that is executed. -/
def Returns (schema : Schema) (statement : Statement) (database : Database)
    (value : statement.Answer) (database' : Database) : Prop :=
  ∃ choice, statement.move schema choice database = some (.ok value, database')

theorem Returns.changes {statement : Statement} {value : statement.Answer} {database' : Database}
    (hreturns : Returns schema statement database value database') :
    Changes schema database statement true database' := by
  obtain ⟨choice, hmove⟩ := hreturns
  exact Changes.of_move hmove

/-- A statement that is executed has been a query or has made its change. -/
theorem Returns.order {request : CreditCardOrderRequest} {guid : Guid} {database' : Database}
    (hreturns : Returns schema (.insertNewOrder request) database guid database') :
    guid ∉ database.orders.keys ∧ database' = database.addOrder (request.order guid) := by
  obtain ⟨choice, hmove⟩ := hreturns
  have hrun : settle database ((database.insertNewOrder choice.number request).map
      (choice.number, ·)) = (.ok guid, database') := by
    cases choice <;> first | exact Option.some.inj hmove | cases hmove
  rw [Database.insertNewOrder] at hrun
  split_ifs at hrun with hfits
  · cases hrun
    exact ⟨hfits.1, rfl⟩
  · cases hrun

theorem performs_sql {statement : Statement}
    {post : Except CardException statement.Answer → Database × Option Statement → Prop}
    (hreturns : ∀ value database', Returns schema statement database value database' →
      post (.ok value) (database', thrown))
    (hthrows : post (.error .sql) (database, some statement)) :
    Performs schema (sql statement) post (database, thrown) := by
  rw [sql, Performs, wp_perform]
  refine ⟨trivial, fun answer final hstep => ?_⟩
  obtain ⟨database', thrown'⟩ := final
  obtain ⟨⟨world, world', rfl, rfl, choice, hmove⟩, hnote⟩ := hstep
  have hthrown : thrown' = noteThrown thrown (.sql statement) answer := hnote
  obtain ⟨⟨answer', changed⟩, hstatement, hresult⟩ := Option.map_eq_some_iff.mp hmove
  cases hresult
  rw [hthrown]
  cases answer' with
  | ok value => exact hreturns value changed ⟨choice, hstatement⟩
  | error error =>
      cases Statement.error_of_move hstatement
      have hsame : changed = world.database := (Changes.of_move hstatement).eq_of_failed
      rw [hsame]
      exact hthrows

/-- Reading the clock changes nothing. -/
theorem performs_now
    {post : Except CardException LocalDateTime → Database × Option Statement → Prop}
    (hpost : ∀ time, post (.ok time) (database, thrown)) :
    Performs schema (ambient .now) post (database, thrown) := by
  rw [ambient, Performs, wp_perform]
  refine ⟨trivial, fun answer final hstep => ?_⟩
  obtain ⟨database', thrown'⟩ := final
  obtain ⟨⟨world, world', rfl, rfl, choice, hmove⟩, hnote⟩ := hstep
  cases choice <;> cases hmove
  have hthrown : thrown' = thrown := hnote
  rw [hthrown]
  exact hpost _

/-- A status row more. -/
abbrev Database.withStatus (database : Database) (orderId : Guid) (type : StatusType)
    (details : String) (time : LocalDateTime) : Database :=
  database.addStatus (type.row orderId details time) (type.row_id orderId details time)

theorem performs_insertNewStatus {orderId : Guid} {type : StatusType} {details : String}
    {post : Except CardException Unit → Database × Option Statement → Prop}
    (hinserts : ∀ time, orderId ∈ database.orders.keys →
      post (.ok ()) (database.withStatus orderId type details time, thrown))
    (hthrows : ∀ time,
      post (.error .sql) (database, some (.insertNewStatus orderId type details time))) :
    Performs schema (DatabaseHelper.insertNewStatus orderId type details) post
      (database, thrown) := by
  rw [DatabaseHelper.insertNewStatus, Performs, wp_bind]
  refine performs_now fun time => performs_sql (fun value database' hreturns => ?_) (hthrows time)
  cases hreturns.changes with
  | nothing hnothing => rcases hnothing with h | h <;> cases h
  | status horder => exact hinserts time horder

end Rules

namespace Database

abbrev withCard (database : Database) (orderId : Guid) (request : CreditCardRequest) : Database :=
  database.addCard (request.card orderId) (request.card_id orderId)

abbrev withoutStatuses (database : Database) (orderId : Option Guid) : Database :=
  { database with statuses := database.statuses.delete (some ·.creditCardOrderId = orderId) }

abbrev withoutCards (database : Database) (orderId : Option Guid) : Database :=
  { database with cards := database.cards.delete (some ·.creditCardOrderId = orderId) }

abbrev withoutOrders (database : Database) (accountId : ℤ) : Database :=
  { database with orders := database.orders.delete (·.accountId = accountId) }

end Database

/-- How a request ends: whether it is answered with an error, what it leaves of the tables,
and which statement has thrown. -/
inductive Ends (before : Database) :
    OrderRequest → (error : Bool) → Database × Option Statement → Prop
  | untouched {request : OrderRequest} {error : Bool} {thrown : Option Statement}
      (hthrown : ∀ statement ∈ thrown, ¬request.CutShort before statement) :
      Ends before request error (before, thrown)
  | created {request : CreditCardOrderRequest} {guid : Guid} (details : String)
      (time : LocalDateTime) (hnew : guid ∉ before.orders.keys) :
      Ends before (.createCreditCardOrder request) false
        ((before.addOrder (request.order guid)).withStatus guid .orderCreated details time, none)
  | orderOnly {request : CreditCardOrderRequest} {guid : Guid} (details : String)
      (time : LocalDateTime) (hnew : guid ∉ before.orders.keys) :
      Ends before (.createCreditCardOrder request) true
        (before.addOrder (request.order guid),
          some (.insertNewStatus guid .orderCreated details time))
  | updated {id : Guid} {request : StatusRequest} (type : StatusType) (details : String)
      (time : LocalDateTime) (horder : request.orderId ∈ before.orders.keys) :
      Ends before (.updateStatus id request) false
        (before.withStatus request.orderId type details time, none)
  | cardCreated {id : Guid} {request : StatusRequest} (card : CreditCardRequest)
      (details : String) (time : LocalDateTime) (horder : request.orderId ∈ before.orders.keys) :
      Ends before (.updateStatus id request) false
        ((before.withCard request.orderId card).withStatus request.orderId .cardCreated details
          time, none)
  | cardOnly {id : Guid} {request : StatusRequest} (card : CreditCardRequest)
      (details : String) (time : LocalDateTime) :
      Ends before (.updateStatus id request) true
        (before.withCard request.orderId card,
          some (.insertNewStatus request.orderId .cardCreated details time))
  | shipped {id : Guid} {request : StatusRequest} (shipping : ShippingIdRequest)
      (details : String) (time : LocalDateTime)
      (horder : request.orderId ∈ (before.updateOrder request.orderId shipping).orders.keys) :
      Ends before (.updateStatus id request) false
        ((before.updateOrder request.orderId shipping).withStatus request.orderId .cardShipped
          details time, none)
  | shippingIdOnly {id : Guid} {request : StatusRequest} {shipping : ShippingIdRequest}
      (details : String) (time : LocalDateTime)
      (hdetails : request.details = .shippingId shipping) :
      Ends before (.updateStatus id request) true
        (before.updateOrder request.orderId shipping,
          some (.insertNewStatus request.orderId .cardShipped details time))
  | deleted {accountId : ℤ} {orderId : Option Guid}
      (horder : before.orderIdSubquery accountId = .ok orderId) :
      Ends before (.deleteOrder accountId) false
        (((before.withoutStatuses orderId).withoutCards orderId).withoutOrders accountId, none)
  | statusesGone {accountId : ℤ} {orderId : Option Guid}
      (horder : before.orderIdSubquery accountId = .ok orderId) :
      Ends before (.deleteOrder accountId) true
        (before.withoutStatuses orderId, some (.deleteCreditCard accountId))
  | rowsGone {accountId : ℤ} {orderId : Option Guid}
      (horder : before.orderIdSubquery accountId = .ok orderId) :
      Ends before (.deleteOrder accountId) true
        ((before.withoutStatuses orderId).withoutCards orderId, some (.deleteOrder accountId))

section Ends

variable {schema : Schema} {before : Database}

/-- The request has ended like this when the program has. -/
abbrev EndsAs (before : Database) (request : OrderRequest)
    (outcome : Except CardException StandardResponse)
    (final : Database × Option Statement) : Prop :=
  Ends before request (isErrorAnswer outcome) final

/-- Nothing has been done. -/
theorem endsAs_untouched {request : OrderRequest}
    (outcome : Except CardException StandardResponse) :
    EndsAs before request outcome (before, none) :=
  .untouched fun _ hthrown => nomatch hthrown

/-- The first statement of the request has thrown. -/
theorem endsAs_thrown {request : OrderRequest} {statement : Statement}
    (hfirst : ¬request.CutShort before statement)
    (outcome : Except CardException StandardResponse) :
    EndsAs before request outcome (before, some statement) := by
  refine .untouched fun other hother => ?_
  cases hother
  exact hfirst

/-- `catch (SQLException e)` makes an error answer. -/
theorem performs_handled {request : OrderRequest} {body : Task StandardResponse}
    (hbody : Performs schema body (EndsAs before request) (before, none)) :
    Performs schema (tryCatch body OrderController.handleSQLException) (EndsAs before request)
      (before, none) := by
  rw [Performs, wp_tryCatch]
  refine wp_mono (fun outcome final hends => ?_) hbody
  cases outcome with
  | ok response => exact hends
  | error error => cases error <;> exact hends

theorem performs_createCreditCardOrder (request : CreditCardOrderRequest) :
    Performs schema (OrderController.createCreditCardOrder request)
      (EndsAs before (.createCreditCardOrder request)) (before, none) := by
  refine performs_handled ?_
  rw [Performs, wp_bind]
  refine performs_sql (fun count database' hreturns => ?_) (endsAs_thrown (by exact not_false) _)
  cases hreturns.changes with
  | nothing =>
  rw [andThen_ok]
  split_ifs
  · rw [wp_bind]
    refine performs_sql (fun guid database' hreturns => ?_) (endsAs_thrown (by exact not_false) _)
    obtain ⟨hnew, rfl⟩ := hreturns.order
    rw [andThen_ok, wp_bind]
    exact performs_insertNewStatus (fun time _ => .created _ time hnew)
      fun time => .orderOnly _ time hnew
  · exact endsAs_untouched _

theorem performs_deleteOrder (accountId : ℤ) :
    Performs schema (OrderController.deleteOrder accountId)
      (EndsAs before (.deleteOrder accountId)) (before, none) := by
  refine performs_handled ?_
  rw [DatabaseHelper.deleteOrderForAccountId, Performs, wp_bind, wp_bind]
  refine performs_sql (fun _ _ hreturns => ?_) (endsAs_thrown (by exact not_false) _)
  cases hreturns.changes with
  | nothing hnothing => rcases hnothing with h | h <;> cases h
  | statusesDeleted horder =>
  rw [andThen_ok, wp_bind]
  refine performs_sql (fun _ _ hreturns => ?_) (.statusesGone horder)
  cases hreturns.changes with
  | nothing hnothing => rcases hnothing with h | h <;> cases h
  | cardsDeleted hother =>
  cases horder.symm.trans hother
  rw [andThen_ok]
  refine performs_sql (fun _ _ hreturns => ?_) (.rowsGone horder)
  cases hreturns.changes with
  | nothing hnothing => rcases hnothing with h | h <;> cases h
  | ordersDeleted => exact .deleted horder

/-- Details that cannot be read are answered with an error. -/
theorem performs_ofExcept {request : OrderRequest} {α : Type} {result : Except CardException α}
    {next : α → Task StandardResponse}
    (hnext : ∀ value, result = .ok value →
      Performs schema (next value) (EndsAs before request) (before, none)) :
    Performs schema (ofExcept result >>= next) (EndsAs before request) (before, none) := by
  cases result with
  | error error => exact endsAs_untouched _
  | ok value => exact hnext value rfl

theorem Details.eq_shippingId {details : Details} {shipping : ShippingIdRequest}
    (h : details.toShippingIdRequest = .ok shipping) : details = .shippingId shipping := by
  cases details <;> cases h
  rfl

/-- A status that comes with no other change. -/
theorem performs_onlyStatus {id : Guid} {request : StatusRequest} {type : StatusType}
    {details : String} (hcard : type ≠ .cardCreated) (hshipped : type ≠ .cardShipped) :
    Performs schema (do
        DatabaseHelper.insertNewStatus request.orderId type details
        return OrderController.buildResponseEntity 200 OrderController.statusUpdated .absent)
      (EndsAs before (.updateStatus id request)) (before, none) := by
  rw [Performs, wp_bind]
  refine performs_insertNewStatus (fun time horder => .updated type details time horder)
    fun time => endsAs_thrown (fun hcut => ?_) _
  cases type with
  | cardCreated => exact hcard rfl
  | cardShipped => exact hshipped rfl
  | _ => exact hcut

theorem performs_actOnNewStatus (id : Guid) (request : StatusRequest)
    (status : CreditCardOrderStatus) :
    Performs schema (OrderController.actOnNewStatus request status)
      (EndsAs before (.updateStatus id request)) (before, none) := by
  rw [OrderController.actOnNewStatus]
  split
  · exact endsAs_untouched _
  split_ifs
  · exact endsAs_untouched _
  split
  · exact performs_onlyStatus (by decide) (by decide)
  · exact performs_onlyStatus (by decide) (by decide)
  · exact performs_ofExcept fun _ _ => performs_onlyStatus (by decide) (by decide)
  · refine performs_ofExcept fun shipping hshipping => ?_
    rw [Performs, wp_bind]
    refine performs_sql (fun _ _ hreturns => ?_) (endsAs_thrown (by exact not_false) _)
    cases hreturns.changes with
    | nothing hnothing => rcases hnothing with h | h <;> cases h
    | shippingId =>
    rw [andThen_ok, wp_bind]
    exact performs_insertNewStatus (fun time horder => .shipped shipping _ time horder)
      fun time => .shippingIdOnly _ time (Details.eq_shippingId hshipping)
  · refine performs_ofExcept fun card _ => ?_
    rw [Performs, wp_bind]
    refine performs_sql (fun _ _ hreturns => ?_) (endsAs_thrown (by exact not_false) _)
    cases hreturns.changes with
    | nothing hnothing => rcases hnothing with h | h <;> cases h
    | card hgenerated hknown =>
    rw [andThen_ok, wp_bind]
    exact performs_insertNewStatus (fun time _ => .cardCreated card _ time hknown)
      fun time => .cardOnly card _ time
  · exact endsAs_untouched _
  · exact endsAs_untouched _

theorem performs_updateStatus (id : Guid) (request : StatusRequest) :
    Performs schema (OrderController.updateStatus id request)
      (EndsAs before (.updateStatus id request)) (before, none) := by
  refine performs_handled ?_
  split_ifs
  · exact endsAs_untouched _
  rw [Performs, wp_bind]
  refine performs_sql (fun found _ hreturns => ?_) (endsAs_thrown (by exact not_false) _)
  cases hreturns.changes with
  | nothing =>
  rw [andThen_ok]
  cases found with
  | none => exact endsAs_untouched _
  | some status => exact performs_actOnNewStatus id request status

theorem ends_of_exec {request : OrderRequest} {outcome : Except CardException StandardResponse}
    {final : Database × Option Statement}
    (hexec : Exec (watchedStep schema) request.task (before, none) outcome final) :
    Ends before request (isErrorAnswer outcome) final := by
  have hperforms : Performs schema request.task (EndsAs before request) (before, none) := by
    cases request with
    | createCreditCardOrder request => exact performs_createCreditCardOrder request
    | updateStatus id request => exact performs_updateStatus id request
    | deleteOrder accountId => exact performs_deleteOrder accountId
  exact (wp_iff_forall_exec.mp hperforms) outcome final hexec

/-! ### Which rows have changed -/

theorem not_sameRows_addOrder {order : CreditCardOrder} (hnew : order.id ∉ before.orders.keys) :
    ¬before.SameRows (before.addOrder order) := by
  intro hsame
  have hrows := hsame.orders
  rw [Database.addOrder, Table.rows_insert hnew] at hrows
  exact List.cons_ne_nil _ _ (List.append_right_eq_self.mp hrows)

theorem not_sameRows_withCard (orderId : Guid) (card : CreditCardRequest) :
    ¬before.SameRows (before.withCard orderId card) := by
  intro hsame
  have hrows : before.cards.rows ++ [_] = before.cards.rows := hsame.cards
  exact List.cons_ne_nil _ _ (List.append_right_eq_self.mp hrows)

/-- The order had the shipping id before. -/
theorem sameRows_updateOrder {orderId : Guid} {shipping : ShippingIdRequest} :
    before.SameRows (before.updateOrder orderId shipping) ↔
      ∀ order ∈ before.orders.find? orderId, order.shippingId = some shipping.shippingId := by
  have hstatuses := statuses_updateOrder before orderId shipping
  have hcards := cards_updateOrder before orderId shipping
  cases hfound : before.orders.find? orderId with
  | none =>
      have hsame : before.updateOrder orderId shipping = before := by
        rw [Database.updateOrder, hfound]
      rw [hsame]
      exact iff_of_true (.refl before) fun order horder => absurd horder (Option.not_mem_none order)
  | some order =>
      have hkey : order.id = orderId := Table.key_of_find? hfound
      have horders : (before.updateOrder orderId shipping).orders =
          before.orders.set { order with shippingId := some shipping.shippingId } := by
        rw [Database.updateOrder, hfound]
      constructor
      · intro hsame other hother
        cases hother
        have hmem : order.id ∈ before.orders.keys := hkey ▸ Table.mem_keys_of_find? hfound
        have hset : (before.orders.set
            { order with shippingId := some shipping.shippingId }).find? order.id =
              some { order with shippingId := some shipping.shippingId } :=
          Table.find?_set_self hmem
        have hrows := hsame.orders
        rw [horders] at hrows
        have hsame' : before.orders.find? order.id =
            some { order with shippingId := some shipping.shippingId } := by
          rw [← hset, Table.find?, Table.find?, hrows]
        rw [hkey, hfound] at hsame'
        exact congrArg CreditCardOrder.shippingId (Option.some.inj hsame')
      · intro hshipping
        have hold : ({ order with shippingId := some shipping.shippingId } : CreditCardOrder) =
            order := by
          rw [← hshipping order rfl]
        refine ⟨?_, congrArg AutoTable.rows hstatuses, congrArg AutoTable.rows hcards⟩
        rw [horders, hold, Table.set_eq_self (hkey ▸ hfound)]

/-- The subquery finds the order of the account. -/
theorem orderIdSubquery_ok {accountId : ℤ} {orderId : Option Guid}
    (horder : before.orderIdSubquery accountId = .ok orderId) (id : Guid) :
    orderId = some id ↔ ∃ order ∈ before.ordersOf accountId, order.id = id := by
  rw [Database.orderIdSubquery] at horder
  split at horder
  · next hnone =>
      cases horder
      rw [hnone]
      refine iff_of_false (Option.some_ne_none id).symm fun hexists => ?_
      obtain ⟨order, hmem, -⟩ := hexists
      exact List.not_mem_nil hmem
  · next order hone =>
      cases horder
      rw [hone]
      simp
  · cases horder

/-- Nothing refers to the order of the account. -/
theorem filter_eq_self_of_order {α : Type} {accountId : ℤ} {orderId : Option Guid}
    (horder : before.orderIdSubquery accountId = .ok orderId) (rows : List α) (ref : α → Guid) :
    (rows.filter fun row => !decide (some (ref row) = orderId)) = rows ↔
      ∀ order ∈ before.ordersOf accountId, (rows.filter fun row => ref row = order.id) = [] := by
  have hfound := orderIdSubquery_ok horder
  rw [List.filter_eq_self]
  constructor
  · intro hall order hmem
    refine List.filter_eq_nil_iff.mpr fun row hrow hrefers => ?_
    have hid : orderId = some (ref row) :=
      (hfound (ref row)).mpr ⟨order, hmem, (of_decide_eq_true hrefers).symm⟩
    have hnot := hall row hrow
    rw [hid] at hnot
    simp at hnot
  · intro hall row hrow
    rw [Bool.not_eq_true', decide_eq_false_iff_not]
    intro hid
    obtain ⟨order, hmem, hrefers⟩ := (hfound (ref row)).mp hid.symm
    exact List.filter_eq_nil_iff.mp (hall order hmem) row hrow (decide_eq_true hrefers.symm)

theorem sameRows_withoutStatuses {accountId : ℤ} {orderId : Option Guid}
    (horder : before.orderIdSubquery accountId = .ok orderId) :
    before.SameRows (before.withoutStatuses orderId) ↔
      ∀ order ∈ before.ordersOf accountId, before.statusesOf order.id = [] :=
  Iff.trans ⟨Database.SameRows.statuses, fun hrows => ⟨rfl, hrows, rfl⟩⟩
    (filter_eq_self_of_order horder before.statuses.rows CreditCardOrderStatus.creditCardOrderId)

theorem sameRows_withoutRows {accountId : ℤ} {orderId : Option Guid}
    (horder : before.orderIdSubquery accountId = .ok orderId) :
    before.SameRows ((before.withoutStatuses orderId).withoutCards orderId) ↔
      ∀ order ∈ before.ordersOf accountId,
        before.statusesOf order.id = [] ∧ before.cardsOf order.id = [] := by
  have hstatuses := filter_eq_self_of_order horder before.statuses.rows
    CreditCardOrderStatus.creditCardOrderId
  have hcards := filter_eq_self_of_order horder before.cards.rows CreditCard.creditCardOrderId
  constructor
  · intro hsame order hmem
    exact ⟨hstatuses.mp hsame.statuses order hmem, hcards.mp hsame.cards order hmem⟩
  · intro hnone
    exact ⟨rfl, hstatuses.mpr fun order hmem => (hnone order hmem).1,
      hcards.mpr fun order hmem => (hnone order hmem).2⟩

/-- A request that is answered with an error has left all rows as they were, unless it was
cut short. -/
theorem Ends.sameRows_iff {request : OrderRequest} {after : Database}
    {thrown : Option Statement} (hends : Ends before request true (after, thrown)) :
    before.SameRows after ↔ ∀ statement ∈ thrown, ¬request.CutShort before statement := by
  have hsome : ∀ {statement : Statement},
      (∀ other ∈ some statement, ¬request.CutShort before other) ↔
        ¬request.CutShort before statement := fun {_} =>
    ⟨fun h => h _ rfl, fun h _ hother => by cases hother; exact h⟩
  cases hends with
  | untouched hthrown => exact iff_of_true (.refl before) hthrown
  | orderOnly details time hnew =>
      rw [hsome]
      exact iff_of_false (not_sameRows_addOrder hnew) (not_not_intro trivial)
  | cardOnly card details time =>
      rw [hsome]
      exact iff_of_false (not_sameRows_withCard _ card) (not_not_intro trivial)
  | shippingIdOnly details time hdetails =>
      rw [hsome, sameRows_updateOrder, OrderRequest.CutShort, hdetails]
      simp
  | statusesGone horder =>
      rw [hsome, sameRows_withoutStatuses horder, OrderRequest.CutShort]
      push Not
      rfl
  | rowsGone horder =>
      rw [hsome, sameRows_withoutRows horder, OrderRequest.CutShort]
      push Not
      rfl

end Ends

/-! ## Orders that have begun -/

/-- The history of every order starts with its creation, and only orders have one. -/
structure Database.Begun (database : Database) : Prop where
  created : ∀ id ∈ database.orders.keys, (database.history id).head? = some .orderCreated
  known : ∀ id, id ∉ database.orders.keys → database.history id = []

section Begun

variable {schema : Schema} {before after : Database}

theorem begun_empty (accounts : List ℤ) : (Database.empty accounts).Begun :=
  ⟨fun _ hid => absurd hid List.not_mem_nil, fun _ _ => rfl⟩

/-- Only the orders and their histories matter. -/
theorem Database.Begun.of_eq (hbegun : before.Begun)
    (hkeys : after.orders.keys = before.orders.keys)
    (hhistory : ∀ id, after.history id = before.history id) : after.Begun := by
  refine ⟨fun id hid => ?_, fun id hid => ?_⟩
  · rw [hhistory]
    exact hbegun.created id (hkeys ▸ hid)
  · rw [hhistory]
    exact hbegun.known id (hkeys ▸ hid)

theorem Database.Begun.of_sameRows (hbegun : before.Begun) (hsame : before.SameRows after) :
    after.Begun := by
  refine hbegun.of_eq (congrArg (List.map CreditCardOrder.id) hsame.orders) fun id => ?_
  rw [Database.history, Database.statusesOf, hsame.statuses]
  rfl

/-- A status more of an order that has begun. -/
theorem Database.Begun.withStatus (hbegun : before.Begun) {orderId : Guid}
    (horder : orderId ∈ before.orders.keys) (type : StatusType) (details : String)
    (time : LocalDateTime) : (before.withStatus orderId type details time).Begun := by
  refine ⟨fun id hid => ?_, fun id hid => ?_⟩
  · have hcreated := hbegun.created id hid
    have hne : before.history id ≠ [] := fun hnil => by rw [hnil] at hcreated; cases hcreated
    rw [history_addStatus, List.head?_append_of_ne_nil _ hne, hcreated]
  · have hne : orderId ≠ id := fun heq => hid (heq ▸ horder)
    rw [history_addStatus, if_neg hne, List.append_nil, hbegun.known id hid]

theorem keys_updateOrder {orderId : Guid} {shipping : ShippingIdRequest} :
    (before.updateOrder orderId shipping).orders.keys = before.orders.keys := by
  rw [Database.updateOrder]
  cases before.orders.find? orderId with
  | none => rfl
  | some order => exact Table.keys_set _ _

theorem Database.Begun.updateOrder (hbegun : before.Begun) (orderId : Guid)
    (shipping : ShippingIdRequest) : (before.updateOrder orderId shipping).Begun := by
  refine hbegun.of_eq keys_updateOrder fun id => ?_
  rw [Database.history, Database.statusesOf, statuses_updateOrder]
  rfl

theorem Database.Begun.withCard (hbegun : before.Begun) (orderId : Guid)
    (card : CreditCardRequest) : (before.withCard orderId card).Begun :=
  hbegun.of_eq rfl fun _ => rfl

/-- An order comes with its first status. -/
theorem Database.Begun.addOrder (hbegun : before.Begun) {order : CreditCardOrder}
    (hnew : order.id ∉ before.orders.keys) (details : String) (time : LocalDateTime) :
    ((before.addOrder order).withStatus order.id .orderCreated details time).Begun := by
  have hhistory : ∀ id, (before.addOrder order).history id = before.history id := fun _ => rfl
  have hkeys : (before.addOrder order).orders.keys = before.orders.keys ++ [order.id] :=
    Table.keys_insert hnew
  refine ⟨fun id hid => ?_, fun id hid => ?_⟩
  · rw [history_addStatus, hhistory]
    by_cases hsame : order.id = id
    · rw [if_pos hsame, hbegun.known id (hsame ▸ hnew)]
      rfl
    · have hold : id ∈ before.orders.keys := by
        have hid : id ∈ (before.addOrder order).orders.keys := hid
        rw [hkeys] at hid
        exact (List.mem_append.mp hid).resolve_right fun h => hsame (List.mem_singleton.mp h).symm
      rw [if_neg hsame, List.append_nil, hbegun.created id hold]
  · have hid : id ∉ (before.addOrder order).orders.keys := hid
    rw [hkeys, List.mem_append, List.mem_singleton, not_or] at hid
    rw [history_addStatus, hhistory, if_neg (Ne.symm hid.2), List.append_nil,
      hbegun.known id hid.1]

/-- An order goes with its history. -/
theorem Database.Begun.deleted (hbegun : before.Begun) {accountId : ℤ} {orderId : Option Guid}
    (horder : before.orderIdSubquery accountId = .ok orderId) :
    (((before.withoutStatuses orderId).withoutCards orderId).withoutOrders accountId).Begun := by
  have hhistory : ∀ id,
      (((before.withoutStatuses orderId).withoutCards orderId).withoutOrders accountId).history id =
        if some id = orderId then [] else before.history id :=
    fun id => history_delete orderId id
  have hkeys : ∀ id, id ∈ (((before.withoutStatuses orderId).withoutCards
      orderId).withoutOrders accountId).orders.keys ↔
        ∃ order ∈ before.orders.rows, order.accountId ≠ accountId ∧ order.id = id := by
    intro id
    rw [Table.keys, Table.rows_delete]
    simp [and_assoc]
  have hfound := orderIdSubquery_ok horder
  refine ⟨fun id hid => ?_, fun id hid => ?_⟩
  · obtain ⟨order, hmem, hother, rfl⟩ := (hkeys id).mp hid
    have hne : some order.id ≠ orderId := by
      intro heq
      obtain ⟨own, hown, hsame⟩ := (hfound order.id).mp heq.symm
      obtain ⟨hownRow, haccount⟩ := List.mem_filter.mp hown
      have heq : own = order :=
        List.inj_on_of_nodup_map before.orders.keysNodup hownRow hmem hsame
      exact hother (heq ▸ of_decide_eq_true haccount)
    rw [hhistory, if_neg hne]
    exact hbegun.created order.id (List.mem_map_of_mem hmem)
  · rw [hhistory]
    split_ifs with hgone
    · rfl
    · refine hbegun.known id fun hold => ?_
      obtain ⟨order, hmem, rfl⟩ := List.mem_map.mp hold
      have haccount : order.accountId = accountId := by
        by_contra hother
        exact hid ((hkeys order.id).mpr ⟨order, hmem, hother, rfl⟩)
      exact hgone ((hfound order.id).mpr
        ⟨order, List.mem_filter.mpr ⟨hmem, decide_eq_true haccount⟩, rfl⟩).symm

/-- A request that is not cut short keeps the histories. -/
theorem Ends.begun {request : OrderRequest} {error : Bool} {thrown : Option Statement}
    (hends : Ends before request error (after, thrown))
    (hwhole : ∀ statement ∈ thrown, ¬request.CutShort before statement)
    (hbegun : before.Begun) : after.Begun := by
  cases error with
  | true => exact hbegun.of_sameRows (hends.sameRows_iff.mpr hwhole)
  | false =>
  cases hends with
  | untouched => exact hbegun
  | created details time hnew => exact hbegun.addOrder hnew details time
  | updated type details time horder => exact hbegun.withStatus horder type details time
  | cardCreated card details time horder =>
      exact (hbegun.withCard _ card).withStatus horder _ details time
  | shipped shipping details time horder =>
      exact (hbegun.updateOrder _ shipping).withStatus horder _ details time
  | deleted horder => exact hbegun.deleted horder

/-- A command that reads or inserts a status. -/
def Command.readsOrInsertsStatus : Command → Prop
  | .sql (.insertNewStatus ..) => True
  | .sql statement => statement.isQuery = true
  | _ => True

/-- Statuses of orders that are there may be inserted at any time. -/
theorem begun_of_issues {α : Type} {program : Task α}
    (hissues : program.Issues Command.readsOrInsertsStatus)
    {outcome : Except CardException α}
    (hexec : Exec (tablesStep schema) program before outcome after)
    (hbegun : before.Begun) : after.Begun := by
  induction program generalizing before with
  | done value => exact hexec.2 ▸ hbegun
  | raise error => exact hexec.2 ▸ hbegun
  | call command next ih =>
      obtain ⟨answer, middle, ⟨world, world', rfl, rfl, hstep⟩, hrest⟩ := hexec
      refine ih answer (hissues.2 answer) hrest ?_
      cases command with
      | sql statement =>
          obtain ⟨database, hchanges, rfl⟩ := step_sql hstep
          generalize answer.isOk = returned at hchanges
          cases hchanges with
          | nothing => exact hbegun
          | status horder => exact hbegun.withStatus horder _ _ _
          | _ => exact absurd hissues.1 (by simp [Command.readsOrInsertsStatus, Statement.isQuery])
      | list command => rw [(step_list hstep).2]; exact hbegun
      | ambient command => rw [step_ambient hstep]; exact hbegun
      | http command =>
          obtain ⟨choice, calls, -, rfl⟩ := step_http hstep
          exact hbegun

end Begun

/-! ## Whole requests -/

/-- A request that is not cut short, or a run of the work scheduler, whatever throws in it. -/
inductive Serves (schema : Schema) (before : Database) : Database → Prop
  | request {request : OrderRequest} {outcome : Except CardException StandardResponse}
      {after : Database} {thrown : Option Statement} :
      Exec (watchedStep schema) request.task (before, none) outcome (after, thrown) →
      (∀ statement ∈ thrown, ¬request.CutShort before statement) → Serves schema before after
  | workScheduler {outcome : Except CardException Unit} {after : Database} :
      Exec (tablesStep schema) WorkScheduler.run before outcome after → Serves schema before after

theorem Serves.begun {schema : Schema} {before after : Database}
    (hserves : Serves schema before after) (hbegun : before.Begun) : after.Begun := by
  cases hserves with
  | request hexec hwhole => exact (ends_of_exec hexec).begun hwhole hbegun
  | workScheduler hexec =>
      have hissues : WorkScheduler.run.Issues Command.readsOrInsertsStatus :=
        issues_workScheduler (fun _ => trivial) rfl (fun _ => rfl) (fun _ => trivial)
          (fun _ => trivial) fun _ _ _ => trivial
      exact begun_of_issues hissues hexec hbegun

/-- A request that is answered with an error leaves the tables as they were exactly when no
statement of it has thrown after another one has changed a row.  While requests are not cut
short, every order has a history that starts with its creation. -/
theorem requests_whole (schema : Schema) :
    (∀ (request : OrderRequest) (outcome : Except CardException StandardResponse)
        (before after : Database) (thrown : Option Statement),
      Exec (watchedStep schema) request.task (before, none) outcome (after, thrown) →
        isErrorAnswer outcome = true →
          (before.SameRows after ↔ ∀ statement ∈ thrown, ¬request.CutShort before statement)) ∧
      ∀ (accounts : List ℤ) (database : Database),
        Relation.ReflTransGen (Serves schema) (Database.empty accounts) database →
          database.Begun := by
  refine ⟨fun request outcome before after thrown hexec herror => ?_,
    fun accounts database hruns => ?_⟩
  · have hends := ends_of_exec hexec
    rw [herror] at hends
    exact hends.sameRows_iff
  · induction hruns with
    | refl => exact begun_empty accounts
    | tail _ hserves ih => exact hserves.begun ih

/-! ## Requests that are cut short -/

namespace Sample

def firstOrder : CreditCardOrderRequest :=
  ⟨1, "email@mail.ail", "Jane Doe", "Box 13", "silver"⟩

/-- The order is inserted under the id 101; what becomes of its status is open. -/
def orderInserted : List Choice := [.goes 0, .goes 101, .goes 20000000]

def tablesMove (schema : Schema) (command : Command) (choice : Choice) (database : Database) :
    Option (Except CardException command.Answer × Database) :=
  (command.move schema choice ⟨database, ThirdParty.empty, []⟩).map fun result =>
    (result.1, result.2.database)

theorem tablesStep_of_move {schema : Schema} (command : Command) (choice : Choice)
    (database : Database) (answer : Except CardException command.Answer) (database' : Database)
    (hmove : tablesMove schema command choice database = some (answer, database')) :
    tablesStep schema command database answer database' := by
  obtain ⟨⟨answer', world⟩, hcommand, hresult⟩ := Option.map_eq_some_iff.mp hmove
  cases hresult
  exact ⟨_, world, rfl, rfl, choice, hcommand⟩

end Sample

open Sample in
/-- One order is made, in one go; another time its status cannot be inserted. -/
theorem requests_whole_twice :
    (∃ database : Database, database.orders.keys = [101] ∧ database.Begun) ∧
      ∃ (after : Database) (thrown : Option Statement), thrown.isSome ∧
        ((Database.empty [1]).SameRows after ↔ ∀ statement ∈ thrown,
          ¬(OrderRequest.createCreditCardOrder firstOrder).CutShort (Database.empty [1])
            statement) := by
  have hmove : ∀ command choice state answer state',
      attempt (tablesMove Schema.sqlScripts) noteThrown (fun _ _ _ => True) command choice state =
        some (answer, state') → watchedStep Schema.sqlScripts command state answer state' :=
    fun command choice state answer state' h =>
      (noted_of_attempt tablesStep_of_move command choice state answer state' h).2
  obtain ⟨outcome, ⟨database, thrown⟩, hcheck, hexec⟩ := exists_exec hmove
    (OrderRequest.createCreditCardOrder firstOrder).task (orderInserted ++ [.goes 0])
    (Database.empty [1], none)
    (fun _ final => decide (final.1.orders.keys = [101]) && final.2.isNone) (by decide +kernel)
  obtain ⟨outcome', ⟨after, thrown'⟩, hcheck', hexec'⟩ := exists_exec hmove
    (OrderRequest.createCreditCardOrder firstOrder).task (orderInserted ++ [.fails])
    (Database.empty [1], none)
    (fun outcome final => isErrorAnswer outcome && final.2.isSome) (by decide +kernel)
  rw [Bool.and_eq_true] at hcheck hcheck'
  have hnone : thrown = none := Option.isNone_iff_eq_none.mp hcheck.2
  refine ⟨⟨database, of_decide_eq_true hcheck.1, (requests_whole Schema.sqlScripts).2 [1] database
    (.single (.request hexec fun _ hstatement => ?_))⟩, after, thrown', hcheck'.2,
    (requests_whole Schema.sqlScripts).1 _ _ _ _ _ hexec' hcheck'.1⟩
  rw [hnone] at hstatement
  cases hstatement

open Sample in
/-- The status of a new order cannot be inserted: an error is answered, and there is an
order without a history. -/
theorem order_without_status :
    ∃ (outcome : Except CardException StandardResponse) (world : World),
      Exec (step Schema.sqlScripts) (OrderController.createCreditCardOrder firstOrder)
        (World.empty [1]) outcome world ∧
      isErrorAnswer outcome = true ∧ ¬(Database.empty [1]).SameRows world.database ∧
      101 ∈ world.database.orders.keys ∧ world.database.history 101 = [] := by
  obtain ⟨outcome, world, hcheck, hexec⟩ := exists_exec (@step_of_move Schema.sqlScripts)
    (OrderController.createCreditCardOrder firstOrder) (orderInserted ++ [.fails])
    (World.empty [1])
    (fun outcome world => isErrorAnswer outcome && decide
      (world.database.orders.keys = [101] ∧ world.database.statuses.rows = []))
    (by decide +kernel)
  rw [Bool.and_eq_true, decide_eq_true_eq] at hcheck
  obtain ⟨herror, hkeys, hstatuses⟩ := hcheck
  refine ⟨outcome, world, hexec, herror, fun hsame => ?_, ?_, ?_⟩
  · have hnone : world.database.orders.keys = [] := congrArg (List.map _) hsame.orders
    rw [hkeys] at hnone
    cases hnone
  · rw [hkeys]
    exact List.mem_singleton.mpr rfl
  · rw [Database.history, Database.statusesOf, hstatuses]
    rfl

end EasyTrade.CardOrders

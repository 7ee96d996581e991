import EasyTrade.CardOrders.Entities

/-!
# The card order tables and their SQL statements

Every statement of `DatabaseHelper` runs on a connection that commits it at
once, so a statement is one step.  What a statement may choose freely (a fresh
UUID, one of several rows that compare equal, an order of rows nobody asked for)
is settled by a `Choice`.
-/

namespace EasyTrade.CardOrders

structure Database where
  /-- The keys of `Accounts`. -/
  accounts : List ℤ
  orders : Table CreditCardOrder.id
  statuses : AutoTable CreditCardOrderStatus.id
  cards : AutoTable CreditCard.id

/-- Where the two sets of table definitions differ: `sql-creditcards.sql` has the
key of `CreditCards` generated, `dump.sql` declares it `NOT NULL` without a
default, and `INSERT_CREDIT_CARD_QUERY` does not give it. -/
structure Schema where
  cardIdGenerated : Bool

namespace Schema

def dump : Schema := ⟨false⟩

def sqlScripts : Schema := ⟨true⟩

end Schema

/-- How a command turns out. -/
inductive Choice
  /-- It throws, and nothing has happened. -/
  | fails
  | goes (n : ℤ)
  | inOrder (ids : List Guid)
  deriving DecidableEq, Repr

def Choice.number : Choice → ℕ
  | goes n => n.toNat
  | _ => 0

/-- The row that `INSERT_ORDER_QUERY` adds. -/
def CreditCardOrderRequest.order (request : CreditCardOrderRequest) (guid : Guid) :
    CreditCardOrder where
  id := guid
  accountId := request.accountId
  email := request.email
  name := request.name
  shippingId := none
  shippingAddress := request.shippingAddress
  cardLevel := request.cardLevel

/-- The row that `INSERT_STATUS_QUERY` adds under the key `id`. -/
def StatusType.row (type : StatusType) (orderId : Guid) (details : String)
    (time : LocalDateTime) (id : ℤ) : CreditCardOrderStatus where
  id := id
  creditCardOrderId := orderId
  timestamp := time.stored
  status := type
  details := details

theorem StatusType.row_id (type : StatusType) (orderId : Guid) (details : String)
    (time : LocalDateTime) (id : ℤ) : (type.row orderId details time id).id = id := rfl

/-- The row that `INSERT_CREDIT_CARD_QUERY` adds under the key `id`. -/
def CreditCardRequest.card (request : CreditCardRequest) (orderId : Guid) (id : ℤ) :
    CreditCard where
  id := id
  creditCardOrderId := orderId
  level := request.cardLevel
  number := request.cardNumber
  cvs := request.cardCVS
  validDate := request.cardValidDate.stored

theorem CreditCardRequest.card_id (request : CreditCardRequest) (orderId : Guid) (id : ℤ) :
    (request.card orderId id).id = id := rfl

namespace Database

def empty (accounts : List ℤ) : Database where
  accounts := accounts
  orders := Table.empty
  statuses := AutoTable.empty
  cards := AutoTable.empty

/-- The orders of an account. -/
def ordersOf (database : Database) (accountId : ℤ) : List CreditCardOrder :=
  database.orders.rows.filter (·.accountId = accountId)

/-- The status rows of an order in insertion order. -/
def statusesOf (database : Database) (orderId : Guid) : List CreditCardOrderStatus :=
  database.statuses.rows.filter (·.creditCardOrderId = orderId)

def cardsOf (database : Database) (orderId : Guid) : List CreditCard :=
  database.cards.rows.filter (·.creditCardOrderId = orderId)

/-- The row with the greatest `Id` for an order. -/
def currentStatus (database : Database) (orderId : Guid) : Option CreditCardOrderStatus :=
  database.statuses.last? (·.creditCardOrderId = orderId)

/-- The rows that may come first in `ORDER BY Timestamp DESC`. -/
def latestStatuses (database : Database) (orderId : Guid) : List CreditCardOrderStatus :=
  (database.statusesOf orderId).filter fun row =>
    (database.statusesOf orderId).all fun other => other.timestamp ≤ row.timestamp

/-- `ORDER BY Timestamp DESC LIMIT 1`. -/
def getLastOrderStatus (database : Database) (choice : Choice) (orderId : Guid) :
    Option CreditCardOrderStatus :=
  (database.latestStatuses orderId)[choice.number % (database.latestStatuses orderId).length]?

/-- The orders whose row with the greatest `Id` says `order_created`. -/
def createdOrders (database : Database) : List Guid :=
  (database.statuses.rows.filter fun row =>
    row.status = .orderCreated ∧
      (database.currentStatus row.creditCardOrderId).map (·.id) = some row.id).map
        CreditCardOrderStatus.creditCardOrderId

/-- The value of `(SELECT Id FROM CreditCardOrders WHERE AccountId = ?)`, which is
`NULL` without a row and an error with more than one. -/
def orderIdSubquery (database : Database) (accountId : ℤ) :
    Except CardException (Option Guid) :=
  match database.ordersOf accountId with
  | [] => .ok none
  | [order] => .ok (some order.id)
  | _ => .error .sql

def addOrder (database : Database) (order : CreditCardOrder) : Database :=
  { database with orders := database.orders.insert order }

def addStatus (database : Database) (row : ℤ → CreditCardOrderStatus)
    (hkey : ∀ id, (row id).id = id) : Database :=
  { database with statuses := database.statuses.insert row hkey }

def addCard (database : Database) (row : ℤ → CreditCard) (hkey : ∀ id, (row id).id = id) :
    Database :=
  { database with cards := database.cards.insert row hkey }

def insertNewOrder (database : Database) (guid : Guid) (request : CreditCardOrderRequest) :
    Except CardException Database :=
  if guid ∉ database.orders.keys ∧ request.accountId ∈ database.accounts then
    .ok (database.addOrder (request.order guid))
  else .error .sql

def insertNewStatus (database : Database) (orderId : Guid) (type : StatusType)
    (details : String) (time : LocalDateTime) : Except CardException Database :=
  if orderId ∈ database.orders.keys then
    .ok (database.addStatus (type.row orderId details time) (type.row_id orderId details time))
  else .error .sql

def insertNewCreditCard (database : Database) (schema : Schema) (orderId : Guid)
    (request : CreditCardRequest) : Except CardException Database :=
  if schema.cardIdGenerated ∧ orderId ∈ database.orders.keys then
    .ok (database.addCard (request.card orderId) (request.card_id orderId))
  else .error .sql

def updateOrder (database : Database) (orderId : Guid) (request : ShippingIdRequest) :
    Database :=
  match database.orders.find? orderId with
  | some order =>
      { database with
        orders := database.orders.set { order with shippingId := some request.shippingId } }
  | none => database

/-- `DELETE FROM CreditCardOrderStatus WHERE CreditCardOrderId = (SELECT ...)`. -/
def deleteOrderStatus (database : Database) (accountId : ℤ) : Except CardException Database :=
  (database.orderIdSubquery accountId).map fun orderId =>
    { database with statuses := database.statuses.delete (some ·.creditCardOrderId = orderId) }

/-- `DELETE FROM CreditCards WHERE CreditCardOrderId = (SELECT ...)`. -/
def deleteCreditCard (database : Database) (accountId : ℤ) : Except CardException Database :=
  (database.orderIdSubquery accountId).map fun orderId =>
    { database with cards := database.cards.delete (some ·.creditCardOrderId = orderId) }

/-- A status row or a card refers to the order. -/
def referenced (database : Database) (orderId : Guid) : Bool :=
  database.statuses.rows.any (·.creditCardOrderId = orderId) ||
    database.cards.rows.any (·.creditCardOrderId = orderId)

/-- `DELETE FROM CreditCardOrders WHERE AccountId = ?`. -/
def deleteOrder (database : Database) (accountId : ℤ) : Except CardException Database :=
  if (database.ordersOf accountId).any fun order => database.referenced order.id then
    .error .sql
  else .ok { database with orders := database.orders.delete (·.accountId = accountId) }

end Database

/-- The SQL statements of the card order service. -/
inductive Statement
  | getOrderCountForAccountId (accountId : ℤ)
  | insertNewOrder (request : CreditCardOrderRequest)
  | insertNewStatus (orderId : Guid) (type : StatusType) (details : String)
      (time : LocalDateTime)
  | insertNewCreditCard (orderId : Guid) (request : CreditCardRequest)
  | updateOrder (orderId : Guid) (request : ShippingIdRequest)
  | getShippingAddress (orderId : Guid)
  | getCreditCardManufactureData (orderId : Guid)
  | getLastOrderStatus (orderId : Guid)
  | getLastOrderStatusForAccountId (accountId : ℤ)
  | getOrderIdsWithStatusOrderCreated
  | deleteOrderStatus (accountId : ℤ)
  | deleteCreditCard (accountId : ℤ)
  | deleteOrder (accountId : ℤ)

abbrev Statement.Answer : Statement → Type
  | getOrderCountForAccountId _ => ℕ
  | insertNewOrder _ => Guid
  | getShippingAddress _ => Option ShippingAddressResponse
  | getCreditCardManufactureData _ => Option ManufactureRequest
  | getLastOrderStatus _ | getLastOrderStatusForAccountId _ => Option CreditCardOrderStatus
  | getOrderIdsWithStatusOrderCreated => List Guid
  | insertNewStatus .. | insertNewCreditCard .. | updateOrder .. | deleteOrderStatus _
  | deleteCreditCard _ | deleteOrder _ => Unit

/-- A statement that throws has done nothing. -/
def settle {α : Type} (database : Database) :
    Except CardException (α × Database) → Except CardException α × Database
  | .ok (answer, database') => (.ok answer, database')
  | .error error => (.error error, database)

/-- A statement that is executed.  `none`: it cannot turn out this way. -/
def Statement.run (schema : Schema) : (statement : Statement) → Choice → Database →
    Option (Except CardException statement.Answer × Database)
  | getOrderCountForAccountId accountId, _, database =>
      some (.ok (database.ordersOf accountId).length, database)
  | insertNewOrder request, choice, database =>
      some (settle database ((database.insertNewOrder choice.number request).map
        (choice.number, ·)))
  | insertNewStatus orderId type details time, _, database =>
      some (settle database ((database.insertNewStatus orderId type details time).map
        ((), ·)))
  | insertNewCreditCard orderId request, _, database =>
      some (settle database ((database.insertNewCreditCard schema orderId request).map
        ((), ·)))
  | updateOrder orderId request, _, database =>
      some (.ok (), database.updateOrder orderId request)
  | getShippingAddress orderId, _, database =>
      some (.ok ((database.orders.find? orderId).map fun order =>
        ⟨order.shippingAddress, order.name, order.email⟩), database)
  | getCreditCardManufactureData orderId, _, database =>
      some (.ok ((database.orders.find? orderId).map fun order =>
        ⟨order.id, order.name, order.cardLevel⟩), database)
  | getLastOrderStatus orderId, choice, database =>
      some (.ok (database.getLastOrderStatus choice orderId), database)
  | getLastOrderStatusForAccountId accountId, choice, database =>
      some ((database.orderIdSubquery accountId).map fun orderId =>
        orderId.bind (database.getLastOrderStatus choice), database)
  | getOrderIdsWithStatusOrderCreated, .inOrder ids, database =>
      if ids.Perm database.createdOrders then some (.ok ids, database) else none
  | getOrderIdsWithStatusOrderCreated, _, _ => none
  | deleteOrderStatus accountId, _, database =>
      some (settle database ((database.deleteOrderStatus accountId).map ((), ·)))
  | deleteCreditCard accountId, _, database =>
      some (settle database ((database.deleteCreditCard accountId).map ((), ·)))
  | deleteOrder accountId, _, database =>
      some (settle database ((database.deleteOrder accountId).map ((), ·)))

/-- What a statement answers and does; it may always fail. -/
def Statement.move (schema : Schema) (statement : Statement) (choice : Choice)
    (database : Database) : Option (Except CardException statement.Answer × Database) :=
  match choice with
  | .fails => some (.error .sql, database)
  | choice => statement.run schema choice database

/-! ## What a statement changes -/

section Rows

variable (database : Database) (orderId other : Guid)

theorem statusesOf_addStatus (type : StatusType) (details : String) (time : LocalDateTime) :
    (database.addStatus (type.row orderId details time)
        (type.row_id orderId details time)).statusesOf other =
      database.statusesOf other ++
        if orderId = other then [type.row orderId details time database.statuses.next]
        else [] := by
  rw [Database.statusesOf, Database.addStatus, AutoTable.rows_insert, List.filter_append]
  congr 1
  by_cases hother : orderId = other <;> simp [StatusType.row, hother]

theorem cardsOf_addCard (request : CreditCardRequest) :
    (database.addCard (request.card orderId) (request.card_id orderId)).cardsOf other =
      database.cardsOf other ++
        if orderId = other then [request.card orderId database.cards.next] else [] := by
  rw [Database.cardsOf, Database.addCard, AutoTable.rows_insert, List.filter_append]
  congr 1
  by_cases hother : orderId = other <;> simp [CreditCardRequest.card, hother]

theorem statuses_updateOrder (request : ShippingIdRequest) :
    (database.updateOrder orderId request).statuses = database.statuses := by
  rw [Database.updateOrder]
  cases database.orders.find? orderId <;> rfl

theorem cards_updateOrder (request : ShippingIdRequest) :
    (database.updateOrder orderId request).cards = database.cards := by
  rw [Database.updateOrder]
  cases database.orders.find? orderId <;> rfl

end Rows

/-- A statement that only reads. -/
def Statement.isQuery : Statement → Bool
  | getOrderCountForAccountId _ | getShippingAddress _ | getCreditCardManufactureData _
  | getLastOrderStatus _ | getLastOrderStatusForAccountId _
  | getOrderIdsWithStatusOrderCreated => true
  | _ => false

/-- The database after a statement that has returned or thrown. -/
inductive Changes (schema : Schema) (database : Database) :
    Statement → (returned : Bool) → Database → Prop
  | nothing {statement : Statement} {returned : Bool}
      (hnothing : returned = false ∨ statement.isQuery = true) :
      Changes schema database statement returned database
  | order {request : CreditCardOrderRequest} {guid : Guid}
      (hnew : guid ∉ database.orders.keys) (haccount : request.accountId ∈ database.accounts) :
      Changes schema database (.insertNewOrder request) true
        (database.addOrder (request.order guid))
  | status {orderId : Guid} {type : StatusType} {details : String} {time : LocalDateTime}
      (horder : orderId ∈ database.orders.keys) :
      Changes schema database (.insertNewStatus orderId type details time) true
        (database.addStatus (type.row orderId details time)
          (type.row_id orderId details time))
  | card {orderId : Guid} {request : CreditCardRequest}
      (hgenerated : schema.cardIdGenerated = true) (horder : orderId ∈ database.orders.keys) :
      Changes schema database (.insertNewCreditCard orderId request) true
        (database.addCard (request.card orderId) (request.card_id orderId))
  | shippingId {orderId : Guid} {request : ShippingIdRequest} :
      Changes schema database (.updateOrder orderId request) true
        (database.updateOrder orderId request)
  | statusesDeleted {accountId : ℤ} {orderId : Option Guid}
      (horder : database.orderIdSubquery accountId = .ok orderId) :
      Changes schema database (.deleteOrderStatus accountId) true
        { database with
          statuses := database.statuses.delete (some ·.creditCardOrderId = orderId) }
  | cardsDeleted {accountId : ℤ} {orderId : Option Guid}
      (horder : database.orderIdSubquery accountId = .ok orderId) :
      Changes schema database (.deleteCreditCard accountId) true
        { database with cards := database.cards.delete (some ·.creditCardOrderId = orderId) }
  | ordersDeleted {accountId : ℤ}
      (hfree : ∀ order ∈ database.ordersOf accountId, database.referenced order.id = false) :
      Changes schema database (.deleteOrder accountId) true
        { database with orders := database.orders.delete (·.accountId = accountId) }

theorem Changes.of_settle {schema : Schema} {database database' : Database} {α : Type}
    {statement : Statement} {answer : Except CardException α}
    {result : Except CardException Database} {value : α}
    (hsettle : settle database (result.map (value, ·)) = (answer, database'))
    (hchanges : ∀ final, result = .ok final → Changes schema database statement true final) :
    Changes schema database statement answer.isOk database' := by
  cases result with
  | ok final => cases hsettle; exact hchanges _ rfl
  | error error => cases hsettle; exact .nothing (Or.inl rfl)

theorem Changes.of_move {schema : Schema} {statement : Statement} {choice : Choice}
    {database database' : Database} {answer : Except CardException statement.Answer}
    (hmove : statement.move schema choice database = some (answer, database')) :
    Changes schema database statement answer.isOk database' := by
  by_cases hfails : choice = .fails
  · subst hfails
    cases hmove
    exact .nothing (Or.inl rfl)
  have hrun : statement.run schema choice database = some (answer, database') := by
    cases choice <;> first | exact absurd rfl hfails | exact hmove
  clear hmove
  cases statement with
  | insertNewOrder request =>
      refine Changes.of_settle (Option.some.inj hrun) fun final hfinal => ?_
      rw [Database.insertNewOrder] at hfinal
      split_ifs at hfinal with hfits
      cases hfinal
      exact .order hfits.1 hfits.2
  | insertNewStatus orderId type details time =>
      refine Changes.of_settle (Option.some.inj hrun) fun final hfinal => ?_
      rw [Database.insertNewStatus] at hfinal
      split_ifs at hfinal with hfits
      cases hfinal
      exact .status hfits
  | insertNewCreditCard orderId request =>
      refine Changes.of_settle (Option.some.inj hrun) fun final hfinal => ?_
      rw [Database.insertNewCreditCard] at hfinal
      split_ifs at hfinal with hfits
      cases hfinal
      exact .card hfits.1 hfits.2
  | updateOrder orderId request =>
      cases hrun
      exact .shippingId
  | deleteOrderStatus accountId =>
      refine Changes.of_settle (Option.some.inj hrun) fun final hfinal => ?_
      rw [Database.deleteOrderStatus] at hfinal
      cases horder : database.orderIdSubquery accountId with
      | error error => rw [horder] at hfinal; cases hfinal
      | ok orderId => rw [horder] at hfinal; cases hfinal; exact .statusesDeleted horder
  | deleteCreditCard accountId =>
      refine Changes.of_settle (Option.some.inj hrun) fun final hfinal => ?_
      rw [Database.deleteCreditCard] at hfinal
      cases horder : database.orderIdSubquery accountId with
      | error error => rw [horder] at hfinal; cases hfinal
      | ok orderId => rw [horder] at hfinal; cases hfinal; exact .cardsDeleted horder
  | deleteOrder accountId =>
      refine Changes.of_settle (Option.some.inj hrun) fun final hfinal => ?_
      rw [Database.deleteOrder] at hfinal
      split_ifs at hfinal with hreferenced
      cases hfinal
      refine .ordersDeleted fun order horder => ?_
      by_contra hbusy
      exact hreferenced (List.any_eq_true.mpr ⟨order, horder, by simpa using hbusy⟩)
  | getOrderIdsWithStatusOrderCreated =>
      cases choice with
      | inOrder ids =>
          simp only [Statement.run] at hrun
          split_ifs at hrun
          cases hrun
          exact .nothing (Or.inr rfl)
      | _ => cases hrun
  | _ =>
      cases hrun
      exact .nothing (Or.inr rfl)

theorem Changes.eq_of_failed {schema : Schema} {statement : Statement}
    {database database' : Database} (hchanges : Changes schema database statement false database') :
    database' = database := by
  cases hchanges
  rfl

theorem error_of_settle {α : Type} {database database' : Database} {error : CardException}
    {result : Except CardException (α × Database)}
    (hsettle : settle database result = (.error error, database')) : result = .error error := by
  cases result with
  | ok value => cases hsettle
  | error other => cases hsettle; rfl

theorem error_of_map {α β : Type} {error : CardException} {result : Except CardException α}
    {change : α → β} (hmap : result.map change = .error error) : result = .error error := by
  cases result with
  | ok value => cases hmap
  | error other => cases hmap; rfl

theorem Database.error_of_orderIdSubquery {database : Database} {accountId : ℤ}
    {error : CardException} (herror : database.orderIdSubquery accountId = .error error) :
    error = .sql := by
  rw [orderIdSubquery] at herror
  split at herror
  all_goals cases herror
  rfl

/-- Every exception of a statement is an `SQLException`. -/
theorem Statement.error_of_move {schema : Schema} {statement : Statement} {choice : Choice}
    {database database' : Database} {error : CardException}
    (hmove : statement.move schema choice database = some (.error error, database')) :
    error = .sql := by
  by_cases hfails : choice = .fails
  · subst hfails
    cases hmove
    rfl
  have hrun : statement.run schema choice database = some (.error error, database') := by
    cases choice <;> first | exact absurd rfl hfails | exact hmove
  clear hmove
  cases statement with
  | insertNewOrder request | insertNewStatus orderId type details time
  | insertNewCreditCard orderId request | deleteOrder accountId =>
      have herror := error_of_map (error_of_settle (Option.some.inj hrun))
      simp only [Database.insertNewOrder, Database.insertNewStatus,
        Database.insertNewCreditCard, Database.deleteOrder] at herror
      split_ifs at herror
      cases herror
      rfl
  | deleteOrderStatus accountId | deleteCreditCard accountId =>
      have herror := error_of_map (error_of_settle (Option.some.inj hrun))
      exact Database.error_of_orderIdSubquery (error_of_map herror)
  | getLastOrderStatusForAccountId accountId =>
      have herror := congrArg Prod.fst (Option.some.inj hrun)
      exact Database.error_of_orderIdSubquery (error_of_map herror)
  | getOrderIdsWithStatusOrderCreated =>
      cases choice with
      | inOrder ids =>
          simp only [Statement.run] at hrun
          split_ifs at hrun
          cases hrun
      | _ => cases hrun
  | _ => cases hrun

end EasyTrade.CardOrders

import EasyTrade.CardOrders.Writers

/-!
# One order for each account

An order is only created when the account has none, but the table has no unique
key on the account and counting and inserting are two statements.  Two requests
that both count zero create two orders, and from then on the account's order can
neither be deleted nor be looked up.  As long as the account still has as many
orders as the request has counted, there is one for each account.
-/

namespace EasyTrade.CardOrders

open EasyTrade.Program EasyTrade.Interleaving

/-- The accounts that have ordered, once for each order. -/
def Database.orderingAccounts (database : Database) : List ℤ :=
  database.orders.rows.map CreditCardOrder.accountId

/-- The order that a command inserts. -/
def Command.newOrder : Command → Option CreditCardOrderRequest
  | .sql (.insertNewOrder request) => some request
  | _ => none

/-- How many orders of each account a request has counted. -/
abbrev Counted := ℤ → Option ℕ

def noteCount : Note CardException Command.Answer Counted
  | counted, .sql (.getOrderCountForAccountId accountId), .ok count =>
      Function.update counted accountId (some count)
  | counted, _, _ => counted

/-- When an order is inserted, its account has as many as its request has counted. -/
def insertsAsCounted : Condition CardException Command.Answer (World × Counted) :=
  fun command start answer => ∀ request ∈ command.newOrder, answer.isOk = true →
    start.2 request.accountId = some (start.1.database.ordersOf request.accountId).length

instance (command : Command) (start : World × Counted)
    (answer : Except CardException command.Answer) :
    Decidable (insertsAsCounted command start answer) :=
  inferInstanceAs (Decidable (∀ request ∈ command.newOrder, answer.isOk = true →
    start.2 request.accountId = some (start.1.database.ordersOf request.accountId).length))

/-- An order is only inserted when none has been counted. -/
def countGuard (command : Command) (counted : Counted) : Prop :=
  ∀ request ∈ command.newOrder, counted request.accountId = some 0

section Statements

variable {database : Database}

theorem orderingAccounts_updateOrder (orderId : Guid) (request : ShippingIdRequest) :
    (database.updateOrder orderId request).orderingAccounts = database.orderingAccounts := by
  rw [Database.updateOrder]
  cases hfind : database.orders.find? orderId with
  | none => rfl
  | some order =>
      refine Table.map_rows_set fun old hold => ?_
      have hid : order.id = orderId := Table.key_of_find? hfind
      have hold' : database.orders.find? order.id = some old := hold
      rw [hid, hfind] at hold'
      cases hold'
      rfl

/-- A statement keeps one order for each account when it only inserts first
orders. -/
theorem nodup_orderingAccounts {schema : Schema} {statement : Statement} {returned : Bool}
    {database' : Database} (hunique : database.orderingAccounts.Nodup)
    (hfirst : ∀ request, statement = .insertNewOrder request → returned = true →
      database.ordersOf request.accountId = [])
    (hchanges : Changes schema database statement returned database') :
    database'.orderingAccounts.Nodup := by
  cases hchanges with
  | order hnew haccount =>
      rename_i request guid
      have hnone := hfirst request rfl rfl
      rw [Database.orderingAccounts, Database.addOrder, Table.rows_insert hnew, List.map_append,
        List.map_singleton]
      refine hunique.append (List.nodup_singleton _) ?_
      rw [List.disjoint_singleton]
      intro hmem
      obtain ⟨order, horder, haccountId⟩ := List.mem_map.mp hmem
      have hother : order ∈ database.ordersOf request.accountId :=
        List.mem_filter.mpr ⟨horder, decide_eq_true haccountId⟩
      rw [hnone] at hother
      cases hother
  | shippingId =>
      rw [orderingAccounts_updateOrder]
      exact hunique
  | ordersDeleted hfree => exact hunique.sublist (List.filter_sublist.map _)
  | _ => exact hunique

end Statements

section Requests

/-- Whatever it reads, a program only inserts an order when it has counted none. -/
abbrev CountsFirst {α : Type} (task : Task α) (counted : Counted) : Prop :=
  wp (remembers (fun _ _ _ => True) noteCount) countGuard task (fun _ _ => True) counted

variable {counted : Counted}

theorem countGuard_of_none {command : Command} (hnone : command.newOrder = none) :
    countGuard command counted := by
  intro request hrequest
  rw [hnone] at hrequest
  cases hrequest

theorem countsFirst_of_issues {α : Type} {task : Task α}
    (hissues : task.Issues (·.newOrder = none)) : CountsFirst task counted :=
  Prog.wp_of_issues hissues fun _ _ => countGuard_of_none

theorem aboutStatuses_noteCount : AboutStatuses noteCount countGuard where
  ambient _ _ := countGuard_of_none rfl
  ambient_note _ _ _ := rfl
  read _ _ := countGuard_of_none rfl
  updateOrder _ _ _ := countGuard_of_none rfl
  updateOrder_note _ _ _ _ := rfl
  insert_note _ _ _ _ _ _ := rfl

theorem countsFirst_createCreditCardOrder (request : CreditCardOrderRequest) :
    CountsFirst (OrderController.createCreditCardOrder request) counted := by
  rw [OrderController.createCreditCardOrder, CountsFirst, wp_tryCatch, wp_bind, wp_sql]
  refine ⟨countGuard_of_none rfl, fun orderCount _ => ?_, fun error _ =>
    wp_handleSQLException error⟩
  rw [andThen_ok]
  split_ifs with hzero
  · rw [wp_bind, wp_sql]
    refine ⟨fun inserted hinserted => ?_, fun guid _ => ?_, fun error _ =>
      wp_handleSQLException error⟩
    · cases hinserted
      rw [noteCount, Function.update_self, hzero]
    · rw [andThen_ok, wp_bind]
      refine wp_insertNewStatus aboutStatuses_noteCount (fun _ => countGuard_of_none rfl)
        fun outcome => ?_
      cases outcome with
      | ok value => trivial
      | error error => exact wp_handleSQLException error
  · trivial

theorem countsFirst_updateStatus (id : Guid) (request : StatusRequest) :
    CountsFirst (OrderController.updateStatus id request) counted := by
  refine wp_updateStatus aboutStatuses_noteCount fun status type _ _ _ => ?_
  cases type with
  | cardCreated => exact fun card => ⟨countGuard_of_none rfl, fun _ _ => countGuard_of_none rfl⟩
  | _ => exact fun _ _ => countGuard_of_none rfl

theorem countsFirst_client (request : ClientRequest) : CountsFirst request.serve counted := by
  cases request with
  | nothing => trivial
  | createCreditCardOrder request =>
      rw [ClientRequest.serve, CountsFirst, wp_bind]
      refine wp_mono (fun outcome final _ => ?_) (countsFirst_createCreditCardOrder request)
      cases outcome <;> trivial
  | updateStatus id request =>
      rw [ClientRequest.serve, CountsFirst, wp_bind]
      refine wp_mono (fun outcome final _ => ?_) (countsFirst_updateStatus id request)
      cases outcome <;> trivial
  | deleteOrder accountId =>
      exact countsFirst_of_issues
        (Prog.issues_bind (issues_deleteOrder rfl rfl rfl) fun _ => trivial)
  | getLatestStatus accountId =>
      exact countsFirst_of_issues (Prog.issues_bind (issues_getLatestStatus rfl) fun _ => trivial)

theorem countsFirst_program (workload : Workload) (party : Party) :
    CountsFirst (workload.program party) counted := by
  cases party with
  | client n => exact countsFirst_client (workload.clients n)
  | orderServer n =>
      exact wp_orderServer (countGuard_of_none rfl) (fun _ _ _ => countGuard_of_none rfl)
        (fun _ id body => countsFirst_updateStatus id body)
        fun _ _ => countsFirst_of_issues (issues_getShippingAddress rfl)
  | manufacturer n =>
      exact countsFirst_of_issues
        (issues_manufacturerController (fun _ => rfl) (fun _ => rfl) fun _ _ => rfl)
  | workScheduler =>
      have hrun : WorkScheduler.run.Issues (·.newOrder = none) :=
        issues_workScheduler (fun _ => rfl) rfl (fun _ => rfl) (fun _ => rfl) (fun _ => rfl)
          fun _ _ _ => rfl
      exact countsFirst_of_issues (issues_repeated hrun _)
  | manufactureScheduler =>
      exact countsFirst_of_issues (issues_repeated (issues_manufactureScheduler
        (fun _ => rfl) (fun _ => rfl) (fun _ _ => rfl) fun _ _ _ _ _ => rfl) _)
  | courierScheduler =>
      exact countsFirst_of_issues (issues_repeated (issues_courierScheduler
        (fun _ => rfl) (fun _ => rfl) (fun _ _ => rfl) fun _ _ => rfl) _)

end Requests

/-- At most one order for each account.  In every interleaving in which an order is
only inserted while its account has as many as the request has counted, no account
has two at any time. -/
theorem one_order_per_account {schema : Schema} {workload : Workload} {world : World}
    {system : System Counted} (hunique : world.database.orderingAccounts.Nodup)
    (hreaches : InterleavesWhen schema noteCount insertsAsCounted
      (workload.start (fun _ => none) world) system) :
    system.shared.database.orderingAccounts.Nodup := by
  refine database_of_reaches (fun database => database.orderingAccounts.Nodup) hunique
    (fun party => countsFirst_program workload party) ?_ hreaches
  intro statement world counted answer database hunique hguard hcounted hchanges
  refine nodup_orderingAccounts hunique (fun request hrequest hreturned => ?_) hchanges
  have hnew : request ∈ (Command.sql statement).newOrder := by
    rw [hrequest]
    rfl
  have hcount : counted request.accountId =
      some (world.database.ordersOf request.accountId).length :=
    hcounted request hnew hreturned
  rw [hguard request hnew, Option.some.injEq] at hcount
  exact List.length_eq_zero_iff.mp hcount.symm

/-! ## What a second order does -/

/-- The order of an account that has two can never be deleted: the request is
answered with an error and everything stays as it is. -/
theorem deleteOrder_fails {schema : Schema} {accountId : ℤ} {world world' : World}
    {outcome : Except CardException StandardResponse} {first second : CreditCardOrder}
    {others : List CreditCardOrder}
    (horders : world.database.ordersOf accountId = first :: second :: others)
    (hexec : Exec (step schema) (OrderController.deleteOrder accountId) world outcome world') :
    world' = world ∧ ∃ response, outcome = .ok response ∧ response.statusCode = 500 := by
  have hsubquery : world.database.orderIdSubquery accountId = .error .sql := by
    rw [Database.orderIdSubquery, horders]
  have hwp : wp (step schema) (fun _ _ => True) (OrderController.deleteOrder accountId)
      (fun outcome final => final = world ∧
        ∃ response, outcome = .ok response ∧ response.statusCode = 500) world := by
    rw [OrderController.deleteOrder, wp_tryCatch, wp_bind,
      DatabaseHelper.deleteOrderForAccountId, wp_bind, sql, wp_perform]
    refine ⟨trivial, fun answer final hstep => ?_⟩
    cases answer with
    | ok value =>
        obtain ⟨database, hchanges, rfl⟩ := step_sql hstep
        cases hchanges with
        | nothing hnothing => rcases hnothing with hfailed | hquery <;> contradiction
        | statusesDeleted horder => rw [hsubquery] at horder; cases horder
    | error error =>
        obtain ⟨rfl, rfl⟩ := error_of_step_sql hstep
        exact ⟨rfl, _, rfl, rfl⟩
  exact (wp_iff_forall_exec.mp hwp) _ _ hexec

/-- Two clients who order a card for the same account. -/
def Sample.order : CreditCardOrderRequest :=
  ⟨1, "email@mail.ail", "Jane Doe", "Box 13", "silver"⟩

def Sample.twoOrders : Workload where
  clients n := if n < 2 then .createCreditCardOrder Sample.order else .nothing
  workRuns := 0
  manufactureRuns := 0
  courierRuns := 0

/-- Both requests count no order and both insert one; the account's order can
never be deleted again. -/
theorem two_orders_for_one_account :
    (World.empty [1]).database.orderingAccounts.Nodup ∧
    ∃ system : System Unit,
      Interleaves .dump (Sample.twoOrders.start () (World.empty [1])) system ∧
      ¬ system.shared.database.orderingAccounts.Nodup ∧
      ∀ outcome world, Exec (step .dump) (OrderController.deleteOrder 1) system.shared outcome
        world → world = system.shared ∧
          ∃ response, outcome = .ok response ∧ response.statusCode = 500 := by
  obtain ⟨system, hcheck, hinterleaves⟩ := exists_interleaving .dump
    (Sample.twoOrders.start () (World.empty [1]))
    [(.client 0, .goes 0), (.client 1, .goes 0), (.client 0, .goes 101),
      (.client 1, .goes 102), (.client 0, .goes 0), (.client 0, .goes 0),
      (.client 1, .goes 0), (.client 1, .goes 0)]
    (fun system => (system.threads (.client 0)).finished &&
      (system.threads (.client 1)).finished &&
      decide (system.shared.database.orderingAccounts = [1, 1] ∧
        (system.shared.database.ordersOf 1).length = 2))
    (by decide +kernel)
  simp only [Bool.and_eq_true, decide_eq_true_eq] at hcheck
  obtain ⟨-, haccounts, hlength⟩ := hcheck
  match horders : system.shared.database.ordersOf 1, hlength with
  | [first, second], _ =>
    exact ⟨List.nodup_nil, system, hinterleaves, by rw [haccounts]; decide,
      fun outcome world hexec => deleteOrder_fails horders hexec⟩

/-- One request after the other. -/
theorem one_order_per_account_twice :
    ∃ system : System Counted, (∀ n < 2, (system.threads (.client n)).finished = true) ∧
      system.shared.database.orderingAccounts.Nodup := by
  obtain ⟨system, hcheck, hinterleaves⟩ := exists_interleavingWhen .dump noteCount
    insertsAsCounted (Sample.twoOrders.start (fun _ => none) (World.empty [1]))
    [(.client 0, .goes 0), (.client 0, .goes 101), (.client 0, .goes 0), (.client 0, .goes 0),
      (.client 1, .goes 0)]
    (fun system => (system.threads (.client 0)).finished &&
      (system.threads (.client 1)).finished)
    (by decide +kernel)
  rw [Bool.and_eq_true] at hcheck
  have hunique : (World.empty [1]).database.orderingAccounts.Nodup := List.nodup_nil
  refine ⟨system, fun n hn => ?_, one_order_per_account hunique hinterleaves⟩
  interval_cases n
  exacts [hcheck.1, hcheck.2]

end EasyTrade.CardOrders

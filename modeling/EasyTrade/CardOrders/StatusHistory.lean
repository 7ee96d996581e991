import EasyTrade.CardOrders.Writers

/-!
# The status history of an order

`updateStatus` only accepts a status that comes later in the sequence than the
one it has read; the work scheduler sets `CARD_ORDERED` after the manufacturer
has answered, and looks at nothing any more.  Reading and inserting are two
statements everywhere.  A history moves forward as long as every status is
inserted while the order's current status is the one its writer has read.
-/

namespace EasyTrade.CardOrders

open EasyTrade.Program EasyTrade.Interleaving

/-- The statuses of an order in the order in which they were inserted. -/
def Database.history (database : Database) (orderId : Guid) : List StatusType :=
  (database.statusesOf orderId).map CreditCardOrderStatus.status

/-- A history that starts with the creation of the order and in which each status
comes later in the sequence than the one before. -/
structure MovesForward (history : List StatusType) : Prop where
  created : ∀ first ∈ history.head?, first = .orderCreated
  increasing : history.Pairwise fun earlier later => earlier.sequence < later.sequence

/-! ## Histories -/

section Histories

variable {history : List StatusType} {type : StatusType}

theorem movesForward_nil : MovesForward [] := ⟨fun _ h => (by cases h), List.Pairwise.nil⟩

/-- In a history that moves forward every status comes at most as late as the
current one. -/
theorem MovesForward.sequence_le (hforward : MovesForward history) {last other : StatusType}
    (hlast : history.getLast? = some last) (hother : other ∈ history) :
    other.sequence ≤ last.sequence := by
  obtain ⟨before, hhistory⟩ := List.getLast?_eq_some_iff.mp hlast
  have hincreasing := hforward.increasing
  rw [hhistory] at hincreasing hother
  rcases List.mem_append.mp hother with hbefore | hself
  · exact le_of_lt ((List.pairwise_append.mp hincreasing).2.2 other hbefore last
      (List.mem_singleton.mpr rfl))
  · rw [List.mem_singleton.mp hself]

/-- A status that comes after the current one, or the first. -/
def Follows (current : Option StatusType) (type : StatusType) : Prop :=
  match current with
  | none => type = .orderCreated
  | some old => old.sequence < type.sequence

theorem MovesForward.concat (hforward : MovesForward history)
    (hfollows : Follows history.getLast? type) : MovesForward (history ++ [type]) := by
  cases hlast : history.getLast? with
  | none =>
      rw [hlast] at hfollows
      rw [List.getLast?_eq_none_iff.mp hlast]
      refine ⟨fun first hfirst => ?_, List.pairwise_singleton _ _⟩
      cases hfirst
      exact hfollows
  | some last =>
      rw [hlast] at hfollows
      have hne : history ≠ [] := fun hnil => by rw [hnil] at hlast; cases hlast
      refine ⟨fun first hfirst => ?_, List.pairwise_append.mpr
        ⟨hforward.increasing, List.pairwise_singleton _ _, fun other hother new hnew => ?_⟩⟩
      · rw [List.head?_append_of_ne_nil _ hne] at hfirst
        exact hforward.created first hfirst
      · rw [List.mem_singleton.mp hnew]
        exact lt_of_le_of_lt (hforward.sequence_le hlast hother) hfollows

end Histories

/-! ## What a writer has read -/

/-- The current status of each order as a writer has last read it. -/
abbrev Seen := Guid → Option StatusType

/-- What a writer remembers of its queries. -/
def noteSeen : Note CardException Command.Answer Seen
  | seen, .sql (.getLastOrderStatus orderId), .ok row =>
      Function.update seen orderId (row.map CreditCardOrderStatus.status)
  | seen, .sql .getOrderIdsWithStatusOrderCreated, .ok ids => fun orderId =>
      if orderId ∈ ids then some .orderCreated else seen orderId
  | seen, _, _ => seen

/-- The order of the status that a command inserts, and the status. -/
def Command.insertedStatus : Command → Option (Guid × StatusType)
  | .sql (.insertNewStatus orderId type _ _) => some (orderId, type)
  | _ => none

/-- When a status is inserted, the current status of its order is the one that
the writer has read. -/
def insertsUpToDate : Condition CardException Command.Answer (World × Seen) :=
  fun command start answer => ∀ inserted ∈ command.insertedStatus, answer.isOk = true →
    (start.1.database.history inserted.1).getLast? = start.2 inserted.1

instance (command : Command) (start : World × Seen)
    (answer : Except CardException command.Answer) :
    Decidable (insertsUpToDate command start answer) :=
  inferInstanceAs (Decidable (∀ inserted ∈ command.insertedStatus, answer.isOk = true →
    (start.1.database.history inserted.1).getLast? = start.2 inserted.1))

/-- The order and the status that a command inserts, or the one that comes with the
card it inserts. -/
def Command.writtenStatus : Command → Option (Guid × StatusType)
  | .sql (.insertNewStatus orderId type _ _) => some (orderId, type)
  | .sql (.insertNewCreditCard orderId _) => some (orderId, .cardCreated)
  | _ => none

theorem Command.writtenStatus_of_inserted {command : Command} {inserted : Guid × StatusType}
    (hinserted : inserted ∈ command.insertedStatus) : inserted ∈ command.writtenStatus := by
  unfold Command.insertedStatus at hinserted
  split at hinserted <;> cases hinserted
  rfl

/-- A status, with its card, is only inserted when it comes after the one that has
been read. -/
def sequenceGuard (command : Command) (seen : Seen) : Prop :=
  ∀ written ∈ command.writtenStatus, Follows (seen written.1) written.2

section Statements

variable {schema : Schema} {database database' : Database} {statement : Statement}
variable {returned : Bool}

theorem history_addStatus (orderId other : Guid) (type : StatusType) (details : String)
    (time : LocalDateTime) :
    (database.addStatus (type.row orderId details time)
        (type.row_id orderId details time)).history other =
      database.history other ++ if orderId = other then [type] else [] := by
  rw [Database.history, statusesOf_addStatus, List.map_append]
  congr 1
  split_ifs <;> rfl

/-- Deleting the statuses of one order leaves the other histories. -/
theorem history_delete (deleted : Option Guid) (orderId : Guid) :
    ({ database with
        statuses := database.statuses.delete (some ·.creditCardOrderId = deleted) } :
      Database).history orderId =
      if some orderId = deleted then [] else database.history orderId := by
  rw [Database.history, Database.statusesOf, AutoTable.rows_delete, List.filter_filter]
  split_ifs with hdeleted
  · rw [List.map_eq_nil_iff, List.filter_eq_nil_iff]
    intro row _
    by_cases hrow : row.creditCardOrderId = orderId <;> simp [hrow, hdeleted]
  · rw [Database.history, Database.statusesOf]
    congr 1
    refine List.filter_congr fun row _ => ?_
    by_cases hrow : row.creditCardOrderId = orderId <;> simp [hrow, hdeleted]

theorem movesForward_of_changes (hforward : ∀ orderId, MovesForward (database.history orderId))
    (hfollows : ∀ inserted ∈ (Command.sql statement).insertedStatus, returned = true →
      Follows (database.history inserted.1).getLast? inserted.2)
    (hchanges : Changes schema database statement returned database') (orderId : Guid) :
    MovesForward (database'.history orderId) := by
  cases hchanges with
  | status horder =>
      rename_i inserted type details time
      rw [history_addStatus]
      split_ifs with hsame
      · subst hsame
        exact (hforward inserted).concat (hfollows (inserted, type) rfl rfl)
      · rw [List.append_nil]
        exact hforward orderId
  | statusesDeleted horder =>
      rw [history_delete]
      split_ifs
      · exact movesForward_nil
      · exact hforward orderId
  | shippingId =>
      rw [Database.history, Database.statusesOf, statuses_updateOrder]
      exact hforward orderId
  | _ => exact hforward orderId

end Statements

/-! ## The writers -/

section Writers

/-- Whatever it reads, a program only inserts statuses that follow. -/
abbrev KeepsSequence {α : Type} (task : Task α) (post : Except CardException α → Seen → Prop)
    (seen : Seen) : Prop :=
  wp (remembers (fun _ _ _ => True) noteSeen) sequenceGuard task post seen

variable {seen : Seen}

theorem sequenceGuard_of_none {command : Command} (hnone : command.writtenStatus = none) :
    sequenceGuard command seen := by
  intro written hwritten
  rw [hnone] at hwritten
  cases hwritten

theorem aboutStatuses_noteSeen : AboutStatuses noteSeen sequenceGuard where
  ambient _ _ := sequenceGuard_of_none rfl
  ambient_note _ _ _ := rfl
  read _ _ := sequenceGuard_of_none rfl
  updateOrder _ _ _ := sequenceGuard_of_none rfl
  updateOrder_note _ _ _ _ := rfl
  insert_note _ _ _ _ _ _ := rfl

theorem keepsSequence_of_issues {α : Type} {task : Task α}
    (hissues : task.Issues (·.writtenStatus = none)) : KeepsSequence task (fun _ _ => True) seen :=
  Prog.wp_of_issues hissues fun _ _ => sequenceGuard_of_none

theorem keepsSequence_insertNewStatus {orderId : Guid} {type : StatusType} {details : String}
    {post : Except CardException Unit → Seen → Prop} (hfollows : Follows (seen orderId) type)
    (hpost : ∀ outcome, post outcome seen) :
    KeepsSequence (DatabaseHelper.insertNewStatus orderId type details) post seen :=
  wp_insertNewStatus aboutStatuses_noteSeen
    (fun _ written hwritten => by cases hwritten; exact hfollows) hpost

theorem keepsSequence_createCreditCardOrder (request : CreditCardOrderRequest) :
    KeepsSequence (OrderController.createCreditCardOrder request) (fun _ _ => True)
      fun _ => none := by
  rw [OrderController.createCreditCardOrder, KeepsSequence, wp_tryCatch, wp_bind, wp_sql]
  refine ⟨sequenceGuard_of_none rfl, fun orderCount _ => ?_, fun error _ =>
    wp_handleSQLException error⟩
  rw [andThen_ok]
  split_ifs
  · rw [wp_bind, wp_sql]
    refine ⟨sequenceGuard_of_none rfl, fun guid _ => ?_, fun error _ =>
      wp_handleSQLException error⟩
    rw [andThen_ok, wp_bind]
    refine keepsSequence_insertNewStatus rfl fun outcome => ?_
    cases outcome with
    | ok value => trivial
    | error error => exact wp_handleSQLException error
  · trivial

/-- A request that is accepted inserts what comes after the status it has read. -/
theorem keepsSequence_updateStatus (id : Guid) (request : StatusRequest) :
    KeepsSequence (OrderController.updateStatus id request) (fun _ _ => True) seen := by
  refine wp_updateStatus aboutStatuses_noteSeen fun status type hid htype hlater => ?_
  have hfollows : Follows (noteSeen seen (.sql (.getLastOrderStatus id)) (.ok (some status))
      request.orderId) type := by
    rw [← hid, noteSeen, Function.update_self]
    exact hlater
  have hguard : ∀ details time, sequenceGuard
      (.sql (.insertNewStatus request.orderId type details time))
      (noteSeen seen (.sql (.getLastOrderStatus id)) (.ok (some status))) :=
    fun details time written hwritten => by cases hwritten; exact hfollows
  cases type with
  | cardCreated =>
      exact fun card => ⟨fun written hwritten => by cases hwritten; exact hfollows, hguard⟩
  | _ => exact hguard

theorem keepsSequence_orderCard {orderId : Guid}
    {post : Except CardException Unit → Seen → Prop}
    (hseen : seen orderId = some .orderCreated) (hpost : ∀ outcome, post outcome seen) :
    KeepsSequence (WorkScheduler.orderCard orderId) post seen := by
  rw [WorkScheduler.orderCard, KeepsSequence, wp_bind, wp_sql]
  refine ⟨sequenceGuard_of_none rfl, fun body _ => ?_, fun _ _ => hpost _⟩
  rw [andThen_ok, wp_bind]
  refine wp_httpCall (sequenceGuard_of_none rfl) (fun _ => sequenceGuard_of_none rfl)
    (fun _ => rfl) (fun _ _ => rfl) fun response => ?_
  cases response with
  | error error => exact hpost _
  | ok response =>
      rw [andThen_ok]
      have hfollows : Follows (seen orderId) .cardOrdered := by
        rw [hseen]
        exact (by decide : StatusType.orderCreated.sequence < StatusType.cardOrdered.sequence)
      split_ifs
      · exact keepsSequence_insertNewStatus hfollows hpost
      · exact hpost _

/-- A run sets `CARD_ORDERED` for orders that it has read as created. -/
theorem keepsSequence_workScheduler :
    KeepsSequence WorkScheduler.run (fun _ _ => True) seen := by
  rw [WorkScheduler.run, KeepsSequence, wp_tryCatch, wp_bind, wp_sql]
  refine ⟨sequenceGuard_of_none rfl, fun orders _ => ?_, fun _ _ => trivial⟩
  refine wp_forM (fun rest seen => ∀ orderId ∈ rest, seen orderId = some .orderCreated)
    ?_ (fun _ _ => trivial) orders fun orderId horder => if_pos horder
  intro orderId rest seen hseen
  refine keepsSequence_orderCard (hseen orderId List.mem_cons_self) fun outcome => ?_
  cases outcome with
  | ok value => exact fun other hother => hseen other (List.mem_cons_of_mem orderId hother)
  | error error => trivial

theorem keepsSequence_orderServer :
    KeepsSequence OrderController.serve (fun _ _ => True) seen :=
  wp_orderServer (sequenceGuard_of_none rfl) (fun _ _ _ => sequenceGuard_of_none rfl)
    (fun _ id body => keepsSequence_updateStatus id body)
    fun _ _ => keepsSequence_of_issues (issues_getShippingAddress rfl)

theorem keepsSequence_client (request : ClientRequest) :
    KeepsSequence request.serve (fun _ _ => True) fun _ => none := by
  cases request with
  | nothing => trivial
  | createCreditCardOrder request =>
      rw [ClientRequest.serve, KeepsSequence, wp_bind]
      refine wp_mono (fun outcome final _ => ?_) (keepsSequence_createCreditCardOrder request)
      cases outcome <;> trivial
  | updateStatus id request =>
      rw [ClientRequest.serve, KeepsSequence, wp_bind]
      refine wp_mono (fun outcome final _ => ?_) (keepsSequence_updateStatus id request)
      cases outcome <;> trivial
  | deleteOrder accountId =>
      exact keepsSequence_of_issues
        (Prog.issues_bind (issues_deleteOrder rfl rfl rfl) fun _ => trivial)
  | getLatestStatus accountId =>
      exact keepsSequence_of_issues
        (Prog.issues_bind (issues_getLatestStatus rfl) fun _ => trivial)

theorem keepsSequence_program (workload : Workload) (party : Party) :
    KeepsSequence (workload.program party) (fun _ _ => True) fun _ => none := by
  cases party with
  | client n => exact keepsSequence_client (workload.clients n)
  | orderServer n => exact keepsSequence_orderServer
  | manufacturer n =>
      exact keepsSequence_of_issues
        (issues_manufacturerController (fun _ => rfl) (fun _ => rfl) fun _ _ => rfl)
  | workScheduler =>
      exact wp_repeated (fun _ => True) (fun _ _ => keepsSequence_workScheduler) _ trivial
  | manufactureScheduler =>
      exact keepsSequence_of_issues (issues_repeated (issues_manufactureScheduler
        (fun _ => rfl) (fun _ => rfl) (fun _ _ => rfl) fun _ _ _ _ _ => rfl) _)
  | courierScheduler =>
      exact keepsSequence_of_issues (issues_repeated (issues_courierScheduler
        (fun _ => rfl) (fun _ => rfl) (fun _ _ => rfl) fun _ _ => rfl) _)

end Writers

/-- Histories move forward.  In every interleaving in which every status is
inserted while the current status of its order is the one that the writer has
read, the history of every order starts with `ORDER_CREATED` and has strictly
increasing sequence numbers at any time. -/
theorem history_moves_forward {schema : Schema} {workload : Workload} {world : World}
    {system : System Seen} (hforward : ∀ orderId, MovesForward (world.database.history orderId))
    (hreaches : InterleavesWhen schema noteSeen insertsUpToDate
      (workload.start (fun _ => none) world) system) (orderId : Guid) :
    MovesForward (system.shared.database.history orderId) := by
  refine database_of_reaches (fun database => ∀ orderId, MovesForward (database.history orderId))
    hforward (fun party => keepsSequence_program workload party) ?_ hreaches orderId
  intro statement world seen answer database hforward hguard hupToDate hchanges
  refine movesForward_of_changes hforward (fun inserted hinserted hreturned => ?_) hchanges
  rw [hupToDate inserted hinserted hreturned]
  exact hguard inserted (Command.writtenStatus_of_inserted hinserted)

/-- One order, with one run of each scheduler. -/
def Sample.oneOrder : Workload where
  clients n :=
    if n = 0 then .createCreditCardOrder ⟨1, "email@mail.ail", "Jane Doe", "Box 13", "silver"⟩
    else .nothing
  workRuns := 1
  manufactureRuns := 1
  courierRuns := 0

/-- The work scheduler notes that the card is ordered before the manufacturer
reports a delay. -/
theorem history_moves_forward_delayed :
    ∃ system : System Seen,
      system.shared.database.history 101 = [.orderCreated, .cardOrdered, .cardError] ∧
      MovesForward (system.shared.database.history 101) := by
  obtain ⟨system, hcheck, hinterleaves⟩ := exists_interleavingWhen .dump noteSeen insertsUpToDate
    (Sample.oneOrder.start (fun _ => none) (World.empty [1]))
    (List.flatten [
      [(.client 0, .goes 0), (.client 0, .goes 101), (.client 0, .goes 0), (.client 0, .goes 0),
        (.workScheduler, .inOrder [101])],
      List.replicate 2 (.workScheduler, .goes 0), List.replicate 3 (.manufacturer 0, .goes 0),
      [(.workScheduler, .goes 0), (.workScheduler, .goes 20000000), (.workScheduler, .goes 0)],
      List.replicate 9 (.manufactureScheduler, .goes 0),
      [(.orderServer 0, .goes 1), (.orderServer 0, .goes 0), (.orderServer 0, .goes 30000000),
        (.orderServer 0, .goes 0), (.orderServer 0, .goes 0)]])
    (fun system => decide (system.shared.database.history 101 =
      [.orderCreated, .cardOrdered, .cardError]))
    (by decide +kernel)
  have hforward : ∀ orderId, MovesForward ((World.empty [1]).database.history orderId) :=
    fun _ => movesForward_nil
  exact ⟨system, of_decide_eq_true hcheck, history_moves_forward hforward hinterleaves 101⟩

/-- The manufacturer reports a delay before the work scheduler has noted that it
has ordered the card. -/
theorem history_moves_back :
    (∀ orderId, MovesForward ((World.empty [1]).database.history orderId)) ∧
    ∃ system : System Unit,
      Interleaves .dump (Sample.oneOrder.start () (World.empty [1])) system ∧
      system.shared.database.history 101 = [.orderCreated, .cardError, .cardOrdered] ∧
      ¬ MovesForward (system.shared.database.history 101) := by
  obtain ⟨system, hcheck, hinterleaves⟩ := exists_interleaving .dump
    (Sample.oneOrder.start () (World.empty [1]))
    (List.flatten [
      [(.client 0, .goes 0), (.client 0, .goes 101), (.client 0, .goes 0), (.client 0, .goes 0),
        (.workScheduler, .inOrder [101])],
      List.replicate 2 (.workScheduler, .goes 0), List.replicate 3 (.manufacturer 0, .goes 0),
      List.replicate 9 (.manufactureScheduler, .goes 0),
      [(.orderServer 0, .goes 1), (.orderServer 0, .goes 0), (.orderServer 0, .goes 20000000),
        (.orderServer 0, .goes 0), (.orderServer 0, .goes 0), (.workScheduler, .goes 0),
        (.workScheduler, .goes 30000000), (.workScheduler, .goes 0)]])
    (fun system => decide (system.shared.database.history 101 =
      [.orderCreated, .cardError, .cardOrdered]))
    (by decide +kernel)
  have hhistory := of_decide_eq_true hcheck
  refine ⟨fun _ => movesForward_nil, system, hinterleaves, hhistory, fun hforward => ?_⟩
  have hincreasing := hforward.increasing
  rw [hhistory] at hincreasing
  exact absurd hincreasing (by decide)

end EasyTrade.CardOrders

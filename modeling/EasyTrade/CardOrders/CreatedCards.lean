import EasyTrade.CardOrders.StatusHistory

/-!
# The card of a shipped order

A card is inserted with the report that it has been created, the status of the
order after it, and the manufacturer goes on to the courier whatever has become
of the report.  An order that has been shipped has exactly one card as long as
statuses and cards are inserted by requests that are up to date, no card is left
without its status, and no order is handed over before its `CARD_CREATED` has been
stored.
-/

namespace EasyTrade.CardOrders

open EasyTrade.Program EasyTrade.Interleaving

/-- A shipped order has been created before and has one card; no order has two. -/
structure ShippedWithCard (database : Database) (orderId : Guid) : Prop where
  created : ∀ before type after, database.history orderId = before ++ type :: after →
    type = .cardShipped ∨ type = .cardDelivered → .cardCreated ∈ before
  exactlyOne : .cardShipped ∈ database.history orderId ∨
    .cardDelivered ∈ database.history orderId → (database.cardsOf orderId).length = 1
  atMostOne : (database.cardsOf orderId).length ≤ 1

/-! ## What the parties know -/

/-- The order that a request reports to be shipped or delivered. -/
def HttpRequest.shipment : HttpRequest → Option Guid
  | .updateStatus _ body =>
      if body.type = some .cardShipped ∨ body.type = some .cardDelivered then some body.orderId
      else none
  | _ => none

structure Knowledge where
  seen : Seen
  /-- The orders for which the thread has inserted a card. -/
  carded : List Guid
  /-- The orders that the thread takes to be created: those that it has found with the
  courier and those that have been reported to it as shipped or delivered. -/
  created : List Guid

def Knowledge.none : Knowledge := ⟨fun _ => Option.none, [], []⟩

def noteCarded : Note CardException Command.Answer (List Guid)
  | carded, .sql (.insertNewCreditCard orderId _), .ok _ => orderId :: carded
  | carded, _, _ => carded

def noteCreated : Note CardException Command.Answer (List Guid)
  | created, .list (.courierNext ..), .ok process => process.creditCardOrderId :: created
  | created, .http (.accept _), .ok accepted => accepted.2.shipment.toList ++ created
  | created, _, _ => created

def noteCards : Note CardException Command.Answer Knowledge := fun memory command answer =>
  ⟨noteSeen memory.seen command answer, noteCarded memory.carded command answer,
    noteCreated memory.created command answer⟩

/-- The order for which a command inserts a card. -/
def Command.insertedCard : Command → Option Guid
  | .sql (.insertNewCreditCard orderId _) => some orderId
  | _ => none

/-- The order that a command hands over to the courier. -/
def Command.handedOver : Command → Option Guid
  | .list (.addCourierProcess _ orderId) => some orderId
  | _ => none

/-- Statuses and cards are inserted while the current status of the order is the
one that the writer has read; a card is inserted when those that the order already
has come with their status; an order is handed over when its creation is stored. -/
def keepsCards : Condition CardException Command.Answer (World × Knowledge) :=
  fun command start answer => answer.isOk = true →
    (∀ written ∈ command.writtenStatus,
      (start.1.database.history written.1).getLast? = start.2.seen written.1) ∧
    (∀ orderId ∈ command.insertedCard, start.1.database.cardsOf orderId = [] ∨
      .cardCreated ∈ start.1.database.history orderId) ∧
    ∀ orderId ∈ command.handedOver, .cardCreated ∈ start.1.database.history orderId

instance (command : Command) (start : World × Knowledge)
    (answer : Except CardException command.Answer) : Decidable (keepsCards command start answer) :=
  inferInstanceAs (Decidable (answer.isOk = true →
    (∀ written ∈ command.writtenStatus,
      (start.1.database.history written.1).getLast? = start.2.seen written.1) ∧
    (∀ orderId ∈ command.insertedCard, start.1.database.cardsOf orderId = [] ∨
      .cardCreated ∈ start.1.database.history orderId) ∧
    ∀ orderId ∈ command.handedOver, .cardCreated ∈ start.1.database.history orderId))

/-- `CARD_CREATED` is only inserted after the card, and shipping and delivery are
only reported and noted for orders that are taken to be created.  Nothing is
deleted. -/
def cardGuard : Command → Knowledge → Prop
  | .sql (.insertNewStatus orderId .cardCreated _ _), memory => orderId ∈ memory.carded
  | .sql (.insertNewStatus orderId .cardShipped _ _), memory => orderId ∈ memory.created
  | .sql (.insertNewStatus orderId .cardDelivered _ _), memory => orderId ∈ memory.created
  | .http (.send request), memory => ∀ orderId ∈ request.shipment, orderId ∈ memory.created
  | .sql (.deleteOrderStatus _), _ | .sql (.deleteCreditCard _), _ | .sql (.deleteOrder _), _ =>
      False
  | _, _ => True

/-! ## What the system keeps -/

structure CardsAccountedFor (world : World) : Prop where
  forward : ∀ orderId, MovesForward (world.database.history orderId)
  card : ∀ orderId, .cardCreated ∈ world.database.history orderId →
    world.database.cardsOf orderId ≠ []
  atMostOne : ∀ orderId, (world.database.cardsOf orderId).length ≤ 1
  shipped : ∀ orderId, .cardShipped ∈ world.database.history orderId ∨
    .cardDelivered ∈ world.database.history orderId →
      .cardCreated ∈ world.database.history orderId
  courier : ∀ process ∈ world.thirdParty.courier.elements,
    .cardCreated ∈ world.database.history process.creditCardOrderId
  calls : ∀ call ∈ world.calls, ∀ orderId ∈ call.request.shipment,
    .cardCreated ∈ world.database.history orderId

/-- What is in the notes is so. -/
structure KnowsCards (world : World) (memory : Knowledge) : Prop where
  carded : ∀ orderId ∈ memory.carded, world.database.cardsOf orderId ≠ []
  created : ∀ orderId ∈ memory.created, .cardCreated ∈ world.database.history orderId

/-- Statuses and cards have only been added. -/
structure Grows (database database' : Database) : Prop where
  history : ∀ orderId type, type ∈ database.history orderId → type ∈ database'.history orderId
  cards : ∀ orderId, database.cardsOf orderId ≠ [] → database'.cardsOf orderId ≠ []

theorem Grows.refl (database : Database) : Grows database database :=
  ⟨fun _ _ => id, fun _ => id⟩

theorem KnowsCards.of_grows {world world' : World} {memory : Knowledge}
    (hknows : KnowsCards world memory) (hgrows : Grows world.database world'.database) :
    KnowsCards world' memory where
  carded orderId horder := hgrows.cards orderId (hknows.carded orderId horder)
  created orderId horder := hgrows.history orderId _ (hknows.created orderId horder)

section Database

variable {schema : Schema} {world : World} {database database' : Database} {memory : Knowledge}
variable {statement : Statement} {returned : Bool}

theorem grows_of_changes (hguard : cardGuard (.sql statement) memory)
    (hchanges : Changes schema database statement returned database') :
    Grows database database' := by
  cases hchanges with
  | nothing | order => exact ⟨fun _ _ => id, fun _ => id⟩
  | status =>
      refine ⟨fun orderId type htype => ?_, fun orderId => id⟩
      rw [history_addStatus]
      exact List.mem_append_left _ htype
  | card =>
      refine ⟨fun orderId type => id, fun orderId hcards => ?_⟩
      rw [cardsOf_addCard]
      exact List.append_ne_nil_of_left_ne_nil hcards _
  | shippingId =>
      refine ⟨fun orderId type htype => ?_, fun orderId hcards => ?_⟩
      · rwa [Database.history, Database.statusesOf, statuses_updateOrder]
      · rwa [Database.cardsOf, cards_updateOrder]
  | statusesDeleted | cardsDeleted | ordersDeleted => exact absurd hguard id

/-- A status that a statement has added was the one to be inserted. -/
theorem mem_history_of_changes {orderId : Guid} {type : StatusType}
    (hchanges : Changes schema database statement returned database')
    (htype : type ∈ database'.history orderId) :
    type ∈ database.history orderId ∨
      ∃ details time, statement = .insertNewStatus orderId type details time := by
  cases hchanges with
  | status =>
      rw [history_addStatus] at htype
      rcases List.mem_append.mp htype with hold | hnew
      · exact Or.inl hold
      · split_ifs at hnew with hsame
        · subst hsame
          rw [List.mem_singleton.mp hnew]
          exact Or.inr ⟨_, _, rfl⟩
        · cases hnew
  | shippingId =>
      rw [Database.history, Database.statusesOf, statuses_updateOrder] at htype
      exact Or.inl htype
  | statusesDeleted =>
      rw [history_delete] at htype
      split_ifs at htype
      · cases htype
      · exact Or.inl htype
  | _ => exact Or.inl htype

/-- A card is inserted for an order without one. -/
theorem cardsOf_eq_nil_of_allowed {orderId : Guid} {request : CreditCardRequest}
    {answer : Except CardException Unit} (hforward : MovesForward (world.database.history orderId))
    (hguard : sequenceGuard (.sql (.insertNewCreditCard orderId request)) memory.seen)
    (hallowed : keepsCards (.sql (.insertNewCreditCard orderId request)) (world, memory) answer)
    (hreturned : answer.isOk = true) : world.database.cardsOf orderId = [] := by
  obtain ⟨hcurrent, hpaired, -⟩ := hallowed hreturned
  refine (hpaired orderId rfl).resolve_right fun hcreated => ?_
  have hfollows : Follows (memory.seen orderId) .cardCreated := hguard (orderId, .cardCreated) rfl
  have hlast : (world.database.history orderId).getLast? = memory.seen orderId :=
    hcurrent (orderId, .cardCreated) rfl
  cases hseen : memory.seen orderId with
  | none =>
      rw [hseen] at hfollows
      cases hfollows
  | some last =>
      rw [hseen] at hfollows hlast
      exact absurd (hforward.sequence_le hlast hcreated) (not_le.mpr hfollows)

theorem CardsAccountedFor.of_changes {answer : Except CardException statement.Answer}
    (hworld : CardsAccountedFor world) (hknows : KnowsCards world memory)
    (hsequence : sequenceGuard (.sql statement) memory.seen)
    (hguard : cardGuard (.sql statement) memory)
    (hallowed : keepsCards (.sql statement) (world, memory) answer)
    (hchanges : Changes schema world.database statement answer.isOk database') :
    CardsAccountedFor { world with database := database' } := by
  have hgrows := grows_of_changes hguard hchanges
  refine ⟨?_, fun orderId hcreated => ?_, fun orderId => ?_, fun orderId hshipped => ?_,
    fun process hprocess => hgrows.history _ _ (hworld.courier process hprocess),
    fun call hcall orderId horder => hgrows.history _ _ (hworld.calls call hcall orderId horder)⟩
  · refine movesForward_of_changes hworld.forward (fun inserted hinserted hreturned => ?_) hchanges
    have hwritten := Command.writtenStatus_of_inserted hinserted
    rw [(hallowed hreturned).1 inserted hwritten]
    exact hsequence inserted hwritten
  · rcases mem_history_of_changes hchanges hcreated with hold | ⟨details, time, rfl⟩
    · exact hgrows.cards orderId (hworld.card orderId hold)
    · exact hgrows.cards orderId (hknows.carded orderId hguard)
  · have hone := hworld.atMostOne orderId
    generalize hanswer : answer.isOk = returned at hchanges
    cases hchanges with
    | card =>
        rename_i inserted request hgenerated horder
        rw [cardsOf_addCard]
        split_ifs with hsame
        · subst hsame
          rw [cardsOf_eq_nil_of_allowed (hworld.forward inserted) hsequence hallowed hanswer]
          exact le_refl 1
        · rwa [List.append_nil]
    | shippingId => rwa [Database.cardsOf, cards_updateOrder]
    | statusesDeleted | cardsDeleted | ordersDeleted => exact absurd hguard id
    | _ => exact hone
  · have hstored : ∀ type, type = .cardShipped ∨ type = .cardDelivered →
        type ∈ database'.history orderId → .cardCreated ∈ database'.history orderId := by
      intro type hkind htype
      rcases mem_history_of_changes hchanges htype with hold | ⟨details, time, rfl⟩
      · refine hgrows.history _ _ (hworld.shipped orderId ?_)
        rcases hkind with rfl | rfl
        · exact Or.inl hold
        · exact Or.inr hold
      · refine hgrows.history _ _ (hknows.created orderId ?_)
        rcases hkind with rfl | rfl <;> exact hguard
    rcases hshipped with hshipped | hdelivered
    · exact hstored _ (Or.inl rfl) hshipped
    · exact hstored _ (Or.inr rfl) hdelivered

end Database

section ThirdParty

variable {schema : Schema} {world world' : World} {memory : Knowledge}

/-- The courier's list after a command: what has been added belongs to an order that
has just been handed over. -/
theorem courier_of_run {command : ListCommand} {thirdParty : ThirdParty}
    {process : CourierProcess} (hprocess : process ∈ (command.run thirdParty).2.courier.elements) :
    (∃ old ∈ thirdParty.courier.elements, old.creditCardOrderId = process.creditCardOrderId) ∨
      (Command.list command).handedOver = some process.creditCardOrderId := by
  have hchange : ∀ ref (change : CourierProcess → CourierProcess),
      process ∈ thirdParty.courier.elements.map (changeAt CourierProcess.ref ref change) →
      (∀ old, (change old).creditCardOrderId = old.creditCardOrderId) →
      ∃ old ∈ thirdParty.courier.elements,
        old.creditCardOrderId = process.creditCardOrderId := by
    intro ref change hmem hsame
    obtain ⟨old, hold, rfl⟩ := List.mem_map.mp hmem
    refine ⟨old, hold, ?_⟩
    rw [changeAt]
    split_ifs
    · exact (hsame old).symm
    · rfl
  cases command with
  | setAddress ref address => exact Or.inl (hchange ref _ hprocess fun _ => rfl)
  | setCourierStatus ref status => exact Or.inl (hchange ref _ hprocess fun _ => rfl)
  | setShippingId ref shippingId => exact Or.inl (hchange ref _ hprocess fun _ => rfl)
  | addCourierProcess cause orderId =>
      rcases List.mem_append.mp hprocess with hold | hnew
      · exact Or.inl ⟨process, hold, rfl⟩
      · rw [List.mem_singleton.mp hnew]
        exact Or.inr rfl
  | removeCourierProcess ref =>
      change process ∈ (thirdParty.courier.remove _).elements at hprocess
      rw [ArrayList.elements_remove] at hprocess
      exact Or.inl ⟨process, List.mem_of_mem_eraseP hprocess, rfl⟩
  | _ => exact Or.inl ⟨process, hprocess, rfl⟩

theorem CardsAccountedFor.of_list {command : ListCommand}
    {answer : Except CardException command.Answer} (hworld : CardsAccountedFor world)
    (hallowed : keepsCards (.list command) (world, memory) answer)
    (hstep : step schema (.list command) world answer world') : CardsAccountedFor world' := by
  obtain ⟨rfl, rfl⟩ := step_list hstep
  refine { hworld with courier := fun process hprocess => ?_ }
  rcases courier_of_run hprocess with ⟨old, hold, hsame⟩ | hhanded
  · rw [← hsame]
    exact hworld.courier old hold
  · have hreturned : (command.run world.thirdParty).1.isOk = true := by
      cases command <;> first | rfl | cases hhanded
    exact (hallowed hreturned).2.2 _ hhanded

/-- The requests after a command: a new one has just been sent. -/
theorem calls_of_move {command : HttpCommand} {choice : Choice} {calls calls' : List Call}
    {answer : Except CardException command.Answer} {call : Call}
    (hmove : command.move choice calls = some (answer, calls')) (hcall : call ∈ calls') :
    (∃ old ∈ calls, old.request = call.request) ∨ command = .send call.request := by
  have hchange : ∀ index (change : Call → Call), call ∈ calls.modify index change →
      (∀ old, (change old).request = old.request) →
      ∃ old ∈ calls, old.request = call.request := by
    intro index change hmem hsame
    obtain ⟨position, hposition, rfl⟩ := List.getElem_of_mem hmem
    rw [List.length_modify] at hposition
    refine ⟨calls[position], List.getElem_mem hposition, ?_⟩
    rw [List.getElem_modify]
    split_ifs
    · exact (hsame _).symm
    · rfl
  cases CallsChange.of_move hmove with
  | fails | answered => exact Or.inl ⟨call, hcall, rfl⟩
  | sent request =>
      rcases List.mem_append.mp hcall with hold | hnew
      · exact Or.inl ⟨call, hold, rfl⟩
      · rw [List.mem_singleton.mp hnew]
        exact Or.inr rfl
  | accepted | replied => exact Or.inl (hchange _ _ hcall fun _ => rfl)

/-- A request that is accepted has been sent. -/
theorem mem_calls_of_accept {service : Service} {choice : Choice} {calls calls' : List Call}
    {accepted : ℕ × HttpRequest}
    (hmove : (HttpCommand.accept service).move choice calls = some (.ok accepted, calls')) :
    ∃ call ∈ calls, call.request = accepted.2 := by
  cases CallsChange.of_move hmove with
  | accepted hcall => exact ⟨_, List.mem_of_getElem? hcall, rfl⟩

end ThirdParty

/-! ## The programs -/

section Programs

/-- Whatever it finds, a program reports and notes no order as shipped that it does not
take to be created. -/
abbrev KeepsCards {α : Type} (task : Task α) (post : Except CardException α → Knowledge → Prop)
    (memory : Knowledge) : Prop :=
  wp (remembers (fun _ _ _ => True) noteCards) cardGuard task post memory

variable {memory : Knowledge}

theorem aboutStatuses_noteCards : AboutStatuses noteCards cardGuard where
  ambient _ _ := trivial
  ambient_note _ _ _ := rfl
  read _ _ := trivial
  updateOrder _ _ _ := trivial
  updateOrder_note _ _ _ _ := rfl
  insert_note _ _ _ _ _ _ := rfl

theorem shipment_of_type {id orderId : Guid} {request : StatusRequest}
    (htype : request.type = some .cardShipped ∨ request.type = some .cardDelivered)
    (hid : orderId = request.orderId) :
    orderId ∈ (HttpRequest.updateStatus id request).shipment := by
  rw [HttpRequest.shipment, if_pos htype, hid]
  rfl

/-- A server thread notes as shipped what has been reported as shipped to it. -/
theorem keepsCards_orderServer : KeepsCards OrderController.serve (fun _ _ => True) memory := by
  refine wp_orderServer trivial (fun _ _ _ => trivial) (fun call id body => ?_) fun id memory => ?_
  · refine wp_updateStatus aboutStatuses_noteCards fun status type _ htype _ => ?_
    have hreported : body.type = some .cardShipped ∨ body.type = some .cardDelivered →
        body.orderId ∈ (HttpRequest.updateStatus id body).shipment.toList ++ memory.created :=
      fun hkind => List.mem_append_left _ (Option.mem_toList.mpr (shipment_of_type hkind rfl))
    cases type with
    | cardCreated => exact fun card => ⟨trivial, fun _ _ => List.mem_cons_self⟩
    | cardShipped => exact fun _ _ => hreported (Or.inl htype)
    | cardDelivered => exact fun _ _ => hreported (Or.inr htype)
    | orderCreated | cardOrdered | cardError | sequenceError => exact fun _ _ => trivial
  · exact Prog.wp_of_issues (P := fun command => ∀ memory, cardGuard command memory)
      (issues_getShippingAddress fun _ => trivial) fun command memory hguard => hguard memory

theorem keepsCards_report {status : OrderStatus} {orderId : Guid} {details : Details}
    {post : Except CardException Unit → Knowledge → Prop} (hcreated : orderId ∈ memory.created)
    (hpost : ∀ outcome, post outcome memory) :
    KeepsCards (ServiceHelper.updateStatus status orderId details) post memory := by
  rw [ServiceHelper.updateStatus, KeepsCards, wp_bind, wp_ambient]
  refine ⟨trivial, fun time _ => ?_, fun _ _ => hpost _⟩
  rw [andThen_ok, wp_bind]
  refine wp_httpCall (fun reported hreported => ?_) (fun _ => trivial) (fun _ => rfl)
    (fun _ _ => rfl) fun response => ?_
  · rw [HttpRequest.shipment] at hreported
    split_ifs at hreported
    · cases hreported
      exact hcreated
    · cases hreported
  · cases response <;> exact hpost _

theorem keepsCards_getShippingAddress {orderId : Guid}
    {post : Except CardException (Option ShippingAddressResponse) → Knowledge → Prop}
    (hpost : ∀ outcome, post outcome memory) :
    KeepsCards (ServiceHelper.getShippingAddress orderId) post memory := by
  rw [ServiceHelper.getShippingAddress, KeepsCards, wp_bind]
  refine wp_httpCall (fun reported hreported => by cases hreported) (fun _ => trivial)
    (fun _ => rfl) (fun _ _ => rfl) fun response => ?_
  cases response with
  | error error => exact hpost _
  | ok response =>
      rw [andThen_ok]
      split_ifs
      · cases response.results <;> exact hpost _
      · exact hpost _

/-- Setting a field of a process leaves no note. -/
theorem keepsCards_list {command : ListCommand} {β : Type} {next : command.Answer → Task β}
    {post : Except CardException β → Knowledge → Prop}
    (hnote : ∀ answer, noteCards memory (.list command) answer = memory)
    (hnext : ∀ value, KeepsCards (next value) post memory)
    (hpost : ∀ outcome, post outcome memory) :
    KeepsCards (list command >>= next) post memory := by
  rw [KeepsCards, wp_bind, wp_list]
  refine ⟨trivial, fun value _ => ?_, fun error _ => ?_⟩
  · rw [hnote]
    exact hnext value
  · rw [hnote]
    exact hpost _

theorem keepsCards_courierProcess {process : CourierProcess}
    {post : Except CardException (List CourierProcess) → Knowledge → Prop}
    (hcreated : process.creditCardOrderId ∈ memory.created)
    (hpost : ∀ outcome, post outcome memory) :
    KeepsCards (CourierScheduler.processOne process) post memory := by
  have hdone : ∀ outcome : Except CardException Unit,
      andThen (fun _ => KeepsCards (return []) post) post outcome memory := by
    intro outcome
    cases outcome <;> exact hpost _
  rw [CourierScheduler.processOne]
  cases process.status with
  | newCardReceived =>
      dsimp only
      rw [KeepsCards, wp_bind, CourierScheduler.processNewCardReceivedStatus, wp_bind]
      refine keepsCards_getShippingAddress fun address => ?_
      cases address with
      | error error => exact hpost _
      | ok address =>
          cases address with
          | none => exact hpost _
          | some address =>
              refine keepsCards_list (fun _ => rfl) (fun _ => ?_) hdone
              refine keepsCards_list (fun _ => rfl) (fun _ => ?_) hdone
              rw [KeepsCards, wp_bind, wp_ambient]
              refine ⟨trivial, fun guid _ => ?_, fun _ _ => hpost _⟩
              refine keepsCards_list (fun _ => rfl) (fun _ => ?_) hdone
              exact keepsCards_report hcreated hdone
  | cardSent =>
      dsimp only
      rw [KeepsCards, wp_bind, CourierScheduler.processCardSentStatus]
      exact keepsCards_list (fun _ => rfl) (fun _ => keepsCards_report hcreated hdone) hdone
  | cardDelivered => exact hpost _

/-- The process that the iterator returns next is one whose order is taken to be
created. -/
theorem keepsCards_courierProcesses (expectedModCount left cursor : ℕ) :
    KeepsCards (CourierScheduler.processAll expectedModCount left cursor) (fun _ _ => True)
      memory := by
  induction left generalizing cursor memory with
  | zero =>
      rw [CourierScheduler.processAll, KeepsCards, wp_bind, wp_list]
      refine ⟨trivial, fun more _ => ?_, fun _ _ => trivial⟩
      rw [andThen_ok]
      split_ifs
      · rw [wp_bind, wp_list]
        exact ⟨trivial, fun _ _ => trivial, fun _ _ => trivial⟩
      · trivial
  | succ left ih =>
      rw [CourierScheduler.processAll, KeepsCards, wp_bind, wp_list]
      refine ⟨trivial, fun more _ => ?_, fun _ _ => trivial⟩
      rw [andThen_ok]
      split_ifs
      · rw [wp_bind, wp_list]
        refine ⟨trivial, fun process _ => ?_, fun _ _ => trivial⟩
        rw [andThen_ok, wp_bind]
        refine keepsCards_courierProcess List.mem_cons_self fun outcome => ?_
        cases outcome with
        | error error => trivial
        | ok removed =>
            rw [andThen_ok, wp_bind]
            refine wp_mono (fun outcome final _ => ?_) (ih (cursor + 1))
            cases outcome <;> trivial
      · trivial

theorem keepsCards_courierScheduler :
    KeepsCards CourierScheduler.run (fun _ _ => True) memory := by
  rw [CourierScheduler.run, KeepsCards, wp_tryCatch, wp_bind, wp_list]
  refine ⟨trivial, fun iterator _ => ?_, fun _ _ => trivial⟩
  rw [andThen_ok, wp_bind]
  refine wp_mono (fun outcome final _ => ?_) (keepsCards_courierProcesses _ _ _)
  cases outcome with
  | error error => trivial
  | ok removed =>
      refine wp_forM (fun _ _ => True) (fun process rest memory _ => ?_) (fun _ _ => trivial)
        removed trivial
      rw [wp_list]
      exact ⟨trivial, fun _ _ => trivial, fun _ _ => trivial⟩

/-- A program that does nothing about shipments, cards or their statuses. -/
theorem keepsCards_of_issues {α : Type} {task : Task α}
    (hissues : task.Issues fun command => ∀ memory, cardGuard command memory) :
    KeepsCards task (fun _ _ => True) memory :=
  Prog.wp_of_issues hissues fun _ memory hguard => hguard memory

theorem keepsCards_manufactureScheduler :
    KeepsCards ManufactureScheduler.run (fun _ _ => True) memory := by
  have hsend : ∀ orderId type time details, type = .cardError ∨ type = .cardCreated →
      ∀ memory, cardGuard
        (.http (.send (.updateStatus orderId ⟨orderId, some type, time, details⟩))) memory := by
    intro orderId type time details htype memory reported hreported
    have hnone : (HttpRequest.updateStatus orderId
        ⟨orderId, some type, time, details⟩).shipment = none := by
      rcases htype with rfl | rfl <;> rfl
    rw [hnone] at hreported
    cases hreported
  exact keepsCards_of_issues (issues_manufactureScheduler (fun command memory => trivial)
    (fun _ _ => trivial) (fun _ _ _ => trivial) hsend)

/-- A client that orders cards and asks for their status, and leaves reports to the
third party. -/
def ClientRequest.onlyOrders : ClientRequest → Prop
  | nothing | createCreditCardOrder _ | getLatestStatus _ => True
  | updateStatus .. | deleteOrder _ => False

theorem keepsCards_client {request : ClientRequest} (hrequest : request.onlyOrders) :
    KeepsCards request.serve (fun _ _ => True) memory := by
  cases request with
  | nothing => trivial
  | createCreditCardOrder request =>
      exact keepsCards_of_issues (Prog.issues_bind (issues_createCreditCardOrder
        (fun _ _ => trivial) (fun _ => trivial) (fun _ => trivial) fun _ _ _ _ => trivial)
        fun _ => trivial)
  | getLatestStatus accountId =>
      exact keepsCards_of_issues
        (Prog.issues_bind (issues_getLatestStatus fun _ => trivial) fun _ => trivial)
  | updateStatus id request => cases hrequest
  | deleteOrder accountId => cases hrequest

theorem keepsCards_program {workload : Workload}
    (hclients : ∀ n, (workload.clients n).onlyOrders) (party : Party) :
    KeepsCards (workload.program party) (fun _ _ => True) memory := by
  cases party with
  | client n => exact keepsCards_client (hclients n)
  | orderServer n => exact keepsCards_orderServer
  | manufacturer n =>
      exact keepsCards_of_issues (issues_manufacturerController (fun _ _ => trivial)
        (fun _ _ => trivial) fun _ _ _ => trivial)
  | workScheduler =>
      refine wp_repeated (fun _ => True) (fun memory _ => keepsCards_of_issues ?_) _ trivial
      refine issues_workScheduler (fun _ _ => trivial) (fun _ => trivial) (fun _ _ => trivial)
        (fun body memory reported hreported => ?_) (fun _ _ => trivial) fun _ _ _ _ => trivial
      cases hreported
  | manufactureScheduler =>
      exact wp_repeated (fun _ => True) (fun _ _ => keepsCards_manufactureScheduler) _ trivial
  | courierScheduler =>
      exact wp_repeated (fun _ => True) (fun _ _ => keepsCards_courierScheduler) _ trivial

end Programs

/-! ## The system -/

section System

variable {schema : Schema} {world world' : World} {memory : Knowledge}

theorem KnowsCards.of_sql {statement : Statement} {database : Database}
    {answer : Except CardException statement.Answer} (hknows : KnowsCards world memory)
    (hgrows : Grows world.database database)
    (hchanges : Changes schema world.database statement answer.isOk database) :
    KnowsCards { world with database } (noteCards memory (.sql statement) answer) := by
  have hold : KnowsCards { world with database } memory := hknows.of_grows hgrows
  refine ⟨fun orderId horder => ?_, hold.created⟩
  cases statement with
  | insertNewCreditCard inserted request =>
      cases answer with
      | error error => exact hold.carded orderId horder
      | ok value =>
          rcases List.mem_cons.mp horder with rfl | hbefore
          · cases hchanges with
            | nothing hnothing => rcases hnothing with h | h <;> cases h
            | card =>
                rw [cardsOf_addCard, if_pos rfl]
                exact List.append_ne_nil_of_right_ne_nil _ (List.cons_ne_nil _ _)
          · exact hold.carded orderId hbefore
  | _ => exact hold.carded orderId horder

theorem KnowsCards.of_list {command : ListCommand} {answer : Except CardException command.Answer}
    (hworld : CardsAccountedFor world) (hknows : KnowsCards world memory)
    (hstep : step schema (.list command) world answer world') :
    KnowsCards world' (noteCards memory (.list command) answer) := by
  obtain ⟨rfl, rfl⟩ := step_list hstep
  refine ⟨hknows.carded, fun orderId horder => ?_⟩
  cases command with
  | courierNext cursor expectedModCount =>
      cases hnext : world.thirdParty.courier.next cursor expectedModCount with
      | error error =>
          rw [ListCommand.run, hnext] at horder
          cases error <;> exact hknows.created orderId horder
      | ok process =>
          rw [ListCommand.run, hnext] at horder
          rcases List.mem_cons.mp horder with rfl | hbefore
          · exact hworld.courier process (ArrayList.mem_of_next hnext)
          · exact hknows.created orderId hbefore
  | _ => exact hknows.created orderId horder

theorem KnowsCards.of_http {command : HttpCommand} {answer : Except CardException command.Answer}
    {choice : Choice} {calls : List Call} (hworld : CardsAccountedFor world)
    (hknows : KnowsCards world memory)
    (hmove : command.move choice world.calls = some (answer, calls)) :
    KnowsCards { world with calls } (noteCards memory (.http command) answer) := by
  refine ⟨hknows.carded, fun orderId horder => ?_⟩
  cases command with
  | accept service =>
      cases answer with
      | error error => exact hknows.created orderId horder
      | ok accepted =>
          rcases List.mem_append.mp horder with hreported | hbefore
          · obtain ⟨call, hcall, hrequest⟩ := mem_calls_of_accept hmove
            refine hworld.calls call hcall orderId ?_
            rw [hrequest]
            exact Option.mem_toList.mp hreported
          · exact hknows.created orderId hbefore
  | _ => exact hknows.created orderId horder

theorem CardsAccountedFor.of_http {command : HttpCommand}
    {answer : Except CardException command.Answer} {choice : Choice} {calls : List Call}
    (hworld : CardsAccountedFor world) (hknows : KnowsCards world memory)
    (hguard : cardGuard (.http command) memory)
    (hmove : command.move choice world.calls = some (answer, calls)) :
    CardsAccountedFor { world with calls } := by
  refine { hworld with calls := fun call hcall orderId horder => ?_ }
  rcases calls_of_move hmove hcall with ⟨old, hold, hsame⟩ | rfl
  · refine hworld.calls old hold orderId ?_
    rwa [hsame]
  · exact hknows.created orderId (hguard orderId horder)

theorem guarantees_cards : Guarantees (step schema) noteCards keepsCards CardsAccountedFor
    (fun _ : Party => KnowsCards)
    fun _ command memory => sequenceGuard command memory.seen ∧ cardGuard command memory := by
  intro i command world memory answer world' hworld hknows hguard hallowed hstep
  obtain ⟨hsequence, hguard⟩ := hguard
  cases command with
  | sql statement =>
      obtain ⟨database, hchanges, rfl⟩ := step_sql hstep
      have hgrows := grows_of_changes hguard hchanges
      exact ⟨hworld.of_changes hknows hsequence hguard hallowed hchanges,
        hknows.of_sql hgrows hchanges, fun _ _ other hother => hother.of_grows hgrows⟩
  | list command =>
      refine ⟨hworld.of_list hallowed hstep, hknows.of_list hworld hstep,
        fun _ _ other hother => ?_⟩
      rw [(step_list hstep).2]
      exact hother.of_grows (Grows.refl world.database)
  | ambient command =>
      rw [step_ambient hstep]
      exact ⟨hworld, hknows, fun _ _ other hother => hother⟩
  | http command =>
      obtain ⟨choice, calls, hmove, rfl⟩ := step_http hstep
      exact ⟨hworld.of_http hknows hguard hmove, hknows.of_http hworld hmove,
        fun _ _ other hother => hother.of_grows (Grows.refl world.database)⟩

theorem CardsAccountedFor.shippedWithCard (hworld : CardsAccountedFor world) (orderId : Guid) :
    ShippedWithCard world.database orderId := by
  have hone : .cardCreated ∈ world.database.history orderId →
      (world.database.cardsOf orderId).length = 1 := fun hcreated =>
    le_antisymm (hworld.atMostOne orderId)
      (List.length_pos_of_ne_nil (hworld.card orderId hcreated))
  refine ⟨fun before type after hhistory hkind => ?_,
    fun hshipped => hone (hworld.shipped orderId hshipped), hworld.atMostOne orderId⟩
  have hcreated : .cardCreated ∈ before ++ type :: after := by
    rw [← hhistory]
    refine hworld.shipped orderId ?_
    rw [hhistory]
    rcases hkind with rfl | rfl <;> simp
  have hlater : ¬ type.sequence < StatusType.cardCreated.sequence := by
    rcases hkind with rfl | rfl <;> decide
  have hincreasing := (hworld.forward orderId).increasing
  rw [hhistory] at hincreasing
  rcases List.mem_append.mp hcreated with hbefore | hrest
  · exact hbefore
  · rcases List.mem_cons.mp hrest with rfl | hafter
    · rcases hkind with h | h <;> cases h
    · have hbehind := (List.pairwise_cons.mp (List.pairwise_append.mp hincreasing).2.1).1
      exact absurd (hbehind _ hafter) hlater

end System

/-- Shipped orders have their card.  In every interleaving of order creations with the
work of both services in which statuses and cards are inserted by requests that are up
to date, no card is left without its status when another is inserted, and orders are
handed over to the courier when their creation is stored: at any time a shipped or
delivered order was created before and has exactly one card, and no order has two. -/
theorem shipped_with_card {schema : Schema} {workload : Workload} {world : World}
    {system : System Knowledge} (hclients : ∀ n, (workload.clients n).onlyOrders)
    (hworld : CardsAccountedFor world)
    (hreaches : InterleavesWhen schema noteCards keepsCards (workload.start Knowledge.none world)
      system) (orderId : Guid) : ShippedWithCard system.shared.database orderId := by
  have hstart : Upheld (fun _ _ _ => True) noteCards CardsAccountedFor
      (fun _ : Party => KnowsCards)
      (fun _ command memory => sequenceGuard command memory.seen ∧ cardGuard command memory)
      (workload.start Knowledge.none world) := by
    refine ⟨hworld, fun party => ⟨?_, ?_⟩,
      fun party => wp_and ?_ (keepsCards_program hclients party)⟩
    · exact fun orderId horder => absurd horder List.not_mem_nil
    · exact fun orderId horder => absurd horder List.not_mem_nil
    · exact wp_of_view Knowledge.seen (fun _ _ _ => rfl) (fun _ _ _ _ => trivial)
        (keepsSequence_program workload party)
  exact (hstart.reaches (fun _ _ _ _ _ => trivial) guarantees_cards hreaches).shared.shippedWithCard
    orderId

theorem cardsAccountedFor_empty (accounts : List ℤ) : CardsAccountedFor (World.empty accounts) where
  forward _ := movesForward_nil
  card _ hcreated := absurd hcreated List.not_mem_nil
  atMostOne _ := Nat.zero_le 1
  shipped _ hshipped := hshipped.elim (absurd · List.not_mem_nil) (absurd · List.not_mem_nil)
  courier _ hprocess := absurd hprocess List.not_mem_nil
  calls _ hcall := absurd hcall List.not_mem_nil

namespace Sample

/-- One order, manufactured in one run, handed over in the next and shipped. -/
def shippedOrder : Workload := { oneOrder with manufactureRuns := 2, courierRuns := 1 }

theorem shippedOrder_onlyOrders (n : ℕ) : (shippedOrder.clients n).onlyOrders := by
  simp only [shippedOrder, oneOrder]
  split_ifs <;> trivial

/-- The order is made, passed on to the manufacturer and noted as ordered. -/
def ordered : List (Party × Choice) := List.flatten [
  [(.client 0, .goes 0), (.client 0, .goes 101), (.client 0, .goes 0), (.client 0, .goes 0),
    (.workScheduler, .inOrder [101])],
  List.replicate 2 (.workScheduler, .goes 0), List.replicate 3 (.manufacturer 0, .goes 0),
  [(.workScheduler, .goes 0), (.workScheduler, .goes 20000000), (.workScheduler, .goes 0)]]

/-- The first run of the manufacture scheduler, up to its report. -/
def manufactured : List (Party × Choice) := List.flatten [
  List.replicate 4 (.manufactureScheduler, .goes 0), [(.manufactureScheduler, .goes 50)],
  List.replicate 8 (.manufactureScheduler, .goes 0)]

/-- The second run, and the run of the courier with its two calls, which two server
threads accept. -/
def shipped (call : ℤ) (server : ℕ) : List (Party × Choice) := List.flatten [
  List.replicate 6 (.manufactureScheduler, .goes 0),
  List.replicate 4 (.courierScheduler, .goes 0),
  [(.orderServer server, .goes call)], List.replicate 2 (.orderServer server, .goes 0),
  List.replicate 7 (.courierScheduler, .goes 0),
  [(.orderServer (server + 1), .goes (call + 1)), (.orderServer (server + 1), .goes 0),
    (.orderServer (server + 1), .goes 0), (.orderServer (server + 1), .goes 40000000)],
  List.replicate 2 (.orderServer (server + 1), .goes 0)]

end Sample

/-- The report is accepted, so the order has its card when it is shipped. -/
theorem shipped_with_card_reported : ∃ system : System Knowledge,
    system.shared.database.history 101 =
      [.orderCreated, .cardOrdered, .cardCreated, .cardShipped] ∧
    ShippedWithCard system.shared.database 101 := by
  obtain ⟨system, hcheck, hinterleaves⟩ := exists_interleavingWhen .sqlScripts noteCards keepsCards
    (Sample.shippedOrder.start Knowledge.none (World.empty [1]))
    (List.flatten [Sample.ordered, Sample.manufactured,
      [(.manufactureScheduler, .goes 0), (.orderServer 0, .goes 1), (.orderServer 0, .goes 0),
        (.orderServer 0, .goes 0), (.orderServer 0, .goes 30000000), (.orderServer 0, .goes 0),
        (.orderServer 0, .goes 0), (.manufactureScheduler, .goes 0),
        (.manufactureScheduler, .goes 0)],
      Sample.shipped 2 1])
    (fun system => decide (system.shared.database.history 101 =
      [.orderCreated, .cardOrdered, .cardCreated, .cardShipped]))
    (by decide +kernel)
  exact ⟨system, of_decide_eq_true hcheck, shipped_with_card Sample.shippedOrder_onlyOrders
    (cardsAccountedFor_empty [1]) hinterleaves 101⟩

/-- The report fails with an `IOException` and never arrives; the next run of the
manufacture scheduler hands the order over all the same.  Either set of tables will
do. -/
theorem shipped_without_card :
    (∀ n, (Sample.shippedOrder.clients n).onlyOrders) ∧ CardsAccountedFor (World.empty [1]) ∧
    ¬ ∃ schema : Schema, ∀ system : System Unit,
      Interleaves schema (Sample.shippedOrder.start () (World.empty [1])) system →
        system.shared.database.history 101 = [.orderCreated, .cardOrdered, .cardShipped] →
          ShippedWithCard system.shared.database 101 := by
  refine ⟨Sample.shippedOrder_onlyOrders, cardsAccountedFor_empty [1], ?_⟩
  rintro ⟨schema, hall⟩
  obtain ⟨system, hcheck, hinterleaves⟩ := exists_interleaving schema
    (Sample.shippedOrder.start () (World.empty [1]))
    (List.flatten [Sample.ordered, Sample.manufactured, [(.manufactureScheduler, .fails)],
      Sample.shipped 1 0])
    (fun system => decide (system.shared.database.history 101 =
      [.orderCreated, .cardOrdered, .cardShipped] ∧ system.shared.database.cardsOf 101 = []))
    (by obtain ⟨generated⟩ := schema; cases generated <;> decide +kernel)
  obtain ⟨hhistory, hcards⟩ := of_decide_eq_true hcheck
  have hshipped := hall system hinterleaves hhistory
  have hone := hshipped.exactlyOne (Or.inl (by rw [hhistory]; decide))
  rw [hcards] at hone
  cases hone

end EasyTrade.CardOrders

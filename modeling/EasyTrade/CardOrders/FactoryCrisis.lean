import EasyTrade.CardOrders.CreatedCards

/-!
# A crisis in the factory

While the feature flag `factory_crisis` is on, the manufacture scheduler makes no
card: it reports an error for every process and lets it wait.  What has been made
before goes on to the courier and to the client.  Here everything that there is of a
card is traced back to what there was of it when the crisis began.
-/

namespace EasyTrade.CardOrders

open EasyTrade.Program EasyTrade.Interleaving

/-! ## What there is of a card -/

/-- A status that an order has only when its card has been made. -/
def StatusType.isMade : StatusType → Bool
  | cardCreated | cardShipped | cardDelivered => true
  | orderCreated | cardOrdered | cardError | sequenceError => false

/-- The order that a request reports to have its card made. -/
def HttpRequest.made : HttpRequest → Option Guid
  | updateStatus _ body => if body.type.any StatusType.isMade then some body.orderId else none
  | _ => none

/-- The card of an order has been made: the order service has stored it or a status that says
so, the third party has it, or a report of it is under way. -/
inductive Made (world : World) : Guid → Prop
  | card {orderId : Guid} (hcard : world.database.cardsOf orderId ≠ []) : Made world orderId
  | status {orderId : Guid} {type : StatusType} (hhistory : type ∈ world.database.history orderId)
      (htype : type.isMade = true) : Made world orderId
  | manufactured {process : ManufactureProcess}
      (hprocess : process ∈ world.thirdParty.manufacture.elements)
      (hstatus : process.status = .cardCreated) : Made world process.request.creditCardOrderId
  | handedOver {process : CourierProcess}
      (hprocess : process ∈ world.thirdParty.courier.elements) :
      Made world process.creditCardOrderId
  | reported {orderId : Guid} {call : Call} (hcall : call ∈ world.calls)
      (hreport : orderId ∈ call.request.made) : Made world orderId

/-- A query for the feature flag is answered with `false`. -/
def Command.findsNoCrisis : (command : Command) → Except CardException command.Answer → Bool
  | .ambient (.getBooleanValue flag), .ok value => flag = "factory_crisis" && !value
  | _, _ => false

/-- Everything a command may do as long as the crisis lasts. -/
def crisisStep (schema : Schema) : Semantics CardException Command.Answer World :=
  fun command world answer world' =>
    step schema command world answer world' ∧ command.findsNoCrisis answer = false

/-- A client that reports no cards as made. -/
def ClientRequest.reportsNoCard : ClientRequest → Prop
  | updateStatus _ request => ∀ type ∈ request.type, type.isMade = false
  | _ => True

/-! ## What the parties know -/

/-- The orders whose cards a thread has found to be made. -/
def noteMade : Note CardException Command.Answer (List Guid)
  | made, .list (.manufactureNext ..), .ok process =>
      if process.status = .cardCreated then process.request.creditCardOrderId :: made else made
  | made, .list (.courierNext ..), .ok process => process.creditCardOrderId :: made
  | made, .http (.accept _), .ok accepted => accepted.2.made.toList ++ made
  | made, _, _ => made

/-- Nothing is done for a card that has not been found to be made, and none is made. -/
def madeGuard : Command → List Guid → Prop
  | .sql (.insertNewCreditCard orderId _), made => orderId ∈ made
  | .sql (.insertNewStatus orderId type _ _), made => type.isMade = true → orderId ∈ made
  | .list (.setManufactureStatus _ status), _ => status ≠ .cardCreated
  | .list (.addCourierProcess _ orderId), made => orderId ∈ made
  | .http (.send request), made => ∀ orderId ∈ request.made, orderId ∈ made
  | _, _ => True

theorem mem_noteMade {memory : List Guid} {orderId : Guid} (command : Command)
    (answer : Except CardException command.Answer) (hmem : orderId ∈ memory) :
    orderId ∈ noteMade memory command answer := by
  unfold noteMade
  split
  · split_ifs
    · exact List.mem_cons_of_mem _ hmem
    · exact hmem
  · exact List.mem_cons_of_mem _ hmem
  · exact List.mem_append_right _ hmem
  · exact hmem

/-! ## What a command can have made -/

section Commands

variable {schema : Schema} {world world' : World} {memory : List Guid} {orderId : Guid}

/-- A process that an iterator has returned is in its list. -/
theorem mem_of_ofIteration {α : Type} {list : ArrayList α} {cursor expectedModCount : ℕ}
    {element : α} (hnext : .ok element = ofIteration (list.next cursor expectedModCount)) :
    element ∈ list.elements := by
  cases hresult : list.next cursor expectedModCount with
  | ok found =>
      rw [hresult] at hnext
      cases hnext
      exact ArrayList.mem_of_next hresult
  | error error =>
      rw [hresult] at hnext
      cases error <;> cases hnext

/-- A card that a statement has added was the one to be inserted. -/
theorem cardsOf_of_changes {statement : Statement} {returned : Bool}
    {database database' : Database}
    (hchanges : Changes schema database statement returned database')
    (hcards : database'.cardsOf orderId ≠ []) :
    database.cardsOf orderId ≠ [] ∨
      ∃ request, statement = .insertNewCreditCard orderId request := by
  cases hchanges with
  | card =>
      rw [cardsOf_addCard] at hcards
      split_ifs at hcards with hsame
      · subst hsame
        exact Or.inr ⟨_, rfl⟩
      · rw [List.append_nil] at hcards
        exact Or.inl hcards
  | shippingId =>
      rw [Database.cardsOf, cards_updateOrder] at hcards
      exact Or.inl hcards
  | cardsDeleted =>
      rw [Database.cardsOf, AutoTable.rows_delete, List.filter_filter] at hcards
      obtain ⟨card, hcard⟩ := List.exists_mem_of_ne_nil _ hcards
      obtain ⟨hmem, hkept⟩ := List.mem_filter.mp hcard
      refine Or.inl (List.ne_nil_of_mem (List.mem_filter.mpr ⟨hmem, ?_⟩))
      exact (Bool.and_eq_true_iff.mp hkept).1
  | _ => exact Or.inl hcards

/-- A process that has been made after a command was so before, or has just been set to be. -/
theorem manufacture_of_run {command : ListCommand} {thirdParty : ThirdParty}
    {process : ManufactureProcess}
    (hprocess : process ∈ (command.run thirdParty).2.manufacture.elements)
    (hstatus : process.status = .cardCreated) :
    (∃ old ∈ thirdParty.manufacture.elements, old.status = .cardCreated ∧
      old.request = process.request) ∨
      ∃ ref, command = .setManufactureStatus ref .cardCreated := by
  have hchange : ∀ ref (change : ManufactureProcess → ManufactureProcess),
      process ∈ thirdParty.manufacture.elements.map
        (changeAt ManufactureProcess.ref ref change) →
      ∃ old ∈ thirdParty.manufacture.elements, process = old ∨ process = change old := by
    intro ref change hmem
    obtain ⟨old, hold, rfl⟩ := List.mem_map.mp hmem
    refine ⟨old, hold, ?_⟩
    rw [changeAt]
    split_ifs
    · exact Or.inr rfl
    · exact Or.inl rfl
  cases command with
  | setManufactureStatus ref status =>
      obtain ⟨old, hold, rfl | rfl⟩ := hchange ref _ hprocess
      · exact Or.inl ⟨_, hold, hstatus, rfl⟩
      · cases hstatus
        exact Or.inr ⟨ref, rfl⟩
  | setCardDetails ref details =>
      obtain ⟨old, hold, rfl | rfl⟩ := hchange ref _ hprocess
      · exact Or.inl ⟨_, hold, hstatus, rfl⟩
      · exact Or.inl ⟨_, hold, hstatus, rfl⟩
  | addManufactureProcess request =>
      rcases List.mem_append.mp hprocess with hold | hnew
      · exact Or.inl ⟨_, hold, hstatus, rfl⟩
      · rw [List.mem_singleton.mp hnew] at hstatus
        cases hstatus
  | removeManufactureProcess ref =>
      change process ∈ (thirdParty.manufacture.remove _).elements at hprocess
      rw [ArrayList.elements_remove] at hprocess
      exact Or.inl ⟨process, List.mem_of_mem_eraseP hprocess, hstatus, rfl⟩
  | _ => exact Or.inl ⟨process, hprocess, hstatus, rfl⟩

/-- Step lemma.  Whatever there is of a card after a command was there before, or the thread has
found the card to be made. -/
theorem made_of_step {command : Command} {answer : Except CardException command.Answer}
    (hguard : madeGuard command memory) (hstep : step schema command world answer world')
    (hmade : Made world' orderId) : Made world orderId ∨ orderId ∈ memory := by
  cases command with
  | sql statement =>
      obtain ⟨database, hchanges, rfl⟩ := step_sql hstep
      cases hmade with
      | card hcard =>
          rcases cardsOf_of_changes hchanges hcard with hold | ⟨request, rfl⟩
          · exact Or.inl (.card hold)
          · exact Or.inr hguard
      | status hhistory htype =>
          rcases mem_history_of_changes hchanges hhistory with hold | ⟨details, time, rfl⟩
          · exact Or.inl (.status hold htype)
          · exact Or.inr (hguard htype)
      | manufactured hprocess hstatus => exact Or.inl (.manufactured hprocess hstatus)
      | handedOver hprocess => exact Or.inl (.handedOver hprocess)
      | reported hcall hreport => exact Or.inl (.reported hcall hreport)
  | list command =>
      obtain ⟨-, rfl⟩ := step_list hstep
      cases hmade with
      | card hcard => exact Or.inl (.card hcard)
      | status hhistory htype => exact Or.inl (.status hhistory htype)
      | manufactured hprocess hstatus =>
          rcases manufacture_of_run hprocess hstatus with ⟨old, hold, hmade, hsame⟩ | ⟨ref, rfl⟩
          · rw [← hsame]
            exact Or.inl (.manufactured hold hmade)
          · exact absurd rfl hguard
      | handedOver hprocess =>
          rcases courier_of_run hprocess with ⟨old, hold, hsame⟩ | hhanded
          · rw [← hsame]
            exact Or.inl (.handedOver hold)
          · cases command with
            | addCourierProcess cause handed =>
                cases hhanded
                exact Or.inr hguard
            | _ => cases hhanded
      | reported hcall hreport => exact Or.inl (.reported hcall hreport)
  | ambient command =>
      rw [step_ambient hstep] at hmade
      exact Or.inl hmade
  | http command =>
      obtain ⟨choice, calls, hmove, rfl⟩ := step_http hstep
      cases hmade with
      | card hcard => exact Or.inl (.card hcard)
      | status hhistory htype => exact Or.inl (.status hhistory htype)
      | manufactured hprocess hstatus => exact Or.inl (.manufactured hprocess hstatus)
      | handedOver hprocess => exact Or.inl (.handedOver hprocess)
      | reported hcall hreport =>
          rcases calls_of_move hmove hcall with ⟨old, hold, hsame⟩ | rfl
          · rw [← hsame] at hreport
            exact Or.inl (.reported hold hreport)
          · exact Or.inr (hguard orderId hreport)

/-- What a thread finds to be made has been made. -/
theorem made_of_note {command : Command} {answer : Except CardException command.Answer}
    (hstep : step schema command world answer world')
    (hnoted : orderId ∈ noteMade memory command answer) :
    Made world orderId ∨ orderId ∈ memory := by
  unfold noteMade at hnoted
  split at hnoted
  · split_ifs at hnoted with hstatus
    · obtain ⟨hanswer, -⟩ := step_list hstep
      rcases List.mem_cons.mp hnoted with rfl | hold
      · exact Or.inl (.manufactured (mem_of_ofIteration hanswer) hstatus)
      · exact Or.inr hold
    · exact Or.inr hnoted
  · obtain ⟨hanswer, -⟩ := step_list hstep
    rcases List.mem_cons.mp hnoted with rfl | hold
    · exact Or.inl (.handedOver (mem_of_ofIteration hanswer))
    · exact Or.inr hold
  · obtain ⟨choice, calls, hmove, -⟩ := step_http hstep
    rcases List.mem_append.mp hnoted with hreported | hold
    · obtain ⟨call, hcall, hrequest⟩ := mem_calls_of_accept hmove
      refine Or.inl (.reported hcall ?_)
      rw [hrequest]
      exact Option.mem_toList.mp hreported
    · exact Or.inr hold
  · exact Or.inr hnoted

/-- As long as the threads keep to their guards, only cards that had been made are there. -/
theorem guarantees_made (madeBefore : Guid → Prop) :
    Guarantees (crisisStep schema) noteMade
      (fun command _ answer => command.findsNoCrisis answer = false)
      (fun world => ∀ orderId, Made world orderId → madeBefore orderId)
      (fun (_ : Party) _ memory => ∀ orderId ∈ memory, madeBefore orderId)
      (fun _ => madeGuard) := by
  intro party command world memory answer world' hworld hmemory hguard _ hstep
  refine ⟨fun orderId hmade => ?_, fun orderId hnoted => ?_, fun _ _ other hother => hother⟩
  · exact (made_of_step hguard hstep.1 hmade).elim (hworld orderId) (hmemory orderId)
  · exact (made_of_note hstep.1 hnoted).elim (hworld orderId) (hmemory orderId)

end Commands

/-! ## The programs -/

section Programs

/-- As long as the crisis lasts, a program makes no card. -/
abbrev MakesNoCard {α : Type} (task : Task α) (memory : List Guid) : Prop :=
  wp (remembers (fun command _ answer => command.findsNoCrisis answer = false) noteMade)
    madeGuard task (fun _ _ => True) memory

variable {α : Type} {task : Task α} {memory : List Guid} {orderId : Guid}

/-- A program that does nothing about cards. -/
theorem makesNoCard_of_issues
    (hissues : task.Issues fun command => ∀ memory, madeGuard command memory) :
    MakesNoCard task memory :=
  Prog.wp_of_issues hissues fun _ memory hguard => hguard memory

theorem madeGuard_report {id : Guid} {request : StatusRequest}
    (hmade : request.type.any StatusType.isMade = true → request.orderId ∈ memory) :
    madeGuard (.http (.send (.updateStatus id request))) memory := by
  intro reported hreported
  rw [HttpRequest.made] at hreported
  split_ifs at hreported with htype
  · cases hreported
    exact hmade htype
  · cases hreported

theorem madeGuard_request {request : HttpRequest} (hnone : request.made = none) :
    madeGuard (.http (.send request)) memory := by
  intro reported hreported
  rw [hnone] at hreported
  cases hreported

theorem aboutStatuses_noteMade : AboutStatuses noteMade madeGuard where
  ambient _ _ := trivial
  ambient_note _ _ _ := rfl
  read _ _ := trivial
  updateOrder _ _ _ := trivial
  updateOrder_note _ _ _ _ := rfl
  insert_note _ _ _ _ _ _ := rfl

theorem makesNoCard_updateStatus {id : Guid} {request : StatusRequest}
    (hmade : ∀ type ∈ request.type, type.isMade = true → request.orderId ∈ memory) :
    MakesNoCard (OrderController.updateStatus id request) memory := by
  refine wp_updateStatus aboutStatuses_noteMade fun status type _ htype _ => ?_
  have hfound := hmade type htype
  cases type with
  | cardCreated => exact fun card => ⟨hfound rfl, fun _ _ _ => hfound rfl⟩
  | _ => exact fun _ _ => hfound

/-- A server thread has found to be made what has been reported to it. -/
theorem makesNoCard_orderServer : MakesNoCard OrderController.serve memory := by
  refine wp_orderServer trivial (fun _ _ _ => trivial) (fun call id body => ?_) fun id memory =>
    makesNoCard_of_issues (issues_getShippingAddress fun _ => trivial)
  refine makesNoCard_updateStatus fun type htype hmade => List.mem_append_left _ ?_
  have hany : body.type.any StatusType.isMade = true := by
    rw [htype]
    exact hmade
  rw [HttpRequest.made, if_pos hany]
  exact List.mem_singleton.mpr rfl

/-- While the crisis lasts, all there is to do about a process is to report an error. -/
theorem makesNoCard_processIssueAndErrorStatus (process : ManufactureProcess) :
    MakesNoCard (ManufactureScheduler.processIssueAndErrorStatus process) memory := by
  rw [ManufactureScheduler.processIssueAndErrorStatus, MakesNoCard, wp_bind, wp_ambient]
  refine ⟨trivial, fun crisis hcrisis => ?_, fun _ _ => trivial⟩
  obtain rfl : crisis = true := by simpa [Command.findsNoCrisis] using hcrisis
  rw [andThen_ok, if_pos rfl]
  refine makesNoCard_of_issues (Prog.issues_ite (Prog.issues_bind (Prog.issues_perform ?_)
    fun _ => ?_) (Prog.issues_pure ()))
  · exact fun _ heq => by cases heq
  · exact issues_updateStatus (fun _ _ => trivial) (fun _ _ => trivial)
      fun time memory => madeGuard_request rfl

theorem makesNoCard_manufactureProcess (process : ManufactureProcess)
    (hmade : process.status = .cardCreated → process.request.creditCardOrderId ∈ memory) :
    MakesNoCard (ManufactureScheduler.processOne process) memory := by
  rw [ManufactureScheduler.processOne]
  cases hstatus : process.status with
  | issuing | manufactureError =>
      dsimp only
      rw [MakesNoCard, wp_bind]
      refine wp_mono (fun outcome final _ => ?_)
        (makesNoCard_processIssueAndErrorStatus process)
      cases outcome <;> trivial
  | cardCreated =>
      dsimp only
      rw [MakesNoCard, wp_bind, wp_list]
      exact ⟨hmade hstatus, fun _ _ => trivial, fun _ _ => trivial⟩

theorem makesNoCard_manufactureProcesses (expectedModCount left cursor : ℕ) :
    MakesNoCard (ManufactureScheduler.processAll expectedModCount left cursor) memory := by
  induction left generalizing cursor memory with
  | zero =>
      refine makesNoCard_of_issues (Prog.issues_bind (Prog.issues_perform fun _ => trivial)
        fun more => Prog.issues_ite ?_ (Prog.issues_pure []))
      exact Prog.issues_bind (Prog.issues_perform fun _ => trivial) fun _ => Prog.issues_pure []
  | succ left ih =>
      rw [ManufactureScheduler.processAll, MakesNoCard, wp_bind, wp_list]
      refine ⟨trivial, fun more _ => ?_, fun _ _ => trivial⟩
      rw [andThen_ok]
      split_ifs
      · rw [wp_bind, wp_list]
        refine ⟨trivial, fun process _ => ?_, fun _ _ => trivial⟩
        rw [andThen_ok, wp_bind]
        refine wp_mono (fun outcome final _ => ?_)
          (makesNoCard_manufactureProcess process fun hstatus => ?_)
        · cases outcome with
          | error error => trivial
          | ok removed =>
              rw [andThen_ok, wp_bind]
              refine wp_mono (fun outcome final _ => ?_) (ih (cursor + 1))
              cases outcome <;> trivial
        · rw [noteMade, if_pos hstatus]
          exact List.mem_cons_self
      · trivial

theorem makesNoCard_manufactureScheduler : MakesNoCard ManufactureScheduler.run memory := by
  rw [ManufactureScheduler.run, MakesNoCard, wp_tryCatch, wp_bind, wp_list]
  refine ⟨trivial, fun iterator _ => ?_, fun _ _ => trivial⟩
  rw [andThen_ok, wp_bind]
  refine wp_mono (fun outcome final _ => ?_) (makesNoCard_manufactureProcesses _ _ _)
  cases outcome with
  | error error => trivial
  | ok removed =>
      refine wp_mono (fun outcome final _ => ?_) (makesNoCard_of_issues
        (Prog.issues_forM (fun process => Prog.issues_perform fun _ => trivial) removed))
      cases outcome <;> trivial

/-- The courier only acts on an order when its card has been found to be made. -/
theorem issues_courierProcess (process : CourierProcess) :
    (CourierScheduler.processOne process).Issues fun command =>
      ∀ memory, process.creditCardOrderId ∈ memory → madeGuard command memory := by
  have hreport : ∀ status details,
      (ServiceHelper.updateStatus status process.creditCardOrderId details).Issues fun command =>
        ∀ memory, process.creditCardOrderId ∈ memory → madeGuard command memory :=
    fun status details => issues_updateStatus (fun _ _ _ => trivial) (fun _ _ _ => trivial)
      fun time memory hmade => madeGuard_report fun _ => hmade
  rw [CourierScheduler.processOne]
  cases process.status with
  | newCardReceived =>
      refine Prog.issues_bind (Prog.issues_bind ?_ fun address => ?_) fun _ => Prog.issues_pure []
      · refine Prog.issues_bind (issues_httpCall (fun _ _ => madeGuard_request rfl)
          fun _ _ _ => trivial) fun response => Prog.issues_ite ?_ (Prog.issues_pure none)
        cases response.results with
        | shippingAddress address => exact Prog.issues_pure (some address)
        | _ => exact Prog.issues_throw CardException.illegalArgument
      · cases address with
        | none => exact Prog.issues_pure ()
        | some address =>
            exact Prog.issues_bind (Prog.issues_perform fun _ _ => trivial) fun _ =>
              Prog.issues_bind (Prog.issues_perform fun _ _ => trivial) fun _ =>
                Prog.issues_bind (Prog.issues_perform fun _ _ => trivial) fun _ =>
                  Prog.issues_bind (Prog.issues_perform fun _ _ => trivial) fun _ =>
                    hreport _ _
  | cardSent =>
      exact Prog.issues_bind (Prog.issues_bind (Prog.issues_perform fun _ _ => trivial) fun _ =>
        hreport _ _) fun _ => Prog.issues_pure []
  | cardDelivered => exact Prog.issues_pure [process]

theorem makesNoCard_courierProcesses (expectedModCount left cursor : ℕ) :
    MakesNoCard (CourierScheduler.processAll expectedModCount left cursor) memory := by
  induction left generalizing cursor memory with
  | zero =>
      refine makesNoCard_of_issues (Prog.issues_bind (Prog.issues_perform fun _ => trivial)
        fun more => Prog.issues_ite ?_ (Prog.issues_pure []))
      exact Prog.issues_bind (Prog.issues_perform fun _ => trivial) fun _ => Prog.issues_pure []
  | succ left ih =>
      rw [CourierScheduler.processAll, MakesNoCard, wp_bind, wp_list]
      refine ⟨trivial, fun more _ => ?_, fun _ _ => trivial⟩
      rw [andThen_ok]
      split_ifs
      · rw [wp_bind, wp_list]
        refine ⟨trivial, fun process _ => ?_, fun _ _ => trivial⟩
        rw [andThen_ok, wp_bind]
        refine wp_mono (fun outcome final _ => ?_) (Prog.wp_of_issues_invariant
          (issues_courierProcess process) (fun _ memory hguard => hguard memory)
          (fun command memory answer memory' _ hmem hstep => ?_) List.mem_cons_self)
        · cases outcome with
          | error error => trivial
          | ok removed =>
              rw [andThen_ok, wp_bind]
              refine wp_mono (fun outcome final _ => ?_) (ih (cursor + 1))
              cases outcome <;> trivial
        · rw [hstep.2]
          exact mem_noteMade command answer hmem
      · trivial

theorem makesNoCard_courierScheduler : MakesNoCard CourierScheduler.run memory := by
  rw [CourierScheduler.run, MakesNoCard, wp_tryCatch, wp_bind, wp_list]
  refine ⟨trivial, fun iterator _ => ?_, fun _ _ => trivial⟩
  rw [andThen_ok, wp_bind]
  refine wp_mono (fun outcome final _ => ?_) (makesNoCard_courierProcesses _ _ _)
  cases outcome with
  | error error => trivial
  | ok removed =>
      refine wp_mono (fun outcome final _ => ?_) (makesNoCard_of_issues
        (Prog.issues_forM (fun process => Prog.issues_perform fun _ => trivial) removed))
      cases outcome <;> trivial

theorem makesNoCard_client {request : ClientRequest} (hrequest : request.reportsNoCard) :
    MakesNoCard request.serve memory := by
  cases request with
  | nothing => trivial
  | createCreditCardOrder request =>
      exact makesNoCard_of_issues (Prog.issues_bind (issues_createCreditCardOrder
        (fun _ _ => trivial) (fun _ => trivial) (fun _ => trivial)
        fun _ _ _ _ htype => by cases htype) fun _ => trivial)
  | updateStatus id request =>
      rw [ClientRequest.serve, MakesNoCard, wp_bind]
      refine wp_mono (fun outcome final _ => ?_)
        (makesNoCard_updateStatus fun type htype hmade => ?_)
      · cases outcome <;> trivial
      · rw [hrequest type htype] at hmade
        cases hmade
  | deleteOrder accountId =>
      exact makesNoCard_of_issues (Prog.issues_bind (issues_deleteOrder (fun _ => trivial)
        (fun _ => trivial) fun _ => trivial) fun _ => trivial)
  | getLatestStatus accountId =>
      exact makesNoCard_of_issues
        (Prog.issues_bind (issues_getLatestStatus fun _ => trivial) fun _ => trivial)

theorem makesNoCard_program {workload : Workload}
    (hclients : ∀ n, (workload.clients n).reportsNoCard) (party : Party) :
    MakesNoCard (workload.program party) memory := by
  cases party with
  | client n => exact makesNoCard_client (hclients n)
  | orderServer n => exact makesNoCard_orderServer
  | manufacturer n =>
      exact makesNoCard_of_issues (issues_manufacturerController (fun _ _ => trivial)
        (fun _ _ => trivial) fun _ _ _ => trivial)
  | workScheduler =>
      refine makesNoCard_of_issues (issues_repeated ?_ _)
      exact issues_workScheduler (fun _ _ => trivial) (fun _ => trivial) (fun _ _ => trivial)
        (fun _ _ => madeGuard_request rfl) (fun _ _ => trivial)
        fun _ _ _ _ htype => by cases htype
  | manufactureScheduler =>
      exact wp_repeated (fun _ => True) (fun _ _ => makesNoCard_manufactureScheduler) _ trivial
  | courierScheduler =>
      exact wp_repeated (fun _ => True) (fun _ _ => makesNoCard_courierScheduler) _ trivial

end Programs

/-! ## The system -/

/-- A crisis in the factory makes no cards.  In every interleaving of clients, servers and
schedulers in which the feature flag is found to be on, an order whose card had not been made
when the crisis began has no card, no status that says so, no process with the courier and no report
under way as long as the crisis lasts. -/
theorem crisis_makes_no_cards {schema : Schema} {workload : Workload} {world : World}
    {system : System Unit} (hclients : ∀ n, (workload.clients n).reportsNoCard)
    (hreaches : ReachesWhen (crisisStep schema) (fun _ _ _ => ()) (fun _ _ _ => True)
      (workload.start () world) system) {orderId : Guid} (hbefore : ¬ Made world orderId) :
    ¬ Made system.shared orderId := by
  obtain ⟨noted, rfl, hnoted⟩ := exists_noted noteMade
    (fun command _ answer => command.findsNoCrisis answer = false)
    (fun _ _ _ _ _ hstep => hstep.2) (workload.start [] world) hreaches
  have hstart : Upheld (fun command _ answer => command.findsNoCrisis answer = false) noteMade
      (fun world' => ∀ orderId, Made world' orderId → Made world orderId)
      (fun (_ : Party) _ memory => ∀ orderId ∈ memory, Made world orderId) (fun _ => madeGuard)
      (workload.start [] world) :=
    ⟨fun _ => id, fun _ => List.forall_mem_nil _, fun party => makesNoCard_program hclients party⟩
  have hupheld := hstart.reaches (fun _ _ _ _ => id) (guarantees_made _) hnoted
  exact fun hmade => hbefore (hupheld.shared orderId hmade)

theorem not_made_empty (accounts : List ℤ) (orderId : Guid) :
    ¬ Made (World.empty accounts) orderId := by
  intro hmade
  cases hmade with
  | card hcard => exact hcard rfl
  | status hhistory htype => exact List.not_mem_nil hhistory
  | manufactured hprocess hstatus => exact List.not_mem_nil hprocess
  | handedOver hprocess => exact List.not_mem_nil hprocess
  | reported hcall hreport => exact List.not_mem_nil hcall

/-- A choice for a command, refused when it would end the crisis. -/
def crisisMove (schema : Schema) (command : Command) (choice : Choice) (world : World) :
    Option (Except CardException command.Answer × World) :=
  (command.move schema choice world).filter fun result => !command.findsNoCrisis result.1

theorem crisisStep_of_move {schema : Schema} (command : Command) (choice : Choice)
    (world : World) (answer : Except CardException command.Answer) (world' : World)
    (hmove : crisisMove schema command choice world = some (answer, world')) :
    crisisStep schema command world answer world' := by
  obtain ⟨hresult, hcrisis⟩ := Option.filter_eq_some_iff.mp hmove
  exact ⟨⟨choice, hresult⟩, by simpa using hcrisis⟩

/-- The order is passed on to the manufacturer, who reports the crisis. -/
theorem crisis_makes_no_cards_reported : ∃ system : System Unit,
    system.shared.database.history 101 = [.orderCreated, .cardOrdered, .cardError] ∧
    ¬ Made system.shared 101 := by
  obtain ⟨system, hcheck, hreaches⟩ := exists_reachesWhen (@crisisStep_of_move .dump)
    (fun _ _ _ => ()) (fun _ _ _ => True) (Sample.oneOrder.start () (World.empty [1]))
    (List.flatten [Sample.ordered,
      List.replicate 3 (.manufactureScheduler, .goes 0), [(.manufactureScheduler, .goes 1)],
      List.replicate 3 (.manufactureScheduler, .goes 0),
      [(.orderServer 0, .goes 1), (.orderServer 0, .goes 0), (.orderServer 0, .goes 30000000),
        (.orderServer 0, .goes 0), (.orderServer 0, .goes 0)]])
    (fun system => decide (system.shared.database.history 101 =
      [.orderCreated, .cardOrdered, .cardError]))
    (by decide +kernel)
  have hclients : ∀ n, (Sample.oneOrder.clients n).reportsNoCard := by
    intro n
    rw [Sample.oneOrder]
    dsimp only
    split_ifs <;> trivial
  exact ⟨system, of_decide_eq_true hcheck,
    crisis_makes_no_cards hclients hreaches (not_made_empty [1] 101)⟩

end EasyTrade.CardOrders

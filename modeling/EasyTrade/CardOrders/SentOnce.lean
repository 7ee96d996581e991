import EasyTrade.Core.Ownership
import EasyTrade.CardOrders.HandOver
import EasyTrade.CardOrders.StatusHistory

/-!
# Orders are sent to the manufacturer once

A run of the work scheduler sends every order that stands at `ORDER_CREATED` to the
manufacturer and then notes it as `CARD_ORDERED`.  The request and the note are effects on
two systems: when the run fails between them, the next run sends the order again.
-/

namespace EasyTrade.CardOrders

open EasyTrade.Program EasyTrade.Interleaving

/-! ## What happens and what is remembered -/

/-- What the tables and lists do not tell any more.  The services keep no such record. -/
structure Log where
  /-- The orders that have been inserted. -/
  created : List Guid
  /-- Those whose first status has been inserted. -/
  begun : List Guid
  /-- The orders for which a process has been added to the manufacture list. -/
  manufactured : List Guid

/-- The orders that have a status already, and nothing manufactured yet. -/
def Log.start (world : World) : Log where
  created := world.database.statuses.rows.map CreditCardOrderStatus.creditCardOrderId
  begun := world.database.statuses.rows.map CreditCardOrderStatus.creditCardOrderId
  manufactured := []

def noteLog : Note CardException Command.Answer Log
  | log, .sql (.insertNewOrder _), .ok guid => { log with created := guid :: log.created }
  | log, .sql (.insertNewStatus orderId .orderCreated _ _), .ok _ =>
      { log with begun := orderId :: log.begun }
  | log, .list (.addManufactureProcess request), .ok _ =>
      { log with manufactured := request.creditCardOrderId :: log.manufactured }
  | log, _, _ => log

/-- A command after which a run of the work scheduler does not note the order that it has
sent: it throws, or the response is not that of the manufacturer. -/
def Command.breaksOff : (command : Command) → Except CardException command.Answer → Bool
  | .http (.await _), .ok (.standard response) => decide (response.statusCode ≠ 200)
  | .http (.await _), .ok .failure => true
  | _, .ok _ => false
  | _, .error _ => true

/-- What a thread knows of orders. -/
structure Notes where
  /-- The order that it has inserted without a status. -/
  creating : Option Guid
  /-- The orders that a run of the work scheduler is still to send. -/
  toSend : List Guid
  /-- The order that comes next, and the body of its request. -/
  ready : Option (Guid × ManufactureRequest)
  /-- The order that has been sent and not been noted. -/
  pending : Option Guid
  /-- The order of a request that it has accepted, before its process is added. -/
  serving : Option Guid

def Notes.empty : Notes := ⟨none, [], none, none, none⟩

/-- The order is not pending any more. -/
def Notes.settled (notes : Notes) (orderId : Guid) : Notes :=
  if notes.pending = some orderId then { notes with pending := none } else notes

def noteSending : Note CardException Command.Answer Notes
  | notes, .sql (.insertNewOrder _), .ok guid => { notes with creating := some guid }
  | notes, .sql (.insertNewStatus _ .orderCreated _ _), .ok _ => { notes with creating := none }
  | notes, .sql (.insertNewStatus orderId .cardOrdered _ _), .ok _ => notes.settled orderId
  | notes, .sql .getOrderIdsWithStatusOrderCreated, .ok ids =>
      { notes with toSend := ids, ready := none }
  | notes, .sql (.getCreditCardManufactureData orderId), .ok body =>
      { notes with toSend := notes.toSend.erase orderId, ready := body.map (orderId, ·) }
  | notes, .http (.send (.issueCreditCard (some _))), .ok _ =>
      { notes with ready := none, pending := notes.ready.map Prod.fst }
  | notes, .http (.accept _), .ok (_, .issueCreditCard (some body)) =>
      { notes with serving := some body.creditCardOrderId }
  | notes, .list (.addManufactureProcess _), .ok _ => { notes with serving := none }
  | notes, command, answer =>
      if command.breaksOff answer then { notes with pending := none } else notes

/-- The id of a new order. -/
def Command.drawnId : (command : Command) → Except CardException command.Answer → Option Guid
  | .sql (.insertNewOrder _), .ok guid => some guid
  | _, _ => none

/-- The status of the order that comes last is `ORDER_CREATED`. -/
def Database.StandsAtCreated (database : Database) (orderId : Guid) : Prop :=
  (database.history orderId).getLast? = some .orderCreated

instance (database : Database) (orderId : Guid) : Decidable (database.StandsAtCreated orderId) :=
  inferInstanceAs (Decidable ((database.history orderId).getLast? = some .orderCreated))

/-- Nothing fails while an order that has been sent is not yet noted and still stands at
`ORDER_CREATED`; and no UUID is drawn twice. -/
def notesWhatItSends : Condition CardException Command.Answer ((World × Log) × Notes) :=
  fun command start answer =>
    (∀ orderId ∈ start.2.pending, start.1.1.database.StandsAtCreated orderId →
      command.breaksOff answer = false) ∧
      ∀ guid ∈ command.drawnId answer, guid ∉ start.1.2.created

instance (command : Command) (start : (World × Log) × Notes)
    (answer : Except CardException command.Answer) :
    Decidable (notesWhatItSends command start answer) :=
  inferInstanceAs (Decidable ((∀ orderId ∈ start.2.pending,
    start.1.1.database.StandsAtCreated orderId → command.breaksOff answer = false) ∧
      ∀ guid ∈ command.drawnId answer, guid ∉ start.1.2.created))

/-! ## Requests under way -/

/-- The order that a call is to have manufactured. -/
def Call.orderId (call : Call) : Option Guid :=
  match call.request with
  | .issueCreditCard (some body) => some body.creditCardOrderId
  | _ => none

def sentAt (calls : List Call) (n : ℕ) : Option Guid := calls[n]?.bind Call.orderId

/-- The order of a call that has been accepted. -/
def Call.takenOrderId (call : Call) : Option Guid := if call.accepted then call.orderId else none

def takenAt (calls : List Call) (n : ℕ) : Option Guid := calls[n]?.bind Call.takenOrderId

def Sent (calls : List Call) (orderId : Guid) : Prop := ∃ n, sentAt calls n = some orderId

def Taken (calls : List Call) (orderId : Guid) : Prop := ∃ n, takenAt calls n = some orderId

section Calls

variable {calls calls' : List Call} {choice : Choice}

theorem Call.takenOrderId_eq {call : Call} {orderId : Guid} :
    call.takenOrderId = some orderId ↔ call.accepted = true ∧ call.orderId = some orderId := by
  rw [Call.takenOrderId]
  split_ifs with haccepted
  · exact ⟨fun horder => ⟨haccepted, horder⟩, And.right⟩
  · exact iff_of_false nofun fun h => haccepted h.1

theorem sentAt_of_takenAt {n : ℕ} {orderId : Guid} (htaken : takenAt calls n = some orderId) :
    sentAt calls n = some orderId := by
  obtain ⟨call, hcall, horder⟩ := Option.bind_eq_some_iff.mp htaken
  exact Option.bind_eq_some_iff.mpr ⟨call, hcall, (Call.takenOrderId_eq.mp horder).2⟩

/-- Accepting a call or answering it leaves its request. -/
theorem sentAt_modify (index : ℕ) {update : Call → Call}
    (hrequest : ∀ call, (update call).request = call.request) :
    sentAt (calls.modify index update) = sentAt calls := by
  funext n
  rw [sentAt, sentAt, List.getElem?_modify]
  cases calls[n]? with
  | none => rfl
  | some call =>
      change (if index = n then update call else call).orderId = call.orderId
      split_ifs
      · rw [Call.orderId, Call.orderId, hrequest]
      · rfl

theorem takenAt_modify (index : ℕ) {update : Call → Call}
    (hrequest : ∀ call, (update call).request = call.request)
    (haccepted : ∀ call, call.accepted = true → (update call).accepted = true) {n : ℕ}
    {orderId : Guid} (htaken : takenAt calls n = some orderId) :
    takenAt (calls.modify index update) n = some orderId := by
  obtain ⟨call, hcall, horder⟩ := Option.bind_eq_some_iff.mp htaken
  rw [takenAt, List.getElem?_modify, hcall]
  change (if index = n then update call else call).takenOrderId = some orderId
  split_ifs
  · obtain ⟨htrue, horder⟩ := Call.takenOrderId_eq.mp horder
    refine Call.takenOrderId_eq.mpr ⟨haccepted call htrue, ?_⟩
    rw [Call.orderId, hrequest]
    exact horder
  · exact horder

theorem sentAt_append (call : Call) (n : ℕ) :
    sentAt (calls ++ [call]) n = if n = calls.length then call.orderId else sentAt calls n := by
  rw [sentAt, sentAt]
  rcases lt_trichotomy n calls.length with hlt | heq | hgt
  · rw [List.getElem?_append_left hlt, if_neg hlt.ne]
  · rw [heq, List.getElem?_concat_length, if_pos rfl]
    rfl
  · rw [if_neg hgt.ne', List.getElem?_eq_none (by simpa using hgt), List.getElem?_eq_none hgt.le]

/-- A request to manufacture a card for an order. -/
def HttpCommand.sends (orderId : Guid) : HttpCommand → Prop
  | .send (.issueCreditCard (some body)) => body.creditCardOrderId = orderId
  | _ => False

/-- Only a request that has just been sent is new. -/
theorem sentAt_of_change {command : HttpCommand} {answer : Except CardException command.Answer}
    (hchange : CallsChange calls command answer calls') (n : ℕ) :
    sentAt calls' n = sentAt calls n ∨ n = calls.length ∧ sentAt calls n = none ∧
      ∃ orderId, sentAt calls' n = some orderId ∧ command.sends orderId ∧ answer.isOk = true := by
  cases hchange with
  | fails | answered => exact .inl rfl
  | accepted | replied =>
      left
      rw [sentAt_modify]
      exact fun _ => rfl
  | sent request =>
      have hnone : sentAt calls calls.length = none := by
        rw [sentAt, List.getElem?_eq_none le_rfl]
        rfl
      rw [sentAt_append]
      split_ifs with hn
      · rw [hn, hnone]
        cases request with
        | issueCreditCard body =>
            cases body with
            | none => exact .inl rfl
            | some body => exact .inr ⟨rfl, rfl, body.creditCardOrderId, rfl, rfl, rfl⟩
        | _ => exact .inl rfl
      · exact .inl rfl

theorem takenAt_of_change {command : HttpCommand} {answer : Except CardException command.Answer}
    (hchange : CallsChange calls command answer calls') {n : ℕ} {orderId : Guid}
    (htaken : takenAt calls n = some orderId) : takenAt calls' n = some orderId := by
  cases hchange with
  | fails | answered => exact htaken
  | accepted =>
      refine takenAt_modify _ ?_ ?_ htaken
      · exact fun _ => rfl
      · exact fun _ _ => rfl
  | replied =>
      refine takenAt_modify _ ?_ ?_ htaken
      · exact fun _ => rfl
      · exact fun _ haccepted => haccepted
  | sent request =>
      obtain ⟨call, hcall, horder⟩ := Option.bind_eq_some_iff.mp htaken
      have hn := (List.getElem?_eq_some_iff.mp hcall).1
      rw [takenAt, List.getElem?_append_left hn, hcall]
      exact horder

/-- A call that is accepted has not been accepted before. -/
theorem takenAt_of_accept {service : Service} {accepted : ℕ × HttpRequest}
    {body : ManufactureRequest} (hbody : accepted.2 = .issueCreditCard (some body))
    (hchange : CallsChange calls (.accept service) (.ok accepted) calls') :
    sentAt calls accepted.1 = some body.creditCardOrderId ∧ takenAt calls accepted.1 = none ∧
      takenAt calls' accepted.1 = some body.creditCardOrderId := by
  cases hchange with
  | @accepted _ n call hcall hservice hfree =>
      have hrequest : call.request = .issueCreditCard (some body) := hbody
      have horder : call.orderId = some body.creditCardOrderId := by rw [Call.orderId, hrequest]
      refine ⟨?_, ?_, ?_⟩
      · rw [sentAt, hcall]
        exact horder
      · rw [takenAt, hcall]
        change call.takenOrderId = none
        rw [Call.takenOrderId, hfree]
        rfl
      · rw [takenAt, List.getElem?_modify_eq, hcall]
        exact horder

end Calls

/-! ## What is true at any time -/

/-- No order has been sent twice, and none is manufactured but by a call that has been
accepted. -/
structure Accounted (world : World) (log : Log) : Prop where
  once : ∀ n m orderId, sentAt world.calls n = some orderId →
    sentAt world.calls m = some orderId → n = m
  nodup : log.manufactured.Nodup
  taken : ∀ orderId ∈ log.manufactured, Taken world.calls orderId
  sent : ∀ orderId, Sent world.calls orderId → orderId ∈ log.begun
  first : ∀ orderId, .orderCreated ∈ world.database.history orderId → orderId ∈ log.begun
  begun : ∀ orderId ∈ log.begun, orderId ∈ log.created

/-- What every thread may rely on. -/
structure Notes.Holds (notes : Notes) (world : World) (log : Log) : Prop where
  creating : ∀ orderId ∈ notes.creating, orderId ∈ log.created ∧ orderId ∉ log.begun
  serving : ∀ orderId ∈ notes.serving, Taken world.calls orderId ∧ orderId ∉ log.manufactured

/-- The orders that are still to be sent. -/
def Notes.unsent (notes : Notes) : List Guid :=
  (notes.ready.map Prod.fst).toList ++ notes.toSend

/-- What the work scheduler may rely on. -/
structure Notes.Sends (notes : Notes) (world : World) (log : Log) : Prop where
  pending : ∀ orderId, Sent world.calls orderId → world.database.StandsAtCreated orderId →
    notes.pending = some orderId
  body : ∀ next ∈ notes.ready, next.2.creditCardOrderId = next.1
  nodup : notes.unsent.Nodup
  unsent : ∀ orderId ∈ notes.unsent, orderId ∈ log.begun ∧ ¬Sent world.calls orderId

/-- Two threads hold different orders. -/
def Notes.Apart (notes other : Notes) : Prop :=
  (∀ orderId ∈ notes.creating, orderId ∉ other.creating) ∧
    ∀ orderId ∈ notes.serving, orderId ∉ other.serving

theorem Notes.Apart.symm {notes other : Notes} (hapart : notes.Apart other) :
    other.Apart notes :=
  ⟨fun orderId hother hown => hapart.1 orderId hown hother,
    fun orderId hother hown => hapart.2 orderId hown hother⟩

/-- A change that has nothing to do with any of this. -/
structure Unrelated (world : World) (log : Log) (world' : World) (log' : Log) : Prop where
  sent : ∀ n, sentAt world'.calls n = sentAt world.calls n
  taken : ∀ n orderId, takenAt world.calls n = some orderId →
    takenAt world'.calls n = some orderId
  stands : ∀ orderId, world'.database.StandsAtCreated orderId →
    world.database.StandsAtCreated orderId
  first : ∀ orderId, .orderCreated ∈ world'.database.history orderId →
    .orderCreated ∈ world.database.history orderId
  created : log.created ⊆ log'.created
  begun : log'.begun = log.begun
  manufactured : log'.manufactured = log.manufactured

section Unrelated

variable {world world' : World} {log log' : Log} {notes : Notes}

theorem Unrelated.refl (world : World) (log : Log) : Unrelated world log world log :=
  ⟨fun _ => rfl, fun _ _ h => h, fun _ h => h, fun _ h => h, fun _ h => h, rfl, rfl⟩

theorem Unrelated.sent_iff (hunrelated : Unrelated world log world' log') (orderId : Guid) :
    Sent world'.calls orderId ↔ Sent world.calls orderId :=
  exists_congr fun n => by rw [hunrelated.sent n]

theorem Unrelated.taken_of_taken (hunrelated : Unrelated world log world' log') {orderId : Guid}
    (htaken : Taken world.calls orderId) : Taken world'.calls orderId := by
  obtain ⟨n, hn⟩ := htaken
  exact ⟨n, hunrelated.taken n orderId hn⟩

theorem Unrelated.accounted (hunrelated : Unrelated world log world' log')
    (h : Accounted world log) : Accounted world' log' where
  once n m orderId hn hm := h.once n m orderId (hunrelated.sent n ▸ hn) (hunrelated.sent m ▸ hm)
  nodup := hunrelated.manufactured ▸ h.nodup
  taken orderId hmem := hunrelated.taken_of_taken (h.taken orderId (hunrelated.manufactured ▸ hmem))
  sent orderId hsent := hunrelated.begun ▸ h.sent orderId ((hunrelated.sent_iff orderId).mp hsent)
  first orderId hfirst := hunrelated.begun ▸ h.first orderId (hunrelated.first orderId hfirst)
  begun orderId hbegun := hunrelated.created (h.begun orderId (hunrelated.begun ▸ hbegun))

theorem Unrelated.holds (hunrelated : Unrelated world log world' log') (h : notes.Holds world log) :
    notes.Holds world' log' where
  creating orderId hcreating := by
    obtain ⟨hcreated, hbegun⟩ := h.creating orderId hcreating
    exact ⟨hunrelated.created hcreated, hunrelated.begun ▸ hbegun⟩
  serving orderId hserving := by
    obtain ⟨htaken, hmanufactured⟩ := h.serving orderId hserving
    exact ⟨hunrelated.taken_of_taken htaken, hunrelated.manufactured ▸ hmanufactured⟩

theorem Unrelated.sends (hunrelated : Unrelated world log world' log') (h : notes.Sends world log) :
    notes.Sends world' log' where
  pending orderId hsent hstands :=
    h.pending orderId ((hunrelated.sent_iff orderId).mp hsent) (hunrelated.stands orderId hstands)
  body := h.body
  nodup := h.nodup
  unsent orderId horder := by
    obtain ⟨hbegun, hunsent⟩ := h.unsent orderId horder
    exact ⟨hunrelated.begun ▸ hbegun, fun hsent => hunsent ((hunrelated.sent_iff orderId).mp hsent)⟩

/-- No order gets its first status. -/
theorem unrelated_of_history {database : Database}
    (hhistory : ∀ orderId, database.history orderId = world.database.history orderId)
    (hcreated : log.created ⊆ log'.created) (hbegun : log'.begun = log.begun)
    (hmanufactured : log'.manufactured = log.manufactured) :
    Unrelated world log { world with database } log' where
  sent _ := rfl
  taken _ _ htaken := htaken
  stands orderId hstands := by
    have hstands : (database.history orderId).getLast? = some .orderCreated := hstands
    rwa [hhistory] at hstands
  first orderId hfirst := by
    have hfirst : .orderCreated ∈ database.history orderId := hfirst
    rwa [hhistory] at hfirst
  created := hcreated
  begun := hbegun
  manufactured := hmanufactured

/-- A status that comes later. -/
theorem unrelated_withStatus {orderId : Guid} {type : StatusType} (details : String)
    (time : LocalDateTime) (htype : type ≠ .orderCreated) :
    Unrelated world log { world with database := (world.database.addStatus
      (type.row orderId details time) (type.row_id orderId details time)) } log where
  sent _ := rfl
  taken _ _ htaken := htaken
  stands other hstands := by
    rw [Database.StandsAtCreated, history_addStatus] at hstands
    split_ifs at hstands
    · rw [List.getLast?_concat] at hstands
      exact absurd (Option.some.inj hstands) htype
    · rwa [List.append_nil] at hstands
  first other hfirst := by
    rw [history_addStatus] at hfirst
    rcases List.mem_append.mp hfirst with hold | hnew
    · exact hold
    · split_ifs at hnew
      · exact absurd (List.mem_singleton.mp hnew).symm htype
      · cases hnew
  created := List.Subset.refl _
  begun := rfl
  manufactured := rfl

theorem unrelated_withoutStatuses (deleted : Option Guid) :
    Unrelated world log { world with database := { world.database with
      statuses := world.database.statuses.delete (some ·.creditCardOrderId = deleted) } } log where
  sent _ := rfl
  taken _ _ htaken := htaken
  stands orderId hstands := by
    rw [Database.StandsAtCreated, history_delete] at hstands
    split_ifs at hstands
    · cases hstands
    · exact hstands
  first orderId hfirst := by
    rw [history_delete] at hfirst
    split_ifs at hfirst
    · cases hfirst
    · exact hfirst
  created := List.Subset.refl _
  begun := rfl
  manufactured := rfl

end Unrelated

/-- A command that inserts a first status, sends an order or adds a process. -/
def Command.counts : Command → Bool
  | .sql (.insertNewStatus _ .orderCreated _ _) => true
  | .list (.addManufactureProcess _) => true
  | .http (.send (.issueCreditCard (some _))) => true
  | _ => false

section Steps

variable {schema : Schema} {world world' : World} {log : Log} {notes : Notes}

theorem unrelated_of_sql {statement : Statement} {value : statement.Answer} {database : Database}
    (hcounts : (Command.sql statement).counts = false)
    (hchanges : Changes schema world.database statement true database) :
    Unrelated world log { world with database } (noteLog log (.sql statement) (.ok value)) := by
  cases hchanges with
  | nothing hnothing =>
      cases statement with
      | insertNewOrder | insertNewStatus => rcases hnothing with h | h <;> cases h
      | _ => exact .refl world log
  | order hnew haccount =>
      exact unrelated_of_history (fun _ => rfl) (List.subset_cons_self _ _) rfl rfl
  | @status orderId type details time horder =>
      have htype : type ≠ .orderCreated := fun h => by subst h; cases hcounts
      have hlog : noteLog log (.sql (.insertNewStatus orderId type details time)) (.ok value) =
          log := by
        cases type <;> first | rfl | exact absurd rfl htype
      rw [hlog]
      exact unrelated_withStatus details time htype
  | card =>
      exact unrelated_of_history (fun _ => rfl) (List.Subset.refl _) rfl rfl
  | shippingId =>
      refine unrelated_of_history (fun orderId => ?_) (List.Subset.refl _) rfl rfl
      rw [Database.history, Database.statusesOf, statuses_updateOrder]
      rfl
  | statusesDeleted => exact unrelated_withoutStatuses _
  | cardsDeleted | ordersDeleted =>
      exact unrelated_of_history (fun _ => rfl) (List.Subset.refl _) rfl rfl

variable (log) in
theorem unrelated_of_step {command : Command} {answer : Except CardException command.Answer}
    (hcounts : command.counts = false ∨ answer.isOk = false)
    (hstep : step schema command world answer world') :
    Unrelated world log world' (noteLog log command answer) := by
  cases command with
  | sql statement =>
      cases answer with
      | error error =>
          obtain ⟨-, rfl⟩ := error_of_step_sql hstep
          have hlog : noteLog log (.sql statement) (.error error) = log := by
            cases statement with
            | insertNewStatus orderId type => cases type <;> rfl
            | _ => rfl
          rw [hlog]
          exact .refl world' log
      | ok value =>
          obtain ⟨database, hchanges, rfl⟩ := step_sql hstep
          exact unrelated_of_sql (hcounts.resolve_right nofun) hchanges
  | list command =>
      obtain ⟨rfl, rfl⟩ := step_list hstep
      have hlog : noteLog log (.list command) (command.run world.thirdParty).1 = log := by
        cases command with
        | addManufactureProcess => rcases hcounts with h | h <;> cases h
        | _ => rfl
      rw [hlog]
      exact ⟨fun _ => rfl, fun _ _ h => h, fun _ h => h, fun _ h => h, List.Subset.refl _, rfl, rfl⟩
  | ambient command =>
      rw [step_ambient hstep]
      exact .refl world log
  | http command =>
      obtain ⟨choice, calls, hmove, rfl⟩ := step_http hstep
      have hchange := CallsChange.of_move hmove
      refine ⟨fun n => ?_, fun n orderId => takenAt_of_change hchange, fun _ h => h, fun _ h => h,
        List.Subset.refl _, rfl, rfl⟩
      rcases sentAt_of_change hchange n with hsame | ⟨-, -, orderId, -, hsends, hok⟩
      · exact hsame
      · refine absurd hcounts (not_or.mpr ⟨?_, by rw [hok]; exact nofun⟩)
        cases command with
        | send request =>
            cases request with
            | issueCreditCard body =>
                cases body with
                | none => exact hsends.elim
                | some body => exact nofun
            | _ => exact hsends.elim
        | _ => exact hsends.elim

/-! ### What the thread itself knows after a command -/

/-- When a thread may issue a command. -/
def sendingGuard (party : Party) : Command → Notes → Prop
  | .sql (.insertNewStatus orderId .orderCreated _ _), notes => notes.creating = some orderId
  | .sql .getOrderIdsWithStatusOrderCreated, notes => notes.pending = none
  | .sql (.getCreditCardManufactureData orderId), notes =>
      party = .workScheduler → orderId ∈ notes.toSend
  | .list (.addManufactureProcess request), notes =>
      notes.serving = some request.creditCardOrderId
  | .http (.send (.issueCreditCard (some body))), notes =>
      party = .workScheduler ∧ notes.pending = none ∧ ∃ orderId, notes.ready = some (orderId, body)
  | _, _ => True

theorem move_of_step {statement : Statement} {value : statement.Answer}
    (hstep : step schema (.sql statement) world (.ok value) world') :
    ∃ choice database, statement.run schema choice world.database = some (.ok value, database) := by
  obtain ⟨choice, hmove⟩ := hstep
  obtain ⟨⟨answer, database⟩, hstatement, hresult⟩ := Option.map_eq_some_iff.mp hmove
  have hanswer : answer = .ok value := congrArg Prod.fst hresult
  refine ⟨choice, database, ?_⟩
  rw [← hanswer]
  cases choice with
  | fails => cases hstatement; cases hanswer
  | _ => exact hstatement

/-- The order of the row that the manufacturer is told of. -/
theorem manufactureData_id {orderId : Guid} {body : ManufactureRequest}
    (hstep : step schema (.sql (.getCreditCardManufactureData orderId)) world (.ok (some body))
      world') : body.creditCardOrderId = orderId := by
  obtain ⟨choice, database, hrun⟩ := move_of_step hstep
  have hdata : (world.database.orders.find? orderId).map
      (fun order => (⟨order.id, order.name, order.cardLevel⟩ : ManufactureRequest)) = some body :=
    Except.ok.inj (congrArg Prod.fst (Option.some.inj hrun))
  obtain ⟨order, hfound, rfl⟩ := Option.map_eq_some_iff.mp hdata
  have hkey : order.id = orderId := Table.key_of_find? hfound
  exact hkey

theorem getLast?_history (database : Database) (orderId : Guid) :
    (database.history orderId).getLast? =
      (database.currentStatus orderId).map CreditCardOrderStatus.status :=
  List.getLast?_map

theorem mem_createdOrders {database : Database} {row : CreditCardOrderStatus} :
    row ∈ database.statuses.rows.filter (fun row => row.status = .orderCreated ∧
      (database.currentStatus row.creditCardOrderId).map (·.id) = some row.id) ↔
    row ∈ database.statuses.rows ∧ row.status = .orderCreated ∧
      database.currentStatus row.creditCardOrderId = some row := by
  rw [List.mem_filter, decide_eq_true_iff]
  refine and_congr_right fun hrow => and_congr_right fun _ => ⟨fun hid => ?_, fun hcurrent => ?_⟩
  · obtain ⟨last, hlast, hsame⟩ := Option.map_eq_some_iff.mp hid
    have heq : last = row := AutoTable.eq_of_key_eq (AutoTable.mem_of_last? hlast).1 hrow hsame
    rw [hlast, heq]
  · rw [hcurrent]
    rfl

/-- The orders that the query finds stand at `ORDER_CREATED`, and it finds none twice. -/
theorem createdOrders_of_step {ids : List Guid}
    (hstep : step schema (.sql .getOrderIdsWithStatusOrderCreated) world (.ok ids) world') :
    ids.Nodup ∧ ∀ orderId ∈ ids, world.database.StandsAtCreated orderId := by
  obtain ⟨choice, database, hrun⟩ := move_of_step hstep
  have hperm : ids.Perm world.database.createdOrders := by
    cases choice with
    | inOrder found =>
        rw [Statement.run] at hrun
        split_ifs at hrun with hfound
        cases hrun
        exact hfound
    | _ => cases hrun
  rw [hperm.nodup_iff]
  refine ⟨List.Nodup.map_on ?_ ?_, fun orderId hid => ?_⟩
  · intro row hrow other hother hsame
    obtain ⟨-, -, hcurrent⟩ := mem_createdOrders.mp hrow
    obtain ⟨-, -, hlast⟩ := mem_createdOrders.mp hother
    rw [hsame] at hcurrent
    exact Option.some.inj (hcurrent.symm.trans hlast)
  · have hids : (world.database.statuses.rows.map CreditCardOrderStatus.id).Nodup :=
      world.database.statuses.increasing.imp ne_of_lt
    exact (hids.of_map _).filter _
  · obtain ⟨row, hrow, rfl⟩ := List.mem_map.mp (hperm.mem_iff.mp hid)
    obtain ⟨-, hstatus, hcurrent⟩ := mem_createdOrders.mp hrow
    rw [Database.StandsAtCreated, getLast?_history, hcurrent, Option.map_some, hstatus]

/-- What a thread keeps in mind unless the command is about it. -/
theorem Notes.Sends.of_pending {notes' : Notes} (h : notes.Sends world log)
    (hready : notes'.ready = notes.ready) (htoSend : notes'.toSend = notes.toSend)
    (hpending : ∀ orderId, Sent world.calls orderId → world.database.StandsAtCreated orderId →
      notes'.pending = some orderId) : notes'.Sends world log := by
  have hunsent : notes'.unsent = notes.unsent := by
    rw [Notes.unsent, hready, htoSend, Notes.unsent]
  exact ⟨hpending, hready ▸ h.body, hunsent ▸ h.nodup, hunsent ▸ h.unsent⟩

/-- What a thread knows after its command. -/
structure Knows (party : Party) (world world' : World) (log log' : Log) (notes notes' : Notes) :
    Prop where
  holds : notes'.Holds world' log'
  sends : party = .workScheduler → notes'.Sends world' log'
  apart : ∀ other : Notes, other.Holds world log → notes.Apart other → notes'.Apart other

/-- Without a change to what a thread creates and serves nothing is to be shown of others. -/
theorem knows_of_held {party : Party} {log' : Log} {notes' : Notes}
    (hunrelated : Unrelated world log world' log') (hholds : notes.Holds world log)
    (hcreating : notes'.creating = notes.creating) (hserving : notes'.serving = notes.serving)
    (hsends : party = .workScheduler → notes'.Sends world' log') :
    Knows party world world' log log' notes notes' where
  holds := by
    have hheld := hunrelated.holds hholds
    exact ⟨hcreating ▸ hheld.creating, hserving ▸ hheld.serving⟩
  sends := hsends
  apart other _ hapart := ⟨hcreating ▸ hapart.1, hserving ▸ hapart.2⟩

/-- A command that a thread does not take notes of, except that it fails. -/
theorem knows_of_default {party : Party} {command : Command} {log' : Log}
    {answer : Except CardException command.Answer} (hunrelated : Unrelated world log world' log')
    (hholds : notes.Holds world log) (hsends : party = .workScheduler → notes.Sends world log)
    (hallowed : notesWhatItSends command ((world, log), notes) answer)
    (hnote : noteSending notes command answer =
      if command.breaksOff answer then { notes with pending := none } else notes) :
    Knows party world world' log log' notes (noteSending notes command answer) := by
  rw [hnote]
  split_ifs with hbreaks
  · refine knows_of_held hunrelated hholds rfl rfl fun hparty => ?_
    refine (hunrelated.sends (hsends hparty)).of_pending rfl rfl fun orderId hsent hstands => ?_
    -- an order that is pending does not stand at `ORDER_CREATED` when something fails
    have hstood := hunrelated.stands orderId hstands
    have hpending := (hsends hparty).pending orderId ((hunrelated.sent_iff orderId).mp hsent) hstood
    have hgoes := hallowed.1 orderId hpending hstood
    rw [hbreaks] at hgoes
    cases hgoes
  · exact knows_of_held hunrelated hholds rfl rfl fun hparty => hunrelated.sends (hsends hparty)

/-- An order that does not stand at `ORDER_CREATED` any more. -/
theorem knows_of_settled {party : Party} {log' : Log} {orderId : Guid}
    (hunrelated : Unrelated world log world' log') (hholds : notes.Holds world log)
    (hsends : party = .workScheduler → notes.Sends world log)
    (hgone : ¬world'.database.StandsAtCreated orderId) :
    Knows party world world' log log' notes (notes.settled orderId) := by
  rw [Notes.settled]
  split_ifs with hpending
  · refine knows_of_held hunrelated hholds rfl rfl fun hparty => ?_
    have hown := hunrelated.sends (hsends hparty)
    refine hown.of_pending rfl rfl fun other hsent hstands => ?_
    have hsame : orderId = other :=
      Option.some.inj (hpending.symm.trans (hown.pending other hsent hstands))
    exact absurd (hsame ▸ hstands) hgone
  · exact knows_of_held hunrelated hholds rfl rfl fun hparty => hunrelated.sends (hsends hparty)

theorem knows_of_sql {party : Party} {statement : Statement} {value : statement.Answer}
    (haccounted : Accounted world log) (hholds : notes.Holds world log)
    (hsends : party = .workScheduler → notes.Sends world log)
    (hguard : sendingGuard party (.sql statement) notes)
    (hallowed : notesWhatItSends (.sql statement) ((world, log), notes) (.ok value))
    (hcounts : (Command.sql statement).counts = false)
    (hstep : step schema (.sql statement) world (.ok value) world') :
    Knows party world world' log (noteLog log (.sql statement) (.ok value)) notes
      (noteSending notes (.sql statement) (.ok value)) := by
  have hunrelated := unrelated_of_step log (Or.inl hcounts) hstep
  have hheld := hunrelated.holds hholds
  cases statement with
  | insertNewOrder request =>
      have hnew : value ∉ log.created := hallowed.2 value rfl
      have hcreated : value ∈ (noteLog log (.sql (.insertNewOrder request)) (.ok value)).created :=
        List.mem_cons_self
      refine ⟨⟨fun orderId horder => ?_, hheld.serving⟩, fun hparty => ?_,
        fun other hother hapart => ⟨fun orderId horder hheldBy => ?_, hapart.2⟩⟩
      · cases horder
        exact ⟨hcreated, fun hbegun => hnew (haccounted.begun value hbegun)⟩
      · have hown := hunrelated.sends (hsends hparty)
        exact hown.of_pending rfl rfl hown.pending
      · cases horder
        exact hnew (hother.creating value hheldBy).1
  | insertNewStatus orderId type details time =>
      by_cases htype : type = .cardOrdered
      · subst htype
        have hgone : ¬world'.database.StandsAtCreated orderId := by
          obtain ⟨database, hchanges, rfl⟩ := step_sql hstep
          have hchanges : Changes schema world.database
              (.insertNewStatus orderId .cardOrdered details time) true database := hchanges
          cases hchanges with
          | nothing hnothing => rcases hnothing with h | h <;> cases h
          | status =>
              rw [Database.StandsAtCreated, history_addStatus, if_pos rfl, List.getLast?_concat]
              exact nofun
        exact knows_of_settled hunrelated hholds hsends hgone
      · refine knows_of_default hunrelated hholds hsends hallowed ?_
        cases type with
        | cardOrdered => exact absurd rfl htype
        | orderCreated => cases hcounts
        | _ => rfl
  | getOrderIdsWithStatusOrderCreated =>
      obtain ⟨hnodup, hstands⟩ := createdOrders_of_step hstep
      refine knows_of_held hunrelated hholds rfl rfl fun hparty => ?_
      have hown := hunrelated.sends (hsends hparty)
      refine ⟨hown.pending, nofun, hnodup, fun orderId horder => ?_⟩
      have hstood : world.database.StandsAtCreated orderId := hstands orderId horder
      have hfirst := haccounted.first orderId (List.mem_of_getLast? hstood)
      refine ⟨hunrelated.begun ▸ hfirst, fun hsent => ?_⟩
      have hpending := (hsends hparty).pending orderId
        ((hunrelated.sent_iff orderId).mp hsent) hstood
      have hnone : notes.pending = none := hguard
      rw [hnone] at hpending
      cases hpending
  | getCreditCardManufactureData orderId =>
      refine knows_of_held hunrelated hholds rfl rfl fun hparty => ?_
      have hown := hunrelated.sends (hsends hparty)
      have hmem : orderId ∈ notes.toSend := hguard hparty
      have htoSend : notes.toSend.Nodup := (List.nodup_append.mp hown.nodup).2.1
      have hnext : ∀ next ∈ value.map ((orderId : Guid), ·), next.1 = orderId := by
        intro next hnext
        obtain ⟨body, -, rfl⟩ := Option.map_eq_some_iff.mp hnext
        rfl
      have hall : ∀ other ∈ ((value.map ((orderId : Guid), ·)).map Prod.fst).toList ++
          notes.toSend.erase orderId, other ∈ notes.toSend := by
        intro other hother
        rcases List.mem_append.mp hother with hnew | hold
        · obtain ⟨next, hvalue, rfl⟩ := Option.map_eq_some_iff.mp (Option.mem_toList.mp hnew)
          exact hnext next hvalue ▸ hmem
        · exact List.mem_of_mem_erase hold
      refine ⟨hown.pending, fun next hvalue => ?_, ?_, fun other hother =>
        hown.unsent other (List.mem_append_right _ (hall other hother))⟩
      · obtain ⟨body, rfl, rfl⟩ := Option.map_eq_some_iff.mp hvalue
        exact manufactureData_id hstep
      · cases value with
        | none => exact htoSend.erase orderId
        | some body => exact List.nodup_cons.mpr ⟨htoSend.not_mem_erase, htoSend.erase orderId⟩
  | _ => exact knows_of_default hunrelated hholds hsends hallowed rfl

/-- An order whose request is accepted is not manufactured yet, and nobody else serves it. -/
theorem knows_of_accepted {party : Party} {log' : Log} {service : Service} {call : ℕ}
    {body : ManufactureRequest} (haccounted : Accounted world log)
    (hunrelated : Unrelated world log world' log') (hholds : notes.Holds world log)
    (hsends : party = .workScheduler → notes.Sends world log)
    (hstep : step schema (.http (.accept service)) world (.ok (call, .issueCreditCard (some body)))
      world') :
    Knows party world world' log log' notes
      { notes with serving := some body.creditCardOrderId } := by
  obtain ⟨choice, calls, hmove, rfl⟩ := step_http hstep
  obtain ⟨hsent, hfree, htaken⟩ := takenAt_of_accept rfl (CallsChange.of_move hmove)
  have huntaken : ¬Taken world.calls body.creditCardOrderId := by
    rintro ⟨n, hn⟩
    have hsame := haccounted.once n call _ (sentAt_of_takenAt hn) hsent
    rw [hsame, hfree] at hn
    cases hn
  have hheld := hunrelated.holds hholds
  refine ⟨⟨hheld.creating, fun orderId horder => ?_⟩, fun hparty => ?_,
    fun other hother hapart => ⟨hapart.1, fun orderId horder hheldBy => ?_⟩⟩
  · cases horder
    refine ⟨⟨call, htaken⟩, fun hmanufactured => huntaken ?_⟩
    exact haccounted.taken _ (hunrelated.manufactured ▸ hmanufactured)
  · have hown := hunrelated.sends (hsends hparty)
    exact hown.of_pending rfl rfl hown.pending
  · cases horder
    exact huntaken (hother.serving _ hheldBy).1

theorem knows_of_http {party : Party} {command : HttpCommand}
    {answer : Except CardException command.Answer}
    (haccounted : Accounted world log) (hholds : notes.Holds world log)
    (hsends : party = .workScheduler → notes.Sends world log)
    (hallowed : notesWhatItSends (.http command) ((world, log), notes) answer)
    (hcounts : (Command.http command).counts = false ∨ answer.isOk = false)
    (hstep : step schema (.http command) world answer world') :
    Knows party world world' log (noteLog log (.http command) answer) notes
      (noteSending notes (.http command) answer) := by
  have hunrelated := unrelated_of_step log hcounts hstep
  have hheld := hunrelated.holds hholds
  cases command with
  | send request =>
      refine knows_of_default hunrelated hholds hsends hallowed ?_
      cases answer with
      | error error =>
          cases request with
          | issueCreditCard body => cases body <;> rfl
          | _ => rfl
      | ok call =>
          cases request with
          | issueCreditCard body =>
              cases body with
              | none => rfl
              | some body => rcases hcounts with h | h <;> cases h
          | _ => rfl
  | await call =>
      refine knows_of_default hunrelated hholds hsends hallowed ?_
      cases answer with
      | error error => rfl
      | ok response => cases response <;> rfl
  | accept service =>
      cases answer with
      | error error => exact knows_of_default hunrelated hholds hsends hallowed rfl
      | ok accepted =>
          obtain ⟨call, request⟩ := accepted
          cases request with
          | issueCreditCard body =>
              cases body with
              | none => exact knows_of_default hunrelated hholds hsends hallowed rfl
              | some body => exact knows_of_accepted haccounted hunrelated hholds hsends hstep
          | _ => exact knows_of_default hunrelated hholds hsends hallowed rfl
  | reply call response =>
      exact knows_of_default hunrelated hholds hsends hallowed (by cases answer <;> rfl)

/-- A command that does not count. -/
theorem knows_of_unrelated {party : Party} {command : Command}
    {answer : Except CardException command.Answer} (haccounted : Accounted world log)
    (hholds : notes.Holds world log) (hsends : party = .workScheduler → notes.Sends world log)
    (hguard : sendingGuard party command notes)
    (hallowed : notesWhatItSends command ((world, log), notes) answer)
    (hcounts : command.counts = false ∨ answer.isOk = false)
    (hstep : step schema command world answer world') :
    Knows party world world' log (noteLog log command answer) notes
      (noteSending notes command answer) := by
  have hunrelated := unrelated_of_step log hcounts hstep
  cases command with
  | sql statement =>
      cases answer with
      | ok value =>
          exact knows_of_sql haccounted hholds hsends hguard hallowed
            (hcounts.resolve_right nofun) hstep
      | error error =>
          refine knows_of_default hunrelated hholds hsends hallowed ?_
          cases statement with
          | insertNewStatus orderId type => cases type <;> rfl
          | _ => rfl
  | list command =>
      refine knows_of_default hunrelated hholds hsends hallowed ?_
      cases command with
      | addManufactureProcess =>
          cases answer with
          | ok value => rcases hcounts with h | h <;> cases h
          | error error => rfl
      | _ => cases answer <;> rfl
  | ambient command =>
      exact knows_of_default hunrelated hholds hsends hallowed (by cases answer <;> rfl)
  | http command => exact knows_of_http haccounted hholds hsends hallowed hcounts hstep

/-! ### The commands that count -/

/-- What a command does to the shared state, to its thread and to the others. -/
structure Recorded (party : Party) (world world' : World) (log log' : Log) (notes notes' : Notes) :
    Prop extends Knows party world world' log log' notes notes' where
  accounted : Accounted world' log'
  others : ∀ (other : Notes), notes.Apart other → other.Holds world log → other.Holds world' log'
  scheduler : ∀ (other : Notes), party ≠ .workScheduler → other.Sends world log →
    other.Sends world' log'

/-- An order gets its first status. -/
theorem recorded_firstStatus {party : Party} {orderId : Guid} (details : String)
    (time : LocalDateTime) (haccounted : Accounted world log) (hholds : notes.Holds world log)
    (hsends : party = .workScheduler → notes.Sends world log)
    (hcreating : notes.creating = some orderId) :
    Recorded party world { world with database := (world.database.addStatus
        (StatusType.orderCreated.row orderId details time)
        (StatusType.orderCreated.row_id orderId details time)) } log
      { log with begun := orderId :: log.begun } notes { notes with creating := none } := by
  obtain ⟨hcreated, hnew⟩ := hholds.creating orderId hcreating
  -- an order that has been sent has begun before
  have hsent : ∀ {other : Notes} {sent : Guid}, other.Sends world log → Sent world.calls sent →
      (world.database.addStatus (StatusType.orderCreated.row orderId details time)
        (StatusType.orderCreated.row_id orderId details time)).StandsAtCreated sent →
        other.pending = some sent := by
    intro other sent hother hsent hstands
    have hne : orderId ≠ sent := fun h => hnew (h ▸ haccounted.sent sent hsent)
    rw [Database.StandsAtCreated, history_addStatus, if_neg hne, List.append_nil] at hstands
    exact hother.pending sent hsent hstands
  have hscheduler : ∀ {other : Notes}, other.Sends world log → other.Sends
      { world with database := (world.database.addStatus
        (StatusType.orderCreated.row orderId details time)
        (StatusType.orderCreated.row_id orderId details time)) }
      { log with begun := orderId :: log.begun } := by
    intro other hother
    refine ⟨fun sent => hsent hother, hother.body, hother.nodup, fun unsent hunsent => ?_⟩
    obtain ⟨hbegun, hnotSent⟩ := hother.unsent unsent hunsent
    exact ⟨List.mem_cons_of_mem _ hbegun, hnotSent⟩
  refine ⟨⟨⟨nofun, hholds.serving⟩, fun hparty => ?_, fun other _ hapart => ⟨nofun, hapart.2⟩⟩,
    ⟨haccounted.once, haccounted.nodup, haccounted.taken, fun sent hmem => ?_,
      fun other hfirst => ?_, fun other hbegun => ?_⟩,
    fun other hapart hother => ⟨fun created hmem => ?_, hother.serving⟩,
    fun other _ hother => hscheduler hother⟩
  · have hown := hscheduler (hsends hparty)
    exact hown.of_pending rfl rfl hown.pending
  · exact List.mem_cons_of_mem _ (haccounted.sent sent hmem)
  · rw [history_addStatus] at hfirst
    rcases List.mem_append.mp hfirst with hold | hadded
    · exact List.mem_cons_of_mem _ (haccounted.first other hold)
    · split_ifs at hadded with hsame
      · exact hsame ▸ List.mem_cons_self
      · cases hadded
  · rcases List.mem_cons.mp hbegun with rfl | hold
    · exact hcreated
    · exact haccounted.begun other hold
  · obtain ⟨hcreatedOther, hnewOther⟩ := hother.creating created hmem
    refine ⟨hcreatedOther, fun hbegun => ?_⟩
    rcases List.mem_cons.mp hbegun with rfl | hold
    · exact hapart.1 _ hcreating hmem
    · exact hnewOther hold

theorem sent_append (call : Call) {orderId : Guid}
    (hsent : Sent (world.calls ++ [call]) orderId) :
    Sent world.calls orderId ∨ call.orderId = some orderId := by
  obtain ⟨n, hn⟩ := hsent
  rw [sentAt_append] at hn
  split_ifs at hn
  · exact .inr hn
  · exact .inl ⟨n, hn⟩

theorem taken_append (call : Call) {orderId : Guid} (htaken : Taken world.calls orderId) :
    Taken (world.calls ++ [call]) orderId := by
  obtain ⟨n, hn⟩ := htaken
  obtain ⟨old, hold, horder⟩ := Option.bind_eq_some_iff.mp hn
  refine ⟨n, ?_⟩
  rw [takenAt, List.getElem?_append_left (List.getElem?_eq_some_iff.mp hold).1, hold]
  exact horder

/-- An order is sent to the manufacturer. -/
theorem recorded_sent {orderId : Guid} {body : ManufactureRequest}
    (haccounted : Accounted world log) (hholds : notes.Holds world log)
    (hsends : notes.Sends world log) (hnone : notes.pending = none)
    (hready : notes.ready = some (orderId, body)) :
    Recorded .workScheduler world
      { world with calls := world.calls ++ [⟨.issueCreditCard (some body), false, none⟩] } log log
      notes { notes with ready := none, pending := some orderId } := by
  have horder : (⟨.issueCreditCard (some body), false, none⟩ : Call).orderId = some orderId :=
    congrArg some (hsends.body (orderId, body) hready)
  have hunsent : notes.unsent = orderId :: notes.toSend := by rw [Notes.unsent, hready]; rfl
  obtain ⟨hbegun, hnotSent⟩ := hsends.unsent orderId (hunsent ▸ List.mem_cons_self)
  obtain ⟨hnotMem, hnodup⟩ := List.nodup_cons.mp (hunsent ▸ hsends.nodup)
  have hholdsTaken : ∀ {other : Notes}, other.Holds world log → other.Holds
      { world with calls := world.calls ++ [⟨.issueCreditCard (some body), false, none⟩] } log :=
    fun hother => ⟨hother.creating, fun serving hserving =>
      ⟨taken_append _ (hother.serving serving hserving).1, (hother.serving serving hserving).2⟩⟩
  have hown := hholdsTaken hholds
  refine ⟨⟨⟨hown.creating, hown.serving⟩, fun _ => ⟨fun sent hsent hstands => ?_, nofun, hnodup,
      fun unsent hmem => ⟨?_, fun hsent => ?_⟩⟩, fun _ _ hapart => hapart⟩,
    ⟨fun n m sent hn hm => ?_, haccounted.nodup, fun manufactured hmem =>
      taken_append _ (haccounted.taken manufactured hmem), fun sent hsent => ?_, haccounted.first,
      haccounted.begun⟩, fun _ _ hother => hholdsTaken hother, fun _ hparty => absurd rfl hparty⟩
  · rcases sent_append _ hsent with hold | hnew
    · have hpending := hsends.pending sent hold hstands
      rw [hnone] at hpending
      cases hpending
    · exact horder.symm.trans hnew
  · exact (hsends.unsent unsent (hunsent ▸ List.mem_cons_of_mem _ hmem)).1
  · rcases sent_append _ hsent with hold | hnew
    · exact (hsends.unsent unsent (hunsent ▸ List.mem_cons_of_mem _ hmem)).2 hold
    · cases horder.symm.trans hnew
      exact hnotMem hmem
  · rw [sentAt_append] at hn hm
    split_ifs at hn hm with hlast hlast' hlast'
    · exact hlast.trans hlast'.symm
    · cases horder.symm.trans hn
      exact absurd ⟨m, hm⟩ hnotSent
    · cases horder.symm.trans hm
      exact absurd ⟨n, hn⟩ hnotSent
    · exact haccounted.once n m sent hn hm
  · rcases sent_append _ hsent with hold | hnew
    · exact haccounted.sent sent hold
    · cases horder.symm.trans hnew
      exact hbegun

/-- A process is added to the manufacture list. -/
theorem recorded_added {party : Party} {request : ManufactureRequest} {thirdParty : ThirdParty}
    (haccounted : Accounted world log) (hholds : notes.Holds world log)
    (hsends : party = .workScheduler → notes.Sends world log)
    (hserving : notes.serving = some request.creditCardOrderId) :
    Recorded party world { world with thirdParty } log
      { log with manufactured := request.creditCardOrderId :: log.manufactured } notes
      { notes with serving := none } := by
  obtain ⟨htaken, hnew⟩ := hholds.serving _ hserving
  have hscheduler : ∀ {other : Notes}, other.Sends world log → other.Sends
      { world with thirdParty }
      { log with manufactured := request.creditCardOrderId :: log.manufactured } :=
    fun hother => ⟨hother.pending, hother.body, hother.nodup, hother.unsent⟩
  refine ⟨⟨⟨hholds.creating, nofun⟩, fun hparty => ?_, fun other _ hapart => ⟨hapart.1, nofun⟩⟩,
    ⟨haccounted.once, List.nodup_cons.mpr ⟨hnew, haccounted.nodup⟩, fun orderId hmem => ?_,
      haccounted.sent, haccounted.first, haccounted.begun⟩,
    fun other hapart hother => ⟨hother.creating, fun orderId hmem => ?_⟩,
    fun other _ hother => hscheduler hother⟩
  · have hown := hscheduler (hsends hparty)
    exact hown.of_pending rfl rfl hown.pending
  · rcases List.mem_cons.mp hmem with rfl | hold
    · exact htaken
    · exact haccounted.taken orderId hold
  · obtain ⟨htakenOther, hnewOther⟩ := hother.serving orderId hmem
    refine ⟨htakenOther, fun hmanufactured => ?_⟩
    rcases List.mem_cons.mp hmanufactured with rfl | hold
    · exact hapart.2 _ hserving hmem
    · exact hnewOther hold

/-- What a command does, whichever it is. -/
theorem recorded_of_step {party : Party} {command : Command}
    {answer : Except CardException command.Answer} (haccounted : Accounted world log)
    (hholds : notes.Holds world log) (hsends : party = .workScheduler → notes.Sends world log)
    (hguard : sendingGuard party command notes)
    (hallowed : notesWhatItSends command ((world, log), notes) answer)
    (hstep : step schema command world answer world') :
    Recorded party world world' log (noteLog log command answer) notes
      (noteSending notes command answer) := by
  by_cases hcounts : command.counts = false ∨ answer.isOk = false
  · have hunrelated := unrelated_of_step log hcounts hstep
    exact ⟨knows_of_unrelated haccounted hholds hsends hguard hallowed hcounts hstep,
      hunrelated.accounted haccounted, fun _ _ hother => hunrelated.holds hother,
      fun _ _ hother => hunrelated.sends hother⟩
  · cases answer with
    | error error => exact absurd (Or.inr rfl) hcounts
    | ok value =>
        cases command with
        | sql statement =>
            cases statement with
            | insertNewStatus orderId type details time =>
                cases type with
                | orderCreated =>
                    obtain ⟨database, hchanges, rfl⟩ := step_sql hstep
                    have hchanges : Changes schema world.database
                        (.insertNewStatus orderId .orderCreated details time) true database :=
                      hchanges
                    cases hchanges with
                    | nothing hnothing => rcases hnothing with h | h <;> cases h
                    | status =>
                        exact recorded_firstStatus details time haccounted hholds hsends hguard
                | _ => exact absurd (Or.inl rfl) hcounts
            | _ => exact absurd (Or.inl rfl) hcounts
        | list command =>
            cases command with
            | addManufactureProcess request =>
                obtain ⟨-, rfl⟩ := step_list hstep
                exact recorded_added haccounted hholds hsends hguard
            | _ => exact absurd (Or.inl rfl) hcounts
        | ambient command => exact absurd (Or.inl rfl) hcounts
        | http command =>
            cases command with
            | send request =>
                cases request with
                | issueCreditCard body =>
                    cases body with
                    | none => exact absurd (Or.inl rfl) hcounts
                    | some body =>
                        obtain ⟨rfl, hnone, orderId, hready⟩ := hguard
                        obtain ⟨choice, calls, hmove, rfl⟩ := step_http hstep
                        cases CallsChange.of_move hmove
                        have hnote : noteSending notes
                            (.http (.send (.issueCreditCard (some body))))
                            (.ok world.calls.length) =
                            { notes with ready := none, pending := some orderId } := by
                          rw [noteSending, hready]
                          rfl
                        rw [hnote]
                        exact recorded_sent haccounted hholds (hsends rfl) hnone hready
                | _ => exact absurd (Or.inl rfl) hcounts
            | _ => exact absurd (Or.inl rfl) hcounts

theorem guaranteesApart_sending : GuaranteesApart (noted (step schema) noteLog) noteSending
    notesWhatItSends (fun shared => Accounted shared.1 shared.2)
    (fun (party : Party) shared notes => notes.Holds shared.1 shared.2 ∧
      (party = .workScheduler → notes.Sends shared.1 shared.2))
    sendingGuard Notes.Apart := by
  intro party command shared notes answer shared' haccounted hrelies hguard hallowed hstep
  obtain ⟨world, log⟩ := shared
  obtain ⟨world', log'⟩ := shared'
  obtain ⟨hcommand, hlog⟩ := hstep
  dsimp only at hcommand hlog
  subst hlog
  have hrecorded := recorded_of_step haccounted hrelies.1 hrelies.2 hguard hallowed hcommand
  refine ⟨hrecorded.accounted, ⟨hrecorded.holds, hrecorded.sends⟩, fun other hne notes' hother
    hapart => ⟨⟨hrecorded.others notes' hapart hother.1, fun hscheduler => ?_⟩,
      hrecorded.apart notes' hother.1 hapart⟩⟩
  exact hrecorded.scheduler notes' (fun hparty => hne (hscheduler.trans hparty.symm))
    (hother.2 hscheduler)

end Steps

/-! ## The programs -/

section Programs

variable {party : Party} {notes : Notes}

/-- A program that keeps to the guard whatever it is answered. -/
abbrev KeepsToSending {α : Type} (party : Party) (task : Task α)
    (post : Except CardException α → Notes → Prop) (notes : Notes) : Prop :=
  wp (remembers (fun _ _ _ => True) noteSending) (sendingGuard party) task post notes

theorem keepsToSending_of_issues {α : Type} {task : Task α}
    (hissues : task.Issues fun command => ∀ notes, sendingGuard party command notes) :
    KeepsToSending party task (fun _ _ => True) notes :=
  Prog.wp_of_issues hissues fun _ notes hguard => hguard notes

/-- Only the first status of an order needs the order to be new. -/
theorem sendingGuard_status {orderId : Guid} {type : StatusType} (details : String)
    (time : LocalDateTime) (htype : type ≠ .orderCreated) (notes : Notes) :
    sendingGuard party (.sql (.insertNewStatus orderId type details time)) notes := by
  cases type with
  | orderCreated => exact absurd rfl htype
  | _ => trivial

theorem keepsToSending_createCreditCardOrder (request : CreditCardOrderRequest) :
    KeepsToSending party (OrderController.createCreditCardOrder request) (fun _ _ => True)
      notes := by
  rw [OrderController.createCreditCardOrder, KeepsToSending, wp_tryCatch, wp_bind, wp_sql]
  refine ⟨trivial, fun orderCount _ => ?_, fun error _ => wp_handleSQLException error⟩
  rw [andThen_ok]
  split_ifs
  · rw [wp_bind, wp_sql]
    refine ⟨trivial, fun guid _ => ?_, fun error _ => wp_handleSQLException error⟩
    rw [andThen_ok, wp_bind, DatabaseHelper.insertNewStatus, wp_bind, wp_ambient]
    refine ⟨trivial, fun time _ => ?_, fun error _ => wp_handleSQLException error⟩
    rw [andThen_ok, wp_sql]
    exact ⟨rfl, fun _ _ => trivial, fun error _ => wp_handleSQLException error⟩
  · trivial

theorem issues_updates (id : Guid) (request : StatusRequest) :
    (OrderController.updateStatus id request).Issues
      fun command => ∀ notes, sendingGuard party command notes :=
  issues_newStatus (fun _ _ => trivial) (fun _ => trivial) (fun _ _ => trivial)
    (fun _ _ => trivial) fun _ details time htype => sendingGuard_status details time htype

theorem keepsToSending_client (request : ClientRequest) :
    KeepsToSending party request.serve (fun _ _ => True) notes := by
  cases request with
  | nothing => trivial
  | createCreditCardOrder request =>
      rw [ClientRequest.serve, KeepsToSending, wp_bind]
      refine wp_mono (fun outcome final _ => ?_) (keepsToSending_createCreditCardOrder request)
      cases outcome <;> trivial
  | updateStatus id request =>
      exact keepsToSending_of_issues (Prog.issues_bind (issues_updates id request) fun _ => trivial)
  | deleteOrder accountId =>
      exact keepsToSending_of_issues (Prog.issues_bind (issues_deleteOrder (fun _ => trivial)
        (fun _ => trivial) fun _ => trivial) fun _ => trivial)
  | getLatestStatus accountId =>
      exact keepsToSending_of_issues
        (Prog.issues_bind (issues_getLatestStatus fun _ => trivial) fun _ => trivial)

/-- A process is added for the order of the request that has been accepted. -/
theorem keepsToSending_manufacturer :
    KeepsToSending party ManufacturerController.serve (fun _ _ => True) notes := by
  have hreply : ∀ call response notes, KeepsToSending party (http (.reply call response))
      (fun _ _ => True) notes := by
    intro call response notes
    rw [KeepsToSending, wp_http]
    exact ⟨trivial, fun _ _ => trivial, fun _ _ => trivial⟩
  rw [ManufacturerController.serve, KeepsToSending, wp_bind, wp_http]
  refine ⟨trivial, fun accepted _ => ?_, fun _ _ => trivial⟩
  obtain ⟨call, request⟩ := accepted
  rw [andThen_ok, wp_bind, wp_tryCatch]
  cases request with
  | issueCreditCard body =>
      cases body with
      | none => exact hreply _ _ _
      | some body =>
          rw [wp_bind, ManufacturerController.issueCreditCard, wp_bind, wp_list]
          exact ⟨rfl, fun _ _ => hreply _ _ _, fun _ _ => hreply _ _ _⟩
  | _ => exact hreply _ _ _

theorem Notes.settled_pending {orderId : Guid}
    (hpending : ∀ other ∈ notes.pending, other = orderId) :
    (notes.settled orderId).pending = none := by
  rw [Notes.settled]
  split_ifs with hsame
  · rfl
  · refine Option.eq_none_iff_forall_ne_some.mpr fun other hother => hsame ?_
    rw [hother, hpending other hother]

theorem Notes.settled_toSend (notes : Notes) (orderId : Guid) :
    (notes.settled orderId).toSend = notes.toSend := by
  rw [Notes.settled]
  split_ifs <;> rfl

/-- The end of the loop's body, for a request that only `orderId` is pending after. -/
theorem keepsToSending_sent {orderId : Guid} {rest : List Guid} {request : HttpRequest}
    (hguard : sendingGuard party (.http (.send request)) notes)
    (hfailed : ∀ error, (noteSending notes (.http (.send request)) (.error error)).pending = none)
    (hpending : ∀ call, ∀ other ∈ (noteSending notes (.http (.send request)) (.ok call)).pending,
      other = orderId)
    (htoSend : ∀ call, (noteSending notes (.http (.send request)) (.ok call)).toSend = rest) :
    KeepsToSending party (do
        let standardResponse ← httpCall request
        if standardResponse.statusCode = 200 then
          DatabaseHelper.insertNewStatus orderId .cardOrdered StatusType.cardOrdered.description)
      (andThen (fun _ notes => notes.pending = none ∧ notes.toSend = rest)
        fun (_ : Except CardException Unit) notes => notes.pending = none) notes := by
  rw [KeepsToSending, wp_bind, httpCall, wp_bind, wp_http]
  refine ⟨hguard, fun call _ => ?_, fun error _ => hfailed error⟩
  have hpending := hpending call
  have htoSend := htoSend call
  rw [andThen_ok, wp_bind, wp_http]
  generalize noteSending notes (.http (.send request)) (.ok call) = notes at hpending htoSend ⊢
  refine ⟨trivial, fun response _ => ?_, fun _ _ => rfl⟩
  cases response with
  | failure => exact rfl
  | standard response =>
      change wp _ _ (if response.statusCode = 200 then _ else _) _ _
      split_ifs with hstatus
      · have hnote : noteSending notes (.http (.await call)) (.ok (.standard response)) = notes :=
          if_neg fun hbreaks => absurd hstatus (of_decide_eq_true hbreaks)
        rw [hnote, DatabaseHelper.insertNewStatus, wp_bind, wp_ambient]
        refine ⟨trivial, fun time _ => ?_, fun _ _ => rfl⟩
        rw [andThen_ok, wp_sql]
        refine ⟨trivial, fun _ _ => ?_, fun _ _ => rfl⟩
        exact ⟨Notes.settled_pending hpending, (notes.settled_toSend orderId).trans htoSend⟩
      · have hnote : noteSending notes (.http (.await call)) (.ok (.standard response)) =
            { notes with pending := none } := if_pos (decide_eq_true hstatus)
        rw [hnote]
        exact ⟨rfl, htoSend⟩

/-- The scheduler sends one order of those that it has found, and has noted it or failed
before it goes on. -/
theorem keepsToSending_orderCard {orderId : Guid} {rest : List Guid}
    (hnone : notes.pending = none) (htoSend : notes.toSend = orderId :: rest) :
    KeepsToSending .workScheduler (WorkScheduler.orderCard orderId)
      (andThen (fun _ notes => notes.pending = none ∧ notes.toSend = rest)
        fun (_ : Except CardException Unit) notes => notes.pending = none) notes := by
  rw [WorkScheduler.orderCard, KeepsToSending, wp_bind, wp_sql]
  refine ⟨fun _ => htoSend ▸ List.mem_cons_self, fun body _ => ?_, fun _ _ => rfl⟩
  have herase : notes.toSend.erase orderId = rest := by rw [htoSend, List.erase_cons_head]
  rw [andThen_ok]
  cases body with
  | none =>
      refine keepsToSending_sent trivial (fun _ => rfl) (fun _ other hother => ?_) fun _ => herase
      cases hnone.symm.trans hother
  | some body =>
      refine keepsToSending_sent ⟨rfl, hnone, orderId, rfl⟩ (fun _ => rfl)
        (fun _ other hother => ?_) fun _ => herase
      exact (Option.some.inj hother).symm

/-- A run begins and ends with no order that has been sent and not been noted. -/
theorem keepsToSending_workScheduler (hnone : notes.pending = none) :
    KeepsToSending .workScheduler WorkScheduler.run (fun _ notes => notes.pending = none)
      notes := by
  rw [WorkScheduler.run, KeepsToSending, wp_tryCatch, wp_bind, wp_sql]
  refine ⟨hnone, fun orders _ => ?_, fun _ _ => rfl⟩
  rw [andThen_ok]
  refine wp_forM (fun rest notes => notes.pending = none ∧ notes.toSend = rest) ?_
    (fun _ hdone => hdone.1) orders ⟨hnone, rfl⟩
  intro orderId rest notes hstart
  refine wp_mono (fun outcome final hfinal => ?_) (keepsToSending_orderCard hstart.1 hstart.2)
  cases outcome <;> exact hfinal

theorem keepsToSending_program (workload : Workload) (party : Party) :
    KeepsToSending party (workload.program party) (fun _ _ => True) Notes.empty := by
  cases party with
  | client n => exact keepsToSending_client (workload.clients n)
  | orderServer n =>
      exact keepsToSending_of_issues (issues_orderController (fun _ => trivial) issues_updates
        (fun _ _ => trivial) fun _ _ _ => trivial)
  | manufacturer n => exact keepsToSending_manufacturer
  | workScheduler =>
      exact wp_mono (fun _ _ _ => trivial) (wp_repeated (fun notes => notes.pending = none)
        (fun _ hnone => keepsToSending_workScheduler hnone) workload.workRuns rfl)
  | manufactureScheduler =>
      refine keepsToSending_of_issues (issues_repeated (issues_manufactureScheduler
        (fun _ _ => trivial) (fun _ _ => trivial) (fun command hmanufacture notes => ?_)
        fun _ _ _ _ _ _ => trivial) _)
      cases command with
      | addManufactureProcess => cases hmanufacture
      | _ => trivial
  | courierScheduler =>
      refine keepsToSending_of_issues (issues_repeated (issues_courierScheduler
        (fun _ _ => trivial) (fun _ _ => trivial) (fun command hcourier notes => ?_)
        fun request hrequest notes => ?_) _)
      · cases command with
        | addManufactureProcess => cases hcourier
        | _ => trivial
      · cases request with
        | issueCreditCard => cases hrequest
        | _ => trivial

end Programs

/-! ## The system -/

/-- Clients, services and schedulers at work, with a log of what happens. -/
abbrev LoggedSystem (M : Type) := Config CardException Command.Answer Party (World × Log) M Unit

/-- The interleavings in which every command satisfies a condition, with a log. -/
abbrev LoggedWhen {M : Type} (schema : Schema) (note : Note CardException Command.Answer M)
    (allowed : Condition CardException Command.Answer ((World × Log) × M)) :
    LoggedSystem M → LoggedSystem M → Prop :=
  ReachesWhen (noted (step schema) noteLog) note allowed

def Workload.startLogged {M : Type} (workload : Workload) (memory : M) (world : World) :
    LoggedSystem M :=
  Config.start (world, Log.start world) memory workload.program

theorem exists_logged {M : Type} (schema : Schema) (note : Note CardException Command.Answer M)
    (allowed : Condition CardException Command.Answer ((World × Log) × M))
    [∀ command start answer, Decidable (allowed command start answer)] (start : LoggedSystem M)
    (schedule : List (Party × Choice)) (check : LoggedSystem M → Bool)
    (hreplay : (replay (fun _ => attempt (attempt (Command.move schema) noteLog
      fun _ _ _ => True) note allowed) start schedule).any check = true) :
    ∃ system, check system = true ∧ LoggedWhen schema note allowed start system :=
  exists_reachesWhen (fun command choice start answer final hmove =>
    (noted_of_attempt step_of_move command choice start answer final hmove).2) note allowed start
      schedule check hreplay

theorem not_sent_nil (orderId : Guid) : ¬Sent [] orderId := by
  rintro ⟨n, hn⟩
  cases hn

theorem accounted_start {world : World} (hcalls : world.calls = []) :
    Accounted world (Log.start world) where
  once n m orderId hn := by
    rw [hcalls] at hn
    cases hn
  nodup := List.nodup_nil
  taken _ hmem := absurd hmem List.not_mem_nil
  sent orderId hsent := by
    rw [hcalls] at hsent
    exact absurd hsent (not_sent_nil orderId)
  first orderId hfirst := by
    obtain ⟨row, hrow, -⟩ := List.mem_map.mp hfirst
    obtain ⟨hmem, horder⟩ := List.mem_filter.mp hrow
    exact List.mem_map.mpr ⟨row, hmem, of_decide_eq_true horder⟩
  begun _ hbegun := hbegun

theorem sends_empty {world : World} (log : Log) (hcalls : world.calls = []) :
    Notes.empty.Sends world log where
  pending orderId hsent := by
    rw [hcalls] at hsent
    exact absurd hsent (not_sent_nil orderId)
  body _ hnext := by cases hnext
  nodup := List.nodup_nil
  unsent _ hmem := absurd hmem List.not_mem_nil

/-- Every order is manufactured once.  In every interleaving of requests, runs of the
schedulers and server threads in which nothing fails while an order that has been sent to
the manufacturer still stands at `ORDER_CREATED`, at most one process is added to the
manufacture list for each order. -/
theorem manufactured_once {schema : Schema} {workload : Workload} {world : World}
    {system : LoggedSystem Notes} (hcalls : world.calls = [])
    (hreaches : LoggedWhen schema noteSending notesWhatItSends
      (workload.startLogged Notes.empty world) system) (orderId : Guid) :
    system.shared.2.manufactured.count orderId ≤ 1 := by
  have hholds : Notes.empty.Holds world (Log.start world) := ⟨nofun, nofun⟩
  have hstart : Upheld (fun _ _ _ => True) noteSending
      (fun shared : World × Log => Accounted shared.1 shared.2)
      (fun party shared notes => notes.Holds shared.1 shared.2 ∧
        (party = Party.workScheduler → notes.Sends shared.1 shared.2))
      sendingGuard (workload.startLogged Notes.empty world) :=
    ⟨accounted_start hcalls, fun _ => ⟨hholds, fun _ => sends_empty _ hcalls⟩,
      keepsToSending_program workload⟩
  have hapart : (workload.startLogged Notes.empty world).Apart Notes.Apart :=
    fun _ _ _ => ⟨nofun, nofun⟩
  have hupheld := (hstart.apart_reaches (fun _ _ => Notes.Apart.symm) (fun _ _ _ _ _ => trivial)
    guaranteesApart_sending hapart hreaches).1
  exact List.nodup_iff_count_le_one.mp hupheld.shared.nodup orderId

namespace Sample

/-- One order, and two runs of the work scheduler. -/
def twoRuns : Workload where
  clients n :=
    if n = 0 then .createCreditCardOrder ⟨1, "email@mail.ail", "Jane Doe", "Box 13", "silver"⟩
    else .nothing
  workRuns := 2
  manufactureRuns := 0
  courierRuns := 0

/-- A run of the work scheduler that finds the order, up to the insertion of its status. -/
def sending (n : ℕ) : List (Party × Choice) := List.flatten [
  [(.workScheduler, .inOrder [101])], List.replicate 2 (.workScheduler, .goes 0),
  [(.manufacturer n, .goes n), (.manufacturer n, .goes 0), (.manufacturer n, .goes 0)],
  List.replicate 2 (.workScheduler, .goes 0)]

end Sample

/-- The order is noted, so the next run does not find it. -/
theorem manufactured_once_noted : ∃ system : LoggedSystem Notes,
    system.shared.2.manufactured = [101] ∧ system.shared.2.manufactured.count 101 ≤ 1 := by
  obtain ⟨system, hcheck, hreaches⟩ := exists_logged .dump noteSending notesWhatItSends
    (Sample.twoRuns.startLogged Notes.empty (World.empty [1]))
    (List.flatten [Sample.created 0 101, Sample.sending 0,
      [(.workScheduler, .goes 0), (.workScheduler, .inOrder [])]])
    (fun system => decide (system.shared.2.manufactured = [101])) (by decide +kernel)
  exact ⟨system, of_decide_eq_true hcheck, manufactured_once rfl hreaches 101⟩

/-- The first run sends the order and fails to note it, so the second run sends it again. -/
theorem manufactured_twice :
    (World.empty [1]).calls = [] ∧
    ∃ system : LoggedSystem Unit,
      LoggedWhen .dump (fun _ _ _ => ()) (fun _ _ _ => True)
        (Sample.twoRuns.startLogged () (World.empty [1])) system ∧
      system.shared.1.thirdParty.manufacture.elements.map
        (·.request.creditCardOrderId) = [101, 101] ∧
      ¬system.shared.2.manufactured.count 101 ≤ 1 := by
  obtain ⟨system, hcheck, hreaches⟩ := exists_logged .dump (fun _ _ _ => ()) (fun _ _ _ => True)
    (Sample.twoRuns.startLogged () (World.empty [1]))
    (List.flatten [Sample.created 0 101, Sample.sending 0, [(.workScheduler, .fails)],
      Sample.sending 1])
    (fun system => decide (system.shared.1.thirdParty.manufacture.elements.map
      (·.request.creditCardOrderId) = [101, 101] ∧ ¬system.shared.2.manufactured.count 101 ≤ 1))
    (by decide +kernel)
  obtain ⟨hlist, htwice⟩ := of_decide_eq_true hcheck
  exact ⟨rfl, system, hreaches, hlist, htwice⟩

end EasyTrade.CardOrders

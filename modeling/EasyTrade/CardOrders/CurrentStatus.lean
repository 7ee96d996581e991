import EasyTrade.Core.Greatest
import EasyTrade.CardOrders.System

/-!
# The current status of an order

The order service has two notions of it: the sequence guard and the
latest-status endpoint take the row with the latest timestamp, the work scheduler
takes the row with the greatest key.  Timestamps are local times in whole
seconds, so the two rows may differ.  They are the same as long as every status
is inserted in a later second than the statuses that its order already has.
-/

namespace EasyTrade.CardOrders

open EasyTrade.Program EasyTrade.Interleaving

/-- Whichever row the database returns first, it is the row with the greatest
key. -/
def Database.StatusesAgree (database : Database) (orderId : Guid) : Prop :=
  ∀ choice, database.getLastOrderStatus choice orderId = database.currentStatus orderId

/-- The status rows of an order have ever later timestamps. -/
def Database.StatusesInTime (database : Database) (orderId : Guid) : Prop :=
  (database.statusesOf orderId).Pairwise fun earlier later => earlier.timestamp < later.timestamp

section Agreement

variable {database : Database} {orderId : Guid}

theorem currentStatus_eq : database.currentStatus orderId =
    (database.statusesOf orderId).getLast? := rfl

/-- Without a status row there is nothing to disagree about. -/
theorem statusesAgree_of_nil (hnone : database.statusesOf orderId = []) :
    database.StatusesAgree orderId := by
  intro choice
  rw [currentStatus_eq, Database.getLastOrderStatus, Database.latestStatuses, hnone]
  rfl

theorem nodup_statusesOf (database : Database) (orderId : Guid) :
    (database.statusesOf orderId).Nodup := by
  have hids : (database.statuses.rows.map CreditCardOrderStatus.id).Nodup :=
    database.statuses.increasing.imp ne_of_lt
  exact (List.Nodup.of_map _ hids).sublist List.filter_sublist

/-- The rows that may come first are those with the greatest timestamp. -/
theorem latestStatuses_eq (database : Database) (orderId : Guid) :
    database.latestStatuses orderId =
      greatest CreditCardOrderStatus.timestamp (database.statusesOf orderId) := rfl

/-- Any row that nothing is later than may be returned. -/
theorem exists_getLastOrderStatus {row : CreditCardOrderStatus}
    (hrow : row ∈ database.latestStatuses orderId) :
    ∃ choice, database.getLastOrderStatus choice orderId = some row := by
  obtain ⟨index, hindex, hget⟩ := List.getElem_of_mem hrow
  refine ⟨.goes index, ?_⟩
  have hnumber : (Choice.goes index).number = index := Int.toNat_natCast index
  rw [Database.getLastOrderStatus, hnumber, Nat.mod_eq_of_lt hindex,
    List.getElem?_eq_getElem hindex, hget]

/-- The two notions agree exactly when the last row is later than all others. -/
theorem statusesAgree_iff {others : List CreditCardOrderStatus} {last : CreditCardOrderStatus}
    (hrows : database.statusesOf orderId = others ++ [last]) :
    database.StatusesAgree orderId ↔ ∀ row ∈ others, row.timestamp < last.timestamp := by
  have hcurrent : database.currentStatus orderId = some last := by
    rw [currentStatus_eq, hrows, List.getLast?_concat]
  constructor
  · intro hagree row hrow
    by_contra hlate
    have hrows' := List.ne_nil_of_mem hrow
    obtain ⟨first, hgreatest⟩ := exists_mem_greatest CreditCardOrderStatus.timestamp hrows'
    obtain ⟨hfirst, hmax⟩ := mem_greatest_iff.mp hgreatest
    have hcandidate : first ∈ database.latestStatuses orderId := by
      rw [latestStatuses_eq, hrows]
      refine mem_greatest_iff.mpr ⟨List.mem_append_left _ hfirst, fun other hother => ?_⟩
      rcases List.mem_append.mp hother with hother | hother
      · exact hmax other hother
      · rw [List.mem_singleton.mp hother]
        exact (not_lt.mp hlate).trans (hmax row hrow)
    obtain ⟨choice, hchoice⟩ := exists_getLastOrderStatus hcandidate
    have hsame : first = last :=
      Option.some.inj (hchoice.symm.trans ((hagree choice).trans hcurrent))
    have hnodup := nodup_statusesOf database orderId
    rw [hrows, List.nodup_append] at hnodup
    exact hnodup.2.2 first hfirst last (List.mem_singleton.mpr rfl) hsame
  · intro hlater choice
    have honly : database.latestStatuses orderId = [last] := by
      rw [latestStatuses_eq, hrows]
      exact greatest_concat_of_lt hlater
    rw [hcurrent, Database.getLastOrderStatus, honly, List.length_singleton, Nat.mod_one]
    rfl

theorem statusesAgree_of_inTime (hinTime : database.StatusesInTime orderId) :
    database.StatusesAgree orderId := by
  rcases List.eq_nil_or_concat (database.statusesOf orderId) with hnone | ⟨others, last, hrows⟩
  · exact statusesAgree_of_nil hnone
  · rw [List.concat_eq_append] at hrows
    rw [Database.StatusesInTime, hrows, List.pairwise_append] at hinTime
    exact (statusesAgree_iff hrows).mpr fun row hrow =>
      hinTime.2.2 row hrow last (List.mem_singleton.mpr rfl)

end Agreement

/-- The order and the time of the status that a command inserts. -/
def Command.newStatus : Command → Option (Guid × LocalDateTime)
  | .sql (.insertNewStatus orderId _ _ time) => some (orderId, time)
  | _ => none

/-- When a status is inserted, it gets a later timestamp than the statuses that
its order already has. -/
def insertsLater : Condition CardException Command.Answer (World × Unit) :=
  fun command start answer => ∀ status ∈ command.newStatus, answer.isOk = true →
    ∀ row ∈ start.1.database.statusesOf status.1, row.timestamp < status.2.stored

instance (command : Command) (start : World × Unit)
    (answer : Except CardException command.Answer) :
    Decidable (insertsLater command start answer) :=
  inferInstanceAs (Decidable (∀ status ∈ command.newStatus, answer.isOk = true →
    ∀ row ∈ start.1.database.statusesOf status.1, row.timestamp < status.2.stored))

theorem statusesInTime_of_changes {schema : Schema} {database database' : Database}
    {statement : Statement} {returned : Bool}
    (hinTime : ∀ orderId, database.StatusesInTime orderId)
    (hlater : ∀ orderId type details time,
      statement = .insertNewStatus orderId type details time → returned = true →
        ∀ row ∈ database.statusesOf orderId, row.timestamp < time.stored)
    (hchanges : Changes schema database statement returned database') (orderId : Guid) :
    database'.StatusesInTime orderId := by
  cases hchanges with
  | status horder =>
      rename_i inserted type details time
      rw [Database.StatusesInTime, statusesOf_addStatus]
      refine List.pairwise_append.mpr ⟨hinTime orderId, ?_, ?_⟩
      · split_ifs
        · exact List.pairwise_singleton _ _
        · exact List.Pairwise.nil
      · intro row hrow new hnew
        split_ifs at hnew with hsame
        · subst hsame
          rw [List.mem_singleton.mp hnew]
          exact hlater inserted type details time rfl rfl row hrow
        · cases hnew
  | statusesDeleted horder =>
      exact (hinTime orderId).sublist (List.filter_sublist.filter _)
  | shippingId =>
      rw [Database.StatusesInTime, Database.statusesOf, statuses_updateOrder]
      exact hinTime orderId
  | _ => exact hinTime orderId

/-- The two notions of the current status agree.  In every interleaving in which
every status is inserted in a later second than those of its order, the row with
the latest timestamp is the row with the greatest key at any time. -/
theorem statuses_agree {schema : Schema} {workload : Workload} {world : World}
    {system : System Unit} (hinTime : ∀ orderId, world.database.StatusesInTime orderId)
    (hreaches : InterleavesWhen schema (fun _ _ _ => ()) insertsLater
      (workload.start () world) system) (orderId : Guid) :
    system.shared.database.StatusesAgree orderId := by
  have hprogram : ∀ party, wp (remembers (fun _ _ _ => True) fun _ _ _ => ()) (fun _ _ => True)
      (workload.program party) (fun _ _ => True) () :=
    fun party => wp_of_forall_guard fun _ _ => trivial
  refine statusesAgree_of_inTime (database_of_reaches
    (fun database => ∀ orderId, database.StatusesInTime orderId) hinTime hprogram ?_ hreaches
    orderId)
  intro statement world memory answer database hinTime _ hlater hchanges
  refine statusesInTime_of_changes hinTime ?_ hchanges
  intro orderId type details time hstatement hreturned
  exact hlater (orderId, time) (by rw [hstatement]; rfl) hreturned

/-- An order and its next status. -/
def Sample.orderAndUpdate : Workload where
  clients
    | 0 => .createCreditCardOrder ⟨1, "email@mail.ail", "Jane Doe", "Box 13", "silver"⟩
    | 1 => .updateStatus 101 ⟨101, some .cardOrdered, 0, .absent⟩
    | _ => .nothing
  workRuns := 0
  manufactureRuns := 0
  courierRuns := 0

/-- Two statuses in the same second: the work scheduler sees a card that has been
ordered, the sequence guard may see an order that has just been created. -/
theorem statuses_disagree :
    ∃ system : System Unit,
      Interleaves .dump (Sample.orderAndUpdate.start () (World.empty [1])) system ∧
      ¬ system.shared.database.StatusesAgree 101 ∧
      (system.shared.database.currentStatus 101).map (·.status) = some .cardOrdered ∧
      ∃ choice, (system.shared.database.getLastOrderStatus choice 101).map (·.status) =
        some .orderCreated := by
  obtain ⟨system, hcheck, hinterleaves⟩ := exists_interleaving .dump
    (Sample.orderAndUpdate.start () (World.empty [1]))
    [(.client 0, .goes 0), (.client 0, .goes 101), (.client 0, .goes 10000000),
      (.client 0, .goes 0), (.client 1, .goes 0), (.client 1, .goes 10200000),
      (.client 1, .goes 0)]
    (fun system => (system.threads (.client 0)).finished &&
      (system.threads (.client 1)).finished &&
      decide ((system.shared.database.currentStatus 101).map (·.status) = some .cardOrdered ∧
        (system.shared.database.getLastOrderStatus (.goes 0) 101).map (·.status) =
          some .orderCreated))
    (by decide +kernel)
  simp only [Bool.and_eq_true, decide_eq_true_eq] at hcheck
  obtain ⟨-, hcurrent, hlast⟩ := hcheck
  refine ⟨system, hinterleaves, fun hagree => ?_, hcurrent, .goes 0, hlast⟩
  rw [hagree (.goes 0), hcurrent] at hlast
  cases hlast

/-- The same with two seconds between the statuses. -/
theorem statuses_agree_later :
    ∃ system : System Unit,
      (system.shared.database.currentStatus 101).map (·.status) = some .cardOrdered ∧
      system.shared.database.StatusesAgree 101 := by
  obtain ⟨system, hcheck, hinterleaves⟩ := exists_interleavingWhen .dump (fun _ _ _ => ())
    insertsLater (Sample.orderAndUpdate.start () (World.empty [1]))
    [(.client 0, .goes 0), (.client 0, .goes 101), (.client 0, .goes 10000000),
      (.client 0, .goes 0), (.client 1, .goes 0), (.client 1, .goes 12000000),
      (.client 1, .goes 0)]
    (fun system => decide ((system.shared.database.currentStatus 101).map (·.status) =
      some .cardOrdered))
    (by decide +kernel)
  have hinTime : ∀ orderId, (World.empty [1]).database.StatusesInTime orderId :=
    fun _ => List.Pairwise.nil
  exact ⟨system, of_decide_eq_true hcheck, statuses_agree hinTime hinterleaves 101⟩

end EasyTrade.CardOrders

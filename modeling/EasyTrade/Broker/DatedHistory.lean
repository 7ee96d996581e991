import EasyTrade.Broker.LedgerIntegrity
import EasyTrade.Broker.Smooth

/-!
# The dates of the balance history

Requests that are served one after the other enter their history rows in the order of the
clock, and the whole history, not only what a run appends, explains the balances when it did
so before.
-/

namespace EasyTrade.Broker

open EasyTrade.Program

/-- Leaving dates out keeps the order. -/
theorem Ordered.sublist {start stop : DateTime} {dates fewer : List DateTime}
    (hsublist : fewer.Sublist dates) (h : Ordered start dates stop) : Ordered start fewer stop := by
  induction hsublist generalizing start with
  | slnil => exact h
  | cons date _ ih => exact (ih h.2).of_le h.1
  | cons_cons date _ ih => exact ⟨h.1, ih h.2⟩

theorem Ordered.le_of_mem {start stop date : DateTime} {dates : List DateTime}
    (h : Ordered start dates stop) (hdate : date ∈ dates) : start ≤ date := by
  induction dates generalizing start with
  | nil => exact absurd hdate List.not_mem_nil
  | cons first rest ih =>
      cases hdate with
      | head => exact h.1
      | tail _ hrest => exact h.1.trans (ih h.2 hrest)

theorem Ordered.pairwise {start stop : DateTime} {dates : List DateTime}
    (h : Ordered start dates stop) : dates.Pairwise (· ≤ ·) := by
  induction dates generalizing start with
  | nil => exact .nil
  | cons first rest ih => exact .cons (fun _ hdate => h.2.le_of_mem hdate) (ih h.2)

/-! ## What events enter -/

/-- The history has grown by rows with dates among these. -/
def Enters (database database' : Database) (dates : List DateTime) : Prop :=
  ∃ appended, database'.balanceHistories = database.balanceHistories ++ appended ∧
    (appended.map BalanceHistory.actionDate).Sublist dates

section Enters

variable {database middle final : Database} {first second : List DateTime}

theorem Enters.of_eq (h : final.balanceHistories = database.balanceHistories)
    (dates : List DateTime) : Enters database final dates :=
  ⟨[], by rw [h, List.append_nil], List.nil_sublist _⟩

theorem Enters.trans (h : Enters database middle first) (h' : Enters middle final second) :
    Enters database final (first ++ second) := by
  obtain ⟨appended, happended, hdates⟩ := h
  obtain ⟨later, hlater, hlaterDates⟩ := h'
  refine ⟨appended ++ later, ?_, ?_⟩
  · rw [hlater, happended, List.append_assoc]
  · rw [List.map_append]
    exact hdates.append hlaterDates

theorem enters_post (database : Database) (accountId : ℤ) (change : ℚ) (actionType : ActionType)
    (now : DateTime) : Enters database (database.post accountId change actionType now) [now] := by
  rw [Database.post]
  split
  · exact .of_eq rfl _
  · exact ⟨_, rfl, List.Sublist.refl _⟩

/-- An execution enters its three rows at the three readings of the clock. -/
theorem enters_settle (database : Database) (trade : Trade) (settlement : Settlement) :
    Enters database (database.settle trade settlement) settlement.dates := by
  have hcharge := ((enters_post database trade.accountId (settlement.income trade)
    settlement.direction settlement.tradeDate).trans
      (enters_post _ trade.accountId (-settlement.ppt) .transactionFee settlement.feeDate)).trans
        (enters_post _ ownerId settlement.ppt .collectFee settlement.collectDate)
  exact hcharge.trans (.of_eq hold_balanceHistories [settlement.holdingDate])

/-- What an event enters bears the dates at which it has read the clock. -/
theorem enters_apply (event : Event) (database : Database) :
    Enters database (event.apply database) event.dates := by
  cases event with
  | deposited | withdrawn => exact enters_post _ _ _ _ _
  | registered | rejected => exact .of_eq rfl _
  | filled trade settlement => exact enters_settle database trade settlement
  | executed trade settlement =>
      obtain ⟨appended, happended, hdates⟩ := enters_settle database trade settlement
      exact ⟨appended, happended, hdates.cons _⟩

theorem enters_after (events : List Event) (database : Database) :
    Enters database (database.after events) (events.flatMap Event.dates) := by
  induction events generalizing database with
  | nil => exact .of_eq rfl _
  | cons event rest ih => exact (enters_apply event database).trans (ih _)

end Enters

/-! ## Runs -/

/-- Time does not go back. -/
theorem clock_le_of_exec {environment : Environment} {α : Type} {program : Request α}
    {world world' : World} {outcome : Except BrokerException α}
    (hexec : Exec (step environment) program world outcome world') :
    world.1.clock ≤ world'.1.clock := by
  induction program generalizing world with
  | done value => rw [hexec.2]
  | raise error => rw [hexec.2]
  | call command next ih =>
      obtain ⟨answer, middle, hstep, hrest⟩ := hexec
      have hlater := ih answer hrest
      rcases hstep with ⟨time, htime, hrun⟩ | ⟨-, error, -, rfl⟩
      · have hclock := clock_run environment command (world.tick time)
        rw [hrun] at hclock
        have hmiddle : middle.1.clock = time := hclock
        exact htime.trans (hmiddle ▸ hlater)
      · exact hlater

/-- The history stands in the order of its dates, and it explains the balances. -/
structure Shared.Chronicled (shared : Shared) : Prop where
  dated : ∃ first, Ordered first
    (shared.database.balanceHistories.map BalanceHistory.actionDate) shared.clock
  explained : ∃ initial, Ledger.Unbroken historyColumns initial shared.database.balanceOf
    shared.database.balanceHistories

/-- One request enters its rows behind those that are there. -/
theorem Serves.dated {environment : Environment} {operation : Operation}
    {shared shared' : Shared} {outcome : Except BrokerException Unit}
    (hserves : Serves environment operation shared outcome shared') {first : DateTime}
    (hdated : Ordered first
      (shared.database.balanceHistories.map BalanceHistory.actionDate) shared.clock) :
    Ordered first (shared'.database.balanceHistories.map BalanceHistory.actionDate)
      shared'.clock := by
  cases outcome with
  | error error =>
      obtain ⟨context, hexec⟩ := hserves
      have hclock := clock_le_of_exec hexec
      rw [(serves_error ⟨context, hexec⟩).1]
      exact hdated.mono hclock
  | ok value =>
      obtain ⟨events, -, -, hdatabase, -, hordered⟩ := serves_ok hserves
      obtain ⟨appended, happended, hdates⟩ := enters_after events shared.database
      rw [hdatabase, happended, List.map_append]
      exact hdated.append (hordered.sublist hdates)

/-- The history stays in order and goes on explaining the balances. -/
theorem Runs.chronicled {start final : Shared} {requests : List Served}
    (hruns : Runs start requests final) (hstart : start.Chronicled) : final.Chronicled := by
  refine ⟨?_, ?_⟩
  · obtain ⟨first, hdated⟩ := hstart.dated
    refine ⟨first, ?_⟩
    induction hruns with
    | idle => exact hdated
    | serve _ hserves ih => exact hserves.dated ih
  · obtain ⟨initial, hexplained⟩ := hstart.explained
    obtain ⟨appended, happended, hunbroken⟩ := hruns.ledger_unbroken
    exact ⟨initial, happended ▸ hexplained.trans hunbroken⟩

end EasyTrade.Broker

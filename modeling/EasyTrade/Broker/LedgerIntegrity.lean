import EasyTrade.Broker.Requests

/-!
# The balance history as a ledger

The rows that a run appends to the balance history explain every balance.
Account by account they form an unbroken chain from the balance at the start to
the balance at the end, and what they record is what the events stand for.
-/

namespace EasyTrade.Broker

def historyColumns : Ledger.Columns BalanceHistory ℤ ℚ where
  account := BalanceHistory.accountId
  oldValue := BalanceHistory.oldValue
  change := BalanceHistory.valueChange

/-- These rows have been appended since the start, and they lead from the balances of
the start to the present ones. -/
def Posted (start database : Database) (appended : List BalanceHistory) : Prop :=
  database.balanceHistories = start.balanceHistories ++ appended ∧
    Ledger.Unbroken historyColumns start.balanceOf database.balanceOf appended

section Posted

variable {start database : Database} {appended : List BalanceHistory}

theorem Posted.refl (start : Database) : Posted start start [] :=
  ⟨(List.append_nil _).symm, Ledger.Unbroken.refl _⟩

/-- A posting to an account with a balance appends its row. -/
theorem Posted.post (hposted : Posted start database appended) {accountId : ℤ} {value : ℚ}
    (hvalue : database.balanceOf accountId = some value) (change : ℚ)
    (actionType : ActionType) (now : DateTime) :
    Posted start (database.post accountId change actionType now)
      (appended ++ [BalanceHistory.ofAction accountId value change actionType now]) := by
  obtain ⟨balance, hbalance⟩ := find?_balances_of_mem (mem_keys_of_balanceOf hvalue)
  have hsame : balance.value = value := by
    rw [Database.balanceOf, hbalance, Option.map_some] at hvalue
    exact Option.some.inj hvalue
  have hafter : (database.post accountId change actionType now).balanceOf accountId =
      some (value + change) := by
    rw [balanceOf_post, hvalue, Option.map_some, if_pos rfl]
  have hothers : ∀ other, other ≠ accountId →
      (database.post accountId change actionType now).balanceOf other =
        database.balanceOf other := by
    intro other hother
    rw [balanceOf_post]
    simp [hother]
  refine ⟨?_, hposted.2.post hvalue hafter hothers⟩
  rw [post_of_find? hbalance, hposted.1, List.append_assoc, hsame]

theorem Posted.hold (hposted : Posted start database appended) (accountId instrumentId : ℤ)
    (change : ℚ) (id : ℤ) (now : DateTime) :
    Posted start (database.hold accountId instrumentId change id now) appended := by
  have hsame : (database.hold accountId instrumentId change id now).balanceOf =
      database.balanceOf := funext balanceOf_hold
  rw [Posted, hold_balanceHistories, hsame]
  exact hposted

end Posted

/-- The rows appended since the start lead from the balances of the start to
the present ones. -/
def Audited (start database : Database) : Prop :=
  ∃ appended, database.balanceHistories = start.balanceHistories ++ appended ∧
    Ledger.Unbroken historyColumns start.balanceOf database.balanceOf appended

section Audited

variable {start database : Database}

theorem Audited.refl (start : Database) : Audited start start :=
  ⟨[], Posted.refl start⟩

/-- A posting keeps the ledger, also one to an account that does not exist. -/
theorem Audited.post (haudited : Audited start database) (accountId : ℤ) (change : ℚ)
    (actionType : ActionType) (now : DateTime) :
    Audited start (database.post accountId change actionType now) := by
  obtain ⟨appended, hposted⟩ := haudited
  cases hbalance : database.balances.find? accountId with
  | none =>
      simp only [Database.post, hbalance]
      exact ⟨appended, hposted⟩
  | some balance =>
      have hvalue : database.balanceOf accountId = some balance.value := by
        rw [Database.balanceOf, hbalance, Option.map_some]
      exact ⟨_, Posted.post hposted hvalue change actionType now⟩

theorem Audited.hold (haudited : Audited start database) (accountId instrumentId : ℤ)
    (change : ℚ) (id : ℤ) (now : DateTime) :
    Audited start (database.hold accountId instrumentId change id now) := by
  obtain ⟨appended, hposted⟩ := haudited
  exact ⟨appended, Posted.hold hposted _ _ _ _ _⟩

theorem Audited.settle (haudited : Audited start database) (trade : Trade)
    (settlement : Settlement) : Audited start (database.settle trade settlement) :=
  (((haudited.post _ _ _ _).post _ _ _ _).post _ _ _ _).hold _ _ _ _ _

theorem Audited.apply (haudited : Audited start database) (event : Event) :
    Audited start (event.apply database) := by
  cases event with
  | deposited | withdrawn => exact haudited.post _ _ _ _
  | registered | rejected => exact haudited
  | executed trade settlement => exact haudited.settle trade settlement
  | filled trade settlement => exact haudited.settle trade settlement

end Audited

/-- Ledger integrity: whatever requests are served one after the other, for
whatever accounts, the appended history rows form an unbroken chain for every
account. -/
theorem Runs.ledger_unbroken {start final : Shared} {requests : List Served}
    (hruns : Runs start requests final) :
    ∃ appended, final.database.balanceHistories =
        start.database.balanceHistories ++ appended ∧
      Ledger.Unbroken historyColumns start.database.balanceOf final.database.balanceOf
        appended := by
  have happly : ∀ (event : Event) database, Audited start.database database →
      event.Allowed database → Audited start.database (event.apply database) :=
    fun event _ haudited _ => haudited.apply event
  exact hruns.invariant happly (Audited.refl start.database)

theorem ledger_unbroken_day :
    ∃ final : Shared, final.database.balanceHistories.length = 15 ∧
      ∃ appended, final.database.balanceHistories =
          Sample.shared.database.balanceHistories ++ appended ∧
        Ledger.Unbroken historyColumns Sample.shared.database.balanceOf
          final.database.balanceOf appended := by
  obtain ⟨requests, final, hcheck, hruns⟩ := exists_runs Sample.shared Sample.day
    (fun _ final => final.database.balanceHistories.length = 15) (by decide +kernel)
  exact ⟨final, of_decide_eq_true hcheck, hruns.ledger_unbroken⟩

/-! ## What the rows record -/

/-- A history row without the balance it started from and its date. -/
def BalanceHistory.entry (row : BalanceHistory) : ℤ × ℚ × String :=
  (row.accountId, row.valueChange, row.actionType)

/-- The history of an executed trade. -/
def Settlement.entries (settlement : Settlement) (trade : Trade) :
    List (ℤ × ℚ × String) :=
  [(trade.accountId, settlement.income trade, settlement.direction.stored),
    (trade.accountId, -settlement.ppt, ActionType.transactionFee.stored),
    (ownerId, settlement.ppt, ActionType.collectFee.stored)]

def Event.entries : Event → List (ℤ × ℚ × String)
  | deposited accountId amount _ => [(accountId, amount, ActionType.deposit.stored)]
  | withdrawn accountId amount _ => [(accountId, -amount, ActionType.withdraw.stored)]
  | executed trade settlement | filled trade settlement => settlement.entries trade
  | registered _ | rejected _ _ => []

/-- The history has grown by rows with these entries. -/
def Records (start database : Database) (entries : List (ℤ × ℚ × String)) : Prop :=
  ∃ appended, database.balanceHistories = start.balanceHistories ++ appended ∧
    appended.map BalanceHistory.entry = entries

section Records

variable {start database : Database} {entries : List (ℤ × ℚ × String)}

theorem Records.refl (start : Database) : Records start start [] :=
  ⟨[], (List.append_nil _).symm, rfl⟩

theorem Records.post (hrecords : Records start database entries) {accountId : ℤ}
    (haccount : accountId ∈ database.balances.keys) (change : ℚ)
    (actionType : ActionType) (now : DateTime) :
    Records start (database.post accountId change actionType now)
      (entries ++ [(accountId, change, actionType.stored)]) := by
  obtain ⟨appended, happended, hentries⟩ := hrecords
  obtain ⟨balance, hbalance⟩ := find?_balances_of_mem haccount
  refine ⟨appended ++
    [BalanceHistory.ofAction accountId balance.value change actionType now], ?_, ?_⟩
  · rw [post_of_find? hbalance, happended, List.append_assoc]
  · rw [List.map_append, hentries]
    rfl

theorem Records.settle (hrecords : Records start database entries) {trade : Trade}
    {settlement : Settlement} (hsettleable : Settleable database trade settlement) :
    Records start (database.settle trade settlement)
      (entries ++ settlement.entries trade) := by
  have htrade := hrecords.post hsettleable.trader (settlement.income trade)
    settlement.direction settlement.tradeDate
  have hfee := htrade.post (by simpa using hsettleable.trader) (-settlement.ppt)
    .transactionFee settlement.feeDate
  have hcollect := hfee.post (by simpa using hsettleable.owner) settlement.ppt
    .collectFee settlement.collectDate
  obtain ⟨appended, happended, hentries⟩ := hcollect
  refine ⟨appended, ?_, ?_⟩
  · rw [Database.settle, hold_balanceHistories, Database.charge, happended]
  · rw [hentries, Settlement.entries]
    simp

theorem Records.apply (hrecords : Records start database entries) {event : Event}
    (hallowed : event.Allowed database) :
    Records start (event.apply database) (entries ++ event.entries) := by
  cases event with
  | deposited accountId amount date => exact hrecords.post hallowed.2 _ _ _
  | withdrawn accountId amount date =>
      obtain ⟨-, value, hvalue, -⟩ := hallowed
      exact hrecords.post (mem_keys_of_balanceOf hvalue) _ _ _
  | registered | rejected =>
      rw [Event.entries, List.append_nil]
      exact hrecords
  | executed trade settlement => exact hrecords.settle hallowed.2.2.2.2.2
  | filled trade settlement => exact hrecords.settle hallowed.2.2.2

/-- The history records every event of a run, in order. -/
theorem Records.after {events : List Event} (hpossible : Possible start events) :
    Records start (start.after events) (events.flatMap Event.entries) := by
  induction events using List.reverseRecOn with
  | nil => exact Records.refl start
  | append_singleton events event ih =>
      obtain ⟨hearlier, hallowed⟩ := Replay.possible_concat.mp hpossible
      rw [Database.after, Replay.run_append, List.flatMap_append, List.flatMap_singleton]
      exact (ih hearlier).apply hallowed

end Records

end EasyTrade.Broker

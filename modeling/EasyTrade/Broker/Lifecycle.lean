import EasyTrade.Broker.Holdings

/-!
# The life of a trade

A trade is open and then, once and for all, closed.  The commit that closes it
as executed is the one that moves its money and its instruments; a trade whose
time is up is closed without moving anything.
-/

namespace EasyTrade.Broker

/-- A property that a sequence acquires is acquired at one of its steps. -/
theorem exists_switch {p : ℕ → Prop} {i j : ℕ} (hij : i ≤ j) (hi : ¬p i) (hj : p j) :
    ∃ k, i ≤ k ∧ k < j ∧ ¬p k ∧ p (k + 1) := by
  induction j, hij using Nat.le_induction with
  | base => exact absurd hj hi
  | succ j hij ih =>
      by_cases hearlier : p j
      · obtain ⟨k, hik, hkj, hswitch⟩ := ih hearlier
        exact ⟨k, hik, hkj.trans (Nat.lt_succ_self j), hswitch⟩
      · exact ⟨j, hij, Nat.lt_succ_self j, hearlier, hj⟩

/-! ## Open and closed -/

section Closing

variable {start final : Shared} {requests : List Served}

/-- Only closed trades have happened. -/
def Database.HappenedClosed (database : Database) : Prop :=
  ∀ trade ∈ database.trades.rows, trade.transactionHappened = true →
    trade.tradeClosed = true

theorem Database.HappenedClosed.apply {database : Database} {event : Event}
    (hclosed : database.HappenedClosed) (hallowed : event.Allowed database) :
    (event.apply database).HappenedClosed := by
  intro trade htrade hhappened
  rcases trades_apply_cases hallowed with
    ⟨htrades, -⟩ | ⟨added, hfresh, hadded, htrades, -, -⟩ |
      ⟨old, status, happened, -, -, htrades, -⟩
  · exact hclosed trade (htrades ▸ htrade) hhappened
  · rw [htrades, Table.rows_insert hfresh, List.mem_append, List.mem_singleton] at htrade
    rcases htrade with htrade | rfl
    · exact hclosed trade htrade hhappened
    · exact hadded hhappened
  · rw [htrades] at htrade
    rcases Table.mem_rows_set.mp htrade with ⟨htrade, -⟩ | ⟨rfl, -⟩
    · exact hclosed trade htrade hhappened
    · rfl

theorem Runs.happenedClosed (hruns : Runs start requests final)
    (hstart : start.database.HappenedClosed) : final.database.HappenedClosed :=
  hruns.invariant (fun _ _ hclosed hallowed => Database.HappenedClosed.apply hclosed hallowed)
    hstart

theorem Runs.since (hruns : Runs start requests final) :
    Since start.database final.database := by
  obtain ⟨events, hpossible, hfinal, -, -⟩ := hruns.refines
  rw [hfinal]
  exact Since.after hpossible

theorem Since.isClosed {start database : Database} (hsince : Since start database) {id : ℤ}
    (hclosed : start.isClosed id) : database.isClosed id := by
  obtain ⟨trade, hfound, hclosed⟩ := hclosed
  exact ⟨trade, hsince.closed id trade hfound hclosed, hclosed⟩

/-- A trade that was open is either still open or closed. -/
theorem Since.isOpen_or {start database : Database} (hsince : Since start database) {id : ℤ}
    (hopen : start.isOpen id) : database.isOpen id ∨ database.isClosed id := by
  obtain ⟨trade, hfound, -⟩ := hopen
  have hkeys := hsince.keys id (Table.mem_keys_of_find? hfound)
  cases hfind : database.trades.find? id with
  | none => exact absurd hkeys (Table.find?_eq_none_iff.mp hfind)
  | some now =>
      cases hclosed : now.tradeClosed with
      | false => exact Or.inl ⟨now, hfind, hclosed⟩
      | true => exact Or.inr ⟨now, hfind, hclosed⟩

theorem not_isClosed_of_isOpen {database : Database} {id : ℤ} (hopen : database.isOpen id) :
    ¬database.isClosed id := by
  rintro ⟨closed, hfound, hclosed⟩
  obtain ⟨trade, hfound', hopen⟩ := hopen
  rw [Option.some.inj (hfound.symm.trans hfound'), hopen] at hclosed
  cases hclosed

/-- A trade that is open and later closed is closed by exactly one request. -/
theorem Visits.closed_once {states : ℕ → Shared} (hvisits : Visits states requests)
    {i j : ℕ} (hij : i ≤ j) (hj : j ≤ requests.length) {id : ℤ}
    (hopen : (states i).database.isOpen id) (hclosed : (states j).database.isClosed id) :
    ∃! k, k < requests.length ∧ (states k).database.isOpen id ∧
      (states (k + 1)).database.isClosed id := by
  have hsince : ∀ k l, k ≤ l → l ≤ requests.length →
      Since (states k).database (states l).database := fun k l hkl hl => by
    obtain ⟨served, hruns⟩ := hvisits.runs hkl hl
    exact hruns.since
  obtain ⟨k, hik, hkj, hnot, hthen⟩ :=
    exists_switch (p := fun k => (states k).database.isClosed id) hij
      (not_isClosed_of_isOpen hopen) hclosed
  have hk : k < requests.length := hkj.trans_le hj
  refine ⟨k, ⟨hk, ((hsince i k hik hk.le).isOpen_or hopen).resolve_right hnot, hthen⟩, ?_⟩
  rintro other ⟨hother, hotherOpen, hotherClosed⟩
  rcases lt_trichotomy other k with hlt | heq | hgt
  · exact absurd ((hsince (other + 1) k hlt hk.le).isClosed hotherClosed) hnot
  · exact heq
  · exact absurd ((hsince (k + 1) other hgt hother.le).isClosed hthen)
      (not_isClosed_of_isOpen hotherOpen)

end Closing

/-! ## Effects -/

/-- Everything that a request does to balances and holdings is in one commit and
is, apart from what is paid in, the effect of the trades which that commit adds
or closes as executed. -/
structure Explained (request : Served) (before after : Shared) : Prop where
  commit : request.outcome = .ok () → ∃ writes,
    after.binlog = before.binlog ++ [writes] ∧
      after.database = before.database.applyAll writes
  failure : request.outcome ≠ .ok () → after.database = before.database
  balances : ∀ accountId, after.database.balanceOf accountId =
    (before.database.balanceOf accountId).map (· +
      (request.paidIn (fun other => other = accountId) +
        ((executedDuring before.database after.database).map
          (before.database.balanceEffect accountId)).sum))
  holdings : ∀ accountId instrumentId,
    (after.database.holdingOf accountId instrumentId).getD 0 =
      (before.database.holdingOf accountId instrumentId).getD 0 +
        ((executedDuring before.database after.database).map
          (acquiredFor accountId instrumentId)).sum

theorem explained_of_serves {request : Served} {before after : Shared}
    (hserves : Serves request.environment request.operation before request.outcome after) :
    Explained request before after := by
  obtain ⟨events, hpossible, hdatabase, -, hpaidIn⟩ := (Runs.idle.serve hserves).refines
  refine ⟨fun hok => ?_, fun hfailed => ?_, fun accountId => ?_, ?_⟩
  · rw [hok] at hserves
    exact serves_commit hserves
  · cases houtcome : request.outcome with
    | ok value => exact absurd houtcome hfailed
    | error error =>
        rw [houtcome] at hserves
        exact (serves_error hserves).1
  · have hpaid := hpaidIn fun other => other = accountId
    simp only [List.nil_append, List.map_cons, List.map_nil, List.sum_cons, List.sum_nil,
      add_zero] at hpaid
    rw [hdatabase, balanceOf_after_eq hpossible, hpaid]
  · rw [hdatabase]
    exact getD_holdingOf_after hpossible

/-! ## Expiry -/

section Expiry

variable {environment : Environment} {shared shared' : Shared} {trade : Trade}

/-- What a committed run does with a trade whose time is up: it closes it
together with all others of the kind, which changes no other table, and what it
does afterwards does not concern this trade. -/
structure Expired (before after : Database) (trade : Trade) : Prop where
  closed : after.trades.find? trade.id =
    some (trade.close "Time is up: trade failed" false)
  nothing : ∃ expired events, expired.balances = before.balances ∧
    expired.balanceHistories = before.balanceHistories ∧
    expired.ownedInstruments = before.ownedInstruments ∧
    expired.trades.find? trade.id =
      some (trade.close "Time is up: trade failed" false) ∧
    Possible expired events ∧ after = expired.after events ∧ Closing events ∧
    ∀ event ∈ events, ∀ closed, event.notified = some closed → closed.id ≠ trade.id

theorem after_expirations (database : Database) (time : DateTime) :
    (database.after (expirations environment database time)).balances = database.balances ∧
      (database.after (expirations environment database time)).balanceHistories =
        database.balanceHistories ∧
      (database.after (expirations environment database time)).ownedInstruments =
        database.ownedInstruments := by
  rw [expirations]
  generalize environment.order _ = trades
  induction trades generalizing database with
  | nil => exact ⟨rfl, rfl, rfl⟩
  | cons trade trades ih => exact ih _

theorem overdue_mono {earlier later : DateTime} (hle : earlier ≤ later)
    (hoverdue : trade.overdue earlier = true) : trade.overdue later = true := by
  rw [Trade.overdue, Bool.and_eq_true] at hoverdue ⊢
  refine ⟨hoverdue.1, ?_⟩
  cases hclose : trade.timestampClose with
  | none => rw [hclose] at hoverdue; exact hoverdue.2
  | some close =>
      rw [hclose] at hoverdue
      have hearlier : close < earlier := of_decide_eq_true hoverdue.2
      exact decide_eq_true (hearlier.trans_le hle)

theorem expired_of_serves
    (hserves : Serves environment .processLongRunningTransactions shared (.ok ()) shared')
    (hfound : shared.database.trades.find? trade.id = some trade)
    (hoverdue : trade.overdue shared.clock = true) :
    Expired shared.database shared'.database trade := by
  obtain ⟨events, heffects, hpossible, hdatabase, -, -⟩ := serves_ok hserves
  have hclosing : Closing events := Processed.closing heffects
  obtain ⟨time, decisions, later, htime, rfl, -, -⟩ := heffects
  obtain ⟨hexpirations, hlater⟩ := Replay.possible_append.mp hpossible
  let closed := trade.close "Time is up: trade failed" false
  have hmem : Event.rejected trade "Time is up: trade failed" ∈
      expirations environment shared.database time := by
    refine List.mem_map_of_mem ((environment.order_perm _).mem_iff.mpr ?_)
    exact List.mem_filter.mpr ⟨Table.mem_of_find? hfound, overdue_mono htime hoverdue⟩
  have hnotified : (Event.rejected trade "Time is up: trade failed").notified =
      some closed := rfl
  have hexpired := find?_of_notified hexpirations hmem hnotified
  refine ⟨?_, _, later, (after_expirations _ _).1, (after_expirations _ _).2.1,
    (after_expirations _ _).2.2, hexpired.1, hlater, ?_, ?_, ?_⟩
  · rw [hdatabase]
    exact (find?_of_notified hpossible (List.mem_append_left _ hmem) hnotified).1
  · rw [hdatabase, Database.after, Replay.run_append]
  · exact fun event hevent => hclosing event (List.mem_append_right _ hevent)
  · exact fun event hevent other hother =>
      ne_of_closed hlater hevent hother ⟨closed, hexpired.1, rfl⟩

end Expiry

/-- The life of every trade in every run of requests: what has happened is
closed; what is closed stays as it is; a trade is closed at most once, and its
effects are committed with it; a trade whose time is up is closed by the next
run over the open trades, without effect. -/
theorem Visits.trade_lifecycle {states : ℕ → Shared} {requests : List Served}
    (hvisits : Visits states requests)
    (hstart : (states 0).database.HappenedClosed) :
    (∀ i ≤ requests.length, (states i).database.HappenedClosed) ∧
      (∀ i j, i ≤ j → j ≤ requests.length → ∀ id trade,
        (states i).database.trades.find? id = some trade → trade.tradeClosed = true →
          (states j).database.trades.find? id = some trade) ∧
      (∀ i j, i ≤ j → j ≤ requests.length → ∀ id, (states i).database.isOpen id →
        (states j).database.isClosed id →
          ∃! k, k < requests.length ∧ (states k).database.isOpen id ∧
            (states (k + 1)).database.isClosed id) ∧
      (∀ i (hi : i < requests.length),
        Explained requests[i] (states i) (states (i + 1))) ∧
      ∀ i (hi : i < requests.length),
        requests[i].operation = .processLongRunningTransactions →
        requests[i].outcome = .ok () → ∀ trade,
          (states i).database.trades.find? trade.id = some trade →
          trade.overdue (states i).clock = true →
            Expired (states i).database (states (i + 1)).database trade := by
  refine ⟨fun i hi => ?_, fun i j hij hj id trade hfound hclosed => ?_,
    fun i j hij hj id hopen hclosed => hvisits.closed_once hij hj hopen hclosed,
    fun i hi => explained_of_serves (hvisits i hi), fun i hi hoperation houtcome trade => ?_⟩
  · obtain ⟨served, hruns⟩ := hvisits.runs (Nat.zero_le i) hi
    exact hruns.happenedClosed hstart
  · obtain ⟨served, hruns⟩ := hvisits.runs hij hj
    exact hruns.since.closed id trade hfound hclosed
  · have hserves := hvisits i hi
    rw [hoperation, houtcome] at hserves
    exact expired_of_serves hserves

/-- The request is a run over the open trades that succeeds. -/
def Sample.processes (request : Served) : Bool :=
  match request.operation, request.outcome with
  | .processLongRunningTransactions, .ok _ => true
  | _, _ => false

/-- A trade expires; of three long buys one is filled, one is too expensive and one waits; and
an instrument is sold at once. -/
def Sample.fates : List (Environment × Operation × List Move) :=
  [Sample.smooth .processLongRunningTransactions, Sample.smooth (.longBuy 2 1 1 24 10),
    Sample.smooth (.longBuy 2 1 1000 24 10), Sample.smooth (.longBuy 2 1 1 24 5),
    Sample.smooth .processLongRunningTransactions, Sample.smooth (.quickSell 2 1 1)]

theorem trade_lifecycle_fates :
    ∃ (states : ℕ → Shared) (requests : List Served), Visits states requests ∧
      (states requests.length).database.trades.rows.map
          (fun trade => (trade.tradeClosed, trade.transactionHappened, trade.status)) =
        [(true, false, "Time is up: trade failed"),
          (true, true, "Long buy transaction finished!"),
          (true, false, "Not enough money to buy stocks! Trade failed!"),
          (false, false, "LongBuy registered."), (true, true, "Instant Sell done.")] ∧
      (∀ i ≤ requests.length, (states i).database.HappenedClosed) ∧
      (∃! k, k < requests.length ∧ (states k).database.isOpen 1 ∧
        (states (k + 1)).database.isClosed 1) ∧
      (∀ i (hi : i < requests.length), Explained requests[i] (states i) (states (i + 1))) ∧
      Expired (states 0).database (states 1).database Sample.openTrade := by
  obtain ⟨requests, final, hcheck, hruns⟩ := exists_runs Sample.shared Sample.fates
    (fun requests final => requests.head?.any Sample.processes &&
      decide (final.database.trades.rows.map
          (fun trade => (trade.tradeClosed, trade.transactionHappened, trade.status)) =
        [(true, false, "Time is up: trade failed"),
          (true, true, "Long buy transaction finished!"),
          (true, false, "Not enough money to buy stocks! Trade failed!"),
          (false, false, "LongBuy registered."), (true, true, "Instant Sell done.")]) &&
      (final.database.trades.find? 1).any Trade.tradeClosed) (by decide +kernel)
  simp only [Bool.and_eq_true, decide_eq_true_eq] at hcheck
  obtain ⟨⟨hfirst, hfates⟩, hclosed⟩ := hcheck
  obtain ⟨states, hvisits, hstart, hfinal⟩ := hruns.visits
  have hhappened : (states 0).database.HappenedClosed := by
    rw [hstart]
    simp [Database.HappenedClosed, Sample.shared, Sample.openTrade, Trade.longTrade]
  obtain ⟨hkept, -, honce, hexplained, hexpired⟩ := hvisits.trade_lifecycle hhappened
  refine ⟨states, requests, hvisits, hfinal ▸ hfates, hkept, ?_, hexplained, ?_⟩
  · obtain ⟨trade, htrade, hclosed⟩ := (Option.any_eq_true _ _).mp hclosed
    refine honce 0 requests.length (Nat.zero_le _) le_rfl 1 ?_ (hfinal ▸ ⟨trade, htrade, hclosed⟩)
    rw [hstart]
    exact ⟨Sample.openTrade, by decide, rfl⟩
  · cases requests with
    | nil => cases hfirst
    | cons request rest =>
        simp only [List.head?_cons, Option.any_some, Sample.processes] at hfirst
        split at hfirst
        · rename_i hoperation houtcome
          refine hexpired 0 (Nat.zero_lt_succ _) hoperation houtcome Sample.openTrade ?_ ?_
          · rw [hstart]
            decide
          · rw [hstart]
            decide
        · cases hfirst

end EasyTrade.Broker

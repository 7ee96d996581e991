import EasyTrade.Broker.Requests

/-!
# The trade table as a log

Which trades a run has executed can be read off the trade table alone, by
comparing it with the table at the start.  This file shows that the comparison
finds exactly the trades of the executing events, each of them once.
-/

namespace EasyTrade.Broker

namespace Trade

def isBuy (trade : Trade) : Bool :=
  equalsIgnoreCase trade.direction ActionType.buy.name ||
    equalsIgnoreCase trade.direction ActionType.longBuy.name

def isSell (trade : Trade) : Bool :=
  equalsIgnoreCase trade.direction ActionType.sell.name ||
    equalsIgnoreCase trade.direction ActionType.longSell.name

/-- What its execution pays to the trader, before the fee. -/
def value (trade : Trade) : ℚ :=
  (if trade.isSell then trade.quantity * trade.entryPrice else 0) -
    if trade.isBuy then trade.quantity * trade.entryPrice else 0

/-- What its execution adds to the trader's holding. -/
def acquired (trade : Trade) : ℚ :=
  (if trade.isBuy then trade.quantity else 0) - if trade.isSell then trade.quantity else 0

end Trade

/-- The fee of a trade. -/
def Database.feeOf (database : Database) (trade : Trade) : ℚ :=
  (database.pptOf trade.instrumentId).getD 0

/-- What the execution of a trade does to the balance of an account. -/
def Database.balanceEffect (database : Database) (accountId : ℤ) (trade : Trade) : ℚ :=
  (if accountId = trade.accountId then trade.value - database.feeOf trade else 0) +
    if accountId = ownerId then database.feeOf trade else 0

/-- A trade that was not there at the start, or was open then and is closed
now. -/
def Database.addedOrClosed (start : Database) (trade : Trade) : Bool :=
  match start.trades.find? trade.id with
  | none => true
  | some before => !before.tradeClosed && trade.tradeClosed

/-- The trades added or closed since the start whose transaction happened. -/
def executedDuring (start final : Database) : List Trade :=
  final.trades.rows.filter fun trade =>
    trade.transactionHappened && start.addedOrClosed trade

/-! ## What an event does to the trade table -/

/-- An event leaves the trades alone, adds a new one, or closes an open one. -/
theorem trades_apply_cases {event : Event} {database : Database}
    (hallowed : event.Allowed database) :
    ((event.apply database).trades = database.trades ∧ event.executedTrade = none) ∨
    (∃ trade, trade.id ∉ database.trades.keys ∧
      (trade.transactionHappened = true → trade.tradeClosed = true) ∧
      (event.apply database).trades = database.trades.insert trade ∧
      event.recorded = some trade ∧
      event.executedTrade = if trade.transactionHappened then some trade else none) ∨
    (∃ trade status happened, database.trades.find? trade.id = some trade ∧
      trade.tradeClosed = false ∧
      (event.apply database).trades = database.trades.set (trade.close status happened) ∧
      event.executedTrade =
        if happened then some (trade.close status happened) else none) := by
  cases event with
  | deposited accountId amount date => exact Or.inl ⟨post_trades, rfl⟩
  | withdrawn accountId amount date => exact Or.inl ⟨post_trades, rfl⟩
  | registered trade =>
      obtain ⟨hfresh, -, -, hhappened⟩ := hallowed
      exact Or.inr (Or.inl ⟨trade, hfresh, by simp [hhappened], rfl, rfl,
        by simp [Event.executedTrade, hhappened]⟩)
  | executed trade settlement =>
      obtain ⟨hfresh, -, hclosed, hhappened, -, -⟩ := hallowed
      exact Or.inr (Or.inl ⟨trade, hfresh, fun _ => hclosed, by simp [Event.apply], rfl,
        by simp [Event.executedTrade, hhappened]⟩)
  | filled trade settlement =>
      obtain ⟨hfound, hopen, -, -⟩ := hallowed
      exact Or.inr (Or.inr ⟨trade, settlement.status, true, hfound, hopen,
        by simp [Event.apply], rfl⟩)
  | rejected trade status =>
      exact Or.inr (Or.inr ⟨trade, status, false, hallowed.1, hallowed.2, rfl, rfl⟩)

/-- What remains true of the trade table since the start: no trade disappears,
closed trades stay as they are, and a new trade that happened is closed. -/
structure Since (start database : Database) : Prop where
  keys : ∀ id ∈ start.trades.keys, id ∈ database.trades.keys
  closed : ∀ id trade, start.trades.find? id = some trade → trade.tradeClosed = true →
    database.trades.find? id = some trade
  added : ∀ trade ∈ database.trades.rows, trade.id ∉ start.trades.keys →
    trade.transactionHappened = true → trade.tradeClosed = true

section Since

variable {start database : Database} {event : Event} {events : List Event}

theorem Since.refl (start : Database) : Since start start where
  keys _ hid := hid
  closed _ _ hfound _ := hfound
  added _ htrade hnew := absurd (List.mem_map_of_mem htrade) hnew

theorem Since.apply (hsince : Since start database) (hallowed : event.Allowed database) :
    Since start (event.apply database) := by
  rcases trades_apply_cases hallowed with
    ⟨htrades, -⟩ | ⟨trade, hfresh, hhappened, htrades, -, -⟩ |
      ⟨trade, status, happened, hfound, hopen, htrades, -⟩
  · exact ⟨htrades ▸ hsince.keys, htrades ▸ hsince.closed, htrades ▸ hsince.added⟩
  · refine ⟨fun id hid => ?_, fun id other hother hclosed => ?_, ?_⟩
    · rw [htrades]
      exact Table.mem_keys_insert.mpr (Or.inl (hsince.keys id hid))
    · have hkept := hsince.closed id other hother hclosed
      have hne : trade.id ≠ id := fun heq =>
        hfresh (heq ▸ Table.mem_keys_of_find? hkept)
      rw [htrades, Table.find?_insert hfresh, if_neg hne, hkept]
    · intro other hother hnew
      rw [htrades, Table.rows_insert hfresh, List.mem_append, List.mem_singleton] at hother
      rcases hother with hother | rfl
      · exact hsince.added other hother hnew
      · exact hhappened
  · refine ⟨fun id hid => ?_, fun id other hother hclosed => ?_, ?_⟩
    · rw [htrades, Table.keys_set]
      exact hsince.keys id hid
    · have hkept := hsince.closed id other hother hclosed
      -- the trade that is being closed was open, so it is not this one
      have hne : (trade.close status happened).id ≠ id := by
        rintro rfl
        have hsame : some other = some trade := hkept.symm.trans hfound
        rw [Option.some.inj hsame, hopen] at hclosed
        cases hclosed
      rw [htrades, Table.find?_set_ne hne, hkept]
    · intro other hother hnew hhappened
      rw [htrades] at hother
      rcases Table.mem_rows_set.mp hother with ⟨hold, -⟩ | ⟨rfl, -⟩
      · exact hsince.added other hold hnew hhappened
      · rfl

theorem Since.after (hpossible : Possible start events) : Since start (start.after events) :=
  hpossible.invariant (fun _ _ hsince hallowed => hsince.apply hallowed) (Since.refl start)

/-! ## Executed trades -/

/-- An open trade does not count as executed. -/
theorem not_executed_of_open (hsince : Since start database) {trade : Trade}
    (hfound : database.trades.find? trade.id = some trade)
    (hopen : trade.tradeClosed = false) :
    (trade.transactionHappened && start.addedOrClosed trade) = false := by
  rw [Database.addedOrClosed]
  cases hstart : start.trades.find? trade.id with
  | none =>
      have hhappened : trade.transactionHappened = false := by
        by_contra hhappened
        have hclosed := hsince.added trade (Table.mem_of_find? hfound)
          (Table.find?_eq_none_iff.mp hstart) (by simpa using hhappened)
        rw [hopen] at hclosed
        cases hclosed
      simp [hhappened]
  | some before => simp [hopen]

/-- A trade that is being closed was there and open at the start, or was not
there. -/
theorem addedOrClosed_close (hsince : Since start database) {trade : Trade}
    {status : String} {happened : Bool}
    (hfound : database.trades.find? trade.id = some trade)
    (hopen : trade.tradeClosed = false) :
    start.addedOrClosed (trade.close status happened) = true := by
  have hid : (trade.close status happened).id = trade.id := rfl
  rw [Database.addedOrClosed, hid]
  cases hstart : start.trades.find? trade.id with
  | none => rfl
  | some before =>
      cases hbefore : before.tradeClosed with
      | false => simp [hbefore, Trade.close]
      | true =>
          have hkept := hsince.closed trade.id before hstart hbefore
          rw [Option.some.inj (hkept.symm.trans hfound), hopen] at hbefore
          cases hbefore

theorem executedDuring_self (start : Database) : executedDuring start start = [] := by
  rw [executedDuring, List.filter_eq_nil_iff]
  intro trade htrade
  simp [Database.addedOrClosed, Table.find?_key htrade]

theorem executedDuring_apply (hsince : Since start database)
    (hallowed : event.Allowed database) :
    (executedDuring start (event.apply database)).Perm
      (executedDuring start database ++ event.executedTrade.toList) := by
  rw [executedDuring, executedDuring]
  rcases trades_apply_cases hallowed with
    ⟨htrades, hexecuted⟩ | ⟨trade, hfresh, -, htrades, -, hexecuted⟩ |
      ⟨trade, status, happened, hfound, hopen, htrades, hexecuted⟩
  · simp [htrades, hexecuted]
  · have hnew : start.addedOrClosed trade = true := by
      have hnone : start.trades.find? trade.id = none :=
        Table.find?_eq_none_iff.mpr fun hmem => hfresh (hsince.keys _ hmem)
      simp only [Database.addedOrClosed, hnone]
    rw [htrades, Table.rows_insert hfresh, List.filter_append, hexecuted]
    cases hhappened : trade.transactionHappened <;> simp [hhappened, hnew]
  · have hclosing : start.addedOrClosed (trade.close status happened) = true :=
      addedOrClosed_close hsince hfound hopen
    let executes : Trade → Bool := fun trade =>
      trade.transactionHappened && start.addedOrClosed trade
    have hbefore : executes trade = false := not_executed_of_open hsince hfound hopen
    have hfound' : database.trades.find? (trade.close status happened).id = some trade :=
      hfound
    have hperm := Table.filter_rows_set hfound' hbefore
    rw [htrades, hexecuted]
    refine hperm.trans (List.Perm.of_eq ?_)
    have hhappened : (trade.close status happened).transactionHappened = happened := rfl
    cases happened <;> simp [executes, hhappened, hclosing]

theorem sum_map_toList (events : List Event) :
    (events.map fun event => (event.executedTrade.toList : Multiset Trade)).sum =
      (events.filterMap Event.executedTrade : Multiset Trade) := by
  induction events with
  | nil => rfl
  | cons event events ih =>
      rw [List.map_cons, List.sum_cons, ih]
      cases hexecuted : event.executedTrade <;> simp [hexecuted]

/-- The table tells exactly which trades have been executed. -/
theorem executedDuring_after (hpossible : Possible start events) :
    (executedDuring start (start.after events)).Perm
      (events.filterMap Event.executedTrade) := by
  have htotal := hpossible.measure (Since start)
    (fun database => (executedDuring start database : Multiset Trade))
    (fun event => (event.executedTrade.toList : Multiset Trade))
    (fun _ _ hsince hallowed => hsince.apply hallowed)
    (fun _ _ hsince hallowed =>
      Multiset.coe_eq_coe.mpr (executedDuring_apply hsince hallowed))
    (Since.refl start)
  rw [sum_map_toList, executedDuring_self, Multiset.coe_nil, zero_add] at htotal
  exact Multiset.coe_eq_coe.mp htotal

/-- A total over the executed trades is a total over the events. -/
theorem sum_executedDuring (hpossible : Possible start events) (column : Trade → ℚ) :
    ((executedDuring start (start.after events)).map column).sum =
      (events.map fun event => event.executedTrade.elim 0 column).sum := by
  rw [((executedDuring_after hpossible).map column).sum_eq]
  clear hpossible
  induction events with
  | nil => rfl
  | cons event events ih =>
      rw [List.map_cons, List.sum_cons, ← ih]
      cases hexecuted : event.executedTrade <;> simp [hexecuted]

end Since

/-! ## Closed trades -/

def Database.isOpen (database : Database) (id : ℤ) : Prop :=
  ∃ trade, database.trades.find? id = some trade ∧ trade.tradeClosed = false

def Database.isClosed (database : Database) (id : ℤ) : Prop :=
  ∃ trade, database.trades.find? id = some trade ∧ trade.tradeClosed = true

section Closed

variable {start database : Database} {event : Event} {events : List Event}
variable {closed : Trade}

/-- The engine is told about an open trade that is now closed as the table
says. -/
theorem notified_apply (hallowed : event.Allowed database)
    (hnotified : event.notified = some closed) :
    database.isOpen closed.id ∧
      (event.apply database).trades = database.trades.set closed ∧
      (event.apply database).trades.find? closed.id = some closed ∧
      closed.tradeClosed = true := by
  cases event with
  | deposited | withdrawn | registered | executed => cases hnotified
  | filled trade settlement =>
      cases hnotified
      obtain ⟨hfound, hopen, -, -⟩ := hallowed
      have htrades : (Event.apply (.filled trade settlement) database).trades =
          database.trades.set (trade.close settlement.status true) := by
        simp [Event.apply]
      exact ⟨⟨trade, hfound, hopen⟩, htrades,
        htrades ▸ Table.find?_set_self (Table.mem_keys_of_find? hfound), rfl⟩
  | rejected trade status =>
      cases hnotified
      obtain ⟨hfound, hopen⟩ := hallowed
      exact ⟨⟨trade, hfound, hopen⟩, rfl,
        Table.find?_set_self (Table.mem_keys_of_find? hfound), rfl⟩

/-- A trade that is closed already is not closed again. -/
theorem ne_of_closed (hpossible : Possible start events) (hevent : event ∈ events)
    (hnotified : event.notified = some closed) {id : ℤ} (hclosed : start.isClosed id) :
    closed.id ≠ id := by
  rintro rfl
  obtain ⟨earlier, later, rfl⟩ := List.append_of_mem hevent
  obtain ⟨hearlier, hallowed, -⟩ := Replay.possible_append.mp hpossible
  obtain ⟨⟨trade, hfound, hopen⟩, -, -, -⟩ := notified_apply hallowed hnotified
  obtain ⟨before, hbefore, hstill⟩ := hclosed
  have hkept := (Since.after hearlier).closed closed.id before hbefore hstill
  rw [Option.some.inj (hkept.symm.trans hfound), hopen] at hstill
  cases hstill

/-- What the engine is told is what the table says at the end. -/
theorem find?_of_notified (hpossible : Possible start events) (hevent : event ∈ events)
    (hnotified : event.notified = some closed) :
    (start.after events).trades.find? closed.id = some closed ∧
      closed.tradeClosed = true := by
  obtain ⟨earlier, later, rfl⟩ := List.append_of_mem hevent
  obtain ⟨-, hallowed, hlater⟩ := Replay.possible_append.mp hpossible
  obtain ⟨-, -, hfound, hclosed⟩ := notified_apply hallowed hnotified
  rw [Database.after, Replay.run_append]
  exact ⟨(Since.after hlater).closed closed.id closed hfound hclosed, hclosed⟩

/-- A trade without a notification is as it was, when trades are only
closed. -/
theorem find?_of_not_notified (hpossible : Possible start events)
    (hclosing : Closing events) {id : ℤ}
    (hnone : ∀ event ∈ events, ∀ closed, event.notified = some closed → closed.id ≠ id) :
    (start.after events).trades.find? id = start.trades.find? id := by
  induction events using List.reverseRecOn with
  | nil => rfl
  | append_singleton events event ih =>
      obtain ⟨hearlier, hallowed⟩ := Replay.possible_concat.mp hpossible
      have hlast : event ∈ events ++ [event] := by simp
      have hkept := ih hearlier
        (fun other hother => hclosing other (List.mem_append_left _ hother))
        (fun other hother => hnone other (List.mem_append_left _ hother))
      cases hnotified : event.notified with
      | none =>
          have hresolution := hclosing event hlast
          cases event with
          | deposited | withdrawn | registered | executed => cases hresolution
          | filled | rejected => cases hnotified
      | some closed =>
          obtain ⟨-, htrades, -, -⟩ := notified_apply hallowed hnotified
          rw [Database.after, Replay.run_append]
          exact (congrArg (fun trades => trades.find? id) htrades).trans
            ((Table.find?_set_ne (hnone event hlast closed hnotified)).trans hkept)

/-- No trade is notified twice. -/
theorem nodup_notified (hpossible : Possible start events) :
    ((events.filterMap Event.notified).map Trade.id).Nodup := by
  induction events generalizing start with
  | nil => exact List.nodup_nil
  | cons event events ih =>
      have htail := ih hpossible.2
      cases hnotified : event.notified with
      | none => rwa [List.filterMap_cons_none hnotified]
      | some closed =>
          rw [List.filterMap_cons_some hnotified, List.map_cons, List.nodup_cons]
          refine ⟨fun hmem => ?_, htail⟩
          obtain ⟨other, hother, hid⟩ := List.mem_map.mp hmem
          obtain ⟨later, hlater, hother⟩ := List.mem_filterMap.mp hother
          obtain ⟨-, -, hfound, hclosed⟩ := notified_apply hpossible.1 hnotified
          exact ne_of_closed hpossible.2 hlater hother ⟨closed, hfound, hclosed⟩ hid

/-- Exactly the trades that were open and are closed have been notified. -/
theorem mem_notified_iff (hpossible : Possible start events) (hclosing : Closing events)
    (trade : Trade) :
    trade ∈ events.filterMap Event.notified ↔
      start.isOpen trade.id ∧
        (start.after events).trades.find? trade.id = some trade ∧
        trade.tradeClosed = true := by
  constructor
  · intro hmem
    obtain ⟨event, hevent, hnotified⟩ := List.mem_filterMap.mp hmem
    refine ⟨?_, find?_of_notified hpossible hevent hnotified⟩
    by_contra hopen
    obtain ⟨earlier, later, rfl⟩ := List.append_of_mem hevent
    obtain ⟨hearlier, hallowed, -⟩ := Replay.possible_append.mp hpossible
    obtain ⟨⟨before, hbefore, hbeforeOpen⟩, -, -, -⟩ := notified_apply hallowed hnotified
    have hdistinct := nodup_notified hpossible
    rw [List.filterMap_append, List.filterMap_cons_some hnotified, List.map_append,
      List.map_cons, List.nodup_middle, List.nodup_cons] at hdistinct
    have hother : ∀ other ∈ earlier, ∀ closed, other.notified = some closed →
        closed.id ≠ trade.id := by
      intro other hother closed hclosed hid
      have hmem : closed.id ∈ (earlier.filterMap Event.notified).map Trade.id :=
        List.mem_map_of_mem (List.mem_filterMap.mpr ⟨other, hother, hclosed⟩)
      exact hdistinct.1 (List.mem_append_left _ (hid ▸ hmem))
    have hkept := find?_of_not_notified hearlier
      (fun other hother => hclosing other (List.mem_append_left _ hother)) hother
    exact hopen ⟨before, hkept.symm.trans hbefore, hbeforeOpen⟩
  · rintro ⟨⟨before, hbefore, hopen⟩, hfound, hclosed⟩
    by_contra hmem
    have hnone : ∀ event ∈ events, ∀ closed, event.notified = some closed →
        closed.id ≠ trade.id := by
      intro event hevent closed hnotified hid
      have hsame := (find?_of_notified hpossible hevent hnotified).1
      rw [hid, hfound] at hsame
      exact hmem (List.mem_filterMap.mpr ⟨event, hevent, hnotified.trans hsame.symm⟩)
    have hkept := find?_of_not_notified hpossible hclosing hnone
    rw [hfound, hbefore] at hkept
    rw [Option.some.inj hkept, hopen] at hclosed
    cases hclosed

end Closed

/-- A signed total, as the difference of two totals. -/
theorem sum_signed (added removed : Trade → Bool) (column : Trade → ℚ)
    (trades : List Trade) :
    (trades.map fun trade => (if added trade then column trade else 0) -
      if removed trade then column trade else 0).sum =
      ((trades.filter added).map column).sum - ((trades.filter removed).map column).sum := by
  induction trades with
  | nil => simp
  | cons trade trades ih =>
      rw [List.map_cons, List.sum_cons, ih]
      cases hadded : added trade <;> cases hremoved : removed trade <;>
        simp [hadded, hremoved] <;> ring

/-! ## Directions -/

theorem equalsIgnoreCase_name_iff {text : String} {direction other : ActionType}
    (h : equalsIgnoreCase text direction.name = true) :
    equalsIgnoreCase text other.name = true ↔ direction = other := by
  rw [equalsIgnoreCase, beq_iff_eq] at h
  rw [equalsIgnoreCase, beq_iff_eq, h]
  constructor
  · intro hnames
    revert hnames
    cases direction <;> cases other <;> decide +kernel
  · rintro rfl
    rfl

section Directions

variable {database : Database} {trade : Trade} {settlement : Settlement}

/-- A settlement is for a buy or for a sell. -/
def Settlement.Trades (settlement : Settlement) : Prop :=
  settlement.direction = .buy ∨ settlement.direction = .sell ∨
    settlement.direction = .longBuy ∨ settlement.direction = .longSell

theorem settleable_of_executed
    (hallowed : Event.Allowed (.executed trade settlement) database) :
    Settleable database trade settlement ∧ settlement.Trades := by
  obtain ⟨-, -, -, -, hdirection, hsettleable⟩ := hallowed
  refine ⟨hsettleable, ?_⟩
  rcases hdirection with h | h <;> simp [Settlement.Trades, h]

theorem settleable_of_filled
    (hallowed : Event.Allowed (.filled trade settlement) database) :
    Settleable database trade settlement ∧ settlement.Trades := by
  obtain ⟨-, -, hdirection, hsettleable⟩ := hallowed
  refine ⟨hsettleable, ?_⟩
  rcases hdirection with h | h <;> simp [Settlement.Trades, h]

/-- The row of a trade says whether it is settled as a buy or as a sell. -/
theorem Settleable.signed (hsettleable : Settleable database trade settlement)
    (htrades : settlement.Trades) (amount : ℚ) :
    (if settlement.direction = .sell ∨ settlement.direction = .longSell then -amount
      else amount) =
      (if trade.isBuy then amount else 0) - if trade.isSell then amount else 0 := by
  have hbuy : trade.isBuy = true ↔
      settlement.direction = .buy ∨ settlement.direction = .longBuy := by
    rw [Trade.isBuy, Bool.or_eq_true, equalsIgnoreCase_name_iff hsettleable.direction,
      equalsIgnoreCase_name_iff hsettleable.direction]
  have hsell : trade.isSell = true ↔
      settlement.direction = .sell ∨ settlement.direction = .longSell := by
    rw [Trade.isSell, Bool.or_eq_true, equalsIgnoreCase_name_iff hsettleable.direction,
      equalsIgnoreCase_name_iff hsettleable.direction]
  simp only [hbuy, hsell]
  rcases htrades with h | h | h | h <;> simp [h]

theorem Settleable.income_eq (hsettleable : Settleable database trade settlement)
    (htrades : settlement.Trades) : settlement.income trade = trade.value := by
  have hsigned := hsettleable.signed htrades (trade.quantity * trade.entryPrice)
  rw [Settlement.income, TradeServiceBase.incomeOf, Trade.value,
    ← neg_sub (if trade.isBuy then trade.quantity * trade.entryPrice else 0), ← hsigned]
  split_ifs <;> simp

theorem Settleable.quantityChange_eq (hsettleable : Settleable database trade settlement)
    (htrades : settlement.Trades) :
    quantityChange settlement.direction trade.quantity = trade.acquired :=
  hsettleable.signed htrades trade.quantity

theorem Settleable.balanceChange_eq (hsettleable : Settleable database trade settlement)
    (htrades : settlement.Trades) (accountId : ℤ) :
    settlement.balanceChange trade accountId = database.balanceEffect accountId trade := by
  rw [Settlement.balanceChange, Database.balanceEffect, Database.feeOf, hsettleable.fee,
    hsettleable.income_eq htrades]
  rfl

end Directions

/-! ## Balances, as the trade table explains them -/

section Balances

variable {start database : Database} {event : Event} {events : List Event}

theorem balanceEffect_eq_of_pptOf (hppt : ∀ id, database.pptOf id = start.pptOf id)
    (accountId : ℤ) :
    database.balanceEffect accountId = start.balanceEffect accountId := by
  funext trade
  simp only [Database.balanceEffect, Database.feeOf, hppt]

/-- An event changes a balance by what is paid in and by the trade it
executes. -/
theorem balanceChange_eq (hallowed : event.Allowed database) (accountId : ℤ) :
    event.balanceChange accountId = event.paidIn (fun other => other = accountId) +
      event.executedTrade.elim 0 (database.balanceEffect accountId) := by
  cases event with
  | deposited | withdrawn =>
      simp [Event.balanceChange, Event.paidIn, Event.executedTrade, eq_comm]
  | registered | rejected => exact (add_zero (0 : ℚ)).symm
  | executed trade settlement =>
      obtain ⟨hsettleable, htrades⟩ := settleable_of_executed hallowed
      exact (hsettleable.balanceChange_eq htrades accountId).trans (zero_add _).symm
  | filled trade settlement =>
      obtain ⟨hsettleable, htrades⟩ := settleable_of_filled hallowed
      exact (hsettleable.balanceChange_eq htrades accountId).trans (zero_add _).symm

/-- Every event of a possible sequence is allowed at the fees of the start. -/
theorem allowed_of_mem (hpossible : Possible start events) (hevent : event ∈ events) :
    ∃ database, (∀ id, database.pptOf id = start.pptOf id) ∧ event.Allowed database := by
  have happly : ∀ (event : Event) (database : Database),
      (∀ id, database.pptOf id = start.pptOf id) → event.Allowed database →
        ∀ id, (event.apply database).pptOf id = start.pptOf id :=
    fun _ _ hppt _ id => (pptOf_apply id).trans (hppt id)
  exact hpossible.allowed_of_mem happly (fun _ => rfl) hevent

/-- Every balance is explained by what has been paid in and by the executed
trades. -/
theorem balanceOf_after_eq (hpossible : Possible start events) (accountId : ℤ) :
    (start.after events).balanceOf accountId =
      (start.balanceOf accountId).map
        (· + ((events.map (Event.paidIn fun other => other = accountId)).sum +
          ((executedDuring start (start.after events)).map
            (start.balanceEffect accountId)).sum)) := by
  have hchange : ∀ event ∈ events, event.balanceChange accountId =
      event.paidIn (fun other => other = accountId) +
        event.executedTrade.elim 0 (start.balanceEffect accountId) := by
    intro event hevent
    obtain ⟨database, hppt, hallowed⟩ := allowed_of_mem hpossible hevent
    rw [balanceChange_eq hallowed, balanceEffect_eq_of_pptOf hppt]
  rw [balanceOf_after, List.map_congr_left hchange, List.sum_map_add,
    sum_executedDuring hpossible]

end Balances

end EasyTrade.Broker

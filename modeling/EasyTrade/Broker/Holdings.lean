import EasyTrade.Broker.TradeLog

/-!
# Holdings

An account has at most one row for each instrument, its quantity is never
negative, and it is what the executed trades have added up to.
-/

namespace EasyTrade.Broker

/-- No instrument is held twice by one account, and nothing is held or to be
traded in a negative quantity. -/
structure Database.Sound (database : Database) : Prop where
  unique : (database.ownedInstruments.rows.map OwnedInstrument.pair).Nodup
  holdings : ∀ row ∈ database.ownedInstruments.rows, 0 ≤ row.quantity
  orders : ∀ trade ∈ database.trades.rows, trade.tradeClosed = false → 0 ≤ trade.quantity

section Hold

variable {database : Database} {accountId instrumentId : ℤ} {change : ℚ} {id : ℤ}
variable {now : DateTime}

theorem not_mem_pairs_of_holdingRow (hnone : database.holdingRow accountId instrumentId = none) :
    (accountId, instrumentId) ∉ database.ownedInstruments.rows.map OwnedInstrument.pair := by
  rintro hmem
  obtain ⟨row, hrow, hpair⟩ := List.mem_map.mp hmem
  have hdifferent := List.find?_eq_none.mp hnone row hrow
  rw [OwnedInstrument.isFor_iff] at hdifferent
  exact hdifferent (Prod.mk.inj hpair)

theorem holdingRow_of_mem
    (hunique : (database.ownedInstruments.rows.map OwnedInstrument.pair).Nodup)
    {row : OwnedInstrument} (hrow : row ∈ database.ownedInstruments.rows) :
    database.holdingRow row.accountId row.instrumentId = some row := by
  cases hfind : database.holdingRow row.accountId row.instrumentId with
  | none =>
      exact absurd (List.mem_map_of_mem hrow) (not_mem_pairs_of_holdingRow hfind)
  | some other =>
      have hpair : other.pair = row.pair :=
        Prod.ext (pair_of_holdingRow hfind).1 (pair_of_holdingRow hfind).2
      rw [List.inj_on_of_nodup_map hunique (mem_of_holdingRow hfind) hrow hpair]

/-- A row is only created for a pair that has none. -/
theorem nodup_pairs_hold
    (hunique : (database.ownedInstruments.rows.map OwnedInstrument.pair).Nodup) :
    ((database.hold accountId instrumentId change id now).ownedInstruments.rows.map
      OwnedInstrument.pair).Nodup := by
  rw [Database.hold]
  cases hrow : database.holdingRow accountId instrumentId with
  | none =>
      by_cases hid : id ∈ database.ownedInstruments.keys
      · dsimp only
        rwa [Table.insert_of_mem hid]
      · dsimp only
        rw [Table.rows_insert hid, List.map_append, List.map_singleton]
        refine hunique.append (List.nodup_singleton _) ?_
        rw [List.disjoint_singleton]
        exact not_mem_pairs_of_holdingRow hrow
  | some row =>
      have hkept : (database.ownedInstruments.set
          { row with
            quantity := row.quantity + change
            lastModificationDate := now }).rows.map OwnedInstrument.pair =
          database.ownedInstruments.rows.map OwnedInstrument.pair := by
        refine Table.map_rows_set fun old hold => ?_
        rw [← Option.some.inj ((Table.find?_key (mem_of_holdingRow hrow)).symm.trans hold)]
        rfl
      dsimp only
      rwa [hkept]

theorem nonneg_hold (hholdings : ∀ row ∈ database.ownedInstruments.rows, 0 ≤ row.quantity)
    (hchange : 0 ≤ (database.holdingOf accountId instrumentId).getD 0 + change) :
    ∀ row ∈ (database.hold accountId instrumentId change id now).ownedInstruments.rows,
      0 ≤ row.quantity := by
  intro other hother
  rw [Database.hold] at hother
  rw [Database.holdingOf] at hchange
  cases hrow : database.holdingRow accountId instrumentId with
  | none =>
      simp only [hrow, Option.map_none, Option.getD_none, zero_add] at hother hchange
      by_cases hid : id ∈ database.ownedInstruments.keys
      · rw [Table.insert_of_mem hid] at hother
        exact hholdings other hother
      · rw [Table.rows_insert hid, List.mem_append, List.mem_singleton] at hother
        rcases hother with hother | rfl
        · exact hholdings other hother
        · exact hchange
  | some row =>
      simp only [hrow, Option.map_some, Option.getD_some] at hother hchange
      rcases Table.mem_rows_set.mp hother with ⟨hold, -⟩ | ⟨rfl, -⟩
      · exact hholdings other hold
      · exact hchange

end Hold

section Sound

variable {start database : Database} {event : Event} {events : List Event}

theorem getD_holdingOf_nonneg (hsound : database.Sound) (accountId instrumentId : ℤ) :
    0 ≤ (database.holdingOf accountId instrumentId).getD 0 := by
  rw [Database.holdingOf]
  cases hrow : database.holdingRow accountId instrumentId with
  | none => exact le_rfl
  | some row => exact hsound.holdings row (mem_of_holdingRow hrow)

/-- A seller has what it sells. -/
theorem Settleable.holding_nonneg {trade : Trade} {settlement : Settlement}
    (hsettleable : Settleable database trade settlement) (hsound : database.Sound)
    (hquantity : 0 ≤ trade.quantity) :
    0 ≤ (database.holdingOf trade.accountId trade.instrumentId).getD 0 +
      quantityChange settlement.direction trade.quantity := by
  rw [quantityChange]
  split_ifs with hsell
  · obtain ⟨quantity, hheld, henough⟩ := hsettleable.available hsell
    rw [hheld, Option.getD_some]
    linarith
  · have hheld := getD_holdingOf_nonneg hsound trade.accountId trade.instrumentId
    linarith

theorem Settleable.sound {trade : Trade} {settlement : Settlement}
    (hsettleable : Settleable database trade settlement) (hsound : database.Sound)
    (hquantity : 0 ≤ trade.quantity) :
    ((database.settle trade settlement).ownedInstruments.rows.map
      OwnedInstrument.pair).Nodup ∧
      ∀ row ∈ (database.settle trade settlement).ownedInstruments.rows, 0 ≤ row.quantity := by
  refine ⟨nodup_pairs_hold (by simpa using hsound.unique),
    nonneg_hold (by simpa using hsound.holdings) ?_⟩
  rw [holdingOf_charge]
  exact hsettleable.holding_nonneg hsound hquantity

theorem Database.Sound.apply (hsound : database.Sound) (hallowed : event.Allowed database) :
    (event.apply database).Sound := by
  cases event with
  | deposited | withdrawn =>
      exact ⟨by simpa [Event.apply] using hsound.unique,
        by simpa [Event.apply] using hsound.holdings,
        by simpa [Event.apply] using hsound.orders⟩
  | registered trade =>
      obtain ⟨hfresh, hquantity, -, -⟩ := hallowed
      refine ⟨hsound.unique, hsound.holdings, fun other hother hopen => ?_⟩
      rw [Event.apply, Table.rows_insert hfresh, List.mem_append,
        List.mem_singleton] at hother
      rcases hother with hother | rfl
      · exact hsound.orders other hother hopen
      · exact hquantity
  | executed trade settlement =>
      obtain ⟨hunique, hholdings⟩ :=
        (settleable_of_executed hallowed).1.sound hsound hallowed.2.1
      refine ⟨hunique, hholdings, fun other hother hopen => ?_⟩
      simp only [Event.apply, settle_trades] at hother
      rw [Table.rows_insert hallowed.1, List.mem_append, List.mem_singleton] at hother
      rcases hother with hother | rfl
      · exact hsound.orders other hother hopen
      · rw [hallowed.2.2.1] at hopen
        cases hopen
  | filled trade settlement =>
      have hquantity := hsound.orders trade (Table.mem_of_find? hallowed.1) hallowed.2.1
      obtain ⟨hunique, hholdings⟩ :=
        (settleable_of_filled hallowed).1.sound hsound hquantity
      refine ⟨hunique, hholdings, fun other hother hopen => ?_⟩
      simp only [Event.apply, settle_trades] at hother
      rcases Table.mem_rows_set.mp hother with ⟨hold, -⟩ | ⟨rfl, -⟩
      · exact hsound.orders other hold hopen
      · cases hopen
  | rejected trade status =>
      refine ⟨hsound.unique, hsound.holdings, fun other hother hopen => ?_⟩
      rcases Table.mem_rows_set.mp hother with ⟨hold, -⟩ | ⟨rfl, -⟩
      · exact hsound.orders other hold hopen
      · cases hopen

/-- What the execution of a trade adds to a holding. -/
def acquiredFor (accountId instrumentId : ℤ) (trade : Trade) : ℚ :=
  if trade.accountId = accountId ∧ trade.instrumentId = instrumentId then trade.acquired
  else 0

theorem getD_holdingOf_settle {trade : Trade} {settlement : Settlement}
    (hsettleable : Settleable database trade settlement) (htrades : settlement.Trades)
    (accountId instrumentId : ℤ) :
    ((database.settle trade settlement).holdingOf accountId instrumentId).getD 0 =
      (database.holdingOf accountId instrumentId).getD 0 +
        acquiredFor accountId instrumentId trade := by
  rw [holdingOf_settle hsettleable, acquiredFor]
  by_cases hpair : accountId = trade.accountId ∧ instrumentId = trade.instrumentId
  · obtain ⟨rfl, rfl⟩ := hpair
    rw [if_pos ⟨rfl, rfl⟩, if_pos ⟨rfl, rfl⟩, Option.getD_some,
      hsettleable.quantityChange_eq htrades]
  · rw [if_neg hpair, if_neg fun h => hpair ⟨h.1.symm, h.2.symm⟩, add_zero]

theorem getD_holdingOf_apply (hallowed : event.Allowed database)
    (accountId instrumentId : ℤ) :
    ((event.apply database).holdingOf accountId instrumentId).getD 0 =
      (database.holdingOf accountId instrumentId).getD 0 +
        event.executedTrade.elim 0 (acquiredFor accountId instrumentId) := by
  cases event with
  | deposited | withdrawn => simp [Event.apply, Event.executedTrade]
  | registered | rejected => exact (add_zero _).symm
  | executed trade settlement =>
      obtain ⟨hsettleable, htrades⟩ := settleable_of_executed hallowed
      exact getD_holdingOf_settle hsettleable htrades accountId instrumentId
  | filled trade settlement =>
      obtain ⟨hsettleable, htrades⟩ := settleable_of_filled hallowed
      exact getD_holdingOf_settle hsettleable htrades accountId instrumentId

theorem getD_holdingOf_after (hpossible : Possible start events)
    (accountId instrumentId : ℤ) :
    ((start.after events).holdingOf accountId instrumentId).getD 0 =
      (start.holdingOf accountId instrumentId).getD 0 +
        ((executedDuring start (start.after events)).map
          (acquiredFor accountId instrumentId)).sum := by
  have htotal := hpossible.measure (fun _ => True)
    (fun database => (database.holdingOf accountId instrumentId).getD 0)
    (fun event => event.executedTrade.elim 0 (acquiredFor accountId instrumentId))
    (fun _ _ _ _ => trivial)
    (fun _ _ _ hallowed => getD_holdingOf_apply hallowed accountId instrumentId) trivial
  rw [Database.after, htotal, sum_executedDuring hpossible]

end Sound

/-- The quantity bought of an instrument for an account. -/
def boughtOf (accountId instrumentId : ℤ) (trades : List Trade) : ℚ :=
  ((trades.filter fun trade => trade.isBuy && trade.accountId = accountId &&
    trade.instrumentId = instrumentId).map Trade.quantity).sum

/-- The quantity sold of an instrument for an account. -/
def soldOf (accountId instrumentId : ℤ) (trades : List Trade) : ℚ :=
  ((trades.filter fun trade => trade.isSell && trade.accountId = accountId &&
    trade.instrumentId = instrumentId).map Trade.quantity).sum

theorem sum_acquiredFor (accountId instrumentId : ℤ) (trades : List Trade) :
    (trades.map (acquiredFor accountId instrumentId)).sum =
      boughtOf accountId instrumentId trades - soldOf accountId instrumentId trades := by
  rw [boughtOf, soldOf, ← sum_signed]
  congr 1
  refine List.map_congr_left fun trade _ => ?_
  rw [acquiredFor, Trade.acquired]
  by_cases haccount : trade.accountId = accountId <;>
    by_cases hinstrument : trade.instrumentId = instrumentId <;>
      simp [haccount, hinstrument]

/-- Holdings agree with the trade log after every run that starts soundly. -/
theorem Runs.holdings_agree {start final : Shared} {requests : List Served}
    (hruns : Runs start requests final) (hsound : start.database.Sound) :
    (final.database.ownedInstruments.rows.map OwnedInstrument.pair).Nodup ∧
      (∀ row ∈ final.database.ownedInstruments.rows, 0 ≤ row.quantity ∧
        final.database.holdingOf row.accountId row.instrumentId = some row.quantity) ∧
      ∀ accountId instrumentId,
        (final.database.holdingOf accountId instrumentId).getD 0 -
            (start.database.holdingOf accountId instrumentId).getD 0 =
          boughtOf accountId instrumentId
              (executedDuring start.database final.database) -
            soldOf accountId instrumentId
              (executedDuring start.database final.database) := by
  have hfinal : final.database.Sound :=
    hruns.invariant (fun _ _ hsound hallowed => Database.Sound.apply hsound hallowed) hsound
  refine ⟨hfinal.unique, fun row hrow => ⟨hfinal.holdings row hrow, ?_⟩, ?_⟩
  · rw [Database.holdingOf, holdingRow_of_mem hfinal.unique hrow, Option.map_some]
  · intro accountId instrumentId
    obtain ⟨events, hpossible, hdatabase, -, -⟩ := hruns.refines
    rw [hdatabase, getD_holdingOf_after hpossible, sum_acquiredFor]
    ring

end EasyTrade.Broker

import EasyTrade.Broker.Holdings
import EasyTrade.Broker.StoredLedger

/-!
# Holdings as they are stored

The quantity of a trade and the quantity of a holding are columns of eight decimals, and each
is rounded on its own.  What is bought is rounded up in both alike.  What is sold is not when
it lies in the middle of two stored quantities: the trade is rounded up, and so is what is left
of the holding.
-/

namespace EasyTrade.Broker

open Rounding

/-- A quantity that is sold at once is not in the middle of two stored ones. -/
def Operation.SellsNoHalf : Operation → Prop
  | quickSell _ _ amount => ¬Halfway decimalUnit amount
  | _ => True

instance : (operation : Operation) → Decidable operation.SellsNoHalf
  | .quickSell _ _ amount => inferInstanceAs (Decidable (¬Halfway decimalUnit amount))
  | .deposit _ _ | .withdraw _ _ | .quickBuy _ _ _ | .longBuy _ _ _ _ _
  | .longSell _ _ _ _ _ | .processLongRunningTransactions => inferInstanceAs (Decidable True)

/-- Requests of all kinds and outcomes are served one at a time, and the next one reads what the
database has stored. -/
inductive StoredRequests (start : Shared) : List Served → Shared → Prop
  | idle : StoredRequests start [] start
  | serve {requests : List Served} {request : Served} {middle final : Shared} :
      StoredRequests start requests middle →
      Serves request.environment request.operation middle request.outcome final →
      StoredRequests start (requests ++ [request]) final.stored

/-! ## Rows before and after they are stored -/

section Rows

variable {start database : Database}

theorem holdingOf_stored (accountId instrumentId : ℤ) :
    database.stored.holdingOf accountId instrumentId =
      (database.holdingOf accountId instrumentId).map storedDecimal := by
  have hrow : database.stored.holdingRow accountId instrumentId =
      (database.holdingRow accountId instrumentId).map OwnedInstrument.stored :=
    List.find?_map ..
  rw [Database.holdingOf, hrow, Option.map_map, Database.holdingOf, Option.map_map]
  rfl

theorem storedDecimal_zero : storedDecimal 0 = 0 := roundTo_zero decimalUnit_pos

theorem getD_holdingOf_stored (accountId instrumentId : ℤ) :
    (database.stored.holdingOf accountId instrumentId).getD 0 =
      storedDecimal ((database.holdingOf accountId instrumentId).getD 0) := by
  rw [holdingOf_stored]
  cases database.holdingOf accountId instrumentId with
  | none => exact storedDecimal_zero.symm
  | some quantity => rfl

theorem Database.Sound.stored (hsound : database.Sound) : database.stored.Sound where
  unique := by
    have hpairs : database.stored.ownedInstruments.rows.map OwnedInstrument.pair =
        database.ownedInstruments.rows.map OwnedInstrument.pair :=
      List.map_map
    rw [hpairs]
    exact hsound.unique
  holdings := by
    intro row hrow
    obtain ⟨old, hold, rfl⟩ := List.mem_map.mp hrow
    exact roundTo_nonneg decimalUnit_pos (hsound.holdings old hold)
  orders := by
    intro trade htrade hopen
    obtain ⟨old, hold, rfl⟩ := List.mem_map.mp htrade
    exact roundTo_nonneg decimalUnit_pos (hsound.orders old hold hopen)

theorem executedDuring_stored :
    executedDuring start database.stored = (executedDuring start database).map Trade.stored :=
  List.filter_map ..

/-- A row that has been stored is stored as it is. -/
theorem stored_of_mem (hstored : database.stored = database) {trade : Trade}
    (htrade : trade ∈ database.trades.rows) : trade.stored = trade := by
  have hrows : database.trades.rows.map Trade.stored = database.trades.rows :=
    congrArg (fun database => database.trades.rows) hstored
  exact List.map_eq_map_iff.mp (hrows.trans (List.map_id _).symm) trade htrade

theorem Since.stored (hsince : Since start database) (hstored : start.stored = start) :
    Since start database.stored where
  keys id hid := by
    have hkeys : database.stored.trades.keys = database.trades.keys := List.map_map
    rw [hkeys]
    exact hsince.keys id hid
  closed id trade hfound hclosed := by
    have hfind : database.stored.trades.find? id =
        (database.trades.find? id).map Trade.stored :=
      Table.find?_map Trade.id_stored database.trades id
    rw [hfind, hsince.closed id trade hfound hclosed, Option.map_some,
      stored_of_mem hstored (Table.mem_of_find? hfound)]
  added trade htrade hnew hhappened := by
    obtain ⟨old, hold, rfl⟩ := List.mem_map.mp htrade
    exact hsince.added old hold hnew hhappened

end Rows

/-! ## One request -/

section Request

variable {start database : Database} {events : List Event}

theorem Since.follow (hsince : Since start database) (hpossible : Possible database events) :
    Since start (database.after events) :=
  hpossible.invariant (fun _ _ hsince hallowed => hsince.apply hallowed) hsince

/-- The trades executed by further events come on top. -/
theorem executedDuring_follow (hsince : Since start database)
    (hpossible : Possible database events) :
    (executedDuring start (database.after events)).Perm
      (executedDuring start database ++ events.filterMap Event.executedTrade) := by
  have htotal := hpossible.measure (Since start)
    (fun database => (executedDuring start database : Multiset Trade))
    (fun event => (event.executedTrade.toList : Multiset Trade))
    (fun _ _ hsince hallowed => hsince.apply hallowed)
    (fun _ _ hsince hallowed =>
      Multiset.coe_eq_coe.mpr (executedDuring_apply hsince hallowed)) hsince
  rw [sum_map_toList] at htotal
  exact Multiset.coe_eq_coe.mp htotal

/-- The trades of the start keep their stored quantities. -/
theorem quantity_after (hstored : database.stored = database)
    (hpossible : Possible database events) {trade : Trade}
    (htrade : trade ∈ (database.after events).trades.rows)
    (hold : trade.id ∈ database.trades.keys) : storedDecimal trade.quantity = trade.quantity := by
  have hkept : ∀ (event : Event) (current : Database),
      ((∀ id ∈ database.trades.keys, id ∈ current.trades.keys) ∧
        ∀ trade ∈ current.trades.rows, trade.id ∈ database.trades.keys →
          storedDecimal trade.quantity = trade.quantity) → event.Allowed current →
      ((∀ id ∈ database.trades.keys, id ∈ (event.apply current).trades.keys) ∧
        ∀ trade ∈ (event.apply current).trades.rows, trade.id ∈ database.trades.keys →
          storedDecimal trade.quantity = trade.quantity) := by
    rintro event current ⟨hkeys, hquantities⟩ hallowed
    rcases trades_apply_cases hallowed with
      ⟨htrades, -⟩ | ⟨trade, hfresh, -, htrades, -, -⟩ |
        ⟨trade, status, happened, hfound, -, htrades, -⟩
    · rw [htrades]
      exact ⟨hkeys, hquantities⟩
    · rw [htrades, Table.rows_insert hfresh]
      refine ⟨fun id hid => Table.mem_keys_insert.mpr (Or.inl (hkeys id hid)), ?_⟩
      intro other hother hold
      rcases List.mem_append.mp hother with hother | hnew
      · exact hquantities other hother hold
      · rw [List.mem_singleton.mp hnew] at hold
        exact absurd (hkeys _ hold) hfresh
    · rw [htrades, Table.keys_set]
      refine ⟨hkeys, fun other hother hold => ?_⟩
      rcases Table.mem_rows_set.mp hother with ⟨hother, -⟩ | ⟨rfl, -⟩
      · exact hquantities other hother hold
      · exact hquantities trade (Table.mem_of_find? hfound) hold
  have hstart : ∀ trade ∈ database.trades.rows, trade.id ∈ database.trades.keys →
      storedDecimal trade.quantity = trade.quantity :=
    fun trade htrade _ => congrArg Trade.quantity (stored_of_mem hstored htrade)
  exact (hpossible.invariant hkept ⟨fun _ hid => hid, hstart⟩).2 trade htrade hold

/-- Trades that are executed by closing them have stored quantities. -/
theorem executed_of_closing (hstored : database.stored = database)
    (hpossible : Possible database events) (hclosing : Closing events) {trade : Trade}
    (htrade : trade ∈ events.filterMap Event.executedTrade) :
    storedDecimal trade.quantity = trade.quantity := by
  have hnotified : trade ∈ events.filterMap Event.notified := by
    obtain ⟨event, hevent, hexecuted⟩ := List.mem_filterMap.mp htrade
    refine List.mem_filterMap.mpr ⟨event, hevent, ?_⟩
    have hresolution := hclosing event hevent
    cases event with
    | deposited | withdrawn | registered | executed => cases hresolution
    | filled => exact hexecuted
    | rejected => cases hexecuted
  obtain ⟨⟨before, hbefore, -⟩, hfound, -⟩ := (mem_notified_iff hpossible hclosing trade).mp
    hnotified
  exact quantity_after hstored hpossible (Table.mem_of_find? hfound)
    (Table.mem_keys_of_find? hbefore)

/-- What is held was stored before. -/
theorem storedDecimal_holding (hstored : database.stored = database)
    (accountId instrumentId : ℤ) :
    storedDecimal ((database.holdingOf accountId instrumentId).getD 0) =
      (database.holdingOf accountId instrumentId).getD 0 := by
  rw [← getD_holdingOf_stored, hstored]

section Gain

variable {trade : Trade} {accountId instrumentId : ℤ}

theorem acquiredFor_stored (hquantity : storedDecimal trade.quantity = trade.quantity) :
    acquiredFor accountId instrumentId trade.stored =
      acquiredFor accountId instrumentId trade := by
  have hacquired : trade.stored.acquired = trade.acquired := by
    rw [Trade.acquired, Trade.acquired]
    exact congrArg (fun quantity => (if trade.isBuy then quantity else 0) -
      if trade.isSell then quantity else 0) hquantity
  rw [acquiredFor, hacquired]
  rfl

theorem storedDecimal_acquiredFor (hquantity : storedDecimal trade.quantity = trade.quantity) :
    storedDecimal (acquiredFor accountId instrumentId trade) =
      acquiredFor accountId instrumentId trade := by
  have hbought : storedDecimal (if trade.isBuy then trade.quantity else 0) =
      if trade.isBuy then trade.quantity else 0 := by
    split_ifs
    · exact hquantity
    · exact storedDecimal_zero
  have hsold : storedDecimal (-if trade.isSell then trade.quantity else 0) =
      -if trade.isSell then trade.quantity else 0 := by
    refine (roundTo_neg _).trans (congrArg Neg.neg ?_)
    split_ifs
    · exact hquantity
    · exact storedDecimal_zero
  rw [acquiredFor]
  split_ifs
  · rw [Trade.acquired, sub_eq_add_neg]
    exact roundTo_add_of_multiples decimalUnit_pos hbought hsold
  · exact storedDecimal_zero

/-- A bought quantity is stored alike in the trade and in the holding, and so is a sold one that
is not in the middle. -/
theorem Settleable.stored_holding {settlement : Settlement}
    (hsettleable : Settleable database trade settlement) (htrades : settlement.Trades)
    (hstored : database.stored = database) (hsound : database.Sound)
    (hquantity : 0 ≤ trade.quantity)
    (hhalf : settlement.direction = .sell ∨ settlement.direction = .longSell →
      ¬Halfway decimalUnit trade.quantity) :
    storedDecimal ((database.holdingOf accountId instrumentId).getD 0 +
        acquiredFor accountId instrumentId trade) =
      (database.holdingOf accountId instrumentId).getD 0 +
        acquiredFor accountId instrumentId trade.stored := by
  have hheld := storedDecimal_holding hstored accountId instrumentId
  by_cases hpair : trade.accountId = accountId ∧ trade.instrumentId = instrumentId
  · obtain ⟨rfl, rfl⟩ := hpair
    have hchange : acquiredFor trade.accountId trade.instrumentId trade =
        quantityChange settlement.direction trade.quantity := by
      rw [acquiredFor, if_pos ⟨rfl, rfl⟩, hsettleable.quantityChange_eq htrades]
    have hstoredChange : acquiredFor trade.accountId trade.instrumentId trade.stored =
        quantityChange settlement.direction (storedDecimal trade.quantity) := by
      rw [acquiredFor, if_pos ⟨rfl, rfl⟩]
      exact (hsettleable.signed htrades (storedDecimal trade.quantity)).symm
    rw [hchange, hstoredChange, quantityChange, quantityChange]
    split_ifs with hsell
    · obtain ⟨quantity, hfound, henough⟩ := hsettleable.available hsell
      rw [hfound, Option.getD_some] at hheld ⊢
      rw [← sub_eq_add_neg, ← sub_eq_add_neg]
      exact (roundTo_sub_iff decimalUnit_pos hheld hquantity henough).mpr (hhalf hsell)
    · exact roundTo_add_of_nonneg decimalUnit_pos hheld
        (getD_holdingOf_nonneg hsound trade.accountId trade.instrumentId) hquantity
  · have hzero : acquiredFor accountId instrumentId trade = 0 := if_neg hpair
    have hstoredZero : acquiredFor accountId instrumentId trade.stored = 0 := if_neg hpair
    rw [hzero, hstoredZero, add_zero, hheld]

/-- A quick trade, unless it sells an amount in the middle. -/
theorem stored_holding_carries {environment : Environment} {traderId tradedId : ℤ} {amount : ℚ}
    {direction : ActionType} {event : Event} (hstored : database.stored = database)
    (hsound : database.Sound)
    (hcarries : TradeService.Carries environment traderId tradedId amount direction event)
    (hquick : direction = .buy ∨ direction = .sell)
    (hhalf : direction = .sell → ¬Halfway decimalUnit amount) (hallowed : event.Allowed database) :
    ∃ trade, event.executedTrade = some trade ∧
      storedDecimal ((database.holdingOf accountId instrumentId).getD 0 +
          acquiredFor accountId instrumentId trade) =
        (database.holdingOf accountId instrumentId).getD 0 +
          acquiredFor accountId instrumentId trade.stored := by
  obtain ⟨price, id, opened, closed, settlement, -, hdirection, rfl⟩ := hcarries
  obtain ⟨hsettleable, htrades⟩ := settleable_of_executed hallowed
  refine ⟨_, rfl, hsettleable.stored_holding htrades hstored hsound hallowed.2.1 ?_⟩
  rw [hdirection]
  rintro (hsell | hlongSell)
  · exact hhalf hsell
  · rw [hlongSell] at hquick
    simp at hquick

/-- Trades that have been stored before. -/
theorem stored_holding_closing (hstored : database.stored = database)
    (hpossible : Possible database events) (hclosing : Closing events) :
    storedDecimal ((database.holdingOf accountId instrumentId).getD 0 +
        ((events.filterMap Event.executedTrade).map
          (acquiredFor accountId instrumentId)).sum) =
      (database.holdingOf accountId instrumentId).getD 0 +
        (((events.filterMap Event.executedTrade).map Trade.stored).map
          (acquiredFor accountId instrumentId)).sum := by
  have hquantities : ∀ trade ∈ events.filterMap Event.executedTrade,
      storedDecimal trade.quantity = trade.quantity :=
    fun trade => executed_of_closing hstored hpossible hclosing
  have hsame : ((events.filterMap Event.executedTrade).map Trade.stored).map
      (acquiredFor accountId instrumentId) =
        (events.filterMap Event.executedTrade).map (acquiredFor accountId instrumentId) := by
    rw [List.map_map]
    exact List.map_congr_left fun trade htrade => acquiredFor_stored (hquantities trade htrade)
  rw [hsame]
  refine roundTo_add_of_multiples decimalUnit_pos
    (storedDecimal_holding hstored accountId instrumentId)
    (roundTo_sum_of_multiples decimalUnit_pos fun term hterm => ?_)
  obtain ⟨trade, htrade, rfl⟩ := List.mem_map.mp hterm
  exact storedDecimal_acquiredFor (hquantities trade htrade)

end Gain

/-- What an operation executes changes the stored holdings as the stored trades say. -/
theorem stored_holding_of_effects {environment : Environment} {operation : Operation}
    {clock : DateTime} (hstored : database.stored = database) (hsound : database.Sound)
    (heffects : operation.Effects environment database clock events)
    (hpossible : Possible database events) (hhalf : operation.SellsNoHalf)
    (accountId instrumentId : ℤ) :
    storedDecimal ((database.holdingOf accountId instrumentId).getD 0 +
        ((events.filterMap Event.executedTrade).map
          (acquiredFor accountId instrumentId)).sum) =
      (database.holdingOf accountId instrumentId).getD 0 +
        (((events.filterMap Event.executedTrade).map Trade.stored).map
          (acquiredFor accountId instrumentId)).sum := by
  have hheld := storedDecimal_holding hstored accountId instrumentId
  cases operation with
  | deposit | withdraw =>
      obtain ⟨date, rfl⟩ := heffects
      simpa [List.filterMap_cons, Event.executedTrade] using hheld
  | longBuy | longSell =>
      obtain ⟨event, rfl, id, opened, expires, rfl⟩ := heffects
      simpa [List.filterMap_cons, Event.executedTrade] using hheld
  | quickBuy =>
      obtain ⟨event, rfl, hcarries⟩ := heffects
      obtain ⟨trade, hexecuted, hone⟩ :=
        stored_holding_carries hstored hsound hcarries (Or.inl rfl) (fun h => by cases h)
          hpossible.1
      simpa [List.filterMap_cons, hexecuted] using hone
  | quickSell =>
      obtain ⟨event, rfl, hcarries⟩ := heffects
      obtain ⟨trade, hexecuted, hone⟩ :=
        stored_holding_carries hstored hsound hcarries (Or.inr rfl) (fun _ => hhalf) hpossible.1
      simpa [List.filterMap_cons, hexecuted] using hone
  | processLongRunningTransactions =>
      exact stored_holding_closing hstored hpossible (Processed.closing heffects)

end Request

/-! ## All requests -/

/-- The stored holdings have changed as the stored trades say. -/
structure HoldingsAgree (start database : Database) : Prop where
  stored : database.stored = database
  sound : database.Sound
  since : Since start database
  agree : ∀ accountId instrumentId, (database.holdingOf accountId instrumentId).getD 0 =
    (start.holdingOf accountId instrumentId).getD 0 +
      ((executedDuring start database).map (acquiredFor accountId instrumentId)).sum

section Run

variable {start final : Shared} {requests : List Served}

/-- One request, which has succeeded. -/
theorem HoldingsAgree.store {environment : Environment} {operation : Operation}
    {clock : DateTime} {start database : Database} {events : List Event}
    (hagree : HoldingsAgree start database) (hstart : start.stored = start)
    (heffects : operation.Effects environment database clock events)
    (hpossible : Possible database events) (hhalf : operation.SellsNoHalf) :
    HoldingsAgree start (database.after events).stored where
  stored := stored_stored _
  sound := by
    have hafter : (database.after events).Sound :=
      hpossible.invariant (fun _ _ hsound hallowed => hsound.apply hallowed) hagree.sound
    exact hafter.stored
  since := (hagree.since.follow hpossible).stored hstart
  agree accountId instrumentId := by
    have hearlier : (executedDuring start database).map Trade.stored =
        executedDuring start database := by
      rw [← executedDuring_stored, hagree.stored]
    have hexecuted := ((executedDuring_follow hagree.since hpossible).map Trade.stored).map
      (acquiredFor accountId instrumentId)
    have hgained : ((executedDuring database (database.after events)).map
        (acquiredFor accountId instrumentId)).sum =
          ((events.filterMap Event.executedTrade).map (acquiredFor accountId instrumentId)).sum :=
      ((executedDuring_after hpossible).map _).sum_eq
    calc
      _ = storedDecimal ((database.holdingOf accountId instrumentId).getD 0 +
          ((events.filterMap Event.executedTrade).map
            (acquiredFor accountId instrumentId)).sum) := by
        rw [getD_holdingOf_stored, getD_holdingOf_after hpossible, hgained]
      _ = (database.holdingOf accountId instrumentId).getD 0 +
          (((events.filterMap Event.executedTrade).map Trade.stored).map
            (acquiredFor accountId instrumentId)).sum :=
        stored_holding_of_effects hagree.stored hagree.sound heffects hpossible hhalf accountId
          instrumentId
      _ = _ := by
        rw [hagree.agree, executedDuring_stored, hexecuted.sum_eq, List.map_append,
          List.map_append, List.sum_append, hearlier, add_assoc]

theorem StoredRequests.agree (hruns : StoredRequests start requests final)
    (hstored : start.database.stored = start.database) (hsound : start.database.Sound)
    (hhalf : ∀ request ∈ requests, request.outcome = .ok () → request.operation.SellsNoHalf) :
    HoldingsAgree start.database final.database := by
  induction hruns with
  | idle =>
      refine ⟨hstored, hsound, Since.refl _, fun accountId instrumentId => ?_⟩
      rw [executedDuring_self, List.map_nil, List.sum_nil, add_zero]
  | @serve requests request middle final _ hserves ih =>
      have hagree := ih fun other hother => hhalf other (List.mem_append_left _ hother)
      obtain ⟨environment, operation, outcome⟩ := request
      cases outcome with
      | error error =>
          have hsame : final.stored.database = middle.database :=
            (congrArg Database.stored (serves_error hserves).1).trans hagree.stored
          rwa [hsame]
      | ok value =>
          obtain ⟨events, heffects, hpossible, hfinal, -, -⟩ := serves_ok hserves
          have hlast : final.stored.database = (middle.database.after events).stored :=
            congrArg Database.stored hfinal
          rw [hlast]
          exact hagree.store hstored heffects hpossible
            (hhalf _ (List.mem_append_right _ List.mem_cons_self) rfl)

end Run

/-! ## Replaying requests over stored rows -/

theorem StoredRequests.cons {request : Served} {start middle final : Shared}
    {requests : List Served}
    (hserves : Serves request.environment request.operation start request.outcome middle)
    (hruns : StoredRequests middle.stored requests final) :
    StoredRequests start (request :: requests) final := by
  induction hruns with
  | idle => exact StoredRequests.idle.serve hserves
  | serve _ hlast ih => exact ih.serve hlast

theorem Sample.sound : Sample.shared.database.Sound where
  unique := by decide
  holdings := by simp [Sample.shared]
  orders := by simp [Sample.shared, Sample.openTrade, Trade.longTrade]

end EasyTrade.Broker

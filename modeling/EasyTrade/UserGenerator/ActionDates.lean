import EasyTrade.UserGenerator.SeedLedger

/-!
# When the generated actions happen

The days of a period follow each other, and so do the parts of a day.  A moment is drawn from each
part, so the actions of an account come one after the other; and the rows that an action leaves
bear its moment.
-/

namespace EasyTrade.UserGenerator

/-! ## Periods that follow each other -/

/-- Periods that follow each other without a gap, from one moment to another. -/
def Tiles : (from_ to_ : Timestamp) → List TimePeriod → Prop
  | from_, to_, [] => from_ = to_
  | from_, to_, period :: rest =>
      period.start = from_ ∧ from_ ≤ period.end_ ∧ Tiles period.end_ to_ rest

section Tiles

variable {first second third : Timestamp} {periods later : List TimePeriod}

theorem Tiles.le (h : Tiles first second periods) : first ≤ second := by
  induction periods generalizing first with
  | nil => exact le_of_eq h
  | cons period rest ih =>
      obtain ⟨-, hle, hrest⟩ := h
      exact hle.trans (ih hrest)

theorem Tiles.append (h : Tiles first second periods) (hlater : Tiles second third later) :
    Tiles first third (periods ++ later) := by
  induction periods generalizing first with
  | nil =>
      have hsame : first = second := h
      rwa [hsame]
  | cons period rest ih =>
      obtain ⟨hstart, hle, hrest⟩ := h
      exact ⟨hstart, hle, ih hrest⟩

theorem Tiles.flatMap {parts : TimePeriod → List TimePeriod} (h : Tiles first second periods)
    (hparts : ∀ period ∈ periods, Tiles period.start period.end_ (parts period)) :
    Tiles first second (periods.flatMap parts) := by
  induction periods generalizing first with
  | nil => exact h
  | cons period rest ih =>
      obtain ⟨rfl, -, hrest⟩ := h
      rw [List.flatMap_cons]
      exact (hparts period List.mem_cons_self).append
        (ih hrest fun other hother => hparts other (List.mem_cons_of_mem _ hother))

/-- Moments drawn one from each period are in order, up to the resolution with which the ends
of the periods are read. -/
theorem Tiles.ordered {draw : TimePeriod → Timestamp} {read : Timestamp → Timestamp}
    (hread : Monotone read)
    (hdraw : ∀ period : TimePeriod, period.start ≤ period.end_ →
      read period.start ≤ draw period ∧ draw period ≤ read period.end_)
    (h : Tiles first second periods) :
    (periods.map draw).Pairwise (· ≤ ·) ∧
      ∀ moment ∈ periods.map draw, read first ≤ moment ∧ moment ≤ read second := by
  induction periods generalizing first with
  | nil => exact ⟨List.Pairwise.nil, List.forall_mem_nil _⟩
  | cons period rest ih =>
      obtain ⟨rfl, hle, hrest⟩ := h
      obtain ⟨hordered, hwithin⟩ := ih hrest
      obtain ⟨hfrom, hto⟩ := hdraw period hle
      have hend : read period.end_ ≤ read second := hread hrest.le
      rw [List.map_cons]
      refine ⟨List.pairwise_cons.mpr ⟨fun moment hmoment => ?_, hordered⟩, ?_⟩
      · exact hto.trans (hwithin moment hmoment).1
      · intro moment hmoment
        rcases List.mem_cons.mp hmoment with rfl | hlater
        · exact ⟨hfrom, hto.trans hend⟩
        · exact ⟨(hfrom.trans hto).trans (hwithin moment hlater).1, (hwithin moment hlater).2⟩

theorem tiles_range (start interval : ℤ) (hinterval : 0 ≤ interval) (parts : ℕ) :
    Tiles start (start + parts * interval) ((List.range parts).map fun i : ℕ =>
      ⟨start + i * interval, start + (i + 1) * interval⟩) := by
  induction parts with
  | zero =>
      change start = start + ((0 : ℕ) : ℤ) * interval
      rw [Nat.cast_zero, zero_mul, add_zero]
  | succ parts ih =>
      rw [List.range_succ, List.map_append]
      refine ih.append ⟨rfl, ?_, ?_⟩
      · have hproduct : (parts : ℤ) * interval ≤ (parts + 1) * interval :=
          mul_le_mul_of_nonneg_right (by omega) hinterval
        exact Int.add_le_add_left hproduct start
      · change start + ((parts : ℤ) + 1) * interval = start + ((parts + 1 : ℕ) : ℤ) * interval
        rw [Nat.cast_succ]

end Tiles

namespace TimePeriod

theorem tiles_sliceWithInterval (period : TimePeriod) {interval : ℤ} (hinterval : 0 ≤ interval) :
    Tiles period.start (period.start + (period.delta / interval).toNat * interval)
      (period.sliceWithInterval interval) :=
  tiles_range period.start interval hinterval _

theorem slice_eq (period : TimePeriod) (parts : ℕ) :
    period.slice (parts + 1) =
      (List.range parts).map (fun i : ℕ =>
        (⟨period.start + i * divideDuration period.delta (parts + 1),
          period.start + (i + 1) * divideDuration period.delta (parts + 1)⟩ : TimePeriod)) ++
      [⟨period.start + parts * divideDuration period.delta (parts + 1), period.end_⟩] := by
  refine List.ext_getElem (by simp [slice]) fun i hleft hright => ?_
  have hi : i < parts + 1 := by simpa using hright
  rcases Nat.lt_succ_iff_lt_or_eq.mp hi with hlt | rfl
  · simp [slice, List.getElem_append, hlt, hlt.le.not_gt]
  · simp [slice]

/-- A rounded part of a duration is too long by half a microsecond at most. -/
theorem mul_divideDuration_le (delta : ℤ) {parts : ℕ} (hparts : 0 < parts) :
    2 * (parts * divideDuration delta parts) ≤ 2 * delta + parts := by
  have hrest := Int.emod_lt_of_pos delta (Int.natCast_pos.mpr hparts)
  have hnonneg := Int.emod_nonneg delta (Int.natCast_pos.mpr hparts).ne'
  have hsplit := Int.mul_ediv_add_emod delta parts
  have habove : (parts : ℤ) * (delta / parts + 1) = parts * (delta / parts) + parts := by ring
  unfold divideDuration
  dsimp only
  split_ifs <;> (try rw [habove]) <;> omega

/-- A duration that is long enough is divided without running over its end. -/
theorem tiles_slice (period : TimePeriod) {parts : ℕ} (hparts : 0 < parts)
    (hdelta : (parts * parts : ℤ) ≤ period.delta) :
    Tiles period.start period.end_ (period.slice parts) := by
  obtain ⟨parts, rfl⟩ := Nat.exists_eq_add_of_lt hparts
  rw [zero_add] at hdelta ⊢
  have hround := mul_divideDuration_le period.delta (Nat.succ_pos parts)
  have hinterval : 0 ≤ divideDuration period.delta (parts + 1) := by
    have hquotient : 0 ≤ period.delta / ((parts + 1 : ℕ) : ℤ) :=
      Int.ediv_nonneg (le_trans (by positivity) hdelta) (by positivity)
    unfold divideDuration
    dsimp only
    split_ifs <;> omega
  rw [slice_eq]
  refine (tiles_range period.start _ hinterval parts).append ⟨rfl, ?_, rfl⟩
  set interval := divideDuration period.delta (parts + 1)
  push_cast at hdelta hround
  have hlast : parts * interval ≤ period.delta := by
    by_cases hsmall : interval ≤ parts + 1
    · calc parts * interval ≤ parts * (parts + 1) :=
            mul_le_mul_of_nonneg_left hsmall (Int.natCast_nonneg parts)
        _ ≤ (parts + 1) * (parts + 1) := by nlinarith
        _ ≤ period.delta := hdelta
    · nlinarith
  have hend : period.start + period.delta = period.end_ := add_sub_cancel ..
  rw [← hend]
  exact Int.add_le_add_left hlast period.start

end TimePeriod

/-- The action timestamps of an account are in order and within the days of the period. -/
theorem createActionTimestamps_ordered {choices : Choices} {read : Timestamp → Timestamp}
    (hread : Monotone read)
    (hbetween : ∀ period : TimePeriod, period.start ≤ period.end_ →
      read period.start ≤ choices.dateTimeBetween period ∧
        choices.dateTimeBetween period ≤ read period.end_)
    (period : TimePeriod) :
    (createActionTimestamps choices period choices.dailyActions).Pairwise (· ≤ ·) ∧
      (∀ moment ∈ createActionTimestamps choices period choices.dailyActions,
        read period.start ≤ moment ∧
          moment ≤ read (period.start + (period.delta / day).toNat * day)) ∧
      (createActionTimestamps choices period choices.dailyActions).length =
        (period.delta / day).toNat * choices.dailyActions := by
  obtain ⟨hleast, hmost⟩ := choices.dailyActions_mem
  have hslices : ∀ daily ∈ createDailyPeriods period,
      Tiles daily.start daily.end_ (daily.slice choices.dailyActions) := by
    intro daily hdaily
    obtain ⟨i, -, rfl⟩ := List.mem_map.mp hdaily
    refine TimePeriod.tiles_slice _ (lt_of_lt_of_le (by decide) hleast) ?_
    have hsquare : (choices.dailyActions * choices.dailyActions : ℤ) ≤ 7 * 7 := by
      have hle : (choices.dailyActions : ℤ) ≤ 7 := Int.ofNat_le.mpr hmost
      nlinarith
    have hday : period.start + ((i : ℤ) + 1) * day - (period.start + i * day) = day := by ring
    rw [TimePeriod.delta, hday]
    exact hsquare.trans (by decide)
  have htiles := (period.tiles_sliceWithInterval (show 0 ≤ day by decide)).flatMap hslices
  have hmap : createActionTimestamps choices period choices.dailyActions =
      ((createDailyPeriods period).flatMap fun daily =>
        daily.slice choices.dailyActions).map choices.dateTimeBetween :=
    List.map_flatMap.symm
  obtain ⟨hordered, hwithin⟩ := htiles.ordered hread hbetween
  rw [hmap]
  refine ⟨hordered, hwithin, ?_⟩
  have hlength : ∀ daily : TimePeriod,
      (daily.slice choices.dailyActions).length = choices.dailyActions := fun daily => by
    simp [TimePeriod.slice]
  rw [List.length_map, List.length_flatMap, List.map_congr_left fun daily _ => hlength daily,
    List.map_const', List.sum_replicate, smul_eq_mul, createDailyPeriods,
    TimePeriod.sliceWithInterval, List.length_map, List.length_range]

/-! ## What an action leaves -/

variable {market : Market}

/-- When an instrument was last traded, if not on its first day. -/
def lastTraded (first : Timestamp) (instrumentId : ℕ) (trades : List TradeEntry) : Timestamp :=
  trades.foldl (fun date trade =>
    if trade.tradeSuccessful ∧ trade.instrumentId = instrumentId then trade.timestampOpen
    else date) first

/-- What has been added to the books of an account, which is still the same one. -/
structure Adds (books books' : Books) (rows : List BalanceEntry) (trades : List TradeEntry) :
    Prop where
  rows_eq : books'.balanceHistory.entries = books.balanceHistory.entries ++ rows
  trades_eq : books'.tradeHistory.entries = books.tradeHistory.entries ++ trades
  id_eq : books'.account.id = books.account.id
  accountId_eq : books'.account.balance.accountId = books.account.balance.accountId
  own_rows : ∀ row ∈ rows, row.accountId = books.account.balance.accountId
  own_trades : ∀ trade ∈ trades, trade.accountId = books.account.id
  closed : ∀ trade ∈ trades, trade.timestampClose = trade.timestampOpen

theorem Adds.refl (books : Books) : Adds books books [] [] where
  rows_eq := (List.append_nil _).symm
  trades_eq := (List.append_nil _).symm
  id_eq := rfl
  accountId_eq := rfl
  own_rows := List.forall_mem_nil _
  own_trades := List.forall_mem_nil _
  closed := List.forall_mem_nil _

section Adds

variable {books books' books'' : Books} {rows later : List BalanceEntry}
variable {trades laterTrades : List TradeEntry}

theorem Adds.trans (h : Adds books books' rows trades)
    (h' : Adds books' books'' later laterTrades) :
    Adds books books'' (rows ++ later) (trades ++ laterTrades) where
  rows_eq := by rw [h'.rows_eq, h.rows_eq, List.append_assoc]
  trades_eq := by rw [h'.trades_eq, h.trades_eq, List.append_assoc]
  id_eq := h'.id_eq.trans h.id_eq
  accountId_eq := h'.accountId_eq.trans h.accountId_eq
  own_rows := List.forall_mem_append.mpr ⟨h.own_rows, fun row hrow =>
    (h'.own_rows row hrow).trans h.accountId_eq⟩
  own_trades := List.forall_mem_append.mpr ⟨h.own_trades, fun trade htrade =>
    (h'.own_trades trade htrade).trans h.id_eq⟩
  closed := List.forall_mem_append.mpr ⟨h.closed, h'.closed⟩

theorem Adds.newTrade (h : Adds books books' rows []) (action : ActionType)
    (instrument : Instrument) (quantity price : ℚ) (timestamp : Timestamp) (success : Bool) :
    ∃ trade, Adds books (books'.newTrade action instrument quantity price timestamp 0 success)
        rows [trade] ∧ trade.timestampOpen = timestamp ∧ trade.tradeSuccessful = success ∧
      trade.instrumentId = instrument.id := by
  have hsame : books'.tradeHistory.entries = books.tradeHistory.entries :=
    h.trades_eq.trans (List.append_nil _)
  have htrades := congrArg (· ++ [(⟨books'.tradeHistory.entryId, books'.account.id, instrument.id,
    action, quantity, price, timestamp, timestamp + 0, true, success, if success then
      "Transaction completed successfully" else "Transaction did not succeed"⟩ : TradeEntry)]) hsame
  exact ⟨_, ⟨h.rows_eq, htrades, h.id_eq, h.accountId_eq, h.own_rows,
    List.forall_mem_singleton.mpr h.id_eq, List.forall_mem_singleton.mpr (add_zero timestamp)⟩,
    rfl, rfl, rfl⟩

end Adds

/-- A row of the moment, or none. -/
theorem removeFunds_adds (books : Books) (action : ActionType) (amount : ℚ)
    (timestamp : Timestamp) :
    ∃ rows, Adds books (books.removeFunds action amount timestamp).2 rows [] ∧
      (rows.map BalanceEntry.actionDate).Sublist [timestamp] ∧
      (books.removeFunds action amount timestamp).2.account.ownedInstruments =
        books.account.ownedInstruments := by
  unfold Books.removeFunds
  dsimp only
  split_ifs
  · exact ⟨[], .refl books, List.nil_sublist _, rfl⟩
  · exact ⟨[], .refl books, List.nil_sublist _, rfl⟩
  · exact ⟨_, ⟨rfl, (List.append_nil _).symm, rfl, rfl, List.forall_mem_singleton.mpr rfl,
      List.forall_mem_nil _, List.forall_mem_nil _⟩, List.Sublist.refl _, rfl⟩

theorem addFunds_adds (books : Books) (action : ActionType) (amount : ℚ)
    (timestamp : Timestamp) :
    ∃ rows, Adds books (books.addFunds action amount timestamp).2 rows [] ∧
      (rows.map BalanceEntry.actionDate).Sublist [timestamp] ∧
      (books.addFunds action amount timestamp).2.account.ownedInstruments =
        books.account.ownedInstruments := by
  unfold Books.addFunds
  dsimp only
  split_ifs
  · exact ⟨[], .refl books, List.nil_sublist _, rfl⟩
  · exact ⟨_, ⟨rfl, (List.append_nil _).symm, rfl, rfl, List.forall_mem_singleton.mpr rfl,
      List.forall_mem_nil _, List.forall_mem_nil _⟩, List.Sublist.refl _, rfl⟩

/-- The owned instruments have last been modified when they were last traded. -/
def Modified (market : Market) (books books' : Books) (trades : List TradeEntry) : Prop :=
  ∀ code, (books'.account.ownedInstruments code).lastModification =
    lastTraded (books.account.ownedInstruments code).lastModification
      (market.instruments code).id trades

/-- What an action at a moment may add: a row and a trade of that moment. -/
def ActsAt (market : Market) (timestamp : Timestamp) (books books' : Books) : Prop :=
  ∃ rows trades, Adds books books' rows trades ∧ Modified market books books' trades ∧
    (rows.map BalanceEntry.actionDate).Sublist [timestamp] ∧
    (trades.map TradeEntry.timestampOpen).Sublist [timestamp]

variable {books books' moved : Books} {code : InstrumentCode} {timestamp : Timestamp}

theorem ActsAt.refl (timestamp : Timestamp) (books : Books) :
    ActsAt market timestamp books books :=
  ⟨[], [], .refl books, fun _ => rfl, List.nil_sublist _, List.nil_sublist _⟩

/-- Only the instrument that has been traded is modified. -/
theorem ActsAt.newTrade {rows : List BalanceEntry} (hadds : Adds books moved rows [])
    (hdates : (rows.map BalanceEntry.actionDate).Sublist [timestamp]) {success : Bool}
    (hmodified : ∀ other, (moved.account.ownedInstruments other).lastModification =
      if success ∧ other = code then timestamp
      else (books.account.ownedInstruments other).lastModification)
    (action : ActionType) (quantity price : ℚ) :
    ActsAt market timestamp books
      (moved.newTrade action (market.instruments code) quantity price timestamp 0 success) := by
  obtain ⟨trade, hadds, hopen, hsuccess, hinstrument⟩ :=
    hadds.newTrade action (market.instruments code) quantity price timestamp success
  refine ⟨rows, [trade], hadds, fun other => ?_, hdates, ?_⟩
  · have hsame : trade.instrumentId = (market.instruments other).id ↔ other = code := by
      rw [hinstrument]
      exact market.id_injective.eq_iff.trans eq_comm
    refine (hmodified other).trans ?_
    simp only [lastTraded, List.foldl_cons, List.foldl_nil, hsuccess, hsame, hopen]
  · rw [List.map_singleton, hopen]

theorem lastModification_modifyInstrument (account : Account) (code other : InstrumentCode)
    (quantity : ℚ) (timestamp : Timestamp) :
    ((account.modifyInstrument code quantity timestamp).ownedInstruments other).lastModification =
      if other = code then timestamp else (account.ownedInstruments other).lastModification := by
  rw [Account.modifyInstrument]
  dsimp only
  rw [Function.update_apply]
  split_ifs <;> rfl

/-- What a lucky trade leaves: it is not recorded when the account refuses it. -/
theorem trade_lucky {action : ActionType} {quantity : ℚ} {random : Random}
    {run : InstrumentCode → ℚ → ℚ → Timestamp → Bool × Books}
    (hlucky : getTradeSuccess tradeSuccessChance random = true)
    (htransaction : transaction books action = .ok run) :
    trade action books (market.instruments code) quantity timestamp 0 random =
      let result := run code quantity
        (quantity * (market.instruments code).getValue timestamp) timestamp
      .ok (if result.1 then result.2.newTrade action (market.instruments code) quantity
        ((market.instruments code).getValue timestamp) timestamp 0 true else result.2) := by
  unfold trade
  rw [hlucky, htransaction, show (market.instruments code).code = code from rfl]
  dsimp only [bind, Except.bind]
  cases (run code quantity (quantity * (market.instruments code).getValue timestamp)
    timestamp).1 <;> rfl

/-- A trade of the moment, with its payment, or nothing. -/
theorem trade_actsAt {action : ActionType} {quantity : ℚ} {random : Random}
    (htrade : trade action books (market.instruments code) quantity timestamp 0 random =
      .ok books') : ActsAt market timestamp books books' := by
  cases hlucky : getTradeSuccess tradeSuccessChance random with
  | false =>
      unfold trade at htrade
      simp only [hlucky, Bool.false_eq_true, if_false] at htrade
      cases htrade
      exact .newTrade (.refl books) (List.nil_sublist _) (fun _ => by simp) _ _ _
  | true =>
      cases action with
      | buy =>
          rw [trade_lucky hlucky rfl, Books.buyInstrument] at htrade
          split_ifs at htrade with hafford
          · cases htrade
            exact .refl timestamp books
          · cases htrade
            obtain ⟨rows, hadds, hdates, howned⟩ := removeFunds_adds books .buy
              (quantity * (market.instruments code).getValue timestamp) timestamp
            have hmoved : Adds books ((books.removeFunds .buy (quantity *
                (market.instruments code).getValue timestamp) timestamp).2.modifyInstrument code
                  quantity timestamp) rows [] :=
              ⟨hadds.rows_eq, hadds.trades_eq, hadds.id_eq, hadds.accountId_eq, hadds.own_rows,
                hadds.own_trades, hadds.closed⟩
            refine ActsAt.newTrade hmoved hdates (fun other => ?_) .buy quantity _
            refine (lastModification_modifyInstrument _ code other quantity timestamp).trans ?_
            rw [howned]
            simp only [true_and]
      | sell =>
          rw [trade_lucky hlucky rfl, Books.sellInstrument] at htrade
          split_ifs at htrade with howns
          · cases htrade
            exact .refl timestamp books
          · cases htrade
            obtain ⟨rows, hadds, hdates, howned⟩ := addFunds_adds
              (books.modifyInstrument code (-quantity) timestamp) .sell
              (quantity * (market.instruments code).getValue timestamp) timestamp
            have hmoved : Adds books ((books.modifyInstrument code (-quantity) timestamp).addFunds
                .sell (quantity * (market.instruments code).getValue timestamp) timestamp).2
                  rows [] :=
              ⟨hadds.rows_eq, hadds.trades_eq, hadds.id_eq, hadds.accountId_eq, hadds.own_rows,
                hadds.own_trades, hadds.closed⟩
            refine ActsAt.newTrade hmoved hdates (fun other => ?_) .sell quantity _
            rw [howned]
            refine (lastModification_modifyInstrument _ code other (-quantity)
              timestamp).trans ?_
            simp only [true_and]
      | withdraw | deposit | transactionfee =>
          unfold trade at htrade
          simp only [hlucky, if_true, transaction, bind, Except.bind, reduceCtorEq] at htrade

/-- The step: whatever an action does, it does at its moment. -/
theorem generateAction_actsAt {balanceReference : ℚ} {draws : Draws}
    (haction : generateAction market books timestamp balanceReference draws = .ok books') :
    ActsAt market timestamp books books' := by
  unfold generateAction at haction
  split_ifs at haction
  · cases haction
    obtain ⟨rows, hadds, hdates, howned⟩ := addFunds_adds books .deposit
      (balanceReference - books.account.balance.value) timestamp
    exact ⟨rows, [], hadds, fun other => congrArg (fun owned =>
      (owned other).lastModification) howned, hdates, List.nil_sublist _⟩
  · cases haction
    obtain ⟨rows, hadds, hdates, howned⟩ := removeFunds_adds books .withdraw
      (balanceWithdrawRatio * books.account.balance.value) timestamp
    exact ⟨rows, [], hadds, fun other => congrArg (fun owned =>
      (owned other).lastModification) howned, hdates, List.nil_sublist _⟩
  · dsimp only at haction
    split_ifs at haction
    · exact trade_actsAt haction
    · exact trade_actsAt haction
    · cases haction
      exact .refl timestamp books

/-- What any number of actions add: rows and trades of some of their moments, in the same
order. -/
structure ActsDuring (market : Market) (moments : List Timestamp) (books books' : Books)
    (rows : List BalanceEntry) (trades : List TradeEntry) : Prop extends
    Adds books books' rows trades where
  modified : Modified market books books' trades
  row_dates : (rows.map BalanceEntry.actionDate).Sublist moments
  trade_dates : (trades.map TradeEntry.timestampOpen).Sublist moments

theorem ActsDuring.refl (market : Market) (books : Books) :
    ActsDuring market [] books books [] [] :=
  ⟨.refl books, fun _ => rfl, List.nil_sublist _, List.nil_sublist _⟩

/-- The run. -/
theorem generateActions_actsDuring {balanceReference : ℚ} {moments : List Timestamp}
    {draws : ℕ → Draws}
    (hactions : generateActions market balanceReference draws moments books = .ok books') :
    ∃ rows trades, ActsDuring market moments books books' rows trades := by
  induction moments generalizing draws books with
  | nil =>
      cases hactions
      exact ⟨[], [], .refl market _⟩
  | cons moment rest ih =>
      rw [generateActions] at hactions
      cases hfirst : generateAction market books moment balanceReference (draws 0) with
      | error error =>
          rw [hfirst] at hactions
          cases hactions
      | ok middle =>
          rw [hfirst] at hactions
          obtain ⟨rows, trades, hadds, hmodified, hrows, htrades⟩ := generateAction_actsAt hfirst
          obtain ⟨later, laterTrades, hlater⟩ := ih hactions
          refine ⟨rows ++ later, trades ++ laterTrades, hadds.trans hlater.toAdds, ?_, ?_, ?_⟩
          · intro code
            rw [hlater.modified, hmodified, lastTraded, lastTraded, lastTraded,
              List.foldl_append]
          · rw [List.map_append]
            exact hrows.append hlater.row_dates
          · rw [List.map_append]
            exact htrades.append hlater.trade_dates

/-! ## All accounts -/

/-- The moments of an account: the first `preset` accounts have none. -/
def actionMoments (preset : ℕ) (choices : ℕ → Choices) (period : TimePeriod) (accountId : ℕ) :
    List Timestamp :=
  if accountId > preset then
    createActionTimestamps (choices accountId) period (choices accountId).dailyActions
  else []

/-- An account that has not been worked on. -/
structure Account.IsNew (account : Account) (first : Timestamp) (balanceHistory : BalanceHistory)
    (tradeHistory : TradeHistory) : Prop where
  accountId_eq : account.balance.accountId = account.id
  rows_eq : Ledger.rowsOf columns account.id balanceHistory.entries = []
  trades_eq : tradesOf account.id tradeHistory.entries = []
  modified : ∀ code, (account.ownedInstruments code).lastModification = first

/-- The rows and the trades of an account are of some of its moments, in the same order, and its
instruments have last been modified when they were last traded. -/
structure Account.Dated (market : Market) (account : Account) (moments : List Timestamp)
    (first : Timestamp) (balanceHistory : BalanceHistory) (tradeHistory : TradeHistory) :
    Prop where
  row_dates : ((Ledger.rowsOf columns account.id balanceHistory.entries).map
    BalanceEntry.actionDate).Sublist moments
  trade_dates : ((tradesOf account.id tradeHistory.entries).map
    TradeEntry.timestampOpen).Sublist moments
  closed : ∀ trade ∈ tradesOf account.id tradeHistory.entries,
    trade.timestampClose = trade.timestampOpen
  modified : ∀ code, (account.ownedInstruments code).lastModification =
    lastTraded first (market.instruments code).id (tradesOf account.id tradeHistory.entries)

section Accounts

variable {first : Timestamp} {moments : List Timestamp} {account : Account}
variable {balanceHistory balanceHistory' : BalanceHistory}
variable {tradeHistory tradeHistory' : TradeHistory}

theorem Account.IsNew.congr (h : account.IsNew first balanceHistory tradeHistory)
    (hsame : SameRows account.id balanceHistory balanceHistory' tradeHistory tradeHistory') :
    account.IsNew first balanceHistory' tradeHistory' :=
  ⟨h.accountId_eq, hsame.1.trans h.rows_eq, hsame.2.trans h.trades_eq, h.modified⟩

theorem Account.Dated.congr (h : account.Dated market moments first balanceHistory tradeHistory)
    (hsame : SameRows account.id balanceHistory balanceHistory' tradeHistory tradeHistory') :
    account.Dated market moments first balanceHistory' tradeHistory' := by
  refine ⟨?_, ?_, ?_, ?_⟩
  · rw [hsame.1]
    exact h.row_dates
  · rw [hsame.2]
    exact h.trade_dates
  · rw [hsame.2]
    exact h.closed
  · rw [hsame.2]
    exact h.modified

/-- Working on a new account leaves the rows of the others alone. -/
theorem ActsDuring.dated {rows : List BalanceEntry} {trades : List TradeEntry}
    (h : ActsDuring market moments books books' rows trades)
    (hnew : books.account.IsNew first books.balanceHistory books.tradeHistory) :
    books'.account.Dated market moments first books'.balanceHistory books'.tradeHistory ∧
      ∀ other, other ≠ books.account.id → SameRows other books.balanceHistory
        books'.balanceHistory books.tradeHistory books'.tradeHistory := by
  have hown : ∀ row ∈ rows, row.accountId = books.account.id := fun row hrow =>
    (h.own_rows row hrow).trans hnew.accountId_eq
  have hrows : Ledger.rowsOf columns books'.account.id books'.balanceHistory.entries = rows := by
    rw [h.id_eq, h.rows_eq, Ledger.rowsOf_append, hnew.rows_eq, rowsOf_own hown, List.nil_append]
  have htrades : tradesOf books'.account.id books'.tradeHistory.entries = trades := by
    have hsplit : tradesOf books.account.id (books.tradeHistory.entries ++ trades) =
        tradesOf books.account.id books.tradeHistory.entries ++
          tradesOf books.account.id trades := List.filter_append ..
    rw [h.id_eq, h.trades_eq, hsplit, hnew.trades_eq, tradesOf_own h.own_trades, List.nil_append]
  refine ⟨⟨?_, ?_, ?_, fun code => ?_⟩, fun other hother => ⟨?_, ?_⟩⟩
  · rw [hrows]
    exact h.row_dates
  · rw [htrades]
    exact h.trade_dates
  · rw [htrades]
    exact h.closed
  · rw [htrades, h.modified, hnew.modified]
  · rw [h.rows_eq, Ledger.rowsOf_append, rowsOf_other hown hother, List.append_nil]
  · rw [h.trades_eq, tradesOf, List.filter_append, ← tradesOf, ← tradesOf,
      tradesOf_other h.own_trades hother, List.append_nil]

theorem makeHistoryBeyond_actsDuring {preset : ℕ} {choices : ℕ → Choices} {period : TimePeriod}
    (hbooks : makeHistoryBeyond market preset (choices books.account.id) period books =
      .ok books') :
    ∃ rows trades, ActsDuring market (actionMoments preset choices period books.account.id) books
      books' rows trades := by
  unfold makeHistoryBeyond at hbooks
  unfold actionMoments
  split_ifs at hbooks ⊢
  · exact generateActions_actsDuring hbooks
  · cases hbooks
    exact ⟨[], [], .refl market books⟩

/-- The loop over the accounts. -/
theorem makeHistories_dated {preset : ℕ} {choices : ℕ → Choices} {period : TimePeriod}
    {accounts : List Account} {seed : SeedData}
    (hseed : makeHistories market preset choices period accounts balanceHistory tradeHistory =
      .ok seed) (hdistinct : (accounts.map Account.id).Nodup)
    (hnew : ∀ account ∈ accounts, account.IsNew first balanceHistory tradeHistory) :
    (∀ account ∈ seed.accounts, account.Dated market (actionMoments preset choices period
      account.id) first seed.balanceHistory seed.tradeHistory) ∧
    ∀ other, other ∉ accounts.map Account.id →
      SameRows other balanceHistory seed.balanceHistory tradeHistory seed.tradeHistory := by
  induction accounts generalizing balanceHistory tradeHistory seed with
  | nil =>
      cases hseed
      exact ⟨List.forall_mem_nil _, fun _ _ => ⟨rfl, rfl⟩⟩
  | cons account rest ih =>
      obtain ⟨hfresh, hrest⟩ := List.nodup_cons.mp hdistinct
      rw [makeHistories] at hseed
      cases hbooks : makeHistoryBeyond market preset (choices account.id) period
          ⟨account, balanceHistory, tradeHistory⟩ with
      | error error =>
          rw [hbooks] at hseed
          cases hseed
      | ok books =>
          cases hlater : makeHistories market preset choices period rest books.balanceHistory
              books.tradeHistory with
          | error error =>
              rw [hbooks] at hseed
              simp only [bind, Except.bind, hlater, reduceCtorEq] at hseed
          | ok later =>
              rw [hbooks] at hseed
              simp only [bind, Except.bind, hlater, pure, Except.pure, Except.ok.injEq] at hseed
              subst hseed
              obtain ⟨rows, trades, hacts⟩ := makeHistoryBeyond_actsDuring hbooks
              obtain ⟨hdated, hothers⟩ := hacts.dated (hnew account List.mem_cons_self)
              have hid : books.account.id = account.id := hacts.id_eq
              obtain ⟨hdone, huntouched⟩ := ih hlater hrest fun waiting hwaiting =>
                (hnew waiting (List.mem_cons_of_mem _ hwaiting)).congr
                  (hothers _ fun heq => hfresh (heq ▸ List.mem_map_of_mem hwaiting))
              refine ⟨List.forall_mem_cons.mpr ⟨?_, hdone⟩, fun other hother => ?_⟩
              · have hsame := huntouched account.id hfresh
                rw [← hid] at hsame
                rw [hid]
                exact hdated.congr hsame
              · obtain ⟨hne, hmem⟩ := not_or.mp (List.mem_cons.not.mp hother)
                obtain ⟨hrows, htrades⟩ := hothers other hne
                obtain ⟨hrows', htrades'⟩ := huntouched other hmem
                exact ⟨hrows'.trans hrows, htrades'.trans htrades⟩

theorem isNew_of_mem_getAccounts {users : ℕ} {factory : AccountFactory}
    (hmem : account ∈ getAccounts market first users factory) : account.IsNew first {} {} := by
  induction users generalizing factory with
  | zero => exact absurd hmem List.not_mem_nil
  | succ users ih =>
      rcases List.mem_cons.mp hmem with rfl | hlater
      · exact ⟨rfl, rfl, rfl, fun _ => rfl⟩
      · exact ih hlater

end Accounts

/-- The moments of the rows and trades of an account are in order, within the days of the
period, and not more than the daily actions. -/
structure Chronological (dates : List Timestamp) (first last : Timestamp) (atMost : ℕ) :
    Prop where
  ordered : dates.Pairwise (· ≤ ·)
  within : ∀ date ∈ dates, first ≤ date ∧ date ≤ last
  length_le : dates.length ≤ atMost

theorem Chronological.sublist {dates dates' : List Timestamp} {first last : Timestamp}
    {atMost : ℕ} (h : Chronological dates first last atMost) (hsublist : dates'.Sublist dates) :
    Chronological dates' first last atMost where
  ordered := h.ordered.sublist hsublist
  within date hdate := h.within date (hsublist.subset hdate)
  length_le := hsublist.length_le.trans h.length_le

/-- The seed data of every account is in chronological order.  Its balance entries, and its
trades, bear dates in the order of their ids, within the days of the period and not more of them
than its daily actions allow; every trade is closed when it is opened; and an owned instrument
was last modified when it was last traded successfully, or when the account was created. -/
theorem seedData_chronological (market : Market) (preset : ℕ) (choices : ℕ → Choices)
    (period : TimePeriod) (users : ℕ) {read : Timestamp → Timestamp} (hread : Monotone read)
    (hbetween : ∀ account (period : TimePeriod), period.start ≤ period.end_ →
      read period.start ≤ (choices account).dateTimeBetween period ∧
        (choices account).dateTimeBetween period ≤ read period.end_) :
    ∃ seed, generateEasyTradeData market preset choices period users = .ok seed ∧
      ∀ account ∈ seed.accounts,
        let days := (period.delta / day).toNat
        let atMost := if account.id > preset then days * (choices account.id).dailyActions else 0
        let rows := Ledger.rowsOf columns account.id seed.balanceHistory.entries
        let trades := tradesOf account.id seed.tradeHistory.entries
        Chronological (rows.map BalanceEntry.actionDate) (read period.start)
          (read (period.start + days * day)) atMost ∧
        Chronological (trades.map TradeEntry.timestampOpen) (read period.start)
          (read (period.start + days * day)) atMost ∧
        (∀ trade ∈ trades, trade.timestampClose = trade.timestampOpen) ∧
        ∀ code, (account.ownedInstruments code).lastModification =
          lastTraded period.start (market.instruments code).id trades := by
  have hdistinct : ((getAccounts market period.start users {}).map Account.id).Nodup := by
    rw [(getAccounts_ids market period.start users {}).1]
    exact List.nodup_range' 1
  obtain ⟨seed, hseed, -⟩ := makeHistories_keeps preset choices period _ {} {} hdistinct
    (Agrees.of_new market period.start users {})
  obtain ⟨hdated, -⟩ := makeHistories_dated hseed hdistinct fun account =>
    isNew_of_mem_getAccounts
  refine ⟨seed, hseed, fun account hmem => ?_⟩
  obtain ⟨hrows, htrades, hclosed, hmodified⟩ := hdated account hmem
  have hmoments : Chronological (actionMoments preset choices period account.id)
      (read period.start) (read (period.start + (period.delta / day).toNat * day))
      (if account.id > preset then
        (period.delta / day).toNat * (choices account.id).dailyActions else 0) := by
    unfold actionMoments
    split_ifs
    · obtain ⟨hordered, hwithin, hlength⟩ :=
        createActionTimestamps_ordered hread (hbetween account.id) period
      exact ⟨hordered, hwithin, hlength.le⟩
    · exact ⟨List.Pairwise.nil, List.forall_mem_nil _, le_rfl⟩
  exact ⟨hmoments.sublist hrows, hmoments.sublist htrades, hclosed, hmodified⟩

namespace Sample

def flatMarket : Market := ⟨fun _ _ => 1, fun _ _ => one_pos⟩

def random : Random := ⟨0, le_rfl, one_pos⟩

/-- Five actions a day, each at the beginning of its part. -/
def choices : Choices where
  balanceReference := random
  dailyActions := 5
  dailyActions_mem := ⟨by decide, by decide⟩
  dateTimeBetween := TimePeriod.start
  draws _ := ⟨random, random⟩

end Sample

/-- Thirty days for a hundred users. -/
theorem seedData_chronological_month : ∃ seed,
    generateEasyTradeData Sample.flatMarket 5 (fun _ => Sample.choices) ⟨0, 30 * day⟩ 100 =
      .ok seed ∧
    ∀ account ∈ seed.accounts, Chronological ((tradesOf account.id seed.tradeHistory.entries).map
      TradeEntry.timestampOpen) 0 (30 * day) (if account.id > 5 then 150 else 0) := by
  obtain ⟨seed, hseed, haccounts⟩ := seedData_chronological Sample.flatMarket 5
    (fun _ => Sample.choices) ⟨0, 30 * day⟩ 100 monotone_id fun _ period hperiod =>
      ⟨le_rfl, hperiod⟩
  refine ⟨seed, hseed, fun account hmem => ?_⟩
  obtain ⟨-, htrades, -⟩ := haccounts account hmem
  exact htrades

end EasyTrade.UserGenerator

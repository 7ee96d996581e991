import EasyTrade.Broker.RunAccounting
import EasyTrade.Broker.Lifecycle
import EasyTrade.Broker.Requests

/-!
# One run over the open trades, specified

A committed run closes what is overdue and then decides on the other open trades one after
the other, each by the books at its turn.  The books and the trades at the end follow from
these decisions, and nothing else is touched.
-/

namespace EasyTrade.Broker

open EasyTrade.Program

/-! ## A trade at its turn -/

/-- A long buy at its turn. -/
structure BuyTurn (books : Books) (trade : Trade) (price : Price) (ppt : ℚ)
    (decision : Decision) : Prop where
  waits : decision = .wait ↔ trade.entryPrice < price.low
  executes : decision = .fill .longBuy ppt ↔ price.low ≤ trade.entryPrice ∧
    ∃ balance, books.balance trade.accountId = some balance ∧
      trade.quantity * trade.entryPrice + ppt ≤ balance
  fails : decision = .reject "Not enough money to buy stocks! Trade failed!" ↔
    price.low ≤ trade.entryPrice ∧ ∃ balance, books.balance trade.accountId = some balance ∧
      balance < trade.quantity * trade.entryPrice + ppt

/-- A long sell at its turn. -/
structure SellTurn (books : Books) (trade : Trade) (price : Price) (ppt : ℚ)
    (decision : Decision) : Prop where
  waits : decision = .wait ↔ price.high < trade.entryPrice
  executes : decision = .fill .longSell ppt ↔ trade.entryPrice ≤ price.high ∧
    ∃ quantity, books.holding trade.accountId trade.instrumentId = some quantity ∧
      trade.quantity ≤ quantity
  fails : decision = .reject "Not enough stocks to sell! Trade failed!" ↔
    trade.entryPrice ≤ price.high ∧
      ∀ quantity, books.holding trade.accountId trade.instrumentId = some quantity →
        quantity < trade.quantity

/-- A trade at its turn, with the latest price of its instrument and the fee of its
product. -/
def Turn (market : Market) (books : Books) (trade : Trade) (decision : Decision) : Prop :=
  ∃ instrument price product, market.instruments trade.instrumentId = some instrument ∧
    market.prices trade.instrumentId = some price ∧
    market.products instrument.productId = some product ∧
    (equalsIgnoreCase trade.direction ActionType.longBuy.name →
      BuyTurn books trade price product.ppt decision) ∧
    (equalsIgnoreCase trade.direction ActionType.longSell.name →
      SellTurn books trade price product.ppt decision)

section Turn

variable {books : Books} {trade : Trade} {instrument : Instrument} {price : Price}
  {product : Product} {decision : Decision}

theorem buyTurn_of_decideBuy (hdecide : books.decideBuy trade price product = some decision) :
    BuyTurn books trade price product.ppt decision := by
  unfold Books.decideBuy at hdecide
  split_ifs at hdecide with hlow
  · cases hdecide
    exact ⟨iff_of_true rfl hlow, iff_of_false nofun fun h => not_le.mpr hlow h.1,
      iff_of_false nofun fun h => not_le.mpr hlow h.1⟩
  · have hreached : price.low ≤ trade.entryPrice := not_lt.mp hlow
    obtain ⟨balance, hbalance, hdecide⟩ := Option.bind_eq_some_iff.mp hdecide
    split_ifs at hdecide with hmissing
    · cases hdecide
      refine ⟨iff_of_false nofun hlow, iff_of_false nofun ?_,
        iff_of_true rfl ⟨hreached, balance, hbalance, hmissing⟩⟩
      rintro ⟨-, other, hother, hle⟩
      cases hbalance.symm.trans hother
      exact not_lt.mpr hle hmissing
    · obtain ⟨owner, -, hdecide⟩ := Option.bind_eq_some_iff.mp hdecide
      cases hdecide
      refine ⟨iff_of_false nofun hlow,
        iff_of_true rfl ⟨hreached, balance, hbalance, not_lt.mp hmissing⟩,
        iff_of_false nofun ?_⟩
      rintro ⟨-, other, hother, hlt⟩
      cases hbalance.symm.trans hother
      exact hmissing hlt

theorem sellTurn_of_decideSell (hid : instrument.id = trade.instrumentId)
    (hdecide : books.decideSell trade instrument price product = some decision) :
    SellTurn books trade price product.ppt decision := by
  unfold Books.decideSell at hdecide
  rw [hid] at hdecide
  split_ifs at hdecide with hhigh
  · cases hdecide
    exact ⟨iff_of_true rfl hhigh, iff_of_false nofun fun h => not_le.mpr hhigh h.1,
      iff_of_false nofun fun h => not_le.mpr hhigh h.1⟩
  · have hreached : trade.entryPrice ≤ price.high := not_lt.mp hhigh
    cases hholding : books.holding trade.accountId trade.instrumentId with
    | none =>
      rw [hholding] at hdecide
      cases hdecide
      refine ⟨iff_of_false nofun hhigh, iff_of_false nofun ?_, iff_of_true rfl ⟨hreached, ?_⟩⟩
      · rintro ⟨-, quantity, hquantity, -⟩
        cases hholding.symm.trans hquantity
      · intro quantity hquantity
        cases hholding.symm.trans hquantity
    | some held =>
      rw [hholding] at hdecide
      dsimp only at hdecide
      split_ifs at hdecide with hmissing
      · cases hdecide
        refine ⟨iff_of_false nofun hhigh, iff_of_false nofun ?_, iff_of_true rfl ⟨hreached, ?_⟩⟩
        · rintro ⟨-, quantity, hquantity, hle⟩
          cases hholding.symm.trans hquantity
          exact not_lt.mpr hle hmissing
        · intro quantity hquantity
          cases hholding.symm.trans hquantity
          exact hmissing
      · obtain ⟨balance, -, hdecide⟩ := Option.bind_eq_some_iff.mp hdecide
        obtain ⟨owner, -, hdecide⟩ := Option.bind_eq_some_iff.mp hdecide
        cases hdecide
        refine ⟨iff_of_false nofun hhigh,
          iff_of_true rfl ⟨hreached, held, hholding, not_lt.mp hmissing⟩,
          iff_of_false nofun ?_⟩
        rintro ⟨-, hall⟩
        exact hmissing (hall held hholding)

theorem turn_of_decide {environment : Environment} {database : Database}
    (hdecide : books.decide (database.market environment) trade = some decision) :
    Turn (database.market environment) books trade decision := by
  unfold Books.decide at hdecide
  obtain ⟨instrument, hinstrument, hdecide⟩ := Option.bind_eq_some_iff.mp hdecide
  obtain ⟨price, hprice, hdecide⟩ := Option.bind_eq_some_iff.mp hdecide
  obtain ⟨product, hproduct, hdecide⟩ := Option.bind_eq_some_iff.mp hdecide
  have hid : instrument.id = trade.instrumentId := Table.key_of_find? hinstrument
  rw [hid] at hprice
  refine ⟨instrument, price, product, hinstrument, hprice, hproduct, fun hbuy => ?_,
    fun hsell => ?_⟩
  · rw [if_pos hbuy] at hdecide
    exact buyTurn_of_decideBuy hdecide
  · have hnotBuy : ¬ equalsIgnoreCase trade.direction ActionType.longBuy.name = true := by
      intro hbuy
      have hsame := (equalsIgnoreCase_name_iff hsell).mp hbuy
      cases hsame
    rw [if_neg hnotBuy, if_pos hsell] at hdecide
    exact sellTurn_of_decideSell hid hdecide

end Turn

/-! ## What a decision closes -/

/-- The row of a trade after the decision about it. -/
def Decision.close (trade : Trade) : Decision → Trade
  | .wait => trade
  | .reject status => trade.close status false
  | .fill direction _ => trade.close
      (if direction = .longSell then "Long sell transaction finished!"
        else "Long buy transaction finished!") true

theorem notified_of_resolution {event : Event} {trade : Trade} {decision : Decision}
    (hresolution : event.resolution = some (trade, decision)) :
    event.notified = some (decision.close trade) := by
  cases event <;> cases hresolution <;> rfl

theorem id_close (trade : Trade) (decision : Decision) : (decision.close trade).id = trade.id := by
  cases decision <;> rfl

/-! ## What a run leaves alone -/

section Untouched

variable {database : Database} {event : Event} {trade : Trade} {decision : Decision}

theorem filter_map_of_unchanged {α : Type} {p : α → Bool} {f : α → α} {rows : List α}
    (hrows : ∀ row ∈ rows, f row = row ∨ p row = false ∧ p (f row) = false) :
    (rows.map f).filter p = rows.filter p := by
  induction rows with
  | nil => rfl
  | cons row rows ih =>
    have hrest := ih fun other hother => hrows other (List.mem_cons_of_mem _ hother)
    rw [List.map_cons, List.filter_cons, List.filter_cons, hrest]
    rcases hrows row List.mem_cons_self with hsame | ⟨hold, hnew⟩
    · rw [hsame]
    · rw [hold, hnew]
      rfl

/-- The rows of another account or instrument are not touched by a change of a holding. -/
theorem filter_isFor_hold {accountId instrumentId a i : ℤ} {change : ℚ} {id : ℤ}
    {now : DateTime} (hother : ¬ (a = accountId ∧ i = instrumentId)) :
    (database.hold accountId instrumentId change id now).ownedInstruments.rows.filter
        (OwnedInstrument.isFor a i) =
      database.ownedInstruments.rows.filter (OwnedInstrument.isFor a i) := by
  have hnew : ∀ row : OwnedInstrument, row.accountId = accountId →
      row.instrumentId = instrumentId → row.isFor a i = false := by
    intro row haccount hinstrument
    rw [← Bool.not_eq_true, OwnedInstrument.isFor_iff]
    rintro ⟨rfl, rfl⟩
    exact hother ⟨haccount, hinstrument⟩
  unfold Database.hold
  cases hrow : database.holdingRow accountId instrumentId with
  | none =>
    dsimp only
    unfold Table.insert
    split
    · rfl
    · rw [List.filter_append, List.filter_cons, hnew _ rfl rfl]
      exact List.append_nil _
  | some found =>
    have hfound : found ∈ database.ownedInstruments.rows := List.mem_of_find?_eq_some hrow
    have hpair := OwnedInstrument.isFor_iff.mp (List.find?_some hrow)
    refine filter_map_of_unchanged fun row hmem => ?_
    split_ifs with hid
    · have hsame : row = found :=
        List.inj_on_of_nodup_map database.ownedInstruments.keysNodup hmem hfound hid
      subst hsame
      exact Or.inr ⟨hnew row hpair.1 hpair.2, hnew _ hpair.1 hpair.2⟩
    · exact Or.inl rfl

/-- A posting leaves the history of other accounts alone. -/
theorem histories_post {accountId account : ℤ} {change : ℚ} {actionType : ActionType}
    {now : DateTime} (hother : account ≠ accountId) :
    (database.post accountId change actionType now).balanceHistories.filter
        (fun row => row.accountId = account) =
      database.balanceHistories.filter fun row => row.accountId = account := by
  unfold Database.post
  cases database.balances.find? accountId with
  | none => rfl
  | some balance =>
    rw [List.filter_append, List.filter_cons]
    simp only [BalanceHistory.ofAction, hother.symm, decide_false, Bool.false_eq_true, if_false,
      List.filter_nil, List.append_nil]

theorem find?_balances_post {accountId account : ℤ} {change : ℚ} {actionType : ActionType}
    {now : DateTime} (hother : account ≠ accountId) :
    (database.post accountId change actionType now).balances.find? account =
      database.balances.find? account := by
  unfold Database.post
  cases hbalance : database.balances.find? accountId with
  | none => rfl
  | some balance =>
    have hkey : balance.accountId = accountId := Table.key_of_find? hbalance
    exact Table.find?_set_ne (hkey.trans_ne hother.symm)

theorem balanceHistories_hold {accountId instrumentId : ℤ} {change : ℚ} {id : ℤ}
    {now : DateTime} : (database.hold accountId instrumentId change id now).balanceHistories =
      database.balanceHistories := by
  unfold Database.hold
  split <;> rfl

/-- An account is left alone: its balance, and its part of the history. -/
def SameAccount (before after : Database) (account : ℤ) : Prop :=
  after.balances.find? account = before.balances.find? account ∧
    after.balanceHistories.filter (fun row => row.accountId = account) =
      before.balanceHistories.filter fun row => row.accountId = account

/-- A holding is left alone, with all its columns. -/
def SameHolding (before after : Database) (accountId instrumentId : ℤ) : Prop :=
  after.ownedInstruments.rows.filter (OwnedInstrument.isFor accountId instrumentId) =
    before.ownedInstruments.rows.filter (OwnedInstrument.isFor accountId instrumentId)

theorem sameAccount_apply (hresolution : event.resolution = some (trade, decision)) {account : ℤ}
    (hother : ∀ executed ∈ decision.executed? trade,
      account ≠ executed.trade.accountId ∧ account ≠ ownerId) :
    SameAccount database (event.apply database) account := by
  cases event with
  | deposited | withdrawn | registered | executed => cases hresolution
  | rejected closed status => exact ⟨rfl, rfl⟩
  | filled closed settlement =>
    cases hresolution
    obtain ⟨hne, howner⟩ := hother _ rfl
    constructor
    · calc (Event.apply (.filled trade settlement) database).balances.find? account
          = (database.charge trade settlement).balances.find? account := by
            simp only [Event.apply, Database.settle, hold_balances]
        _ = database.balances.find? account := by
            rw [Database.charge, find?_balances_post howner, find?_balances_post hne,
              find?_balances_post hne]
    · simp only [Event.apply, Database.settle, balanceHistories_hold]
      rw [Database.charge, histories_post howner, histories_post hne, histories_post hne]

theorem sameHolding_apply (hresolution : event.resolution = some (trade, decision))
    {accountId instrumentId : ℤ} (hother : ∀ executed ∈ decision.executed? trade,
      executed.isFor accountId instrumentId = false) :
    SameHolding database (event.apply database) accountId instrumentId := by
  cases event with
  | deposited | withdrawn | registered | executed => cases hresolution
  | rejected closed status => rfl
  | filled closed settlement =>
    cases hresolution
    have hne := hother _ rfl
    rw [← Bool.not_eq_true, ExecutedTrade.isFor, decide_eq_true_eq] at hne
    calc (Event.apply (.filled trade settlement) database).ownedInstruments.rows.filter
          (OwnedInstrument.isFor accountId instrumentId)
        = (database.settle trade settlement).ownedInstruments.rows.filter
            (OwnedInstrument.isFor accountId instrumentId) := rfl
      _ = (database.charge trade settlement).ownedInstruments.rows.filter
            (OwnedInstrument.isFor accountId instrumentId) := filter_isFor_hold hne
      _ = database.ownedInstruments.rows.filter
            (OwnedInstrument.isFor accountId instrumentId) := by rw [charge_ownedInstruments]

/-- What each event leaves alone is the same at the end of the run. -/
theorem same_after (same : Database → Database → Prop) (hrefl : ∀ database, same database database)
    (htrans : ∀ first second third, same first second → same second third → same first third)
    {events : List Event} (hevents : ∀ event ∈ events, ∀ database,
      same database (event.apply database)) (database : Database) :
    same database (database.after events) := by
  induction events generalizing database with
  | nil => exact hrefl database
  | cons event events ih =>
    have hfirst := hevents event List.mem_cons_self database
    exact htrans _ _ _ hfirst
      (ih (fun other hother => hevents other (List.mem_cons_of_mem _ hother)) _)

end Untouched

/-! ## The run -/

/-- What a committed run makes of the trades and the holdings: `time` is its reading of the
clock for the overdue trades, `decisions` are those about the other open trades, in their
order. -/
structure DecidedRun (environment : Environment) (before after : Database) (time : DateTime)
    (decisions : List (Trade × Decision)) : Prop where
  pending : (decisions.map Prod.fst).Perm
    (before.trades.rows.filter fun trade => !trade.tradeClosed && !trade.overdue time)
  turns : ∀ done trade decision rest, decisions = done ++ (trade, decision) :: rest →
    Turn (before.market environment) (before.books.afterAll done) trade decision
  closed : ∀ trade ∈ before.trades.rows, trade.tradeClosed = true →
    after.trades.find? trade.id = some trade
  expired : ∀ trade ∈ before.trades.rows, trade.overdue time = true →
    after.trades.find? trade.id = some (trade.close "Time is up: trade failed" false)
  decided : ∀ trade decision, (trade, decision) ∈ decisions →
    after.trades.find? trade.id = some (decision.close trade)
  holdings : ∀ accountId instrumentId, after.holdingOf accountId instrumentId =
    if executedFor decisions accountId instrumentId = [] then
      before.holdingOf accountId instrumentId
    else some ((before.holdingOf accountId instrumentId).getD 0 +
      acquired decisions accountId instrumentId)
  untouchedAccounts : ∀ account, (∀ executed ∈ executedIn decisions,
    account ≠ executed.trade.accountId ∧ account ≠ ownerId) → SameAccount before after account
  untouchedHoldings : ∀ accountId instrumentId,
    executedFor decisions accountId instrumentId = [] →
      SameHolding before after accountId instrumentId

/-- A committed run, before its balances are stored. -/
structure ProcessedRun (environment : Environment) (before after : Database) (time : DateTime)
    (decisions : List (Trade × Decision)) : Prop
    extends DecidedRun environment before after time decisions where
  balances : ∀ account, after.balanceOf account =
    (before.balanceOf account).map (· + gained decisions account)

section Run

variable {environment : Environment} {database : Database} {time : DateTime}
  {decisions : List (Trade × Decision)} {closed : List Event}

/-- The events carry out the decisions, so they make the same of the books. -/
theorem books_after_closed (hpossible : Possible database closed)
    (hclosed : closed.map Event.resolution = (closings decisions).map some) :
    (database.after closed).books = database.books.afterAll decisions := by
  induction decisions generalizing database closed with
  | nil =>
    rw [List.map_eq_nil_iff.mp hclosed]
    rfl
  | cons entry decisions ih =>
    obtain ⟨trade, decision⟩ := entry
    rw [Books.afterAll_cons]
    by_cases hwait : decision = .wait
    · subst hwait
      exact ih hpossible hclosed
    · have hkept : closings ((trade, decision) :: decisions) =
          (trade, decision) :: closings decisions := List.filter_cons_of_pos (by simpa using hwait)
      rw [hkept, List.map_cons] at hclosed
      obtain ⟨event, events, rfl, hresolution, hrest⟩ := List.map_eq_cons_iff.mp hclosed
      rw [← books_apply hresolution hpossible.1]
      exact ih hpossible.2 hrest

theorem mem_decisions_of_event
    (hclosed : closed.map Event.resolution = (closings decisions).map some) {event : Event}
    (hevent : event ∈ closed) : ∃ trade decision,
      event.resolution = some (trade, decision) ∧ (trade, decision) ∈ decisions := by
  have hmem : event.resolution ∈ (closings decisions).map some := by
    rw [← hclosed]
    exact List.mem_map_of_mem hevent
  obtain ⟨⟨trade, decision⟩, hentry, hresolution⟩ := List.mem_map.mp hmem
  exact ⟨trade, decision, hresolution.symm, (List.mem_filter.mp hentry).1⟩

theorem event_of_mem_decisions
    (hclosed : closed.map Event.resolution = (closings decisions).map some) {trade : Trade}
    {decision : Decision} (hmem : (trade, decision) ∈ decisions) (hdecision : decision ≠ .wait) :
    ∃ event ∈ closed, event.resolution = some (trade, decision) := by
  have hclosing : some (trade, decision) ∈ (closings decisions).map some :=
    List.mem_map_of_mem (List.mem_filter.mpr ⟨hmem, by simpa using hdecision⟩)
  rw [← hclosed] at hclosing
  obtain ⟨event, hevent, hresolution⟩ := List.mem_map.mp hclosing
  exact ⟨event, hevent, hresolution⟩

theorem resolution_of_mem_expirations {event : Event}
    (hevent : event ∈ expirations environment database time) :
    ∃ trade ∈ database.trades.rows, trade.overdue time = true ∧
      event = .rejected trade "Time is up: trade failed" := by
  obtain ⟨trade, htrade, rfl⟩ := List.mem_map.mp hevent
  obtain ⟨hmem, hoverdue⟩ := List.mem_filter.mp ((environment.order_perm _).mem_iff.mp htrade)
  exact ⟨trade, hmem, hoverdue, rfl⟩

theorem mem_expirations {trade : Trade} (hmem : trade ∈ database.trades.rows)
    (hoverdue : trade.overdue time = true) :
    Event.rejected trade "Time is up: trade failed" ∈ expirations environment database time :=
  List.mem_map_of_mem ((environment.order_perm _).mem_iff.mpr
    (List.mem_filter.mpr ⟨hmem, hoverdue⟩))

theorem keys_trades_after {events : List Event} (hclosing : Closing events)
    (database : Database) : (database.after events).trades.keys = database.trades.keys := by
  induction events generalizing database with
  | nil => rfl
  | cons event events ih =>
    have hrest := ih (fun other hother => hclosing other (List.mem_cons_of_mem _ hother))
      (event.apply database)
    refine hrest.trans ?_
    have hresolution := hclosing event List.mem_cons_self
    cases event with
    | deposited | withdrawn | registered | executed => cases hresolution
    | rejected trade status => exact Table.keys_set _ _
    | filled trade settlement =>
      simp only [Event.apply, settle_trades]
      exact Table.keys_set _ _

theorem find?_expired (hpossible : Possible database (expirations environment database time))
    {trade : Trade} (hmem : trade ∈ database.trades.rows) (hoverdue : trade.overdue time = true) :
    (database.after (expirations environment database time)).trades.find? trade.id =
      some (trade.close "Time is up: trade failed" false) :=
  (find?_of_notified hpossible (mem_expirations hmem hoverdue) rfl).1

theorem closing_expirations : Closing (expirations environment database time) := by
  intro event hevent
  obtain ⟨trade, -, -, rfl⟩ := resolution_of_mem_expirations hevent
  rfl

section Expirations

variable (hpossible : Possible database (expirations environment database time))

include hpossible

theorem find?_expirations {trade : Trade} (hmem : trade ∈ database.trades.rows) :
    (database.after (expirations environment database time)).trades.find? trade.id =
      some (if trade.overdue time then trade.close "Time is up: trade failed" false
        else trade) := by
  split_ifs with hoverdue
  · exact find?_expired hpossible hmem hoverdue
  rw [find?_of_not_notified hpossible closing_expirations, Table.find?_key hmem]
  intro event hevent other hother hid
  obtain ⟨expired, hexpired, hexpiredOverdue, rfl⟩ := resolution_of_mem_expirations hevent
  cases hother
  have hsame : expired = trade :=
    List.inj_on_of_nodup_map database.trades.keysNodup hexpired hmem hid
  exact hoverdue (hsame ▸ hexpiredOverdue)

theorem rows_expirations :
    (database.after (expirations environment database time)).trades.rows =
      database.trades.rows.map fun trade =>
        if trade.overdue time then trade.close "Time is up: trade failed" false else trade := by
  let after := database.after (expirations environment database time)
  calc after.trades.rows
      = after.trades.rows.filterMap fun trade => after.trades.find? trade.id :=
        (filterMap_find?_of_mem fun _ hmem => hmem).symm
    _ = after.trades.keys.filterMap after.trades.find? :=
        (List.filterMap_map (f := Trade.id) (g := after.trades.find?)).symm
    _ = database.trades.keys.filterMap after.trades.find? := by
        rw [keys_trades_after closing_expirations]
    _ = database.trades.rows.filterMap fun trade => after.trades.find? trade.id :=
        List.filterMap_map
    _ = database.trades.rows.filterMap fun trade =>
          some (if trade.overdue time then trade.close "Time is up: trade failed" false
            else trade) :=
        List.filterMap_congr fun trade hmem => find?_expirations hpossible hmem
    _ = database.trades.rows.map fun trade =>
          if trade.overdue time then trade.close "Time is up: trade failed" false
            else trade := congrFun List.filterMap_eq_map' _

/-- The trades that are still open after the expirations are those that were open and not
overdue. -/
theorem openTrades_expirations :
    openTrades environment (database.after (expirations environment database time)) =
      environment.order (database.trades.rows.filter fun trade =>
        !trade.tradeClosed && !trade.overdue time) := by
  rw [openTrades, rows_expirations hpossible]
  congr 1
  induction database.trades.rows with
  | nil => rfl
  | cons trade rows ih =>
    rw [List.map_cons, List.filter_cons, List.filter_cons, ih]
    cases hoverdue : trade.overdue time with
    | true => simp [Trade.close]
    | false => simp

theorem mem_openTrades_iff (trade : Trade) :
    trade ∈ openTrades environment (database.after (expirations environment database time)) ↔
      trade ∈ database.trades.rows ∧ trade.tradeClosed = false ∧ trade.overdue time = false := by
  rw [openTrades_expirations hpossible, (environment.order_perm _).mem_iff, List.mem_filter,
    Bool.and_eq_true, Bool.not_eq_true', Bool.not_eq_true']

theorem pending_perm :
    (openTrades environment (database.after (expirations environment database time))).Perm
      (database.trades.rows.filter fun trade => !trade.tradeClosed && !trade.overdue time) := by
  rw [openTrades_expirations hpossible]
  exact environment.order_perm _

end Expirations

theorem closing_of_run (hclosed : closed.map Event.resolution = (closings decisions).map some) :
    Closing (expirations environment database time ++ closed) := by
  intro event hevent
  rcases List.mem_append.mp hevent with hexpired | hdecided
  · obtain ⟨other, -, -, rfl⟩ := resolution_of_mem_expirations hexpired
    rfl
  · obtain ⟨trade, decision, hresolution, -⟩ := mem_decisions_of_event hclosed hdecided
    rw [hresolution]
    rfl

/-- An event executes nothing but what the run has decided to execute. -/
theorem executed_of_mem_events
    (hclosed : closed.map Event.resolution = (closings decisions).map some)
    {condition : ExecutedTrade → Prop}
    (hcondition : ∀ executed ∈ executedIn decisions, condition executed) {event : Event}
    (hevent : event ∈ expirations environment database time ++ closed) :
    ∃ trade decision, event.resolution = some (trade, decision) ∧
      ∀ executed ∈ decision.executed? trade, condition executed := by
  rcases List.mem_append.mp hevent with hexpired | hdecided
  · obtain ⟨other, -, -, rfl⟩ := resolution_of_mem_expirations hexpired
    exact ⟨other, _, rfl, fun executed hnone => absurd hnone (Option.not_mem_none executed)⟩
  · obtain ⟨trade, decision, hresolution, hmem⟩ := mem_decisions_of_event hclosed hdecided
    refine ⟨trade, decision, hresolution, fun executed hexecuted => ?_⟩
    exact hcondition executed (List.mem_filterMap.mpr ⟨(trade, decision), hmem, hexecuted⟩)

section Decided

variable (hbatch : batch (database.market environment) database.books
    (openTrades environment (database.after (expirations environment database time))) =
      some decisions)
  (hclosed : closed.map Event.resolution = (closings decisions).map some)
  (hpossible : Possible database (expirations environment database time ++ closed))

include hbatch hclosed hpossible

theorem find?_decided {trade : Trade} {decision : Decision} (hmem : (trade, decision) ∈ decisions) :
    (database.after (expirations environment database time ++ closed)).trades.find? trade.id =
      some (decision.close trade) := by
  have hexpirations := (Replay.possible_append.mp hpossible).1
  have htrades := map_fst_of_batch hbatch
  by_cases hwait : decision = .wait
  · subst hwait
    have hopen : trade ∈ openTrades environment
        (database.after (expirations environment database time)) := by
      rw [← htrades]
      exact List.mem_map_of_mem hmem
    obtain ⟨hrow, -, hnot⟩ := (mem_openTrades_iff hexpirations trade).mp hopen
    rw [find?_of_not_notified hpossible (closing_of_run hclosed), Table.find?_key hrow]
    · rfl
    -- no event has closed a trade with this id
    intro event hevent other hother hid
    rcases List.mem_append.mp hevent with hexpired | hdecided
    · obtain ⟨overdue, hoverdueRow, hoverdue, rfl⟩ := resolution_of_mem_expirations hexpired
      cases hother
      have hsame : overdue = trade :=
        List.inj_on_of_nodup_map database.trades.keysNodup hoverdueRow hrow hid
      rw [hsame, hnot] at hoverdue
      cases hoverdue
    · have hresolution : event.resolution ∈ (closings decisions).map some := by
        rw [← hclosed]
        exact List.mem_map_of_mem hdecided
      obtain ⟨⟨second, choice⟩, hentry, hresolution⟩ := List.mem_map.mp hresolution
      obtain ⟨hsecond, hchoice⟩ := List.mem_filter.mp hentry
      rw [notified_of_resolution hresolution.symm] at hother
      cases hother
      rw [id_close] at hid
      have hsecondRow : second ∈ database.trades.rows := by
        refine ((mem_openTrades_iff hexpirations second).mp ?_).1
        rw [← htrades]
        exact List.mem_map_of_mem hsecond
      have hsame : second = trade :=
        List.inj_on_of_nodup_map database.trades.keysNodup hsecondRow hrow hid
      subst hsame
      have hnodup : (decisions.map Prod.fst).Nodup := by
        rw [htrades]
        exact (pending_perm hexpirations).nodup_iff.mpr
          ((List.Nodup.of_map _ database.trades.keysNodup).filter _)
      have hentries := List.inj_on_of_nodup_map hnodup hsecond hmem rfl
      rw [Prod.mk.injEq] at hentries
      rw [hentries.2] at hchoice
      exact absurd rfl (of_decide_eq_true hchoice)
  · obtain ⟨event, hevent, hresolution⟩ := event_of_mem_decisions hclosed hmem hwait
    have hfound := (find?_of_notified hpossible (List.mem_append_right _ hevent)
      (notified_of_resolution hresolution)).1
    rwa [id_close] at hfound

omit hbatch in
theorem books_of_run : (database.after (expirations environment database time ++ closed)).books =
    database.books.afterAll decisions := by
  have hlater := (Replay.possible_append.mp hpossible).2
  calc (database.after (expirations environment database time ++ closed)).books
      = ((database.after (expirations environment database time)).after closed).books :=
        congrArg Database.books (Replay.run_append _ _ _)
    _ = (database.after (expirations environment database time)).books.afterAll decisions :=
        books_after_closed hlater hclosed
    _ = database.books.afterAll decisions := by rw [books_expirations]

/-- The events of a run, as its specification tells them. -/
theorem processedRun_of_events : ProcessedRun environment database
    (database.after (expirations environment database time ++ closed)) time decisions where
  pending := by
    rw [map_fst_of_batch hbatch]
    exact pending_perm (Replay.possible_append.mp hpossible).1
  turns _ _ _ _ hturn := turn_of_decide (decide_of_batch hbatch hturn)
  closed trade hmem htradeClosed :=
    (Since.after hpossible).closed trade.id trade (Table.find?_key hmem) htradeClosed
  expired _ hmem hoverdue :=
    (find?_of_notified hpossible (List.mem_append_left _ (mem_expirations hmem hoverdue)) rfl).1
  decided _ _ hmem := find?_decided hbatch hclosed hpossible hmem
  balances account := by
    have hbalance := congrFun (congrArg Books.balance (books_of_run hclosed hpossible))
      account
    rw [balance_afterAll] at hbalance
    exact hbalance
  holdings accountId instrumentId := by
    have hholding := congrFun (congrFun (congrArg Books.holding
      (books_of_run hclosed hpossible)) accountId) instrumentId
    rw [holding_afterAll] at hholding
    exact hholding
  untouchedAccounts account hother := by
    refine same_after (fun before after => SameAccount before after account)
      (fun _ => ⟨rfl, rfl⟩)
      (fun _ _ _ hfirst hsecond => ⟨hsecond.1.trans hfirst.1, hsecond.2.trans hfirst.2⟩)
      (fun event hevent before => ?_) database
    obtain ⟨trade, decision, hresolution, hexecuted⟩ :=
      executed_of_mem_events hclosed hother hevent
    exact sameAccount_apply hresolution hexecuted
  untouchedHoldings accountId instrumentId hnone := by
    have hother : ∀ executed ∈ executedIn decisions,
        executed.isFor accountId instrumentId = false := fun executed hmem =>
      Bool.eq_false_iff.mpr (List.filter_eq_nil_iff.mp hnone executed hmem)
    refine same_after (fun before after => SameHolding before after accountId instrumentId)
      (fun _ => rfl) (fun _ _ _ hfirst hsecond => Eq.trans hsecond hfirst)
      (fun event hevent before => ?_) database
    obtain ⟨trade, decision, hresolution, hexecuted⟩ :=
      executed_of_mem_events hclosed hother hevent
    exact sameHolding_apply hresolution hexecuted

end Decided

/-- The events of a committed run: `decisions` are those of `batch`, and `closed` carries
them out. -/
structure CarriedOut (environment : Environment) (shared shared' : Shared) (time : DateTime)
    (decisions : List (Trade × Decision)) (closed : List Event) : Prop where
  notBefore : shared.clock ≤ time
  notAfter : time ≤ shared'.clock
  distinctPrices : ((pricesOfResponse environment.latestPrices).map Price.instrumentId).Nodup
  batch : batch (shared.database.market environment) shared.database.books
    (openTrades environment (shared.database.after
      (expirations environment shared.database time))) = some decisions
  resolutions : closed.map Event.resolution = (closings decisions).map some
  possible : Possible shared.database (expirations environment shared.database time ++ closed)
  database : shared'.database =
    shared.database.after (expirations environment shared.database time ++ closed)

theorem carriedOut_of_serves {shared shared' : Shared}
    (hserves : Serves environment .processLongRunningTransactions shared (.ok ()) shared') :
    ∃ time decisions closed, CarriedOut environment shared shared' time decisions closed := by
  obtain ⟨context, hexec⟩ := hserves
  have hensures : Ensures environment LongTradeService.processLongRunningTransactions
      (fun _ final => final.rolledBack = false ∧ ∃ time decisions closed,
        CarriedOut environment shared
          { shared with database := final.committed, clock := final.clock } time decisions
          closed)
      (fun _ _ => True)
      (Session.arrive shared.database shared.clock shared.closedTrades) := by
    refine LongTradeService.processLongRunningTransactions_at (fun _ _ _ => trivial) ?_
    intro time decisions closed events now htime hnow hdistinct hevents hbatch hclosed
      hpossible _
    subst hevents
    exact ⟨rfl, time, decisions, closed, htime, hnow, hdistinct, hbatch, hclosed, hpossible,
      rfl⟩
  obtain ⟨session, hrelated, hopen, time, decisions, closed, hcarried⟩ := hensures.sound hexec
  have hclock : session.clock ≤ shared'.clock := (hrelated.mirrored hopen).clock
  exact ⟨time, decisions, closed, { hcarried with
    notAfter := hcarried.notAfter.trans hclock
    database := hrelated.committed.symm.trans hcarried.database }⟩

theorem CarriedOut.processedRun {shared shared' : Shared}
    (hcarried : CarriedOut environment shared shared' time decisions closed) :
    ProcessedRun environment shared.database shared'.database time decisions := by
  rw [hcarried.database]
  exact processedRun_of_events hcarried.batch hcarried.resolutions hcarried.possible

/-- A committed run, whatever the order of the open trades, the time and the prices. -/
theorem processedRun_of_serves {shared shared' : Shared}
    (hserves : Serves environment .processLongRunningTransactions shared (.ok ()) shared') :
    ∃ time decisions, shared.clock ≤ time ∧ time ≤ shared'.clock ∧
      ProcessedRun environment shared.database shared'.database time decisions := by
  obtain ⟨time, decisions, closed, hcarried⟩ := carriedOut_of_serves hserves
  exact ⟨time, decisions, hcarried.notBefore, hcarried.notAfter, hcarried.processedRun⟩

end Run

end EasyTrade.Broker

import EasyTrade.Broker.Batch
import EasyTrade.Broker.ServiceSpecs

/-!
# One run over the open trades

`ProcessLongRunningTransactions` carries out the decisions of `batch`, one
event for each trade that it closes, after it has closed the overdue trades.
The loops are followed trade by trade; the engine is told about every closing
as it happens, which is before anything is committed.
-/

namespace EasyTrade.Broker

open EasyTrade.Program

/-- The session after an event, of which the engine has been told. -/
def Session.upon (session : Session) (event : Event) (now : DateTime) : Session :=
  { session with
    current := event.apply session.current
    clock := now
    closedTrades := session.closedTrades ++ event.notified.toList }

/-- A trade whose turn it is: it is open, and neither it nor any holding has
unsaved changes. -/
structure OnTurn (fails : Database → List Trade → Prop) (session : Session)
    (trade : Trade) : Prop where
  notRolledBack : session.rolledBack = false
  failing : fails session.committed session.closedTrades
  holdings : session.saved.ownedInstruments = session.current.ownedInstruments
  stored : trade.id ∈ session.saved.trades.keys
  found : session.current.trades.find? trade.id = some trade
  isOpen : trade.tradeClosed = false

namespace LongTradeService

open TradeServiceBase TradeService

variable {environment : Environment} {fails : Database → List Trade → Prop}
variable {session : Session} {trade : Trade} {ok : Unit → Session → Prop}

theorem closeTrade_spec {status : String} {happened : Bool}
    (hopen : session.rolledBack = false)
    (hfails : fails session.committed session.closedTrades)
    (hstored : trade.id ∈ session.saved.trades.keys)
    (hok : ok () { session with
      current := { session.current with
        trades := session.current.trades.set (trade.close status happened) }
      closedTrades := session.closedTrades ++ [trade.close status happened] }) :
    Ensures environment (closeTrade trade status happened) ok fails session := by
  simp only [closeTrade, ensures_bind, ensures_updateTrade, ensures_onTradeClosed, hopen,
    hfails, true_and]
  exact ⟨hstored, by simpa only [hopen] using hok⟩

/-- A trade is closed without effect. -/
theorem reject_spec {status : String} (hturn : OnTurn fails session trade)
    (hok : ok () (session.upon (.rejected trade status) session.clock)) :
    Ensures environment (closeTrade trade status false) ok fails session :=
  closeTrade_spec hturn.notRolledBack hturn.failing hturn.stored hok

theorem processLongBuy_spec {instrument : Instrument} {price : Price} {product : Product}
    (hturn : OnTurn fails session trade) (hid : instrument.id = trade.instrumentId)
    (hfee : session.current.pptOf trade.instrumentId = some product.ppt)
    (hdirection : equalsIgnoreCase trade.direction ActionType.longBuy.name)
    (hwait : session.current.books.decideBuy trade price product = some .wait →
      ok () session)
    (hclose : ∀ (event : Event) decision now,
      session.current.books.decideBuy trade price product = some decision →
      event.resolution = some (trade, decision) → event.Allowed session.current →
      Ordered session.clock event.dates now → ok () (session.upon event now)) :
    Ensures environment (processLongBuy trade instrument price product) ok fails
      session := by
  have hopen := hturn.notRolledBack
  have hfails := hturn.failing
  rw [processLongBuy]
  split_ifs with hprice
  · exact hwait (by simp only [Books.decideBuy, if_pos hprice])
  simp only [ensures_bind, ensures_getBalanceOfAccount, ensures_notNull, hopen, hfails,
    true_and, implies_true]
  intro balance hbalance
  have hvalue : session.current.books.balance trade.accountId = some balance.value :=
    balanceOf_eq hbalance
  split_ifs with hmissing
  · refine reject_spec hturn (hclose _ _ _ ?_ rfl ⟨hturn.found, hturn.isOpen⟩ le_rfl)
    simp [Books.decideBuy, hprice, hvalue, hmissing]
  have hkey : balance.accountId = trade.accountId := Table.key_of_find? hbalance
  rw [ensures_bind]
  refine updateBalance_spec hopen hfails (hkey ▸ hbalance) ?_
  intro tradeDate feeDate collectDate howner htrade hfeeDate hcollect
  rw [hkey, hid, ensures_bind]
  refine updateOwnedInstrumentOf_spec hopen hfails (by simpa using hturn.holdings) ?_
  intro ownedInstrumentId holdingDate hfresh hholding
  simp only [holdingRow_post, post_ownedInstruments] at hfresh
  refine closeTrade_spec hopen hfails hturn.stored ?_
  let settlement : Settlement :=
    ⟨.longBuy, product.ppt, tradeDate, feeDate, collectDate, holdingDate, ownedInstrumentId⟩
  obtain ⟨owner, hownerRow⟩ := find?_balances_of_mem howner
  have hsettleable : Settleable session.current trade settlement :=
    { trader := Table.mem_keys_of_find? hbalance
      owner := howner
      fee := hfee
      direction := hdirection
      affordable := fun _ => ⟨balance.value, hvalue, not_lt.mp hmissing⟩
      available := by rintro (h | h) <;> cases h
      fresh := hfresh }
  refine hclose (.filled trade settlement) (.fill .longBuy product.ppt) holdingDate ?_ rfl
    ⟨hturn.found, hturn.isOpen, Or.inl rfl, hsettleable⟩
    ⟨htrade, hfeeDate, hcollect, hholding, le_rfl⟩
  have hownerValue : session.current.books.balance ownerId = some owner.value :=
    balanceOf_eq hownerRow
  simp [Books.decideBuy, hprice, hvalue, hmissing, hownerValue]

theorem processLongSell_spec {instrument : Instrument} {price : Price} {product : Product}
    (hturn : OnTurn fails session trade) (hid : instrument.id = trade.instrumentId)
    (hfee : session.current.pptOf trade.instrumentId = some product.ppt)
    (hdirection : equalsIgnoreCase trade.direction ActionType.longSell.name)
    (hwait : session.current.books.decideSell trade instrument price product = some .wait →
      ok () session)
    (hclose : ∀ (event : Event) decision now,
      session.current.books.decideSell trade instrument price product = some decision →
      event.resolution = some (trade, decision) → event.Allowed session.current →
      Ordered session.clock event.dates now → ok () (session.upon event now)) :
    Ensures environment (processLongSell trade instrument price product) ok fails
      session := by
  have hopen := hturn.notRolledBack
  have hfails := hturn.failing
  rw [processLongSell]
  split_ifs with hprice
  · exact hwait (by simp only [Books.decideSell, if_pos hprice])
  simp only [ensures_bind, ensures_getOwnedInstrument, hopen, hfails, true_and]
  rw [bind_find?_holdingRow hturn.holdings]
  cases hrow : session.current.holdingRow trade.accountId instrument.id with
  | none =>
      have hnone : session.current.books.holding trade.accountId instrument.id = none :=
        congrArg (Option.map OwnedInstrument.quantity) hrow
      refine reject_spec hturn (hclose _ _ _ ?_ rfl ⟨hturn.found, hturn.isOpen⟩ le_rfl)
      simp [Books.decideSell, hprice, hnone]
  | some row =>
  have hheld : session.current.books.holding trade.accountId instrument.id =
      some row.quantity :=
    congrArg (Option.map OwnedInstrument.quantity) hrow
  dsimp only
  split_ifs with hmissing
  · refine reject_spec hturn (hclose _ _ _ ?_ rfl ⟨hturn.found, hturn.isOpen⟩ le_rfl)
    simp [Books.decideSell, hprice, hheld, hmissing]
  simp only [ensures_bind, ensures_getBalanceOfAccount, ensures_notNull, hopen, hfails,
    true_and, implies_true]
  intro balance hbalance
  have hvalue : session.current.books.balance trade.accountId = some balance.value :=
    balanceOf_eq hbalance
  have hkey : balance.accountId = trade.accountId := Table.key_of_find? hbalance
  refine updateBalance_spec hopen hfails (hkey ▸ hbalance) ?_
  intro tradeDate feeDate collectDate howner htrade hfeeDate hcollect
  rw [hkey, mul_comm trade.entryPrice trade.quantity]
  refine updateOwnedInstrument_spec trade.accountId instrument.id 0 hopen hfails
    (by simpa using hturn.holdings) (by simpa using hrow) ?_
  intro holdingDate hholding
  refine closeTrade_spec hopen hfails hturn.stored ?_
  rw [hid] at hrow hheld ⊢
  let settlement : Settlement :=
    ⟨.longSell, product.ppt, tradeDate, feeDate, collectDate, holdingDate, 0⟩
  obtain ⟨owner, hownerRow⟩ := find?_balances_of_mem howner
  have hsettleable : Settleable session.current trade settlement :=
    { trader := Table.mem_keys_of_find? hbalance
      owner := howner
      fee := hfee
      direction := hdirection
      affordable := by rintro (h | h) <;> cases h
      available := fun _ => ⟨row.quantity, hheld, not_lt.mp hmissing⟩
      fresh := fun hnone => absurd (hrow.symm.trans hnone) (by simp) }
  refine hclose (.filled trade settlement) (.fill .longSell product.ppt) holdingDate ?_ rfl
    ⟨hturn.found, hturn.isOpen, Or.inr rfl, hsettleable⟩
    ⟨htrade, hfeeDate, hcollect, hholding, le_rfl⟩
  have hownerValue : session.current.books.balance ownerId = some owner.value :=
    balanceOf_eq hownerRow
  simp [Books.decideSell, hprice, hid, hheld, hmissing, hvalue, hownerValue]

/-- One turn of the loop: the decision is carried out and saved. -/
theorem processOpenTrade_spec {market : Market} (hturn : OnTurn fails session trade)
    (hbegun : session.inTransaction = true)
    (hinstruments : ∀ id instrument, market.instruments id = some instrument →
      instrument.id = id)
    (hproducts : ∀ instrument product,
      market.instruments trade.instrumentId = some instrument →
      market.products instrument.productId = some product →
      session.current.pptOf trade.instrumentId = some product.ppt)
    (hnotified : ∀ (event : Event) decision, event.resolution = some (trade, decision) →
      event.Allowed session.current →
      fails session.committed (session.closedTrades ++ event.notified.toList))
    (hwait : session.current.books.decide market trade = some .wait →
      ok () { session with saved := session.current })
    (hclose : ∀ (event : Event) decision now,
      session.current.books.decide market trade = some decision →
      event.resolution = some (trade, decision) → event.Allowed session.current →
      Ordered session.clock event.dates now →
      ok () { session.upon event now with saved := event.apply session.current }) :
    Ensures environment
      (processOpenTrade market.instruments market.prices market.products trade) ok fails
      session := by
  have hopen := hturn.notRolledBack
  have hfails := hturn.failing
  simp only [processOpenTrade, ensures_bind, ensures_index, ensures_saveChanges, hfails,
    true_and, implies_true]
  intro instrument hinstrument price hprice product hproduct
  have hid := hinstruments _ _ hinstrument
  have hfee := hproducts _ _ hinstrument hproduct
  have hdecide : session.current.books.decide market trade =
      if equalsIgnoreCase trade.direction ActionType.longBuy.name then
        session.current.books.decideBuy trade price product
      else if equalsIgnoreCase trade.direction ActionType.longSell.name then
        session.current.books.decideSell trade instrument price product
      else
        some (.reject "This is not a long running transcation! Trade failed!") := by
    simp [Books.decide, hinstrument, hprice, hproduct]
  have hsaveWait : session.current.books.decide market trade = some .wait →
      session.rolledBack = false ∧ session.inTransaction = true ∧
        fails session.committed session.closedTrades ∧
          ok () { session with saved := session.current } :=
    fun h => ⟨hopen, hbegun, hfails, hwait h⟩
  have hsaveClose : ∀ (event : Event) decision now,
      session.current.books.decide market trade = some decision →
      event.resolution = some (trade, decision) → event.Allowed session.current →
      Ordered session.clock event.dates now →
      (session.upon event now).rolledBack = false ∧
        (session.upon event now).inTransaction = true ∧
          fails (session.upon event now).committed (session.upon event now).closedTrades ∧
            ok () { session.upon event now with
              saved := (session.upon event now).current } :=
    fun event decision now hdecision hresolution hallowed hordered =>
      ⟨hopen, hbegun, hnotified event decision hresolution hallowed,
        hclose event decision now hdecision hresolution hallowed hordered⟩
  rw [hdecide] at hsaveWait hsaveClose
  rw [processByDirection]
  split_ifs at hsaveWait hsaveClose ⊢ with hbuy hsell
  · exact processLongBuy_spec hturn hid hfee hbuy hsaveWait hsaveClose
  · exact processLongSell_spec hturn hid hfee hsell hsaveWait hsaveClose
  · exact reject_spec hturn
      (hsaveClose _ _ _ rfl rfl ⟨hturn.found, hturn.isOpen⟩ le_rfl)

/-! ## The loops -/

/-- A run that has carried out `events` since it arrived at `database`. -/
structure Carried (database : Database) (clock : DateTime) (closedTrades : List Trade)
    (events : List Event) (session : Session) : Prop where
  possible : Possible database events
  closing : Closing events
  ordered : Ordered clock (events.flatMap Event.dates) session.clock
  committed : session.committed = database
  current : session.current = database.after events
  notified : session.closedTrades = closedTrades ++ events.filterMap Event.notified
  begun : session.inTransaction = true
  uncommitted : session.commits = 0
  notRolledBack : session.rolledBack = false

variable {database : Database} {clock : DateTime} {closedTrades : List Trade}
variable {events : List Event}

theorem Carried.failing
    (hfails : ∀ events, Possible database events → Closing events →
      fails database (closedTrades ++ events.filterMap Event.notified))
    (hcarried : Carried database clock closedTrades events session) :
    fails session.committed session.closedTrades := by
  rw [hcarried.committed, hcarried.notified]
  exact hfails events hcarried.possible hcarried.closing

theorem Carried.failing_upon {event : Event}
    (hfails : ∀ events, Possible database events → Closing events →
      fails database (closedTrades ++ events.filterMap Event.notified))
    (hcarried : Carried database clock closedTrades events session)
    (hresolution : event.resolution.isSome) (hallowed : event.Allowed session.current) :
    fails session.committed (session.closedTrades ++ event.notified.toList) := by
  rw [hcarried.current] at hallowed
  rw [hcarried.committed, hcarried.notified, List.append_assoc,
    ← filterMap_notified_concat]
  exact hfails _ (Replay.possible_concat.mpr ⟨hcarried.possible, hallowed⟩)
    (hcarried.closing.concat hresolution)

theorem Carried.upon {event : Event} {now : DateTime}
    (hcarried : Carried database clock closedTrades events session)
    (hresolution : event.resolution.isSome) (hallowed : event.Allowed session.current)
    (hordered : Ordered session.clock event.dates now) :
    Carried database clock closedTrades (events ++ [event]) (session.upon event now) where
  possible := by
    rw [hcarried.current] at hallowed
    exact Replay.possible_concat.mpr ⟨hcarried.possible, hallowed⟩
  closing := hcarried.closing.concat hresolution
  ordered := by
    rw [List.flatMap_append, List.flatMap_singleton]
    exact hcarried.ordered.append hordered
  committed := hcarried.committed
  current := by
    have hcurrent : session.current = Replay.run Event.apply database events :=
      hcarried.current
    rw [Database.after, Replay.run_append, ← hcurrent]
    rfl
  notified := by
    rw [filterMap_notified_concat, ← List.append_assoc, ← hcarried.notified]
    rfl
  begun := hcarried.begun
  uncommitted := hcarried.uncommitted
  notRolledBack := hcarried.notRolledBack

/-- Nothing has happened when the transaction begins. -/
theorem carried_begin : Carried database clock closedTrades []
    { Session.arrive database clock closedTrades with inTransaction := true } where
  possible := trivial
  closing _ hnone := absurd hnone List.not_mem_nil
  ordered := le_rfl
  committed := rfl
  current := rfl
  notified := by simp [Session.arrive]
  begun := rfl
  uncommitted := rfl
  notRolledBack := rfl

/-- The first loop: the overdue trades are closed one by one. -/
theorem closeOverdueTrades_spec {ok : PUnit → Session → Prop}
    (hfails : ∀ events, Possible database events → Closing events →
      fails database (closedTrades ++ events.filterMap Event.notified))
    (hcarried : Carried database clock closedTrades [] session)
    (hsaved : session.saved = database)
    (hok : ∀ time final, clock ≤ time →
      Carried database clock closedTrades (expirations environment database time) final →
      final.saved = database → time ≤ final.clock → ok ⟨⟩ final) :
    Ensures environment closeOverdueTrades ok fails session := by
  have hcurrent : session.current = database := hcarried.current
  have hstart : clock ≤ session.clock := hcarried.ordered
  simp only [closeOverdueTrades, ensures_bind, ensures_getTradesWhere,
    hcarried.notRolledBack, hcarried.failing hfails, true_and]
  intro time htime
  let overdue := environment.order (database.trades.rows.filter (Trade.overdue time))
  have hmem : ∀ trade ∈ overdue, trade ∈ database.trades.rows := fun trade htrade =>
    (List.mem_filter.mp ((environment.order_perm _).mem_iff.mp htrade)).1
  have hpending : Pending database overdue := pending_order fun trade htrade => by
    simp only [Trade.overdue, Bool.and_eq_true, Bool.not_eq_true'] at htrade
    exact htrade.1
  rw [hsaved, hcurrent, filterMap_find?_of_mem hmem]
  let invariant : List Trade → Session → Prop := fun rest session =>
    ∃ done, overdue = done ++ rest ∧
      Carried database clock closedTrades
        (done.map fun trade => .rejected trade "Time is up: trade failed") session ∧
      Pending session.current rest ∧ session.saved = database ∧ time ≤ session.clock
  refine ensures_forM invariant ?_ ?_ overdue ⟨[], rfl, ?_, hpending, rfl, le_rfl⟩
  · rintro trade rest session ⟨done, hdone, hcarried, hpending, hsaved, hclock⟩
    let event : Event := .rejected trade "Time is up: trade failed"
    have hresolution : event.resolution =
        some (trade, .reject "Time is up: trade failed") := rfl
    have hallowed : event.Allowed session.current :=
      ⟨hpending.found trade List.mem_cons_self, hpending.isOpen trade List.mem_cons_self⟩
    have hstored : trade.id ∈ session.saved.trades.keys := by
      rw [hsaved]
      exact List.mem_map_of_mem (hmem trade (by rw [hdone]; simp))
    have hnext : invariant rest (session.upon event session.clock) := by
      refine ⟨done ++ [trade], by simp [hdone], ?_, hpending.apply hresolution, hsaved,
        hclock⟩
      rw [List.map_append]
      exact hcarried.upon rfl hallowed le_rfl
    exact closeTrade_spec hcarried.notRolledBack (hcarried.failing hfails) hstored hnext
  · rintro session ⟨done, hdone, hcarried, -, hsaved, hclock⟩
    rw [List.append_nil] at hdone
    rw [← hdone] at hcarried
    exact hok time session (hstart.trans htime) hcarried hsaved hclock
  · exact
      { possible := trivial
        closing := fun _ h => absurd h List.not_mem_nil
        ordered := hstart.trans htime
        committed := hcarried.committed
        current := rfl
        notified := hcarried.notified
        begun := hcarried.begun
        uncommitted := hcarried.uncommitted
        notRolledBack := rfl }

/-- The second loop: every open trade gets the decision it is due. -/
theorem processOpenTrades_spec {ok : PUnit → Session → Prop} {expired : List Event}
    (hfails : ∀ events, Possible database events → Closing events →
      fails database (closedTrades ++ events.filterMap Event.notified))
    (hcarried : Carried database clock closedTrades expired session)
    (hsaved : session.saved = session.current)
    (hok : ∀ closed decisions final,
      batch (database.market environment) session.current.books
        (openTrades environment session.current) = some decisions →
      closed.map Event.resolution = (closings decisions).map some →
      Carried database clock closedTrades (expired ++ closed) final →
      session.clock ≤ final.clock → ok ⟨⟩ final) :
    Ensures environment
      (forM (openTrades environment session.current)
        (processOpenTrade (database.market environment).instruments
          (database.market environment).prices (database.market environment).products))
      ok fails session := by
  let market := database.market environment
  let books := session.current.books
  let trades := openTrades environment session.current
  let start := session.clock
  have hpending : Pending session.current trades := pending_order fun trade htrade => by
    simpa using htrade
  let invariant : List Trade → Session → Prop := fun rest session =>
    ∃ closed decisions, Carried database clock closedTrades (expired ++ closed) session ∧
      session.saved = session.current ∧ Pending session.current rest ∧
      closed.map Event.resolution = (closings decisions).map some ∧ start ≤ session.clock ∧
      ∀ tail, batch market session.current.books rest = some tail →
        batch market books trades = some (decisions ++ tail)
  refine ensures_forM invariant ?_ ?_ trades
    ⟨[], [], by simpa using hcarried, hsaved, hpending, rfl, le_rfl, fun tail htail => htail⟩
  · rintro trade rest session
      ⟨closed, decisions, hcarried, hsaved, hpending, hclosed, hclock, hbatch⟩
    have hfound := hpending.found trade List.mem_cons_self
    have hturn : OnTurn fails session trade :=
      { notRolledBack := hcarried.notRolledBack
        failing := hcarried.failing hfails
        holdings := by rw [hsaved]
        stored := by rw [hsaved]; exact Table.mem_keys_of_find? hfound
        found := hfound
        isOpen := hpending.isOpen trade List.mem_cons_self }
    refine processOpenTrade_spec hturn hcarried.begun
      (fun id instrument hinstrument => Table.key_of_find? hinstrument) ?_ ?_ ?_ ?_
    · intro instrument product hinstrument hproduct
      rw [hcarried.current, pptOf_after]
      exact pptOf_eq hinstrument hproduct
    · exact fun event decision hresolution hallowed =>
        hcarried.failing_upon hfails (by simp [hresolution]) hallowed
    · intro hdecision
      refine ⟨closed, decisions ++ [(trade, .wait)], ?_, rfl, hpending.tail, ?_, hclock, ?_⟩
      · exact { hcarried with }
      · simpa [closings] using hclosed
      · intro tail htail
        rw [List.append_assoc]
        refine hbatch _ ?_
        have htail' : batch market session.current.books rest = some tail := htail
        rw [batch, hdecision]
        simp [Books.after, htail']
    · intro event decision now hdecision hresolution hallowed hordered
      have hcarried' := hcarried.upon (by simp [hresolution]) hallowed hordered
      rw [List.append_assoc] at hcarried'
      have hclosing : decision ≠ .wait := by
        rintro rfl
        cases event <;> cases hresolution
      refine ⟨closed ++ [event], decisions ++ [(trade, decision)], { hcarried' with }, rfl,
        hpending.apply hresolution, ?_, hclock.trans hordered.le, ?_⟩
      · simp [closings, hclosing, hresolution, hclosed]
      · intro tail htail
        rw [List.append_assoc]
        refine hbatch _ ?_
        have hbooks : (event.apply session.current).books =
            session.current.books.after trade decision := books_apply hresolution hallowed
        have htail' : batch market (session.current.books.after trade decision) rest =
            some tail := hbooks ▸ htail
        rw [batch, hdecision]
        simp [htail']
  · rintro final ⟨closed, decisions, hcarried, -, -, hclosed, hclock, hbatch⟩
    exact hok closed decisions final (by simpa using hbatch [] rfl) hclosed hcarried hclock

/-- The overdue trades are those of a time during the run. -/
theorem processLongRunningTransactions_at {ok : Unit → Session → Prop}
    (hfails : ∀ events, Possible database events → Closing events →
      fails database (closedTrades ++ events.filterMap Event.notified))
    (hok : ∀ time decisions (closed events : List Event) now, clock ≤ time → time ≤ now →
      ((pricesOfResponse environment.latestPrices).map Price.instrumentId).Nodup →
      events = expirations environment database time ++ closed →
      batch (database.market environment) database.books
        (openTrades environment
          (database.after (expirations environment database time))) = some decisions →
      closed.map Event.resolution = (closings decisions).map some →
      Possible database events → Ordered clock (events.flatMap Event.dates) now →
      ok () (Session.leave (database.after events) now
        (closedTrades ++ events.filterMap Event.notified))) :
    Ensures environment processLongRunningTransactions ok fails
      (Session.arrive database clock closedTrades) := by
  have hnone : fails database closedTrades := by
    simpa using hfails [] trivial fun _ h => absurd h List.not_mem_nil
  rw [processLongRunningTransactions]
  simp only [ensures_bind, ensures_beginTransaction, Session.arrive, hnone, true_and]
  refine closeOverdueTrades_spec hfails carried_begin rfl ?_
  intro time middle htime hmiddle hsaved hclock
  have hfailing := hmiddle.failing hfails
  simp only [ensures_saveChanges, ensures_getTradesWhere, ensures_getAllInstruments,
    ensures_toDictionary, ensures_getLatestPrices, ensures_getProducts,
    hmiddle.notRolledBack, hmiddle.begun, hfailing, true_and, implies_true]
  intro now hnow _ hdistinct _
  have hrows : ∀ trade ∈ environment.order
      (middle.current.trades.rows.filter fun trade => !trade.tradeClosed),
      trade ∈ middle.current.trades.rows := fun trade htrade =>
    (List.mem_filter.mp ((environment.order_perm _).mem_iff.mp htrade)).1
  rw [filterMap_find?_of_mem hrows, hmiddle.committed]
  have hcarried : Carried database clock closedTrades
      (expirations environment database time)
      { middle with
        committed := database
        saved := middle.current
        inTransaction := true
        rolledBack := false
        clock := now } :=
    { possible := hmiddle.possible
      closing := hmiddle.closing
      ordered := hmiddle.ordered.mono hnow
      committed := rfl
      current := hmiddle.current
      notified := hmiddle.notified
      begun := rfl
      uncommitted := hmiddle.uncommitted
      notRolledBack := rfl }
  refine processOpenTrades_spec hfails hcarried rfl ?_
  intro closed decisions final hbatch hclosed hfinal hlater
  refine saveChangesOrRollback_spec hfinal.notRolledBack hfinal.begun
    (hfinal.failing hfails) ?_
  have hbatch' : batch (database.market environment) database.books
      (openTrades environment
        (database.after (expirations environment database time))) = some decisions := by
    rw [hmiddle.current, books_expirations] at hbatch
    exact hbatch
  have hdone := hok time decisions closed _ final.clock htime
    (hclock.trans (hnow.trans hlater)) (firstRepeated_nil_iff.mp hdistinct) rfl hbatch'
    hclosed hfinal.possible hfinal.ordered
  rw [← hfinal.current, ← hfinal.notified] at hdone
  simpa only [Session.leave, Session.arrive, hfinal.notRolledBack, hfinal.uncommitted,
    zero_add] using hdone

theorem processLongRunningTransactions_spec {ok : Unit → Session → Prop}
    (hfails : ∀ events, Possible database events → Closing events →
      fails database (closedTrades ++ events.filterMap Event.notified))
    (hok : ∀ (events : List Event) now, Processed environment database clock events →
      Possible database events → Ordered clock (events.flatMap Event.dates) now →
      ok () (Session.leave (database.after events) now
        (closedTrades ++ events.filterMap Event.notified))) :
    Ensures environment processLongRunningTransactions ok fails
      (Session.arrive database clock closedTrades) := by
  refine processLongRunningTransactions_at hfails ?_
  intro time decisions closed events now htime _ _ hevents hbatch hclosed
  exact hok events now ⟨time, decisions, closed, htime, hevents, hbatch, hclosed⟩

end LongTradeService

end EasyTrade.Broker

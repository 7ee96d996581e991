import EasyTrade.Broker.Events
import EasyTrade.Broker.Session

/-!
# What the service methods do to a session

One specification for each method of the services, in continuation form: it
names everything the method can have done when it returns.  When it throws,
nothing but the list of notifications has changed for the outside.
-/

namespace EasyTrade.Broker

open EasyTrade.Program

section Helpers

variable {environment : Environment} {α : Type}
variable {fails : Database → List Trade → Prop} {session : Session}

theorem ensures_notNull {value : Option α} {ok : α → Session → Prop} :
    Ensures environment (notNull value) ok fails session ↔
      (value = none → fails session.committed session.closedTrades) ∧
        ∀ v, value = some v → ok v session := by
  cases value <;> simp [notNull]

theorem ensures_index {dictionary : ℤ → Option α} {key : ℤ} {ok : α → Session → Prop} :
    Ensures environment (index dictionary key) ok fails session ↔
      (dictionary key = none → fails session.committed session.closedTrades) ∧
        ∀ v, dictionary key = some v → ok v session := by
  rw [index]
  cases dictionary key <;> simp

theorem ensures_ofExcept {result : Except BrokerException α} {ok : α → Session → Prop} :
    Ensures environment (ofExcept result) ok fails session ↔
      (∀ error, result = .error error → fails session.committed session.closedTrades) ∧
        ∀ v, result = .ok v → ok v session := by
  cases result <;> simp [ofExcept]

theorem firstRepeated_eq_none_iff {seen keys : List ℤ} :
    firstRepeated seen keys = none ↔ keys.Nodup ∧ ∀ key ∈ keys, key ∉ seen := by
  induction keys generalizing seen with
  | nil => simp [firstRepeated]
  | cons key keys ih =>
      rw [firstRepeated]
      split_ifs with hseen
      · exact iff_of_false nofun fun h => h.2 key List.mem_cons_self hseen
      rw [ih, List.nodup_cons]
      constructor
      · rintro ⟨hnodup, hnew⟩
        refine ⟨⟨fun hkey => hnew key hkey List.mem_cons_self, hnodup⟩, ?_⟩
        intro other hother
        rcases List.mem_cons.mp hother with rfl | hother
        · exact hseen
        · exact fun hmem => hnew other hother (List.mem_cons_of_mem _ hmem)
      · rintro ⟨⟨hfresh, hnodup⟩, hnew⟩
        refine ⟨hnodup, fun other hother hmem => ?_⟩
        rcases List.mem_cons.mp hmem with rfl | hmem
        · exact hfresh hother
        · exact hnew other (List.mem_cons_of_mem _ hother) hmem

/-- `ToDictionary` goes through when no key occurs twice. -/
theorem firstRepeated_nil_iff {keys : List ℤ} : firstRepeated [] keys = none ↔ keys.Nodup := by
  simp [firstRepeated_eq_none_iff]

theorem ensures_toDictionary {key : α → ℤ} {items : List α}
    {ok : (ℤ → Option α) → Session → Prop} :
    Ensures environment (toDictionary key items) ok fails session ↔
      (firstRepeated [] (items.map key) ≠ none →
        fails session.committed session.closedTrades) ∧
        (firstRepeated [] (items.map key) = none →
          ok (fun k => items.find? fun item => key item = k) session) := by
  rw [toDictionary]
  cases firstRepeated [] (items.map key) <;> simp

theorem ensures_getLastPriceByInstrumentId {id : ℤ} {ok : Option Price → Session → Prop} :
    Ensures environment (getLastPriceByInstrumentId id) ok fails session ↔
      session.rolledBack = false ∧ fails session.committed session.closedTrades ∧
        ok (pricesOfResponse (environment.pricesByInstrumentId id 1)).head? session := by
  simp only [getLastPriceByInstrumentId, ensures_bind, ensures_getPricesByInstrumentId,
    ensures_pure]

/-- Loop rule. -/
theorem ensures_forM {ι : Type} {body : ι → Request PUnit} {ok : PUnit → Session → Prop}
    (invariant : List ι → Session → Prop)
    (hbody : ∀ item rest session, invariant (item :: rest) session →
      Ensures environment (body item) (fun _ => invariant rest) fails session)
    (hdone : ∀ session, invariant [] session → ok ⟨⟩ session)
    (items : List ι) (hstart : invariant items session) :
    Ensures environment (forM items body) ok fails session := by
  refine wp_forM invariant (fun item rest session hitem => ?_) hdone items hstart
  refine wp_mono (fun outcome final hfinal => ?_) (hbody item rest session hitem)
  cases outcome <;> exact hfinal

/-- The end of every modifying operation: all changes become visible at once,
or none does. -/
theorem saveChangesOrRollback_spec {ok : Unit → Session → Prop}
    (hopen : session.rolledBack = false) (hbegun : session.inTransaction = true)
    (hfails : fails session.committed session.closedTrades)
    (hok : ok () { session with
      committed := session.current
      saved := session.current
      inTransaction := false
      commits := session.commits + 1 }) :
    Ensures environment saveChangesOrRollback ok fails session := by
  have hrollback : ∀ (error : BrokerException) (middle : Session),
      middle.rolledBack = false → middle.inTransaction = true →
      middle.committed = session.committed →
      middle.closedTrades = session.closedTrades →
      Ensures environment
        (issue .rollbackTransaction >>= fun _ => throw (.db error)) ok fails middle := by
    intro error middle hmiddle hbegun' hcommitted hclosed
    simp only [ensures_bind, ensures_rollbackTransaction, ensures_throw, hmiddle, hbegun',
      hcommitted, hclosed, hfails, and_self]
  rw [Ensures, saveChangesOrRollback, wp_tryCatch, wp_bind, issue, wp_perform]
  refine ⟨⟨hopen, hbegun⟩, fun answer middle hsave => ?_⟩
  rcases hsave with ⟨rfl, rfl⟩ | ⟨_, error, rfl, rfl⟩
  · rw [andThen_ok, issue, wp_perform]
    refine ⟨⟨hopen, hbegun⟩, fun answer final hcommit => ?_⟩
    rcases hcommit with ⟨rfl, rfl⟩ | ⟨_, error, rfl, rfl⟩
    · exact hok
    · exact hrollback error _ hopen hbegun rfl rfl
  · exact hrollback error _ hopen hbegun rfl rfl

end Helpers

namespace TradeServiceBase

variable {environment : Environment}
variable {fails : Database → List Trade → Prop} {session : Session}

theorem collectFee_spec {fee : ℚ} {ok : Unit → Session → Prop}
    (hopen : session.rolledBack = false)
    (hfails : fails session.committed session.closedTrades)
    (hok : ∀ now, ownerId ∈ session.current.balances.keys → session.clock ≤ now →
      ok () { session with
        current := session.current.post ownerId fee .collectFee now
        clock := now }) :
    Ensures environment (collectFee fee) ok fails session := by
  simp only [collectFee, ensures_bind, ensures_getBalanceOfAccount, ensures_notNull,
    ensures_utcNow, ensures_addBalanceHistory, ensures_updateBalance, hopen, hfails,
    true_and, implies_true]
  intro owner howner now hnow
  have hkey : owner.accountId = ownerId := Table.key_of_find? howner
  have hmem : ownerId ∈ session.current.balances.keys := Table.mem_keys_of_find? howner
  refine ⟨hkey ▸ hmem, ?_⟩
  simpa only [post_of_find? howner, hopen] using hok now hmem hnow

theorem updateBalance_spec {balance : Balance} {amount ppt : ℚ}
    {actionType : ActionType} {ok : Unit → Session → Prop}
    (hopen : session.rolledBack = false)
    (hfails : fails session.committed session.closedTrades)
    (hbalance : session.current.balances.find? balance.accountId = some balance)
    (hok : ∀ tradeDate feeDate collectDate, ownerId ∈ session.current.balances.keys →
      session.clock ≤ tradeDate → tradeDate ≤ feeDate → feeDate ≤ collectDate →
      ok () { session with
        current := ((session.current.post balance.accountId
          (incomeOf actionType amount) actionType tradeDate).post balance.accountId
            (-ppt) .transactionFee feeDate).post ownerId ppt .collectFee collectDate
        clock := collectDate }) :
    Ensures environment (updateBalance balance amount ppt actionType) ok fails
      session := by
  simp only [updateBalance, ensures_bind, ensures_utcNow, ensures_addBalanceHistory,
    ensures_updateBalance, hopen, hfails, true_and]
  intro tradeDate htrade feeDate hfee
  refine ⟨Table.mem_keys_of_find? hbalance, collectFee_spec rfl hfails ?_⟩
  intro collectDate howner hcollect
  have hposted : ((session.current.post balance.accountId (incomeOf actionType amount)
      actionType tradeDate).post balance.accountId (-ppt) .transactionFee feeDate) =
      { session.current with
        balances := session.current.balances.set
          { balance with value := balance.value + incomeOf actionType amount - ppt }
        balanceHistories := session.current.balanceHistories ++
          [BalanceHistory.ofAction balance.accountId balance.value
            (incomeOf actionType amount) actionType tradeDate] ++
          [BalanceHistory.ofAction balance.accountId
            (balance.value + incomeOf actionType amount) (-ppt) .transactionFee
            feeDate] } := by
    rw [post_of_find? hbalance, post_of_find? (Table.find?_set_self (by
      exact Table.mem_keys_of_find? hbalance))]
    simp only [Table.set_set, sub_eq_add_neg]
  have howner' : ownerId ∈ session.current.balances.keys := by simpa using howner
  simpa only [hposted, hopen] using
    hok tradeDate feeDate collectDate howner' htrade hfee hcollect

/-- `UpdateOwnedInstrument` of a row that has been read. -/
theorem updateOwnedInstrument_spec (accountId instrumentId id : ℤ)
    {row : OwnedInstrument} {amount : ℚ} {ok : Unit → Session → Prop}
    (hopen : session.rolledBack = false)
    (hfails : fails session.committed session.closedTrades)
    (hsaved : session.saved.ownedInstruments = session.current.ownedInstruments)
    (hrow : session.current.holdingRow accountId instrumentId = some row)
    (hok : ∀ now, session.clock ≤ now →
      ok () { session with
        current := session.current.hold accountId instrumentId amount id now
        clock := now }) :
    Ensures environment (updateOwnedInstrument row amount) ok fails session := by
  simp only [updateOwnedInstrument, ensures_bind, ensures_utcNow,
    ensures_updateOwnedInstrument, hopen, hfails, true_and]
  intro now hnow
  refine ⟨?_, ?_⟩
  · rw [hsaved]
    exact List.mem_map_of_mem (mem_of_holdingRow hrow)
  · simpa only [Database.hold, hrow, hopen] using hok now hnow

/-- Reading a holding of which nothing is unsaved. -/
theorem bind_find?_holdingRow {saved current : Database}
    (hsaved : saved.ownedInstruments = current.ownedInstruments)
    (accountId instrumentId : ℤ) :
    ((saved.holdingRow accountId instrumentId).bind
      fun row => current.ownedInstruments.find? row.id) =
        current.holdingRow accountId instrumentId := by
  have hrows : saved.holdingRow accountId instrumentId =
      current.holdingRow accountId instrumentId := by
    rw [Database.holdingRow, hsaved, Database.holdingRow]
  rw [hrows]
  cases hrow : current.holdingRow accountId instrumentId with
  | none => rfl
  | some row => exact Table.find?_key (mem_of_holdingRow hrow)

theorem updateOwnedInstrumentOf_spec {accountId instrumentId : ℤ} {amount : ℚ}
    {ok : Unit → Session → Prop}
    (hopen : session.rolledBack = false)
    (hfails : fails session.committed session.closedTrades)
    (hsaved : session.saved.ownedInstruments = session.current.ownedInstruments)
    (hok : ∀ id now,
      (session.current.holdingRow accountId instrumentId = none →
        id ∉ session.current.ownedInstruments.keys) → session.clock ≤ now →
      ok () { session with
        current := session.current.hold accountId instrumentId amount id now
        clock := now }) :
    Ensures environment (updateOwnedInstrumentOf accountId instrumentId amount) ok fails
      session := by
  simp only [updateOwnedInstrumentOf, ensures_bind, ensures_getOwnedInstrument,
    bind_find?_holdingRow hsaved, hopen, hfails, true_and]
  cases hrow : session.current.holdingRow accountId instrumentId with
  | none =>
      simp only [ensures_bind, ensures_utcNow, ensures_addOwnedInstrument, hopen, hfails,
        true_and]
      intro now hnow id hid
      simpa only [Database.hold, hrow, hopen] using hok id now (fun _ => hid) hnow
  | some row =>
      refine updateOwnedInstrument_spec accountId instrumentId 0 hopen hfails hsaved hrow
        fun now hnow => ?_
      exact hok 0 now (fun hnone => absurd (hrow.symm.trans hnone) (by simp)) hnow

end TradeServiceBase

namespace BalanceService

variable {environment : Environment} {database : Database} {clock : DateTime}
variable {closedTrades : List Trade} {fails : Database → List Trade → Prop}
variable {accountId : ℤ} {amount : ℚ} {ok : Balance → Session → Prop}

theorem deposit_spec (hfails : fails database closedTrades)
    (hok : ∀ (event : Event) (now : DateTime) balance, event = .deposited accountId amount now →
      Ordered clock event.dates now → event.Allowed database →
      ok balance (Session.leave (event.apply database) now closedTrades)) :
    Ensures environment (deposit accountId amount) ok fails
      (Session.arrive database clock closedTrades) := by
  simp only [deposit, modifyBalance, Session.arrive, ensures_bind,
    ensures_getBalanceOfAccount, hfails, true_and]
  cases hbalance : database.balances.find? accountId with
  | none => exact hfails
  | some balance =>
      have hkey : balance.accountId = accountId := Table.key_of_find? hbalance
      have hmem := Table.mem_keys_of_find? hbalance
      simp only [ensures_bind, ensures_utcNow, ensures_ofExcept, ensures_beginTransaction,
        ensures_updateBalance, ensures_addBalanceHistory, ensures_pure, Balance.deposit,
        hfails, true_and, implies_true]
      intro now hnow balance' haccepted
      split_ifs at haccepted with hnegative
      cases haccepted
      refine ⟨hkey ▸ hmem, saveChangesOrRollback_spec rfl rfl hfails ?_⟩
      have hdone := hok _ now { balance with value := balance.value + amount } rfl
        ⟨hnow, le_rfl⟩ ⟨not_lt.mp hnegative, hmem⟩
      simpa only [Event.apply, post_of_find? hbalance, Session.leave, Session.arrive, reduceCtorEq,
        if_false] using hdone

theorem withdraw_spec (hfails : fails database closedTrades)
    (hok : ∀ (event : Event) (now : DateTime) balance, event = .withdrawn accountId amount now →
      Ordered clock event.dates now → event.Allowed database →
      ok balance (Session.leave (event.apply database) now closedTrades)) :
    Ensures environment (withdraw accountId amount) ok fails
      (Session.arrive database clock closedTrades) := by
  simp only [withdraw, modifyBalance, Session.arrive, ensures_bind,
    ensures_getBalanceOfAccount, hfails, true_and]
  cases hbalance : database.balances.find? accountId with
  | none => exact hfails
  | some balance =>
      have hkey : balance.accountId = accountId := Table.key_of_find? hbalance
      have hmem := Table.mem_keys_of_find? hbalance
      simp only [ensures_bind, ensures_utcNow, ensures_ofExcept, ensures_beginTransaction,
        ensures_updateBalance, ensures_addBalanceHistory, ensures_pure, Balance.withdraw,
        hfails, true_and, implies_true]
      intro now hnow balance' haccepted
      split_ifs at haccepted with hnegative hmissing
      cases haccepted
      refine ⟨hkey ▸ hmem, saveChangesOrRollback_spec rfl rfl hfails ?_⟩
      have hvalue : database.balanceOf accountId = some balance.value := by
        rw [Database.balanceOf, hbalance, Option.map_some]
      have hdone := hok _ now { balance with value := balance.value - amount } rfl
        ⟨hnow, le_rfl⟩ ⟨not_lt.mp hnegative, balance.value, hvalue, not_lt.mp hmissing⟩
      simpa only [Event.apply, post_of_find? hbalance, ← sub_eq_add_neg, Session.leave,
        Session.arrive, if_true] using hdone

end BalanceService

namespace TradeService

open TradeServiceBase

variable {environment : Environment} {database : Database} {clock : DateTime}
variable {closedTrades : List Trade} {fails : Database → List Trade → Prop}
variable {accountId instrumentId : ℤ} {amount : ℚ} {ok : Trade → Session → Prop}

/-- The trade that a quick buy or a quick sell carries out. -/
def Carries (environment : Environment) (accountId instrumentId : ℤ) (amount : ℚ)
    (direction : ActionType) (event : Event) : Prop :=
  ∃ (price : Price) (id : ℤ) (opened closed : DateTime) (settlement : Settlement),
    (pricesOfResponse (environment.pricesByInstrumentId instrumentId 1)).head? =
      some price ∧
    settlement.direction = direction ∧
    event = .executed { Trade.quickTrade accountId instrumentId direction
      price.openPrice amount opened closed with id := id } settlement

theorem Carries.notified {direction : ActionType} {event : Event}
    (hcarries : Carries environment accountId instrumentId amount direction event) :
    event.notified = none := by
  obtain ⟨price, id, opened, closed, settlement, -, -, rfl⟩ := hcarries
  rfl

theorem pptOf_eq {instrument : Instrument} {product : Product}
    (hinstrument : database.instruments.find? instrumentId = some instrument)
    (hproduct : database.products.find? instrument.productId = some product) :
    database.pptOf instrumentId = some product.ppt := by
  simp [Database.pptOf, hinstrument, hproduct]

theorem balanceOf_eq {balance : Balance}
    (hbalance : database.balances.find? accountId = some balance) :
    database.balanceOf accountId = some balance.value := by
  rw [Database.balanceOf, hbalance, Option.map_some]

theorem checkFraud_spec {query : FraudQuery} {ok : ℚ → Session → Prop}
    {session : Session} (hopen : session.rolledBack = false)
    (hfails : fails session.committed session.closedTrades)
    (hok : ∀ fraudScore, ok fraudScore session) :
    Ensures environment (checkFraud environment query) ok fails session := by
  rw [checkFraud]
  split_ifs
  · exact ensures_scoreTradeAsync.mpr ⟨hopen, hfails, hok _⟩
  · exact hok 0

theorem buyAssets_spec (hfails : fails database closedTrades)
    (hok : ∀ (event : Event) (now : DateTime) trade,
      Carries environment accountId instrumentId amount .buy event →
      Ordered clock event.dates now → event.Allowed database →
      ok trade (Session.leave (event.apply database) now closedTrades)) :
    Ensures environment (buyAssets environment accountId instrumentId amount) ok fails
      (Session.arrive database clock closedTrades) := by
  rw [buyAssets, ensures_bind, validateInput]
  split_ifs with hnegative
  · exact hfails
  simp only [Session.arrive, ensures_pure, ensures_bind, ensures_getBalanceOfAccount,
    hfails, true_and]
  cases hbalance : database.balances.find? accountId with
  | none => exact hfails
  | some balance =>
  simp only [ensures_bind, ensures_getInstrument, hfails, true_and]
  cases hinstrument : database.instruments.find? instrumentId with
  | none => exact hfails
  | some instrument =>
  simp only [ensures_bind, ensures_getLastPriceByInstrumentId, ensures_notNull,
    ensures_getProduct, hfails, true_and, implies_true]
  intro price hprice product hproduct
  split_ifs with hmissing
  · exact hfails
  simp only [ensures_bind, ensures_pure, ensures_beginTransaction, ensures_utcNow,
    ensures_addTrade]
  refine checkFraud_spec rfl hfails fun _ => ?_
  simp only [hfails, true_and]
  intro opened hopened closed hclosed id hid
  have hkey : balance.accountId = accountId := Table.key_of_find? hbalance
  refine updateBalance_spec rfl hfails (hkey ▸ hbalance) ?_
  intro tradeDate feeDate collectDate howner htrade hfee hcollect
  rw [hkey]
  refine updateOwnedInstrumentOf_spec rfl hfails (by simp) ?_
  intro ownedInstrumentId holdingDate hfresh hholding
  simp only [holdingRow_post, post_ownedInstruments] at hfresh
  refine saveChangesOrRollback_spec rfl rfl hfails ?_
  let settlement : Settlement :=
    ⟨.buy, product.ppt, tradeDate, feeDate, collectDate, holdingDate, ownedInstrumentId⟩
  let trade : Trade :=
    { Trade.quickTrade accountId instrumentId .buy price.openPrice amount opened closed with
      id := id }
  have hsettleable : Settleable database trade settlement :=
    { trader := Table.mem_keys_of_find? hbalance
      owner := howner
      fee := pptOf_eq hinstrument hproduct
      direction := equalsIgnoreCase_stored .buy
      affordable := fun _ => ⟨balance.value, balanceOf_eq hbalance, not_lt.mp hmissing⟩
      available := by rintro (h | h) <;> cases h
      fresh := hfresh }
  have hdone := hok (.executed trade settlement) holdingDate
    (Trade.quickTrade accountId instrumentId .buy price.openPrice amount opened closed)
    ⟨price, id, opened, closed, settlement, hprice, rfl, rfl⟩
    ⟨hopened, hclosed.trans htrade, hfee, hcollect, hholding, le_rfl⟩
    ⟨hid, not_lt.mp hnegative, rfl, rfl, Or.inl rfl, hsettleable⟩
  rw [apply_executed] at hdone
  exact hdone

theorem sellAssets_spec (hfails : fails database closedTrades)
    (hok : ∀ (event : Event) (now : DateTime) trade,
      Carries environment accountId instrumentId amount .sell event →
      Ordered clock event.dates now → event.Allowed database →
      ok trade (Session.leave (event.apply database) now closedTrades)) :
    Ensures environment (sellAssets environment accountId instrumentId amount) ok fails
      (Session.arrive database clock closedTrades) := by
  rw [sellAssets, ensures_bind, validateInput]
  split_ifs with hnegative
  · exact hfails
  simp only [Session.arrive, ensures_pure, ensures_bind, ensures_getBalanceOfAccount,
    hfails, true_and]
  cases hbalance : database.balances.find? accountId with
  | none => exact hfails
  | some balance =>
  simp only [ensures_bind, ensures_getInstrument, hfails, true_and]
  cases hinstrument : database.instruments.find? instrumentId with
  | none => exact hfails
  | some instrument =>
  simp only [ensures_bind, ensures_getLastPriceByInstrumentId, ensures_notNull,
    ensures_getProduct, ensures_getOwnedInstrument, hfails, true_and, implies_true]
  intro price hprice
  rw [bind_find?_holdingRow rfl]
  cases hrow : database.holdingRow accountId instrumentId with
  | none => exact hfails
  | some row =>
  dsimp only
  split_ifs with hmissing
  · exact hfails
  simp only [ensures_bind, ensures_pure, ensures_beginTransaction, ensures_utcNow,
    ensures_addTrade, ensures_notNull]
  refine checkFraud_spec rfl hfails fun _ => ?_
  simp only [hfails, true_and, implies_true]
  intro opened hopened closed hclosed id hid product hproduct
  have hkey : balance.accountId = accountId := Table.key_of_find? hbalance
  refine updateBalance_spec rfl hfails (hkey ▸ hbalance) ?_
  intro tradeDate feeDate collectDate howner htrade hfee hcollect
  rw [hkey, mul_comm price.openPrice amount]
  refine updateOwnedInstrument_spec accountId instrumentId 0 rfl hfails (by simp) ?_ ?_
  · simp only [holdingRow_post]
    exact hrow
  intro holdingDate hholding
  refine saveChangesOrRollback_spec rfl rfl hfails ?_
  let settlement : Settlement :=
    ⟨.sell, product.ppt, tradeDate, feeDate, collectDate, holdingDate, 0⟩
  let trade : Trade :=
    { Trade.quickTrade accountId instrumentId .sell price.openPrice amount opened closed with
      id := id }
  have hheld : database.holdingOf accountId instrumentId = some row.quantity := by
    rw [Database.holdingOf, hrow, Option.map_some]
  have hsettleable : Settleable database trade settlement :=
    { trader := Table.mem_keys_of_find? hbalance
      owner := howner
      fee := pptOf_eq hinstrument hproduct
      direction := equalsIgnoreCase_stored .sell
      affordable := by rintro (h | h) <;> cases h
      available := fun _ => ⟨row.quantity, hheld, not_lt.mp hmissing⟩
      fresh := fun hnone => absurd (hrow.symm.trans hnone) (by simp) }
  have hdone := hok (.executed trade settlement) holdingDate
    (Trade.quickTrade accountId instrumentId .sell price.openPrice amount opened closed)
    ⟨price, id, opened, closed, settlement, hprice, rfl, rfl⟩
    ⟨hopened, hclosed.trans htrade, hfee, hcollect, hholding, le_rfl⟩
    ⟨hid, not_lt.mp hnegative, rfl, rfl, Or.inr rfl, hsettleable⟩
  rw [apply_executed] at hdone
  exact hdone

end TradeService

namespace LongTradeService

variable {environment : Environment} {database : Database} {clock : DateTime}
variable {closedTrades : List Trade} {fails : Database → List Trade → Prop}
variable {accountId instrumentId : ℤ} {amount price : ℚ} {duration : ℤ}
variable {type : ActionType} {ok : Trade → Session → Prop}

/-- The open trade that a long buy or a long sell leaves behind. -/
def Registers (accountId instrumentId : ℤ) (amount price : ℚ) (type : ActionType)
    (event : Event) : Prop :=
  ∃ (id : ℤ) (opened expires : DateTime), event = .registered
    { Trade.longTrade accountId instrumentId type price amount opened expires with id := id }

theorem Registers.notified {event : Event}
    (hregisters : Registers accountId instrumentId amount price type event) :
    event.notified = none := by
  obtain ⟨id, opened, expires, rfl⟩ := hregisters
  rfl

/-- The expiry is reckoned from a reading of the clock of its own. -/
theorem expiry_spec {ok : DateTime → Session → Prop} {session : Session}
    (hopen : session.rolledBack = false)
    (hfails : fails session.committed session.closedTrades)
    (hok : ∀ now expires, session.clock ≤ now → now.addHours duration = some expires →
      ok expires { session with clock := now }) :
    Ensures environment (expiry duration) ok fails session := by
  simp only [expiry, ensures_bind, ensures_utcNow, hopen, true_and]
  intro now hnow
  cases hexpires : now.addHours duration with
  | none => exact hfails
  | some expires => simpa only [ensures_pure, hopen] using hok now expires hnow hexpires

/-- The open trade with its id, its opening time and its expiry. -/
theorem createLongTransaction_spec_at (hfails : fails database closedTrades)
    (hok : ∀ (id : ℤ) (opened now expires : DateTime) trade,
      accountId ∈ database.balances.keys → id ∉ database.trades.keys → 0 ≤ amount →
      clock ≤ opened → opened ≤ now → now.addHours duration = some expires →
      ok trade (Session.leave ((Event.registered
        { Trade.longTrade accountId instrumentId type price amount opened expires with
          id := id }).apply database) now closedTrades)) :
    Ensures environment
      (createLongTransaction accountId instrumentId amount duration price type) ok fails
      (Session.arrive database clock closedTrades) := by
  rw [createLongTransaction, ensures_bind, validateInput]
  split_ifs with hamount hprice hduration
  · exact hfails
  · exact hfails
  · exact hfails
  simp only [Session.arrive, ensures_pure, ensures_bind, ensures_getBalanceOfAccount,
    hfails, true_and]
  cases hbalance : database.balances.find? accountId with
  | none => exact hfails
  | some balance =>
  have haccount := Table.mem_keys_of_find? hbalance
  simp only [ensures_bind, ensures_getInstrument, hfails, true_and]
  cases database.instruments.find? instrumentId with
  | none => exact hfails
  | some instrument =>
  simp only [ensures_bind, ensures_beginTransaction, ensures_utcNow, ensures_addTrade,
    ensures_pure, hfails, true_and]
  intro opened hopened
  refine expiry_spec rfl hfails fun now expires hnow hexpires => ?_
  refine ⟨rfl, hfails, fun id hid => saveChangesOrRollback_spec rfl rfl hfails ?_⟩
  exact hok id opened now expires _ haccount hid (not_lt.mp hamount) hopened hnow hexpires

theorem createLongTransaction_spec (hfails : fails database closedTrades)
    (hok : ∀ (event : Event) (now : DateTime) trade, accountId ∈ database.balances.keys →
      Registers accountId instrumentId amount price type event →
      Ordered clock event.dates now → event.Allowed database →
      ok trade (Session.leave (event.apply database) now closedTrades)) :
    Ensures environment
      (createLongTransaction accountId instrumentId amount duration price type) ok fails
      (Session.arrive database clock closedTrades) := by
  refine createLongTransaction_spec_at hfails ?_
  intro id opened now expires trade haccount hid hamount hopened hnow _
  exact hok _ now trade haccount ⟨id, opened, expires, rfl⟩ ⟨hopened, hnow⟩
    ⟨hid, hamount, rfl, rfl⟩

end LongTradeService

end EasyTrade.Broker

import EasyTrade.Broker.ProcessingRun
import EasyTrade.Broker.Smooth

/-!
# Requests that succeed when their commands do

Once its commands do their work, a program can still throw by itself: on a missing
balance row, on a missing key of a dictionary, on a key that occurs twice.  This file
shows of the run over the open trades that it throws for no other reason.
-/

namespace EasyTrade.Broker

open EasyTrade.Program

/-- From any session with the given accounts, the program returns when its commands do
their work, and the accounts stay the same. -/
def Succeeds (environment : Environment) (accounts : List ℤ) {α : Type}
    (program : Request α) : Prop :=
  ∀ session : Session, session.current.balances.keys = accounts →
    wp (Session.effect environment) (fun _ _ => True) program
      (fun outcome final => (∃ value, outcome = .ok value) ∧
        final.current.balances.keys = accounts) session

section Rules

variable {environment : Environment} {accounts : List ℤ} {α β : Type}

theorem succeeds_pure (value : α) : Succeeds environment accounts (pure value) :=
  fun _ hkeys => (wp_pure value).mpr ⟨⟨value, rfl⟩, hkeys⟩

theorem succeeds_bind {program : Request α} {next : α → Request β}
    (hprogram : Succeeds environment accounts program)
    (hnext : ∀ value, Succeeds environment accounts (next value)) :
    Succeeds environment accounts (program >>= next) := by
  intro session hkeys
  refine (wp_bind _ _).mpr (wp_mono ?_ (hprogram session hkeys))
  rintro outcome final ⟨⟨value, rfl⟩, hfinal⟩
  exact hnext value final hfinal

theorem succeeds_forM {ι : Type} {body : ι → Request PUnit} {items : List ι}
    (hbody : ∀ item ∈ items, Succeeds environment accounts (body item)) :
    Succeeds environment accounts (forM items body) := by
  induction items with
  | nil => exact succeeds_pure PUnit.unit
  | cons item items ih =>
    rw [List.forM_cons]
    refine succeeds_bind (hbody item List.mem_cons_self) fun _ => ?_
    exact ih fun other hother => hbody other (List.mem_cons_of_mem _ hother)

/-- A command that does its work answers, and no row of the balances goes or comes. -/
theorem effect_answers {command : Command} {session session' : Session}
    {answer : Except BrokerException command.Answer}
    (heffect : Session.effect environment command session answer session') :
    (∃ value, answer = .ok value) ∧
      session'.current.balances.keys = session.current.balances.keys := by
  cases command with
  | updateBalance balance =>
    obtain ⟨rfl, rfl⟩ := heffect
    exact ⟨⟨(), rfl⟩, Table.keys_set _ _⟩
  | addOwnedInstrument | addTrade =>
    obtain ⟨id, -, rfl, rfl⟩ := heffect
    exact ⟨⟨(), rfl⟩, rfl⟩
  | getTradesWhere | utcNow =>
    obtain ⟨time, -, rfl, rfl⟩ := heffect
    exact ⟨⟨_, rfl⟩, rfl⟩
  | _ =>
    obtain ⟨rfl, rfl⟩ := heffect
    exact ⟨⟨_, rfl⟩, rfl⟩

theorem succeeds_issue (command : Command) : Succeeds environment accounts (issue command) := by
  intro session hkeys
  rw [issue, wp_perform]
  refine ⟨trivial, fun answer session' heffect => ?_⟩
  obtain ⟨hanswer, hsame⟩ := effect_answers heffect
  exact ⟨hanswer, hsame.trans hkeys⟩

theorem wp_issue_bind {command : Command} {next : command.Answer → Request β}
    {post : Except BrokerException β → Session → Prop} {session : Session}
    (hnext : ∀ answer session', Session.effect environment command session answer session' →
      andThen (fun value => wp (Session.effect environment) (fun _ _ => True) (next value) post)
        post answer session') :
    wp (Session.effect environment) (fun _ _ => True) (issue command >>= next) post session := by
  rw [wp_bind, issue, wp_perform]
  exact ⟨trivial, hnext⟩

/-- The balance of an account that has one. -/
theorem succeeds_balanceOf {accountId : ℤ} (haccount : accountId ∈ accounts)
    {next : Balance → Request β} (hnext : ∀ balance, Succeeds environment accounts (next balance)) :
    Succeeds environment accounts
      (issue (.getBalanceOfAccount accountId) >>= fun found => notNull found >>= next) := by
  intro session hkeys
  refine wp_issue_bind ?_
  rintro answer session' ⟨rfl, rfl⟩
  rw [← hkeys] at haccount
  obtain ⟨balance, hbalance⟩ := find?_balances_of_mem haccount
  rw [andThen_ok, hbalance]
  exact hnext balance session' hkeys

/-- A key that is in the dictionary. -/
theorem succeeds_index {dictionary : ℤ → Option α} {key : ℤ} {value : α}
    {next : α → Request β} (hvalue : dictionary key = some value)
    (hnext : Succeeds environment accounts (next value)) :
    Succeeds environment accounts (index dictionary key >>= next) := by
  rw [index, hvalue]
  exact hnext

/-- Keys that are pairwise different. -/
theorem toDictionary_of_nodup {key : α → ℤ} {items : List α} (hnodup : (items.map key).Nodup) :
    toDictionary key items = pure fun k => items.find? fun item => key item = k := by
  rw [toDictionary, firstRepeated_nil_iff.mpr hnodup]

/-- A `catch` that is not reached. -/
theorem succeeds_tryCatch {program : Request α} {handler : BrokerException → Request α}
    (hprogram : Succeeds environment accounts program) :
    Succeeds environment accounts (MonadExcept.tryCatch program handler) := by
  intro session hkeys
  refine (wp_tryCatch _ _).mpr (wp_mono ?_ (hprogram session hkeys))
  rintro outcome final ⟨⟨value, rfl⟩, hfinal⟩
  exact ⟨⟨value, rfl⟩, hfinal⟩

end Rules

/-! ## The parts of a run -/

/-- A trade whose instrument has a price and a product. -/
def Market.Lists (market : Market) (trade : Trade) : Prop :=
  ∃ instrument price product, market.instruments trade.instrumentId = some instrument ∧
    market.prices instrument.id = some price ∧
      market.products instrument.productId = some product

section Parts

variable {environment : Environment} {accounts : List ℤ}

theorem succeeds_saveChangesOrRollback : Succeeds environment accounts saveChangesOrRollback :=
  succeeds_tryCatch (succeeds_bind (succeeds_issue _) fun _ => succeeds_issue _)

theorem succeeds_closeTrade (trade : Trade) (status : String) (happened : Bool) :
    Succeeds environment accounts (LongTradeService.closeTrade trade status happened) :=
  succeeds_bind (succeeds_issue _) fun _ => succeeds_issue _

theorem succeeds_closeOverdueTrades :
    Succeeds environment accounts LongTradeService.closeOverdueTrades := by
  refine succeeds_bind (succeeds_issue _) fun trades => succeeds_forM fun trade _ => ?_
  exact succeeds_closeTrade trade _ _

theorem succeeds_updateOwnedInstrument (ownedInstrument : OwnedInstrument) (amount : ℚ) :
    Succeeds environment accounts
      (TradeServiceBase.updateOwnedInstrument ownedInstrument amount) :=
  succeeds_bind (succeeds_issue _) fun _ => succeeds_issue _

theorem succeeds_updateOwnedInstrumentOf (accountId instrumentId : ℤ) (amount : ℚ) :
    Succeeds environment accounts
      (TradeServiceBase.updateOwnedInstrumentOf accountId instrumentId amount) := by
  refine succeeds_bind (succeeds_issue _) fun found => ?_
  cases found with
  | none => exact succeeds_bind (succeeds_issue _) fun _ => succeeds_issue _
  | some ownedInstrument => exact succeeds_updateOwnedInstrument ownedInstrument amount

variable (howner : ownerId ∈ accounts)

include howner

theorem succeeds_updateBalance (balance : Balance) (amount ppt : ℚ) (actionType : ActionType) :
    Succeeds environment accounts
      (TradeServiceBase.updateBalance balance amount ppt actionType) := by
  refine succeeds_bind (succeeds_issue _) fun tradeDate => ?_
  refine succeeds_bind (succeeds_issue _) fun _ => ?_
  refine succeeds_bind (succeeds_issue _) fun feeDate => ?_
  refine succeeds_bind (succeeds_issue _) fun _ => ?_
  refine succeeds_bind (succeeds_issue _) fun _ => ?_
  refine succeeds_balanceOf howner fun ownerBalance => ?_
  refine succeeds_bind (succeeds_issue _) fun collectDate => ?_
  exact succeeds_bind (succeeds_issue _) fun _ => succeeds_issue _

variable {trade : Trade} (haccount : trade.accountId ∈ accounts)

include haccount

theorem succeeds_processLongBuy (instrument : Instrument) (price : Price) (product : Product) :
    Succeeds environment accounts
      (LongTradeService.processLongBuy trade instrument price product) := by
  unfold LongTradeService.processLongBuy
  split_ifs with hlow
  · exact succeeds_pure ()
  refine succeeds_balanceOf haccount fun balance => ?_
  dsimp only
  split_ifs with hmissing
  · exact succeeds_closeTrade trade _ _
  · refine succeeds_bind (succeeds_updateBalance howner _ _ _ _) fun _ => ?_
    refine succeeds_bind (succeeds_updateOwnedInstrumentOf _ _ _) fun _ => ?_
    exact succeeds_closeTrade trade _ _

theorem succeeds_processLongSell (instrument : Instrument) (price : Price)
    (product : Product) :
    Succeeds environment accounts
      (LongTradeService.processLongSell trade instrument price product) := by
  unfold LongTradeService.processLongSell
  split_ifs with hhigh
  · exact succeeds_pure ()
  refine succeeds_bind (succeeds_issue _) fun found => ?_
  cases found with
  | none => exact succeeds_closeTrade trade _ _
  | some ownedInstrument =>
    dsimp only
    split_ifs with hmissing
    · exact succeeds_closeTrade trade _ _
    · refine succeeds_balanceOf haccount fun balance => ?_
      refine succeeds_bind (succeeds_updateBalance howner _ _ _ _) fun _ => ?_
      refine succeeds_bind (succeeds_updateOwnedInstrument _ _) fun _ => ?_
      exact succeeds_closeTrade trade _ _

/-- A trade that can be looked up has its turn, whatever comes of it. -/
theorem succeeds_processOpenTrade {market : Market} (hlisted : market.Lists trade) :
    Succeeds environment accounts (LongTradeService.processOpenTrade market.instruments
      market.prices market.products trade) := by
  obtain ⟨instrument, price, product, hinstrument, hprice, hproduct⟩ := hlisted
  unfold LongTradeService.processOpenTrade
  refine succeeds_index hinstrument (succeeds_index hprice (succeeds_index hproduct ?_))
  refine succeeds_bind ?_ fun _ => succeeds_issue _
  unfold LongTradeService.processByDirection
  split_ifs with hbuy hsell
  · exact succeeds_processLongBuy howner haccount instrument price product
  · exact succeeds_processLongSell howner haccount instrument price product
  · exact succeeds_closeTrade trade _ _

omit haccount in
theorem succeeds_openTrades {market : Market} {trades : List Trade}
    (htrades : ∀ trade ∈ trades, trade.accountId ∈ accounts ∧ market.Lists trade) :
    Succeeds environment accounts (do
      forM trades (LongTradeService.processOpenTrade market.instruments market.prices
        market.products)
      saveChangesOrRollback) := by
  refine succeeds_bind (succeeds_forM fun trade htrade => ?_) fun _ =>
    succeeds_saveChangesOrRollback
  obtain ⟨haccount, hlisted⟩ := htrades trade htrade
  exact succeeds_processOpenTrade howner haccount hlisted

end Parts

/-! ## Accounts with a balance -/

/-- The owner's account can take fees, and every open trade is on an account that can pay
and be paid. -/
structure Funded (database : Database) : Prop where
  owner : ownerId ∈ database.balances.keys
  traders : ∀ trade ∈ database.trades.rows, trade.tradeClosed = false →
    trade.accountId ∈ database.balances.keys

section Funded

variable {environment : Environment} {database : Database} {event : Event}

/-- Only a registration opens a trade. -/
theorem isOpen_before {trade : Trade} (hallowed : event.Allowed database)
    (hmem : trade ∈ (event.apply database).trades.rows) (hopen : trade.tradeClosed = false) :
    trade ∈ database.trades.rows ∨ event = .registered trade := by
  have hset : ∀ closed : Trade, closed.tradeClosed = true →
      trade ∈ (database.trades.set closed).rows → trade ∈ database.trades.rows := by
    intro closed hclosed hmem
    rcases Table.mem_rows_set.mp hmem with ⟨hrow, -⟩ | ⟨rfl, -⟩
    · exact hrow
    · rw [hclosed] at hopen
      cases hopen
  have hinsert : ∀ row : Trade, row.id ∉ database.trades.keys →
      trade ∈ (database.trades.insert row).rows → trade ∈ database.trades.rows ∨ trade = row := by
    intro row hfresh hmem
    rw [Table.rows_insert hfresh, List.mem_append, List.mem_singleton] at hmem
    exact hmem
  cases event with
  | deposited | withdrawn =>
    simp only [Event.apply, post_trades] at hmem
    exact Or.inl hmem
  | registered row =>
    rcases hinsert row hallowed.1 hmem with hrow | rfl
    · exact Or.inl hrow
    · exact Or.inr rfl
  | executed row settlement =>
    simp only [Event.apply, settle_trades] at hmem
    rcases hinsert row hallowed.1 hmem with hrow | rfl
    · exact Or.inl hrow
    · exact absurd (hallowed.2.2.1.symm.trans hopen) Bool.noConfusion
  | filled row settlement =>
    simp only [Event.apply, settle_trades] at hmem
    exact Or.inl (hset _ rfl hmem)
  | rejected row status => exact Or.inl (hset _ rfl hmem)

theorem Funded.apply (hfunded : Funded database) (hallowed : event.Allowed database)
    (hregistered : ∀ trade, event = .registered trade →
      trade.accountId ∈ database.balances.keys) : Funded (event.apply database) where
  owner := apply_keys.symm ▸ hfunded.owner
  traders trade hmem hopen := by
    rw [apply_keys]
    rcases isOpen_before hallowed hmem hopen with hrow | hnew
    · exact hfunded.traders trade hrow hopen
    · exact hregistered trade hnew

theorem Funded.after {events : List Event} (hfunded : Funded database)
    (hpossible : Possible database events)
    (hregistered : ∀ trade, .registered trade ∉ events) : Funded (database.after events) := by
  induction events generalizing database with
  | nil => exact hfunded
  | cons event events ih =>
    have hfirst : Funded (event.apply database) := hfunded.apply hpossible.1 fun trade hevent =>
      absurd (hevent ▸ List.mem_cons_self) (hregistered trade)
    exact ih hfirst hpossible.2 fun trade hmem =>
      hregistered trade (List.mem_cons_of_mem _ hmem)

/-- A long trade is created on an account with a balance. -/
theorem funded_createLongTransaction {accountId instrumentId : ℤ} {amount price : ℚ}
    {duration : ℤ} {type : ActionType} {clock : DateTime} {closedTrades : List Trade}
    (hfunded : Funded database) :
    Ensures environment
      (LongTradeService.createLongTransaction accountId instrumentId amount duration price type)
      (fun _ final => Funded final.committed) (fun committed _ => Funded committed)
      (Session.arrive database clock closedTrades) := by
  refine LongTradeService.createLongTransaction_spec hfunded ?_
  rintro event now trade haccount ⟨id, opened, expires, rfl⟩ - hallowed
  refine hfunded.apply hallowed fun registered heq => ?_
  cases heq
  exact haccount

/-- In every run the accounts of open trades keep their balance rows. -/
theorem Funded.serves {operation : Operation} {shared shared' : Shared}
    {outcome : Except BrokerException Unit} (hfunded : Funded shared.database)
    (hserves : Serves environment operation shared outcome shared') :
    Funded shared'.database := by
  have hlong : ∀ {accountId instrumentId : ℤ} {amount price : ℚ} {duration : ℤ}
      {type : ActionType}, Serves environment operation shared outcome shared' →
      operation.request environment = (do
        let _ ← LongTradeService.createLongTransaction accountId instrumentId amount duration
          price type) → Funded shared'.database := by
    intro accountId instrumentId amount price duration type hserves hrequest
    obtain ⟨context, hexec⟩ := hserves
    have hensures : Ensures environment (operation.request environment)
        (fun _ final => Funded final.committed) (fun committed _ => Funded committed)
        (Session.arrive shared.database shared.clock shared.closedTrades) := by
      rw [hrequest, ensures_bind]
      exact funded_createLongTransaction hfunded
    obtain ⟨session, hrelated, hfinal⟩ := hensures.sound hexec
    have hcommitted : Funded session.committed := by
      cases outcome with
      | ok value => exact hfinal
      | error error => exact hfinal
    exact hrelated.committed ▸ hcommitted
  cases outcome with
  | error error => exact (serves_error hserves).1 ▸ hfunded
  | ok value =>
    have hevents : (∀ events, operation.Effects environment shared.database shared.clock events →
        ∀ trade, .registered trade ∉ events) → Funded shared'.database := by
      intro hnone
      obtain ⟨events, heffects, hpossible, hdatabase, -⟩ := serves_ok hserves
      rw [hdatabase]
      exact hfunded.after hpossible (hnone events heffects)
    cases operation with
    | longBuy | longSell => exact hlong hserves rfl
    | deposit | withdraw =>
      refine hevents fun events heffects trade hmem => ?_
      obtain ⟨date, rfl⟩ := heffects
      cases List.mem_singleton.mp hmem
    | quickBuy | quickSell =>
      refine hevents fun events heffects trade hmem => ?_
      obtain ⟨event, rfl, price, id, opened, closed, settlement, -, -, rfl⟩ := heffects
      cases List.mem_singleton.mp hmem
    | processLongRunningTransactions =>
      refine hevents fun events heffects trade hmem => ?_
      cases Processed.closing heffects _ hmem

theorem Funded.runs {start final : Shared} {requests : List Served}
    (hfunded : Funded start.database) (hruns : Runs start requests final) :
    Funded final.database := by
  induction hruns with
  | idle => exact hfunded
  | serve _ hserves ih => exact ih.serves hserves

end Funded

/-! ## The run -/

section Run

variable {environment : Environment} {database : Database} {clock : DateTime}
  {closedTrades : List Trade}

/-- Nothing but the price list, or a trade that it does not cover, breaks off a run. -/
theorem processLongRunningTransactions_returns (hfunded : Funded database)
    (hdistinct : ((pricesOfResponse environment.latestPrices).map Price.instrumentId).Nodup)
    (hlisted : ∀ trade ∈ database.trades.rows, trade.tradeClosed = false →
      trade.overdue clock = false → (database.market environment).Lists trade) :
    wp (Session.effect environment) (fun _ _ => True)
      LongTradeService.processLongRunningTransactions
      (fun outcome _ => ∃ value, outcome = .ok value)
      (Session.arrive database clock closedTrades) := by
  have hexpired : Ensures environment LongTradeService.closeOverdueTrades
      (fun _ final => ∃ time, clock ≤ time ∧ final.committed = database ∧
        final.current = database.after (expirations environment database time) ∧
          Possible database (expirations environment database time)) (fun _ _ => True)
      { Session.arrive database clock closedTrades with inTransaction := true } := by
    refine LongTradeService.closeOverdueTrades_spec (fun _ _ _ => trivial)
      LongTradeService.carried_begin rfl ?_
    intro time final htime hcarried _ _
    exact ⟨time, htime, hcarried.committed, hcarried.current, hcarried.possible⟩
  have hsucceeds : Succeeds environment database.balances.keys
      LongTradeService.closeOverdueTrades := succeeds_closeOverdueTrades
  have hreturned := wp_conj (fun _ _ _ _ => trivial)
    (wp_anti (fun _ _ _ _ => Or.inl) hexpired)
    (hsucceeds { Session.arrive database clock closedTrades with inTransaction := true } rfl)
  rw [LongTradeService.processLongRunningTransactions]
  refine wp_issue_bind ?_
  rintro _ begun ⟨rfl, rfl⟩
  refine (wp_bind _ _).mpr (wp_mono ?_ hreturned)
  rintro outcome expired ⟨hfinal, ⟨value, rfl⟩, hkeys⟩
  obtain ⟨time, htime, hcommitted, hcurrent, hpossible⟩ := hfinal
  refine wp_issue_bind ?_
  rintro _ saved ⟨rfl, rfl⟩
  refine wp_issue_bind ?_
  rintro _ opened ⟨now, hnow, rfl, rfl⟩
  have hopen : (environment.order (expired.current.trades.rows.filter fun trade =>
      !trade.tradeClosed)).filterMap (fun row => expired.current.trades.find? row.id) =
        openTrades environment (database.after (expirations environment database time)) := by
    rw [filterMap_find?_of_mem fun trade htrade =>
      (List.mem_filter.mp ((environment.order_perm _).mem_iff.mp htrade)).1, hcurrent]
    rfl
  refine wp_issue_bind ?_
  rintro _ instruments ⟨rfl, rfl⟩
  rw [andThen_ok, toDictionary_of_nodup (by rw [hcommitted]; exact database.instruments.keysNodup)]
  refine wp_issue_bind ?_
  rintro _ prices ⟨rfl, rfl⟩
  rw [andThen_ok, toDictionary_of_nodup hdistinct]
  refine wp_issue_bind ?_
  rintro _ products ⟨rfl, rfl⟩
  rw [andThen_ok, toDictionary_of_nodup (by rw [hcommitted]; exact database.products.keysNodup)]
  have hrest : Succeeds environment database.balances.keys (do
      forM (openTrades environment (database.after (expirations environment database time)))
        (LongTradeService.processOpenTrade (database.market environment).instruments
          (database.market environment).prices (database.market environment).products)
      saveChangesOrRollback) := by
    refine succeeds_openTrades hfunded.owner fun trade htrade => ?_
    obtain ⟨hmem, htradeOpen, hnot⟩ := (mem_openTrades_iff hpossible trade).mp htrade
    refine ⟨hfunded.traders trade hmem htradeOpen, hlisted trade hmem htradeOpen ?_⟩
    exact Bool.eq_false_iff.mpr fun hoverdue =>
      Bool.eq_false_iff.mp hnot (overdue_mono htime hoverdue)
  rw [← hopen] at hrest
  have hdone := hrest { expired with saved := expired.current, clock := now } hkeys
  subst hcommitted
  exact wp_mono (fun _ _ hfinal => hfinal.1) hdone

/-- Requests do what the sessions do that follow them. -/
theorem session_of_works {α : Type} {program : Request α} {shared : Shared}
    {post : Except BrokerException α → Session → Prop}
    (haccepted : Ensures environment program (fun _ _ => True) (fun _ _ => True)
      (Session.arrive shared.database shared.clock shared.closedTrades))
    (hpost : wp (Session.effect environment) (fun _ _ => True) program post
      (Session.arrive shared.database shared.clock shared.closedTrades))
    {outcome : Except BrokerException α} {final : World}
    (hexec : Exec (works environment) program (shared, DbContext.fresh) outcome final) :
    ∃ session, Related shared.binlog.length final session ∧ post outcome session := by
  have hsession : wp (Session.effect environment) Session.guard program post
      (Session.arrive shared.database shared.clock shared.closedTrades) :=
    wp_mono (fun _ _ hboth => hboth.2) (wp_conj (fun _ _ hguard _ => hguard)
      (wp_anti (fun _ _ _ _ => Or.inl) haccepted) hpost)
  have hfollow : ∀ command world answer world' session,
      Related shared.binlog.length world session → Session.guard command session →
        works environment command world answer world' → ∃ session',
          Session.effect environment command session answer session' ∧
            Related shared.binlog.length world' session' := by
    rintro command world answer world' session hrelated ⟨hopen, haccepts⟩ ⟨time, htime, hrun⟩
    have hfollows : Follows environment shared.binlog.length (world.tick time) session
        command := follows (hrelated.tick htime) hopen command haccepts
    obtain ⟨session', heffect, hrelated'⟩ := hfollows
    rw [hrun] at heffect hrelated'
    exact ⟨session', heffect, hrelated'⟩
  have hworld := wp_of_simulation _ hfollow (related_arrive shared) hsession
  exact wp_iff_forall_exec.mp hworld outcome final hexec

theorem returns_of_works {α : Type} {program : Request α} {shared : Shared}
    (haccepted : Ensures environment program (fun _ _ => True) (fun _ _ => True)
      (Session.arrive shared.database shared.clock shared.closedTrades))
    (hreturns : wp (Session.effect environment) (fun _ _ => True) program
      (fun outcome _ => ∃ value, outcome = .ok value)
      (Session.arrive shared.database shared.clock shared.closedTrades))
    {outcome : Except BrokerException α} {final : World}
    (hexec : Exec (works environment) program (shared, DbContext.fresh) outcome final) :
    ∃ value, outcome = .ok value := by
  obtain ⟨session, -, hvalue⟩ := session_of_works haccepted hreturns hexec
  exact hvalue

end Run

end EasyTrade.Broker

import EasyTrade.Broker.LongTradeSpecs
import EasyTrade.Broker.SessionSimulation

/-!
# Requests, one at a time

An operation of the broker, the request that serves it with a fresh context,
and what the database looks like afterwards: a request that returns has
committed the events its operation stands for, and a request that throws has
committed nothing.
-/

namespace EasyTrade.Broker

open EasyTrade.Program

/-- What a client, or the engine's timer, can ask of the broker. -/
inductive Operation
  | deposit (accountId : ℤ) (amount : ℚ)
  | withdraw (accountId : ℤ) (amount : ℚ)
  | quickBuy (accountId instrumentId : ℤ) (amount : ℚ)
  | quickSell (accountId instrumentId : ℤ) (amount : ℚ)
  | longBuy (accountId instrumentId : ℤ) (amount : ℚ) (duration : ℤ) (price : ℚ)
  | longSell (accountId instrumentId : ℤ) (amount : ℚ) (duration : ℤ) (price : ℚ)
  | processLongRunningTransactions

namespace Operation

/-- The service method behind an operation; its result is not looked at. -/
def request (environment : Environment) : Operation → Request Unit
  | deposit accountId amount => do
      let _ ← BalanceService.deposit accountId amount
  | withdraw accountId amount => do
      let _ ← BalanceService.withdraw accountId amount
  | quickBuy accountId instrumentId amount => do
      let _ ← TradeService.buyAssets environment accountId instrumentId amount
  | quickSell accountId instrumentId amount => do
      let _ ← TradeService.sellAssets environment accountId instrumentId amount
  | longBuy accountId instrumentId amount duration price => do
      let _ ← LongTradeService.buyAssets accountId instrumentId amount duration price
  | longSell accountId instrumentId amount duration price => do
      let _ ← LongTradeService.sellAssets accountId instrumentId amount duration price
  | processLongRunningTransactions => LongTradeService.processLongRunningTransactions

/-- The events an operation stands for when it succeeds. -/
def Effects (environment : Environment) (database : Database) (clock : DateTime) :
    Operation → List Event → Prop
  | deposit accountId amount, events =>
      ∃ date, events = [.deposited accountId amount date]
  | withdraw accountId amount, events =>
      ∃ date, events = [.withdrawn accountId amount date]
  | quickBuy accountId instrumentId amount, events =>
      ∃ event, events = [event] ∧
        TradeService.Carries environment accountId instrumentId amount .buy event
  | quickSell accountId instrumentId amount, events =>
      ∃ event, events = [event] ∧
        TradeService.Carries environment accountId instrumentId amount .sell event
  | longBuy accountId instrumentId amount _ price, events =>
      ∃ event, events = [event] ∧
        LongTradeService.Registers accountId instrumentId amount price .longBuy event
  | longSell accountId instrumentId amount _ price, events =>
      ∃ event, events = [event] ∧
        LongTradeService.Registers accountId instrumentId amount price .longSell event
  | processLongRunningTransactions, events =>
      Processed environment database clock events

end Operation

/-- A request runs alone with a fresh context.  The context is disposed of at
the end, and with it whatever its transaction has not committed. -/
def Serves (environment : Environment) (operation : Operation) (shared : Shared)
    (outcome : Except BrokerException Unit) (shared' : Shared) : Prop :=
  ∃ context, Exec (step environment) (operation.request environment)
    (shared, DbContext.fresh) outcome (shared', context)

section Refinement

variable {environment : Environment} {operation : Operation} {shared shared' : Shared}

/-- What a request that throws leaves behind: the database as it was, and the
notifications of closings that were not committed. -/
def Abandoned (database : Database) (closedTrades : List Trade) (database' : Database)
    (closedTrades' : List Trade) : Prop :=
  database' = database ∧ ∃ events, Possible database events ∧ Closing events ∧
    closedTrades' = closedTrades ++ events.filterMap Event.notified

/-- What a request that returns leaves behind. -/
structure Committed (environment : Environment) (operation : Operation)
    (shared : Shared) (events : List Event) (final : Session) : Prop where
  effects : operation.Effects environment shared.database shared.clock events
  possible : Possible shared.database events
  database : final.committed = shared.database.after events
  notified : final.closedTrades = shared.closedTrades ++ events.filterMap Event.notified
  ordered : Ordered shared.clock (events.flatMap Event.dates) final.clock
  commits : final.commits = 1
  notRolledBack : final.rolledBack = false

theorem request_spec :
    Ensures environment (operation.request environment)
      (fun _ final => ∃ events, Committed environment operation shared events final)
      (Abandoned shared.database shared.closedTrades)
      (Session.arrive shared.database shared.clock shared.closedTrades) := by
  have hnothing : Abandoned shared.database shared.closedTrades shared.database
      shared.closedTrades :=
    ⟨rfl, [], trivial, fun _ h => absurd h List.not_mem_nil, by simp⟩
  -- a single event, of which the engine is not told
  have hsingle : ∀ (event : Event) (now : DateTime), event.notified = none →
      operation.Effects environment shared.database shared.clock [event] →
      Ordered shared.clock event.dates now → event.Allowed shared.database →
      ∃ events, Committed environment operation shared events
        (Session.leave (event.apply shared.database) now shared.closedTrades) :=
    fun event now hnotified heffects hordered hallowed => ⟨[event],
      { effects := heffects
        possible := ⟨hallowed, trivial⟩
        database := rfl
        notified := by simp [Session.leave, Session.arrive, hnotified]
        ordered := by simpa [Session.leave, Session.arrive] using hordered
        commits := rfl
        notRolledBack := rfl }⟩
  cases operation with
  | deposit accountId amount =>
      simp only [Operation.request, ensures_bind, ensures_pure]
      refine BalanceService.deposit_spec hnothing ?_
      rintro event now _ rfl hordered hallowed
      exact hsingle _ now rfl ⟨now, rfl⟩ hordered hallowed
  | withdraw accountId amount =>
      simp only [Operation.request, ensures_bind, ensures_pure]
      refine BalanceService.withdraw_spec hnothing ?_
      rintro event now _ rfl hordered hallowed
      exact hsingle _ now rfl ⟨now, rfl⟩ hordered hallowed
  | quickBuy accountId instrumentId amount =>
      simp only [Operation.request, ensures_bind, ensures_pure]
      refine TradeService.buyAssets_spec hnothing ?_
      intro event now _ hcarries hordered hallowed
      exact hsingle event now hcarries.notified ⟨event, rfl, hcarries⟩ hordered hallowed
  | quickSell accountId instrumentId amount =>
      simp only [Operation.request, ensures_bind, ensures_pure]
      refine TradeService.sellAssets_spec hnothing ?_
      intro event now _ hcarries hordered hallowed
      exact hsingle event now hcarries.notified ⟨event, rfl, hcarries⟩ hordered hallowed
  | longBuy accountId instrumentId amount duration price =>
      simp only [Operation.request, ensures_bind, ensures_pure]
      refine LongTradeService.createLongTransaction_spec hnothing ?_
      intro event now _ _ hregisters hordered hallowed
      exact hsingle event now hregisters.notified ⟨event, rfl, hregisters⟩ hordered hallowed
  | longSell accountId instrumentId amount duration price =>
      simp only [Operation.request, ensures_bind, ensures_pure]
      refine LongTradeService.createLongTransaction_spec hnothing ?_
      intro event now _ _ hregisters hordered hallowed
      exact hsingle event now hregisters.notified ⟨event, rfl, hregisters⟩ hordered hallowed
  | processLongRunningTransactions =>
      refine LongTradeService.processLongRunningTransactions_spec ?_ ?_
      · exact fun events hpossible hclosing => ⟨rfl, events, hpossible, hclosing, rfl⟩
      · intro events now hprocessed hpossible hordered
        exact ⟨events,
          { effects := hprocessed
            possible := hpossible
            database := rfl
            notified := rfl
            ordered := hordered
            commits := rfl
            notRolledBack := rfl }⟩

/-- A request that returns has committed the events its operation stands
for. -/
theorem serves_ok (hserves : Serves environment operation shared (.ok ()) shared') :
    ∃ events, operation.Effects environment shared.database shared.clock events ∧
      Possible shared.database events ∧
      shared'.database = shared.database.after events ∧
      shared'.closedTrades = shared.closedTrades ++ events.filterMap Event.notified ∧
      Ordered shared.clock (events.flatMap Event.dates) shared'.clock := by
  obtain ⟨context, hexec⟩ := hserves
  obtain ⟨final, hrelated, events, hcommitted⟩ := request_spec.sound hexec
  have hmirrored := hrelated.mirrored hcommitted.notRolledBack
  exact ⟨events, hcommitted.effects, hcommitted.possible,
    hrelated.committed.symm.trans hcommitted.database,
    hrelated.closedTrades.symm.trans hcommitted.notified,
    hcommitted.ordered.mono hmirrored.clock⟩

/-- The database is what the committed transactions have made of it. -/
theorem Command.run_journal (environment : Environment) (command : Command)
    (world : World) : ∃ commits,
      (command.run environment world).2.1.binlog = world.1.binlog ++ commits ∧
        (command.run environment world).2.1.database =
          commits.foldl Database.applyAll world.1.database := by
  have hnone : ∃ commits : List (List Write),
      world.1.binlog = world.1.binlog ++ commits ∧
        world.1.database = commits.foldl Database.applyAll world.1.database :=
    ⟨[], (List.append_nil _).symm, rfl⟩
  cases command with
  | getBalanceOfAccount accountId =>
      simp only [Command.run]
      split <;> exact hnone
  | getOwnedInstrument accountId instrumentId =>
      simp only [Command.run]
      split <;> exact hnone
  | beginTransaction =>
      simp only [Command.run]
      split <;> exact hnone
  | rollbackTransaction =>
      simp only [Command.run]
      split <;> exact hnone
  | saveChanges =>
      simp only [Command.run, World.saveChanges]
      split
      · exact hnone
      · exact ⟨[world.unsaved], rfl, rfl⟩
  | commitTransaction =>
      simp only [Command.run]
      split
      · exact ⟨[_], rfl, rfl⟩
      · exact hnone
  | _ => exact hnone

theorem exec_journal {α : Type} {program : Request α} {world world' : World}
    {outcome : Except BrokerException α}
    (hexec : Exec (step environment) program world outcome world') :
    ∃ commits, world'.1.binlog = world.1.binlog ++ commits ∧
      world'.1.database = commits.foldl Database.applyAll world.1.database := by
  induction program generalizing world with
  | done value =>
      obtain ⟨-, rfl⟩ := hexec
      exact ⟨[], (List.append_nil _).symm, rfl⟩
  | raise error =>
      obtain ⟨-, rfl⟩ := hexec
      exact ⟨[], (List.append_nil _).symm, rfl⟩
  | call command next ih =>
      obtain ⟨answer, middle, hstep, hrest⟩ := hexec
      obtain ⟨later, hbinlog, hdatabase⟩ := ih answer hrest
      rcases hstep with ⟨time, -, hrun⟩ | ⟨-, error, -, rfl⟩
      · obtain ⟨commits, hcommits, happlied⟩ :=
          command.run_journal environment (world.tick time)
        rw [hrun] at hcommits happlied
        refine ⟨commits ++ later, ?_, ?_⟩
        · rw [hbinlog, hcommits, List.append_assoc]
          rfl
        · rw [hdatabase, happlied, List.foldl_append]
          rfl
      · exact ⟨later, hbinlog, hdatabase⟩

/-- All that a request changes, it changes in one commit. -/
theorem serves_commit (hserves : Serves environment operation shared (.ok ()) shared') :
    ∃ writes, shared'.binlog = shared.binlog ++ [writes] ∧
      shared'.database = shared.database.applyAll writes := by
  obtain ⟨context, hexec⟩ := hserves
  obtain ⟨final, hrelated, events, hcommitted⟩ := request_spec.sound hexec
  obtain ⟨commits, hbinlog, hdatabase⟩ := exec_journal hexec
  have hlength : shared'.binlog.length = shared.binlog.length + 1 := by
    rw [← hcommitted.commits]
    exact hrelated.commits
  rw [hbinlog, List.length_append, Nat.add_left_cancel_iff, List.length_eq_one_iff] at hlength
  obtain ⟨writes, rfl⟩ := hlength
  exact ⟨writes, hbinlog, hdatabase⟩

/-- A request that throws has committed nothing. -/
theorem serves_error {error : BrokerException}
    (hserves : Serves environment operation shared (.error error) shared') :
    Abandoned shared.database shared.closedTrades shared'.database
      shared'.closedTrades := by
  obtain ⟨context, hexec⟩ := hserves
  obtain ⟨final, hrelated, habandoned⟩ := request_spec.sound hexec
  have habandoned : Abandoned shared.database shared.closedTrades final.committed
      final.closedTrades := habandoned
  rwa [hrelated.committed, hrelated.closedTrades] at habandoned

end Refinement

/-! ## Sequential runs -/

/-- What a client pays in, or takes out as a negative amount, from one of the
given accounts. -/
def Event.paidIn (accounts : ℤ → Bool) : Event → ℚ
  | deposited accountId amount _ => if accounts accountId then amount else 0
  | withdrawn accountId amount _ => if accounts accountId then -amount else 0
  | _ => 0

/-- A request that has been served, with its surroundings and its outcome. -/
structure Served where
  environment : Environment
  operation : Operation
  outcome : Except BrokerException Unit

/-- What a request pays in when it succeeds. -/
def Served.paidIn (accounts : ℤ → Bool) (request : Served) : ℚ :=
  match request.operation, request.outcome with
  | .deposit accountId amount, .ok _ => if accounts accountId then amount else 0
  | .withdraw accountId amount, .ok _ => if accounts accountId then -amount else 0
  | _, _ => 0

/-- The event is among those that the request, which succeeded, stands for. -/
def Served.Accounts (request : Served) (event : Event) : Prop :=
  request.outcome = .ok () ∧ ∃ database clock events,
    request.operation.Effects request.environment database clock events ∧ event ∈ events

/-- Requests served one after the other. -/
inductive Runs (start : Shared) : List Served → Shared → Prop
  | idle : Runs start [] start
  | serve {requests : List Served} {request : Served} {middle final : Shared} :
      Runs start requests middle →
      Serves request.environment request.operation middle request.outcome final →
      Runs start (requests ++ [request]) final

section Runs

variable {environment : Environment} {operation : Operation} {shared shared' : Shared}

/-- Only deposits and withdrawals pay in. -/
theorem paidIn_of_effects {events : List Event} {database : Database} {clock : DateTime}
    (heffects : operation.Effects environment database clock events)
    (accounts : ℤ → Bool) :
    (events.map (Event.paidIn accounts)).sum =
      Served.paidIn accounts ⟨environment, operation, .ok ()⟩ := by
  cases operation with
  | deposit | withdraw =>
      obtain ⟨date, rfl⟩ := heffects
      simp [Event.paidIn, Served.paidIn]
  | quickBuy | quickSell =>
      obtain ⟨event, rfl, price, id, opened, closed, settlement, -, -, rfl⟩ := heffects
      simp [Event.paidIn, Served.paidIn]
  | longBuy | longSell =>
      obtain ⟨event, rfl, id, opened, expires, rfl⟩ := heffects
      simp [Event.paidIn, Served.paidIn]
  | processLongRunningTransactions =>
      have hclosing : Closing events := Processed.closing heffects
      have hzero : ∀ event ∈ events, event.paidIn accounts = 0 := by
        intro event hevent
        have hresolution := hclosing event hevent
        cases event <;> first | rfl | cases hresolution
      rw [List.map_congr_left hzero]
      simp [Served.paidIn]

/-- Refinement over whole runs: requests served one at a time leave the books
as if only the events of the successful ones had happened. -/
theorem Runs.refines {start final : Shared} {requests : List Served}
    (hruns : Runs start requests final) :
    ∃ events, Possible start.database events ∧
      final.database = start.database.after events ∧
      (∀ event ∈ events, ∃ request ∈ requests, request.Accounts event) ∧
      ∀ accounts, (events.map (Event.paidIn accounts)).sum =
        (requests.map (Served.paidIn accounts)).sum := by
  induction hruns with
  | idle =>
      exact ⟨[], trivial, rfl, fun _ h => absurd h List.not_mem_nil, fun accounts => rfl⟩
  | @serve requests request middle final _ hserves ih =>
      obtain ⟨events, hpossible, hdatabase, haccounts, hpaidIn⟩ := ih
      have hearlier : ∀ event ∈ events, ∃ earlier ∈ requests ++ [request],
          earlier.Accounts event := fun event hevent => by
        obtain ⟨earlier, hmem, hearlier⟩ := haccounts event hevent
        exact ⟨earlier, List.mem_append_left _ hmem, hearlier⟩
      obtain ⟨environment, operation, outcome⟩ := request
      cases outcome with
      | error error =>
          refine ⟨events, hpossible, (serves_error hserves).1.trans hdatabase, hearlier, ?_⟩
          intro accounts
          rw [List.map_append, List.sum_append, ← hpaidIn accounts]
          cases operation <;> simp [Served.paidIn]
      | ok value =>
          obtain ⟨served, heffects, hserved, hfinal, -, -⟩ := serves_ok hserves
          refine ⟨events ++ served, ?_, ?_, ?_, ?_⟩
          · rw [hdatabase] at hserved
            exact Replay.possible_append.mpr ⟨hpossible, hserved⟩
          · rw [hdatabase] at hfinal
            rw [hfinal, Database.after, Database.after, Database.after, Replay.run_append]
          · intro event hevent
            rcases List.mem_append.mp hevent with hevent | hevent
            · exact hearlier event hevent
            · exact ⟨_, List.mem_append_right _ List.mem_cons_self, rfl, _, _, served,
                heffects, hevent⟩
          · intro accounts
            simp only [List.map_append, List.sum_append, hpaidIn accounts,
              paidIn_of_effects heffects accounts, List.map_cons, List.map_nil,
              List.sum_cons, List.sum_nil, add_zero]

/-- A property of databases that possible events keep is kept by runs. -/
theorem Runs.invariant {invariant : Database → Prop} {start final : Shared}
    {requests : List Served} (hruns : Runs start requests final)
    (happly : ∀ (event : Event) database, invariant database → event.Allowed database →
      invariant (event.apply database))
    (hstart : invariant start.database) : invariant final.database := by
  obtain ⟨events, hpossible, hfinal, -, -⟩ := hruns.refines
  rw [hfinal]
  exact hpossible.invariant happly hstart

end Runs

/-- The states that a run goes through: request `i` leads from state `i` to the
next. -/
def Visits (states : ℕ → Shared) (requests : List Served) : Prop :=
  ∀ i (hi : i < requests.length),
    Serves requests[i].environment requests[i].operation (states i) requests[i].outcome
      (states (i + 1))

theorem Visits.runs {states : ℕ → Shared} {requests : List Served}
    (hvisits : Visits states requests) {i j : ℕ} (hij : i ≤ j)
    (hj : j ≤ requests.length) : ∃ served, Runs (states i) served (states j) := by
  induction j, hij using Nat.le_induction with
  | base => exact ⟨[], Runs.idle⟩
  | succ j hij ih =>
      obtain ⟨served, hruns⟩ := ih (Nat.le_of_succ_le hj)
      exact ⟨served ++ [requests[j]], hruns.serve (hvisits j hj)⟩

/-- A run goes through states. -/
theorem Runs.visits {start final : Shared} {requests : List Served}
    (hruns : Runs start requests final) :
    ∃ states : ℕ → Shared, Visits states requests ∧ states 0 = start ∧
      states requests.length = final := by
  induction hruns with
  | idle => exact ⟨fun _ => start, fun i hi => absurd hi (Nat.not_lt_zero i), rfl, rfl⟩
  | @serve requests request middle final hruns hserves ih =>
      obtain ⟨states, hvisits, hstart, hmiddle⟩ := ih
      let visited : ℕ → Shared := fun i => if i ≤ requests.length then states i else final
      have hlength : (requests ++ [request]).length = requests.length + 1 :=
        List.length_append
      refine ⟨visited, fun i hi => ?_, ?_, ?_⟩
      · rcases Nat.lt_or_ge i requests.length with hearlier | hlast
        · have hfirst : visited i = states i := if_pos hearlier.le
          have hsecond : visited (i + 1) = states (i + 1) := if_pos hearlier
          rw [hfirst, hsecond, List.getElem_append_left hearlier]
          exact hvisits i hearlier
        · obtain rfl : i = requests.length := by omega
          have hfirst : visited requests.length = middle := (if_pos le_rfl).trans hmiddle
          have hsecond : visited (requests.length + 1) = final :=
            if_neg (Nat.not_succ_le_self _)
          rw [hfirst, hsecond, List.getElem_concat_length rfl]
          exact hserves
      · exact (if_pos (Nat.zero_le _)).trans hstart
      · rw [hlength]
        exact if_neg (Nat.not_succ_le_self _)

/-! ## Replaying a request -/

theorem serves_of_replay {environment : Environment} {operation : Operation}
    {shared : Shared} {script : List Move} {outcome : Except BrokerException Unit}
    {world : World}
    (hreplay : replay (move environment) (operation.request environment) script
      (shared, DbContext.fresh) = some (outcome, world)) :
    Serves environment operation shared outcome world.1 := by
  exact ⟨world.2, exec_of_replay step_of_move hreplay⟩

/-- A request that exists because its script can be followed, with what can be
seen at its end. -/
theorem exists_serves (environment : Environment) (operation : Operation)
    (shared : Shared) (script : List Move)
    (check : Except BrokerException Unit → Shared → Bool)
    (hreplay : (replay (move environment) (operation.request environment) script
      (shared, DbContext.fresh)).any (fun result => check result.1 result.2.1) = true) :
    ∃ outcome shared', check outcome shared' = true ∧
      Serves environment operation shared outcome shared' := by
  obtain ⟨outcome, world, hcheck, hexec⟩ := exists_exec step_of_move
    (operation.request environment) script (shared, DbContext.fresh)
    (fun outcome world => check outcome world.1) hreplay
  exact ⟨outcome, world.1, hcheck, world.2, hexec⟩

/-- Serves requests along their scripts. -/
def replayAll : Shared → List (Environment × Operation × List Move) →
    Option (List Served × Shared)
  | shared, [] => some ([], shared)
  | shared, (environment, operation, script) :: rest => do
      let (outcome, world) ← replay (move environment) (operation.request environment)
        script (shared, DbContext.fresh)
      let (requests, final) ← replayAll world.1 rest
      return (⟨environment, operation, outcome⟩ :: requests, final)

theorem Runs.cons {request : Served} {start middle final : Shared}
    {requests : List Served}
    (hserves : Serves request.environment request.operation start request.outcome middle)
    (hruns : Runs middle requests final) : Runs start (request :: requests) final := by
  induction hruns with
  | idle => exact Runs.idle.serve hserves
  | serve _ hlast ih => exact ih.serve hlast

theorem runs_of_replayAll {start final : Shared} {requests : List Served}
    {script : List (Environment × Operation × List Move)}
    (hreplay : replayAll start script = some (requests, final)) :
    Runs start requests final := by
  induction script generalizing start requests with
  | nil =>
      simp only [replayAll, Option.some.injEq, Prod.mk.injEq] at hreplay
      obtain ⟨rfl, rfl⟩ := hreplay
      exact Runs.idle
  | cons head script ih =>
      obtain ⟨environment, operation, moves⟩ := head
      simp only [replayAll, Option.bind_eq_bind, Option.bind_eq_some_iff] at hreplay
      obtain ⟨⟨outcome, world⟩, hrequest, ⟨rest, last⟩, hrest, hresult⟩ := hreplay
      cases hresult
      exact Runs.cons (serves_of_replay hrequest) (ih hrest)

/-- A run that exists because its scripts can be followed, with what can be
seen at its end. -/
theorem exists_runs (start : Shared)
    (script : List (Environment × Operation × List Move))
    (check : List Served → Shared → Bool)
    (hreplay : (replayAll start script).any (fun run => check run.1 run.2) = true) :
    ∃ requests final, check requests final = true ∧ Runs start requests final := by
  cases hrun : replayAll start script with
  | none => rw [hrun] at hreplay; cases hreplay
  | some run =>
      rw [hrun] at hreplay
      exact ⟨run.1, run.2, hreplay, runs_of_replayAll hrun⟩

namespace Sample

/-- One instrument at one price. -/
def environment : Environment where
  fraudDetectionEnabled := false
  pricesByInstrumentId id _ := some [⟨id, 0, 10, 12, 9, 11⟩]
  latestPrices := some [⟨1, 0, 10, 12, 9, 11⟩]
  fraudScore _ := 0
  order := id
  order_perm _ := List.Perm.refl _

/-- A long buy whose time is up. -/
def openTrade : Trade :=
  { Trade.longTrade 2 1 .longBuy 10 1 0 50 with id := 1 }

/-- The owner, a trader with five shares and an open trade whose time is up, and
one instrument whose fee is 2. -/
def shared : Shared where
  database :=
    { balances := ⟨[⟨ownerId, 0⟩, ⟨2, 100⟩], by decide⟩
      balanceHistories := []
      ownedInstruments := ⟨[⟨1, 2, 1, 5, 0⟩], by decide⟩
      trades := ⟨[openTrade], by decide⟩
      instruments := ⟨[⟨1, 1, "EZ", "EasyTrade", "EasyTrade shares"⟩], by decide⟩
      products := ⟨[⟨1, "Share", 2⟩], by decide⟩ }
  nextOwnedInstrumentId := 2
  nextTradeId := 2
  binlog := []
  clock := 100
  closedTrades := []

/-- A request every command of which does its work at once. -/
def smooth (operation : Operation) : Environment × Operation × List Move :=
  (environment, operation, List.replicate 60 (.work 100))

/-- The trader and the owner trade with each other's fees; the last request
fails. -/
def day : List (Environment × Operation × List Move) :=
  [smooth (.deposit 2 50), smooth (.quickBuy 2 1 3), smooth (.longSell 2 1 2 24 11),
    smooth (.deposit ownerId 30), smooth (.longBuy ownerId 1 1 24 10),
    smooth .processLongRunningTransactions, smooth (.quickSell 2 1 1),
    smooth (.withdraw 2 20), smooth (.withdraw 2 1000)]

end Sample

end EasyTrade.Broker

import EasyTrade.Broker.Services

/-!
# A request working alone

While no other request runs, a request's context can be forgotten: what its
queries return is determined by three databases, the committed one, the one
its transaction has saved so far, and the one that is due when every object in
memory has been written.  This file gives the commands their meaning on these
three and a proof rule for each of them.
-/

namespace EasyTrade.Broker

open EasyTrade.Program

structure Session where
  /-- What any other request would see. -/
  committed : Database
  /-- What a query of the request sees. -/
  saved : Database
  /-- What the request's objects say, saved or not. -/
  current : Database
  inTransaction : Bool
  /-- Nothing is known of `saved` and `current` after a rollback. -/
  rolledBack : Bool
  /-- It is not earlier than this. -/
  clock : DateTime
  closedTrades : List Trade
  /-- How often the request has committed. -/
  commits : ℕ

namespace Session

/-- The session of a request that has just arrived. -/
def arrive (database : Database) (clock : DateTime) (closedTrades : List Trade) :
    Session where
  committed := database
  saved := database
  current := database
  inTransaction := false
  rolledBack := false
  clock := clock
  closedTrades := closedTrades
  commits := 0

/-- The session of a request that has done its work, in one commit. -/
def leave (database : Database) (clock : DateTime) (closedTrades : List Trade) :
    Session :=
  { arrive database clock closedTrades with commits := 1 }

/-- What a command does to a session when it does its work. -/
def effect (environment : Environment) :
    (command : Command) → Session → Except BrokerException command.Answer →
      Session → Prop
  | .getBalanceOfAccount accountId, session, answer, session' =>
      answer = .ok (session.current.balances.find? accountId) ∧ session' = session
  | .updateBalance balance, session, answer, session' =>
      answer = .ok () ∧ session' = { session with current :=
        { session.current with balances := session.current.balances.set balance } }
  | .addBalanceHistory row, session, answer, session' =>
      answer = .ok () ∧ session' = { session with current :=
        { session.current with
          balanceHistories := session.current.balanceHistories ++ [row] } }
  | .getInstrument instrumentId, session, answer, session' =>
      answer = .ok (session.committed.instruments.find? instrumentId) ∧
        session' = session
  | .getAllInstruments, session, answer, session' =>
      answer = .ok session.committed.instruments.rows ∧ session' = session
  | .getOwnedInstrument accountId instrumentId, session, answer, session' =>
      answer = .ok ((session.saved.holdingRow accountId instrumentId).bind
        fun row => session.current.ownedInstruments.find? row.id) ∧
        session' = session
  | .getOwnedInstrumentsOfAccount accountId, session, answer, session' =>
      answer = .ok ((session.saved.ownedInstruments.rows.filter
        (·.accountId = accountId)).filterMap
          fun row => session.current.ownedInstruments.find? row.id) ∧
        session' = session
  | .addOwnedInstrument row, session, answer, session' =>
      ∃ id, id ∉ session.current.ownedInstruments.keys ∧
        answer = .ok () ∧ session' = { session with current :=
          { session.current with ownedInstruments :=
            session.current.ownedInstruments.insert { row with id := id } } }
  | .updateOwnedInstrument row, session, answer, session' =>
      answer = .ok () ∧ session' = { session with current :=
        { session.current with
          ownedInstruments := session.current.ownedInstruments.set row } }
  | .getProduct productId, session, answer, session' =>
      answer = .ok (session.committed.products.find? productId) ∧
        session' = session
  | .getProducts, session, answer, session' =>
      answer = .ok session.committed.products.rows ∧ session' = session
  | .getTradesWhere filter, session, answer, session' =>
      ∃ time, session.clock ≤ time ∧
        answer = .ok ((environment.order
          (session.saved.trades.rows.filter (filter time))).filterMap
            fun row => session.current.trades.find? row.id) ∧
        session' = { session with clock := time }
  | .addTrade row, session, answer, session' =>
      ∃ id, id ∉ session.current.trades.keys ∧
        answer = .ok () ∧ session' = { session with current :=
          { session.current with
            trades := session.current.trades.insert { row with id := id } } }
  | .updateTrade row, session, answer, session' =>
      answer = .ok () ∧ session' = { session with current :=
        { session.current with trades := session.current.trades.set row } }
  | .beginTransaction, session, answer, session' =>
      answer = .ok () ∧ session' = { session with inTransaction := true }
  | .saveChanges, session, answer, session' =>
      answer = .ok () ∧ session' = { session with saved := session.current }
  | .commitTransaction, session, answer, session' =>
      answer = .ok () ∧ session' = { session with
        committed := session.saved
        inTransaction := false
        commits := session.commits + 1 }
  | .rollbackTransaction, session, answer, session' =>
      answer = .ok () ∧ session' = { session with
        inTransaction := false
        rolledBack := true }
  | .getPricesByInstrumentId id count, session, answer, session' =>
      answer = .ok (pricesOfResponse (environment.pricesByInstrumentId id count)) ∧
        session' = session
  | .getLatestPrices, session, answer, session' =>
      answer = .ok (pricesOfResponse environment.latestPrices) ∧ session' = session
  | .scoreTradeAsync query, session, answer, session' =>
      answer = .ok (environment.fraudScore query) ∧ session' = session
  | .utcNow, session, answer, session' =>
      ∃ time, session.clock ≤ time ∧ answer = .ok time ∧
        session' = { session with clock := time }
  | .onTradeClosed trade, session, answer, session' =>
      answer = .ok () ∧ session' = { session with
        closedTrades := session.closedTrades ++ [trade] }

/-- One command of a session, which may throw instead. -/
def step (environment : Environment) :
    Semantics BrokerException Command.Answer Session :=
  fun command session answer session' =>
    effect environment command session answer session' ∨
      (command.mayThrow ∧ ∃ error, answer = .error error ∧ session' = session)

/-- Where a command is in its place: transactions are not nested, changes are
saved inside a transaction, and only rows that have been read are updated. -/
@[simp]
def accepts (session : Session) : Command → Prop
  | .beginTransaction => session.inTransaction = false
  | .saveChanges | .commitTransaction | .rollbackTransaction =>
      session.inTransaction = true
  | .updateBalance balance => balance.accountId ∈ session.current.balances.keys
  | .updateOwnedInstrument row => row.id ∈ session.saved.ownedInstruments.keys
  | .updateTrade row => row.id ∈ session.saved.trades.keys
  | _ => True

@[simp]
def guard (command : Command) (session : Session) : Prop :=
  session.rolledBack = false ∧ session.accepts command

/-- A postcondition with two exits: `ok` speaks about the value and the
session, `fails` about what an exception leaves behind. -/
def finish {α : Type} (ok : α → Session → Prop) (fails : Database → List Trade → Prop) :
    Except BrokerException α → Session → Prop
  | .ok value, session => ok value session
  | .error _, session => fails session.committed session.closedTrades

end Session

/-- Started in `session`, the program returns with `ok` or throws with
`fails`. -/
def Ensures {α : Type} (environment : Environment) (program : Request α)
    (ok : α → Session → Prop) (fails : Database → List Trade → Prop)
    (session : Session) : Prop :=
  wp (Session.step environment) Session.guard program (Session.finish ok fails) session

section Rules

variable {environment : Environment} {α β : Type}
variable {fails : Database → List Trade → Prop} {session : Session}

theorem Ensures.mono {program : Request α} {ok ok' : α → Session → Prop}
    {fails' : Database → List Trade → Prop}
    (hok : ∀ value final, ok value final → ok' value final)
    (hfails : ∀ committed closedTrades, fails committed closedTrades →
      fails' committed closedTrades)
    (h : Ensures environment program ok fails session) :
    Ensures environment program ok' fails' session := by
  refine wp_mono (fun outcome final hfinal => ?_) h
  cases outcome with
  | ok value => exact hok value final hfinal
  | error error => exact hfails _ _ hfinal

@[simp]
theorem ensures_pure (value : α) (ok : α → Session → Prop) :
    Ensures environment (pure value) ok fails session ↔ ok value session := Iff.rfl

@[simp]
theorem ensures_throw (error : BrokerException) (ok : α → Session → Prop) :
    Ensures environment (throw error) ok fails session ↔
      fails session.committed session.closedTrades := Iff.rfl

@[simp]
theorem ensures_bind (program : Request α) (next : α → Request β)
    (ok : β → Session → Prop) :
    Ensures environment (program >>= next) ok fails session ↔
      Ensures environment program
        (fun value session => Ensures environment (next value) ok fails session)
        fails session := by
  have hpost : andThen
      (fun value => wp (Session.step environment) Session.guard (next value)
        (Session.finish ok fails)) (Session.finish ok fails) =
      Session.finish
        (fun value session => Ensures environment (next value) ok fails session)
        fails := by
    funext outcome final
    cases outcome <;> rfl
  rw [Ensures, wp_bind, hpost, Ensures]

/-- The rule all command rules are instances of: a command whose work is to
answer `value i` and to leave `next i`, for any allowed `i`. -/
theorem ensures_issue {ι : Type} {allowed : ι → Prop} (command : Command)
    {ok : command.Answer → Session → Prop}
    {value : ι → command.Answer} {next : ι → Session}
    (heffect : ∀ answer session',
      Session.effect environment command session answer session' ↔
        ∃ i, allowed i ∧ answer = .ok (value i) ∧ session' = next i) :
    Ensures environment (issue command) ok fails session ↔
      Session.guard command session ∧
        (command.mayThrow → fails session.committed session.closedTrades) ∧
        ∀ i, allowed i → ok (value i) (next i) := by
  rw [Ensures, issue, wp_perform]
  refine and_congr Iff.rfl ⟨fun h => ⟨fun hthrow => ?_, fun i hi => ?_⟩, ?_⟩
  · exact h (.error .nullReference) session (Or.inr ⟨hthrow, _, rfl, rfl⟩)
  · exact h (.ok (value i)) (next i)
      (Or.inl ((heffect _ _).mpr ⟨i, hi, rfl, rfl⟩))
  · rintro ⟨hfails, hwork⟩ answer session' (hstep | ⟨hthrow, error, rfl, rfl⟩)
    · obtain ⟨i, hi, rfl, rfl⟩ := (heffect _ _).mp hstep
      exact hwork i hi
    · exact hfails hthrow

/-- A command with only one answer. -/
theorem ensures_issue_of_answer (command : Command)
    {ok : command.Answer → Session → Prop} {value : command.Answer} {next : Session}
    (heffect : ∀ answer session',
      Session.effect environment command session answer session' ↔
        answer = .ok value ∧ session' = next) :
    Ensures environment (issue command) ok fails session ↔
      Session.guard command session ∧
        (command.mayThrow → fails session.committed session.closedTrades) ∧
        ok value next := by
  have heffect' : ∀ answer session',
      Session.effect environment command session answer session' ↔
        ∃ _ : Unit, True ∧ answer = .ok value ∧ session' = next :=
    fun answer session' => (heffect answer session').trans (by simp)
  rw [ensures_issue command heffect']
  simp

/-! ## One rule for each command -/

theorem ensures_getBalanceOfAccount {accountId : ℤ} {ok : Option Balance → Session → Prop} :
    @Ensures (Option Balance) environment (issue (.getBalanceOfAccount accountId)) ok fails
        session ↔
      session.rolledBack = false ∧ fails session.committed session.closedTrades ∧
        ok (session.current.balances.find? accountId) session := by
  rw [ensures_issue_of_answer (.getBalanceOfAccount accountId) fun _ _ => Iff.rfl]
  simp

theorem ensures_updateBalance {balance : Balance} {ok : Unit → Session → Prop} :
    @Ensures Unit environment (issue (.updateBalance balance)) ok fails session ↔
      session.rolledBack = false ∧ balance.accountId ∈ session.current.balances.keys ∧
        fails session.committed session.closedTrades ∧
        ok () { session with current :=
          { session.current with
            balances := session.current.balances.set balance } } := by
  rw [ensures_issue_of_answer (.updateBalance balance) fun _ _ => Iff.rfl]
  simp [and_assoc]

theorem ensures_addBalanceHistory {row : BalanceHistory} {ok : Unit → Session → Prop} :
    @Ensures Unit environment (issue (.addBalanceHistory row)) ok fails session ↔
      session.rolledBack = false ∧ fails session.committed session.closedTrades ∧
        ok () { session with current :=
          { session.current with
            balanceHistories := session.current.balanceHistories ++ [row] } } := by
  rw [ensures_issue_of_answer (.addBalanceHistory row) fun _ _ => Iff.rfl]
  simp

theorem ensures_getInstrument {instrumentId : ℤ} {ok : Option Instrument → Session → Prop} :
    @Ensures (Option Instrument) environment (issue (.getInstrument instrumentId)) ok fails
        session ↔
      session.rolledBack = false ∧ fails session.committed session.closedTrades ∧
        ok (session.committed.instruments.find? instrumentId) session := by
  rw [ensures_issue_of_answer (.getInstrument instrumentId) fun _ _ => Iff.rfl]
  simp

theorem ensures_getAllInstruments {ok : List Instrument → Session → Prop} :
    @Ensures (List Instrument) environment (issue .getAllInstruments) ok fails session ↔
      session.rolledBack = false ∧ fails session.committed session.closedTrades ∧
        ok session.committed.instruments.rows session := by
  rw [ensures_issue_of_answer .getAllInstruments fun _ _ => Iff.rfl]
  simp

theorem ensures_getOwnedInstrument {accountId instrumentId : ℤ}
    {ok : Option OwnedInstrument → Session → Prop} :
    @Ensures (Option OwnedInstrument) environment
        (issue (.getOwnedInstrument accountId instrumentId)) ok fails session ↔
      session.rolledBack = false ∧ fails session.committed session.closedTrades ∧
        ok ((session.saved.holdingRow accountId instrumentId).bind
          fun row => session.current.ownedInstruments.find? row.id) session := by
  rw [ensures_issue_of_answer (.getOwnedInstrument accountId instrumentId) fun _ _ => Iff.rfl]
  simp

theorem ensures_getOwnedInstrumentsOfAccount {accountId : ℤ}
    {ok : List OwnedInstrument → Session → Prop} :
    @Ensures (List OwnedInstrument) environment
        (issue (.getOwnedInstrumentsOfAccount accountId)) ok fails session ↔
      session.rolledBack = false ∧ fails session.committed session.closedTrades ∧
        ok ((session.saved.ownedInstruments.rows.filter (·.accountId = accountId)).filterMap
          fun row => session.current.ownedInstruments.find? row.id) session := by
  rw [ensures_issue_of_answer (.getOwnedInstrumentsOfAccount accountId) fun _ _ => Iff.rfl]
  simp

theorem ensures_addOwnedInstrument {row : OwnedInstrument} {ok : Unit → Session → Prop} :
    @Ensures Unit environment (issue (.addOwnedInstrument row)) ok fails session ↔
      session.rolledBack = false ∧ fails session.committed session.closedTrades ∧
        ∀ id ∉ session.current.ownedInstruments.keys,
          ok () { session with current :=
            { session.current with ownedInstruments :=
              session.current.ownedInstruments.insert { row with id := id } } } := by
  rw [ensures_issue (.addOwnedInstrument row) fun _ _ => Iff.rfl]
  simp

theorem ensures_updateOwnedInstrument {row : OwnedInstrument} {ok : Unit → Session → Prop} :
    @Ensures Unit environment (issue (.updateOwnedInstrument row)) ok fails session ↔
      session.rolledBack = false ∧ row.id ∈ session.saved.ownedInstruments.keys ∧
        fails session.committed session.closedTrades ∧
        ok () { session with current :=
          { session.current with
            ownedInstruments := session.current.ownedInstruments.set row } } := by
  rw [ensures_issue_of_answer (.updateOwnedInstrument row) fun _ _ => Iff.rfl]
  simp [and_assoc]

theorem ensures_getProduct {productId : ℤ} {ok : Option Product → Session → Prop} :
    @Ensures (Option Product) environment (issue (.getProduct productId)) ok fails session ↔
      session.rolledBack = false ∧ fails session.committed session.closedTrades ∧
        ok (session.committed.products.find? productId) session := by
  rw [ensures_issue_of_answer (.getProduct productId) fun _ _ => Iff.rfl]
  simp

theorem ensures_getProducts {ok : List Product → Session → Prop} :
    @Ensures (List Product) environment (issue .getProducts) ok fails session ↔
      session.rolledBack = false ∧ fails session.committed session.closedTrades ∧
        ok session.committed.products.rows session := by
  rw [ensures_issue_of_answer .getProducts fun _ _ => Iff.rfl]
  simp

theorem ensures_getTradesWhere {filter : DateTime → Trade → Bool}
    {ok : List Trade → Session → Prop} :
    @Ensures (List Trade) environment (issue (.getTradesWhere filter)) ok fails session ↔
      session.rolledBack = false ∧ fails session.committed session.closedTrades ∧
        ∀ time, session.clock ≤ time →
          ok ((environment.order
            (session.saved.trades.rows.filter (filter time))).filterMap
              fun row => session.current.trades.find? row.id)
            { session with clock := time } := by
  rw [ensures_issue (.getTradesWhere filter) fun _ _ => Iff.rfl]
  simp

theorem ensures_addTrade {row : Trade} {ok : Unit → Session → Prop} :
    @Ensures Unit environment (issue (.addTrade row)) ok fails session ↔
      session.rolledBack = false ∧ fails session.committed session.closedTrades ∧
        ∀ id ∉ session.current.trades.keys,
          ok () { session with current :=
            { session.current with
              trades := session.current.trades.insert { row with id := id } } } := by
  rw [ensures_issue (.addTrade row) fun _ _ => Iff.rfl]
  simp

theorem ensures_updateTrade {row : Trade} {ok : Unit → Session → Prop} :
    @Ensures Unit environment (issue (.updateTrade row)) ok fails session ↔
      session.rolledBack = false ∧ row.id ∈ session.saved.trades.keys ∧
        fails session.committed session.closedTrades ∧
        ok () { session with current :=
          { session.current with trades := session.current.trades.set row } } := by
  rw [ensures_issue_of_answer (.updateTrade row) fun _ _ => Iff.rfl]
  simp [and_assoc]

theorem ensures_beginTransaction {ok : Unit → Session → Prop} :
    @Ensures Unit environment (issue .beginTransaction) ok fails session ↔
      session.rolledBack = false ∧ session.inTransaction = false ∧
        fails session.committed session.closedTrades ∧
        ok () { session with inTransaction := true } := by
  rw [ensures_issue_of_answer .beginTransaction fun _ _ => Iff.rfl]
  simp [and_assoc]

theorem ensures_saveChanges {ok : Unit → Session → Prop} :
    @Ensures Unit environment (issue .saveChanges) ok fails session ↔
      session.rolledBack = false ∧ session.inTransaction = true ∧
        fails session.committed session.closedTrades ∧
        ok () { session with saved := session.current } := by
  rw [ensures_issue_of_answer .saveChanges fun _ _ => Iff.rfl]
  simp [and_assoc]

theorem ensures_rollbackTransaction {ok : Unit → Session → Prop} :
    @Ensures Unit environment (issue .rollbackTransaction) ok fails session ↔
      session.rolledBack = false ∧ session.inTransaction = true ∧
        fails session.committed session.closedTrades ∧
        ok () { session with inTransaction := false, rolledBack := true } := by
  rw [ensures_issue_of_answer .rollbackTransaction fun _ _ => Iff.rfl]
  simp [and_assoc]

theorem ensures_getPricesByInstrumentId {id : ℤ} {count : ℕ} {ok : List Price → Session → Prop} :
    @Ensures (List Price) environment (issue (.getPricesByInstrumentId id count)) ok fails session ↔
      session.rolledBack = false ∧ fails session.committed session.closedTrades ∧
        ok (pricesOfResponse (environment.pricesByInstrumentId id count)) session := by
  rw [ensures_issue_of_answer (.getPricesByInstrumentId id count) fun _ _ => Iff.rfl]
  simp

theorem ensures_getLatestPrices {ok : List Price → Session → Prop} :
    @Ensures (List Price) environment (issue .getLatestPrices) ok fails session ↔
      session.rolledBack = false ∧ fails session.committed session.closedTrades ∧
        ok (pricesOfResponse environment.latestPrices) session := by
  rw [ensures_issue_of_answer .getLatestPrices fun _ _ => Iff.rfl]
  simp

theorem ensures_scoreTradeAsync {query : FraudQuery} {ok : ℚ → Session → Prop} :
    @Ensures ℚ environment (issue (.scoreTradeAsync query)) ok fails session ↔
      session.rolledBack = false ∧ fails session.committed session.closedTrades ∧
        ok (environment.fraudScore query) session := by
  rw [ensures_issue_of_answer (.scoreTradeAsync query) fun _ _ => Iff.rfl]
  simp

theorem ensures_utcNow {ok : DateTime → Session → Prop} :
    @Ensures DateTime environment (issue .utcNow) ok fails session ↔
      session.rolledBack = false ∧
        ∀ time, session.clock ≤ time → ok time { session with clock := time } := by
  rw [ensures_issue .utcNow fun _ _ => Iff.rfl]
  simp

theorem ensures_onTradeClosed {trade : Trade} {ok : Unit → Session → Prop} :
    @Ensures Unit environment (issue (.onTradeClosed trade)) ok fails session ↔
      session.rolledBack = false ∧
        ok () { session with closedTrades := session.closedTrades ++ [trade] } := by
  rw [ensures_issue_of_answer (.onTradeClosed trade) fun _ _ => Iff.rfl]
  simp

end Rules

end EasyTrade.Broker

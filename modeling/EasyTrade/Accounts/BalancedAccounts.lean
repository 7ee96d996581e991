import EasyTrade.Accounts.LoginService

/-!
# Accounts and their balances

An account and its balance are saved one after the other, each in a transaction of its
own.  When the balance cannot be saved the request is answered with an error, the account
is there all the same, and nothing ever adds its balance.
-/

namespace EasyTrade.Accounts

open EasyTrade.Program EasyTrade.Interleaving

/-- Every account has exactly one balance. -/
def AccountsDb.Balanced (db : AccountsDb) : Prop :=
  ∀ id ∈ db.accountIds, db.balances.keys.count id = 1

/-- Accounts and balances are what they were. -/
def AccountsDb.SameRows (before after : AccountsDb) : Prop :=
  after.accounts.rows = before.accounts.rows ∧ after.balances.rows = before.balances.rows

/-- Whether saving a balance has thrown. -/
def noteUnsaved : Note DbException Command.Answer Bool
  | _, .insertBalance _, .error _ => true
  | unsaved, _, _ => unsaved

abbrev notedStep (setting : Setting) : Semantics DbException Command.Answer (AccountsDb × Bool) :=
  noted (loginStep setting) noteUnsaved

/-- One request after the other. -/
def Serves (setting : Setting) (start final : AccountsDb × Bool) : Prop :=
  ∃ (request : Request) (outcome : Except DbException ActionResult),
    Exec (notedStep setting) (request.serve setting) start outcome final

section Statements

variable {db : AccountsDb} {account : Account} {balance : Balance} {id : ℤ}

theorem count_balances (db : AccountsDb) (id : ℤ) :
    db.balances.keys.count id = if id ∈ db.balances.keys then 1 else 0 := by
  split_ifs with hmem
  · exact List.count_eq_one_of_mem db.balances.keysNodup hmem
  · exact List.count_eq_zero_of_not_mem hmem

theorem balanced_iff : db.Balanced ↔ ∀ id ∈ db.accountIds, id ∈ db.balances.keys := by
  refine forall₂_congr fun id _ => ?_
  rw [count_balances]
  split_ifs with hmem
  · exact iff_of_true rfl hmem
  · exact iff_of_false not_false hmem

theorem accountIds_addAccount :
    (db.addAccount account).accountIds = db.accountIds ++ [db.accounts.next] := by
  rw [AccountsDb.accountIds, AccountsDb.addAccount, AutoTable.rows_insert, List.map_append]
  rfl

/-- The next id is new, and nobody has a balance under it. -/
theorem next_not_mem_accountIds : db.accounts.next ∉ db.accountIds := by
  intro hmem
  obtain ⟨old, hold, heq⟩ := List.mem_map.mp hmem
  exact absurd (db.accounts.below old hold) (by rw [heq]; exact lt_irrefl _)

theorem next_not_mem_balances : db.accounts.next ∉ db.balances.keys := fun hmem =>
  next_not_mem_accountIds (db.foreignKey _ hmem)

theorem not_balanced_addAccount : ¬ (db.addAccount account).Balanced := by
  intro hbalanced
  refine absurd (balanced_iff.mp hbalanced db.accounts.next ?_) next_not_mem_balances
  rw [accountIds_addAccount]
  exact List.mem_append_right _ (List.mem_singleton.mpr rfl)

/-- The account and its balance. -/
theorem mem_added : db.accounts.next ∈ (db.addAccount account).accountIds := by
  rw [accountIds_addAccount]
  exact List.mem_append_right _ (List.mem_singleton.mpr rfl)

def AccountsDb.addBoth (db : AccountsDb) (account : Account) : AccountsDb :=
  (db.addAccount account).addBalance ⟨db.accounts.next, 0⟩ mem_added

theorem balanced_addBoth : (db.addBoth account).Balanced ↔ db.Balanced := by
  have hids : (db.addBoth account).accountIds = db.accountIds ++ [db.accounts.next] :=
    accountIds_addAccount
  have hkeys : ∀ id, id ∈ (db.addBoth account).balances.keys ↔
      id ∈ db.balances.keys ∨ id = db.accounts.next := fun id => Table.mem_keys_insert
  rw [balanced_iff, balanced_iff, hids]
  constructor
  · intro hbalanced id hid
    rcases (hkeys id).mp (hbalanced id (List.mem_append_left _ hid)) with hold | rfl
    · exact hold
    · exact absurd hid next_not_mem_accountIds
  · intro hbalanced id hid
    rcases List.mem_append.mp hid with hold | hnew
    · exact (hkeys id).mpr (.inl (hbalanced id hold))
    · exact (hkeys id).mpr (.inr (List.mem_singleton.mp hnew))

theorem not_sameRows_addAccount : ¬ db.SameRows (db.addAccount account) := by
  intro hsame
  have hlength := congrArg List.length hsame.1
  rw [AccountsDb.addAccount, AutoTable.rows_insert, List.length_append] at hlength
  simp at hlength

end Statements

section Requests

variable {setting : Setting} {db : AccountsDb} {unsaved : Bool}

/-- How a request ends: an account has been added with its balance and is answered; nothing
has been saved; or the balance could not be saved and an error is answered. -/
inductive Ends (db : AccountsDb) (unsaved : Bool) (error : Bool) : AccountsDb × Bool → Prop
  | saved (account : Account) (hanswer : error = false) : Ends db unsaved error
      (db.addBoth account, unsaved)
  | nothing (hanswer : error = true) : Ends db unsaved error (db, unsaved)
  | half (account : Account) (hanswer : error = true) : Ends db unsaved error
      (db.addAccount account, true)

/-- A program run alone. -/
abbrev Runs {α : Type} (setting : Setting) (task : Task α)
    (post : Except DbException α → AccountsDb × Bool → Prop) (start : AccountsDb × Bool) : Prop :=
  wp (notedStep setting) (fun _ _ => True) task post start

theorem runs_perform {command : Command}
    {post : Except DbException command.Answer → AccountsDb × Bool → Prop}
    (hpost : ∀ answer db', Does setting command db answer db' →
      post answer (db', noteUnsaved unsaved command answer)) :
    Runs setting (perform command) post (db, unsaved) := by
  rw [perform, Runs, wp_perform]
  refine ⟨trivial, fun answer final hstep => ?_⟩
  obtain ⟨db', noted⟩ := final
  obtain ⟨hstep, rfl⟩ := hstep
  exact hpost answer db' (does_of_loginStep hstep)

theorem runs_saveWithBalance (account : Account) :
    Runs setting (saveWithBalance account)
      (fun outcome final => Ends db unsaved (!outcome.isOk) final) (db, unsaved) := by
  rw [saveWithBalance, Runs, wp_bind]
  refine runs_perform fun answer db' hdoes => ?_
  cases hdoes with
  | throws error => exact .nothing rfl
  | insertAccount hpackage =>
      rw [andThen_ok, wp_bind]
      refine runs_perform fun answer db' hdoes => ?_
      cases hdoes with
      | throws error => exact .half account rfl
      | insertBalance haccount hnew => exact .saved account rfl

theorem runs_now {task : DateTime → Task ActionResult}
    {post : Except DbException ActionResult → AccountsDb × Bool → Prop}
    (hthrows : ∀ error, post (.error error) (db, unsaved))
    (htask : ∀ time, Runs setting (task time) post (db, unsaved)) :
    Runs setting (perform .now >>= task) post (db, unsaved) := by
  rw [Runs, wp_bind]
  refine runs_perform fun answer db' hdoes => ?_
  cases hdoes with
  | throws error => exact hthrows error
  | now time => exact htask time

/-- Looking an account up changes nothing. -/
theorem runs_firstAccount {query : AccountQuery} {task : Option Account → Task ActionResult}
    {post : Except DbException ActionResult → AccountsDb × Bool → Prop}
    (hthrows : ∀ error, post (.error error) (db, unsaved))
    (htask : ∀ found, Runs setting (task found) post (db, unsaved)) :
    Runs setting (perform (.firstAccount query) >>= task) post (db, unsaved) := by
  rw [Runs, wp_bind]
  refine runs_perform fun answer db' hdoes => ?_
  cases hdoes with
  | throws error => exact hthrows error
  | finds hmem hselects => exact htask _
  | findsNone hnone => exact htask none

theorem runs_signup (request : SignupRequest) :
    Runs setting (SignupController.Signup setting request)
      (fun outcome final => Ends db unsaved (isErrorAnswer outcome) final) (db, unsaved) := by
  refine runs_firstAccount (fun _ => .nothing rfl) fun found => ?_
  cases found with
  | some account => exact .nothing rfl
  | none =>
      refine runs_now (fun _ => .nothing rfl) fun creation => ?_
      refine runs_now (fun _ => .nothing rfl) fun activation => ?_
      rw [Runs, wp_tryCatch, wp_bind]
      refine wp_mono (fun outcome final hends => ?_) (runs_saveWithBalance _)
      cases outcome <;> exact hends

theorem runs_createNewAccount (request : AccountRequest) :
    Runs setting (AccountsController.CreateNewAccount request)
      (fun outcome final => Ends db unsaved (isErrorAnswer outcome) final) (db, unsaved) := by
  refine runs_firstAccount (fun _ => .nothing rfl) fun found => ?_
  cases found with
  | some account => exact .nothing rfl
  | none =>
      refine runs_firstAccount (fun _ => .nothing rfl) fun found => ?_
      cases found with
      | some account => exact .nothing rfl
      | none =>
          refine runs_now (fun _ => .nothing rfl) fun creation => ?_
          refine runs_now (fun _ => .nothing rfl) fun activation => ?_
          rw [Runs, wp_bind]
          refine wp_mono (fun outcome final hends => ?_) (runs_saveWithBalance _)
          cases outcome <;> exact hends

theorem ends_of_exec {request : Request} {outcome : Except DbException ActionResult}
    {final : AccountsDb × Bool}
    (hexec : Exec (notedStep setting) (request.serve setting) (db, unsaved) outcome final) :
    Ends db unsaved (isErrorAnswer outcome) final := by
  have hwp : Runs setting (request.serve setting)
      (fun outcome final => Ends db unsaved (isErrorAnswer outcome) final) (db, unsaved) := by
    cases request with
    | signup request => exact runs_signup request
    | createNewAccount request => exact runs_createNewAccount request
  exact (wp_iff_forall_exec.mp hwp) outcome final hexec

/-- All accounts have their balances exactly when none has failed to be saved. -/
theorem Ends.balanced_iff {error : Bool} {final : AccountsDb × Bool}
    (hends : Ends db unsaved error final) (hstart : db.Balanced ↔ unsaved = false) :
    final.1.Balanced ↔ final.2 = false := by
  cases hends with
  | saved account => exact balanced_addBoth.trans hstart
  | nothing => exact hstart
  | half account => exact iff_of_false not_balanced_addAccount Bool.noConfusion

theorem Ends.sameRows_iff {final : AccountsDb × Bool} (hends : Ends db false true final) :
    db.SameRows final.1 ↔ final.2 = false := by
  cases hends with
  | saved account hanswer => cases hanswer
  | nothing => exact iff_of_true ⟨rfl, rfl⟩ rfl
  | half account => exact iff_of_false not_sameRows_addAccount Bool.noConfusion

end Requests

/-- When accounts come with their balances.  However requests follow each other and wherever
they throw, every account has exactly one balance exactly when saving a balance has never
thrown; and a request that is answered with an error has left all rows as they were
exactly when it is not this that has thrown. -/
theorem account_comes_with_balance {setting : Setting} {db : AccountsDb}
    {state : AccountsDb × Bool} (hbalanced : db.Balanced)
    (hserves : Relation.ReflTransGen (Serves setting) (db, false) state) :
    (state.1.Balanced ↔ state.2 = false) ∧
      ∀ (request : Request) (outcome : Except DbException ActionResult)
        (final : AccountsDb × Bool),
        Exec (notedStep setting) (request.serve setting) (state.1, false) outcome final →
          isErrorAnswer outcome = true → (state.1.SameRows final.1 ↔ final.2 = false) := by
  constructor
  · induction hserves with
    | refl => exact iff_of_true hbalanced rfl
    | tail _ hserve ih =>
        obtain ⟨request, outcome, hexec⟩ := hserve
        exact (ends_of_exec hexec).balanced_iff ih
  · intro request outcome final hexec herror
    have hends := ends_of_exec hexec
    rw [herror] at hends
    exact hends.sameRows_iff

/-! ## When the balance is not saved -/

/-- A username or an e-mail that is there is refused for good. -/
theorem not_signed_up_again {setting : Setting} {db : AccountsDb} {account : Account}
    {request : SignupRequest} {outcome : Except DbException ActionResult} {db' : AccountsDb}
    (hmem : account ∈ db.accounts.rows)
    (hsame : setting.Equals account.username request.username = true ∨
      setting.Equals account.email request.email = true)
    (hexec : Exec (loginStep setting) (SignupController.Signup setting request) db outcome db') :
    db' = db ∧ isErrorAnswer outcome = true := by
  have hwp : wp (loginStep setting) (fun _ _ => True) (SignupController.Signup setting request)
      (fun outcome final => final = db ∧ isErrorAnswer outcome = true) db := by
    rw [SignupController.Signup, wp_bind, perform, wp_perform]
    refine ⟨trivial, fun answer final hstep => ?_⟩
    cases does_of_loginStep hstep with
    | throws error => exact ⟨rfl, rfl⟩
    | finds hfound hselects => exact ⟨rfl, rfl⟩
    | findsNone hnone =>
        have hselects := hnone account hmem
        rw [AccountQuery.selects, Bool.or_eq_false_iff] at hselects
        rcases hsame with husername | hemail
        · rw [hselects.1] at husername
          cases husername
        · rw [hselects.2] at hemail
          cases hemail
  exact (wp_iff_forall_exec.mp hwp) outcome db' hexec

theorem Sample.balanced_db : Sample.db.Balanced := fun _ hid => absurd hid List.not_mem_nil

/-- Saving the balance throws: an error is answered and the account is there. -/
theorem account_without_balance :
    Sample.db.Balanced ∧
    ∃ (outcome : Except DbException ActionResult) (db : AccountsDb),
      Exec (loginStep Sample.setting) (SignupController.Signup Sample.setting Sample.signup)
        Sample.db outcome db ∧
      isErrorAnswer outcome = true ∧ ¬ Sample.db.SameRows db ∧ ¬ db.Balanced := by
  obtain ⟨outcome, db, hcheck, hexec⟩ := exists_exec (@loginStep_of_move Sample.setting)
    (SignupController.Signup Sample.setting Sample.signup)
    [.goes, .reads Sample.noon, .reads Sample.noon, .goes, .throws "timeout"] Sample.db
    (fun outcome db => isErrorAnswer outcome &&
      decide (db.accountIds = [1] ∧ db.balances.keys = []))
    (by decide +kernel)
  rw [Bool.and_eq_true, decide_eq_true_eq] at hcheck
  obtain ⟨herror, hids, hkeys⟩ := hcheck
  refine ⟨Sample.balanced_db, outcome, db, hexec, herror, fun hsame => ?_, fun hbalanced => ?_⟩
  · have hrows : db.accountIds = [] := congrArg (List.map Account.id) hsame.1
    rw [hids] at hrows
    cases hrows
  · have hone := hbalanced 1 (by rw [hids]; exact List.mem_singleton.mpr rfl)
    rw [hkeys] at hone
    cases hone

/-- Nothing throws; and whoever signs up again is answered with an error that changes nothing. -/
theorem account_comes_with_balance_again :
    ∃ db : AccountsDb, db.accountIds = [1] ∧ db.Balanced ∧
      ∃ (outcome : Except DbException ActionResult) (final : AccountsDb × Bool),
        Exec (notedStep Sample.setting) (Request.serve Sample.setting (.signup Sample.signup))
          (db, false) outcome final ∧
        isErrorAnswer outcome = true ∧ db.SameRows final.1 := by
  let program := Request.serve Sample.setting (.signup Sample.signup)
  let stored : Account := ⟨1, 1, "Jane", "Doe", "jane", "jane@mail.ail", "secret", "web",
    Sample.noon, Sample.noon, true, "Box 13"⟩
  let follow := attempt (Command.move Sample.setting) noteUnsaved (fun _ _ _ => True)
  have hmove : ∀ command choice state answer state',
      follow command choice state = some (answer, state') →
        notedStep Sample.setting command state answer state' :=
    fun command choice state answer state' h =>
      (noted_of_attempt loginStep_of_move command choice state answer state' h).2
  let refused : Except DbException ActionResult → AccountsDb × Bool → Bool :=
    fun outcome final => isErrorAnswer outcome && !final.2
  obtain ⟨outcome, signedUp, hcheck, hexec⟩ := exists_exec hmove program
    [.goes, .reads Sample.noon, .reads Sample.noon, .goes, .goes] (Sample.db, false)
    (fun _ signedUp => decide (signedUp.1.accountIds = [1] ∧ signedUp.2 = false) &&
      (replay follow program [.finds stored] (signedUp.1, false)).any
        fun result => refused result.1 result.2)
    (by decide +kernel)
  rw [Bool.and_eq_true, decide_eq_true_eq] at hcheck
  obtain ⟨⟨hids, hsaved⟩, hagain⟩ := hcheck
  obtain ⟨answer, final, hrefused, hsecond⟩ :=
    exists_exec hmove program [.finds stored] (signedUp.1, false) refused hagain
  rw [Bool.and_eq_true, Bool.not_eq_true'] at hrefused
  have hserves : Serves Sample.setting (Sample.db, false) signedUp := ⟨_, outcome, hexec⟩
  obtain ⟨hbalanced, hanswers⟩ := account_comes_with_balance Sample.balanced_db (.single hserves)
  exact ⟨signedUp.1, hids, hbalanced.mpr hsaved, answer, final, hsecond, hrefused.1,
    (hanswers _ answer final hsecond hrefused.1).mpr hrefused.2⟩

end EasyTrade.Accounts

import EasyTrade.Accounts.UniqueNames

/-!
# Logging in

Who has opened an account logs in with the password it has been opened with, or, when the
account came with a hash, with a password that has this hash.  Nobody else gets in, whatever
other accounts are opened at the same time.
-/

namespace EasyTrade.Accounts

open EasyTrade.Program EasyTrade.Interleaving

structure LoginRequest where
  username : String
  password : String
  deriving DecidableEq

inductive LoginResult
  | notFound (error : String)
  | okId (id : ℤ)
  deriving DecidableEq

namespace LoginController

/-- The hashes are compared by the service, as texts. -/
def Login (setting : Setting) (request : LoginRequest) : Task LoginResult := do
  match ← perform (.firstAccount (.byUsername request.username)) with
  | none => return .notFound "Invalid username or password"
  | some account =>
      let hashString := setting.hash request.password
      if account.hashedPassword = hashString then
        return .okId account.id
      else
        return .notFound "Invalid username or password"

end LoginController

/-! ## What the requests store -/

/-- The username of the account that a request opens. -/
def Request.username : Request → String
  | signup request => request.username
  | createNewAccount request => request.username

/-- The password of the account that a request opens, as it is stored. -/
def Request.storedPassword (setting : Setting) : Request → String
  | signup request => setting.hash request.password
  | createNewAccount request => request.hashedPassword

/-- The id that a request is answered with. -/
def ActionResult.id? : ActionResult → Option ℤ
  | badRequest _ => none
  | createdId id => some id
  | createdAccount account => some account.id

/-- What a request has looked up, and the account it has inserted. -/
structure Opening where
  lookups : LookedUp
  inserted : Option Account

def Opening.empty : Opening := ⟨[], none⟩

def noteOpening : Note DbException Command.Answer Opening
  | opening, .insertAccount account, .ok id =>
      { opening with inserted := some (account.withId id) }
  | opening, command, answer =>
      { opening with lookups := noteLookup opening.lookups command answer }

/-- When an account is inserted, what its request has looked up is still not there. -/
def opensAsLookedUp (setting : Setting) :
    Condition DbException Command.Answer (AccountsDb × Opening) :=
  fun command start answer => insertsAsLookedUp setting command (start.1, start.2.lookups) answer

instance (setting : Setting) (command : Command) (start : AccountsDb × Opening)
    (answer : Except DbException command.Answer) :
    Decidable (opensAsLookedUp setting command start answer) :=
  inferInstanceAs (Decidable (insertsAsLookedUp setting _ _ _))

theorem lookups_noteOpening (opening : Opening) (command : Command)
    (answer : Except DbException command.Answer) :
    (noteOpening opening command answer).lookups =
      noteLookup opening.lookups command answer := by
  cases command <;> cases answer <;> rfl

/-- The account that a request says it has inserted is in the table, and is the only one with
its username. -/
def Opening.Holds (setting : Setting) (opening : Opening) (db : AccountsDb) : Prop :=
  ∀ account, opening.inserted = some account → account ∈ db.accounts.rows ∧
    ∀ other ∈ db.accounts.rows,
      setting.Equals other.username account.username = true → other = account

section Requests

variable {setting : Setting} {opening : Opening}

/-- The request has inserted an account with its username and password, and answers with the
id of that account. -/
def Opened (setting : Setting) (request : Request) (outcome : Except DbException ActionResult)
    (opening : Opening) : Prop :=
  ∀ result id, outcome = .ok result → result.id? = some id →
    ∃ account, opening.inserted = some account ∧ account.id = id ∧
      account.username = request.username ∧
      account.hashedPassword = request.storedPassword setting

abbrev Opens {α : Type} (task : Task α) (post : Except DbException α → Opening → Prop)
    (opening : Opening) : Prop :=
  wp (remembers (fun _ _ _ => True) noteOpening) (fun _ _ => True) task post opening

theorem opens_perform {command : Command}
    {post : Except DbException command.Answer → Opening → Prop}
    (hok : ∀ value, post (.ok value) (noteOpening opening command (.ok value)))
    (herror : ∀ error opening, post (.error error) opening) :
    Opens (perform command) post opening :=
  wp_remembers_perform.mpr ⟨trivial, fun value _ => hok value, fun error _ => herror error _⟩

theorem opens_saveWithBalance {account : Account} :
    Opens (saveWithBalance account) (fun outcome opening => ∀ id, outcome = .ok id →
      opening.inserted = some (account.withId id)) opening := by
  rw [saveWithBalance, Opens, wp_bind]
  refine opens_perform (fun id => ?_) fun error _ _ h => by cases h
  rw [andThen_ok, wp_bind]
  refine opens_perform (fun _ other hother => ?_) fun error _ _ h => by cases h
  cases hother
  rfl

theorem opens_serve (request : Request) :
    Opens (request.serve setting) (Opened setting request) opening := by
  have herror : ∀ (error : DbException) (opening : Opening),
      Opened setting request (.error error) opening := fun error _ _ _ h => by cases h
  have hbad : ∀ message (opening : Opening),
      Opened setting request (.ok (.badRequest message)) opening := fun message _ _ _ h hid => by
    cases h
    cases hid
  cases request with
  | signup request =>
      rw [Request.serve, SignupController.Signup, Opens, wp_bind]
      refine opens_perform (fun found => ?_) herror
      cases found with
      | some account => exact hbad _ _
      | none =>
          rw [andThen_ok]
          dsimp only
          rw [wp_bind]
          refine opens_perform (fun creation => ?_) herror
          rw [andThen_ok, wp_bind]
          refine opens_perform (fun activation => ?_) herror
          rw [andThen_ok, wp_tryCatch, wp_bind]
          refine wp_mono (fun outcome final hfinal => ?_) opens_saveWithBalance
          cases outcome with
          | error error => exact hbad _ _
          | ok id =>
              rintro result other hresult hid
              cases hresult
              cases hid
              exact ⟨_, hfinal id rfl, rfl, rfl, rfl⟩
  | createNewAccount request =>
      rw [Request.serve, AccountsController.CreateNewAccount, Opens, wp_bind]
      refine opens_perform (fun found => ?_) herror
      cases found with
      | some account => exact hbad _ _
      | none =>
          rw [andThen_ok]
          dsimp only
          rw [wp_bind]
          refine opens_perform (fun found => ?_) herror
          cases found with
          | some account => exact hbad _ _
          | none =>
              rw [andThen_ok]
              dsimp only
              rw [wp_bind]
              refine opens_perform (fun creation => ?_) herror
              rw [andThen_ok, wp_bind]
              refine opens_perform (fun activation => ?_) herror
              rw [andThen_ok, wp_bind]
              refine wp_mono (fun outcome final hfinal => ?_) opens_saveWithBalance
              cases outcome with
              | error error => exact herror _ _
              | ok id =>
                  rintro result other hresult hid
                  cases hresult
                  cases hid
                  exact ⟨_, hfinal id rfl, rfl, rfl, rfl⟩

end Requests

/-! ## Everybody at the same time -/

section System

variable {setting : Setting} {requests : ℕ → Request} {db : AccountsDb}
variable {system : LoginSystem Opening}

theorem equals_symm {left right : String} (hequal : setting.Equals left right = true) :
    setting.Equals right left = true :=
  decide_eq_true (of_decide_eq_true hequal).symm

theorem equals_trans {left middle right : String}
    (hleft : setting.Equals left middle = true) (hright : setting.Equals middle right = true) :
    setting.Equals left right = true :=
  decide_eq_true ((of_decide_eq_true hleft).trans (of_decide_eq_true hright))

/-- A new account under another username changes nothing for the accounts that are there. -/
theorem Opening.Holds.addAccount {opening : Opening} (hholds : opening.Holds setting db)
    {new : Account} (hnew : ∀ other ∈ db.accounts.rows,
      ¬ setting.Equals other.username new.username = true) :
    opening.Holds setting (db.addAccount new) := by
  intro account hinserted
  obtain ⟨hmem, honly⟩ := hholds account hinserted
  rw [AccountsDb.addAccount, AutoTable.rows_insert]
  refine ⟨List.mem_append_left _ hmem, fun other hother hequal => ?_⟩
  rcases List.mem_append.mp hother with hold | hself
  · exact honly other hold hequal
  · rw [List.mem_singleton.mp hself] at hequal
    exact absurd (equals_symm hequal) (hnew account hmem)

/-- The account that has just been inserted under a username that nobody had. -/
theorem holds_inserted {lookups : LookedUp} {new : Account} (hnew : ∀ other ∈ db.accounts.rows,
      ¬ setting.Equals other.username new.username = true) :
    Opening.Holds setting ⟨lookups, some (new.withId db.accounts.next)⟩ (db.addAccount new) := by
  intro account hinserted
  cases hinserted
  rw [AccountsDb.addAccount, AutoTable.rows_insert]
  refine ⟨List.mem_append_right _ List.mem_cons_self, fun other hother hequal => ?_⟩
  rcases List.mem_append.mp hother with hold | hself
  · exact absurd hequal (hnew other hold)
  · exact List.mem_singleton.mp hself

/-- The step: accounts are only ever added, under usernames that nobody has. -/
theorem guarantees_opening :
    Guarantees (ι := ℕ) (loginStep setting) noteOpening (opensAsLookedUp setting)
      (fun _ => True) (fun _ db opening => opening.Holds setting db)
      (fun _ command opening => lookupGuard setting command opening.lookups) := by
  intro n command db opening answer db' _ hholds hguard hallowed hstep
  cases does_of_loginStep hstep with
  | insertAccount hpackage =>
      have hcovers : Covers setting opening.lookups _ := hguard
      have hnew := fun other hother hequal =>
        hcovers.not_equals (hallowed rfl) other hother (.inl hequal)
      exact ⟨trivial, holds_inserted hnew, fun j _ other hother => hother.addAccount hnew⟩
  | insertBalance haccount hnew => exact ⟨trivial, hholds, fun _ _ _ hother => hother⟩
  | throws error =>
      refine ⟨trivial, ?_, fun _ _ _ hother => hother⟩
      cases command <;> exact hholds
  | _ => exact ⟨trivial, hholds, fun _ _ _ hother => hother⟩

/-- What a request that has been answered with an id has put into the table. -/
theorem opened_of_reaches
    (hreaches : ReachesWhen (loginStep setting) noteOpening (opensAsLookedUp setting)
      (loginStart setting requests Opening.empty db) system)
    {n : ℕ} {result : ActionResult} {id : ℤ}
    (hdone : (system.threads n).rest = .done result) (hid : result.id? = some id) :
    ∃ account ∈ system.shared.accounts.rows, account.id = id ∧
      account.username = (requests n).username ∧
      account.hashedPassword = (requests n).storedPassword setting ∧
      ∀ other ∈ system.shared.accounts.rows,
        setting.Equals other.username account.username = true → other = account := by
  have hstart : Upheld (fun _ _ _ => True) noteOpening (fun _ : AccountsDb => True)
      (fun _ db opening => opening.Holds setting db)
      (fun _ command opening => lookupGuard setting command opening.lookups)
      (loginStart setting requests Opening.empty db) := by
    refine ⟨trivial, fun _ _ hinserted => absurd hinserted (Option.some_ne_none _).symm,
      fun n => ?_⟩
    exact wp_of_view Opening.lookups lookups_noteOpening (fun _ _ _ _ => trivial)
      (looksFirst_serve (requests n))
  have hupheld := hstart.reaches (fun _ _ _ _ _ => trivial) guarantees_opening hreaches
  have hwp := wp_rest_of_reaches (fun n => Opened setting (requests n))
    (fun _ _ _ _ _ => trivial) (fun n => opens_serve (requests n)) hreaches n
  rw [hdone] at hwp
  obtain ⟨account, hinserted, hsame, husername, hpassword⟩ := hwp result id rfl hid
  obtain ⟨hmem, honly⟩ := hupheld.memory n account hinserted
  exact ⟨account, hmem, hsame, husername, hpassword, honly⟩

/-- The answer of a login when there is one account with the username. -/
theorem exec_login {login : LoginRequest} {account : Account} {final : AccountsDb}
    {outcome : Except DbException LoginResult} (hmem : account ∈ db.accounts.rows)
    (honly : ∀ other ∈ db.accounts.rows,
      setting.Equals other.username account.username = true → other = account)
    (hname : setting.Equals account.username login.username = true)
    (hexec : Exec (loginStep setting) (LoginController.Login setting login) db outcome final) :
    final = db ∧ ((∃ error, outcome = .error error) ∨
      outcome = .ok (if account.hashedPassword = setting.hash login.password then .okId account.id
        else .notFound "Invalid username or password")) := by
  obtain ⟨answer, middle, hstep, hrest⟩ := hexec
  cases does_of_loginStep hstep with
  | throws error =>
      obtain ⟨rfl, rfl⟩ := hrest
      exact ⟨rfl, .inl ⟨error, rfl⟩⟩
  | findsNone hnone =>
      have habsent := hnone account hmem
      rw [AccountQuery.selects, hname] at habsent
      cases habsent
  | @finds _ _ found hfound hselects =>
      obtain rfl : found = account :=
        honly found hfound (equals_trans hselects (equals_symm hname))
      change Exec _ (if _ then _ else _) _ _ _ at hrest
      split_ifs at hrest with hpassword
      · obtain ⟨rfl, rfl⟩ := hrest
        exact ⟨rfl, .inr (by rw [if_pos hpassword])⟩
      · obtain ⟨rfl, rfl⟩ := hrest
        exact ⟨rfl, .inr (by rw [if_neg hpassword])⟩

/-- Whoever has been told the id of a new account is logged in as that account with a password
that has the stored hash, and with no other, whatever other requests there are. -/
theorem login_after_opening
    (hreaches : ReachesWhen (loginStep setting) noteOpening (opensAsLookedUp setting)
      (loginStart setting requests Opening.empty db) system)
    {n : ℕ} {result : ActionResult} {id : ℤ}
    (hdone : (system.threads n).rest = .done result) (hid : result.id? = some id)
    {login : LoginRequest} (hname : setting.Equals (requests n).username login.username = true)
    {outcome : Except DbException LoginResult} {final : AccountsDb}
    (hexec : Exec (loginStep setting) (LoginController.Login setting login) system.shared outcome
      final) :
    final = system.shared ∧ ((∃ error, outcome = .error error) ∨
      outcome = .ok (if (requests n).storedPassword setting = setting.hash login.password then
        .okId id else .notFound "Invalid username or password")) := by
  obtain ⟨account, hmem, rfl, husername, hpassword, honly⟩ :=
    opened_of_reaches hreaches hdone hid
  rw [← husername] at hname
  rw [← hpassword]
  exact exec_login hmem honly hname hexec

end System

namespace Sample

/-- Jane's account, as the first request leaves it. -/
def jane : Account :=
  ⟨1, 1, "Jane", "Doe", "jane", "jane@mail.ail", "secret", "web", noon, noon, true, "Box 13"⟩

/-- What a thread has returned. -/
def returned : Task ActionResult → Option ActionResult
  | .done result => some result
  | _ => none

theorem eq_done_of_returned {task : Task ActionResult} {result : ActionResult}
    (hreturned : returned task = some result) : task = .done result := by
  cases task with
  | done value =>
      cases hreturned
      rfl
  | raise error => cases hreturned
  | call command next => cases hreturned

end Sample

/-- Jane signs up, and logs in under a name that the collation does not tell from hers. -/
theorem login_after_opening_jane :
    ∃ system : LoginSystem Opening,
      Exec (loginStep Sample.setting) (LoginController.Login Sample.setting ⟨"JANE", "secret"⟩)
        system.shared (.ok (.okId 1)) system.shared ∧
      ((∃ error, (.ok (.okId 1) : Except DbException LoginResult) = .error error) ∨
        (.ok (.okId 1) : Except DbException LoginResult) = .ok (if "secret" = "secret" then .okId 1
          else .notFound "Invalid username or password")) := by
  obtain ⟨system, hcheck, hreaches⟩ := exists_reachesWhen (@loginStep_of_move Sample.setting)
    noteOpening (opensAsLookedUp Sample.setting)
    (loginStart Sample.setting Sample.requests Opening.empty Sample.db)
    [(0, .goes), (0, .reads Sample.noon), (0, .reads Sample.noon), (0, .goes), (0, .goes)]
    (fun system => decide (Sample.returned (system.threads 0).rest = some (.createdId 1) ∧
      Sample.jane ∈ system.shared.accounts.rows))
    (by decide +kernel)
  obtain ⟨hreturned, hjane⟩ := of_decide_eq_true hcheck
  have hdone := Sample.eq_done_of_returned hreturned
  have hname : Sample.setting.Equals (Sample.requests 0).username "JANE" = true := by
    decide +kernel
  have hexec : Exec (loginStep Sample.setting)
      (LoginController.Login Sample.setting ⟨"JANE", "secret"⟩) system.shared (.ok (.okId 1))
        system.shared :=
    ⟨.ok (some Sample.jane), system.shared, ⟨.finds Sample.jane, if_pos ⟨hjane, hname⟩⟩, rfl, rfl⟩
  exact ⟨system, hexec, (login_after_opening hreaches hdone rfl hname hexec).2⟩

end EasyTrade.Accounts

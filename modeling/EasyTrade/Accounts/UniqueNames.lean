import EasyTrade.Accounts.LoginService

/-!
# Usernames and e-mails

An account is only inserted when its username and its e-mail have not been found, but
nothing keeps them from being inserted by somebody else in the meantime.  As long as what
a request has looked up is still not there when it inserts its account, no two accounts
have the same username or the same e-mail.
-/

namespace EasyTrade.Accounts

open EasyTrade.Program EasyTrade.Interleaving

/-- No two accounts have the same username, and no two the same e-mail, as far as `view`
tells them apart. -/
structure Distinct {κ : Type} (view : String → κ) (accounts : List Account) : Prop where
  usernames : (accounts.map fun account => view account.username).Nodup
  emails : (accounts.map fun account => view account.email).Nodup

/-- What a request has looked up without finding an account. -/
abbrev LookedUp := List AccountQuery

def noteLookup : Note DbException Command.Answer LookedUp
  | lookups, .firstAccount query, .ok none => query :: lookups
  | lookups, _, _ => lookups

/-- When an account is inserted, what its request has looked up is still not there. -/
def insertsAsLookedUp (setting : Setting) :
    Condition DbException Command.Answer (AccountsDb × LookedUp)
  | .insertAccount _, start, answer => answer.isOk = true →
      ∀ query ∈ start.2, ∀ account ∈ start.1.accounts.rows, query.selects setting account = false
  | _, _, _ => True

instance (setting : Setting) (command : Command) (start : AccountsDb × LookedUp)
    (answer : Except DbException command.Answer) :
    Decidable (insertsAsLookedUp setting command start answer) := by
  cases command <;> unfold insertsAsLookedUp <;> infer_instance

/-- Whoever has the username or the e-mail would have been found. -/
def Covers (setting : Setting) (lookups : LookedUp) (account : Account) : Prop :=
  ∀ other : Account, setting.Equals other.username account.username = true ∨
    setting.Equals other.email account.email = true →
      ∃ query ∈ lookups, query.selects setting other = true

def lookupGuard (setting : Setting) : Command → LookedUp → Prop
  | .insertAccount account, lookups => Covers setting lookups account
  | _, _ => True

section Statements

variable {κ : Type} {view : String → κ} {setting : Setting} {db : AccountsDb} {account : Account}
variable {lookups : LookedUp}

theorem nodup_concat {accounts : List Account} {column : Account → κ} {new : Account}
    (hnodup : (accounts.map column).Nodup) (hnew : ∀ old ∈ accounts, column old ≠ column new) :
    ((accounts ++ [new]).map column).Nodup := by
  rw [List.map_append, List.map_singleton]
  refine hnodup.append (List.nodup_singleton _) (List.disjoint_singleton.mpr fun hmem => ?_)
  obtain ⟨old, hold, heq⟩ := List.mem_map.mp hmem
  exact hnew old hold heq

/-- Nobody has the username or the e-mail as long as what was looked up is not there. -/
theorem Covers.not_equals (hcovers : Covers setting lookups account)
    (hstill : ∀ query ∈ lookups, ∀ other ∈ db.accounts.rows,
      query.selects setting other = false) :
    ∀ other ∈ db.accounts.rows, ¬ (setting.Equals other.username account.username = true ∨
      setting.Equals other.email account.email = true) := by
  intro other hother hsame
  obtain ⟨query, hquery, hselects⟩ := hcovers other hsame
  rw [hstill query hquery other hother] at hselects
  cases hselects

/-- An account whose username and e-mail are not there can be added. -/
theorem Distinct.addAccount
    (hview : ∀ left right, view left = view right → setting.weight left = setting.weight right)
    (hdistinct : Distinct view db.accounts.rows) (hcovers : Covers setting lookups account)
    (hstill : ∀ query ∈ lookups, ∀ other ∈ db.accounts.rows,
      query.selects setting other = false) :
    Distinct view (db.addAccount account).accounts.rows := by
  have hnew := hcovers.not_equals hstill
  refine ⟨nodup_concat hdistinct.usernames fun other hother heq => ?_,
    nodup_concat hdistinct.emails fun other hother heq => ?_⟩
  · exact hnew other hother (.inl (decide_eq_true (hview _ _ heq)))
  · exact hnew other hother (.inr (decide_eq_true (hview _ _ heq)))

theorem guarantees_distinct
    (hview : ∀ left right, view left = view right → setting.weight left = setting.weight right) :
    Guarantees (ι := ℕ) (loginStep setting) noteLookup (insertsAsLookedUp setting)
      (fun db => Distinct view db.accounts.rows) (fun _ _ _ => True)
      (fun _ => lookupGuard setting) := by
  intro n command db lookups answer db' hdistinct _ hguard hallowed hstep
  refine ⟨?_, trivial, fun _ _ _ _ => trivial⟩
  cases does_of_loginStep hstep with
  | insertAccount hpackage => exact hdistinct.addAccount hview hguard (hallowed rfl)
  | insertBalance haccount hnew => exact hdistinct
  | _ => exact hdistinct

end Statements

section Requests

variable {setting : Setting} {lookups : LookedUp}

/-- Whatever it reads, a program only inserts accounts that it has looked up. -/
abbrev LooksFirst {α : Type} (setting : Setting) (task : Task α) (lookups : LookedUp) : Prop :=
  wp (remembers (fun _ _ _ => True) noteLookup) (lookupGuard setting) task (fun _ _ => True)
    lookups

theorem looksFirst_saveWithBalance {account : Account} (hcovers : Covers setting lookups account) :
    LooksFirst setting (saveWithBalance account) lookups := by
  rw [saveWithBalance, LooksFirst, wp_bind, perform, wp_remembers_perform]
  refine ⟨hcovers, fun id _ => ?_, fun _ _ => trivial⟩
  rw [andThen_ok, wp_bind, perform, wp_remembers_perform]
  exact ⟨trivial, fun _ _ => trivial, fun _ _ => trivial⟩

/-- One lookup is for both. -/
theorem covers_signup (request : SignupRequest) (creation activation : DateTime) :
    Covers setting (.byUsernameOrEmail request.username request.email :: lookups)
      (.ofSignupRequest { request with password := setting.hash request.password } creation
        activation) := by
  intro other hsame
  refine ⟨_, List.mem_cons_self, ?_⟩
  rw [AccountQuery.selects, Bool.or_eq_true]
  exact hsame

/-- Each has a lookup of its own. -/
theorem covers_createNewAccount (request : AccountRequest) (creation activation : DateTime) :
    Covers setting (.byEmail request.email :: .byUsername request.username :: lookups)
      (.ofAccountRequest request creation activation) := by
  intro other hsame
  rcases hsame with husername | hemail
  · exact ⟨_, List.mem_cons_of_mem _ List.mem_cons_self, husername⟩
  · exact ⟨_, List.mem_cons_self, hemail⟩

theorem looksFirst_signup (request : SignupRequest) :
    LooksFirst setting (SignupController.Signup setting request) lookups := by
  rw [SignupController.Signup, LooksFirst, wp_bind, perform, wp_remembers_perform]
  refine ⟨trivial, fun found _ => ?_, fun _ _ => trivial⟩
  cases found with
  | some account => trivial
  | none =>
      rw [andThen_ok]
      dsimp only
      rw [wp_bind, perform, wp_remembers_perform]
      refine ⟨trivial, fun creation _ => ?_, fun _ _ => trivial⟩
      rw [andThen_ok, wp_bind, wp_remembers_perform]
      refine ⟨trivial, fun activation _ => ?_, fun _ _ => trivial⟩
      rw [andThen_ok, wp_tryCatch, wp_bind]
      refine wp_mono (fun outcome final _ => ?_)
        (looksFirst_saveWithBalance (covers_signup request creation activation))
      cases outcome <;> trivial

theorem looksFirst_createNewAccount (request : AccountRequest) :
    LooksFirst setting (AccountsController.CreateNewAccount request) lookups := by
  rw [AccountsController.CreateNewAccount, LooksFirst, wp_bind, perform, wp_remembers_perform]
  refine ⟨trivial, fun found _ => ?_, fun _ _ => trivial⟩
  cases found with
  | some account => trivial
  | none =>
      rw [andThen_ok]
      dsimp only
      rw [wp_bind, perform, wp_remembers_perform]
      refine ⟨trivial, fun found _ => ?_, fun _ _ => trivial⟩
      cases found with
      | some account => trivial
      | none =>
          rw [andThen_ok]
          dsimp only
          rw [wp_bind, perform, wp_remembers_perform]
          refine ⟨trivial, fun creation _ => ?_, fun _ _ => trivial⟩
          rw [andThen_ok, wp_bind, wp_remembers_perform]
          refine ⟨trivial, fun activation _ => ?_, fun _ _ => trivial⟩
          rw [andThen_ok, wp_bind]
          refine wp_mono (fun outcome final _ => ?_)
            (looksFirst_saveWithBalance (covers_createNewAccount request creation activation))
          cases outcome <;> trivial

theorem looksFirst_serve (request : Request) :
    LooksFirst setting (request.serve setting) lookups := by
  cases request with
  | signup request => exact looksFirst_signup request
  | createNewAccount request => exact looksFirst_createNewAccount request

end Requests

/-- Usernames and e-mails stay unique, whether they are compared as texts or by the
collation, in every interleaving of requests in which what a request has looked up is
still not there when it inserts its account. -/
theorem usernames_and_emails_unique {κ : Type} {view : String → κ} {setting : Setting}
    (hview : ∀ left right, view left = view right → setting.weight left = setting.weight right)
    {requests : ℕ → Request} {db : AccountsDb} {system : LoginSystem LookedUp}
    (hdistinct : Distinct view db.accounts.rows)
    (hreaches : ReachesWhen (loginStep setting) noteLookup (insertsAsLookedUp setting)
      (loginStart setting requests [] db) system) :
    Distinct view system.shared.accounts.rows := by
  have hstart : Upheld (fun _ _ _ => True) noteLookup
      (fun db : AccountsDb => Distinct view db.accounts.rows) (fun _ _ _ => True)
      (fun _ => lookupGuard setting) (loginStart setting requests [] db) :=
    ⟨hdistinct, fun _ => trivial, fun n => looksFirst_serve (requests n)⟩
  exact (hstart.reaches (fun _ _ _ _ _ => trivial) (guarantees_distinct hview) hreaches).shared

/-! ## Two requests at the same time -/

namespace Sample

/-- The same person in two ways, which the collation does not tell apart. -/
def requests (n : ℕ) : Request :=
  if n = 0 then .signup signup
  else .createNewAccount ⟨1, "Jane", "Doe", "Jane", "jane@mail.ail", "f7d0", "web", "Box 13"⟩

end Sample

/-- Both requests look before either of them inserts. -/
theorem email_used_twice :
    Distinct id Sample.db.accounts.rows ∧
    ∃ system : LoginSystem Unit,
      ReachesWhen (loginStep Sample.setting) (fun _ _ _ => ()) (fun _ _ _ => True)
        (loginStart Sample.setting Sample.requests () Sample.db) system ∧
      system.shared.accounts.rows.map Account.email = ["jane@mail.ail", "jane@mail.ail"] ∧
      ¬ Distinct id system.shared.accounts.rows := by
  obtain ⟨system, hcheck, hreaches⟩ := exists_reachesWhen (@loginStep_of_move Sample.setting)
    (fun _ _ _ => ()) (fun _ _ _ => True) (loginStart Sample.setting Sample.requests () Sample.db)
    [(0, .goes), (1, .goes), (1, .goes), (0, .reads Sample.noon), (1, .reads Sample.noon),
      (0, .reads Sample.noon), (1, .reads Sample.noon), (0, .goes), (1, .goes), (0, .goes),
      (1, .goes)]
    (fun system => decide (system.shared.accounts.rows.map Account.email =
      ["jane@mail.ail", "jane@mail.ail"]))
    (by decide +kernel)
  have hemails := of_decide_eq_true hcheck
  refine ⟨⟨List.nodup_nil, List.nodup_nil⟩, system, hreaches, hemails, fun hdistinct => ?_⟩
  have hnodup : (system.shared.accounts.rows.map Account.email).Nodup := hdistinct.emails
  rw [hemails] at hnodup
  exact absurd hnodup (by decide)

/-- Another person signs up at the same time, and the first one again. -/
def Sample.newcomers (n : ℕ) : Request :=
  if n = 1 then
    .createNewAccount ⟨1, "John", "Roe", "john", "john@mail.ail", "f7d1", "web", "Box 14"⟩
  else Sample.requests n

/-- Two accounts are inserted by requests that overlap; the third request finds the first. -/
theorem usernames_and_emails_unique_newcomers :
    ∃ system : LoginSystem LookedUp, (∀ n < 3, (system.threads n).finished = true) ∧
      system.shared.accounts.rows.map Account.email = ["jane@mail.ail", "john@mail.ail"] ∧
      Distinct Sample.setting.weight system.shared.accounts.rows := by
  obtain ⟨system, hcheck, hreaches⟩ := exists_reachesWhen (@loginStep_of_move Sample.setting)
    noteLookup (insertsAsLookedUp Sample.setting)
    (loginStart Sample.setting Sample.newcomers [] Sample.db)
    [(0, .goes), (1, .goes), (1, .goes), (0, .reads Sample.noon), (1, .reads Sample.noon),
      (0, .reads Sample.noon), (1, .reads Sample.noon), (0, .goes), (1, .goes), (0, .goes),
      (1, .goes),
      (2, .finds ⟨1, 1, "Jane", "Doe", "jane", "jane@mail.ail", "secret", "web", Sample.noon,
        Sample.noon, true, "Box 13"⟩)]
    (fun system => (system.threads 0).finished && (system.threads 1).finished &&
      (system.threads 2).finished &&
      decide (system.shared.accounts.rows.map Account.email =
        ["jane@mail.ail", "john@mail.ail"]))
    (by decide +kernel)
  simp only [Bool.and_eq_true, decide_eq_true_eq] at hcheck
  obtain ⟨⟨⟨hfirst, hsecond⟩, hthird⟩, hemails⟩ := hcheck
  have hdistinct : Distinct Sample.setting.weight Sample.db.accounts.rows :=
    ⟨List.nodup_nil, List.nodup_nil⟩
  refine ⟨system, fun n hn => ?_, hemails,
    usernames_and_emails_unique (fun _ _ h => h) hdistinct hreaches⟩
  interval_cases n
  exacts [hfirst, hsecond, hthird]

end EasyTrade.Accounts

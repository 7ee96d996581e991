import EasyTrade.Core.AutoTable
import EasyTrade.Core.RelyGuarantee
import EasyTrade.Core.Table
import EasyTrade.Accounts.Entities

/-!
# The login service

Both ways to open an account look for the username and the e-mail first and then save the
account and its balance, each on its own.  Texts are compared by the collation of their
columns, and neither username nor e-mail is a key.
-/

namespace EasyTrade.Accounts

open EasyTrade.Program EasyTrade.Interleaving

/-- What is left open: how the collation weighs a text, and the hash function. -/
structure Setting where
  weight : String → List ℕ
  hash : String → String

/-- `a.Username.Equals(...)`, as the database decides it. -/
def Setting.Equals (setting : Setting) (left right : String) : Bool :=
  decide (setting.weight left = setting.weight right)

/-- The condition of a `FirstOrDefaultAsync`. -/
inductive AccountQuery
  | byUsernameOrEmail (username email : String)
  | byUsername (username : String)
  | byEmail (email : String)
  deriving DecidableEq, Repr

def AccountQuery.selects (setting : Setting) : AccountQuery → Account → Bool
  | byUsernameOrEmail username email, account =>
      setting.Equals account.username username || setting.Equals account.email email
  | byUsername username, account => setting.Equals account.username username
  | byEmail email, account => setting.Equals account.email email

structure AccountsDb where
  accounts : AutoTable Account.id
  balances : Table Balance.accountId
  /-- The ids of the packages. -/
  packages : List ℤ
  /-- `FK_Balance_Accounts`. -/
  foreignKey : ∀ id ∈ balances.keys, id ∈ accounts.rows.map Account.id

namespace AccountsDb

def accountIds (db : AccountsDb) : List ℤ :=
  db.accounts.rows.map Account.id

def addAccount (db : AccountsDb) (account : Account) : AccountsDb :=
  { db with
    accounts := db.accounts.insert account.withId account.withId_id
    foreignKey := fun id hid => by
      rw [AutoTable.rows_insert, List.map_append]
      exact List.mem_append_left _ (db.foreignKey id hid) }

def addBalance (db : AccountsDb) (balance : Balance)
    (haccount : balance.accountId ∈ db.accountIds) : AccountsDb :=
  { db with
    balances := db.balances.insert balance
    foreignKey := fun id hid => by
      rcases Table.mem_keys_insert.mp hid with hold | rfl
      · exact db.foreignKey id hold
      · exact haccount }

end AccountsDb

inductive Command
  | firstAccount (query : AccountQuery)
  | insertAccount (account : Account)
  | insertBalance (balance : Balance)
  | now

abbrev Command.Answer : Command → Type
  | firstAccount _ => Option Account
  | insertAccount _ => ℤ
  | insertBalance _ => Unit
  | now => DateTime

/-- The exceptions of the database. -/
structure DbException where
  message : String
  deriving DecidableEq, Repr

inductive Choice
  | throws (message : String)
  | goes
  | finds (account : Account)
  | reads (time : DateTime)

/-- What a command answers and does.  `none`: it cannot turn out this way. -/
def Command.move (setting : Setting) : (command : Command) → Choice → AccountsDb →
    Option (Except DbException command.Answer × AccountsDb)
  | now, .reads time, db => some (.ok time, db)
  | now, _, _ => none
  | firstAccount query, .finds account, db =>
      if account ∈ db.accounts.rows ∧ query.selects setting account then
        some (.ok (some account), db)
      else none
  | firstAccount query, .goes, db =>
      if db.accounts.rows.any (query.selects setting) then none else some (.ok none, db)
  | insertAccount account, .goes, db =>
      if account.packageId ∈ db.packages then
        some (.ok db.accounts.next, db.addAccount account)
      else some (.error ⟨"foreign key"⟩, db)
  | insertBalance balance, .goes, db =>
      if h : balance.accountId ∈ db.accountIds ∧ balance.accountId ∉ db.balances.keys then
        some (.ok (), db.addBalance balance h.1)
      else some (.error ⟨"key"⟩, db)
  | firstAccount _, .throws message, db => some (.error ⟨message⟩, db)
  | insertAccount _, .throws message, db => some (.error ⟨message⟩, db)
  | insertBalance _, .throws message, db => some (.error ⟨message⟩, db)
  | _, _, _ => none

def loginStep (setting : Setting) : Semantics DbException Command.Answer AccountsDb :=
  fun command db answer db' => ∃ choice, command.move setting choice db = some (answer, db')

theorem loginStep_of_move {setting : Setting} (command : Command) (choice : Choice)
    (db : AccountsDb) (answer : Except DbException command.Answer) (db' : AccountsDb)
    (hmove : command.move setting choice db = some (answer, db')) :
    loginStep setting command db answer db' :=
  ⟨choice, hmove⟩

abbrev Task (α : Type) := Prog DbException Command.Answer α

def perform (command : Command) : Task command.Answer := Prog.perform command

/-! ## Requests -/

inductive ActionResult
  | badRequest (error : String)
  | createdId (id : ℤ)
  | createdAccount (account : Account)
  deriving DecidableEq

/-- Saving the account and then its balance, on its own. -/
def saveWithBalance (account : Account) : Task ℤ := do
  let id ← perform (.insertAccount account)
  perform (.insertBalance ⟨id, 0⟩)
  return id

namespace SignupController

def Signup (setting : Setting) (request : SignupRequest) : Task ActionResult := do
  match ← perform (.firstAccount (.byUsernameOrEmail request.username request.email)) with
  | some _ => return .badRequest "User already exists"
  | none =>
      let request := { request with password := setting.hash request.password }
      let creation ← perform .now
      let activation ← perform .now
      tryCatch (do
        let id ← saveWithBalance (.ofSignupRequest request creation activation)
        return .createdId id) fun exception => return .badRequest exception.message

end SignupController

namespace AccountsController

def CreateNewAccount (request : AccountRequest) : Task ActionResult := do
  match ← perform (.firstAccount (.byUsername request.username)) with
  | some _ => return .badRequest "An account with given username already exists!"
  | none =>
      match ← perform (.firstAccount (.byEmail request.email)) with
      | some _ => return .badRequest "An account with given email already exists!"
      | none =>
          let creation ← perform .now
          let activation ← perform .now
          let account := Account.ofAccountRequest request creation activation
          let id ← saveWithBalance account
          return .createdAccount (account.withId id)

end AccountsController

inductive Request
  | signup (request : SignupRequest)
  | createNewAccount (request : AccountRequest)

def Request.serve (setting : Setting) : Request → Task ActionResult
  | signup request => SignupController.Signup setting request
  | createNewAccount request => AccountsController.CreateNewAccount request

/-- An error is answered, or an exception escapes and is answered by the framework. -/
def isErrorAnswer : Except DbException ActionResult → Bool
  | .ok (.badRequest _) | .error _ => true
  | _ => false

/-! ## What one command does -/

/-- What a command may answer and how it changes the tables. -/
inductive Does (setting : Setting) : (command : Command) → AccountsDb →
    Except DbException command.Answer → AccountsDb → Prop
  | throws {command db} (error : DbException) : Does setting command db (.error error) db
  | now {db} (time : DateTime) : Does setting .now db (.ok time) db
  | finds {db query account} (hmem : account ∈ db.accounts.rows)
      (hselects : query.selects setting account = true) :
      Does setting (.firstAccount query) db (.ok (some account)) db
  | findsNone {db query} (hnone : ∀ account ∈ db.accounts.rows,
      query.selects setting account = false) :
      Does setting (.firstAccount query) db (.ok none) db
  | insertAccount {db account} (hpackage : account.packageId ∈ db.packages) :
      Does setting (.insertAccount account) db (.ok db.accounts.next) (db.addAccount account)
  | insertBalance {db balance} (haccount : balance.accountId ∈ db.accountIds)
      (hnew : balance.accountId ∉ db.balances.keys) :
      Does setting (.insertBalance balance) db (.ok ()) (db.addBalance balance haccount)

theorem does_of_loginStep {setting : Setting} {command : Command} {db db' : AccountsDb}
    {answer : Except DbException command.Answer}
    (hstep : loginStep setting command db answer db') : Does setting command db answer db' := by
  obtain ⟨choice, hmove⟩ := hstep
  cases command with
  | now =>
      cases choice <;> cases hmove
      exact .now _
  | firstAccount query =>
      cases choice with
      | throws message => cases hmove; exact .throws _
      | reads time => cases hmove
      | finds account =>
          rw [Command.move] at hmove
          split_ifs at hmove with hfound
          cases hmove
          exact .finds hfound.1 hfound.2
      | goes =>
          rw [Command.move] at hmove
          split_ifs at hmove with hany
          cases hmove
          refine .findsNone fun account hmem => Bool.eq_false_of_not_eq_true fun hselects => ?_
          exact hany (List.any_eq_true.mpr ⟨account, hmem, hselects⟩)
  | insertAccount account =>
      cases choice with
      | throws message => cases hmove; exact .throws _
      | goes =>
          rw [Command.move] at hmove
          split_ifs at hmove with hpackage
          · cases hmove
            exact .insertAccount hpackage
          · cases hmove
            exact .throws _
      | _ => cases hmove
  | insertBalance balance =>
      cases choice with
      | throws message => cases hmove; exact .throws _
      | goes =>
          rw [Command.move] at hmove
          split_ifs at hmove with hkeys
          · cases hmove
            exact .insertBalance hkeys.1 hkeys.2
          · cases hmove
            exact .throws _
      | _ => cases hmove

/-! ## Together -/

/-- Any number of requests at the same time. -/
abbrev LoginSystem (M : Type) := Config DbException Command.Answer ℕ AccountsDb M ActionResult

def loginStart {M : Type} (setting : Setting) (requests : ℕ → Request) (memory : M)
    (db : AccountsDb) : LoginSystem M :=
  Config.start db memory fun n => (requests n).serve setting

namespace Sample

/-- A collation that ignores case. -/
def setting : Setting where
  weight text := text.toList.map fun c => c.toLower.toNat
  hash := id

def db : AccountsDb := ⟨.empty, .empty, [1], fun _ hid => hid⟩

theorem january : 1 ≤ 1 ∧ 1 ≤ 12 := by decide

theorem zero_lt_sixty : 0 < 60 := by decide

def noon : DateTime := ⟨2024, 1, 31, 12, 0, 0, by decide, january, by decide, by decide,
  zero_lt_sixty, zero_lt_sixty⟩

def signup : SignupRequest :=
  ⟨1, "Jane", "Doe", "jane", "jane@mail.ail", "secret", "web", "Box 13"⟩

end Sample

end EasyTrade.Accounts

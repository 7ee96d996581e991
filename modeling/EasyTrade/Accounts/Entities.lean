import Mathlib

/-!
# Accounts

The rows of `Accounts` and `Balance`, which the login service inserts and the manager and
the account service pass on.
-/

namespace EasyTrade.Accounts

def isLeapYear (year : ℕ) : Bool :=
  year % 4 = 0 ∧ (year % 100 ≠ 0 ∨ year % 400 = 0)

def daysInMonth (year : ℕ) : ℕ → ℕ
  | 2 => if isLeapYear year then 29 else 28
  | 4 | 6 | 9 | 11 => 30
  | _ => 31

/-- A `datetime`, which has no fractions of seconds. -/
structure DateTime where
  year : ℕ
  month : ℕ
  day : ℕ
  hour : ℕ
  minute : ℕ
  second : ℕ
  year_lt : year < 10000
  month_range : 1 ≤ month ∧ month ≤ 12
  day_range : 1 ≤ day ∧ day ≤ daysInMonth year month
  hour_lt : hour < 24
  minute_lt : minute < 60
  second_lt : second < 60
  deriving DecidableEq

structure Account where
  id : ℤ
  packageId : ℤ
  firstName : String
  lastName : String
  username : String
  email : String
  hashedPassword : String
  origin : String
  creationDate : DateTime
  packageActivationDate : DateTime
  accountActive : Bool
  address : String
  deriving DecidableEq

structure Balance where
  accountId : ℤ
  value : ℚ
  deriving DecidableEq

structure AccountRequest where
  packageId : ℤ
  firstName : String
  lastName : String
  username : String
  email : String
  hashedPassword : String
  origin : String
  address : String
  deriving DecidableEq

structure SignupRequest where
  packageId : ℤ
  firstName : String
  lastName : String
  username : String
  email : String
  password : String
  origin : String
  address : String
  deriving DecidableEq

/-- `new Account(accountRequest)`, before it has an id. -/
def Account.ofAccountRequest (request : AccountRequest) (creation activation : DateTime) :
    Account where
  id := 0
  packageId := request.packageId
  firstName := request.firstName
  lastName := request.lastName
  username := request.username
  email := request.email
  hashedPassword := request.hashedPassword
  origin := request.origin
  creationDate := creation
  packageActivationDate := activation
  accountActive := true
  address := request.address

/-- `new Account(signupRequest)`, whose password has been hashed. -/
def Account.ofSignupRequest (request : SignupRequest) (creation activation : DateTime) :
    Account where
  id := 0
  packageId := request.packageId
  firstName := request.firstName
  lastName := request.lastName
  username := request.username
  email := request.email
  hashedPassword := request.password
  origin := request.origin
  creationDate := creation
  packageActivationDate := activation
  accountActive := true
  address := request.address

def Account.withId (account : Account) (id : ℤ) : Account :=
  { account with id }

theorem Account.withId_id (account : Account) (id : ℤ) : (account.withId id).id = id := rfl

end EasyTrade.Accounts

import EasyTrade.Accounts.Entities
import EasyTrade.Core.DateFormat
import EasyTrade.Core.Table

/-!
# The account service

The account service reads an account from the manager and sends a changed one back.  On the
way a date is the manager's text, a `java.util.Date` and the text of the service's `Gson`.
-/

namespace EasyTrade.Accounts

open DateFormat

/-! ## Dates as fields -/

def DateTime.fields (date : DateTime) : Fields where
  year := date.year
  month := date.month
  day := date.day
  hour := date.hour
  minute := date.minute
  second := date.second

/-- The date and time of day with these fields, when there is one. -/
def DateTime.ofFields? (fields : Fields) : Option DateTime :=
  if h : fields.year < 10000 ∧ (1 ≤ fields.month ∧ fields.month ≤ 12) ∧
      (1 ≤ fields.day ∧ fields.day ≤ daysInMonth fields.year fields.month) ∧
      fields.hour < 24 ∧ fields.minute < 60 ∧ fields.second < 60 then
    some
      { year := fields.year
        month := fields.month
        day := fields.day
        hour := fields.hour
        minute := fields.minute
        second := fields.second
        year_lt := h.1
        month_range := h.2.1
        day_range := h.2.2.1
        hour_lt := h.2.2.2.1
        minute_lt := h.2.2.2.2.1
        second_lt := h.2.2.2.2.2 }
  else none

theorem DateTime.ofFields?_fields (date : DateTime) :
    DateTime.ofFields? date.fields = some date :=
  dif_pos ⟨date.year_lt, date.month_range, date.day_range, date.hour_lt, date.minute_lt,
    date.second_lt⟩

theorem DateTime.fields_injective : Function.Injective DateTime.fields := by
  intro date other hfields
  have hread := congrArg DateTime.ofFields? hfields
  rw [DateTime.ofFields?_fields, DateTime.ofFields?_fields] at hread
  exact Option.some.inj hread

/-! ## Accounts between the services -/

/-- An account whose dates are given as `D`: texts in the manager's and Gson's JSON,
instants in the Java class. -/
structure AccountOf (D : Type) where
  id : ℤ
  packageId : ℤ
  firstName : String
  lastName : String
  username : String
  email : String
  hashedPassword : String
  origin : String
  creationDate : D
  packageActivationDate : D
  accountActive : Bool
  address : String
  deriving DecidableEq

/-- The same account with its dates converted. -/
def AccountOf.convert {D E : Type} (account : AccountOf D) (date : D → E) : AccountOf E where
  id := account.id
  packageId := account.packageId
  firstName := account.firstName
  lastName := account.lastName
  username := account.username
  email := account.email
  hashedPassword := account.hashedPassword
  origin := account.origin
  creationDate := date account.creationDate
  packageActivationDate := date account.packageActivationDate
  accountActive := account.accountActive
  address := account.address

/-- The same account with its dates read, when both can be. -/
def AccountOf.convert? {D E : Type} (account : AccountOf D) (date : D → Option E) :
    Option (AccountOf E) := do
  let creationDate ← date account.creationDate
  let packageActivationDate ← date account.packageActivationDate
  return { account.convert fun _ => creationDate with packageActivationDate }

theorem AccountOf.convert?_convert {D E F : Type} (account : AccountOf D) {print : D → E}
    (read : E → Option F) {result : D → F}
    (hcreation : read (print account.creationDate) = some (result account.creationDate))
    (hactivation : read (print account.packageActivationDate) =
      some (result account.packageActivationDate)) :
    (account.convert print).convert? read = some (account.convert result) := by
  simp only [AccountOf.convert?, AccountOf.convert, hcreation, hactivation, Option.bind_eq_bind,
    Option.bind_some, Option.pure_def]

def Account.exported (account : Account) : AccountOf DateTime where
  id := account.id
  packageId := account.packageId
  firstName := account.firstName
  lastName := account.lastName
  username := account.username
  email := account.email
  hashedPassword := account.hashedPassword
  origin := account.origin
  creationDate := account.creationDate
  packageActivationDate := account.packageActivationDate
  accountActive := account.accountActive
  address := account.address

def Account.ofExported (account : AccountOf DateTime) : Account where
  id := account.id
  packageId := account.packageId
  firstName := account.firstName
  lastName := account.lastName
  username := account.username
  email := account.email
  hashedPassword := account.hashedPassword
  origin := account.origin
  creationDate := account.creationDate
  packageActivationDate := account.packageActivationDate
  accountActive := account.accountActive
  address := account.address

/-! ## The manager's `AccountsController` -/

/-- A `yyyy-MM-dd'T'…` pattern with the given letter for the hour. -/
def timestampPattern (hour : Letter) : Pattern where
  letter := .year
  width := 4
  items :=
    [⟨'-', .month, 2, rfl⟩, ⟨'-', .day, 2, rfl⟩, ⟨'T', hour, 2, rfl⟩, ⟨':', .minute, 2, rfl⟩,
      ⟨':', .second, 2, rfl⟩]

/-- How the manager's JSON writes a `DateTime` and reads it again: `yyyy-MM-dd'T'HH:mm:ss`. -/
def managerPattern : Pattern := timestampPattern .hourInDay

inductive StatusCode
  | noContent
  | badRequest
  | notFound
  deriving DecidableEq

namespace AccountsController

def GetAccount (id : ℤ) (accounts : Table Account.id) : Option (AccountOf Text) :=
  (accounts.find? id).map fun account =>
    account.exported.convert fun date => managerPattern.print date.fields

/-- A body whose dates cannot be read is refused before the method runs. -/
def PutAccount (body : AccountOf Text) (accounts : Table Account.id) :
    StatusCode × Table Account.id :=
  match body.convert? fun text => (managerPattern.read text).bind DateTime.ofFields? with
  | none => (.badRequest, accounts)
  | some account =>
    if account.id ≤ 0 then (.badRequest, accounts)
    else if account.id ∈ accounts.keys then
      (.noContent, accounts.set (Account.ofExported account))
    else (.notFound, accounts)

end AccountsController

/-! ## The account service's two controllers -/

/-- What the account service takes from its runtime: the calendar of its time zone, in
which a date is built from its fields and shown again, and the JSON (Jackson) of its own
requests and responses, which keeps every field and every instant. -/
structure Runtime (Date Json : Type) where
  getTime : Fields → Date
  calendar : Date → DateTime
  writeValue : AccountOf Date → Json
  readValue : Json → Option (AccountOf Date)
  readValue_writeValue : ∀ account, readValue (writeValue account) = some account

/-- The calendar of the time zone has the date: no clock is put forward over it. -/
def Runtime.HasDate {Date Json : Type} (runtime : Runtime Date Json) (date : DateTime) : Prop :=
  runtime.calendar (runtime.getTime date.fields) = date

inductive Controller
  | accountController
  | accountControllerV2
  deriving DecidableEq

/-- Both build their `Gson` with the date format `yyyy-MM-dd'T'hh:mm:ss`. -/
def Controller.gson : Controller → Pattern
  | accountController => timestampPattern .hourInAmPm
  | accountControllerV2 => timestampPattern .hourInAmPm

namespace Controller

variable {Date Json : Type}

def fromJson (controller : Controller) (runtime : Runtime Date Json)
    (body : AccountOf Text) : Option (AccountOf Date) :=
  body.convert? fun text => (controller.gson.read text).map runtime.getTime

def toJson (controller : Controller) (runtime : Runtime Date Json)
    (account : AccountOf Date) : AccountOf Text :=
  account.convert fun date => controller.gson.print (runtime.calendar date).fields

def get (controller : Controller) (runtime : Runtime Date Json) (accountId : ℤ)
    (accounts : Table Account.id) : Option Json := do
  let body ← AccountsController.GetAccount accountId accounts
  let account ← controller.fromJson runtime body
  return runtime.writeValue account

def put (controller : Controller) (runtime : Runtime Date Json) (accountDetails : Json)
    (accounts : Table Account.id) : StatusCode × Table Account.id :=
  match runtime.readValue accountDetails with
  | none => (.badRequest, accounts)
  | some account => AccountsController.PutAccount (controller.toJson runtime account) accounts

end Controller

/-- The accounts after what `getting` returned has been sent to `putting` unchanged. -/
def writeBack {Date Json : Type} (getting putting : Controller) (runtime : Runtime Date Json)
    (accountId : ℤ) (accounts : Table Account.id) : Table Account.id :=
  match getting.get runtime accountId accounts with
  | none => accounts
  | some accountDetails => (putting.put runtime accountDetails accounts).2

/-! ## A date on the way through the service -/

/-- The time of day as a clock of twelve hours shows it, read on a clock of 24 hours. -/
def DateTime.inAmPm (date : DateTime) : DateTime :=
  { date with
    hour := (date.hour + 11) % 12 + 1
    hour_lt := by omega }

theorem DateTime.inAmPm_eq_self_iff (date : DateTime) :
    date.inAmPm = date ↔ 1 ≤ date.hour ∧ date.hour ≤ 12 := by
  have hhour := date.hour_lt
  constructor
  · intro hsame
    have hshown : (date.hour + 11) % 12 + 1 = date.hour := congrArg DateTime.hour hsame
    omega
  · intro hrange
    apply DateTime.fields_injective
    have hshown : (date.hour + 11) % 12 + 1 = date.hour := by omega
    simp only [DateTime.fields, DateTime.inAmPm, hshown]

theorem separators_timestampPattern (hour other : Letter) :
    (timestampPattern hour).separators = (timestampPattern other).separators := rfl

/-- Gson reads the manager's text: noon becomes midnight, any other hour is kept. -/
theorem gson_read_print (controller : Controller) (date : DateTime) :
    controller.gson.read (managerPattern.print date.fields) =
      some { date.fields with hour := if date.hour = 12 then 0 else date.hour } := by
  cases controller <;>
    exact Pattern.read_print (separators_timestampPattern _ _) date.fields

/-- The manager reads Gson's text: it takes the hour of the half day for that of the day. -/
theorem manager_read_print (controller : Controller) (date : DateTime) :
    (managerPattern.read (controller.gson.print date.fields)).bind DateTime.ofFields? =
      some date.inAmPm := by
  have hread : managerPattern.read (controller.gson.print date.fields) =
      some date.inAmPm.fields := by
    cases controller <;>
      exact Pattern.read_print (separators_timestampPattern _ _) date.fields
  rw [hread]
  exact DateTime.ofFields?_fields date.inAmPm

/-- The date as the service holds it. -/
def DateTime.parsed (date : DateTime) : DateTime :=
  { date with
    hour := if date.hour = 12 then 0 else date.hour
    hour_lt := by
      have hhour := date.hour_lt
      split <;> omega }

theorem DateTime.inAmPm_parsed (date : DateTime) : date.parsed.inAmPm = date.inAmPm := by
  apply DateTime.fields_injective
  have hhour : ((if date.hour = 12 then 0 else date.hour) + 11) % 12 = (date.hour + 11) % 12 := by
    split <;> omega
  simp only [DateTime.fields, DateTime.inAmPm, DateTime.parsed, hhour]

/-! ## Reading an account and writing it back -/

section WriteBack

variable {Date Json : Type} (getting putting : Controller) (runtime : Runtime Date Json)
  {accounts : Table Account.id} {account : Account}

theorem get_of_find? (hfind : accounts.find? account.id = some account) :
    getting.get runtime account.id accounts = some (runtime.writeValue
      (account.exported.convert fun date => runtime.getTime date.parsed.fields)) := by
  have hdate : ∀ date : DateTime,
      (getting.gson.read (managerPattern.print date.fields)).map runtime.getTime =
        some (runtime.getTime date.parsed.fields) := fun date => by
    rw [gson_read_print, Option.map_some]
    rfl
  have hparsed : (account.exported.convert fun date => managerPattern.print date.fields).convert?
      (fun text => (getting.gson.read text).map runtime.getTime) =
        some (account.exported.convert fun date => runtime.getTime date.parsed.fields) :=
    account.exported.convert?_convert _ (hdate _) (hdate _)
  rw [Controller.get, AccountsController.GetAccount, hfind]
  simp only [Option.map_some, Option.bind_eq_bind, Option.bind_some, Controller.fromJson, hparsed,
    Option.pure_def]

/-- The account that comes back: both dates have lost their half of the day. -/
def Account.onTwelveHourClock (account : Account) : Account :=
  { account with
    creationDate := account.creationDate.inAmPm
    packageActivationDate := account.packageActivationDate.inAmPm }

theorem put_writeValue (hfind : accounts.find? account.id = some account)
    (hcreation : runtime.HasDate account.creationDate.parsed)
    (hactivation : runtime.HasDate account.packageActivationDate.parsed) :
    (putting.put runtime (runtime.writeValue
      (account.exported.convert fun date => runtime.getTime date.parsed.fields)) accounts).2 =
      if account.id ≤ 0 then accounts else accounts.set account.onTwelveHourClock := by
  have hdate : ∀ date : DateTime, runtime.HasDate date.parsed → (managerPattern.read
      (putting.gson.print (runtime.calendar (runtime.getTime date.parsed.fields)).fields)).bind
        DateTime.ofFields? = some date.inAmPm := fun date hhas => by
    rw [hhas, manager_read_print, DateTime.inAmPm_parsed]
  have hbody : (account.exported.convert fun date => putting.gson.print
      (runtime.calendar (runtime.getTime date.parsed.fields)).fields).convert?
        (fun text => (managerPattern.read text).bind DateTime.ofFields?) =
          some (account.exported.convert DateTime.inAmPm) :=
    account.exported.convert?_convert _ (hdate _ hcreation) (hdate _ hactivation)
  have hkey : account.id ∈ accounts.keys :=
    List.mem_map.mpr ⟨account, (Table.find?_eq_some_iff.mp hfind).1, rfl⟩
  have hmanager : AccountsController.PutAccount (account.exported.convert fun date =>
      putting.gson.print (runtime.calendar (runtime.getTime date.parsed.fields)).fields) accounts =
        if account.id ≤ 0 then (.badRequest, accounts)
        else (.noContent, accounts.set account.onTwelveHourClock) := by
    rw [AccountsController.PutAccount, hbody]
    dsimp only
    rw [show (account.exported.convert DateTime.inAmPm).id = account.id from rfl, if_pos hkey]
    rfl
  rw [Controller.put, runtime.readValue_writeValue]
  dsimp only
  rw [Controller.toJson]
  rw [show (account.exported.convert fun date => runtime.getTime date.parsed.fields).convert
    (fun date => putting.gson.print (runtime.calendar date).fields) = account.exported.convert
      fun date => putting.gson.print (runtime.calendar (runtime.getTime date.parsed.fields)).fields
    from rfl, hmanager]
  split <;> rfl

theorem writeBack_eq (hfind : accounts.find? account.id = some account)
    (hcreation : runtime.HasDate account.creationDate.parsed)
    (hactivation : runtime.HasDate account.packageActivationDate.parsed) :
    writeBack getting putting runtime account.id accounts =
      if account.id ≤ 0 then accounts else accounts.set account.onTwelveHourClock := by
  rw [writeBack, get_of_find? getting runtime hfind]
  exact put_writeValue putting runtime hfind hcreation hactivation

theorem Account.onTwelveHourClock_eq_self_iff (account : Account) :
    account.onTwelveHourClock = account ↔
      (1 ≤ account.creationDate.hour ∧ account.creationDate.hour ≤ 12) ∧
        1 ≤ account.packageActivationDate.hour ∧ account.packageActivationDate.hour ≤ 12 := by
  rw [← DateTime.inAmPm_eq_self_iff, ← DateTime.inAmPm_eq_self_iff]
  constructor
  · intro hsame
    exact ⟨congrArg Account.creationDate hsame, congrArg Account.packageActivationDate hsame⟩
  · intro hdates
    rw [Account.onTwelveHourClock, hdates.1, hdates.2]

/-- An account survives being read and written back when both its hours read the same on
a clock of twelve hours, and when the manager refuses to store it. -/
theorem account_written_back (hfind : accounts.find? account.id = some account)
    (hcreation : runtime.HasDate account.creationDate.parsed)
    (hactivation : runtime.HasDate account.packageActivationDate.parsed) :
    (writeBack getting putting runtime account.id accounts).find? account.id = some account ↔
      account.id ≤ 0 ∨
        ((1 ≤ account.creationDate.hour ∧ account.creationDate.hour ≤ 12) ∧
          1 ≤ account.packageActivationDate.hour ∧ account.packageActivationDate.hour ≤ 12) := by
  have hkey : account.onTwelveHourClock.id ∈ accounts.keys :=
    List.mem_map.mpr ⟨account, (Table.find?_eq_some_iff.mp hfind).1, rfl⟩
  rw [writeBack_eq getting putting runtime hfind hcreation hactivation]
  by_cases hid : account.id ≤ 0
  · rw [if_pos hid]
    exact iff_of_true hfind (Or.inl hid)
  · have hstored : (accounts.set account.onTwelveHourClock).find? account.id =
        some account.onTwelveHourClock := Table.find?_set_self hkey
    rw [if_neg hid, hstored, or_iff_right hid, ← Account.onTwelveHourClock_eq_self_iff]
    exact Option.some_inj

end WriteBack

/-! ## A late hour -/

namespace Sample

/-- A date kept as its fields, and JSON that is the account itself. -/
def runtime : Runtime Fields (AccountOf Fields) where
  getTime := id
  calendar := fun fields =>
    (DateTime.ofFields? fields).getD
      ⟨1970, 1, 1, 0, 0, 0, by decide, by decide, by decide, by decide, by decide, by decide⟩
  writeValue := id
  readValue := some
  readValue_writeValue := fun _ => rfl

theorem runtime_hasDate (date : DateTime) : runtime.HasDate date := by
  simp only [Runtime.HasDate, runtime, id_eq, DateTime.ofFields?_fields, Option.getD_some]

def lateEvening : DateTime :=
  ⟨2021, 12, 19, 22, 24, 42, by decide, by decide, by decide, by decide, by decide, by decide⟩

def morning : DateTime :=
  ⟨2021, 12, 19, 10, 24, 42, by decide, by decide, by decide, by decide, by decide, by decide⟩

/-- An account created on the given date, which is also that of its package. -/
def accountFrom (date : DateTime) : Account where
  id := 6
  packageId := 1
  firstName := "Ann"
  lastName := "Lee"
  username := "ann"
  email := "ann@example.com"
  hashedPassword := "hash"
  origin := "PRESET"
  creationDate := date
  packageActivationDate := date
  accountActive := true
  address := "1 High Street"

def accountsOf (account : Account) : Table Account.id :=
  ⟨[account], List.nodup_singleton _⟩

end Sample

theorem account_written_back_in_the_morning :
    (Sample.accountsOf (Sample.accountFrom Sample.morning)).find? 6 =
        some (Sample.accountFrom Sample.morning) ∧
      (writeBack .accountControllerV2 .accountControllerV2 Sample.runtime 6
        (Sample.accountsOf (Sample.accountFrom Sample.morning))).find? 6 =
          some (Sample.accountFrom Sample.morning) := by
  have hfind : (Sample.accountsOf (Sample.accountFrom Sample.morning)).find?
      (Sample.accountFrom Sample.morning).id = some (Sample.accountFrom Sample.morning) := rfl
  have hkept := (account_written_back .accountControllerV2 .accountControllerV2
    Sample.runtime hfind (Sample.runtime_hasDate _) (Sample.runtime_hasDate _)).mpr
    (Or.inr (by decide))
  exact ⟨hfind, hkept⟩

/-- An account created at 22:24:42 is afterwards one created at 10:24:42. -/
theorem account_not_written_back :
    ¬ ∀ (getting putting : Controller) (accounts : Table Account.id) (account : Account),
      accounts.find? account.id = some account →
        (writeBack getting putting Sample.runtime account.id accounts).find? account.id =
          some account := by
  intro hall
  have hkept := hall .accountControllerV2 .accountControllerV2
    (Sample.accountsOf (Sample.accountFrom Sample.lateEvening))
    (Sample.accountFrom Sample.lateEvening) rfl
  have hstored : (writeBack .accountControllerV2 .accountControllerV2 Sample.runtime 6
      (Sample.accountsOf (Sample.accountFrom Sample.lateEvening))).find? 6 =
        some (Sample.accountFrom Sample.morning) := by decide +kernel
  have hsame := Option.some.inj (hstored.symm.trans hkept)
  have hhours : (10 : ℕ) = 22 := congrArg (fun a => a.creationDate.hour) hsame
  exact absurd hhours (by decide)

end EasyTrade.Accounts

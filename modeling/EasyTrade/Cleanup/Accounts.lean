import EasyTrade.Core.DoubleRounding
import EasyTrade.Core.Table
import EasyTrade.Core.TopRows

/-!
# The daily cleanup of the accounts

Inactive accounts are deleted, and then, when there are too many active ones, some of them
are marked as inactive.  A query is what it says: a selection that stands in a `WITH` names
the rows of `Accounts` that are deleted or updated.  Rows of the tables whose foreign key to
`Accounts` cascades go with their account and are left out.
-/

namespace EasyTrade.Cleanup

open DoubleRounding TopRows

/-- A row of `Accounts`; a `datetime` is its number of seconds. -/
structure Account where
  id : ℤ
  origin : String
  creationDate : ℤ
  accountActive : Option ℤ
  deriving DecidableEq

structure CreditCardOrder where
  id : String
  accountId : ℤ
  deriving DecidableEq

structure AccountsDb where
  accounts : Table Account.id
  creditCardOrders : List CreditCardOrder
  /-- `FK_CreditCardOrders_Accounts`. -/
  foreignKey : ∀ order ∈ creditCardOrders, order.accountId ∈ accounts.keys

/-- What the database decides: how its collation weighs a text, and in which order it finds
rows. -/
structure Setting where
  weight : String → List ℕ
  arrangement : Arrangement Account

inductive SQLException
  | foreignKeyViolation
  | invalidTop
  deriving DecidableEq

namespace Conditions

variable (setting : Setting)

/-- `Origin='PRESET'`. -/
def isPreset (account : Account) : Bool :=
  decide (setting.weight account.origin = setting.weight "PRESET")

def nonPresetActiveAccounts (account : Account) : Bool :=
  decide (account.accountActive = some 1) && !isPreset setting account

def nonPresetInactiveAccounts (account : Account) : Bool :=
  decide (account.accountActive = some 0) && !isPreset setting account

end Conditions

namespace Queries

variable (setting : Setting)

def selectFromTable (condition : Account → Bool) (db : AccountsDb) : List Account :=
  db.accounts.rows.filter condition

/-- `SELECT TOP(count) * ... ORDER BY CreationDate DESC`. -/
def selectTopOldestAccounts (count : ℤ) (condition : Account → Bool) (db : AccountsDb) :
    Except SQLException (List Account) :=
  if count < 0 then .error .invalidTop
  else .ok (top setting.arrangement (fun account => OrderDual.toDual account.creationDate)
    count.toNat (db.accounts.rows.filter condition))

def setActive (status : Bool) (account : Account) : Account :=
  { account with accountActive := some (if status then 1 else 0) }

def updateSelected (selected : List Account) (status : Bool) (account : Account) : Account :=
  if account ∈ selected then setActive status account else account

theorem updateSelected_id (selected : List Account) (status : Bool) (account : Account) :
    (updateSelected selected status account).id = account.id := by
  rw [updateSelected]
  split <;> rfl

theorem map_id_updateSelected (selected rows : List Account) (status : Bool) :
    (rows.map (updateSelected selected status)).map Account.id = rows.map Account.id := by
  rw [List.map_map]
  exact List.map_congr_left fun account _ => updateSelected_id selected status account

def updateAccountStatus (selected : List Account) (status : Bool) (db : AccountsDb) :
    AccountsDb :=
  { db with
    accounts := ⟨db.accounts.rows.map (updateSelected selected status), by
      rw [map_id_updateSelected]
      exact db.accounts.keysNodup⟩
    foreignKey := fun order horder => by
      rw [Table.keys, map_id_updateSelected]
      exact db.foreignKey order horder }

theorem mem_keys_delete_of_not_referred {db : AccountsDb} {selected : List Account}
    (hfree : ∀ order ∈ db.creditCardOrders, ∀ account ∈ selected, order.accountId ≠ account.id)
    (order : CreditCardOrder) (horder : order ∈ db.creditCardOrders) :
    order.accountId ∈ (db.accounts.delete fun account => account ∈ selected).keys := by
  obtain ⟨account, haccount, hid⟩ := List.mem_map.mp (db.foreignKey order horder)
  refine List.mem_map.mpr ⟨account, List.mem_filter.mpr ⟨haccount, ?_⟩, hid⟩
  have hnot : account ∉ selected := fun hmem => hfree order horder account hmem hid.symm
  simpa using hnot

/-- A `DELETE` of rows to which an order refers deletes nothing. -/
def deleteSelected (selected : List Account) (db : AccountsDb) :
    Except SQLException AccountsDb :=
  if hfree : ∀ order ∈ db.creditCardOrders, ∀ account ∈ selected,
      order.accountId ≠ account.id then
    .ok
      { db with
        accounts := db.accounts.delete fun account => account ∈ selected
        foreignKey := mem_keys_delete_of_not_referred hfree }
  else .error .foreignKeyViolation

end Queries

/-- `executeUpdateQuery`, which catches the exception; the count that it returns is only
logged. -/
def executeUpdateQuery (db : AccountsDb) : Except SQLException AccountsDb → AccountsDb
  | .ok db' => db'
  | .error _ => db

/-- `getTableCount`. -/
def getTableCount (condition : Account → Bool) (db : AccountsDb) : ℤ :=
  (db.accounts.rows.filter condition).length

def CLEANUP_RATIO : Double := ⟨1 / 2, 1, -1, by decide, by decide, by norm_num⟩

namespace ContentCreator

variable (setting : Setting)

def removeInactiveAccounts (db : AccountsDb) : AccountsDb :=
  executeUpdateQuery db (Queries.deleteSelected
    (Queries.selectFromTable (Conditions.nonPresetInactiveAccounts setting) db) db)

def markExcessiveAccountsAsInactive (count : ℤ) (db : AccountsDb) : AccountsDb :=
  executeUpdateQuery db do
    let selected ← Queries.selectTopOldestAccounts setting count
      (Conditions.nonPresetActiveAccounts setting) db
    return Queries.updateAccountStatus selected false db

/-- The product is that of two doubles. -/
def removeExcessiveAccounts (limit : ℤ) (cleanupRatio : Double) (db : AccountsDb) :
    AccountsDb :=
  let tableCount := getTableCount (Conditions.nonPresetActiveAccounts setting) db
  if limit < tableCount then
    markExcessiveAccountsAsInactive setting
      (intValue (toDouble (limit * cleanupRatio.value))) db
  else db

/-- The daily tasks that are about accounts. -/
def cleanUpAccounts (limit : ℤ) (cleanupRatio : Double) (db : AccountsDb) : AccountsDb :=
  removeExcessiveAccounts setting limit cleanupRatio (removeInactiveAccounts setting db)

end ContentCreator

end EasyTrade.Cleanup

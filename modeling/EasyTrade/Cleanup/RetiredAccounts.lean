import EasyTrade.Cleanup.Accounts

/-!
# Which accounts the cleanup retires

The cleanup is there to delete what is inactive and to retire the oldest of the others.  The
deletion fails as a whole when an order refers to one of its accounts, and the selection of
the oldest accounts is sorted the other way round, so it takes the youngest.
-/

namespace EasyTrade.Cleanup

open DoubleRounding TopRows
open Conditions Queries ContentCreator

variable (setting : Setting) (limit : ℤ) (cleanupRatio : Double) (db : AccountsDb)

/-- The accounts that may be marked. -/
def active : List Account := db.accounts.rows.filter (nonPresetActiveAccounts setting)

/-- The accounts that have been marked as inactive. -/
def marked (after : AccountsDb) : List Account :=
  (active setting db).filter fun account => setActive false account ∈ after.accounts.rows

/-- What the cleanup is for: it takes away the accounts that were inactive, and retires as
many of the oldest active ones as it should, and nothing else. -/
structure Retires (after : AccountsDb) : Prop where
  preset : ∀ account ∈ db.accounts.rows, isPreset setting account = true →
    account ∈ after.accounts.rows
  removed : ∀ account ∈ db.accounts.rows, nonPresetInactiveAccounts setting account = true →
    account.id ∉ after.accounts.keys
  others : ∀ account ∈ db.accounts.rows, nonPresetInactiveAccounts setting account = false →
    account ∉ marked setting db after → account ∈ after.accounts.rows
  none_marked : (active setting db).length ≤ limit → marked setting db after = []
  count_marked : limit < (active setting db).length →
    ((marked setting db after).length : ℤ) = ⌊limit * cleanupRatio.value⌋
  oldest_marked : limit < (active setting db).length → ∀ account ∈ marked setting db after,
    ∀ other ∈ active setting db, other ∉ marked setting db after →
      account.creationDate ≤ other.creationDate

/-- No order refers to an account that is to be deleted. -/
def Unreferred : Prop :=
  ∀ order ∈ db.creditCardOrders, ∀ account ∈ db.accounts.rows, account.id = order.accountId →
    nonPresetInactiveAccounts setting account = false

/-- How many accounts are asked for: the product of the doubles, cast to an integer. -/
def asked : ℤ := intValue (toDouble (limit * cleanupRatio.value))

/-- As many accounts are asked for, or are there at all, as are to be marked, and it does not
matter which of them are: none, or all, or all are equally old. -/
def AnyWillDo : Prop :=
  0 ≤ limit * cleanupRatio.value ∧
    min (asked limit cleanupRatio) (active setting db).length = ⌊limit * cleanupRatio.value⌋ ∧
      (⌊limit * cleanupRatio.value⌋ = 0 ∨
        ⌊limit * cleanupRatio.value⌋ = (active setting db).length ∨
          ∀ account ∈ active setting db, ∀ other ∈ active setting db,
            account.creationDate = other.creationDate)

/-! ## The selected accounts -/

variable {setting limit cleanupRatio db}

theorem eq_of_id_eq {account other : Account} (haccount : account ∈ db.accounts.rows)
    (hother : other ∈ db.accounts.rows) (hid : account.id = other.id) : account = other :=
  List.inj_on_of_nodup_map db.accounts.keysNodup haccount hother hid

theorem nodup_active : (active setting db).Nodup :=
  (db.accounts.keysNodup.of_map _).filter _

theorem mem_active {account : Account} :
    account ∈ active setting db ↔
      account ∈ db.accounts.rows ∧ nonPresetActiveAccounts setting account = true :=
  List.mem_filter

theorem setActive_ne {account : Account} (h : nonPresetActiveAccounts setting account = true) :
    setActive false account ≠ account := by
  intro heq
  have hactive : account.accountActive = some 1 :=
    of_decide_eq_true (Bool.and_eq_true_iff.mp h).1
  have hzero : account.accountActive = some 0 := congrArg Account.accountActive heq.symm
  rw [hactive] at hzero
  cases hzero

theorem not_inactive_of_active {account : Account}
    (h : nonPresetActiveAccounts setting account = true) :
    nonPresetInactiveAccounts setting account = false := by
  have hactive : account.accountActive = some 1 :=
    of_decide_eq_true (Bool.and_eq_true_iff.mp h).1
  simp [nonPresetInactiveAccounts, hactive]

/-! ## The deletion -/

theorem removeInactive_of_unreferred (hfree : Unreferred setting db) :
    (removeInactiveAccounts setting db).accounts.rows =
      db.accounts.rows.filter fun account => !nonPresetInactiveAccounts setting account := by
  have hallowed : ∀ order ∈ db.creditCardOrders,
      ∀ account ∈ selectFromTable (nonPresetInactiveAccounts setting) db,
        order.accountId ≠ account.id := by
    intro order horder account haccount hid
    obtain ⟨hrow, hinactive⟩ := List.mem_filter.mp haccount
    rw [hfree order horder account hrow hid.symm] at hinactive
    cases hinactive
  rw [removeInactiveAccounts, deleteSelected, dif_pos hallowed, executeUpdateQuery,
    Table.rows_delete]
  refine List.filter_congr fun account haccount => ?_
  rw [selectFromTable, Bool.eq_iff_iff]
  simp [haccount]

theorem removeInactive_of_referred (hreferred : ¬Unreferred setting db) :
    removeInactiveAccounts setting db = db := by
  have hforbidden : ¬∀ order ∈ db.creditCardOrders,
      ∀ account ∈ selectFromTable (nonPresetInactiveAccounts setting) db,
        order.accountId ≠ account.id := by
    intro hallowed
    refine hreferred fun order horder account haccount hid => ?_
    by_contra hinactive
    exact hallowed order horder account
      (List.mem_filter.mpr ⟨haccount, Bool.eq_true_of_not_eq_false hinactive⟩) hid.symm
  rw [removeInactiveAccounts, deleteSelected, dif_neg hforbidden, executeUpdateQuery]

/-- What the deletion leaves are rows of before, the active ones among them. -/
theorem rows_removeInactive_sublist :
    ((removeInactiveAccounts setting db).accounts.rows).Sublist db.accounts.rows := by
  by_cases hfree : Unreferred setting db
  · rw [removeInactive_of_unreferred hfree]
    exact List.filter_sublist
  · rw [removeInactive_of_referred hfree]

theorem mem_removeInactive {account : Account} (haccount : account ∈ db.accounts.rows)
    (hnot : nonPresetInactiveAccounts setting account = false) :
    account ∈ (removeInactiveAccounts setting db).accounts.rows := by
  by_cases hfree : Unreferred setting db
  · rw [removeInactive_of_unreferred hfree]
    exact List.mem_filter.mpr ⟨haccount, by rw [hnot]; rfl⟩
  · rw [removeInactive_of_referred hfree]
    exact haccount

theorem active_removeInactive :
    active setting (removeInactiveAccounts setting db) = active setting db := by
  by_cases hfree : Unreferred setting db
  · rw [active, removeInactive_of_unreferred hfree, List.filter_filter]
    refine List.filter_congr fun account _ => ?_
    cases hactive : nonPresetActiveAccounts setting account with
    | false => rfl
    | true => rw [not_inactive_of_active hactive]; rfl
  · rw [removeInactive_of_referred hfree]

/-! ## The marking -/

variable (setting limit cleanupRatio db)

/-- The accounts that the cleanup marks. -/
def chosen : List Account :=
  if limit < (active setting db).length ∧ 0 ≤ asked limit cleanupRatio then
    top setting.arrangement (fun account => OrderDual.toDual account.creationDate)
      (asked limit cleanupRatio).toNat (active setting db)
  else []

theorem rows_cleanUpAccounts :
    (cleanUpAccounts setting limit cleanupRatio db).accounts.rows =
      (removeInactiveAccounts setting db).accounts.rows.map
        (updateSelected (chosen setting limit cleanupRatio db) false) := by
  have hnone : ∀ rows : List Account, rows.map (updateSelected [] false) = rows := by
    intro rows
    conv_rhs => rw [← List.map_id rows]
    exact List.map_congr_left fun account _ => if_neg List.not_mem_nil
  have hactive : active setting (removeInactiveAccounts setting db) = active setting db :=
    active_removeInactive
  rw [cleanUpAccounts, removeExcessiveAccounts, getTableCount, ← active, hactive, chosen]
  by_cases hlimit : limit < (active setting db).length
  · rw [if_pos hlimit, markExcessiveAccountsAsInactive, selectTopOldestAccounts, ← active, hactive]
    rw [← asked]
    by_cases hcount : 0 ≤ asked limit cleanupRatio
    · rw [if_neg (not_lt.mpr hcount), if_pos ⟨hlimit, hcount⟩]
      rfl
    · rw [if_pos (not_le.mp hcount), if_neg fun h => hcount h.2, hnone]
      rfl
  · rw [if_neg hlimit, if_neg (fun h => hlimit h.1), hnone]

variable {setting limit cleanupRatio db}

theorem mem_active_of_mem_chosen {account : Account}
    (h : account ∈ chosen setting limit cleanupRatio db) : account ∈ active setting db := by
  rw [chosen] at h
  split at h
  · exact mem_of_mem_top h
  · exact absurd h List.not_mem_nil

/-- An account that is not chosen stays as it is. -/
theorem mem_cleanUp_of_not_chosen {account : Account}
    (haccount : account ∈ (removeInactiveAccounts setting db).accounts.rows)
    (hnot : account ∉ chosen setting limit cleanupRatio db) :
    account ∈ (cleanUpAccounts setting limit cleanupRatio db).accounts.rows := by
  rw [rows_cleanUpAccounts]
  exact List.mem_map.mpr ⟨account, haccount, if_neg hnot⟩

/-- The accounts that have been marked are those that were chosen. -/
theorem marked_cleanUp :
    marked setting db (cleanUpAccounts setting limit cleanupRatio db) =
      (active setting db).filter fun account =>
        account ∈ chosen setting limit cleanupRatio db := by
  refine List.filter_congr fun account haccount => ?_
  obtain ⟨hrow, hactive⟩ := mem_active.mp haccount
  rw [decide_eq_decide, rows_cleanUpAccounts, List.mem_map]
  constructor
  · rintro ⟨other, hother, hupdated⟩
    have hid : other.id = account.id := by
      rw [← updateSelected_id, hupdated]
      rfl
    have hsame := eq_of_id_eq (rows_removeInactive_sublist.subset hother) hrow hid
    subst hsame
    by_contra hnot
    rw [updateSelected, if_neg hnot] at hupdated
    exact setActive_ne hactive hupdated.symm
  · intro hchosen
    exact ⟨account, mem_removeInactive hrow (not_inactive_of_active hactive), if_pos hchosen⟩

theorem mem_marked_iff {account : Account} :
    account ∈ marked setting db (cleanUpAccounts setting limit cleanupRatio db) ↔
      account ∈ chosen setting limit cleanupRatio db := by
  rw [marked_cleanUp, List.mem_filter, decide_eq_true_iff]
  exact ⟨And.right, fun h => ⟨mem_active_of_mem_chosen h, h⟩⟩

theorem keys_cleanUpAccounts :
    (cleanUpAccounts setting limit cleanupRatio db).accounts.keys =
      (removeInactiveAccounts setting db).accounts.keys := by
  rw [Table.keys, rows_cleanUpAccounts, map_id_updateSelected, Table.keys]

/-! ## What always holds -/

theorem preset_untouched {account : Account} (haccount : account ∈ db.accounts.rows)
    (hpreset : isPreset setting account = true) :
    account ∈ (cleanUpAccounts setting limit cleanupRatio db).accounts.rows := by
  have hkept : nonPresetInactiveAccounts setting account = false := by
    simp [nonPresetInactiveAccounts, hpreset]
  refine mem_cleanUp_of_not_chosen (mem_removeInactive haccount hkept) fun hchosen => ?_
  have hactive := (mem_active.mp (mem_active_of_mem_chosen hchosen)).2
  simp [nonPresetActiveAccounts, hpreset] at hactive

theorem others_untouched {account : Account} (haccount : account ∈ db.accounts.rows)
    (hkept : nonPresetInactiveAccounts setting account = false)
    (hmarked : account ∉ marked setting db (cleanUpAccounts setting limit cleanupRatio db)) :
    account ∈ (cleanUpAccounts setting limit cleanupRatio db).accounts.rows :=
  mem_cleanUp_of_not_chosen (mem_removeInactive haccount hkept) (mem_marked_iff.not.mp hmarked)

theorem none_marked (hlimit : (active setting db).length ≤ limit) :
    marked setting db (cleanUpAccounts setting limit cleanupRatio db) = [] := by
  rw [List.eq_nil_iff_forall_not_mem]
  intro account hmarked
  rw [mem_marked_iff, chosen, if_neg fun h => absurd h.1 (not_lt.mpr hlimit)] at hmarked
  exact absurd hmarked List.not_mem_nil

/-! ## What holds sometimes -/

theorem removed_iff :
    (∀ account ∈ db.accounts.rows, nonPresetInactiveAccounts setting account = true →
      account.id ∉ (cleanUpAccounts setting limit cleanupRatio db).accounts.keys) ↔
        Unreferred setting db := by
  rw [keys_cleanUpAccounts]
  constructor
  · intro hremoved order horder account haccount hid
    by_contra hinactive
    have htrue := Bool.eq_true_of_not_eq_false hinactive
    have hreferred : ¬Unreferred setting db := fun hfree =>
      hinactive (hfree order horder account haccount hid)
    have hgone := hremoved account haccount htrue
    rw [removeInactive_of_referred hreferred] at hgone
    exact hgone (List.mem_map_of_mem haccount)
  · intro hfree account haccount hinactive hmem
    obtain ⟨other, hother, hid⟩ := List.mem_map.mp hmem
    have hsame := eq_of_id_eq (rows_removeInactive_sublist.subset hother) haccount hid
    rw [removeInactive_of_unreferred hfree, hsame, List.mem_filter, hinactive] at hother
    exact absurd hother.2 (by decide)

theorem asked_nonneg (hcount : 0 ≤ limit * cleanupRatio.value) :
    0 ≤ asked limit cleanupRatio :=
  intValue_nonneg (toDouble_nonneg hcount)

/-- The number of accounts that are marked when there are too many. -/
theorem length_marked (hlimit : limit < (active setting db).length)
    (hcount : 0 ≤ limit * cleanupRatio.value) :
    ((marked setting db (cleanUpAccounts setting limit cleanupRatio db)).length : ℤ) =
      min (asked limit cleanupRatio) (active setting db).length := by
  have hasked := asked_nonneg hcount
  rw [marked_cleanUp, chosen, if_pos ⟨hlimit, hasked⟩, length_filter_mem_top nodup_active]
  omega

theorem count_marked_iff (hlimit : limit < (active setting db).length) :
    ((marked setting db (cleanUpAccounts setting limit cleanupRatio db)).length : ℤ) =
        ⌊limit * cleanupRatio.value⌋ ↔
      0 ≤ limit * cleanupRatio.value ∧
        min (asked limit cleanupRatio) (active setting db).length =
          ⌊limit * cleanupRatio.value⌋ := by
  constructor
  · intro hlength
    have hcount : 0 ≤ limit * cleanupRatio.value :=
      Int.floor_nonneg.mp (hlength ▸ Int.natCast_nonneg _)
    exact ⟨hcount, (length_marked hlimit hcount).symm.trans hlength⟩
  · rintro ⟨hcount, hsame⟩
    exact (length_marked hlimit hcount).trans hsame

/-- The accounts that are marked are the youngest. -/
theorem youngest_marked {account other : Account}
    (hmarked : account ∈ marked setting db (cleanUpAccounts setting limit cleanupRatio db))
    (hother : other ∈ active setting db)
    (hnot : other ∉ marked setting db (cleanUpAccounts setting limit cleanupRatio db)) :
    other.creationDate ≤ account.creationDate := by
  rw [mem_marked_iff, chosen] at hmarked hnot
  split at hmarked
  · rename_i hchosen
    rw [if_pos hchosen] at hnot
    have hdate := key_le_of_mem_top _ hmarked hother hnot
    exact OrderDual.toDual_le_toDual.mp hdate
  · exact absurd hmarked List.not_mem_nil

/-- The youngest are also the oldest when they are none, or all, or as old as the others. -/
theorem oldest_marked_iff
    (hlength : ((marked setting db
      (cleanUpAccounts setting limit cleanupRatio db)).length : ℤ) =
        ⌊limit * cleanupRatio.value⌋) :
    (∀ account ∈ marked setting db (cleanUpAccounts setting limit cleanupRatio db),
      ∀ other ∈ active setting db,
        other ∉ marked setting db (cleanUpAccounts setting limit cleanupRatio db) →
          account.creationDate ≤ other.creationDate) ↔
      (⌊limit * cleanupRatio.value⌋ = 0 ∨
        ⌊limit * cleanupRatio.value⌋ = (active setting db).length ∨
          ∀ account ∈ active setting db, ∀ other ∈ active setting db,
            account.creationDate = other.creationDate) := by
  have hnone : marked setting db (cleanUpAccounts setting limit cleanupRatio db) = [] ↔
      ⌊limit * cleanupRatio.value⌋ = 0 := by
    rw [← hlength, Int.natCast_eq_zero, List.length_eq_zero_iff]
  have hall : (∀ account ∈ active setting db,
      account ∈ marked setting db (cleanUpAccounts setting limit cleanupRatio db)) ↔
        ⌊limit * cleanupRatio.value⌋ = (active setting db).length := by
    rw [← hlength, Int.natCast_inj, marked_cleanUp, List.length_filter_eq_length_iff]
    exact forall₂_congr fun account haccount => by simp [haccount]
  rw [← hnone, ← hall]
  exact lowest_of_highest_iff
    (fun account hmarked => mem_active_of_mem_chosen (mem_marked_iff.mp hmarked))
    fun account hmarked other hother hnot => youngest_marked hmarked hother hnot

/-- The cleanup retires the oldest accounts and only those just when no order refers to an
inactive account and, if any account is to be marked, the doubles give the right number and it
does not matter which. -/
theorem retires_iff (setting : Setting) (limit : ℤ) (cleanupRatio : Double) (db : AccountsDb) :
    Retires setting limit cleanupRatio db (cleanUpAccounts setting limit cleanupRatio db) ↔
      Unreferred setting db ∧
        (limit < (active setting db).length → AnyWillDo setting limit cleanupRatio db) := by
  constructor
  · intro hretires
    refine ⟨removed_iff.mp hretires.removed, fun hlimit => ?_⟩
    have hlength := hretires.count_marked hlimit
    obtain ⟨hcount, hsame⟩ := (count_marked_iff hlimit).mp hlength
    exact ⟨hcount, hsame, (oldest_marked_iff hlength).mp (hretires.oldest_marked hlimit)⟩
  · rintro ⟨hfree, hany⟩
    have hcount_marked : limit < (active setting db).length →
        ((marked setting db (cleanUpAccounts setting limit cleanupRatio db)).length : ℤ) =
          ⌊limit * cleanupRatio.value⌋ := fun hlimit =>
      (count_marked_iff hlimit).mpr ⟨(hany hlimit).1, (hany hlimit).2.1⟩
    exact
      { preset := fun account => preset_untouched
        removed := removed_iff.mpr hfree
        others := fun account => others_untouched
        none_marked := none_marked
        count_marked := hcount_marked
        oldest_marked := fun hlimit =>
          (oldest_marked_iff (hcount_marked hlimit)).mpr (hany hlimit).2.2 }

namespace Sample

/-- A collation that ignores case. -/
def ignoringCase : Setting where
  weight text := text.toList.map fun char => char.toUpper.toNat
  arrangement := Arrangement.listed Account

/-- Three active accounts of different ages, none of which is preset. -/
def ages : AccountsDb where
  accounts := ⟨[⟨11, "EasyTrade", 1000, some 1⟩, ⟨12, "EasyTrade", 2000, some 1⟩,
    ⟨13, "EasyTrade", 3000, some 1⟩], by decide⟩
  creditCardOrders := []
  foreignKey := fun _ horder => absurd horder List.not_mem_nil

/-- Two inactive accounts, one of which has a card order. -/
def ordered : AccountsDb where
  accounts := ⟨[⟨11, "EasyTrade", 1000, some 0⟩, ⟨12, "EasyTrade", 2000, some 0⟩], by decide⟩
  creditCardOrders := [⟨"bf9a6d0e", 12⟩]
  foreignKey := by decide

end Sample

/-- Of three accounts the youngest is marked, and neither of two inactive accounts is deleted
when one of them has ordered a card. -/
theorem not_retires :
    ¬Retires Sample.ignoringCase 2 CLEANUP_RATIO Sample.ages
        (cleanUpAccounts Sample.ignoringCase 2 CLEANUP_RATIO Sample.ages) ∧
      ¬Retires Sample.ignoringCase 5000 CLEANUP_RATIO Sample.ordered
        (cleanUpAccounts Sample.ignoringCase 5000 CLEANUP_RATIO Sample.ordered) := by
  constructor
  · intro hretires
    have hlimit : (2 : ℤ) < (active Sample.ignoringCase Sample.ages).length := by decide +kernel
    have hage := hretires.oldest_marked hlimit ⟨13, "EasyTrade", 3000, some 1⟩
      (by decide +kernel) ⟨11, "EasyTrade", 1000, some 1⟩ (by decide +kernel) (by decide +kernel)
    exact absurd hage (by decide)
  · intro hretires
    exact hretires.removed ⟨11, "EasyTrade", 1000, some 0⟩ (by decide) (by decide +kernel)
      (by decide +kernel)

end EasyTrade.Cleanup

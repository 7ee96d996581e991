import Mathlib

/-!
# Tables with a primary key

A table is a list of rows in insertion order whose keys are pairwise
different.  The key constraint is part of the type, so every update below
keeps it and a lookup by key never meets a second row.
-/

namespace EasyTrade

variable {α κ : Type} [DecidableEq κ]

/-- Rows of type `α` under the primary key `key`. -/
structure Table (key : α → κ) where
  rows : List α
  keysNodup : (rows.map key).Nodup

namespace Table

variable {key : α → κ}

def empty : Table key := ⟨[], List.nodup_nil⟩

/-- The primary keys in use. -/
def keys (table : Table key) : List κ := table.rows.map key

def find? (table : Table key) (k : κ) : Option α :=
  table.rows.find? fun row => key row = k

/-- `UPDATE ... WHERE key = key row`: nothing happens when there is no such
row. -/
def set (table : Table key) (row : α) : Table key where
  rows := table.rows.map fun old => if key old = key row then row else old
  keysNodup := by
    have hkeys : (table.rows.map fun old =>
        if key old = key row then row else old).map key =
          table.rows.map key := by
      rw [List.map_map]
      refine List.map_congr_left fun old _ => ?_
      by_cases h : key old = key row <;> simp [h]
    rw [hkeys]
    exact table.keysNodup

/-- `INSERT`: a row whose key is taken is rejected. -/
def insert (table : Table key) (row : α) : Table key :=
  if h : key row ∈ table.rows.map key then table
  else
    { rows := table.rows ++ [row]
      keysNodup := by
        rw [List.map_append, List.map_singleton]
        exact table.keysNodup.append (List.nodup_singleton _)
          (by simpa using h) }

/-- `DELETE ... WHERE condition`. -/
def delete (table : Table key) (condition : α → Bool) : Table key where
  rows := table.rows.filter fun row => !condition row
  keysNodup := table.keysNodup.sublist (List.filter_sublist.map key)

/-- The total of a numeric column over all rows. -/
def sumBy {M : Type} [AddCommMonoid M] (table : Table key) (column : α → M) : M :=
  (table.rows.map column).sum

omit [DecidableEq κ] in
theorem ext_rows {left right : Table key} (hrows : left.rows = right.rows) : left = right := by
  cases left
  cases right
  simpa using hrows

instance [DecidableEq α] : DecidableEq (Table key) := fun _ _ =>
  decidable_of_iff _ ⟨ext_rows, congrArg rows⟩

theorem find?_eq_some_iff {table : Table key} {k : κ} {row : α} :
    table.find? k = some row ↔ row ∈ table.rows ∧ key row = k := by
  constructor
  · intro h
    exact ⟨List.mem_of_find?_eq_some h, by simpa using List.find?_some h⟩
  · rintro ⟨hmem, rfl⟩
    have hsome : (table.find? (key row)).isSome := by
      rw [find?, List.find?_isSome]
      exact ⟨row, hmem, by simp⟩
    obtain ⟨other, hother⟩ := Option.isSome_iff_exists.mp hsome
    have hkey : key other = key row := by simpa using List.find?_some hother
    have hsame : other = row :=
      List.inj_on_of_nodup_map table.keysNodup
        (List.mem_of_find?_eq_some hother) hmem hkey
    rw [hother, hsame]

theorem find?_eq_none_iff {table : Table key} {k : κ} :
    table.find? k = none ↔ k ∉ table.keys := by
  simp [find?, keys]

theorem key_of_find? {table : Table key} {k : κ} {row : α}
    (h : table.find? k = some row) : key row = k :=
  (find?_eq_some_iff.mp h).2

theorem mem_of_find? {table : Table key} {k : κ} {row : α}
    (h : table.find? k = some row) : row ∈ table.rows :=
  (find?_eq_some_iff.mp h).1

theorem find?_key {table : Table key} {row : α} (h : row ∈ table.rows) :
    table.find? (key row) = some row :=
  find?_eq_some_iff.mpr ⟨h, rfl⟩

theorem mem_keys_of_find? {table : Table key} {k : κ} {row : α}
    (h : table.find? k = some row) : k ∈ table.keys :=
  List.mem_map.mpr ⟨row, mem_of_find? h, key_of_find? h⟩

/-- Every row is changed under its key. -/
def map (rewrite : α → α) (hkey : ∀ row, key (rewrite row) = key row) (table : Table key) :
    Table key where
  rows := table.rows.map rewrite
  keysNodup := by
    have hkeys : key ∘ rewrite = key := funext hkey
    rw [List.map_map, hkeys]
    exact table.keysNodup

theorem find?_map {rewrite : α → α} (hkey : ∀ row, key (rewrite row) = key row)
    (table : Table key) (k : κ) :
    (table.map rewrite hkey).find? k = (table.find? k).map rewrite := by
  rw [find?, map, List.find?_map, find?]
  congr 2
  funext row
  rw [Function.comp_apply, hkey]

omit [DecidableEq κ] in
theorem map_map_of_idem {rewrite : α → α} (hkey : ∀ row, key (rewrite row) = key row)
    (hidem : ∀ row, rewrite (rewrite row) = rewrite row) (table : Table key) :
    (table.map rewrite hkey).map rewrite hkey = table.map rewrite hkey := by
  have hcomp : rewrite ∘ rewrite = rewrite := funext hidem
  simp only [map, List.map_map, hcomp]

/-- A table is determined by the order of its keys and by its lookups. -/
theorem ext_find? {left right : Table key} (hkeys : left.keys = right.keys)
    (hfind : ∀ k ∈ left.keys, left.find? k = right.find? k) : left = right := by
  have hrows : left.rows = right.rows := by
    have hlength : left.rows.length = right.rows.length := by
      simpa [keys] using congrArg List.length hkeys
    refine List.ext_getElem hlength fun i hleft hright => ?_
    have hkey : key left.rows[i] = key right.rows[i] := by
      have := congrArg (fun ks => ks[i]?) hkeys
      simpa [keys, hleft, hright] using this
    have hlookup := hfind (key left.rows[i])
      (List.mem_map_of_mem (List.getElem_mem hleft))
    rw [find?_key (List.getElem_mem hleft), hkey,
      find?_key (List.getElem_mem hright)] at hlookup
    exact Option.some.inj hlookup
  exact ext_rows hrows

/-! ## Updating rows -/

@[simp]
theorem keys_set (table : Table key) (row : α) :
    (table.set row).keys = table.keys := by
  rw [keys, keys, set, List.map_map]
  refine List.map_congr_left fun old _ => ?_
  by_cases h : key old = key row <;> simp [h]

theorem mem_rows_set {table : Table key} {row other : α} :
    other ∈ (table.set row).rows ↔
      (other ∈ table.rows ∧ key other ≠ key row) ∨
        (other = row ∧ key row ∈ table.keys) := by
  simp only [set, List.mem_map, keys]
  constructor
  · rintro ⟨old, hold, rfl⟩
    by_cases h : key old = key row
    · exact Or.inr ⟨by simp [h], old, hold, h⟩
    · exact Or.inl ⟨by simpa [h] using hold, by simp [h]⟩
  · rintro (⟨hmem, hne⟩ | ⟨rfl, old, hold, hkey⟩)
    · exact ⟨other, hmem, by simp [hne]⟩
    · exact ⟨old, hold, by simp [hkey]⟩

theorem find?_set_self {table : Table key} {row : α}
    (h : key row ∈ table.keys) : (table.set row).find? (key row) = some row :=
  find?_eq_some_iff.mpr ⟨mem_rows_set.mpr (Or.inr ⟨rfl, h⟩), rfl⟩

theorem find?_set_ne {table : Table key} {row : α} {k : κ} (h : key row ≠ k) :
    (table.set row).find? k = table.find? k := by
  cases hfind : table.find? k with
  | none =>
      rw [find?_eq_none_iff] at hfind ⊢
      rwa [keys_set]
  | some old =>
      obtain ⟨hmem, hkey⟩ := find?_eq_some_iff.mp hfind
      refine find?_eq_some_iff.mpr ⟨mem_rows_set.mpr (Or.inl ⟨hmem, ?_⟩), hkey⟩
      rw [hkey]
      exact Ne.symm h

theorem find?_set (table : Table key) (row : α) (k : κ) :
    (table.set row).find? k =
      if key row = k then (table.find? k).map (fun _ => row)
      else table.find? k := by
  by_cases hkey : key row = k
  · subst hkey
    rw [if_pos rfl]
    cases hfind : table.find? (key row) with
    | none =>
        rw [find?_eq_none_iff] at hfind
        rw [Option.map_none, find?_eq_none_iff, keys_set]
        exact hfind
    | some old =>
        rw [Option.map_some]
        apply find?_set_self
        by_contra hmem
        rw [find?_eq_none_iff.mpr hmem] at hfind
        cases hfind
  · rw [if_neg hkey, find?_set_ne hkey]

/-- Writing back the row that is already there changes nothing. -/
theorem set_eq_self {table : Table key} {row : α}
    (h : table.find? (key row) = some row) : table.set row = table := by
  refine ext_find? (keys_set table row) fun k _ => ?_
  rw [find?_set]
  split_ifs with hkey
  · subst hkey
    simp [h]
  · rfl

/-- The later of two updates of one row wins. -/
theorem set_set {table : Table key} {first second : α}
    (h : key first = key second) :
    (table.set first).set second = table.set second := by
  refine ext_find? (by simp) fun k _ => ?_
  simp only [find?_set, h]
  split_ifs
  · simp [Function.comp_def]
  · rfl

/-- Updating a row keeps every column on which the new row agrees with the
old one. -/
theorem map_rows_set {β : Type} {table : Table key} {row : α} {column : α → β}
    (h : ∀ old, table.find? (key row) = some old → column row = column old) :
    (table.set row).rows.map column = table.rows.map column := by
  rw [set, List.map_map]
  refine List.map_congr_left fun old hold => ?_
  by_cases hkey : key old = key row
  · have := h old (hkey ▸ find?_key hold)
    simp [hkey, this]
  · simp [hkey]

/-- An update replaces one row and leaves the others where they are. -/
theorem rows_set {table : Table key} {row old : α} (h : table.find? (key row) = some old) :
    ∃ before after, table.rows = before ++ old :: after ∧
      (table.set row).rows = before ++ row :: after := by
  obtain ⟨before, after, hrows⟩ := List.append_of_mem (mem_of_find? h)
  have hkey : key old = key row := key_of_find? h
  have hnodup := table.keysNodup
  rw [hrows, List.map_append, List.map_cons, List.nodup_middle, ← List.map_append,
    List.nodup_cons] at hnodup
  have hothers : ∀ rows : List α, (∀ other ∈ rows, other ∈ before ++ after) →
      (rows.map fun other => if key other = key row then row else other) = rows := by
    intro rows hmem
    conv_rhs => rw [← List.map_id rows]
    refine List.map_congr_left fun other hother => ?_
    have hne : key other ≠ key row := fun heq =>
      hnodup.1 (hkey ▸ heq ▸ List.mem_map_of_mem (hmem other hother))
    rw [if_neg hne, id]
  refine ⟨before, after, hrows, ?_⟩
  simp only [set, hrows, List.map_append, List.map_cons, if_pos hkey]
  rw [hothers before fun other => List.mem_append_left after,
    hothers after fun other => List.mem_append_right before]

theorem sumBy_set {M : Type} [AddCommGroup M] {table : Table key}
    {row old : α} {column : α → M} (h : table.find? (key row) = some old) :
    (table.set row).sumBy column =
      table.sumBy column + (column row - column old) := by
  obtain ⟨before, after, hrows, hset⟩ := rows_set h
  simp only [sumBy, hrows, hset, List.map_append, List.map_cons, List.sum_append,
    List.sum_cons]
  abel

/-- Replacing a row that a filter leaves out adds the new row to what the
filter keeps, if it keeps it. -/
theorem filter_rows_set {table : Table key} {row old : α} {p : α → Bool}
    (h : table.find? (key row) = some old) (hold : p old = false) :
    ((table.set row).rows.filter p).Perm
      (table.rows.filter p ++ if p row then [row] else []) := by
  obtain ⟨before, after, hrows, hset⟩ := rows_set h
  rw [hrows, hset]
  cases hrow : p row with
  | false => simp [hold, hrow]
  | true =>
      simp only [List.filter_append, List.filter_cons, hold, hrow, if_true,
        Bool.false_eq_true, if_false]
      exact List.perm_middle.trans (List.perm_append_singleton _ _).symm

/-! ## Deleting rows -/

omit [DecidableEq κ] in
@[simp]
theorem rows_delete (table : Table key) (condition : α → Bool) :
    (table.delete condition).rows = table.rows.filter fun row => !condition row := rfl

/-! ## Adding rows -/

theorem rows_insert {table : Table key} {row : α} (h : key row ∉ table.keys) :
    (table.insert row).rows = table.rows ++ [row] := by
  rw [insert, dif_neg (by simpa [keys] using h)]

theorem insert_of_mem {table : Table key} {row : α} (h : key row ∈ table.keys) :
    table.insert row = table :=
  dif_pos h

theorem mem_rows_of_insert {table : Table key} {row other : α}
    (h : other ∈ (table.insert row).rows) : other ∈ table.rows ∨ other = row := by
  by_cases hrow : key row ∈ table.keys
  · rw [insert_of_mem hrow] at h
    exact Or.inl h
  · rwa [rows_insert hrow, List.mem_append, List.mem_singleton] at h

theorem keys_insert {table : Table key} {row : α} (h : key row ∉ table.keys) :
    (table.insert row).keys = table.keys ++ [key row] := by
  simp [keys, rows_insert h]

theorem find?_insert {table : Table key} {row : α} (h : key row ∉ table.keys)
    (k : κ) :
    (table.insert row).find? k = if key row = k then some row else table.find? k := by
  rw [find?, rows_insert h, List.find?_append]
  by_cases hkey : key row = k
  · subst hkey
    have hnone : table.rows.find? (fun other => decide (key other = key row)) = none :=
      find?_eq_none_iff.mpr h
    simp [hnone]
  · simp [hkey, find?]

theorem set_insert {table : Table key} {row : α} (h : key row ∈ table.keys) (new : α) :
    (table.insert new).set row = (table.set row).insert new := by
  by_cases hnew : key new ∈ table.keys
  · rw [insert_of_mem hnew, insert_of_mem (by rwa [keys_set])]
  · have hnew' : key new ∉ (table.set row).keys := by rwa [keys_set]
    have hne : key row ≠ key new := fun heq => hnew (heq ▸ h)
    refine ext_find? ?_ fun k _ => ?_
    · rw [keys_set, keys_insert hnew, keys_insert hnew', keys_set]
    · rw [find?_set, find?_insert hnew, find?_insert hnew', find?_set]
      by_cases hk : key row = k
      · simp [hk, hk ▸ Ne.symm hne]
      · simp [hk]

theorem mem_keys_insert {table : Table key} {row : α} {k : κ} :
    k ∈ (table.insert row).keys ↔ k ∈ table.keys ∨ k = key row := by
  by_cases hrow : key row ∈ table.keys
  · rw [insert_of_mem hrow]
    exact ⟨Or.inl, fun h => h.elim id fun hk => hk ▸ hrow⟩
  · simp [keys_insert hrow]

theorem mem_keys_foldl_insert {table : Table key} {rows : List α} {k : κ} :
    k ∈ (rows.foldl insert table).keys ↔ k ∈ table.keys ∨ k ∈ rows.map key := by
  induction rows generalizing table with
  | nil => simp
  | cons head tail ih =>
      rw [List.foldl_cons, ih, mem_keys_insert, List.map_cons, List.mem_cons, or_assoc]

/-- Rows that were there are found unchanged after inserting others. -/
theorem find?_foldl_insert {table : Table key} {k : κ} (h : k ∈ table.keys)
    (rows : List α) : (rows.foldl insert table).find? k = table.find? k := by
  induction rows generalizing table with
  | nil => rfl
  | cons head tail ih =>
      rw [List.foldl_cons, ih (mem_keys_insert.mpr (Or.inl h))]
      by_cases hhead : key head ∈ table.keys
      · rw [insert_of_mem hhead]
      · rw [find?_insert hhead, if_neg (fun hk : key head = k => hhead (hk ▸ h))]

/-- An update of a row commutes with inserting others. -/
theorem set_foldl_insert {table : Table key} {row : α} (h : key row ∈ table.keys)
    (rows : List α) :
    (rows.foldl insert table).set row = rows.foldl insert (table.set row) := by
  induction rows generalizing table with
  | nil => rfl
  | cons head tail ih =>
      rw [List.foldl_cons, List.foldl_cons, ← set_insert h]
      exact ih (mem_keys_insert.mpr (Or.inl h))

/-! ## Generated integer keys -/

section NextKey

variable {key : α → ℤ}

/-- One more than every key in use. -/
def nextKey (table : Table key) : ℤ := table.keys.foldr max 0 + 1

theorem lt_nextKey {table : Table key} {k : ℤ} (h : k ∈ table.keys) :
    k < table.nextKey := by
  have hle : ∀ ks : List ℤ, k ∈ ks → k ≤ ks.foldr max 0 := by
    intro ks
    induction ks with
    | nil => simp
    | cons head tail ih =>
        rintro hmem
        rcases List.mem_cons.mp hmem with rfl | htail
        · exact le_max_left _ _
        · exact (ih htail).trans (le_max_right _ _)
  exact Int.lt_add_one_of_le (hle _ h)

/-- Rows that receive the generated keys from `first` on. -/
def number (withKey : α → ℤ → α) (first : ℤ) (rows : List α) : List α :=
  rows.mapIdx fun i row => withKey row (first + i)

theorem number_concat (withKey : α → ℤ → α) (first : ℤ) (rows : List α) (row : α) :
    number withKey first (rows ++ [row]) =
      number withKey first rows ++ [withKey row (first + rows.length)] := by
  simp [number]

/-- What does not depend on the keys is the same for the rows without them. -/
theorem map_number {β : Type} {withKey : α → ℤ → α} {f : α → β}
    (hf : ∀ row k, f (withKey row k) = f row) (first : ℤ) (rows : List α) :
    (number withKey first rows).map f = rows.map f := by
  refine List.ext_getElem (by simp [number]) fun i hleft hright => ?_
  simp [number, hf]

/-- The next generated key is free when the others have been used. -/
theorem next_not_mem_keys {withKey : α → ℤ → α} (hkey : ∀ row k, key (withKey row k) = k)
    {table : Table key} {first : ℤ} {rows : List α}
    (hfree : ∀ k ∈ table.keys, k < first) :
    first + rows.length ∉ ((number withKey first rows).foldl insert table).keys := by
  rw [mem_keys_foldl_insert]
  rintro (hstored | hadded)
  · have hlt := hfree _ hstored
    omega
  · simp only [number, List.mem_map, List.mem_mapIdx] at hadded
    obtain ⟨_, ⟨i, hi, rfl⟩, hid⟩ := hadded
    rw [hkey] at hid
    omega

end NextKey

end Table

end EasyTrade

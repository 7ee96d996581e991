import EasyTrade.Core.Table

/-!
# Identity maps

A request keeps one object for each row it has read, hands out that object on
every later read of the row, and sends the changed objects to the database
when it saves.  The theorems say that this is invisible to a request working
alone: reading through the map after unsaved updates gives what a save
followed by a plain read would give.
-/

namespace EasyTrade

variable {α κ : Type} [DecidableEq κ]

/-- An object under tracking: the row as it was read or last saved, the object
as it is now, and whether it is to be written by the next save. -/
structure Tracked (α : Type) where
  original : α
  current : α
  modified : Bool

/-- At most one object for each key. -/
abbrev IdentityMap (key : α → κ) := Table fun entry : Tracked α => key entry.current

namespace IdentityMap

variable {key : α → κ}

/-- The object for a row just read: the tracked one if the row was read
before, otherwise a new one. -/
def resolve (entries : IdentityMap key) (row : α) : α :=
  match entries.find? (key row) with
  | some entry => entry.current
  | none => row

def attach (entries : IdentityMap key) (row : α) : IdentityMap key :=
  entries.insert ⟨row, row, false⟩

/-- The objects for the rows of a query. -/
def attachAll (entries : IdentityMap key) : List α → List α × IdentityMap key
  | [] => ([], entries)
  | row :: rows =>
      let rest := attachAll (entries.attach row) rows
      (entries.resolve row :: rest.1, rest.2)

/-- `Update`: the object goes to the database at the next save. -/
def update (entries : IdentityMap key) (object : α) : IdentityMap key :=
  match entries.find? (key object) with
  | some entry => entries.set ⟨entry.original, object, true⟩
  | none => entries.insert ⟨object, object, true⟩

/-- The entries the next save writes. -/
def dirty (entries : IdentityMap key) : List (Tracked α) :=
  entries.rows.filter (·.modified)

/-- After a save every object is the stored row again. -/
def accept (entries : IdentityMap key) : IdentityMap key where
  rows := entries.rows.map fun entry => ⟨entry.current, entry.current, false⟩
  keysNodup := by
    rw [List.map_map]
    exact entries.keysNodup

/-- The table after the pending updates. -/
def flush (entries : IdentityMap key) (table : Table key) : Table key :=
  entries.dirty.foldl (fun table entry => table.set entry.current) table

/-- The map mirrors a table: every object has a row there, and an object that
is not waiting to be written equals its row. -/
structure Mirrors (entries : IdentityMap key) (table : Table key) : Prop where
  stored : ∀ entry ∈ entries.rows, key entry.current ∈ table.keys
  unmodified : ∀ entry ∈ entries.rows, entry.modified = false →
    table.find? (key entry.current) = some entry.current

private theorem find?_foldl_set (entries : List (Tracked α))
    (hnodup : (entries.map fun entry => key entry.current).Nodup)
    (table : Table key) (k : κ) :
    (entries.foldl (fun table entry => table.set entry.current) table).find? k =
      match entries.find? fun entry => key entry.current = k with
      | some entry => (table.find? k).map fun _ => entry.current
      | none => table.find? k := by
  induction entries generalizing table with
  | nil => rfl
  | cons head tail ih =>
      rw [List.map_cons, List.nodup_cons] at hnodup
      rw [List.foldl_cons, ih hnodup.2, Table.find?_set]
      by_cases hk : key head.current = k
      · subst hk
        have htail : tail.find? (fun entry => key entry.current = key head.current) =
            none := by
          rw [List.find?_eq_none]
          intro entry hentry heq
          exact hnodup.1 (List.mem_map.mpr ⟨entry, hentry, by simpa using heq⟩)
        simp [htail]
      · simp [hk]

variable {entries : IdentityMap key} {table : Table key}

theorem keys_flush : (entries.flush table).keys = table.keys := by
  unfold flush
  induction entries.dirty generalizing table with
  | nil => rfl
  | cons head tail ih => rw [List.foldl_cons, ih, Table.keys_set]

/-- Reading the flushed table is reading the table through the map. -/
theorem Mirrors.find?_flush (hmirrors : Mirrors entries table) (k : κ) :
    (entries.flush table).find? k =
      match entries.find? k with
      | some entry => (table.find? k).map fun _ => entry.current
      | none => table.find? k := by
  have hnodup : (entries.dirty.map fun entry => key entry.current).Nodup :=
    entries.keysNodup.sublist (List.filter_sublist.map _)
  rw [flush, find?_foldl_set _ hnodup]
  cases hfind : entries.find? k with
  | none =>
      have hdirty : entries.dirty.find? (fun entry => key entry.current = k) = none := by
        rw [List.find?_eq_none]
        intro entry hentry
        exact List.find?_eq_none.mp hfind entry (List.mem_filter.mp hentry).1
      rw [hdirty]
  | some entry =>
      obtain ⟨hmem, hkey⟩ := Table.find?_eq_some_iff.mp hfind
      cases hmodified : entry.modified with
      | true =>
          have hdirty : entries.dirty.find? (fun entry => key entry.current = k) =
              some entry := by
            let written : IdentityMap key := ⟨entries.dirty, hnodup⟩
            have hwritten : Table.find? written k = some entry :=
              Table.find?_eq_some_iff.mpr ⟨List.mem_filter.mpr ⟨hmem, hmodified⟩, hkey⟩
            exact hwritten
          rw [hdirty]
      | false =>
          have hdirty : entries.dirty.find? (fun entry => key entry.current = k) = none := by
            rw [List.find?_eq_none]
            intro other hother heq
            obtain ⟨hotherMem, hotherModified⟩ := List.mem_filter.mp hother
            have hsame : other = entry :=
              List.inj_on_of_nodup_map entries.keysNodup hotherMem hmem
                ((by simpa using heq : key other.current = k).trans hkey.symm)
            rw [hsame, hmodified] at hotherModified
            cases hotherModified
          have hread := hmirrors.unmodified entry hmem hmodified
          rw [hkey] at hread
          rw [hdirty, hread]
          rfl

/-- The object handed out for a row is the row of the flushed table. -/
theorem Mirrors.resolve_eq (hmirrors : Mirrors entries table) {k : κ} {row : α}
    (hread : table.find? k = some row) :
    (entries.flush table).find? k = some (entries.resolve row) := by
  rw [hmirrors.find?_flush, resolve, Table.key_of_find? hread, hread]
  cases entries.find? k <;> rfl

theorem mirrors_empty (table : Table key) :
    Mirrors (Table.empty : IdentityMap key) table :=
  ⟨fun _ h => absurd h List.not_mem_nil, fun _ h => absurd h List.not_mem_nil⟩

theorem attach_eq_self {row : α} (hmem : key row ∈ Table.keys entries) :
    entries.attach row = entries :=
  dif_pos hmem

theorem rows_attach {row : α} (hmem : key row ∉ Table.keys entries) :
    (entries.attach row).rows = entries.rows ++ [⟨row, row, false⟩] := by
  have hinsert : (Table.insert entries (⟨row, row, false⟩ : Tracked α)).rows =
      entries.rows ++ [⟨row, row, false⟩] := Table.rows_insert hmem
  exact hinsert

theorem mem_rows_attach {row : α} {entry : Tracked α}
    (h : entry ∈ (entries.attach row).rows) :
    entry ∈ entries.rows ∨ entry = ⟨row, row, false⟩ := by
  by_cases hmem : key row ∈ Table.keys entries
  · rw [attach_eq_self hmem] at h
    exact Or.inl h
  · rw [rows_attach hmem, List.mem_append, List.mem_singleton] at h
    exact h

theorem key_resolve (row : α) : key (entries.resolve row) = key row := by
  rw [resolve]
  cases hfind : entries.find? (key row) with
  | none => rfl
  | some entry =>
      have hkey := Table.key_of_find? hfind
      exact hkey

/-- The object handed out for a row is tracked from then on. -/
theorem find?_attach (row : α) :
    ((entries.attach row).find? (key row)).map Tracked.current =
      some (entries.resolve row) := by
  by_cases hmem : key row ∈ Table.keys entries
  · obtain ⟨entry, hentry⟩ := Option.ne_none_iff_exists'.mp
      (fun hnone => Table.find?_eq_none_iff.mp hnone hmem)
    rw [attach_eq_self hmem, resolve, hentry, Option.map_some]
  · have hinserted : (entries.attach row).find? (key row) = some ⟨row, row, false⟩ := by
      have hinsert : (Table.insert entries (⟨row, row, false⟩ : Tracked α)).find? (key row) =
          if key row = key row then some ⟨row, row, false⟩ else entries.find? (key row) :=
        Table.find?_insert hmem (key row)
      rwa [if_pos rfl] at hinsert
    rw [hinserted, resolve, Table.find?_eq_none_iff.mpr hmem, Option.map_some]

theorem Mirrors.attach (hmirrors : Mirrors entries table) {row : α}
    (hread : table.find? (key row) = some row) :
    Mirrors (entries.attach row) table := by
  by_cases hmem : key row ∈ Table.keys entries
  · rwa [attach_eq_self hmem]
  · refine ⟨fun entry hentry => ?_, fun entry hentry hmodified => ?_⟩ <;>
      rw [rows_attach hmem, List.mem_append, List.mem_singleton] at hentry <;>
      rcases hentry with hentry | rfl
    · exact hmirrors.stored entry hentry
    · exact Table.mem_keys_of_find? hread
    · exact hmirrors.unmodified entry hentry hmodified
    · exact hread

/-- Starting to track a row does not change what a save would write. -/
theorem dirty_attach (row : α) : (entries.attach row).dirty = entries.dirty := by
  by_cases hmem : key row ∈ Table.keys entries
  · rw [attach_eq_self hmem]
  · simp [dirty, rows_attach hmem]

theorem dirty_attachAll (rows : List α) : (entries.attachAll rows).2.dirty = entries.dirty := by
  induction rows generalizing entries with
  | nil => rfl
  | cons row rows ih =>
      calc
        (entries.attachAll (row :: rows)).2.dirty =
            ((entries.attach row).attachAll rows).2.dirty := rfl
        _ = entries.dirty := by rw [ih, dirty_attach]

theorem mem_rows_attachAll {rows : List α} {entry : Tracked α}
    (h : entry ∈ (entries.attachAll rows).2.rows) :
    entry ∈ entries.rows ∨ ∃ row ∈ rows, entry = ⟨row, row, false⟩ := by
  induction rows generalizing entries with
  | nil => exact Or.inl h
  | cons row rows ih =>
      rcases ih h with hattached | ⟨other, hother, heq⟩
      · rcases mem_rows_attach hattached with hold | hnew
        · exact Or.inl hold
        · exact Or.inr ⟨row, List.mem_cons_self, hnew⟩
      · exact Or.inr ⟨other, List.mem_cons_of_mem row hother, heq⟩

/-- A tracked object stays tracked when others are. -/
theorem mem_rows_of_attach {row : α} {entry : Tracked α} (h : entry ∈ entries.rows) :
    entry ∈ (entries.attach row).rows := by
  by_cases hmem : key row ∈ Table.keys entries
  · rwa [attach_eq_self hmem]
  · rw [rows_attach hmem]
    exact List.mem_append_left _ h

theorem mem_rows_of_attachAll {rows : List α} {entry : Tracked α} (h : entry ∈ entries.rows) :
    entry ∈ (entries.attachAll rows).2.rows := by
  induction rows generalizing entries with
  | nil => exact h
  | cons row rows ih => exact ih (mem_rows_of_attach h)

/-- The objects that a query hands out are tracked. -/
theorem exists_entry_of_attachAll {rows : List α} {object : α}
    (h : object ∈ (entries.attachAll rows).1) :
    ∃ entry ∈ (entries.attachAll rows).2.rows, entry.current = object := by
  induction rows generalizing entries with
  | nil => exact absurd h List.not_mem_nil
  | cons row rows ih =>
      rcases List.mem_cons.mp h with rfl | hlater
      · obtain ⟨entry, hentry, hcurrent⟩ := Option.map_eq_some_iff.mp (entries.find?_attach row)
        have hmem : entry ∈ (entries.attach row).rows := Table.mem_of_find? hentry
        have hkept : entry ∈ ((entries.attach row).attachAll rows).2.rows :=
          mem_rows_of_attachAll hmem
        exact ⟨entry, hkept, hcurrent⟩
      · exact ih hlater

/-- A query hands out one object for each row. -/
theorem keys_attachAll (rows : List α) :
    (entries.attachAll rows).1.map key = rows.map key := by
  induction rows generalizing entries with
  | nil => rfl
  | cons row rows ih =>
      have hrow : key (entries.resolve row) = key row := key_resolve row
      calc
        (entries.attachAll (row :: rows)).1.map key =
            key (entries.resolve row) :: ((entries.attach row).attachAll rows).1.map key := rfl
        _ = _ := by rw [ih, hrow, List.map_cons]

theorem flush_attach (row : α) :
    (entries.attach row).flush table = entries.flush table := by
  rw [flush, dirty_attach, flush]

/-- A query hands out the rows of the flushed table, and tracking them changes
nothing else. -/
theorem Mirrors.attachAll (hmirrors : Mirrors entries table) {rows : List α}
    (hread : ∀ row ∈ rows, table.find? (key row) = some row) :
    Mirrors (entries.attachAll rows).2 table ∧
      (entries.attachAll rows).2.flush table = entries.flush table ∧
      (entries.attachAll rows).1 =
        rows.filterMap fun row => (entries.flush table).find? (key row) := by
  induction rows generalizing entries with
  | nil => exact ⟨hmirrors, rfl, rfl⟩
  | cons row rows ih =>
      have hrow := hread row List.mem_cons_self
      obtain ⟨htail, hflush, hobjects⟩ := ih (hmirrors.attach hrow)
        fun other hother => hread other (List.mem_cons_of_mem row hother)
      rw [flush_attach] at hflush hobjects
      refine ⟨htail, hflush, ?_⟩
      calc
        (entries.attachAll (row :: rows)).1 =
            entries.resolve row :: ((entries.attach row).attachAll rows).1 := rfl
        _ = _ := by
          rw [hobjects, List.filterMap_cons, hmirrors.resolve_eq hrow]

theorem update_of_find? {object : α} {entry : Tracked α}
    (h : entries.find? (key object) = some entry) :
    entries.update object = Table.set entries ⟨entry.original, object, true⟩ := by
  simp [update, h]

theorem update_of_not_mem {object : α} (h : key object ∉ Table.keys entries) :
    entries.update object = Table.insert entries ⟨object, object, true⟩ := by
  simp [update, Table.find?_eq_none_iff.mpr h]

theorem find?_update (object : α) (k : κ) :
    ((entries.update object).find? k).map Tracked.current =
      if key object = k then some object
      else (entries.find? k).map Tracked.current := by
  by_cases hmem : key object ∈ Table.keys entries
  · obtain ⟨entry, hentry⟩ := Option.ne_none_iff_exists'.mp
      (fun hnone => Table.find?_eq_none_iff.mp hnone hmem)
    rw [update_of_find? hentry, Table.find?_set]
    by_cases hk : key object = k
    · subst hk
      simp [hentry]
    · simp [hk]
  · rw [update_of_not_mem hmem, Table.find?_insert hmem]
    by_cases hk : key object = k <;> simp [hk]

theorem mem_rows_update {object : α} {entry : Tracked α}
    (h : entry ∈ (entries.update object).rows) :
    entry ∈ entries.rows ∨ entry.current = object ∧ entry.modified = true := by
  by_cases hmem : key object ∈ Table.keys entries
  · obtain ⟨old, hold⟩ := Option.ne_none_iff_exists'.mp
      (fun hnone => Table.find?_eq_none_iff.mp hnone hmem)
    rw [update_of_find? hold] at h
    rcases Table.mem_rows_set.mp h with ⟨hentry, _⟩ | ⟨rfl, _⟩
    · exact Or.inl hentry
    · exact Or.inr ⟨rfl, rfl⟩
  · rw [update_of_not_mem hmem, Table.rows_insert (by exact hmem), List.mem_append,
      List.mem_singleton] at h
    rcases h with hentry | rfl
    · exact Or.inl hentry
    · exact Or.inr ⟨rfl, rfl⟩

/-- What becomes of a tracked object when one is updated. -/
theorem exists_entry_update (object : α) {entry : Tracked α} (h : entry ∈ entries.rows) :
    ∃ entry' ∈ (entries.update object).rows, entry'.current =
      if key object = key entry.current then object else entry.current := by
  have hentry : entries.find? (key entry.current) = some entry :=
    Table.find?_eq_some_iff.mpr ⟨h, rfl⟩
  have hupdate : ((entries.update object).find? (key entry.current)).map Tracked.current =
      if key object = key entry.current then some object
      else (entries.find? (key entry.current)).map Tracked.current :=
    find?_update object (key entry.current)
  rw [hentry, Option.map_some, ← apply_ite some] at hupdate
  obtain ⟨entry', hentry', hcurrent⟩ := Option.map_eq_some_iff.mp hupdate
  exact ⟨entry', Table.mem_of_find? hentry', hcurrent⟩

/-- An update of a tracked object is written with the row as it was read, when there was
nothing to be written before. -/
theorem dirty_update_of_find? {object : α} {old : Tracked α} (h : entries.dirty = [])
    (hold : entries.find? (key object) = some old) :
    (entries.update object).dirty = [⟨old.original, object, true⟩] := by
  have hsplit : ∃ before after, entries.rows = before ++ old :: after ∧
      (Table.set entries ⟨old.original, object, true⟩).rows =
        before ++ ⟨old.original, object, true⟩ :: after := Table.rows_set hold
  obtain ⟨before, after, hrows, hset⟩ := hsplit
  rw [dirty, hrows, List.filter_append, List.filter_cons, List.append_eq_nil_iff] at h
  have hafter : after.filter (·.modified) = [] := by
    have htail := h.2
    split_ifs at htail
    exact htail
  rw [update_of_find? hold, dirty, hset]
  simp [h.1, hafter]

/-- An update is the only object to be written when there was none before. -/
theorem dirty_update {object : α} (h : entries.dirty = []) :
    (entries.update object).dirty.map Tracked.current = [object] := by
  by_cases hmem : key object ∈ Table.keys entries
  · obtain ⟨old, hold⟩ := Option.ne_none_iff_exists'.mp
      (fun hnone => Table.find?_eq_none_iff.mp hnone hmem)
    rw [dirty_update_of_find? h hold]
    rfl
  · rw [update_of_not_mem hmem, dirty, Table.rows_insert (by exact hmem), List.filter_append]
    have hclean : entries.rows.filter (·.modified) = [] := h
    simp [hclean]

theorem Mirrors.update (hmirrors : Mirrors entries table) {object : α}
    (hstored : key object ∈ table.keys) :
    Mirrors (entries.update object) table := by
  refine ⟨fun entry hentry => ?_, fun entry hentry hmodified => ?_⟩ <;>
    rcases mem_rows_update hentry with hold | ⟨rfl, hmodified'⟩
  · exact hmirrors.stored entry hold
  · exact hstored
  · exact hmirrors.unmodified entry hold hmodified
  · exact absurd (hmodified.symm.trans hmodified') (by decide)

/-- Updating an object is updating its row in the flushed table. -/
theorem Mirrors.flush_update (hmirrors : Mirrors entries table) {object : α}
    (hstored : key object ∈ table.keys) :
    (entries.update object).flush table = (entries.flush table).set object := by
  refine Table.ext_find? (by rw [Table.keys_set, keys_flush, keys_flush]) fun k _ => ?_
  have hupdate : ((entries.update object).find? k).map Tracked.current =
      if key object = k then some object else (entries.find? k).map Tracked.current :=
    find?_update object k
  rw [(hmirrors.update hstored).find?_flush, Table.find?_set, hmirrors.find?_flush]
  by_cases hk : key object = k
  · rw [if_pos hk] at hupdate ⊢
    obtain ⟨entry, hentry, hcurrent⟩ := Option.map_eq_some_iff.mp hupdate
    rw [hentry]
    cases entries.find? k <;> simp [hcurrent, Function.comp_def]
  · rw [if_neg hk] at hupdate ⊢
    cases hold : entries.find? k with
    | none =>
        rw [hold, Option.map_none, Option.map_eq_none_iff] at hupdate
        rw [hupdate]
    | some entry =>
        rw [hold, Option.map_some] at hupdate
        obtain ⟨new, hnew, hcurrent⟩ := Option.map_eq_some_iff.mp hupdate
        rw [hnew]
        simp only [hcurrent]

/-- After a save the map mirrors the table that was written. -/
theorem Mirrors.accept (hmirrors : Mirrors entries table) :
    Mirrors entries.accept (entries.flush table) := by
  refine ⟨fun entry hentry => ?_, fun entry hentry _ => ?_⟩ <;>
    obtain ⟨old, hold, rfl⟩ := List.mem_map.mp hentry
  · rw [keys_flush]
    exact hmirrors.stored old hold
  · have hfind : entries.find? (key old.current) = some old :=
      Table.find?_eq_some_iff.mpr ⟨hold, rfl⟩
    obtain ⟨row, hrow⟩ := Option.ne_none_iff_exists'.mp
      (fun hnone => Table.find?_eq_none_iff.mp hnone (hmirrors.stored old hold))
    rw [hmirrors.find?_flush]
    simp [hfind, hrow]

/-- New rows in the table do not disturb the map. -/
theorem Mirrors.insert (hmirrors : Mirrors entries table) (row : α) :
    Mirrors entries (table.insert row) := by
  by_cases hrow : key row ∈ table.keys
  · rwa [Table.insert_of_mem hrow]
  · refine ⟨fun entry hentry => ?_, fun entry hentry hmodified => ?_⟩
    · rw [Table.keys_insert hrow]
      exact List.mem_append_left _ (hmirrors.stored entry hentry)
    · have hne : key row ≠ key entry.current :=
        fun heq => hrow (heq ▸ hmirrors.stored entry hentry)
      rw [Table.find?_insert hrow, if_neg hne]
      exact hmirrors.unmodified entry hentry hmodified

theorem Mirrors.foldl_insert (hmirrors : Mirrors entries table) (rows : List α) :
    Mirrors entries (rows.foldl Table.insert table) := by
  induction rows generalizing table with
  | nil => exact hmirrors
  | cons row rows ih => exact ih (hmirrors.insert row)

omit [DecidableEq κ] in
@[simp]
theorem dirty_accept : entries.accept.dirty = [] := by
  simp [dirty, accept, List.filter_map, Function.comp_def]

end IdentityMap

end EasyTrade

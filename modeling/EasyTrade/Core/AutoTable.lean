import Mathlib

/-!
# Tables with generated keys

An `AUTO_INCREMENT` column hands out ever larger keys and never hands one out
twice, not even after its row has been deleted.  Rows are kept in insertion
order, which is therefore the order of their keys, and among any selection of
rows the one with the greatest key is the last.
-/

namespace EasyTrade

variable {α : Type}

/-- Rows of type `α` under the generated primary key `key`; `next` is the key of
the next row. -/
structure AutoTable (key : α → ℤ) where
  rows : List α
  next : ℤ
  increasing : (rows.map key).Pairwise (· < ·)
  below : ∀ row ∈ rows, key row < next

namespace AutoTable

variable {key : α → ℤ}

def empty : AutoTable key := ⟨[], 1, List.Pairwise.nil, fun _ h => absurd h List.not_mem_nil⟩

/-- `INSERT` of a row whose key is generated. -/
def insert (table : AutoTable key) (withKey : ℤ → α) (hkey : ∀ k, key (withKey k) = k) :
    AutoTable key where
  rows := table.rows ++ [withKey table.next]
  next := table.next + 1
  increasing := by
    rw [List.map_append, List.map_singleton, hkey]
    refine List.pairwise_append.mpr ⟨table.increasing, List.pairwise_singleton _ _, ?_⟩
    intro k hk k' hk'
    obtain ⟨row, hrow, rfl⟩ := List.mem_map.mp hk
    rw [List.mem_singleton.mp hk']
    exact table.below row hrow
  below := by
    intro row hrow
    rcases List.mem_append.mp hrow with hold | hnew
    · exact (table.below row hold).trans (lt_add_one _)
    · rw [List.mem_singleton.mp hnew, hkey]
      exact lt_add_one _

/-- `DELETE ... WHERE`. -/
def delete (table : AutoTable key) (condition : α → Bool) : AutoTable key where
  rows := table.rows.filter fun row => !condition row
  next := table.next
  increasing := table.increasing.sublist (List.filter_sublist.map key)
  below := fun row hrow => table.below row (List.mem_filter.mp hrow).1

/-- The row with the greatest key among those that satisfy the condition. -/
def last? (table : AutoTable key) (condition : α → Bool) : Option α :=
  (table.rows.filter condition).getLast?

section Rows

variable {table : AutoTable key} {withKey : ℤ → α} {hkey : ∀ k, key (withKey k) = k}
variable {condition : α → Bool}

@[simp]
theorem rows_insert :
    (table.insert withKey hkey).rows = table.rows ++ [withKey table.next] := rfl

@[simp]
theorem rows_delete :
    (table.delete condition).rows = table.rows.filter fun row => !condition row := rfl

theorem mem_of_last? {row : α} (hlast : table.last? condition = some row) :
    row ∈ table.rows ∧ condition row = true :=
  List.mem_filter.mp (List.mem_of_getLast? hlast)

/-- Rows are told apart by their keys. -/
theorem eq_of_key_eq {row other : α} (hrow : row ∈ table.rows) (hother : other ∈ table.rows)
    (heq : key row = key other) : row = other := by
  have hnodup : (table.rows.map key).Nodup := table.increasing.imp ne_of_lt
  exact List.inj_on_of_nodup_map hnodup hrow hother heq

end Rows

end AutoTable

end EasyTrade

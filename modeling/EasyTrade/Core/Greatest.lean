import Mathlib

/-!
# The rows with the greatest key

`WHERE key = (SELECT max(key) FROM ...)` selects all rows that no other row exceeds, and
`ORDER BY key DESC` puts one of them first.  Rows that are added or deleted elsewhere do not
matter to them.
-/

namespace EasyTrade

variable {α : Type} {key : α → ℤ} {rows : List α} {row : α}

/-- The rows whose key is the greatest. -/
def greatest (key : α → ℤ) (rows : List α) : List α :=
  rows.filter fun row => rows.all fun other => key other ≤ key row

theorem mem_greatest_iff :
    row ∈ greatest key rows ↔ row ∈ rows ∧ ∀ other ∈ rows, key other ≤ key row := by
  simp [greatest]

variable (key) in
theorem exists_mem_greatest (hrows : rows ≠ []) : ∃ row, row ∈ greatest key rows := by
  cases hmax : rows.argmax key with
  | none => exact absurd (List.argmax_eq_none.mp hmax) hrows
  | some row =>
      exact ⟨row, mem_greatest_iff.mpr
        ⟨List.argmax_mem hmax, fun other hother => List.le_of_mem_argmax hother hmax⟩⟩

/-- A row that exceeds all others is the only one. -/
theorem greatest_concat_of_lt (hlt : ∀ old ∈ rows, key old < key row) :
    greatest key (rows ++ [row]) = [row] := by
  have hold : ∀ old ∈ rows, ¬ ((rows ++ [row]).all fun other => key other ≤ key old) := by
    intro old hold hall
    have hle := List.all_eq_true.mp hall row (List.mem_append_right _ (List.mem_singleton.mpr rfl))
    exact absurd (of_decide_eq_true hle) (not_le.mpr (hlt old hold))
  have hrow : (rows ++ [row]).all fun other => key other ≤ key row := by
    refine List.all_eq_true.mpr fun other hother => decide_eq_true ?_
    rcases List.mem_append.mp hother with hmem | hself
    · exact le_of_lt (hlt other hmem)
    · rw [List.mem_singleton.mp hself]
  rw [greatest, List.filter_append, List.filter_eq_nil_iff.mpr hold, List.nil_append]
  exact List.filter_eq_self.mpr fun last hlast => List.mem_singleton.mp hlast ▸ hrow

/-- A row as great as the greatest joins them. -/
theorem greatest_concat_of_eq {last : α} (hlast : last ∈ greatest key rows)
    (heq : key row = key last) : greatest key (rows ++ [row]) = greatest key rows ++ [row] := by
  obtain ⟨hmem, hmax⟩ := mem_greatest_iff.mp hlast
  have hrow : (rows ++ [row]).all fun other => key other ≤ key row := by
    refine List.all_eq_true.mpr fun other hother => decide_eq_true ?_
    rcases List.mem_append.mp hother with hold | hself
    · exact heq ▸ hmax other hold
    · rw [List.mem_singleton.mp hself]
  rw [greatest, List.filter_append]
  congr 1
  · refine List.filter_congr fun old hold => ?_
    rw [List.all_append, Bool.eq_iff_iff]
    simp only [Bool.and_eq_true, List.all_eq_true, decide_eq_true_eq, List.mem_singleton,
      forall_eq]
    exact ⟨And.left, fun hall => ⟨hall, heq ▸ hall last hmem⟩⟩
  · exact List.filter_eq_self.mpr fun other hother => List.mem_singleton.mp hother ▸ hrow

/-- Deleting other rows leaves the greatest. -/
theorem greatest_filter {keep : α → Bool} (hkeep : ∀ row ∈ greatest key rows, keep row = true) :
    greatest key (rows.filter keep) = greatest key rows := by
  by_cases hrows : rows = []
  · rw [hrows]
    rfl
  obtain ⟨last, hlast⟩ := exists_mem_greatest key hrows
  obtain ⟨hmem, hmax⟩ := mem_greatest_iff.mp hlast
  rw [greatest, List.filter_filter, greatest]
  refine List.filter_congr fun row hrow => ?_
  rw [Bool.eq_iff_iff]
  simp only [Bool.and_eq_true, List.all_eq_true, decide_eq_true_eq, List.mem_filter]
  refine ⟨fun h other hother => ?_, fun hall => ⟨fun other hother => hall other hother.1, ?_⟩⟩
  · exact (hmax other hother).trans (h.1 last ⟨hmem, hkeep last hlast⟩)
  · exact hkeep row (mem_greatest_iff.mpr ⟨hrow, hall⟩)

end EasyTrade

import Mathlib

/-!
# The first rows of a sorted table

`ORDER BY key LIMIT n` takes the first `n` rows in the order of their keys.  The order of
rows with equal keys is the database's choice.  Whatever it chooses, no row that is taken
comes after one that is left.
-/

namespace EasyTrade.TopRows

/-- In which order a database finds rows before it sorts them. -/
structure Arrangement (α : Type) where
  arrange : List α → List α
  arrange_perm : ∀ rows, (arrange rows).Perm rows

/-- The database finds the rows as they are listed. -/
def Arrangement.listed (α : Type) : Arrangement α := ⟨id, fun _ => List.Perm.refl _⟩

/-- The database finds the first row last. -/
def Arrangement.rotated (α : Type) : Arrangement α :=
  ⟨fun rows => rows.rotate 1, fun rows => List.rotate_perm rows 1⟩

/-- The database finds the rows in the opposite order. -/
def Arrangement.backwards (α : Type) : Arrangement α :=
  ⟨List.reverse, fun rows => List.reverse_perm rows⟩

variable {α κ : Type} [LinearOrder κ] (arrangement : Arrangement α) (key : α → κ) (n : ℕ)
  (rows : List α)

/-- The rows in the order of their keys. -/
def ordered : List α :=
  (arrangement.arrange rows).insertionSort fun left right => key left ≤ key right

/-- `ORDER BY key LIMIT n`. -/
def top : List α := (ordered arrangement key rows).take n

theorem ordered_perm : (ordered arrangement key rows).Perm rows :=
  (List.perm_insertionSort _ _).trans (arrangement.arrange_perm rows)

theorem pairwise_ordered :
    (ordered arrangement key rows).Pairwise fun left right => key left ≤ key right := by
  have htotal : Std.Total fun left right : α => key left ≤ key right :=
    ⟨fun left right => le_total (key left) (key right)⟩
  have htrans : IsTrans α fun left right => key left ≤ key right :=
    ⟨fun _ _ _ hleft hright => hleft.trans hright⟩
  exact List.pairwise_insertionSort _ _

theorem length_top : (top arrangement key n rows).length = min n rows.length := by
  rw [top, List.length_take, (ordered_perm arrangement key rows).length_eq]

variable {arrangement key n rows}

/-- Rows that are found in the order of their keys are taken as they are found. -/
theorem top_of_pairwise
    (h : (arrangement.arrange rows).Pairwise fun left right => key left ≤ key right) :
    top arrangement key n rows = (arrangement.arrange rows).take n := by
  rw [top, ordered, h.insertionSort_eq]

/-- Rows with one key are taken as the database finds them. -/
theorem top_of_eq (h : ∀ row ∈ rows, ∀ other ∈ rows, key row = key other) :
    top arrangement key n rows = (arrangement.arrange rows).take n := by
  have hperm := arrangement.arrange_perm rows
  exact top_of_pairwise (List.pairwise_of_forall_mem_list fun row hrow other hother =>
    (h row (hperm.mem_iff.mp hrow) other (hperm.mem_iff.mp hother)).le)

theorem mem_of_mem_top {row : α} (h : row ∈ top arrangement key n rows) : row ∈ rows :=
  (ordered_perm arrangement key rows).mem_iff.mp (List.mem_of_mem_take h)

theorem nodup_top (hnodup : rows.Nodup) : (top arrangement key n rows).Nodup :=
  ((ordered_perm arrangement key rows).nodup_iff.mpr hnodup).sublist (List.take_sublist _ _)

variable (key) in
/-- A row that is taken comes no later than one that is left. -/
theorem key_le_of_mem_top {taken left : α} (htaken : taken ∈ top arrangement key n rows)
    (hleft : left ∈ rows) (hnot : left ∉ top arrangement key n rows) : key taken ≤ key left := by
  have hsplit := List.take_append_drop n (ordered arrangement key rows)
  have hpairwise := pairwise_ordered arrangement key rows
  have hmem : left ∈ ordered arrangement key rows :=
    (ordered_perm arrangement key rows).mem_iff.mpr hleft
  rw [← hsplit] at hpairwise hmem
  have hdropped : left ∈ (ordered arrangement key rows).drop n :=
    (List.mem_append.mp hmem).resolve_left hnot
  exact (List.pairwise_append.mp hpairwise).2.2 taken htaken left hdropped

/-- The rows with the highest keys are those with the lowest when they are none, or all, or
when all keys are the same. -/
theorem lowest_of_highest_iff {taken : List α} (htaken : ∀ row ∈ taken, row ∈ rows)
    (hhighest : ∀ row ∈ taken, ∀ other ∈ rows, other ∉ taken → key other ≤ key row) :
    (∀ row ∈ taken, ∀ other ∈ rows, other ∉ taken → key row ≤ key other) ↔
      taken = [] ∨ (∀ row ∈ rows, row ∈ taken) ∨
        ∀ row ∈ rows, ∀ other ∈ rows, key row = key other := by
  constructor
  · intro hlowest
    by_cases hnone : taken = []
    · exact Or.inl hnone
    by_cases hall : ∀ row ∈ rows, row ∈ taken
    · exact Or.inr (Or.inl hall)
    -- one is taken and one is left, and any other has the key of both
    obtain ⟨first, hfirst⟩ := List.exists_mem_of_ne_nil taken hnone
    push Not at hall
    obtain ⟨last, hlast, hleft⟩ := hall
    have hends : key first = key last :=
      le_antisymm (hlowest first hfirst last hlast hleft) (hhighest first hfirst last hlast hleft)
    have hsame : ∀ row ∈ rows, key row = key last := by
      intro row hrow
      by_cases hmem : row ∈ taken
      · exact le_antisymm (hlowest row hmem last hlast hleft) (hhighest row hmem last hlast hleft)
      · calc key row = key first :=
              le_antisymm (hhighest first hfirst row hrow hmem) (hlowest first hfirst row hrow hmem)
          _ = key last := hends
    exact Or.inr (Or.inr fun row hrow other hother =>
      (hsame row hrow).trans (hsame other hother).symm)
  · rintro (rfl | hall | hsame) row hrow other hother hleft
    · exact absurd hrow List.not_mem_nil
    · exact absurd (hall other hother) hleft
    · exact (hsame row (htaken row hrow) other hother).le

section Rest

variable [BEq α] [LawfulBEq α]

/-- The rows that are taken, as they are listed. -/
theorem filter_mem_top_perm (hnodup : rows.Nodup) :
    (rows.filter fun row => row ∈ top arrangement key n rows).Perm
      (top arrangement key n rows) := by
  refine (List.perm_ext_iff_of_nodup (hnodup.filter _) (nodup_top hnodup)).mpr fun row => ?_
  rw [List.mem_filter, decide_eq_true_iff]
  exact ⟨And.right, fun hmem => ⟨mem_of_mem_top hmem, hmem⟩⟩

theorem length_filter_mem_top (hnodup : rows.Nodup) :
    (rows.filter fun row => row ∈ top arrangement key n rows).length = min n rows.length := by
  rw [(filter_mem_top_perm hnodup).length_eq, length_top]

variable (arrangement key n) in
theorem length_filter_not_mem_top (hnodup : rows.Nodup) :
    rows.length =
      (rows.filter fun row => row ∉ top arrangement key n rows).length + min n rows.length := by
  have htaken : (rows.filter fun row => row ∈ top arrangement key n rows).length =
      min n rows.length := length_filter_mem_top hnodup
  have hsplit := List.length_eq_length_filter_add (l := rows)
    fun row => decide (row ∈ top arrangement key n rows)
  simp only [decide_not]
  omega

end Rest

/-- What is left is the end of the table when whatever comes after a row that is left is
left, too. -/
theorem filter_suffix {keep : α → Bool}
    (h : rows.Pairwise fun earlier later => keep earlier = true → keep later = true) :
    rows.filter keep <:+ rows := by
  induction rows with
  | nil => exact List.suffix_refl _
  | cons row rest ih =>
      obtain ⟨hrow, hrest⟩ := List.pairwise_cons.mp h
      cases hkeep : keep row with
      | false =>
          rw [List.filter_cons_of_neg (by rw [hkeep]; exact Bool.false_ne_true)]
          exact (ih hrest).trans (List.suffix_cons row rest)
      | true =>
          have hall : ∀ later ∈ row :: rest, keep later = true := by
            intro later hlater
            cases hlater with
            | head => exact hkeep
            | tail _ hmem => exact hrow later hmem hkeep
          rw [List.filter_eq_self.mpr hall]

end EasyTrade.TopRows

import Mathlib

/-!
# Writing a list in blocks

A loop over a numbered list that starts a new block every `size` elements and
decides, from the number alone, whether an element is the last of its block.  What
it writes is the blocks one after the other, each one opened once and closed once.
-/

namespace EasyTrade.Blocks

variable {α β : Type*}

/-- The list, cut into full blocks of `size` elements and a last one that may be
shorter. -/
structure IsBlocks (size : ℕ) (elements : List α) (blocks : List (List α)) : Prop where
  flatten_eq : blocks.flatten = elements
  ne_nil : ∀ block ∈ blocks, block ≠ []
  length_le : ∀ block ∈ blocks, block.length ≤ size
  full : ∀ block ∈ blocks.dropLast, block.length = size

theorem IsBlocks.nil (size : ℕ) : IsBlocks size ([] : List α) [] :=
  ⟨rfl, by simp, by simp, by simp⟩

theorem IsBlocks.cons {size : ℕ} {block rest : List α} {blocks : List (List α)}
    (hblocks : IsBlocks size rest blocks) (hne : block ≠ [])
    (hlength : block.length ≤ size) (hfull : rest = [] ∨ block.length = size) :
    IsBlocks size (block ++ rest) (block :: blocks) := by
  refine ⟨?_, ?_, ?_, ?_⟩
  · rw [List.flatten_cons, hblocks.flatten_eq]
  · exact List.forall_mem_cons.mpr ⟨hne, hblocks.ne_nil⟩
  · exact List.forall_mem_cons.mpr ⟨hlength, hblocks.length_le⟩
  · intro other hother
    cases blocks with
    | nil => simp at hother
    | cons next others =>
        rw [List.dropLast_cons_cons] at hother
        have hrest : rest ≠ [] := by
          intro hrest
          have hnext := hblocks.ne_nil next List.mem_cons_self
          have hflat := hblocks.flatten_eq
          rw [hrest, List.flatten_cons, List.append_eq_nil_iff] at hflat
          exact hnext hflat.1
        cases List.mem_cons.mp hother with
        | inl heq => rw [heq]; exact hfull.resolve_left hrest
        | inr hmem => exact hblocks.full other hmem

/-- A property of lists that holds of the empty one and is kept by putting a block
in front holds of all lists. -/
theorem block_induction {size : ℕ} (hsize : 0 < size) {motive : List α → Prop}
    (nil : motive [])
    (cons : ∀ block rest : List α, block ≠ [] → block.length ≤ size →
      (rest = [] ∨ block.length = size) → motive rest → motive (block ++ rest))
    (elements : List α) : motive elements := by
  induction hlength : elements.length using Nat.strong_induction_on generalizing elements with
  | _ length ih =>
    cases elements with
    | nil => exact nil
    | cons head tail =>
        set elements := head :: tail
        have hpos : 0 < elements.length := Nat.succ_pos _
        have hdrop : (elements.drop size).length < length := by
          rw [List.length_drop]
          omega
        have htake : (elements.take size).length = min size elements.length :=
          List.length_take
        rw [← List.take_append_drop size elements]
        refine cons _ _ ?_ ?_ ?_ (ih _ hdrop _ rfl)
        · exact List.ne_nil_of_length_pos (by omega)
        · omega
        · rw [List.drop_eq_nil_iff]
          omega

section Punctuated

variable (size count : ℕ) (opening separator closing : List β) (write : α → List β)

/-- What the loop writes for one element, with its number: in front of it the
opening, when its number starts a block, behind it the closing, when it is the last
of all or of its block, and else the separator. -/
def punctuated (numbered : α × ℕ) : List β :=
  (if numbered.2 % size = 0 then opening else []) ++ write numbered.1 ++
    if numbered.2 = count - 1 ∨ numbered.2 % size = size - 1 then closing else separator

/-- One block as it should be written. -/
def written (block : List α) : List β :=
  opening ++ separator.intercalate (block.map write) ++ closing

variable {size count}

/-- The rest of a block, from a number inside it. -/
theorem punctuated_within (rows : List α) (index : ℕ) (hne : rows ≠ [])
    (hsize : index % size + rows.length ≤ size) (hcount : index + rows.length ≤ count)
    (hlast : index + rows.length = count ∨ index % size + rows.length = size) :
    (rows.zipIdx index).flatMap (punctuated size count opening separator closing write) =
      (if index % size = 0 then opening else []) ++
        separator.intercalate (rows.map write) ++ closing := by
  induction rows generalizing index with
  | nil => exact absurd rfl hne
  | cons row rest ih =>
      rw [List.length_cons] at hsize hcount hlast
      rw [List.zipIdx_cons, List.flatMap_cons, punctuated]
      dsimp only
      cases rest with
      | nil =>
          have hend : index = count - 1 ∨ index % size = size - 1 := by
            rw [List.length_nil] at hlast
            omega
          simp [hend]
      | cons next others =>
          rw [List.length_cons] at hsize hcount hlast
          -- a further element of the block follows, so the number is not its last
          have hinside : ¬ (index = count - 1 ∨ index % size = size - 1) := by omega
          have hnext : (index + 1) % size = index % size + 1 := by
            rw [Nat.add_mod, Nat.mod_eq_of_lt (a := 1) (by omega)]
            exact Nat.mod_eq_of_lt (by omega)
          have htail := ih (index + 1) (List.cons_ne_nil next others)
            (by rw [hnext, List.length_cons]; omega)
            (by rw [List.length_cons]; omega)
            (by rw [hnext, List.length_cons]; omega)
          rw [htail, if_neg hinside, if_neg (by omega : ¬ (index + 1) % size = 0)]
          simp [List.intercalate_cons_cons]

/-- The loop writes the list block by block. -/
theorem exists_blocks (hsize : 0 < size) (elements : List α) :
    ∃ blocks, IsBlocks size elements blocks ∧
      elements.zipIdx.flatMap
          (punctuated size elements.length opening separator closing write) =
        blocks.flatMap (written opening separator closing write) := by
  have hfrom : ∀ index, index % size = 0 → ∃ blocks, IsBlocks size elements blocks ∧
      (elements.zipIdx index).flatMap
          (punctuated size (index + elements.length) opening separator closing write) =
        blocks.flatMap (written opening separator closing write) := by
    induction elements using block_induction hsize with
    | nil =>
        intro index _
        exact ⟨[], .nil size, rfl⟩
    | cons block rest hne hlength hfull ih =>
        intro index hindex
        have hlast : rest = [] ∨ (index + block.length) % size = 0 := by
          refine hfull.imp_right fun hfull => ?_
          rw [hfull, Nat.add_mod_right, hindex]
        have hend : index + block.length = index + (block ++ rest).length ∨
            index % size + block.length = size := by
          rw [List.length_append]
          refine hfull.imp (fun hrest => ?_) (fun hfull => by omega)
          rw [hrest, List.length_nil]
          rfl
        have hblock := punctuated_within opening separator closing write block index hne
          (by omega) (by rw [List.length_append]; omega) hend
        rw [if_pos hindex] at hblock
        rw [List.zipIdx_append, List.flatMap_append, hblock]
        cases hlast with
        | inl hrest =>
            subst hrest
            refine ⟨[block], ?_, ?_⟩
            · exact (IsBlocks.nil size).cons hne hlength (Or.inl rfl)
            · simp [written]
        | inr hstart =>
            obtain ⟨blocks, hblocks, hwritten⟩ := ih (index + block.length) hstart
            refine ⟨block :: blocks, hblocks.cons hne hlength hfull, ?_⟩
            rw [List.flatMap_cons, ← hwritten, List.length_append, Nat.add_assoc]
            rfl
  have hzero := hfrom 0 (Nat.zero_mod size)
  rwa [Nat.zero_add] at hzero

end Punctuated

end EasyTrade.Blocks

import Mathlib

/-!
# Array lists and their fail-fast iterators

A `java.util.ArrayList` counts its structural modifications.  An iterator knows
the count at its creation and refuses to go on when it has changed; whether
there is a next element it judges by the current size alone.
-/

namespace EasyTrade

variable {α : Type}

structure ArrayList (α : Type) where
  elements : List α
  modCount : ℕ
  deriving Repr

/-- Why `next()` throws. -/
inductive IterationError
  | concurrentModification
  | noSuchElement
  deriving DecidableEq, Repr

namespace ArrayList

def empty : ArrayList α := ⟨[], 0⟩

def add (list : ArrayList α) (element : α) : ArrayList α where
  elements := list.elements ++ [element]
  modCount := list.modCount + 1

/-- `remove` of the first element that is the given object. -/
def remove (list : ArrayList α) (isIt : α → Bool) : ArrayList α :=
  if list.elements.any isIt then
    { elements := list.elements.eraseP isIt, modCount := list.modCount + 1 }
  else list

/-- A change of the elements' own fields, which the list does not notice. -/
def mutate (list : ArrayList α) (change : α → α) : ArrayList α :=
  { list with elements := list.elements.map change }

/-- `hasNext()` of an iterator at `cursor`. -/
def hasNext (list : ArrayList α) (cursor : ℕ) : Bool := cursor ≠ list.elements.length

/-- `next()` of an iterator at `cursor` that was created at `expectedModCount`. -/
def next (list : ArrayList α) (cursor expectedModCount : ℕ) : Except IterationError α :=
  if list.modCount = expectedModCount then
    match list.elements[cursor]? with
    | some element => .ok element
    | none => .error .noSuchElement
  else .error .concurrentModification

theorem elements_remove (list : ArrayList α) (isIt : α → Bool) :
    (list.remove isIt).elements = list.elements.eraseP isIt := by
  rw [remove]
  split_ifs with hany
  · rfl
  · refine (List.eraseP_of_forall_not fun element helement hisIt => hany ?_).symm
    exact List.any_eq_true.mpr ⟨element, helement, hisIt⟩

theorem modCount_remove (list : ArrayList α) (isIt : α → Bool) :
    (list.remove isIt).modCount =
      if list.elements.any isIt then list.modCount + 1 else list.modCount := by
  rw [remove]
  split_ifs <;> rfl

theorem next_eq_ok_iff {list : ArrayList α} {cursor expectedModCount : ℕ} {element : α} :
    list.next cursor expectedModCount = .ok element ↔
      list.modCount = expectedModCount ∧ list.elements[cursor]? = some element := by
  rw [next]
  split_ifs with hmodCount
  · cases list.elements[cursor]? <;> simp [hmodCount]
  · simp [hmodCount]

theorem mem_of_next {list : ArrayList α} {cursor expectedModCount : ℕ} {element : α}
    (hnext : list.next cursor expectedModCount = .ok element) : element ∈ list.elements :=
  List.mem_of_getElem? (next_eq_ok_iff.mp hnext).2

end ArrayList

end EasyTrade

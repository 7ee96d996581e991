import Mathlib

/-!
# Reading a list page by page

A page is the part of a list from an offset on, `count` elements long at most.  A
reader takes the pages in turn until one is empty.  With the offsets `count * page`
the reader sees the list; with offsets of fixed width it does so as long as they do
not wrap round before the end of the list.
-/

namespace EasyTrade.Paging

variable {α : Type*} {elements : List α} {count : ℕ}

/-- The elements from `offset` on, at most `count` of them. -/
def fetch (elements : List α) (count offset : ℕ) : List α :=
  (elements.drop offset).take count

theorem fetch_eq_nil_iff (hcount : 0 < count) {offset : ℕ} :
    fetch elements count offset = [] ↔ elements.length ≤ offset := by
  rw [fetch, List.take_eq_nil_iff, List.drop_eq_nil_iff]
  exact ⟨fun h => h.resolve_left hcount.ne', Or.inr⟩

/-- The first pages together are the first part of the list. -/
theorem flatMap_fetch (elements : List α) (count pages : ℕ) :
    (List.range pages).flatMap (fun page => fetch elements count (count * page)) =
      elements.take (count * pages) := by
  induction pages with
  | zero => rfl
  | succ pages ih =>
      rw [List.range_succ, List.flatMap_append, ih, List.flatMap_singleton, fetch, Nat.mul_succ,
        List.take_add]

/-- In a list without repetitions, two offsets give the same page only when both are
the same or the smaller one is past the end. -/
theorem fetch_eq_iff (hnodup : elements.Nodup) (hcount : 0 < count) {low high : ℕ}
    (hle : low ≤ high) :
    fetch elements count low = fetch elements count high ↔
      low = high ∨ elements.length ≤ low := by
  constructor
  · intro hsame
    by_contra hnot
    obtain ⟨hne, hlow⟩ := not_or.mp hnot
    rw [not_le] at hlow
    have hfirst : (fetch elements count low)[0]? = some elements[low] := by
      rw [fetch, List.getElem?_take, if_pos hcount, List.getElem?_drop, Nat.add_zero,
        List.getElem?_eq_getElem hlow]
    rw [hsame, fetch, List.getElem?_take, if_pos hcount, List.getElem?_drop, Nat.add_zero] at hfirst
    obtain ⟨hhigh, heq⟩ := List.getElem?_eq_some_iff.mp hfirst
    exact hne ((hnodup.getElem_inj_iff).mp heq).symm
  · intro h
    cases h with
    | inl heq => rw [heq]
    | inr hpast =>
        rw [(fetch_eq_nil_iff hcount).mpr hpast, (fetch_eq_nil_iff hcount).mpr (hpast.trans hle)]

/-- Taking the pages 0, 1, 2, … below `limit` until one is empty gives the list. -/
def ReadsThrough (limit : ℕ) (page : ℕ → List α) (elements : List α) : Prop :=
  ∃ pages < limit, page pages = [] ∧ (∀ earlier < pages, page earlier ≠ []) ∧
    (List.range pages).flatMap page = elements

/-- A list without repetitions does not start a second time. -/
theorem not_restarted (hnodup : elements.Nodup) (hne : elements ≠ []) {first second : ℕ}
    (hfirst : 0 < first) (hsecond : 0 < second) (rest : List α) :
    elements.take first ++ elements.take second ++ rest ≠ elements := by
  intro heq
  obtain ⟨head, tail, rfl⟩ := List.exists_cons_of_ne_nil hne
  have hmem : ∀ n, 0 < n → head ∈ (head :: tail).take n := by
    intro n hn
    obtain ⟨n, rfl⟩ := Nat.exists_eq_succ_of_ne_zero hn.ne'
    exact List.mem_cons_self
  rw [← heq] at hnodup
  have htwice := (List.nodup_append.mp hnodup).1
  exact (List.nodup_append.mp htwice).2.2 _ (hmem first hfirst) _ (hmem second hsecond) rfl

section FixedWidth

variable {bound : ℕ} {offset : ℕ → ℕ}

/-- The pages before the first one whose offset does not fit. -/
theorem flatMap_fetch_of_fits {pages : ℕ}
    (hfits : ∀ page < pages, offset page = count * page) :
    (List.range pages).flatMap (fun page => fetch elements count (offset page)) =
      elements.take (count * pages) := by
  rw [← flatMap_fetch]
  refine List.flatMap_congr fun page hpage => ?_
  rw [hfits page (List.mem_range.mp hpage)]

/-- Reading on from a page that starts again at zero repeats what was read before. -/
theorem not_readsThrough (hnodup : elements.Nodup) (hcount : 0 < count) {limit first : ℕ}
    (hpos : 0 < first) (hfits : ∀ page < first, offset page = count * page)
    (hinside : ∀ page < first, count * page < elements.length) (hzero : offset first = 0) :
    ¬ ReadsThrough limit (fun page => fetch elements count (offset page)) elements := by
  rintro ⟨pages, -, hempty, -, hread⟩
  have hne : elements ≠ [] := by
    intro hnil
    have hstart := hinside 0 hpos
    rw [hnil, Nat.mul_zero] at hstart
    exact absurd hstart (lt_irrefl 0)
  have hfull : ∀ page < first + 1, fetch elements count (offset page) ≠ [] := by
    intro page hpage hnil
    rw [fetch_eq_nil_iff hcount] at hnil
    cases Nat.lt_succ_iff_lt_or_eq.mp hpage with
    | inl hlt =>
        rw [hfits page hlt] at hnil
        exact absurd (hinside page hlt) (not_lt.mpr hnil)
    | inr heq =>
        rw [heq, hzero, Nat.le_zero, List.length_eq_zero_iff] at hnil
        exact hne hnil
  have hbeyond : first + 1 ≤ pages := by
    by_contra hlt
    exact hfull pages (not_le.mp hlt) hempty
  obtain ⟨more, rfl⟩ := Nat.exists_eq_add_of_le hbeyond
  have hrange : List.range (first + 1 + more) =
      List.range (first + 1) ++ (List.range more).map (first + 1 + ·) := List.range_add
  refine not_restarted hnodup hne (Nat.mul_pos hcount hpos) hcount
    (((List.range more).map (first + 1 + ·)).flatMap
      fun page => fetch elements count (offset page)) ?_
  calc elements.take (count * first) ++ elements.take count ++ _
      = (List.range (first + 1)).flatMap
            (fun page => fetch elements count (offset page)) ++ _ := by
        rw [List.range_succ, List.flatMap_append, flatMap_fetch_of_fits hfits,
          List.flatMap_singleton, hzero, fetch, List.drop_zero]
    _ = (List.range (first + 1 + more)).flatMap
            (fun page => fetch elements count (offset page)) := by
        rw [hrange, List.flatMap_append]
    _ = elements := hread

/-- Offsets that agree with `count * page` below `bound` and start again at zero when
they pass it read the list through exactly if the first page behind its end is still
below `bound`. -/
theorem readsThrough_iff (hnodup : elements.Nodup) (hcount : 0 < count) (hbound : count < bound)
    (hfits : ∀ page, count * page < bound → offset page = count * page)
    (hwraps : ∀ page, bound ≤ count * page → count * page < 2 * bound → offset page = 0) :
    ReadsThrough bound (fun page => fetch elements count (offset page)) elements ↔
      count * (elements.length ⌈/⌉ count) < bound := by
  have hinside : ∀ page, page < elements.length ⌈/⌉ count ↔ count * page < elements.length := by
    intro page
    rw [← not_le, ← not_le, ceilDiv_le_iff_le_mul hcount]
  constructor
  · intro hreads
    by_contra hlarge
    rw [not_lt] at hlarge
    have hexists : ∃ page, bound ≤ count * page := ⟨_, hlarge⟩
    obtain ⟨first, hfirst, hleast⟩ : ∃ first, bound ≤ count * first ∧
        ∀ page < first, count * page < bound :=
      ⟨Nat.find hexists, Nat.find_spec hexists, fun page hpage =>
        not_le.mp (Nat.find_min hexists hpage)⟩
    have hpos : 0 < first := by
      by_contra hzero
      rw [Nat.eq_zero_of_not_pos hzero, Nat.mul_zero] at hfirst
      omega
    have hlast : first ≤ elements.length ⌈/⌉ count := by
      by_contra hlt
      exact absurd (hleast _ (not_le.mp hlt)) (not_lt.mpr hlarge)
    have hzero : offset first = 0 := by
      have hprevious := hleast (first - 1) (by omega)
      have hstep : count * first = count * (first - 1) + count := by
        rw [← Nat.mul_succ, Nat.succ_eq_add_one, Nat.sub_add_cancel hpos]
      exact hwraps first hfirst (by omega)
    exact not_readsThrough hnodup hcount hpos (fun page hpage => hfits page (hleast page hpage))
      (fun page hpage => (hinside page).mp (hpage.trans_le hlast)) hzero hreads
  · intro hsmall
    have hsame : ∀ page ≤ elements.length ⌈/⌉ count, offset page = count * page := by
      intro page hpage
      exact hfits page ((Nat.mul_le_mul_left count hpage).trans_lt hsmall)
    refine ⟨elements.length ⌈/⌉ count, ?_, ?_, ?_, ?_⟩
    · exact (Nat.le_mul_of_pos_left _ hcount).trans_lt hsmall
    · rw [fetch_eq_nil_iff hcount, hsame _ le_rfl, ← ceilDiv_le_iff_le_mul hcount]
    · intro earlier hearlier hnil
      rw [fetch_eq_nil_iff hcount, hsame _ hearlier.le] at hnil
      exact absurd ((hinside earlier).mp hearlier) (not_lt.mpr hnil)
    · rw [flatMap_fetch_of_fits fun page hpage => hsame page hpage.le]
      exact List.take_of_length_le ((ceilDiv_le_iff_le_mul hcount).mp le_rfl)

end FixedWidth

end EasyTrade.Paging

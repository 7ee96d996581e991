import Mathlib

/-!
# Journals and running balances

A journal row records what an account held before a change and the change
itself.  The journal explains the balances when, account by account, its rows
form an unbroken chain from the initial balance to the current one.
-/

namespace EasyTrade.Ledger

variable {Row Account M : Type} [DecidableEq Account] [AddCommGroup M]

/-- Where a journal row keeps its account, the balance before, and the
change. -/
structure Columns (Row Account M : Type) where
  account : Row → Account
  oldValue : Row → M
  change : Row → M

variable (columns : Columns Row Account M)

/-- The first row starts at `start`, every next row starts where the one
before ended, and `final` is where the last one ended. -/
def Chain (start : M) : List Row → M → Prop
  | [], final => final = start
  | row :: rest, final =>
      columns.oldValue row = start ∧
        Chain (columns.oldValue row + columns.change row) rest final

def rowsOf (account : Account) (journal : List Row) : List Row :=
  journal.filter fun row => columns.account row = account

/-- The journal leads every account from its initial to its current balance;
accounts without a balance have neither rows nor a balance later on. -/
def Unbroken (initial current : Account → Option M) (journal : List Row) : Prop :=
  ∀ account,
    match initial account with
    | some start => ∃ final, current account = some final ∧
        Chain columns start (rowsOf columns account journal) final
    | none => current account = none ∧ rowsOf columns account journal = []

variable {columns}

omit [DecidableEq Account] in
theorem Chain.concat {start final : M} {rows : List Row} {row : Row}
    (hchain : Chain columns start rows final)
    (hrow : columns.oldValue row = final) :
    Chain columns start (rows ++ [row]) (final + columns.change row) := by
  induction rows generalizing start with
  | nil =>
      have hfinal : final = start := hchain
      exact ⟨hrow.trans hfinal, by simp [Chain, hrow]⟩
  | cons head tail ih => exact ⟨hchain.1, ih hchain.2⟩

omit [DecidableEq Account] in
/-- A chain of two parts has a value in between. -/
theorem chain_append_iff {start final : M} {first second : List Row} :
    Chain columns start (first ++ second) final ↔
      ∃ middle, Chain columns start first middle ∧ Chain columns middle second final := by
  induction first generalizing start with
  | nil => exact ⟨fun h => ⟨start, rfl, h⟩, fun ⟨_, hmiddle, h⟩ => hmiddle ▸ h⟩
  | cons row rest ih =>
      constructor
      · rintro ⟨hold, hrest⟩
        obtain ⟨middle, hfirst, hsecond⟩ := ih.mp hrest
        exact ⟨middle, ⟨hold, hfirst⟩, hsecond⟩
      · rintro ⟨middle, ⟨hold, hfirst⟩, hsecond⟩
        exact ⟨hold, ih.mpr ⟨middle, hfirst, hsecond⟩⟩

omit [DecidableEq Account] in
/-- The end of a chain is its start plus all changes. -/
theorem Chain.final_eq {start final : M} {rows : List Row}
    (hchain : Chain columns start rows final) :
    final = start + (rows.map columns.change).sum := by
  induction rows generalizing start with
  | nil => simpa [Chain] using hchain
  | cons head tail ih =>
      rw [ih hchain.2, hchain.1, List.map_cons, List.sum_cons, add_assoc]

theorem Unbroken.refl (initial : Account → Option M) :
    Unbroken columns initial initial ([] : List Row) := by
  intro account
  cases initial account with
  | none => exact ⟨rfl, rfl⟩
  | some start => exact ⟨start, rfl, rfl⟩

omit [AddCommGroup M] in
theorem rowsOf_append (account : Account) (left right : List Row) :
    rowsOf columns account (left ++ right) =
      rowsOf columns account left ++ rowsOf columns account right :=
  List.filter_append _ _

/-- Journals that follow each other make one journal. -/
theorem Unbroken.trans {initial middle current : Account → Option M} {first second : List Row}
    (hfirst : Unbroken columns initial middle first)
    (hsecond : Unbroken columns middle current second) :
    Unbroken columns initial current (first ++ second) := by
  intro account
  have hbefore := hfirst account
  have hafter := hsecond account
  rw [rowsOf_append]
  cases hinitial : initial account with
  | none =>
      rw [hinitial] at hbefore
      rw [hbefore.1] at hafter
      exact ⟨hafter.1, by rw [hbefore.2, hafter.2, List.append_nil]⟩
  | some start =>
      rw [hinitial] at hbefore
      obtain ⟨value, hvalue, hchain⟩ := hbefore
      rw [hvalue] at hafter
      obtain ⟨final, hfinal, hrest⟩ := hafter
      exact ⟨final, hfinal, chain_append_iff.mpr ⟨value, hchain, hrest⟩⟩

/-- What follows an unbroken journal decides whether the two make one. -/
theorem Unbroken.append_iff {initial middle current : Account → Option M}
    {first second : List Row} (hfirst : Unbroken columns initial middle first) :
    Unbroken columns initial current (first ++ second) ↔
      Unbroken columns middle current second := by
  refine ⟨fun hboth account => ?_, hfirst.trans⟩
  have hbefore := hfirst account
  have hafter := hboth account
  rw [rowsOf_append] at hafter
  cases hinitial : initial account with
  | none =>
      rw [hinitial] at hbefore hafter
      rw [hbefore.1]
      exact ⟨hafter.1, (List.append_eq_nil_iff.mp hafter.2).2⟩
  | some start =>
      rw [hinitial] at hbefore hafter
      obtain ⟨value, hvalue, hchain⟩ := hbefore
      obtain ⟨final, hfinal, hwhole⟩ := hafter
      obtain ⟨between, hfirst', hsecond⟩ := chain_append_iff.mp hwhole
      have hsame : between = value := hfirst'.final_eq.trans hchain.final_eq.symm
      rw [hvalue]
      exact ⟨final, hfinal, hsame ▸ hsecond⟩

/-- Posting a row at the current balance of its account keeps the journal
unbroken. -/
theorem Unbroken.post {initial current next : Account → Option M}
    {journal : List Row} {row : Row}
    (hunbroken : Unbroken columns initial current journal)
    (hold : current (columns.account row) = some (columns.oldValue row))
    (hnew : next (columns.account row) =
      some (columns.oldValue row + columns.change row))
    (hothers : ∀ account, account ≠ columns.account row →
      next account = current account) :
    Unbroken columns initial next (journal ++ [row]) := by
  intro account
  have h := hunbroken account
  by_cases haccount : account = columns.account row
  · subst haccount
    have hrows : rowsOf columns (columns.account row) (journal ++ [row]) =
        rowsOf columns (columns.account row) journal ++ [row] := by
      simp [rowsOf]
    cases hinitial : initial (columns.account row) with
    | none =>
        rw [hinitial] at h
        exact absurd (h.1.symm.trans hold) (by simp)
    | some start =>
        rw [hinitial] at h
        obtain ⟨final, hfinal, hchain⟩ := h
        have hsame : columns.oldValue row = final :=
          Option.some.inj (hold.symm.trans hfinal)
        refine ⟨final + columns.change row, ?_, ?_⟩
        · rw [hnew, hsame]
        · rw [hrows]
          exact hchain.concat hsame
  · have hrows : rowsOf columns account (journal ++ [row]) =
        rowsOf columns account journal := by
      simp [rowsOf, Ne.symm haccount]
    rw [hrows, hothers account haccount]
    exact h

/-- An unbroken journal determines the balances by its sums. -/
theorem Unbroken.balance_eq {initial current : Account → Option M}
    {journal : List Row} (hunbroken : Unbroken columns initial current journal)
    {account : Account} {start : M} (hstart : initial account = some start) :
    current account =
      some (start + ((rowsOf columns account journal).map columns.change).sum) := by
  have h := hunbroken account
  rw [hstart] at h
  obtain ⟨final, hfinal, hchain⟩ := h
  rw [hfinal, hchain.final_eq]

/-! ## Rewritten journals -/

/-- A rewriting of rows that leaves the account and passes both amounts through `store`. -/
structure Columns.Rewrites (columns : Columns Row Account M) (store : M → M)
    (rewrite : Row → Row) : Prop where
  account : ∀ row, columns.account (rewrite row) = columns.account row
  oldValue : ∀ row, columns.oldValue (rewrite row) = store (columns.oldValue row)
  change : ∀ row, columns.change (rewrite row) = store (columns.change row)

section Rewrites

variable {store : M → M} {rewrite : Row → Row}

omit [AddCommGroup M] in
theorem rowsOf_map (hrewrites : columns.Rewrites store rewrite) (account : Account)
    (journal : List Row) :
    rowsOf columns account (journal.map rewrite) =
      (rowsOf columns account journal).map rewrite := by
  rw [rowsOf, List.filter_map, rowsOf]
  congr 1
  refine List.filter_congr fun row _ => ?_
  rw [Function.comp_apply, hrewrites.account]

omit [DecidableEq Account] in
/-- A rewritten chain that reaches the stored end of the original starts at its stored
start. -/
theorem Chain.start_eq (hrewrites : columns.Rewrites store rewrite) {start final other : M}
    {rows : List Row} (hchain : Chain columns start rows final)
    (hrewritten : Chain columns other (rows.map rewrite) (store final)) : other = store start := by
  cases rows with
  | nil =>
      have hfinal : final = start := hchain
      have hother : store final = other := hrewritten
      rw [← hother, hfinal]
  | cons row rest => rw [← hrewritten.1, hrewrites.oldValue, hchain.1]

omit [DecidableEq Account] in
/-- A chain stays one through the rewriting exactly when every sum of an old value and its
change is stored as the sum of what is stored for the two. -/
theorem Chain.map_iff (hrewrites : columns.Rewrites store rewrite) {start final : M}
    {rows : List Row} (hchain : Chain columns start rows final) :
    Chain columns (store start) (rows.map rewrite) (store final) ↔
      ∀ row ∈ rows, store (columns.oldValue row + columns.change row) =
        store (columns.oldValue row) + store (columns.change row) := by
  induction rows generalizing start with
  | nil =>
      have hfinal : final = start := hchain
      exact iff_of_true (congrArg store hfinal) fun _ hrow => absurd hrow List.not_mem_nil
  | cons row rest ih =>
      obtain ⟨hold, hrest⟩ := hchain
      rw [List.map_cons, Chain, hrewrites.oldValue, hrewrites.change, List.forall_mem_cons]
      constructor
      · rintro ⟨-, hrewritten⟩
        have hsum := hrest.start_eq hrewrites hrewritten
        rw [hsum] at hrewritten
        exact ⟨hsum.symm, (ih hrest).mp hrewritten⟩
      · rintro ⟨hsum, hothers⟩
        rw [← hsum]
        exact ⟨congrArg store hold, (ih hrest).mpr hothers⟩

/-- A journal stays unbroken through the rewriting exactly when no row breaks it. -/
theorem Unbroken.map_iff (hrewrites : columns.Rewrites store rewrite)
    {initial current : Account → Option M} {journal : List Row}
    (hunbroken : Unbroken columns initial current journal) :
    Unbroken columns (fun account => (initial account).map store)
        (fun account => (current account).map store) (journal.map rewrite) ↔
      ∀ row ∈ journal, store (columns.oldValue row + columns.change row) =
        store (columns.oldValue row) + store (columns.change row) := by
  constructor
  · intro hrewritten row hrow
    have hmem : row ∈ rowsOf columns (columns.account row) journal := by
      simpa [rowsOf] using hrow
    have hexact := hunbroken (columns.account row)
    have hstored := hrewritten (columns.account row)
    cases hinitial : initial (columns.account row) with
    | none =>
        rw [hinitial] at hexact
        rw [hexact.2] at hmem
        exact absurd hmem List.not_mem_nil
    | some start =>
        rw [hinitial] at hexact
        simp only [hinitial, Option.map_some] at hstored
        obtain ⟨final, hfinal, hchain⟩ := hexact
        obtain ⟨final', hfinal', hchain'⟩ := hstored
        rw [hfinal, Option.map_some, Option.some.injEq] at hfinal'
        rw [rowsOf_map hrewrites, ← hfinal'] at hchain'
        exact (hchain.map_iff hrewrites).mp hchain' row hmem
  · intro hrows account
    have hexact := hunbroken account
    cases hinitial : initial account with
    | none =>
        rw [hinitial] at hexact
        simp only [hinitial, hexact.1, Option.map_none, true_and]
        rw [rowsOf_map hrewrites, hexact.2, List.map_nil]
    | some start =>
        rw [hinitial] at hexact
        obtain ⟨final, hfinal, hchain⟩ := hexact
        have hrewritten := (hchain.map_iff hrewrites).mpr fun row hrow =>
          hrows row (List.mem_of_mem_filter hrow)
        simp only [hinitial, hfinal, Option.map_some]
        exact ⟨store final, rfl, by rwa [rowsOf_map hrewrites]⟩

/-- A journal that a rewritten continuation leads to the stored balances has led to the
stored balances before it: a break in it is never mended. -/
theorem Unbroken.of_append_map (hrewrites : columns.Rewrites store rewrite)
    {initial middle current : Account → Option M} {first second : List Row}
    (hexact : Unbroken columns middle current second)
    (hwhole : Unbroken columns initial (fun account => (current account).map store)
      (first ++ second.map rewrite)) :
    Unbroken columns initial (fun account => (middle account).map store) first := by
  intro account
  have hafter := hexact account
  have hboth := hwhole account
  rw [rowsOf_append, rowsOf_map hrewrites] at hboth
  cases hmiddle : middle account with
  | none =>
      rw [hmiddle] at hafter
      simp only [hafter.1, hafter.2, Option.map_none, List.map_nil, List.append_nil] at hboth
      simp only [hmiddle, Option.map_none]
      exact hboth
  | some start =>
      rw [hmiddle] at hafter
      obtain ⟨final, hfinal, hchain⟩ := hafter
      simp only [hfinal, Option.map_some] at hboth
      simp only [hmiddle, Option.map_some]
      cases hinitial : initial account with
      | none =>
          simp only [hinitial, reduceCtorEq, false_and] at hboth
      | some value =>
          simp only [hinitial, Option.some.injEq, exists_eq_left'] at hboth
          obtain ⟨between, hearlier, hlater⟩ := chain_append_iff.mp hboth
          have hbetween := hchain.start_eq hrewrites hlater
          exact ⟨store start, rfl, hbetween ▸ hearlier⟩

end Rewrites

end EasyTrade.Ledger

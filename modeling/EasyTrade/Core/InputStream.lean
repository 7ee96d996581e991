import Mathlib

/-!
# Reading a text up to a delimiter

An input stream in the manner of `std::istringstream` and `std::getline`: a text is
read piece by piece up to the next delimiter; the last piece ends with the text and
leaves the stream exhausted, and reading from an exhausted stream leaves the
string that was to be filled as it is.  A loop that reads as long as it can sees
exactly the `lines` of the text.
-/

namespace EasyTrade

variable {α σ E : Type} [DecidableEq α]

/-- The text before the first delimiter, and what follows it. -/
def upTo (delimiter : α) : List α → List α × Option (List α)
  | [] => ([], none)
  | c :: rest =>
      if c = delimiter then ([], some rest)
      else (c :: (upTo delimiter rest).1, (upTo delimiter rest).2)

/-- The pieces between delimiters; there is none after a delimiter at the end. -/
def lines (delimiter : α) : List α → List (List α)
  | [] => []
  | c :: rest =>
      if c = delimiter then [] :: lines delimiter rest
      else
        match lines delimiter rest with
        | [] => [[c]]
        | line :: others => (c :: line) :: others

/-- What is left of a text, and whether it may be read. -/
structure InputStream (α : Type) where
  rest : List α
  good : Bool

namespace InputStream

/-- `std::istringstream(text)`. -/
def ofText (text : List α) : InputStream α := ⟨text, true⟩

/-- `std::getline(stream, str, delimiter)`: whether it has succeeded, and `str` and the
stream after it. -/
def getline (stream : InputStream α) (str : List α) (delimiter : α) :
    Bool × List α × InputStream α :=
  if stream.good then
    match upTo delimiter stream.rest with
    | (text, some rest) => (true, text, ⟨rest, true⟩)
    | (text, none) => (decide (text ≠ []), text, ⟨[], false⟩)
  else (false, str, stream)

/-- The lines that can still be read. -/
def remaining (delimiter : α) (stream : InputStream α) : List (List α) :=
  if stream.good then lines delimiter stream.rest else []

/-- `while (std::getline(stream, line, delimiter))` with a body that may throw.  `none`:
there is not enough fuel. -/
def whileGetline (delimiter : α) (body : List α → σ → Except E σ) :
    ℕ → InputStream α → List α → σ → Option (Except E σ)
  | 0, _, _, _ => none
  | fuel + 1, stream, line, state =>
      match stream.getline line delimiter with
      | (true, line, stream) =>
          match body line state with
          | .ok state => whileGetline delimiter body fuel stream line state
          | .error error => some (.error error)
      | (false, _, _) => some (.ok state)

end InputStream

section Lines

variable {delimiter : α}

theorem lines_of_upTo (text : List α) : lines delimiter text =
    match upTo delimiter text with
    | (line, some rest) => line :: lines delimiter rest
    | ([], none) => []
    | (line, none) => [line] := by
  induction text with
  | nil => rfl
  | cons c rest ih =>
      rw [lines, upTo]
      by_cases hc : c = delimiter
      · simp only [if_pos hc]
      · simp only [if_neg hc]
        rw [ih]
        rcases hrest : upTo delimiter rest with ⟨line, _ | others⟩
        · cases line <;> rfl
        · rfl

theorem length_lines_le (text : List α) : (lines delimiter text).length ≤ text.length := by
  induction text with
  | nil => exact le_refl 0
  | cons c rest ih =>
      rw [lines]
      split_ifs
      · exact Nat.succ_le_succ ih
      · cases hlines : lines delimiter rest with
        | nil => simp
        | cons line others =>
            rw [hlines] at ih
            exact ih.trans (Nat.le_succ _)

/-- A line that is complete is read as it was written. -/
theorem lines_append {line : List α} (hline : delimiter ∉ line) (rest : List α) :
    lines delimiter (line ++ delimiter :: rest) = line :: lines delimiter rest := by
  induction line with
  | nil => rw [List.nil_append, lines, if_pos rfl]
  | cons c line ih =>
      have hc : c ≠ delimiter := fun heq => hline (heq ▸ List.mem_cons_self)
      have hrest : delimiter ∉ line := fun hmem => hline (List.mem_cons_of_mem c hmem)
      rw [List.cons_append, lines, if_neg hc, ih hrest]

/-- The pieces between delimiters, with the last one, which may be empty. -/
theorem splitOn_of_upTo (text : List α) : text.splitOn delimiter =
    match upTo delimiter text with
    | (piece, some rest) => piece :: rest.splitOn delimiter
    | (piece, none) => [piece] := by
  induction text with
  | nil => exact List.splitOn_nil delimiter
  | cons c rest ih =>
      rw [List.splitOn_cons_eq_if_modifyHead, upTo]
      by_cases hc : c = delimiter
      · simp only [hc, beq_self_eq_true, if_true]
      · rw [if_neg (by simpa using hc), if_neg hc, ih]
        rcases hrest : upTo delimiter rest with ⟨piece, _ | others⟩
        · rfl
        · rfl

end Lines

namespace InputStream

variable {delimiter : α} {stream : InputStream α}

theorem remaining_ofText (text : List α) :
    (ofText text).remaining delimiter = lines delimiter text := if_pos rfl

theorem getline_of_remaining_nil (hnone : stream.remaining delimiter = []) (str : List α) :
    (stream.getline str delimiter).1 = false := by
  rw [getline]
  split_ifs with hgood
  · rw [remaining, if_pos hgood, lines_of_upTo] at hnone
    rcases hupTo : upTo delimiter stream.rest with ⟨line, _ | rest⟩
    · rw [hupTo] at hnone
      cases line with
      | nil => rfl
      | cons c line => cases hnone
    · rw [hupTo] at hnone
      cases hnone
  · rfl

/-- The next line is read, and the others remain. -/
theorem getline_of_remaining_cons {line : List α} {others : List (List α)}
    (hremaining : stream.remaining delimiter = line :: others) (str : List α) :
    ∃ stream' : InputStream α, stream.getline str delimiter = (true, line, stream') ∧
      stream'.remaining delimiter = others := by
  rw [remaining] at hremaining
  split_ifs at hremaining with hgood
  rw [getline, if_pos hgood]
  rw [lines_of_upTo] at hremaining
  rcases hupTo : upTo delimiter stream.rest with ⟨text, _ | rest⟩
  · rw [hupTo] at hremaining
    cases text with
    | nil => cases hremaining
    | cons c text =>
        cases hremaining
        exact ⟨⟨[], false⟩, rfl, rfl⟩
  · rw [hupTo] at hremaining
    cases hremaining
    exact ⟨⟨rest, true⟩, rfl, remaining_ofText rest⟩

/-- Loop rule.  A reading loop goes through the lines one by one until its body throws. -/
theorem whileGetline_eq (body : List α → σ → Except E σ) {fuel : ℕ}
    (hfuel : (stream.remaining delimiter).length < fuel) (line : List α) (state : σ) :
    whileGetline delimiter body fuel stream line state =
      some ((stream.remaining delimiter).foldlM (fun state line => body line state) state) := by
  induction fuel generalizing stream line state with
  | zero => cases hfuel
  | succ fuel ih =>
      rw [whileGetline]
      cases hremaining : stream.remaining delimiter with
      | nil =>
          have hstop := getline_of_remaining_nil hremaining line
          rcases hget : stream.getline line delimiter with ⟨success, text, stream'⟩
          rw [hget] at hstop
          cases hstop
          rfl
      | cons next others =>
          obtain ⟨stream', hget, hothers⟩ := getline_of_remaining_cons hremaining line
          rw [hget, List.foldlM_cons]
          rw [hremaining] at hfuel
          dsimp only
          cases hbody : body next state with
          | error error => rfl
          | ok state' =>
              have hless : (stream'.remaining delimiter).length < fuel := by
                rw [hothers]
                exact Nat.lt_of_succ_lt_succ hfuel
              exact (ih hless next state').trans (by rw [hothers]; rfl)

end InputStream

end EasyTrade

import EasyTrade.Pricing.Calculation

/-!
# The fields of a line

`receiveMessage` reads five fields into one variable.  A `getline` at the end of the line
fails and leaves the variable alone, so what is taken for the close price is the last of the
first five fields, however many there are.
-/

namespace EasyTrade.Pricing

open InputStream

/-- The field that the loop parses. -/
def lastPart (line : Bytes) : Bytes := ((line.splitOn ',').take 5).getLastD []

/-- What the loop makes of a line by itself. -/
def readClose (line : Bytes) : Except StodException Floating :=
  if validateString line then stod (lastPart line) else .error .invalidArgument

section Parts

theorem getParts_exhausted (times : ℕ) (part : Bytes) : getParts times ⟨[], false⟩ part = part := by
  induction times with
  | zero => rfl
  | succ times ih => exact ih

/-- The variable ends up with the last field that there is, and with its old value only
when nothing is read. -/
theorem getParts_eq (times : ℕ) (text part : Bytes) :
    getParts times (ofText text) part = ((text.splitOn ',').take times).getLastD part := by
  induction times generalizing text part with
  | zero => rfl
  | succ times ih =>
    rw [getParts, getline, ofText, if_pos rfl, splitOn_of_upTo]
    rcases upTo ',' text with ⟨piece, _ | rest⟩
    · exact (getParts_exhausted times piece).trans (by cases times <;> rfl)
    · rw [List.take_succ_cons, List.getLastD_cons]
      exact ih rest piece

theorem getParts_five (line part : Bytes) : getParts 5 (ofText line) part = lastPart line := by
  rw [getParts_eq, lastPart]
  cases hfields : line.splitOn ',' with
  | nil => exact absurd hfields (List.splitOn_ne_nil _ _)
  | cons field fields => rw [List.take_succ_cons, List.getLastD_cons, List.getLastD_cons]

end Parts

/-! ## The loop -/

section Loop

/-- The lines with a number that no `double` can hold. -/
def Overflows (line : Bytes) : Prop := readClose line = .error .outOfRange

theorem receiveLine_of_ok {line : Bytes} {value : Floating} (hread : readClose line = .ok value)
    (tally : Tally) : receiveLine line tally = .ok ⟨lastPart line, tally.parsedLines + 1,
      tally.discardedLines, tally.accumulator.add value⟩ := by
  unfold readClose at hread
  split_ifs at hread with hvalid
  unfold receiveLine
  simp only [hvalid, getParts_five, hread, Bool.true_eq_false, if_false]

theorem receiveLine_of_invalid {line : Bytes} (hread : readClose line = .error .invalidArgument)
    (tally : Tally) : ∃ part, receiveLine line tally = .ok ⟨part, tally.parsedLines + 1,
      tally.discardedLines + 1, tally.accumulator⟩ := by
  unfold readClose at hread
  unfold receiveLine
  split_ifs at hread with hvalid
  · refine ⟨lastPart line, ?_⟩
    simp only [hvalid, getParts_five, hread, Bool.true_eq_false, if_false]
  · rw [Bool.not_eq_true] at hvalid
    exact ⟨tally.part, if_pos hvalid⟩

theorem receiveLine_of_overflows {line : Bytes} (hread : Overflows line) (tally : Tally) :
    receiveLine line tally = .error .outOfRange := by
  unfold Overflows readClose at hread
  split_ifs at hread with hvalid
  · unfold receiveLine
    simp only [hvalid, getParts_five, hread, Bool.true_eq_false, if_false]
  · cases hread

/-- The numbers that the loop adds up. -/
def readValues (body : List Bytes) : List Floating :=
  body.filterMap fun line => (readClose line).toOption

/-- How many lines the loop discards. -/
def discarded (body : List Bytes) : ℕ :=
  body.countP fun line => (readClose line).toOption.isNone

section Cons

variable {line : Bytes} {body : List Bytes} {value : Floating} {error : StodException}

theorem readValues_of_ok (hread : readClose line = .ok value) :
    readValues (line :: body) = value :: readValues body :=
  List.filterMap_cons_some (by rw [hread]; rfl)

theorem readValues_of_error (hread : readClose line = .error error) :
    readValues (line :: body) = readValues body :=
  List.filterMap_cons_none (by rw [hread]; rfl)

theorem discarded_of_ok (hread : readClose line = .ok value) :
    discarded (line :: body) = discarded body :=
  List.countP_cons_of_neg (by rw [hread]; exact Bool.false_ne_true)

theorem discarded_of_error (hread : readClose line = .error error) :
    discarded (line :: body) = discarded body + 1 :=
  List.countP_cons_of_pos (by rw [hread]; rfl)

end Cons

/-- Without an overflow the loop goes through the lines. -/
theorem foldlM_receiveLine {body : List Bytes} (hbody : ∀ line ∈ body, ¬ Overflows line)
    (tally : Tally) : ∃ part,
      body.foldlM (fun tally line => receiveLine line tally) tally = .ok
        ⟨part, tally.parsedLines + body.length, tally.discardedLines + discarded body,
          (readValues body).foldl Floating.add tally.accumulator⟩ := by
  induction body generalizing tally with
  | nil => exact ⟨tally.part, by simp [readValues, discarded, pure, Except.pure]⟩
  | cons line body ih =>
    have hrest := ih fun other hother => hbody other (List.mem_cons_of_mem _ hother)
    have hparsed : tally.parsedLines + 1 + body.length =
        tally.parsedLines + (line :: body).length := by
      rw [List.length_cons, Nat.cast_add, Nat.cast_one, add_assoc, add_comm 1]
    rw [List.foldlM_cons]
    cases hread : readClose line with
    | ok value =>
      rw [receiveLine_of_ok hread]
      obtain ⟨part, hfold⟩ := hrest ⟨lastPart line, tally.parsedLines + 1, tally.discardedLines,
        tally.accumulator.add value⟩
      refine ⟨part, hfold.trans ?_⟩
      rw [hparsed, discarded_of_ok hread, readValues_of_ok hread, List.foldl_cons]
    | error error =>
      have hinvalid : error = .invalidArgument := by
        cases error with
        | invalidArgument => rfl
        | outOfRange => exact absurd hread (hbody line List.mem_cons_self)
      subst hinvalid
      obtain ⟨kept, hline⟩ := receiveLine_of_invalid hread tally
      rw [hline]
      obtain ⟨part, hfold⟩ := hrest ⟨kept, tally.parsedLines + 1, tally.discardedLines + 1,
        tally.accumulator⟩
      refine ⟨part, hfold.trans ?_⟩
      rw [hparsed, discarded_of_error hread, readValues_of_error hread, Nat.cast_add,
        Nat.cast_one, add_assoc, add_comm 1]

/-- An overflow ends the loop, wherever it is. -/
theorem foldlM_of_overflows {body : List Bytes} {line : Bytes} (hmem : line ∈ body)
    (hread : Overflows line) (tally : Tally) :
    body.foldlM (fun tally line => receiveLine line tally) tally = .error .outOfRange := by
  induction body generalizing tally with
  | nil => exact absurd hmem List.not_mem_nil
  | cons first body ih =>
    rw [List.foldlM_cons]
    rcases List.mem_cons.mp hmem with rfl | hrest
    · rw [receiveLine_of_overflows hread]
      rfl
    cases hfirst : readClose first with
    | ok value =>
      rw [receiveLine_of_ok hfirst]
      exact ih hrest _
    | error error =>
      cases error with
      | invalidArgument =>
        obtain ⟨part, hline⟩ := receiveLine_of_invalid hfirst tally
        rw [hline]
        exact ih hrest _
      | outOfRange =>
        rw [receiveLine_of_overflows hfirst]
        rfl

theorem discarded_le (body : List Bytes) : discarded body ≤ body.length :=
  List.countP_le_length

end Loop

end EasyTrade.Pricing

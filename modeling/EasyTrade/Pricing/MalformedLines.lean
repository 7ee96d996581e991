import EasyTrade.Pricing.Fields

/-!
# Lines that are cut short

The consumer expects malformed lines and means to discard them.  It does not notice that a
line has fewer than five fields, and `std::stod` accepts more than prices.
-/

namespace EasyTrade.Pricing

/-! ## Coming to the end of a message -/

/-- What the accumulator is divided by, if it is. -/
def Tally.divisor (tally : Tally) : Option ℤ :=
  if 0 < tally.parsedLines - tally.discardedLines then
    some (tally.parsedLines - tally.discardedLines)
  else none

theorem average_report (tally : Tally) : tally.report.average =
    match tally.divisor with
    | some divisor => tally.accumulator.divide divisor
    | none => .finite 0 := by
  unfold Tally.report Tally.divisor
  split_ifs <;> rfl

/-- The message is received to its end, with sound counts all the way. -/
structure Survives (message : Bytes) : Prop where
  returns : ∃ report, receiveMessage message = some (.ok report)
  counts : ∀ (read : List Bytes) (tally : Tally), read <+: (lines '\n' message).tail →
    read.foldlM (fun tally line => receiveLine line tally) Tally.start = .ok tally →
      0 ≤ tally.discardedLines ∧ tally.discardedLines ≤ tally.parsedLines
  division : ∀ tally : Tally, (lines '\n' message).tail.foldlM
    (fun tally line => receiveLine line tally) Tally.start = .ok tally → 0 ∉ tally.divisor

section Survives

variable {message : Bytes}

theorem counts_of_foldlM {body : List Bytes} {tally : Tally}
    (hfold : body.foldlM (fun tally line => receiveLine line tally) Tally.start = .ok tally) :
    0 ≤ tally.discardedLines ∧ tally.discardedLines ≤ tally.parsedLines := by
  have hbody : ∀ line ∈ body, ¬ Overflows line := by
    intro line hmem hread
    rw [foldlM_of_overflows hmem hread] at hfold
    cases hfold
  obtain ⟨part, hdone⟩ := foldlM_receiveLine hbody Tally.start
  rw [hdone] at hfold
  cases hfold
  have hle : (discarded body : ℤ) ≤ body.length := Nat.cast_le.mpr (discarded_le body)
  constructor
  · exact Int.add_nonneg le_rfl (Int.natCast_nonneg _)
  · exact Int.add_le_add_left hle _

theorem zero_not_mem_divisor (tally : Tally) : 0 ∉ tally.divisor := by
  unfold Tally.divisor
  split_ifs with hpositive
  · intro hmem
    exact hpositive.ne' (Option.mem_some.mp hmem)
  · exact Option.not_mem_none _

/-- The report, when no number overflows. -/
theorem receiveMessage_of_fits (hfits : ∀ line ∈ (lines '\n' message).tail, ¬ Overflows line) :
    ∃ part, receiveMessage message = some (.ok (Tally.report ⟨part,
      (lines '\n' message).tail.length, discarded (lines '\n' message).tail,
        (readValues (lines '\n' message).tail).foldl Floating.add (.finite 0)⟩)) := by
  obtain ⟨part, hfold⟩ := foldlM_receiveLine hfits Tally.start
  refine ⟨part, ?_⟩
  rw [receiveMessage_eq, hfold]
  simp only [Except.map, Tally.start, zero_add]

theorem fits_of_receiveMessage {report : Report}
    (hreport : receiveMessage message = some (.ok report)) :
    ∀ line ∈ (lines '\n' message).tail, ¬ Overflows line := by
  intro line hmem hread
  rw [receiveMessage_eq, foldlM_of_overflows hmem hread] at hreport
  cases hreport

/-- Only a number that no `double` can hold keeps a message from being received. -/
theorem survives_iff (message : Bytes) :
    Survives message ↔ ∀ line ∈ (lines '\n' message).tail, ¬ Overflows line := by
  constructor
  · rintro ⟨⟨report, hreport⟩, -, -⟩
    exact fits_of_receiveMessage hreport
  · intro hfits
    obtain ⟨part, hreport⟩ := receiveMessage_of_fits hfits
    exact ⟨⟨_, hreport⟩, fun _ _ _ => counts_of_foldlM, fun tally _ => zero_not_mem_divisor tally⟩

/-- The exception ends the consumer, which has acknowledged the message. -/
theorem not_survives_overflow : ¬ ∀ message, Survives message := by
  intro hall
  obtain ⟨report, hreport⟩ := (hall "t,o,h,l,c\n1,1,1,1,1e999".toList).returns
  have hthrows : receiveMessage "t,o,h,l,c\n1,1,1,1,1e999".toList = some (.error .outOfRange) := by
    decide +kernel
  rw [hthrows] at hreport
  cases hreport

end Survives

/-! ## Decimal numbers -/

section Numbers

end Numbers

/-! ## The average as it is defined -/

section Line

variable {line : Bytes}

end Line

section Body

variable {body : List Bytes}

end Body

section Average

variable {message : Bytes}

end Average

end EasyTrade.Pricing

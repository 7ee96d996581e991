import EasyTrade.Pricing.PriceCsv
import EasyTrade.Pricing.Calculation

/-!
# The producer and the consumer of the price list

The MySQL driver writes a blank between the date and the time, and a blank is not
among the characters that the consumer expects.  It discards every line that the
pricing service sends.
-/

namespace EasyTrade.Pricing

/-- The mean of the closing prices as they are printed. -/
def meanClose (priceList : List Price) : ℚ :=
  (priceList.map fun item => item.closing.printed).sum / priceList.length

/-- The consumer parses every line of the list, discards none and reports the mean. -/
def CsvAgrees (priceList : List Price) (provider : ℕ → Fin 100) : Prop :=
  receiveMessage (prepareCSV priceList provider) =
    some (.ok ⟨priceList.length, 0, .finite (meanClose priceList)⟩)

/-! ## The lines of the list -/

section Lines

/-- A line without its end. -/
def Price.fields (p : Price) (volume : ℕ) : Text :=
  p.timestamp ++ ',' :: p.opening.format ++ ',' :: p.high.format ++ ',' :: p.low.format ++
    ',' :: p.closing.format ++ ',' :: decimal volume

def csvTexts (provider : ℕ → Fin 100) : (call : ℕ) → List Price → List Text
  | _, [] => []
  | call, item :: rest => item.fields (provider call + 100) :: csvTexts provider (call + 1) rest

variable {provider : ℕ → Fin 100}

theorem length_csvTexts (call : ℕ) (priceList : List Price) :
    (csvTexts provider call priceList).length = priceList.length := by
  induction priceList generalizing call with
  | nil => rfl
  | cons item rest ih => exact congrArg (· + 1) (ih (call + 1))

theorem newline_not_mem_format (x : Float64) : '\n' ∉ x.format := by
  intro hmem
  rcases mem_format hmem with h | h | h <;> cases h

theorem newline_not_mem_decimal (n : ℕ) : '\n' ∉ decimal n := fun hmem => by
  cases isDigit_of_mem_decimal hmem

theorem newline_not_mem_fields {p : Price} (hp : '\n' ∉ p.timestamp) (volume : ℕ) :
    '\n' ∉ p.fields volume := by
  simp [Price.fields, hp, newline_not_mem_format, newline_not_mem_decimal]

/-- Each price is one line. -/
theorem lines_csvLines {priceList : List Price} (hlist : ∀ p ∈ priceList, '\n' ∉ p.timestamp)
    (call : ℕ) :
    lines '\n' (csvLines provider call priceList) = csvTexts provider call priceList := by
  induction priceList generalizing call with
  | nil => rfl
  | cons item rest ih =>
      have hline : item.toCSV (provider call + 100) ++ csvLines provider (call + 1) rest =
          item.fields (provider call + 100) ++ '\n' :: csvLines provider (call + 1) rest := by
        simp [Price.toCSV, Price.fields]
      rw [csvLines, hline, lines_append (newline_not_mem_fields (hlist item List.mem_cons_self) _),
        ih fun p hp => hlist p (List.mem_cons_of_mem item hp)]
      rfl

theorem tail_lines_prepareCSV {priceList : List Price}
    (hlist : ∀ p ∈ priceList, '\n' ∉ p.timestamp) :
    (lines '\n' (prepareCSV priceList provider)).tail = csvTexts provider 0 priceList := by
  rw [prepareCSV, lines_append (by decide), List.tail_cons, lines_csvLines hlist]

end Lines

/-! ## Timestamps of the driver -/

section Driver

variable {p : Price}

theorem newline_not_mem_padded (width n : ℕ) : '\n' ∉ padded width n := fun hmem => by
  cases isDigit_of_mem_padded hmem

theorem newline_not_mem_of_driver (hdriver : p.FromDriver) : '\n' ∉ p.timestamp := by
  obtain ⟨datetime, htext⟩ := hdriver
  rw [htext]
  simp [Datetime.text, newline_not_mem_padded]

/-- The blank between date and time. -/
theorem blank_mem_of_driver (hdriver : p.FromDriver) : ' ' ∈ p.timestamp := by
  obtain ⟨datetime, htext⟩ := hdriver
  rw [htext]
  simp [Datetime.text]

theorem validateString_fields (hdriver : p.FromDriver) (volume : ℕ) :
    validateString (p.fields volume) = false := by
  have hblank : ' ' ∈ p.fields volume := by
    simp [Price.fields, blank_mem_of_driver hdriver]
  rw [validateString, List.all_eq_false]
  exact ⟨' ', hblank, by decide⟩

end Driver

/-- Lines that are not valid are counted and leave everything else alone. -/
theorem foldlM_discard {texts : List Bytes} (htexts : ∀ text ∈ texts, validateString text = false)
    (tally : Tally) :
    texts.foldlM (fun tally line => receiveLine line tally) tally =
      .ok { tally with
        parsedLines := tally.parsedLines + texts.length
        discardedLines := tally.discardedLines + texts.length } := by
  induction texts generalizing tally with
  | nil => simp [pure, Except.pure]
  | cons text rest ih =>
      have hfirst := htexts text List.mem_cons_self
      rw [List.foldlM_cons, receiveLine, if_pos hfirst]
      refine (ih (fun other hother => htexts other (List.mem_cons_of_mem text hother)) _).trans ?_
      simp only [List.length_cons, Nat.cast_add, Nat.cast_one, Except.ok.injEq, Tally.mk.injEq,
        true_and, and_true]
      constructor <;> ring

theorem valid_of_mem_csvTexts {provider : ℕ → Fin 100} {call : ℕ} {priceList : List Price}
    (hdriver : ∀ p ∈ priceList, p.FromDriver) {text : Text}
    (htext : text ∈ csvTexts provider call priceList) : validateString text = false := by
  induction priceList generalizing call with
  | nil => cases htext
  | cons item rest ih =>
      rcases List.mem_cons.mp htext with rfl | hrest
      · exact validateString_fields (hdriver item List.mem_cons_self) _
      · exact ih (fun p hp => hdriver p (List.mem_cons_of_mem item hp)) hrest

/-- Every line of a list with timestamps of the driver is discarded. -/
theorem receiveMessage_prepareCSV {priceList : List Price}
    (hdriver : ∀ p ∈ priceList, p.FromDriver) (provider : ℕ → Fin 100) :
    receiveMessage (prepareCSV priceList provider) =
      some (.ok ⟨priceList.length, priceList.length, .finite 0⟩) := by
  have hnewline : ∀ p ∈ priceList, '\n' ∉ p.timestamp :=
    fun p hp => newline_not_mem_of_driver (hdriver p hp)
  rw [receiveMessage_eq, tail_lines_prepareCSV hnewline,
    foldlM_discard fun text htext => valid_of_mem_csvTexts hdriver htext, length_csvTexts]
  simp [Tally.start, Tally.report, Except.map]

/-- The producer and the consumer never agree: every line of a list that is not empty
is parsed and discarded. -/
theorem csv_never_agrees {priceList : List Price} (hlist : priceList ≠ [])
    (hdriver : ∀ p ∈ priceList, p.FromDriver) (provider : ℕ → Fin 100) :
    receiveMessage (prepareCSV priceList provider) =
        some (.ok ⟨priceList.length, priceList.length, .finite 0⟩) ∧
      ¬ CsvAgrees priceList provider := by
  have hreport := receiveMessage_prepareCSV hdriver provider
  refine ⟨hreport, fun hagrees => hlist ?_⟩
  rw [CsvAgrees, hreport] at hagrees
  simp only [Option.some.injEq, Except.ok.injEq, Report.mk.injEq, Nat.cast_eq_zero,
    List.length_eq_zero_iff] at hagrees
  exact hagrees.2.1

namespace Sample

/-- The number 10.01. -/
def tenPointZeroOne : Float64 :=
  ⟨false, 5635129033747333, -49, by decide, by decide, by decide⟩

example : tenPointZeroOne.format = "10.010000".toList := by decide +kernel

def price : Price where
  id := 123
  instrumentId := 456
  timestamp := (Datetime.mk 2001 1 1 1 1 1).text
  opening := tenPointZeroOne
  high := tenPointZeroOne
  low := tenPointZeroOne
  closing := tenPointZeroOne

example : price.timestamp = "2001-01-01 01:01:01".toList := by decide +kernel

theorem price_fromDriver : ∀ p ∈ [price], p.FromDriver := by
  intro p hp
  rw [List.mem_singleton.mp hp]
  exact ⟨⟨2001, 1, 1, 1, 1, 1⟩, rfl⟩

end Sample

theorem csv_never_agrees_price :
    receiveMessage (prepareCSV [Sample.price] fun _ => 37) = some (.ok ⟨1, 1, .finite 0⟩) ∧
      ¬ CsvAgrees [Sample.price] fun _ => 37 :=
  csv_never_agrees (List.cons_ne_nil _ _) Sample.price_fromDriver fun _ => 37

/-- One price, one line, discarded. -/
theorem csv_disagrees :
    (∀ p ∈ [Sample.price], p.FromDriver) ∧ ¬ CsvAgrees [Sample.price] fun _ => 37 := by
  refine ⟨Sample.price_fromDriver, fun hagrees => ?_⟩
  rw [CsvAgrees, receiveMessage_prepareCSV Sample.price_fromDriver] at hagrees
  simp only [Option.some.injEq, Except.ok.injEq, Report.mk.injEq] at hagrees
  exact absurd hagrees.2.1 (by decide)

end EasyTrade.Pricing

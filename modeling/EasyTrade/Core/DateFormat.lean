import Mathlib

/-!
# Date patterns

A pattern is a letter and further letters, each behind a separator that is no digit.
Printing pads every number with zeros.  Reading is lenient: a number may have any length
and lie outside the range of its letter, and what follows the last number is ignored.
-/

namespace EasyTrade.DateFormat

abbrev Text := List Char

/-! ## Numbers -/

def printNumber (width n : ℕ) : Text :=
  List.replicate (width - (Nat.toDigits 10 n).length) '0' ++ Nat.toDigits 10 n

/-- The number that a text starts with, and the text behind it. -/
def readNumber (text : Text) : Option (ℕ × Text) :=
  match text.takeWhile Char.isDigit with
  | [] => none
  | digits => some (Nat.ofDigitChars 10 digits 0, text.dropWhile Char.isDigit)

theorem isDigit_of_mem_printNumber {width n : ℕ} {c : Char} (hc : c ∈ printNumber width n) :
    c.isDigit := by
  rcases List.mem_append.mp hc with hzero | hdigit
  · rw [List.eq_of_mem_replicate hzero]
    rfl
  · exact Nat.isDigit_of_mem_toDigits (by decide) (by decide) hdigit

theorem ofDigitChars_printNumber (width n : ℕ) :
    Nat.ofDigitChars 10 (printNumber width n) 0 = n := by
  rw [printNumber, Nat.ofDigitChars_append, Nat.ofDigitChars_replicate_zero, Nat.mul_zero,
    Nat.ofDigitChars_ten_toDigits]

theorem printNumber_ne_nil (width n : ℕ) : printNumber width n ≠ [] := by
  intro hnil
  exact Nat.toDigits_ne_nil (List.append_eq_nil_iff.mp hnil).2

/-- A text whose first character is no digit. -/
def StartsNoNumber (text : Text) : Prop := ∀ c ∈ text.head?, c.isDigit = false

theorem takeWhile_of_startsNoNumber {text : Text} (htext : StartsNoNumber text) :
    text.takeWhile Char.isDigit = [] := by
  cases text with
  | nil => rfl
  | cons c others => exact List.takeWhile_cons_of_neg (by simp [htext c rfl])

theorem readNumber_printNumber (width n : ℕ) {rest : Text} (hrest : StartsNoNumber rest) :
    readNumber (printNumber width n ++ rest) = some (n, rest) := by
  have hdigits : ∀ c ∈ printNumber width n, c.isDigit = true := fun c hc =>
    isDigit_of_mem_printNumber hc
  have htaken : (printNumber width n ++ rest).takeWhile Char.isDigit =
      printNumber width n := by
    rw [List.takeWhile_append_of_pos hdigits, takeWhile_of_startsNoNumber hrest,
      List.append_nil]
  have hdropped : (printNumber width n ++ rest).dropWhile Char.isDigit = rest := by
    have hwhole := List.takeWhile_append_dropWhile (p := Char.isDigit)
      (l := printNumber width n ++ rest)
    rw [htaken] at hwhole
    exact List.append_cancel_left hwhole
  rw [readNumber, htaken, hdropped]
  cases hnumber : printNumber width n with
  | nil => exact absurd hnumber (printNumber_ne_nil width n)
  | cons c others =>
    dsimp only
    rw [← hnumber, ofDigitChars_printNumber]

/-! ## Letters -/

/-- The numbers of a date and a time of day, whatever their size. -/
structure Fields where
  year : ℕ
  month : ℕ
  day : ℕ
  hour : ℕ
  minute : ℕ
  second : ℕ
  deriving DecidableEq

/-- What a field is that no letter has set. -/
def Fields.unset : Fields := ⟨1970, 1, 1, 0, 0, 0⟩

/-- The letters `y`, `M`, `d`, `H`, `h`, `m` and `s`. -/
inductive Letter
  | year
  | month
  | day
  | hourInDay
  | hourInAmPm
  | minute
  | second
  deriving DecidableEq

namespace Letter

def shown (fields : Fields) : Letter → ℕ
  | year => fields.year
  | month => fields.month
  | day => fields.day
  | hourInDay => fields.hour
  | hourInAmPm => (fields.hour + 11) % 12 + 1
  | minute => fields.minute
  | second => fields.second

def set (fields : Fields) (n : ℕ) : Letter → Fields
  | year => { fields with year := n }
  | month => { fields with month := n }
  | day => { fields with day := n }
  | hourInDay => { fields with hour := n }
  -- twelve is the hour 0 of its half day, and without a marker the half day is the first
  | hourInAmPm => { fields with hour := if n = 12 then 0 else n }
  | minute => { fields with minute := n }
  | second => { fields with second := n }

end Letter

/-! ## Patterns -/

/-- A separator, and the letter behind it with the width it is padded to. -/
structure Item where
  separator : Char
  letter : Letter
  width : ℕ
  separator_isDigit : separator.isDigit = false

structure Pattern where
  letter : Letter
  width : ℕ
  items : List Item

def printItems (fields : Fields) (items : List Item) : Text :=
  items.flatMap fun item =>
    item.separator :: printNumber item.width (item.letter.shown fields)

def readItems : List Item → Text → Fields → Option Fields
  | [], _, fields => some fields
  | _ :: _, [], _ => none
  | item :: items, c :: text, fields =>
    if c = item.separator then do
      let (n, rest) ← readNumber text
      readItems items rest (item.letter.set fields n)
    else none

namespace Pattern

def print (pattern : Pattern) (fields : Fields) : Text :=
  printNumber pattern.width (pattern.letter.shown fields) ++ printItems fields pattern.items

def read (pattern : Pattern) (text : Text) : Option Fields := do
  let (n, rest) ← readNumber text
  readItems pattern.items rest (pattern.letter.set Fields.unset n)

def separators (pattern : Pattern) : List Char := pattern.items.map Item.separator

end Pattern

/-- What the letters of `reading` make of the numbers that those of `printing` show. -/
def carried (fields : Fields) : (reading printing : List Item) → Fields → Fields
  | item :: reading, other :: printing, read =>
    carried fields reading printing (item.letter.set read (other.letter.shown fields))
  | _, _, read => read

theorem startsNoNumber_printItems (fields : Fields) (items : List Item) :
    StartsNoNumber (printItems fields items) := by
  intro c hc
  cases items with
  | nil => cases hc
  | cons item items =>
    obtain rfl : item.separator = c := by simpa [printItems] using hc
    exact item.separator_isDigit

/-- A text is read back letter by letter by every pattern with the same separators. -/
theorem readItems_printItems (fields : Fields) : ∀ {reading printing : List Item},
    reading.map Item.separator = printing.map Item.separator → ∀ read : Fields,
      readItems reading (printItems fields printing) read =
        some (carried fields reading printing read)
  | [], [], _, _ => rfl
  | item :: reading, other :: printing, hsame, read => by
    rw [List.map_cons, List.map_cons, List.cons.injEq] at hsame
    have hstep := readNumber_printNumber other.width (other.letter.shown fields)
      (startsNoNumber_printItems fields printing)
    calc readItems (item :: reading) (printItems fields (other :: printing)) read
        = readItems (item :: reading) (other.separator ::
            (printNumber other.width (other.letter.shown fields) ++
              printItems fields printing)) read := rfl
      _ = readItems reading (printItems fields printing)
            (item.letter.set read (other.letter.shown fields)) := by
          rw [readItems, if_pos hsame.1.symm, hstep]
          rfl
      _ = some (carried fields (item :: reading) (other :: printing) read) :=
          readItems_printItems fields hsame.2 _

theorem Pattern.read_print {reading printing : Pattern}
    (hsame : reading.separators = printing.separators) (fields : Fields) :
    reading.read (printing.print fields) =
      some (carried fields reading.items printing.items
        (reading.letter.set Fields.unset (printing.letter.shown fields))) := by
  rw [Pattern.read, Pattern.print, readNumber_printNumber _ _
    (startsNoNumber_printItems fields printing.items)]
  exact readItems_printItems fields hsame _

end EasyTrade.DateFormat

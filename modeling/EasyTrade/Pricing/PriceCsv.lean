import Mathlib

/-!
# The price list as text

`prepareCSV` and `toCSV` of the pricing service.  Texts are lists of characters.  A
finite `float64` is a sign and a dyadic magnitude; `%f` prints it with six decimals,
rounded to the nearest and, half-way between two, to the even one.
-/

namespace EasyTrade.Pricing

abbrev Text := List Char

/-- A finite `float64`. -/
structure Float64 where
  negative : Bool
  mantissa : ℕ
  exponent : ℤ
  mantissa_lt : mantissa < 2 ^ 53
  exponent_le : exponent ≤ 971
  le_exponent : -1074 ≤ exponent

/-- The nearest natural number to a quotient, the even one of two. -/
def roundHalfEven (numerator denominator : ℕ) : ℕ :=
  let quotient := numerator / denominator
  let remainder := numerator % denominator
  if 2 * remainder < denominator then quotient
  else if denominator < 2 * remainder then quotient + 1
  else quotient + quotient % 2

/-- `%d` of a number that is not negative. -/
def decimal (n : ℕ) : Text := Nat.toDigits 10 n

/-- The last `width` digits of a number, with leading zeros. -/
def padded : (width n : ℕ) → Text
  | 0, _ => []
  | width + 1, n => padded width (n / 10) ++ [Nat.digitChar (n % 10)]

namespace Float64

/-- The magnitude in millionths, as it is printed. -/
def millionths (x : Float64) : ℕ :=
  roundHalfEven (x.mantissa * 10 ^ 6 * 2 ^ x.exponent.toNat) (2 ^ (-x.exponent).toNat)

/-- `%f`. -/
def format (x : Float64) : Text :=
  (if x.negative then ['-'] else []) ++ decimal (x.millionths / 10 ^ 6) ++
    '.' :: padded 6 (x.millionths % 10 ^ 6)

/-- The number that `%f` prints. -/
def printed (x : Float64) : ℚ :=
  (if x.negative then -1 else 1) * (x.millionths / 10 ^ 6)

end Float64

structure Price where
  id : ℤ
  instrumentId : ℤ
  timestamp : Text
  opening : Float64
  high : Float64
  low : Float64
  closing : Float64

def Price.toCSV (p : Price) (volume : ℕ) : Text :=
  p.timestamp ++ ',' :: p.opening.format ++ ',' :: p.high.format ++ ',' :: p.low.format ++
    ',' :: p.closing.format ++ ',' :: decimal volume ++ ['\n']

def csvHeader : Text := "date, open, high, low, close, volume".toList

/-- The loop of `prepareCSV`; `provider` gives the result of each call of
`provider.Intn(100)`. -/
def csvLines (provider : ℕ → Fin 100) : (call : ℕ) → List Price → Text
  | _, [] => []
  | call, item :: rest => item.toCSV (provider call + 100) ++ csvLines provider (call + 1) rest

def prepareCSV (priceList : List Price) (provider : ℕ → Fin 100) : Text :=
  csvHeader ++ '\n' :: csvLines provider 0 priceList

/-! ## Timestamps -/

/-- The value of a `datetime` column. -/
structure Datetime where
  year : ℕ
  month : ℕ
  day : ℕ
  hour : ℕ
  minute : ℕ
  second : ℕ

/-- What the MySQL driver returns for it when it does not parse times:
`YYYY-MM-DD hh:mm:ss`. -/
def Datetime.text (datetime : Datetime) : Text :=
  padded 4 datetime.year ++ '-' :: padded 2 datetime.month ++ '-' :: padded 2 datetime.day ++
    ' ' :: padded 2 datetime.hour ++ ':' :: padded 2 datetime.minute ++
    ':' :: padded 2 datetime.second

/-- The price has been read through the MySQL driver. -/
def Price.FromDriver (p : Price) : Prop := ∃ datetime : Datetime, p.timestamp = datetime.text

/-! ## What the texts are made of -/

section Characters

theorem isDigit_of_mem_decimal {n : ℕ} {c : Char} (hc : c ∈ decimal n) : c.isDigit :=
  Nat.isDigit_of_mem_toDigits (by decide) (by decide) hc

theorem isDigit_digitChar {n : ℕ} (hn : n < 10) : (Nat.digitChar n).isDigit := by
  interval_cases n <;> rfl

theorem isDigit_of_mem_padded {width n : ℕ} {c : Char} (hc : c ∈ padded width n) :
    c.isDigit := by
  induction width generalizing n with
  | zero => cases hc
  | succ width ih =>
      rcases List.mem_append.mp hc with hfirst | hlast
      · exact ih hfirst
      · rw [List.mem_singleton.mp hlast]
        exact isDigit_digitChar (Nat.mod_lt n (by decide))

/-- A number is printed with digits, a point and perhaps a sign. -/
theorem mem_format {x : Float64} {c : Char} (hc : c ∈ x.format) :
    c = '-' ∨ c = '.' ∨ c.isDigit := by
  rw [Float64.format, List.append_assoc] at hc
  rcases List.mem_append.mp hc with hsign | hdigits
  · split_ifs at hsign
    · exact Or.inl (List.mem_singleton.mp hsign)
    · cases hsign
  · rcases List.mem_append.mp hdigits with hwhole | hpart
    · exact Or.inr (Or.inr (isDigit_of_mem_decimal hwhole))
    · rcases List.mem_cons.mp hpart with hpoint | hmillionths
      · exact Or.inr (Or.inl hpoint)
      · exact Or.inr (Or.inr (isDigit_of_mem_padded hmillionths))

end Characters

end EasyTrade.Pricing

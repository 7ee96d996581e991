import EasyTrade.Core.InputStream

/-!
# The price consumer

`validateString` and `receiveMessage` of the calculation service, on messages that
are any bytes.  Sums and quotients are exact.
-/

namespace EasyTrade.Pricing

/-- A message or a part of it, byte by byte. -/
abbrev Bytes := List Char

/-- What `double` and `long double` can hold. -/
inductive Floating
  | finite (value : ℚ)
  | infinite (negative : Bool)
  | nan
  deriving DecidableEq, Repr

namespace Floating

def add : Floating → Floating → Floating
  | finite x, finite y => finite (x + y)
  | finite _, infinite negative | infinite negative, finite _ => infinite negative
  | infinite left, infinite right => if left = right then infinite left else nan
  | _, _ => nan

/-- Division by a positive number. -/
def divide : Floating → ℤ → Floating
  | finite x, n => finite (x / n)
  | infinite negative, _ => infinite negative
  | nan, _ => nan

end Floating

/-! ## `std::stod` -/

/-- `isspace` in the C locale. -/
def isSpace (c : Char) : Bool := c = ' ' || (9 ≤ c.toNat && c.toNat ≤ 13)

/-- The value of a digit in any base up to sixteen; sixteen for anything else. -/
def digitValue (c : Char) : ℕ :=
  if c.isDigit then c.toNat - '0'.toNat
  else if 'a' ≤ c ∧ c ≤ 'f' then c.toNat - 'a'.toNat + 10
  else if 'A' ≤ c ∧ c ≤ 'F' then c.toNat - 'A'.toNat + 10
  else 16

def valueOf (base : ℕ) (digits : Bytes) : ℕ :=
  digits.foldl (fun value c => value * base + digitValue c) 0

/-- The number with these digits before and after its point. -/
def valueOfParts (base : ℕ) (whole part : Bytes) : ℚ :=
  valueOf base (whole ++ part) / base ^ part.length

/-- An exponent after one of the markers, zero when there is none. -/
def exponentOf (marker : Char) (text : Bytes) : ℤ :=
  match text with
  | c :: rest =>
      if c.toLower = marker then
        match rest with
        | '-' :: digits => -(valueOf 10 (digits.takeWhile Char.isDigit))
        | '+' :: digits => valueOf 10 (digits.takeWhile Char.isDigit)
        | digits => valueOf 10 (digits.takeWhile Char.isDigit)
      else 0
  | [] => 0

/-- Digits with at most one point, and an exponent of `power`. -/
def number (base power : ℕ) (marker : Char) (text : Bytes) : Option ℚ :=
  let isDigit : Char → Bool := fun c => decide (digitValue c < base)
  let whole := text.takeWhile isDigit
  let (part, rest) : Bytes × Bytes :=
    match text.dropWhile isDigit with
    | '.' :: rest => (rest.takeWhile isDigit, rest.dropWhile isDigit)
    | rest => ([], rest)
  if whole ++ part = [] then none
  else some (valueOfParts base whole part * (power : ℚ) ^ exponentOf marker rest)

def magnitude (text : Bytes) : Option ℚ :=
  match text with
  | '0' :: x :: rest =>
      if x.toLower = 'x' then some ((number 16 2 'p' rest).getD 0)
      else number 10 10 'e' text
  | _ => number 10 10 'e' text

/-- The text begins with the word, in either case. -/
def startsWith (word : String) (text : Bytes) : Bool :=
  word.toList.isPrefixOf (text.map Char.toLower)

/-- `strtod`: the number that the text begins with, after white space. -/
def strtod (str : Bytes) : Option Floating :=
  let (negative, text) : Bool × Bytes :=
    match str.dropWhile isSpace with
    | '-' :: rest => (true, rest)
    | '+' :: rest => (false, rest)
    | rest => (false, rest)
  if startsWith "inf" text then some (.infinite negative)
  else if startsWith "nan" text then some .nan
  else (magnitude text).map fun value => .finite (if negative then -value else value)

/-- The number rounds to an infinity, or is too small for its precision. -/
def outOfRange (value : ℚ) : Bool :=
  2 ^ 1024 - 2 ^ 970 ≤ |value| ||
    (0 < |value| && |value| < (2 : ℚ) ^ (-1022 : ℤ) - (2 : ℚ) ^ (-1076 : ℤ) &&
      (value * 2 ^ 1074).den ≠ 1)

inductive StodException
  | invalidArgument
  | outOfRange
  deriving DecidableEq, Repr

def stod (str : Bytes) : Except StodException Floating :=
  match strtod str with
  | none => .error .invalidArgument
  | some (.finite value) =>
      if outOfRange value then .error .outOfRange else .ok (.finite value)
  | some value => .ok value

/-! ## `receiveMessage` -/

def validateString (str : Bytes) : Bool :=
  str.all fun c => c.isAlphanum || c = '-' || c = ':' || c = '.' || c = ','

/-- The variables of the loop; `part` keeps what it was last filled with. -/
structure Tally where
  part : Bytes
  parsedLines : ℤ
  discardedLines : ℤ
  accumulator : Floating

def Tally.start : Tally := ⟨[], 0, 0, .finite 0⟩

/-- `std::getline(lineStream, part, ',')`, again and again. -/
def getParts : (times : ℕ) → InputStream Char → Bytes → Bytes
  | 0, _, part => part
  | times + 1, lineStream, part =>
      match lineStream.getline part ',' with
      | (_, part, lineStream) => getParts times lineStream part

/-- The body of the loop.  The one exception that nothing catches is
`std::out_of_range`. -/
def receiveLine (line : Bytes) (tally : Tally) : Except StodException Tally :=
  let parsedLines := tally.parsedLines + 1
  if validateString line = false then
    .ok { tally with parsedLines, discardedLines := tally.discardedLines + 1 }
  else
    let part := getParts 5 (InputStream.ofText line) tally.part
    match stod part with
    | .ok value => .ok { tally with part, parsedLines, accumulator := tally.accumulator.add value }
    | .error .invalidArgument =>
        .ok { tally with part, parsedLines, discardedLines := tally.discardedLines + 1 }
    | .error .outOfRange => .error .outOfRange

/-- What `receiveMessage` prints. -/
structure Report where
  parsedLines : ℤ
  discardedLines : ℤ
  average : Floating
  deriving DecidableEq, Repr

def Tally.report (tally : Tally) : Report where
  parsedLines := tally.parsedLines
  discardedLines := tally.discardedLines
  average :=
    if 0 < tally.parsedLines - tally.discardedLines then
      tally.accumulator.divide (tally.parsedLines - tally.discardedLines)
    else .finite 0

/-- `receiveMessage`, with the report it prints or the exception it lets through.  The
loop has fuel for every line that the message can have. -/
def receiveMessage (message : Bytes) : Option (Except StodException Report) :=
  match (InputStream.ofText message).getline [] '\n' with
  | (_, line, messageStream) =>
      (messageStream.whileGetline '\n' receiveLine (message.length + 1) line Tally.start).map
        fun result => result.map Tally.report

/-- The lines of a message but the first are received one by one. -/
theorem receiveMessage_eq (message : Bytes) : receiveMessage message =
    some (((lines '\n' message).tail.foldlM (fun tally line => receiveLine line tally)
      Tally.start).map Tally.report) := by
  rw [receiveMessage]
  have hlength : (lines '\n' message).length ≤ message.length := length_lines_le message
  cases hlines : lines '\n' message with
  | nil =>
      cases message with
      | nil => rfl
      | cons c rest =>
          rw [lines] at hlines
          split_ifs at hlines
          cases hrest : lines '\n' rest with
          | nil => rw [hrest] at hlines; cases hlines
          | cons line others => rw [hrest] at hlines; cases hlines
  | cons header others =>
      rw [hlines] at hlength
      obtain ⟨messageStream, hget, hothers⟩ := InputStream.getline_of_remaining_cons
        ((InputStream.remaining_ofText message).trans hlines) []
      have hfuel : (messageStream.remaining '\n').length < message.length + 1 := by
        rw [hothers]
        exact Nat.lt_succ_of_le ((Nat.le_succ _).trans hlength)
      rw [hget]
      dsimp only
      rw [InputStream.whileGetline_eq receiveLine hfuel, hothers]
      rfl

end EasyTrade.Pricing

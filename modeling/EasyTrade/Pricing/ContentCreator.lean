import EasyTrade.Core.AutoTable
import EasyTrade.Core.Greatest
import EasyTrade.Core.RelyGuarantee

/-!
# The prices and who works with them

The content creator inserts one row for each instrument every minute, row by row on a
connection that commits each of them at once, and removes old rows once a day.
Clients ask the pricing service for the current prices.  What the candles look like is
left open, and so is how an instant is written in local time.
-/

namespace EasyTrade.Pricing

open EasyTrade.Program EasyTrade.Interleaving

inductive Instruments
  | easytravel | easyplanes | easyhotels | jangrp | corfig | cmrtin | chamat | blstcr
  | cafgal | decgrp | petban | batbat | stollc | lebrga | moroba
  deriving DecidableEq, Repr

namespace Instruments

def values : List Instruments :=
  [easytravel, easyplanes, easyhotels, jangrp, corfig, cmrtin, chamat, blstcr, cafgal, decgrp,
    petban, batbat, stollc, lebrga, moroba]

def instrumentId : Instruments → ℤ
  | easytravel => 1
  | easyplanes => 2
  | easyhotels => 3
  | jangrp => 4
  | corfig => 5
  | cmrtin => 6
  | chamat => 7
  | blstcr => 8
  | cafgal => 9
  | decgrp => 10
  | petban => 11
  | batbat => 12
  | stollc => 13
  | lebrga => 14
  | moroba => 15

theorem mem_values (instrument : Instruments) : instrument ∈ values := by
  cases instrument <;> decide

theorem instrumentId_injective : Function.Injective instrumentId := by
  intro left right heq
  cases left <;> cases right <;> first | rfl | cases heq

theorem nodup_values : values.Nodup := by decide

end Instruments

structure Candle where
  opening : ℚ
  high : ℚ
  low : ℚ
  closing : ℚ
  deriving DecidableEq, Repr

/-- What `prepareInsertStatement` sends; the timestamp is a local time in seconds. -/
structure NewPrice where
  timestamp : ℤ
  instrumentId : ℤ
  candle : Candle
  deriving DecidableEq, Repr

structure PricingRow where
  id : ℤ
  instrumentId : ℤ
  timestamp : ℤ
  candle : Candle
  deriving DecidableEq, Repr

def NewPrice.row (price : NewPrice) (id : ℤ) : PricingRow :=
  ⟨id, price.instrumentId, price.timestamp, price.candle⟩

theorem NewPrice.row_id (price : NewPrice) (id : ℤ) : (price.row id).id = id := rfl

structure PriceWorld where
  pricing : AutoTable PricingRow.id
  /-- The rows of the batch under way that are still to be inserted.  The database keeps
  no such record. -/
  following : List NewPrice

namespace PriceWorld

/-- `Timestamp = (SELECT max(Timestamp) FROM Pricing)`. -/
def latest (world : PriceWorld) : List PricingRow :=
  greatest PricingRow.timestamp world.pricing.rows

def insert (world : PriceWorld) (price : NewPrice) (following : List NewPrice) : PriceWorld where
  pricing := world.pricing.insert price.row price.row_id
  following := following

/-- `DELETE FROM Pricing WHERE Timestamp < ?`. -/
def deleteBefore (world : PriceWorld) (timestamp : ℤ) : PriceWorld :=
  { world with pricing := world.pricing.delete (·.timestamp < timestamp) }

end PriceWorld

inductive PriceCommand
  /-- The execution of one row of a batch, with those that follow it. -/
  | insert (price : NewPrice) (following : List NewPrice)
  | deleteBefore (timestamp : ℤ)
  | currentPrices
  | currentTime

abbrev PriceCommand.Answer : PriceCommand → Type
  | insert .. | deleteBefore _ => Unit
  | currentPrices => List PricingRow
  | currentTime => ℤ

inductive PriceException
  | sql
  deriving DecidableEq, Repr

/-- How a command turns out. -/
inductive PriceChoice
  | fails
  | goes (n : ℤ)
  | inOrder (rows : List PricingRow)
  deriving DecidableEq, Repr

/-- What a command answers and does.  A row that cannot be inserted does not end the
batch.  `none`: the command cannot turn out this way. -/
def PriceCommand.move : (command : PriceCommand) → PriceChoice → PriceWorld →
    Option (Except PriceException command.Answer × PriceWorld)
  | insert _ following, .fails, world => some (.error .sql, { world with following })
  | insert price following, _, world => some (.ok (), world.insert price following)
  | deleteBefore _, .fails, world => some (.error .sql, world)
  | deleteBefore timestamp, _, world => some (.ok (), world.deleteBefore timestamp)
  | currentPrices, .inOrder rows, world =>
      if rows.Perm world.latest then some (.ok rows, world) else none
  | currentPrices, .fails, world => some (.error .sql, world)
  | currentPrices, _, _ => none
  | currentTime, .goes n, world => some (.ok n, world)
  | currentTime, _, _ => none

/-- Everything a command may do. -/
def priceStep : Semantics PriceException PriceCommand.Answer PriceWorld :=
  fun command world answer world' => ∃ choice, command.move choice world = some (answer, world')

theorem priceStep_of_move (command : PriceCommand) (choice : PriceChoice) (world : PriceWorld)
    (answer : Except PriceException command.Answer) (world' : PriceWorld)
    (hmove : command.move choice world = some (answer, world')) :
    priceStep command world answer world' :=
  ⟨choice, hmove⟩

abbrev PriceTask (α : Type) := Prog PriceException PriceCommand.Answer α

def perform (command : PriceCommand) : PriceTask command.Answer := Prog.perform command

/-! ## The content creator -/

/-- What the content creator finds in its surroundings: the candle that it generates for
an instant (in milliseconds) and an instrument, and the local time (in seconds) of an
instant. -/
structure Surroundings where
  generateCandleData : ℤ → Instruments → Candle
  localTime : ℤ → ℤ

namespace ContentCreator

variable (surroundings : Surroundings)

/-- `generateSinglePricingData`, as it is sent to the database. -/
def generateSinglePricingData (date : ℤ) (instrument : Instruments) : NewPrice where
  timestamp := surroundings.localTime date
  instrumentId := instrument.instrumentId
  candle := surroundings.generateCandleData date instrument

def generateAllPricingForGivenDate (date : ℤ) : List NewPrice :=
  Instruments.values.map (generateSinglePricingData surroundings date)

/-- `insertBatchData` of a list that is shorter than a batch: its one `executeBatch`. -/
def insertBatchData : List NewPrice → PriceTask Unit
  | [] => pure ()
  | price :: following => do
      tryCatch (perform (.insert price following)) fun _ => pure ()
      insertBatchData following

/-- `removeOldPricingData`; the other daily tasks are about other tables. -/
def removeOldPricingData : PriceTask Unit := do
  let now ← perform .currentTime
  tryCatch (perform (.deleteBefore (surroundings.localTime now - 24 * 60 * 60))) fun _ => pure ()

def MINUTES_IN_DAY : ℕ := 1440

/-- So many rounds of the endless loop of `generatePricingData`, without the sleeping;
`cal` and `i` are its variables. -/
def generatePricingData : (rounds : ℕ) → (cal : ℤ) → (i : ℕ) → PriceTask Unit
  | 0, _, _ => pure ()
  | rounds + 1, cal, i => do
      insertBatchData (generateAllPricingForGivenDate surroundings (cal + 60000))
      if MINUTES_IN_DAY < i + 1 then
        removeOldPricingData surroundings
        generatePricingData rounds (cal + 60000) 0
      else
        generatePricingData rounds (cal + 60000) (i + 1)

end ContentCreator

/-! ## The pricing service -/

/-- `GetCurrentPrices`, which answers without prices when the query fails. -/
def GetCurrentPrices : PriceTask (List PricingRow) :=
  tryCatch (perform .currentPrices) fun _ => pure []

/-! ## Together -/

inductive PriceParty
  | contentCreator
  | client (n : ℕ)
  deriving DecidableEq, Repr

structure PriceWorkload where
  surroundings : Surroundings
  rounds : ℕ
  cal : ℤ

def PriceWorkload.program (workload : PriceWorkload) : PriceParty → PriceTask Unit
  | .contentCreator =>
      ContentCreator.generatePricingData workload.surroundings workload.rounds workload.cal 0
  | .client _ => do
      let _ ← GetCurrentPrices

abbrev PriceSystem (M : Type) :=
  Config PriceException PriceCommand.Answer PriceParty PriceWorld M Unit

def PriceWorkload.start {M : Type} (workload : PriceWorkload) (memory : M) (world : PriceWorld) :
    PriceSystem M :=
  Config.start world memory workload.program

end EasyTrade.Pricing

import EasyTrade.Broker.TradePages
import EasyTrade.Broker.TradeRows

/-!
# The list of transactions

The page shows a user's long trades.  Whether a trade is still open and whether it was executed
it reads off the text of the status and not off the two flags, and the direction off the word
that the trade is stored with.  Both come out right for whatever the broker has written.
-/

namespace EasyTrade.Frontend

open Broker

/-- `toLowerCase`, of which nothing is used but what it does to ASCII texts. -/
structure LowerCase where
  toLowerCase : String → String
  ascii : ∀ text : String, text.toList.all (·.toNat < 128) = true →
    toLowerCase text = text.toLower

/-- A `TradeDTO`, which leaves the id and the account out. -/
structure RawTransaction where
  instrumentId : ℤ
  direction : String
  quantity : ℚ
  entryPrice : ℚ
  timestampOpen : DateTime
  timestampClose : Option DateTime
  tradeClosed : Bool
  transactionHappened : Bool
  status : String

def RawTransaction.of (trade : Trade) : RawTransaction where
  instrumentId := trade.instrumentId
  direction := trade.direction
  quantity := trade.quantity
  entryPrice := trade.entryPrice
  timestampOpen := trade.timestampOpen
  timestampClose := trade.timestampClose
  tradeClosed := trade.tradeClosed
  transactionHappened := trade.transactionHappened
  status := trade.status

section Map

variable (lowerCase : LowerCase)

end Map

section Texts

variable {lowerCase : LowerCase}

/-- The `toLowerCase` that leaves all other characters alone. -/
def LowerCase.plain : LowerCase := ⟨String.toLower, fun _ _ => rfl⟩

end Texts

/-! ## What the page shows -/

end EasyTrade.Frontend

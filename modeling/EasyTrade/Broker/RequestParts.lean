import EasyTrade.Broker.Interference
import EasyTrade.Broker.Requests

/-!
# What requests are composed of

A property of programs that carries over to compositions is one of a request as soon as its
parts have it: the commands that touch neither trades, holdings nor transactions, the brackets
of the transaction, the writes of holdings, and the trades inserted, queried and closed.
-/

namespace EasyTrade.Broker

open EasyTrade.Program

/-- The commands that touch neither trades, holdings nor the transaction. -/
def Command.isPlain : Command → Bool
  | .addOwnedInstrument _ | .updateOwnedInstrument _ | .getTradesWhere _ | .addTrade _
  | .updateTrade _ | .beginTransaction | .commitTransaction | .rollbackTransaction => false
  | _ => true

/-- The commands that touch neither trades nor holdings. -/
def Command.isOrdinary : Command → Bool
  | .beginTransaction | .commitTransaction | .rollbackTransaction => true
  | command => command.isPlain

theorem Command.isOrdinary_of_isPlain {command : Command} (hplain : command.isPlain = true) :
    command.isOrdinary = true := by
  cases command <;> trivial

/-- The texts that a trade is closed with, each with whether the transaction happened. -/
def closingTexts : List (String × Bool) :=
  [("Time is up: trade failed", false),
    ("Not enough money to buy stocks! Trade failed!", false),
    ("Long buy transaction finished!", true),
    ("Not enough stocks to sell! Trade failed!", false),
    ("Long sell transaction finished!", true),
    ("This is not a long running transcation! Trade failed!", false)]

/-- The queries for trades. -/
def tradeQueries : List (DateTime → Trade → Bool) :=
  [Trade.overdue, fun _ trade => !trade.tradeClosed]

/-- The trades that requests insert. -/
inductive Inserts : Trade → Prop
  | quick {accountId instrumentId : ℤ} {direction : ActionType} {price quantity : ℚ}
      {opened closed : DateTime} (hdirection : direction = .buy ∨ direction = .sell)
      (hquantity : 0 ≤ quantity) :
      Inserts (Trade.quickTrade accountId instrumentId direction price quantity opened closed)
  | long {accountId instrumentId : ℤ} {direction : ActionType} {price quantity : ℚ}
      {opened expires : DateTime} (hdirection : direction = .longBuy ∨ direction = .longSell)
      (hquantity : 0 ≤ quantity) :
      Inserts (Trade.longTrade accountId instrumentId direction price quantity opened expires)

section Parts

variable {admits : {α : Type} → Request α → Prop} (hadmits : Prog.Compositional @admits)
variable {environment : Environment}
include hadmits

theorem admits_notNull {α : Type} {value : Option α} : admits (notNull value) := by
  cases value with
  | none => exact hadmits.throw _
  | some value => exact hadmits.pure value

theorem admits_toDictionary {α : Type} {key : α → ℤ} {items : List α} :
    admits (toDictionary key items) := by
  rw [toDictionary]
  cases firstRepeated [] (items.map key) with
  | none => exact hadmits.pure _
  | some repeated => exact hadmits.throw _

theorem admits_ofExcept {α : Type} {result : Except BrokerException α} :
    admits (ofExcept result) := by
  cases result with
  | ok value => exact hadmits.pure value
  | error error => exact hadmits.throw error

theorem admits_index {α : Type} {dictionary : ℤ → Option α} {key : ℤ} :
    admits (index dictionary key) := by
  rw [index]
  cases dictionary key with
  | none => exact hadmits.throw _
  | some value => exact hadmits.pure value

variable (hplain : ∀ command, command.isPlain = true → admits (issue command))
include hplain

theorem admits_getLastPriceByInstrumentId {id : ℤ} :
    admits (getLastPriceByInstrumentId id) :=
  hadmits.bind (hplain _ rfl) fun _ => hadmits.pure _

theorem admits_collectFee {fee : ℚ} : admits (TradeServiceBase.collectFee fee) := by
  refine hadmits.bind (hplain _ rfl) fun found => ?_
  refine hadmits.bind (admits_notNull hadmits) fun ownerBalance => ?_
  refine hadmits.bind (hplain _ rfl) fun now => ?_
  exact hadmits.bind (hplain _ rfl) fun _ => hplain _ rfl

theorem admits_updateBalance {balance : Balance} {amount ppt : ℚ} {actionType : ActionType} :
    admits (TradeServiceBase.updateBalance balance amount ppt actionType) := by
  refine hadmits.bind (hplain _ rfl) fun tradeDate => ?_
  refine hadmits.bind (hplain _ rfl) fun _ => ?_
  refine hadmits.bind (hplain _ rfl) fun feeDate => ?_
  refine hadmits.bind (hplain _ rfl) fun _ => ?_
  exact hadmits.bind (hplain _ rfl) fun _ => admits_collectFee hadmits hplain

theorem admits_checkFraud {query : FraudQuery} :
    admits (TradeService.checkFraud environment query) :=
  iteInduction (fun _ => hplain _ rfl) fun _ => hadmits.pure 0

/-! ### Closing a trade -/

variable {trade : Trade}
variable (hclose : ∀ closing ∈ closingTexts,
  admits (issue (.updateTrade (trade.close closing.1 closing.2))))
include hclose

theorem admits_closeTrade {status : String} {transactionHappened : Bool}
    (hclosing : (status, transactionHappened) ∈ closingTexts) :
    admits (LongTradeService.closeTrade trade status transactionHappened) :=
  hadmits.bind (hclose _ hclosing) fun _ => hplain _ rfl

/-- The parts of `ProcessLongBuy` and `ProcessLongSell` that write a holding are left to the
caller. -/
theorem admits_processOpenTrade {instruments : ℤ → Option Instrument}
    {prices : ℤ → Option Price} {products : ℤ → Option Product}
    (hbuy : ∀ instrumentId,
      admits (TradeServiceBase.updateOwnedInstrumentOf trade.accountId instrumentId
        trade.quantity))
    (hsell : ∀ ownedInstrument : OwnedInstrument, trade.quantity ≤ ownedInstrument.quantity →
      admits (TradeServiceBase.updateOwnedInstrument ownedInstrument (-trade.quantity))) :
    admits (LongTradeService.processOpenTrade instruments prices products trade) := by
  refine hadmits.bind (admits_index hadmits) fun instrument => ?_
  refine hadmits.bind (admits_index hadmits) fun price => ?_
  refine hadmits.bind (admits_index hadmits) fun product => ?_
  have hend {status : String} {transactionHappened : Bool}
      (hclosing : (status, transactionHappened) ∈ closingTexts) :
      admits (LongTradeService.closeTrade trade status transactionHappened) :=
    admits_closeTrade hadmits hplain hclose hclosing
  refine hadmits.bind (iteInduction (fun _ => ?_) fun _ => iteInduction (fun _ => ?_) fun _ => ?_)
    fun _ => hplain _ rfl
  · refine iteInduction (fun _ => hadmits.pure _) fun _ => ?_
    refine hadmits.bind (hplain _ rfl) fun found => ?_
    refine hadmits.bind (admits_notNull hadmits) fun balance => ?_
    refine iteInduction (fun _ => hend (by decide)) fun _ => ?_
    refine hadmits.bind (admits_updateBalance hadmits hplain) fun _ => ?_
    exact hadmits.bind (hbuy _) fun _ => hend (by decide)
  · refine iteInduction (fun _ => hadmits.pure _) fun _ => ?_
    refine hadmits.bind (hplain _ rfl) fun found => ?_
    cases found with
    | none => exact hend (by decide)
    | some ownedInstrument =>
    refine iteInduction (fun _ => hend (by decide)) fun henough => ?_
    refine hadmits.bind (hplain _ rfl) fun found => ?_
    refine hadmits.bind (admits_notNull hadmits) fun balance => ?_
    refine hadmits.bind (admits_updateBalance hadmits hplain) fun _ => ?_
    exact hadmits.bind (hsell _ (not_lt.mp henough)) fun _ => hend (by decide)
  · exact hend (by decide)

end Parts

/-! ## Whole requests -/

section Requests

variable {admits : {α : Type} → Request α → Prop}

/-- The parts of all requests but the run over the open trades. -/
structure AdmitsParts (admits : {α : Type} → Request α → Prop) : Prop
    extends Prog.Compositional @admits where
  ordinary : ∀ command, command.isOrdinary = true → admits (issue command)
  inserts : ∀ trade, Inserts trade → admits (issue (.addTrade trade))
  receives : ∀ accountId instrumentId amount, 0 ≤ amount →
    admits (TradeServiceBase.updateOwnedInstrumentOf accountId instrumentId amount)
  gives : ∀ (ownedInstrument : OwnedInstrument) amount, amount ≤ ownedInstrument.quantity →
    admits (TradeServiceBase.updateOwnedInstrument ownedInstrument (-amount))

variable {environment : Environment} {accountId instrumentId : ℤ} {amount : ℚ}

theorem AdmitsParts.plain (hparts : AdmitsParts @admits) (command : Command)
    (hplain : command.isPlain = true) : admits (issue command) :=
  hparts.ordinary command (Command.isOrdinary_of_isPlain hplain)

theorem admits_saveChangesOrRollback (hadmits : Prog.Compositional @admits)
    (hordinary : ∀ command, command.isOrdinary = true → admits (issue command)) :
    admits saveChangesOrRollback :=
  hadmits.tryCatch (hadmits.bind (hordinary _ rfl) fun _ => hordinary _ rfl) fun _ =>
    hadmits.bind (hordinary _ rfl) fun _ => hadmits.throw _

theorem AdmitsParts.modifyBalance (hparts : AdmitsParts @admits) {actionType : ActionType} :
    admits (BalanceService.modifyBalance accountId amount actionType) := by
  have hordinary := hparts.ordinary
  refine hparts.bind (hordinary _ rfl) fun found => ?_
  cases found with
  | none => exact hparts.throw _
  | some balance =>
  refine hparts.bind (hordinary _ rfl) fun now => ?_
  -- once the new value is known, both actions go on in the same way
  have hrest : ∀ (balance : Balance) (row : BalanceHistory),
      admits
        ((do
          issue .beginTransaction
          issue (.updateBalance balance)
          issue (.addBalanceHistory row)
          saveChangesOrRollback
          return balance) : Request Balance) := by
    intro balance row
    refine hparts.bind (hordinary _ rfl) fun _ => ?_
    refine hparts.bind (hordinary _ rfl) fun _ => ?_
    refine hparts.bind (hordinary _ rfl) fun _ => ?_
    exact hparts.bind (admits_saveChangesOrRollback hparts.toCompositional hordinary) fun _ =>
      hparts.pure _
  cases actionType with
  | deposit | withdraw =>
      exact hparts.bind (admits_ofExcept hparts.toCompositional) fun changed => hrest changed _
  | _ => exact hparts.throw _

theorem AdmitsParts.buyAssets (hparts : AdmitsParts @admits) :
    admits (TradeService.buyAssets environment accountId instrumentId amount) := by
  have hadmits := hparts.toCompositional
  have hordinary := hparts.ordinary
  by_cases hamount : amount < 0
  · rw [TradeService.buyAssets, TradeService.validateInput, if_pos hamount]
    exact hparts.throw _
  have hpositive := not_lt.mp hamount
  rw [TradeService.buyAssets, TradeService.validateInput, if_neg hamount]
  refine hparts.bind (hparts.pure ()) fun _ => ?_
  refine hparts.bind (hordinary _ rfl) fun found => ?_
  cases found with
  | none => exact hparts.throw _
  | some balance =>
  refine hparts.bind (hordinary _ rfl) fun found => ?_
  cases found with
  | none => exact hparts.throw _
  | some instrument =>
  refine hparts.bind (admits_getLastPriceByInstrumentId hadmits hparts.plain) fun last => ?_
  refine hparts.bind (admits_notNull hadmits) fun lastPrice => ?_
  refine hparts.bind (hordinary _ rfl) fun found => ?_
  refine hparts.bind (admits_notNull hadmits) fun product => ?_
  refine iteInduction (fun _ => hparts.throw _) fun _ => ?_
  refine hparts.bind (admits_checkFraud hadmits hparts.plain) fun _ => ?_
  refine hparts.bind (hordinary _ rfl) fun _ => ?_
  refine hparts.bind (hordinary _ rfl) fun opened => ?_
  refine hparts.bind (hordinary _ rfl) fun closed => ?_
  refine hparts.bind (hparts.inserts _ (.quick (Or.inl rfl) hpositive)) fun _ => ?_
  refine hparts.bind (admits_updateBalance hadmits hparts.plain) fun _ => ?_
  refine hparts.bind (hparts.receives _ _ _ hpositive) fun _ => ?_
  exact hparts.bind (admits_saveChangesOrRollback hadmits hordinary) fun _ => hparts.pure _

theorem AdmitsParts.sellAssets (hparts : AdmitsParts @admits) :
    admits (TradeService.sellAssets environment accountId instrumentId amount) := by
  have hadmits := hparts.toCompositional
  have hordinary := hparts.ordinary
  by_cases hamount : amount < 0
  · rw [TradeService.sellAssets, TradeService.validateInput, if_pos hamount]
    exact hparts.throw _
  have hpositive := not_lt.mp hamount
  rw [TradeService.sellAssets, TradeService.validateInput, if_neg hamount]
  refine hparts.bind (hparts.pure ()) fun _ => ?_
  refine hparts.bind (hordinary _ rfl) fun found => ?_
  cases found with
  | none => exact hparts.throw _
  | some balance =>
  refine hparts.bind (hordinary _ rfl) fun found => ?_
  cases found with
  | none => exact hparts.throw _
  | some instrument =>
  refine hparts.bind (admits_getLastPriceByInstrumentId hadmits hparts.plain) fun last => ?_
  refine hparts.bind (admits_notNull hadmits) fun lastPrice => ?_
  refine hparts.bind (hordinary _ rfl) fun product => ?_
  refine hparts.bind (hordinary _ rfl) fun held => ?_
  cases held with
  | none => exact hparts.throw _
  | some ownedInstrument =>
  refine iteInduction (fun _ => hparts.throw _) fun henough => ?_
  refine hparts.bind (admits_checkFraud hadmits hparts.plain) fun _ => ?_
  refine hparts.bind (hordinary _ rfl) fun _ => ?_
  refine hparts.bind (hordinary _ rfl) fun opened => ?_
  refine hparts.bind (hordinary _ rfl) fun closed => ?_
  refine hparts.bind (hparts.inserts _ (.quick (Or.inr rfl) hpositive)) fun _ => ?_
  refine hparts.bind (admits_notNull hadmits) fun product => ?_
  refine hparts.bind (admits_updateBalance hadmits hparts.plain) fun _ => ?_
  refine hparts.bind (hparts.gives _ _ (not_lt.mp henough)) fun _ => ?_
  exact hparts.bind (admits_saveChangesOrRollback hadmits hordinary) fun _ => hparts.pure _

theorem AdmitsParts.createLongTransaction (hparts : AdmitsParts @admits) {duration : ℤ}
    {price : ℚ} {type : ActionType} (hlong : type = .longBuy ∨ type = .longSell) :
    admits (LongTradeService.createLongTransaction accountId instrumentId amount duration price
      type) := by
  have hordinary := hparts.ordinary
  by_cases hamount : amount < 0
  · rw [LongTradeService.createLongTransaction, LongTradeService.validateInput, if_pos hamount]
    exact hparts.throw _
  rw [LongTradeService.createLongTransaction, LongTradeService.validateInput, if_neg hamount]
  refine hparts.bind (iteInduction (fun _ => hparts.throw _) fun _ =>
    iteInduction (fun _ => hparts.throw _) fun _ => hparts.pure ()) fun _ => ?_
  refine hparts.bind (hordinary _ rfl) fun found => ?_
  cases found with
  | none => exact hparts.throw _
  | some balance =>
  refine hparts.bind (hordinary _ rfl) fun found => ?_
  cases found with
  | none => exact hparts.throw _
  | some instrument =>
  refine hparts.bind (hordinary _ rfl) fun _ => ?_
  refine hparts.bind (hordinary _ rfl) fun opened => ?_
  refine hparts.bind (hparts.bind (hordinary _ rfl) fun now => ?_) fun expires => ?_
  · cases now.addHours duration with
    | none => exact hparts.throw _
    | some time => exact hparts.pure time
  refine hparts.bind (hparts.inserts _ (.long hlong (not_lt.mp hamount))) fun _ => ?_
  exact hparts.bind (admits_saveChangesOrRollback hparts.toCompositional hordinary) fun _ =>
    hparts.pure _

/-- The operations of a user. -/
def Operation.isOrder : Operation → Bool
  | processLongRunningTransactions => false
  | _ => true

theorem AdmitsParts.request (hparts : AdmitsParts @admits) {operation : Operation}
    (horder : operation.isOrder = true) : admits (operation.request environment) := by
  cases operation with
  | deposit | withdraw => exact hparts.bind hparts.modifyBalance fun _ => hparts.pure ()
  | quickBuy => exact hparts.bind hparts.buyAssets fun _ => hparts.pure ()
  | quickSell => exact hparts.bind hparts.sellAssets fun _ => hparts.pure ()
  | longBuy =>
      exact hparts.bind (hparts.createLongTransaction (Or.inl rfl)) fun _ => hparts.pure ()
  | longSell =>
      exact hparts.bind (hparts.createLongTransaction (Or.inr rfl)) fun _ => hparts.pure ()
  | processLongRunningTransactions => cases horder

end Requests

/-! ## The commands of a request -/

section Issues

variable {P : Command → Prop}
variable (hadd : ∀ row, P (.addOwnedInstrument row))
variable (hupdate : ∀ row, P (.updateOwnedInstrument row))
include hupdate

theorem issues_updateOwnedInstrument
    (hplain : ∀ command, command.isPlain = true → P command)
    {ownedInstrument : OwnedInstrument} {amount : ℚ} :
    (TradeServiceBase.updateOwnedInstrument ownedInstrument amount).Issues P :=
  Prog.issues_bind (Prog.issues_perform (hplain _ rfl)) fun _ =>
    Prog.issues_perform (hupdate _)

include hadd

theorem issues_updateOwnedInstrumentOf
    (hplain : ∀ command, command.isPlain = true → P command)
    {accountId instrumentId : ℤ} {amount : ℚ} :
    (TradeServiceBase.updateOwnedInstrumentOf accountId instrumentId amount).Issues P := by
  refine Prog.issues_bind (Prog.issues_perform (hplain _ rfl)) fun found => ?_
  cases found with
  | none =>
      exact Prog.issues_bind (Prog.issues_perform (hplain _ rfl)) fun _ =>
        Prog.issues_perform (hadd _)
  | some ownedInstrument => exact issues_updateOwnedInstrument hupdate hplain

/-- What a request may issue while it works on one of the open trades. -/
theorem issues_processOpenTrade (hplain : ∀ command, command.isPlain = true → P command)
    {trade : Trade}
    (hclose : ∀ closing ∈ closingTexts, P (.updateTrade (trade.close closing.1 closing.2)))
    {instruments : ℤ → Option Instrument} {prices : ℤ → Option Price}
    {products : ℤ → Option Product} :
    (LongTradeService.processOpenTrade instruments prices products trade).Issues P :=
  admits_processOpenTrade (Prog.compositional_issues P)
    (fun command h => Prog.issues_perform (hplain command h))
    (fun closing h => Prog.issues_perform (hclose closing h))
    (fun _ => issues_updateOwnedInstrumentOf hadd hupdate hplain)
    fun _ _ => issues_updateOwnedInstrument hupdate hplain

variable (hordinary : ∀ command, command.isOrdinary = true → P command)
include hordinary

theorem admitsParts_issues (hinsert : ∀ trade, Inserts trade → P (.addTrade trade)) :
    AdmitsParts fun {_} program => program.Issues P := by
  have hplain : ∀ command : Command, command.isPlain = true → P command :=
    fun command h => hordinary command (Command.isOrdinary_of_isPlain h)
  exact
    { toCompositional := Prog.compositional_issues P
      ordinary := fun command h => Prog.issues_perform (hordinary command h)
      inserts := fun trade htrade => Prog.issues_perform (hinsert trade htrade)
      receives := fun _ _ _ _ => issues_updateOwnedInstrumentOf hadd hupdate hplain
      gives := fun _ _ _ => issues_updateOwnedInstrument hupdate hplain }

/-- What a request may issue about trades. -/
theorem Operation.issues {environment : Environment} {operation : Operation}
    (hinsert : ∀ trade, Inserts trade → P (.addTrade trade))
    (hread : ∀ filter ∈ tradeQueries, P (.getTradesWhere filter))
    (hclose : ∀ trade : Trade, ∀ closing ∈ closingTexts,
      P (.updateTrade (trade.close closing.1 closing.2))) :
    (operation.request environment).Issues P := by
  have hparts := admitsParts_issues hadd hupdate hordinary hinsert
  cases operation with
  | processLongRunningTransactions =>
      have hadmits := hparts.toCompositional
      have hclosing : ∀ trade : Trade, ∀ closing ∈ closingTexts,
          (issue (.updateTrade (trade.close closing.1 closing.2))).Issues P :=
        fun trade closing h => Prog.issues_perform (hclose trade closing h)
      refine hadmits.bind (hparts.ordinary _ rfl) fun _ => ?_
      refine hadmits.bind (hadmits.bind
        (Prog.issues_perform (hread _ List.mem_cons_self)) fun trades => ?_) fun _ => ?_
      · exact hadmits.forM fun trade _ =>
          admits_closeTrade hadmits hparts.plain (hclosing trade) (by decide)
      refine hadmits.bind (hparts.ordinary _ rfl) fun _ => ?_
      refine hadmits.bind
        (Prog.issues_perform (hread _ (List.mem_cons_of_mem _ List.mem_cons_self)))
        fun openTrades => ?_
      refine hadmits.bind (hparts.ordinary _ rfl) fun allInstruments => ?_
      refine hadmits.bind (admits_toDictionary hadmits) fun instruments => ?_
      refine hadmits.bind (hparts.ordinary _ rfl) fun latestPrices => ?_
      refine hadmits.bind (admits_toDictionary hadmits) fun prices => ?_
      refine hadmits.bind (hparts.ordinary _ rfl) fun allProducts => ?_
      refine hadmits.bind (admits_toDictionary hadmits) fun products => ?_
      refine hadmits.bind (hadmits.forM fun trade _ => ?_) fun _ => ?_
      · exact issues_processOpenTrade hadd hupdate
          (fun command h => hordinary command (Command.isOrdinary_of_isPlain h)) (hclose trade)
      · exact admits_saveChangesOrRollback hadmits hparts.ordinary
  | _ => exact hparts.request rfl

end Issues

end EasyTrade.Broker

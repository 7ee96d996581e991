import EasyTrade.UserGenerator.Generator

/-!
# The generated seed data as a ledger

An action either does nothing, posts a deposit or a withdrawal, records an unlucky trade,
or records a successful one together with its payment and the change of the quantity that
is owned.  So the books of an account agree with each other after any number of actions,
and as an action only adds rows of its own account, so do the books of all accounts.
-/

namespace EasyTrade.UserGenerator

/-- Balance entries as a journal. -/
def columns : Ledger.Columns BalanceEntry ℕ ℚ where
  account := BalanceEntry.accountId
  oldValue := BalanceEntry.oldValue
  change := BalanceEntry.valueChange

def tradesOf (account : ℕ) (trades : List TradeEntry) : List TradeEntry :=
  trades.filter fun trade => trade.accountId = account

/-- Whether an action is a trade. -/
def ActionType.isTrade : ActionType → Bool
  | withdraw => false
  | deposit => false
  | buy => true
  | sell => true
  | transactionfee => false

/-- What money a balance entry moved: for which action, how much, and when. -/
def BalanceEntry.payment (entry : BalanceEntry) : ActionType × ℚ × Timestamp :=
  (entry.actionType, entry.valueChange, entry.actionDate)

def TradeEntry.value (trade : TradeEntry) : ℚ := trade.quantity * trade.price

/-- The payment that a trade calls for: a buy costs its value, a sell brings it in. -/
def TradeEntry.payment (trade : TradeEntry) : ActionType × ℚ × Timestamp :=
  (trade.actionType, if trade.actionType = .buy then -trade.value else trade.value,
    trade.timestampOpen)

/-- Whether a trade calls for a payment. -/
def TradeEntry.isPaid (trade : TradeEntry) : Bool :=
  trade.tradeSuccessful && decide (0 < trade.value)

/-- How much of an instrument the successful trades of one kind moved. -/
def tradedQuantity (action : ActionType) (instrument : ℕ) (trades : List TradeEntry) : ℚ :=
  ((trades.filter fun trade => trade.tradeSuccessful ∧ trade.actionType = action ∧
    trade.instrumentId = instrument).map TradeEntry.quantity).sum

/-- The books of an account agree with the balance entries `rows` and the trades `trades`
of this account. -/
structure Consistent (market : Market) (account : Account) (rows : List BalanceEntry)
    (trades : List TradeEntry) : Prop where
  accountId_eq : account.balance.accountId = account.id
  instrumentId_eq : ∀ code,
    (account.ownedInstruments code).instrumentId = (market.instruments code).id
  balance_nonneg : 0 ≤ account.balance.value
  chain : Ledger.Chain columns 0 rows account.balance.value
  quantity_nonneg : ∀ code, 0 ≤ (account.ownedInstruments code).quantity
  quantity_whole : ∀ code, ∃ whole : ℤ, (account.ownedInstruments code).quantity = whole
  quantity_eq : ∀ code, (account.ownedInstruments code).quantity =
    tradedQuantity .buy (account.ownedInstruments code).instrumentId trades -
      tradedQuantity .sell (account.ownedInstruments code).instrumentId trades
  /-- The entries that stand for trades are those of the paid trades, in the same order. -/
  payments_eq : (rows.filter fun row => row.actionType.isTrade).map BalanceEntry.payment =
    (trades.filter TradeEntry.isPaid).map TradeEntry.payment

namespace InstrumentCode

theorem mem_values (code : InstrumentCode) : code ∈ values := by
  cases code <;> decide

theorem map_idxOf_values : values.map values.idxOf = List.range values.length := by decide

end InstrumentCode

theorem Market.id_injective (market : Market) :
    Function.Injective fun code => (market.instruments code).id := by
  intro left right h
  have hidx : InstrumentCode.values.idxOf left = InstrumentCode.values.idxOf right :=
    Nat.add_left_cancel h
  exact (List.idxOf_inj left.mem_values).1 hidx

theorem Market.getValue_pos (market : Market) (code : InstrumentCode) (timestamp : Timestamp) :
    0 < (market.instruments code).getValue timestamp :=
  market.value_pos code _

theorem le_randomBetween {start end_ : ℚ} (h : start ≤ end_) (random : Random) :
    start ≤ randomBetween start end_ random := by
  have hproduct : 0 ≤ (end_ - start) * random := mul_nonneg (sub_nonneg.2 h) random.2.1
  exact le_add_of_nonneg_left hproduct

theorem randomBetween_le {start end_ : ℚ} (h : start ≤ end_) (random : Random) :
    randomBetween start end_ random ≤ end_ := by
  have hproduct : (end_ - start) * random ≤ (end_ - start) * 1 :=
    mul_le_mul_of_nonneg_left random.2.2.le (sub_nonneg.2 h)
  calc randomBetween start end_ random
      = (end_ - start) * random + start := rfl
    _ ≤ (end_ - start) * 1 + start := by gcongr
    _ = end_ := by ring

/-! ## What an action does -/

namespace Books

/-- A balance entry, and the balance that it leads to. -/
def post (books : Books) (action : ActionType) (change : ℚ) (timestamp : Timestamp) : Books :=
  { books with
    balanceHistory := books.balanceHistory.newEntry books.account.balance.accountId
      books.account.balance.value change action timestamp
    account := { books.account with
      balance := { books.account.balance with value := books.account.balance.value + change } } }

theorem removeFunds_eq_post {books : Books} {amount : ℚ} (action : ActionType)
    (timestamp : Timestamp) (hpos : 0 < amount) (hle : amount ≤ books.account.balance.value) :
    books.removeFunds action amount timestamp = (true, books.post action (-amount) timestamp) := by
  have hmin : ¬amount ≤ minWithdrawValue := not_le.2 hpos
  rw [removeFunds, if_neg hmin, if_neg (not_lt.2 hle), post, sub_eq_add_neg]

theorem removeFunds_of_nonpos {books : Books} {amount : ℚ} (action : ActionType)
    (timestamp : Timestamp) (h : amount ≤ 0) :
    books.removeFunds action amount timestamp = (false, books) := by
  have hmin : amount ≤ minWithdrawValue := h
  rw [removeFunds, if_pos hmin]

theorem addFunds_eq_post {books : Books} {amount : ℚ} (action : ActionType)
    (timestamp : Timestamp) (h : 0 ≤ amount) :
    books.addFunds action amount timestamp = (true, books.post action amount timestamp) := by
  have hmin : ¬amount < minDepositValue := not_lt.2 h
  rw [addFunds, if_neg hmin, post]

end Books

/-- All that an action can do to the books. -/
inductive Effect (market : Market) (books : Books) : Books → Prop
  | nothing : Effect market books books
  | posted (action : ActionType) (change : ℚ) (timestamp : Timestamp)
      (haction : action.isTrade = false) (hvalue : 0 ≤ books.account.balance.value + change) :
      Effect market books (books.post action change timestamp)
  | unlucky (action : ActionType) (code : InstrumentCode) (quantity : ℤ)
      (timestamp : Timestamp) :
      Effect market books (books.newTrade action (market.instruments code) quantity
        ((market.instruments code).getValue timestamp) timestamp 0 false)
  | bought (code : InstrumentCode) (quantity : ℤ) (timestamp : Timestamp)
      (hquantity : 0 ≤ quantity)
      (hprice : quantity * (market.instruments code).getValue timestamp ≤
        books.account.balance.value) :
      Effect market books
        ((if 0 < quantity then
            books.post .buy (-(quantity * (market.instruments code).getValue timestamp)) timestamp
          else books).modifyInstrument code quantity timestamp |>.newTrade .buy
            (market.instruments code) quantity ((market.instruments code).getValue timestamp)
            timestamp 0 true)
  | sold (code : InstrumentCode) (quantity : ℤ) (timestamp : Timestamp)
      (hquantity : 0 < quantity)
      (howned : quantity ≤ (books.account.ownedInstruments code).quantity) :
      Effect market books
        ((books.modifyInstrument code (-quantity) timestamp).post .sell
            (quantity * (market.instruments code).getValue timestamp) timestamp |>.newTrade .sell
            (market.instruments code) quantity ((market.instruments code).getValue timestamp)
            timestamp 0 true)

section Actions

variable {market : Market} {books : Books} {code : InstrumentCode} {timestamp : Timestamp}
  {random : Random}

theorem trade_of_unlucky {action : ActionType} {quantity : ℤ}
    (hunlucky : getTradeSuccess tradeSuccessChance random = false) :
    trade action books (market.instruments code) quantity timestamp 0 random =
      .ok (books.newTrade action (market.instruments code) quantity
        ((market.instruments code).getValue timestamp) timestamp 0 false) := by
  rw [trade, hunlucky]
  rfl

theorem trade_of_lucky {action : ActionType} {quantity : ℤ} {books' : Books}
    {run : InstrumentCode → ℚ → ℚ → Timestamp → Bool × Books}
    (hlucky : getTradeSuccess tradeSuccessChance random = true)
    (htransaction : transaction books action = .ok run)
    (hrun : run code quantity (quantity * (market.instruments code).getValue timestamp) timestamp =
      (true, books')) :
    trade action books (market.instruments code) quantity timestamp 0 random =
      .ok (books'.newTrade action (market.instruments code) quantity
        ((market.instruments code).getValue timestamp) timestamp 0 true) := by
  have hcode : (market.instruments code).code = code := rfl
  rw [trade, hlucky, htransaction, hcode]
  simp only [hrun, if_true, bind, Except.bind]
  rfl

/-- A buy of a whole, non-negative quantity that the balance covers. -/
theorem trade_buy {quantity : ℤ} (hquantity : 0 ≤ quantity)
    (hprice : quantity * (market.instruments code).getValue timestamp ≤
      books.account.balance.value) :
    ∃ books', trade .buy books (market.instruments code) quantity timestamp 0 random =
      .ok books' ∧ Effect market books books' := by
  cases hlucky : getTradeSuccess tradeSuccessChance random with
  | false => exact ⟨_, trade_of_unlucky hlucky, .unlucky .buy code quantity timestamp⟩
  | true =>
      have hvalue := market.getValue_pos code timestamp
      have hafford : books.account.canBuy
          (quantity * (market.instruments code).getValue timestamp) = true :=
        decide_eq_true hprice
      refine ⟨_, trade_of_lucky hlucky rfl ?_, .bought code quantity timestamp hquantity hprice⟩
      rw [Books.buyInstrument, hafford]
      by_cases hpos : 0 < quantity
      · have hpositive : 0 < quantity * (market.instruments code).getValue timestamp :=
          mul_pos (Int.cast_pos.2 hpos) hvalue
        rw [if_pos hpos, Books.removeFunds_eq_post .buy timestamp hpositive hprice]
        rfl
      · have hzero : quantity = 0 := le_antisymm (not_lt.1 hpos) hquantity
        have hnothing : quantity * (market.instruments code).getValue timestamp ≤ 0 := by
          simp [hzero]
        rw [if_neg hpos, Books.removeFunds_of_nonpos .buy timestamp hnothing]
        rfl

/-- A sell of a whole, positive quantity that is owned. -/
theorem trade_sell {quantity : ℤ} (hquantity : 0 < quantity)
    (howned : quantity ≤ (books.account.ownedInstruments code).quantity) :
    ∃ books', trade .sell books (market.instruments code) quantity timestamp 0 random =
      .ok books' ∧ Effect market books books' := by
  cases hlucky : getTradeSuccess tradeSuccessChance random with
  | false => exact ⟨_, trade_of_unlucky hlucky, .unlucky .sell code quantity timestamp⟩
  | true =>
      have hsell : books.account.canSell code quantity = true := decide_eq_true howned
      have hpositive : 0 < quantity * (market.instruments code).getValue timestamp :=
        mul_pos (Int.cast_pos.2 hquantity) (market.getValue_pos code timestamp)
      refine ⟨_, trade_of_lucky hlucky rfl ?_, .sold code quantity timestamp hquantity howned⟩
      rw [Books.sellInstrument, hsell, Books.addFunds_eq_post .sell timestamp hpositive.le]
      rfl

/-- An action on books that are not in debt, with a positive reference. -/
theorem generateAction_effect {balanceReference : ℚ} (timestamp : Timestamp) (draws : Draws)
    (hreference : 0 < balanceReference) (hbalance : 0 ≤ books.account.balance.value) :
    ∃ books', generateAction market books timestamp balanceReference draws = .ok books' ∧
      Effect market books books' := by
  rw [generateAction]
  split
  · rename_i hlow
    have hbelow : books.account.balance.value < balanceReference := by
      rw [lowBalanceThreshold] at hlow
      linarith
    refine ⟨_, rfl, ?_⟩
    rw [Actions.lowBalanceAction, Books.depositFunds, Books.action,
      Books.addFunds_eq_post .deposit timestamp (sub_nonneg.2 hbelow.le)]
    exact .posted .deposit _ timestamp rfl (by linarith)
  split
  · rename_i hhigh
    have hpositive : 0 < books.account.balance.value := by
      rw [highBalanceThreshold] at hhigh
      linarith
    refine ⟨_, rfl, ?_⟩
    rw [Actions.highBalanceAction, Books.withdrawFunds, Books.action, balanceWithdrawRatio,
      Books.removeFunds_eq_post .withdraw timestamp (by linarith) (by linarith)]
    exact .posted .withdraw _ timestamp rfl (by linarith)
  dsimp only
  set code := books.account.getInstrumentsByQuantity.head _
  split
  · have hvalue := market.getValue_pos code timestamp
    have hratio : 0 ≤ randomBetween minStockBuyRatio maxStockBuyRatio draws.ratio :=
      (by norm_num [minStockBuyRatio] : (0 : ℚ) ≤ minStockBuyRatio).trans
        (le_randomBetween (by norm_num [minStockBuyRatio, maxStockBuyRatio]) _)
    have hcredit : books.account.balance.value *
        randomBetween minStockBuyRatio maxStockBuyRatio draws.ratio ≤
          books.account.balance.value := by
      have hle : randomBetween minStockBuyRatio maxStockBuyRatio draws.ratio ≤ 1 :=
        (randomBetween_le (by norm_num [minStockBuyRatio, maxStockBuyRatio]) _).trans
          (by norm_num [maxStockBuyRatio])
      exact mul_le_of_le_one_right hbalance hle
    refine trade_buy (Int.floor_nonneg.2 (div_nonneg (mul_nonneg hbalance hratio) hvalue.le)) ?_
    exact ((le_div_iff₀ hvalue).1 (Int.floor_le _)).trans hcredit
  split
  · rename_i hdesired
    have horder : minStockSellRatio ≤ maxStockSellRatio := by
      norm_num [minStockSellRatio, maxStockSellRatio]
    have hratio : 0.3 ≤ randomBetween minStockSellRatio maxStockSellRatio draws.ratio :=
      le_randomBetween horder _
    have hle : randomBetween minStockSellRatio maxStockSellRatio draws.ratio ≤ 0.6 :=
      randomBetween_le horder _
    have howned : 500 < (books.account.ownedInstruments code).quantity := hdesired
    refine trade_sell (Int.floor_pos.2 ?_) ((Int.floor_le _).trans ?_)
    · nlinarith
    · exact mul_le_of_le_one_right (by linarith) (by linarith)
  · exact ⟨books, rfl, .nothing⟩

end Actions

/-! ## What an action keeps -/

theorem tradedQuantity_concat (action : ActionType) (instrument : ℕ) (trades : List TradeEntry)
    (trade : TradeEntry) :
    tradedQuantity action instrument (trades ++ [trade]) =
      tradedQuantity action instrument trades +
        if trade.tradeSuccessful ∧ trade.actionType = action ∧ trade.instrumentId = instrument
        then trade.quantity else 0 := by
  rw [tradedQuantity, List.filter_append, List.map_append, List.sum_append, ← tradedQuantity]
  congr 1
  by_cases h : trade.tradeSuccessful ∧ trade.actionType = action ∧ trade.instrumentId = instrument
  · simp [h]
  · simp [h]

/-- A successful trade that changes what is owned of an instrument by `moved`. -/
structure Moves (market : Market) (code : InstrumentCode) (moved : ℤ) (trade : TradeEntry) :
    Prop where
  successful : trade.tradeSuccessful = true
  instrumentId_eq : trade.instrumentId = (market.instruments code).id
  quantity_eq : (trade.actionType = .buy ∧ trade.quantity = moved) ∨
    (trade.actionType = .sell ∧ trade.quantity = -moved)

namespace Consistent

variable {market : Market} {account : Account} {rows : List BalanceEntry}
  {trades : List TradeEntry}

/-- An account that has just been made. -/
theorem fresh (hbalance : account.balance = { accountId := account.id })
    (howned : ∀ code, (account.ownedInstruments code).quantity = 0)
    (hinstrument : ∀ code,
      (account.ownedInstruments code).instrumentId = (market.instruments code).id) :
    Consistent market account [] [] where
  accountId_eq := by rw [hbalance]
  instrumentId_eq := hinstrument
  balance_nonneg := by rw [hbalance]
  chain := by
    rw [hbalance]
    rfl
  quantity_nonneg code := (howned code).ge
  quantity_whole code := ⟨0, by simp [howned]⟩
  quantity_eq code := by simp [howned, tradedQuantity]
  payments_eq := rfl

/-- A balance entry that stands for no trade. -/
theorem post {row : BalanceEntry} {change : ℚ} (h : Consistent market account rows trades)
    (haction : row.actionType.isTrade = false) (hold : row.oldValue = account.balance.value)
    (hchange : row.valueChange = change) (hvalue : 0 ≤ account.balance.value + change) :
    Consistent market
      { account with
        balance := { account.balance with value := account.balance.value + change } }
      (rows ++ [row]) trades where
  accountId_eq := h.accountId_eq
  instrumentId_eq := h.instrumentId_eq
  balance_nonneg := hvalue
  chain := hchange ▸ h.chain.concat hold
  quantity_nonneg := h.quantity_nonneg
  quantity_whole := h.quantity_whole
  quantity_eq := h.quantity_eq
  payments_eq := by
    rw [List.filter_append, List.filter_cons_of_neg (by simp [haction]), List.filter_nil,
      List.append_nil]
    exact h.payments_eq

/-- A trade that did not succeed. -/
theorem unlucky {trade : TradeEntry} (h : Consistent market account rows trades)
    (hunlucky : trade.tradeSuccessful = false) :
    Consistent market account rows (trades ++ [trade]) where
  accountId_eq := h.accountId_eq
  instrumentId_eq := h.instrumentId_eq
  balance_nonneg := h.balance_nonneg
  chain := h.chain
  quantity_nonneg := h.quantity_nonneg
  quantity_whole := h.quantity_whole
  quantity_eq code := by
    rw [tradedQuantity_concat, tradedQuantity_concat]
    simp only [hunlucky, Bool.false_eq_true, false_and, if_false, add_zero]
    exact h.quantity_eq code
  payments_eq := by
    rw [List.filter_append, List.filter_cons_of_neg (by simp [TradeEntry.isPaid, hunlucky]),
      List.filter_nil, List.append_nil]
    exact h.payments_eq

/-- The quantities after a successful trade that moved `moved` of an instrument. -/
theorem quantity_modify {trade : TradeEntry} {code : InstrumentCode} {moved : ℤ}
    (h : Consistent market account rows trades) (timestamp : Timestamp)
    (hmoves : Moves market code moved trade)
    (howned : 0 ≤ (account.ownedInstruments code).quantity + moved) (other : InstrumentCode) :
    let owned := (account.modifyInstrument code moved timestamp).ownedInstruments other
    owned.instrumentId = (market.instruments other).id ∧
    0 ≤ owned.quantity ∧ (∃ whole : ℤ, owned.quantity = whole) ∧
    owned.quantity = tradedQuantity .buy owned.instrumentId (trades ++ [trade]) -
      tradedQuantity .sell owned.instrumentId (trades ++ [trade]) := by
  intro owned
  rw [tradedQuantity_concat, tradedQuantity_concat, hmoves.successful, hmoves.instrumentId_eq]
  by_cases hother : other = code
  · subst hother
    have hupdated : owned = (account.ownedInstruments other).modify moved timestamp :=
      Function.update_self ..
    have hid : owned.instrumentId = (market.instruments other).id := by
      rw [hupdated]
      exact h.instrumentId_eq other
    have hsum := h.quantity_eq other
    rw [h.instrumentId_eq other] at hsum
    obtain ⟨whole, hwhole⟩ := h.quantity_whole other
    refine ⟨hid, ?_, ⟨whole + moved, ?_⟩, ?_⟩
    · rw [hupdated]
      exact howned
    · rw [hupdated, OwnedInstrument.modify, hwhole]
      push_cast
      rfl
    · rw [hid, hupdated, OwnedInstrument.modify, hsum]
      rcases hmoves.quantity_eq with ⟨haction, hquantity⟩ | ⟨haction, hquantity⟩
      · simp [haction, hquantity]
        ring
      · simp [haction, hquantity]
        ring
  · have hsame : owned = account.ownedInstruments other := Function.update_of_ne hother ..
    have hid := h.instrumentId_eq other
    have hne : (market.instruments code).id ≠ owned.instrumentId := by
      rw [hsame, hid]
      exact fun heq => hother (market.id_injective heq).symm
    simp only [hne, and_false, if_false, add_zero]
    rw [hsame]
    exact ⟨hid, h.quantity_nonneg other, h.quantity_whole other, h.quantity_eq other⟩

/-- A successful trade that calls for no payment. -/
theorem free {trade : TradeEntry} {code : InstrumentCode} {moved : ℤ}
    (h : Consistent market account rows trades) (timestamp : Timestamp)
    (hmoves : Moves market code moved trade)
    (howned : 0 ≤ (account.ownedInstruments code).quantity + moved)
    (hvalue : trade.value ≤ 0) :
    Consistent market (account.modifyInstrument code moved timestamp) rows (trades ++ [trade]) := by
  have hmodified := h.quantity_modify timestamp hmoves howned
  exact
    { accountId_eq := h.accountId_eq
      instrumentId_eq := fun other => (hmodified other).1
      balance_nonneg := h.balance_nonneg
      chain := h.chain
      quantity_nonneg := fun other => (hmodified other).2.1
      quantity_whole := fun other => (hmodified other).2.2.1
      quantity_eq := fun other => (hmodified other).2.2.2
      payments_eq := by
        have hfree : ¬trade.isPaid = true := by
          simp [TradeEntry.isPaid, not_lt.2 hvalue]
        rw [List.filter_append, List.filter_cons_of_neg hfree, List.filter_nil, List.append_nil]
        exact h.payments_eq }

/-- A successful trade with its payment. -/
theorem paid {trade : TradeEntry} {row : BalanceEntry} {code : InstrumentCode} {moved : ℤ}
    {change : ℚ}
    (h : Consistent market account rows trades) (timestamp : Timestamp)
    (hmoves : Moves market code moved trade)
    (howned : 0 ≤ (account.ownedInstruments code).quantity + moved)
    (hvalue : 0 < trade.value) (hpayment : row.payment = trade.payment)
    (hold : row.oldValue = account.balance.value) (hchange : row.valueChange = change)
    (hbalance : 0 ≤ account.balance.value + change) :
    Consistent market
      { account.modifyInstrument code moved timestamp with
        balance := { account.balance with value := account.balance.value + change } }
      (rows ++ [row]) (trades ++ [trade]) := by
  have hmodified := h.quantity_modify timestamp hmoves howned
  exact
    { accountId_eq := h.accountId_eq
      instrumentId_eq := fun other => (hmodified other).1
      balance_nonneg := hbalance
      chain := hchange ▸ h.chain.concat hold
      quantity_nonneg := fun other => (hmodified other).2.1
      quantity_whole := fun other => (hmodified other).2.2.1
      quantity_eq := fun other => (hmodified other).2.2.2
      payments_eq := by
        have hpaid : trade.isPaid = true := by
          simp [TradeEntry.isPaid, hmoves.successful, hvalue]
        have haction : row.actionType = trade.actionType := congrArg Prod.fst hpayment
        have htrade : row.actionType.isTrade = true := by
          rw [haction]
          rcases hmoves.quantity_eq with ⟨hbuy, -⟩ | ⟨hsell, -⟩
          · rw [hbuy]
            rfl
          · rw [hsell]
            rfl
        calc ((rows ++ [row]).filter fun row => row.actionType.isTrade).map BalanceEntry.payment
            = (rows.filter fun row => row.actionType.isTrade).map BalanceEntry.payment ++
                [row.payment] := by simp [htrade]
          _ = (trades.filter TradeEntry.isPaid).map TradeEntry.payment ++ [trade.payment] := by
              rw [h.payments_eq, hpayment]
          _ = ((trades ++ [trade]).filter TradeEntry.isPaid).map TradeEntry.payment := by
              simp [hpaid] }

end Consistent

/-! ## The books of one account -/

/-- The rows of a history are numbered from 1 on, and its counter stands behind them. -/
def Numbered (ids : List ℕ) (counter : ℕ) : Prop :=
  ids = List.range' startingIndex ids.length ∧ counter = startingIndex + ids.length

theorem Numbered.next {ids : List ℕ} {counter : ℕ} (h : Numbered ids counter) :
    Numbered (ids ++ [counter]) (counter + 1) := by
  obtain ⟨hids, hcounter⟩ := h
  have hlength : (ids ++ [counter]).length = ids.length + 1 := List.length_append
  refine ⟨?_, ?_⟩
  · rw [hlength, List.range'_concat, ← hids, hcounter, one_mul]
  · rw [hlength, hcounter, add_assoc]

def NumberedHistories (balanceHistory : BalanceHistory) (tradeHistory : TradeHistory) : Prop :=
  Numbered (balanceHistory.entries.map BalanceEntry.id) balanceHistory.entryId ∧
    Numbered (tradeHistory.entries.map TradeEntry.id) tradeHistory.entryId

/-- An account agrees with its rows in the two histories. -/
def Agrees (market : Market) (account : Account) (balanceHistory : BalanceHistory)
    (tradeHistory : TradeHistory) : Prop :=
  Consistent market account (Ledger.rowsOf columns account.id balanceHistory.entries)
    (tradesOf account.id tradeHistory.entries)

/-- The rows of an account are the same in both pairs of histories. -/
def SameRows (account : ℕ) (balanceHistory balanceHistory' : BalanceHistory)
    (tradeHistory tradeHistory' : TradeHistory) : Prop :=
  Ledger.rowsOf columns account balanceHistory'.entries =
      Ledger.rowsOf columns account balanceHistory.entries ∧
    tradesOf account tradeHistory'.entries = tradesOf account tradeHistory.entries

/-- The identity of an account: its own id, and those of its instruments. -/
def Account.ids (account : Account) : ℕ × List ℕ :=
  (account.id, InstrumentCode.values.map fun code => (account.ownedInstruments code).id)

/-- What working on an account keeps. -/
structure Keeps (market : Market) (books books' : Books) : Prop where
  agrees : Agrees market books'.account books'.balanceHistory books'.tradeHistory
  ids_eq : books'.account.ids = books.account.ids
  numbered : NumberedHistories books.balanceHistory books.tradeHistory →
    NumberedHistories books'.balanceHistory books'.tradeHistory
  others : ∀ other, other ≠ books.account.id →
    SameRows other books.balanceHistory books'.balanceHistory books.tradeHistory
      books'.tradeHistory

variable {market : Market} {books books' books'' : Books}

theorem Keeps.refl (h : Agrees market books.account books.balanceHistory books.tradeHistory) :
    Keeps market books books where
  agrees := h
  ids_eq := rfl
  numbered := id
  others _ _ := ⟨rfl, rfl⟩

theorem Keeps.trans (h : Keeps market books books') (h' : Keeps market books' books'') :
    Keeps market books books'' where
  agrees := h'.agrees
  ids_eq := h'.ids_eq.trans h.ids_eq
  numbered hnumbered := h'.numbered (h.numbered hnumbered)
  others other hother := by
    have hid : books'.account.id = books.account.id := congrArg Prod.fst h.ids_eq
    have hfirst := h.others other hother
    have hsecond := h'.others other (hid ▸ hother)
    exact ⟨hsecond.1.trans hfirst.1, hsecond.2.trans hfirst.2⟩

theorem rowsOf_own {rows : List BalanceEntry} {account : ℕ}
    (h : ∀ row ∈ rows, row.accountId = account) : Ledger.rowsOf columns account rows = rows :=
  List.filter_eq_self.2 fun row hrow => decide_eq_true (h row hrow)

theorem rowsOf_other {rows : List BalanceEntry} {account other : ℕ}
    (h : ∀ row ∈ rows, row.accountId = account) (hother : other ≠ account) :
    Ledger.rowsOf columns other rows = [] :=
  List.filter_eq_nil_iff.2 fun row hrow => by
    simpa [columns, h row hrow] using hother.symm

theorem tradesOf_own {trades : List TradeEntry} {account : ℕ}
    (h : ∀ trade ∈ trades, trade.accountId = account) : tradesOf account trades = trades :=
  List.filter_eq_self.2 fun trade htrade => decide_eq_true (h trade htrade)

theorem tradesOf_other {trades : List TradeEntry} {account other : ℕ}
    (h : ∀ trade ∈ trades, trade.accountId = account) (hother : other ≠ account) :
    tradesOf other trades = [] :=
  List.filter_eq_nil_iff.2 fun trade htrade => by
    simpa [h trade htrade] using hother.symm

/-- Adding rows of the account itself, with which its books still agree. -/
theorem Keeps.of_append {rows : List BalanceEntry} {trades : List TradeEntry}
    (hentries : books'.balanceHistory.entries = books.balanceHistory.entries ++ rows)
    (htrades : books'.tradeHistory.entries = books.tradeHistory.entries ++ trades)
    (hrows : ∀ row ∈ rows, row.accountId = books.account.id)
    (howners : ∀ trade ∈ trades, trade.accountId = books.account.id)
    (hids : books'.account.ids = books.account.ids)
    (hnumbered : NumberedHistories books.balanceHistory books.tradeHistory →
      NumberedHistories books'.balanceHistory books'.tradeHistory)
    (hconsistent : Consistent market books'.account
      (Ledger.rowsOf columns books.account.id books.balanceHistory.entries ++ rows)
      (tradesOf books.account.id books.tradeHistory.entries ++ trades)) :
    Keeps market books books' where
  agrees := by
    have hid : books'.account.id = books.account.id := congrArg Prod.fst hids
    rw [Agrees, hid, hentries, htrades, Ledger.rowsOf_append, rowsOf_own hrows, tradesOf,
      List.filter_append, ← tradesOf, ← tradesOf, tradesOf_own howners]
    exact hconsistent
  ids_eq := hids
  numbered := hnumbered
  others other hother := by
    rw [SameRows, hentries, htrades, Ledger.rowsOf_append, rowsOf_other hrows hother, tradesOf,
      List.filter_append, ← tradesOf, ← tradesOf, tradesOf_other howners hother, List.append_nil,
      List.append_nil]
    exact ⟨rfl, rfl⟩

section Numbering

variable {balanceHistory : BalanceHistory} {tradeHistory : TradeHistory}

theorem NumberedHistories.newEntry (h : NumberedHistories balanceHistory tradeHistory)
    {accountId : ℕ} {oldValue change : ℚ} {action : ActionType} {date : Timestamp} :
    NumberedHistories (balanceHistory.newEntry accountId oldValue change action date)
      tradeHistory := by
  refine ⟨?_, h.2⟩
  rw [BalanceHistory.newEntry, List.map_append]
  exact h.1.next

theorem NumberedHistories.newTrade (h : NumberedHistories balanceHistory tradeHistory)
    {accountId instrumentId : ℕ} {action : ActionType} {quantity price : ℚ}
    {opened closed : Timestamp} {ended successful : Bool} {status : String} :
    NumberedHistories balanceHistory (tradeHistory.newEntry accountId instrumentId action quantity
      price opened closed ended successful status) := by
  refine ⟨h.1, ?_⟩
  rw [TradeHistory.newEntry, List.map_append]
  exact h.2.next

end Numbering

theorem ids_modifyInstrument (account : Account) (code : InstrumentCode) (quantity : ℚ)
    (timestamp : Timestamp) :
    (account.modifyInstrument code quantity timestamp).ids = account.ids := by
  have hsame : ∀ other,
      ((account.modifyInstrument code quantity timestamp).ownedInstruments other).id =
        (account.ownedInstruments other).id := by
    intro other
    by_cases hother : other = code
    · subst hother
      have hupdated := Function.update_self other
        ((account.ownedInstruments other).modify quantity timestamp) account.ownedInstruments
      exact (congrArg OwnedInstrument.id hupdated).trans rfl
    · exact congrArg OwnedInstrument.id (Function.update_of_ne hother _ _)
  rw [Account.ids, Account.ids, funext hsame]
  rfl

/-- An effect keeps the books in agreement. -/
theorem Effect.keeps (heffect : Effect market books books')
    (hagrees : Agrees market books.account books.balanceHistory books.tradeHistory) :
    Keeps market books books' := by
  have hid := hagrees.accountId_eq
  cases heffect with
  | nothing => exact .refl hagrees
  | posted action change timestamp haction hvalue =>
      refine .of_append rfl (List.append_nil _).symm (List.forall_mem_singleton.2 hid)
        (List.forall_mem_nil _) rfl (fun hnumbered => hnumbered.newEntry) ?_
      rw [List.append_nil]
      exact Consistent.post hagrees haction rfl rfl hvalue
  | unlucky action code quantity timestamp =>
      refine .of_append (List.append_nil _).symm rfl (List.forall_mem_nil _)
        (List.forall_mem_singleton.2 rfl) rfl (fun hnumbered => hnumbered.newTrade) ?_
      rw [List.append_nil]
      exact Consistent.unlucky hagrees rfl
  | bought code quantity timestamp hquantity hprice =>
      have hgrown : 0 ≤ (books.account.ownedInstruments code).quantity + (quantity : ℚ) :=
        add_nonneg (hagrees.quantity_nonneg code) (Int.cast_nonneg hquantity)
      have hvalue := market.getValue_pos code timestamp
      by_cases hpos : 0 < quantity
      · rw [if_pos hpos]
        refine .of_append rfl rfl (List.forall_mem_singleton.2 hid)
          (List.forall_mem_singleton.2 rfl) (ids_modifyInstrument ..)
          (fun hnumbered => hnumbered.newEntry.newTrade) ?_
        exact Consistent.paid hagrees timestamp ⟨rfl, rfl, .inl ⟨rfl, rfl⟩⟩ hgrown
          (mul_pos (Int.cast_pos.2 hpos) hvalue) rfl rfl rfl (le_add_neg_iff_le.2 hprice)
      · rw [if_neg hpos]
        refine .of_append (List.append_nil _).symm rfl (List.forall_mem_nil _)
          (List.forall_mem_singleton.2 rfl) (ids_modifyInstrument ..)
          (fun hnumbered => hnumbered.newTrade) ?_
        rw [List.append_nil]
        refine Consistent.free hagrees timestamp ⟨rfl, rfl, .inl ⟨rfl, rfl⟩⟩ hgrown ?_
        exact mul_nonpos_of_nonpos_of_nonneg (Int.cast_nonpos.2 (not_lt.1 hpos)) hvalue.le
  | sold code quantity timestamp hquantity howned =>
      have hleft : 0 ≤ (books.account.ownedInstruments code).quantity + ((-quantity : ℤ) : ℚ) := by
        rw [Int.cast_neg]
        exact le_add_neg_iff_le.2 howned
      have hvalue : 0 < quantity * (market.instruments code).getValue timestamp :=
        mul_pos (Int.cast_pos.2 hquantity) (market.getValue_pos code timestamp)
      rw [← Int.cast_neg]
      refine .of_append rfl rfl (List.forall_mem_singleton.2 hid)
        (List.forall_mem_singleton.2 rfl)
        (ids_modifyInstrument books.account code (-quantity : ℤ) timestamp)
        (fun hnumbered => hnumbered.newEntry.newTrade) ?_
      have hquantity_eq : (quantity : ℚ) = -((-quantity : ℤ) : ℚ) := by
        rw [Int.cast_neg, neg_neg]
      exact Consistent.paid hagrees timestamp ⟨rfl, rfl, .inr ⟨rfl, hquantity_eq⟩⟩ hleft hvalue
        rfl rfl rfl (add_nonneg hagrees.balance_nonneg hvalue.le)

/-- Any number of actions keeps the books in agreement, and no action fails. -/
theorem generateActions_keeps {balanceReference : ℚ} (hreference : 0 < balanceReference)
    (timestamps : List Timestamp) (draws : ℕ → Draws) (books : Books)
    (hagrees : Agrees market books.account books.balanceHistory books.tradeHistory) :
    ∃ books', generateActions market balanceReference draws timestamps books = .ok books' ∧
      Keeps market books books' := by
  induction timestamps generalizing draws books with
  | nil => exact ⟨books, rfl, .refl hagrees⟩
  | cons timestamp rest ih =>
      obtain ⟨middle, hmiddle, heffect⟩ :=
        generateAction_effect timestamp (draws 0) hreference hagrees.balance_nonneg
      have hkeeps := heffect.keeps hagrees
      obtain ⟨books', hbooks', hrest⟩ := ih (fun i => draws (i + 1)) middle hkeeps.agrees
      refine ⟨books', ?_, hkeeps.trans hrest⟩
      rw [generateActions, hmiddle]
      exact hbooks'

theorem makeHistory_keeps (choices : Choices) (period : TimePeriod) (books : Books)
    (hagrees : Agrees market books.account books.balanceHistory books.tradeHistory) :
    ∃ books', makeHistory market choices books period = .ok books' ∧ Keeps market books books' := by
  refine generateActions_keeps ?_ _ _ books hagrees
  have hleast : minBalanceValue ≤
      randomBetween minBalanceValue maxBalanceValue choices.balanceReference :=
    le_randomBetween (by norm_num [minBalanceValue, maxBalanceValue]) _
  exact (by norm_num [minBalanceValue] : 0 < minBalanceValue).trans_le hleast

theorem makeHistoryBeyond_keeps (preset : ℕ) (choices : Choices) (period : TimePeriod)
    (books : Books)
    (hagrees : Agrees market books.account books.balanceHistory books.tradeHistory) :
    ∃ books', makeHistoryBeyond market preset choices period books = .ok books' ∧
      Keeps market books books' := by
  rw [makeHistoryBeyond]
  split
  · exact makeHistory_keeps choices period books hagrees
  · exact ⟨books, rfl, .refl hagrees⟩

/-! ## All accounts -/

/-- What working on many accounts keeps, started from these. -/
structure KeepsAll (market : Market) (accounts : List Account) (balanceHistory : BalanceHistory)
    (tradeHistory : TradeHistory) (seed : SeedData) : Prop where
  agrees : ∀ account ∈ seed.accounts, Agrees market account seed.balanceHistory seed.tradeHistory
  ids_eq : seed.accounts.map Account.ids = accounts.map Account.ids
  numbered : NumberedHistories balanceHistory tradeHistory →
    NumberedHistories seed.balanceHistory seed.tradeHistory
  others : ∀ other, other ∉ accounts.map Account.id →
    SameRows other balanceHistory seed.balanceHistory tradeHistory seed.tradeHistory

theorem Agrees.congr {account : Account} {balanceHistory balanceHistory' : BalanceHistory}
    {tradeHistory tradeHistory' : TradeHistory}
    (h : Agrees market account balanceHistory tradeHistory)
    (hsame : SameRows account.id balanceHistory balanceHistory' tradeHistory tradeHistory') :
    Agrees market account balanceHistory' tradeHistory' := by
  rw [Agrees, hsame.1, hsame.2]
  exact h

/-- The loop over the accounts: the books of the accounts already done stay as they are. -/
theorem makeHistories_keeps (preset : ℕ) (choices : ℕ → Choices) (period : TimePeriod)
    (accounts : List Account) (balanceHistory : BalanceHistory) (tradeHistory : TradeHistory)
    (hdistinct : (accounts.map Account.id).Nodup)
    (hagrees : ∀ account ∈ accounts, Agrees market account balanceHistory tradeHistory) :
    ∃ seed, makeHistories market preset choices period accounts balanceHistory tradeHistory =
      .ok seed ∧ KeepsAll market accounts balanceHistory tradeHistory seed := by
  induction accounts generalizing balanceHistory tradeHistory with
  | nil =>
      exact ⟨_, rfl, hagrees, rfl, id, fun _ _ => ⟨rfl, rfl⟩⟩
  | cons account rest ih =>
      obtain ⟨hnew, hrest⟩ := List.nodup_cons.1 hdistinct
      have hhead := hagrees account List.mem_cons_self
      obtain ⟨books, hbooks, hkeeps⟩ :=
        makeHistoryBeyond_keeps preset (choices account.id) period
          ⟨account, balanceHistory, tradeHistory⟩ hhead
      have hid : books.account.id = account.id := congrArg Prod.fst hkeeps.ids_eq
      have hwaiting : ∀ waiting ∈ rest,
          Agrees market waiting books.balanceHistory books.tradeHistory := by
        intro waiting hmem
        have hother : waiting.id ≠ account.id := fun heq =>
          hnew (heq ▸ List.mem_map_of_mem hmem)
        exact (hagrees waiting (List.mem_cons_of_mem _ hmem)).congr (hkeeps.others _ hother)
      obtain ⟨seed, hseed, hall⟩ := ih books.balanceHistory books.tradeHistory hrest hwaiting
      refine ⟨{ seed with accounts := books.account :: seed.accounts }, ?_, ?_, ?_, ?_, ?_⟩
      · rw [makeHistories, hbooks]
        simp only [bind, Except.bind, hseed]
        rfl
      · rintro done (_ | ⟨_, hmem⟩)
        · exact hkeeps.agrees.congr (hall.others _ (hid ▸ hnew))
        · exact hall.agrees done hmem
      · rw [List.map_cons, List.map_cons, hkeeps.ids_eq, hall.ids_eq]
      · exact fun hnumbered => hall.numbered (hkeeps.numbered hnumbered)
      · intro other hother
        obtain ⟨hne, hmem⟩ := not_or.1 (List.mem_cons.not.1 hother)
        have hfirst := hkeeps.others other hne
        have hsecond := hall.others other hmem
        exact ⟨hsecond.1.trans hfirst.1, hsecond.2.trans hfirst.2⟩

/-! ## New accounts -/

variable (market)

theorem createAccount_ids (factory : AccountFactory) (timestamp : Timestamp) :
    (createAccountForUser market factory timestamp).1.ids =
      (factory.accountId, List.range' factory.instrumentId InstrumentCode.values.length) := by
  refine Prod.ext rfl ?_
  calc InstrumentCode.values.map (fun code =>
        factory.instrumentId + InstrumentCode.values.idxOf code)
      = (InstrumentCode.values.map InstrumentCode.values.idxOf).map
          (factory.instrumentId + ·) := (List.map_map ..).symm
    _ = (List.range InstrumentCode.values.length).map (factory.instrumentId + ·) := by
        rw [InstrumentCode.map_idxOf_values]
    _ = List.range' factory.instrumentId InstrumentCode.values.length :=
        (List.range'_eq_map_range ..).symm

theorem getAccounts_ids (timestamp : Timestamp) (users : ℕ) (factory : AccountFactory) :
    (getAccounts market timestamp users factory).map Account.id =
        List.range' factory.accountId users ∧
      ((getAccounts market timestamp users factory).map Account.ids).flatMap Prod.snd =
        List.range' factory.instrumentId (users * InstrumentCode.values.length) := by
  induction users generalizing factory with
  | zero => simp [getAccounts]
  | succ users ih =>
      obtain ⟨hids, howned⟩ := ih (createAccountForUser market factory timestamp).2
      have hnew := createAccount_ids market factory timestamp
      refine ⟨?_, ?_⟩
      · rw [getAccounts, List.range'_succ]
        exact congrArg _ hids
      · have hnext : (createAccountForUser market factory timestamp).2.instrumentId =
            factory.instrumentId + InstrumentCode.values.length := rfl
        rw [getAccounts, List.map_cons, List.flatMap_cons, hnew, howned, hnext,
          List.range'_append_1, Nat.succ_mul, Nat.add_comm]

/-- The data is a ledger: every account agrees with its rows, its balance is the sum of its
changes, and the rows of every kind are numbered from 1 on. -/
structure SeedData.IsLedger (market : Market) (seed : SeedData) : Prop where
  agrees : ∀ account ∈ seed.accounts, Agrees market account seed.balanceHistory seed.tradeHistory
  balance_eq : ∀ account ∈ seed.accounts, account.balance.value =
    ((Ledger.rowsOf columns account.id seed.balanceHistory.entries).map
      BalanceEntry.valueChange).sum
  account_ids : seed.accounts.map Account.id = List.range' 1 seed.accounts.length
  ownedInstrument_ids : (getOwnedInstruments seed.accounts).map OwnedInstrument.id =
    List.range' 1 (getOwnedInstruments seed.accounts).length
  balanceEntry_ids : seed.balanceHistory.entries.map BalanceEntry.id =
    List.range' 1 seed.balanceHistory.entries.length
  tradeEntry_ids : seed.tradeHistory.entries.map TradeEntry.id =
    List.range' 1 seed.tradeHistory.entries.length

theorem map_id_eq (accounts : List Account) :
    accounts.map Account.id = (accounts.map Account.ids).map Prod.fst := by
  rw [List.map_map]
  rfl

theorem map_id_getOwnedInstruments (accounts : List Account) :
    (getOwnedInstruments accounts).map OwnedInstrument.id =
      (accounts.map Account.ids).flatMap Prod.snd := by
  induction accounts with
  | nil => rfl
  | cons account rest ih =>
      rw [getOwnedInstruments, List.flatMap_cons, List.map_append, ← getOwnedInstruments, ih,
        List.map_cons, List.flatMap_cons, List.map_map]
      rfl

theorem Agrees.of_new (timestamp : Timestamp) (users : ℕ) (factory : AccountFactory) :
    ∀ account ∈ getAccounts market timestamp users factory, Agrees market account {} {} := by
  induction users generalizing factory with
  | zero => exact List.forall_mem_nil _
  | succ users ih =>
      intro account hmem
      rcases List.mem_cons.1 hmem with rfl | hlater
      · exact Consistent.fresh rfl (fun _ => rfl) fun _ => rfl
      · exact ih _ account hlater

/-- The data that is generated for any number of users, of which the first `preset` have no
history, is a ledger. -/
theorem seedData_isLedger (market : Market) (preset : ℕ) (choices : ℕ → Choices)
    (period : TimePeriod) (users : ℕ) :
    ∃ seed, generateEasyTradeData market preset choices period users = .ok seed ∧
      seed.accounts.length = users ∧ seed.IsLedger market := by
  obtain ⟨hids, howned⟩ := getAccounts_ids market period.start users {}
  have hdistinct : ((getAccounts market period.start users {}).map Account.id).Nodup := by
    rw [hids]
    exact List.nodup_range' 1
  obtain ⟨seed, hseed, hkeeps⟩ := makeHistories_keeps preset choices period _ {} {} hdistinct
    (Agrees.of_new market period.start users {})
  have hnumbered := hkeeps.numbered ⟨⟨rfl, rfl⟩, ⟨rfl, rfl⟩⟩
  have haccounts : seed.accounts.map Account.id = List.range' 1 users := by
    calc seed.accounts.map Account.id
        = (seed.accounts.map Account.ids).map Prod.fst := map_id_eq _
      _ = ((getAccounts market period.start users {}).map Account.ids).map Prod.fst := by
          rw [hkeeps.ids_eq]
      _ = (getAccounts market period.start users {}).map Account.id := (map_id_eq _).symm
      _ = List.range' 1 users := hids
  have hlength : seed.accounts.length = users := by
    rw [← List.length_map, haccounts, List.length_range']
  have hinstruments : (getOwnedInstruments seed.accounts).map OwnedInstrument.id =
      List.range' 1 (users * InstrumentCode.values.length) := by
    rw [map_id_getOwnedInstruments, hkeeps.ids_eq]
    exact howned
  refine ⟨seed, hseed, hlength, hkeeps.agrees, ?_, ?_, ?_, ?_, ?_⟩
  · intro account hmem
    exact (hkeeps.agrees account hmem).chain.final_eq.trans (zero_add _)
  · rw [hlength]
    exact haccounts
  · rw [← List.length_map, hinstruments, List.length_range']
  · rw [← List.length_map BalanceEntry.id]
    exact hnumbered.1.1
  · rw [← List.length_map TradeEntry.id]
    exact hnumbered.2.1

end EasyTrade.UserGenerator

import EasyTrade.Broker.Requests

/-!
# The accounts of one run

What the decisions of a run do to the books, added up: the trades that were executed change
the balance of their account, the balance of the owner and one holding, and nothing else does.
-/

namespace EasyTrade.Broker

/-! ## Decisions in turn -/

/-- The books after the decisions of a run so far. -/
def Books.afterAll (books : Books) (decisions : List (Trade × Decision)) : Books :=
  decisions.foldl (fun books entry => books.after entry.1 entry.2) books

theorem Books.afterAll_cons (books : Books) (trade : Trade) (decision : Decision)
    (decisions : List (Trade × Decision)) :
    books.afterAll ((trade, decision) :: decisions) =
      (books.after trade decision).afterAll decisions := rfl

theorem map_fst_of_batch {market : Market} {books : Books} {trades : List Trade}
    {decisions : List (Trade × Decision)} (hbatch : batch market books trades = some decisions) :
    decisions.map Prod.fst = trades := by
  induction trades generalizing books decisions with
  | nil =>
    cases hbatch
    rfl
  | cons trade trades ih =>
    obtain ⟨decision, -, hbatch⟩ := Option.bind_eq_some_iff.mp hbatch
    obtain ⟨rest, hrest, hbatch⟩ := Option.bind_eq_some_iff.mp hbatch
    cases hbatch
    rw [List.map_cons, ih hrest]

/-- Every trade is decided on by the books as they stand at its turn. -/
theorem decide_of_batch {market : Market} {books : Books} {trades : List Trade}
    {decisions : List (Trade × Decision)} (hbatch : batch market books trades = some decisions)
    {done rest : List (Trade × Decision)} {trade : Trade} {decision : Decision}
    (hturn : decisions = done ++ (trade, decision) :: rest) :
    (books.afterAll done).decide market trade = some decision := by
  induction trades generalizing books decisions done with
  | nil =>
    cases hbatch
    exact absurd hturn.symm (List.append_ne_nil_of_right_ne_nil _ (List.cons_ne_nil _ _))
  | cons first trades ih =>
    obtain ⟨choice, hchoice, hbatch⟩ := Option.bind_eq_some_iff.mp hbatch
    obtain ⟨others, hothers, hbatch⟩ := Option.bind_eq_some_iff.mp hbatch
    cases hbatch
    cases done with
    | nil =>
      cases hturn
      exact hchoice
    | cons entry done =>
      rw [List.cons_append, List.cons.injEq] at hturn
      obtain ⟨rfl, hturn⟩ := hturn
      exact ih hothers hturn

/-! ## Executed trades -/

/-- A trade that was executed, in its direction and at its fee. -/
structure ExecutedTrade where
  trade : Trade
  direction : ActionType
  ppt : ℚ

namespace ExecutedTrade

/-- The account pays or receives the price and pays the fee, which goes to the owner. -/
def balanceChange (executed : ExecutedTrade) (account : ℤ) : ℚ :=
  (if account = executed.trade.accountId then
    TradeServiceBase.incomeOf executed.direction
      (executed.trade.quantity * executed.trade.entryPrice) - executed.ppt else 0) +
    if account = ownerId then executed.ppt else 0

def isFor (executed : ExecutedTrade) (accountId instrumentId : ℤ) : Bool :=
  accountId = executed.trade.accountId ∧ instrumentId = executed.trade.instrumentId

def holdingChange (executed : ExecutedTrade) : ℚ :=
  quantityChange executed.direction executed.trade.quantity

end ExecutedTrade

def Decision.executed? (trade : Trade) : Decision → Option ExecutedTrade
  | .wait | .reject _ => none
  | .fill direction ppt => some ⟨trade, direction, ppt⟩

/-- The trades that a run executes, in their order. -/
def executedIn (decisions : List (Trade × Decision)) : List ExecutedTrade :=
  decisions.filterMap fun entry => entry.2.executed? entry.1

/-- What an account gains over a run. -/
def gained (decisions : List (Trade × Decision)) (account : ℤ) : ℚ :=
  ((executedIn decisions).map fun executed => executed.balanceChange account).sum

/-- The executed trades of a run in one account and one instrument. -/
def executedFor (decisions : List (Trade × Decision)) (accountId instrumentId : ℤ) :
    List ExecutedTrade :=
  (executedIn decisions).filter fun executed => executed.isFor accountId instrumentId

def acquired (decisions : List (Trade × Decision)) (accountId instrumentId : ℤ) : ℚ :=
  ((executedFor decisions accountId instrumentId).map ExecutedTrade.holdingChange).sum

theorem balance_after (books : Books) (trade : Trade) (decision : Decision) (account : ℤ) :
    (books.after trade decision).balance account = (books.balance account).map
      (· + ((decision.executed? trade).map (·.balanceChange account)).getD 0) := by
  have hsame : ∀ value : Option ℚ, value = value.map (· + 0) := fun value => by
    cases value with
    | none => rfl
    | some value => rw [Option.map_some, add_zero]
  cases decision with
  | wait => exact hsame _
  | reject status => exact hsame _
  | fill direction ppt =>
    simp only [Books.after, Books.hold, Books.post, Option.map_map, Decision.executed?,
      Option.map_some, Option.getD_some, ExecutedTrade.balanceChange]
    congr 1
    funext value
    by_cases haccount : account = trade.accountId
    · simp only [Function.comp_apply, haccount, if_true]
      ring
    · simp only [Function.comp_apply, haccount, if_false]
      ring

/-- The balances at the end are those at the start and the sum over the executed trades. -/
theorem balance_afterAll (books : Books) (decisions : List (Trade × Decision)) (account : ℤ) :
    (books.afterAll decisions).balance account =
      (books.balance account).map (· + gained decisions account) := by
  induction decisions generalizing books with
  | nil =>
    rw [gained, executedIn, List.filterMap_nil, List.map_nil, List.sum_nil]
    cases hvalue : books.balance account with
    | none => exact hvalue
    | some value => rw [Option.map_some, add_zero]; exact hvalue
  | cons entry decisions ih =>
    obtain ⟨trade, decision⟩ := entry
    have hgained : gained ((trade, decision) :: decisions) account =
        ((decision.executed? trade).map (·.balanceChange account)).getD 0 +
          gained decisions account := by
      cases decision with
      | wait => exact (zero_add _).symm
      | reject status => exact (zero_add _).symm
      | fill direction ppt => exact List.sum_cons
    calc (books.afterAll ((trade, decision) :: decisions)).balance account
        = ((books.after trade decision).balance account).map (· + gained decisions account) :=
          ih _
      _ = ((books.balance account).map
            (· + ((decision.executed? trade).map (·.balanceChange account)).getD 0)).map
              (· + gained decisions account) := by rw [balance_after]
      _ = (books.balance account).map (· + gained ((trade, decision) :: decisions) account) := by
          rw [Option.map_map, hgained]
          congr 1
          funext value
          exact add_assoc _ _ _

theorem holding_after (books : Books) (trade : Trade) (decision : Decision)
    (accountId instrumentId : ℤ) :
    (books.after trade decision).holding accountId instrumentId =
      match (decision.executed? trade).filter (·.isFor accountId instrumentId) with
      | none => books.holding accountId instrumentId
      | some executed =>
        some ((books.holding accountId instrumentId).getD 0 + executed.holdingChange) := by
  cases decision with
  | wait => rfl
  | reject status => rfl
  | fill direction ppt =>
    have hholding : (books.after trade (.fill direction ppt)).holding accountId instrumentId =
        if accountId = trade.accountId ∧ instrumentId = trade.instrumentId then
          some ((books.holding trade.accountId trade.instrumentId).getD 0 +
            quantityChange direction trade.quantity)
        else books.holding accountId instrumentId := rfl
    rw [hholding, Decision.executed?]
    by_cases hfor : accountId = trade.accountId ∧ instrumentId = trade.instrumentId
    · have hkept : (some (⟨trade, direction, ppt⟩ : ExecutedTrade)).filter
          (·.isFor accountId instrumentId) = some ⟨trade, direction, ppt⟩ :=
        Option.filter_some_pos (decide_eq_true hfor)
      rw [if_pos hfor, hkept, ← hfor.1, ← hfor.2]
      rfl
    · have hdropped : (some (⟨trade, direction, ppt⟩ : ExecutedTrade)).filter
          (·.isFor accountId instrumentId) = none :=
        Option.filter_some_neg (by simpa [ExecutedTrade.isFor] using hfor)
      rw [if_neg hfor, hdropped]

/-- The holdings at the end: those at the start and the sum over the executed trades, and
without any nothing has changed. -/
theorem holding_afterAll (books : Books) (decisions : List (Trade × Decision))
    (accountId instrumentId : ℤ) :
    (books.afterAll decisions).holding accountId instrumentId =
      if executedFor decisions accountId instrumentId = [] then
        books.holding accountId instrumentId
      else some ((books.holding accountId instrumentId).getD 0 +
        acquired decisions accountId instrumentId) := by
  induction decisions generalizing books with
  | nil => rfl
  | cons entry decisions ih =>
    obtain ⟨trade, decision⟩ := entry
    have hsplit : executedFor ((trade, decision) :: decisions) accountId instrumentId =
        ((decision.executed? trade).filter (·.isFor accountId instrumentId)).toList ++
          executedFor decisions accountId instrumentId := by
      unfold executedFor executedIn
      rw [List.filterMap_cons]
      cases hexecuted : decision.executed? trade with
      | none => simp only [Option.filter_none, Option.toList_none, List.nil_append]
      | some executed =>
        simp only [List.filter_cons]
        by_cases hfor : executed.isFor accountId instrumentId = true
        · have hkept : (some executed).filter (·.isFor accountId instrumentId) =
              some executed := Option.filter_some_pos hfor
          rw [if_pos hfor, hkept]
          rfl
        · have hdropped : (some executed).filter (·.isFor accountId instrumentId) = none :=
            Option.filter_some_neg (Bool.eq_false_iff.mpr hfor)
          rw [if_neg hfor, hdropped]
          rfl
    rw [Books.afterAll_cons, ih, holding_after, acquired, acquired, hsplit]
    cases (decision.executed? trade).filter (·.isFor accountId instrumentId) with
    | none => rfl
    | some executed =>
      simp only [Option.toList_some, List.cons_append, List.nil_append, List.map_cons,
        List.sum_cons, reduceCtorEq, if_false, Option.getD_some]
      split_ifs with hnone
      · rw [hnone, List.map_nil, List.sum_nil, add_zero]
      · rw [add_assoc]

end EasyTrade.Broker

import EasyTrade.Broker.Accepted
import EasyTrade.Broker.Concurrent
import EasyTrade.Cleanup.Accounts

/-!
# The daily cleanup of trades and balance histories

When a table has too many rows, the content creator deletes half of the allowed number of
them, those with the oldest dates first.  It does not look at what the rows say, and dates
are stored in whole seconds, so the database decides which of the rows of one second go.
-/

namespace EasyTrade.Cleanup

open Broker DoubleRounding TopRows

/-- A `datetime` column rounds to the nearest second. -/
def wholeSeconds (time : DateTime) : ℤ := (time + 5000000) / 10000000

theorem wholeSeconds_mono {time later : DateTime} (h : time ≤ later) :
    wholeSeconds time ≤ wholeSeconds later :=
  Int.ediv_le_ediv (by decide) (Int.add_le_add_right h 5000000)

/-- The orders in which the database finds rows.  A row of the history is told apart by its
place in the order of entry. -/
structure Ties where
  trades : Arrangement Trade
  balanceHistories : Arrangement (BalanceHistory × ℕ)

def MAX_TRADES_COUNT : ℕ := 30000

def MAX_BALANCE_COUNT : ℕ := 30000

/-- The rows that `DELETE FROM Trades ORDER BY TimestampOpen LIMIT n` takes. -/
def oldestTrades (ties : Ties) (n : ℕ) (rows : List Trade) : List Trade :=
  top ties.trades (fun trade => wholeSeconds trade.timestampOpen) n rows

/-- The rows that `DELETE FROM Balancehistory ORDER BY ActionDate LIMIT n` takes. -/
def oldestHistories (ties : Ties) (n : ℕ) (rows : List BalanceHistory) :
    List (BalanceHistory × ℕ) :=
  top ties.balanceHistories (fun numbered => wholeSeconds numbered.1.actionDate) n rows.zipIdx

def checkTableCount (count maxCount : ℕ) : Bool := decide (maxCount < count)

namespace ContentCreator

variable (ties : Ties)

def removeExcessiveTradeData (db : Database) : Database :=
  if checkTableCount db.trades.rows.length MAX_TRADES_COUNT then
    let n := (intValue (toDouble (MAX_TRADES_COUNT * CLEANUP_RATIO.value))).toNat
    { db with trades := db.trades.delete fun trade => trade ∈ oldestTrades ties n db.trades.rows }
  else db

def removeExcessiveBalanceHistoryData (db : Database) : Database :=
  if checkTableCount db.balanceHistories.length MAX_BALANCE_COUNT then
    let n := (intValue (toDouble (MAX_BALANCE_COUNT * CLEANUP_RATIO.value))).toNat
    { db with balanceHistories :=
        (db.balanceHistories.zipIdx.filter fun numbered =>
          numbered ∉ oldestHistories ties n db.balanceHistories).map Prod.fst }
  else db

/-- The daily tasks that are about trades and balance histories. -/
def cleanUpHistories (db : Database) : Database :=
  removeExcessiveBalanceHistoryData ties (removeExcessiveTradeData ties db)

end ContentCreator

open ContentCreator

/-- How many rows are deleted from a table with so many rows. -/
def excess (maxCount count : ℕ) : ℕ :=
  if maxCount < count then (intValue (toDouble (maxCount * CLEANUP_RATIO.value))).toNat else 0

theorem excess_eq (count : ℕ) : excess 30000 count = if 30000 < count then 15000 else 0 := by
  have hproduct : ((30000 : ℕ) : ℚ) * CLEANUP_RATIO.value = (15000 : ℤ) := by
    rw [show CLEANUP_RATIO.value = 1 / 2 from rfl]
    norm_num
  have hdouble : toDouble (15000 : ℤ) = (15000 : ℤ) := toDouble_intCast (by decide)
  have hcast : intValue ((15000 : ℤ) : ℚ) = 15000 := intValue_intCast (by decide) (by decide)
  rw [excess, hproduct, hdouble, hcast]
  rfl

/-- The trades that the cleanup deletes. -/
def deletedTrades (ties : Ties) (db : Database) : List Trade :=
  oldestTrades ties (excess MAX_TRADES_COUNT db.trades.rows.length) db.trades.rows

/-- The rows of the history that the cleanup deletes. -/
def deletedHistories (ties : Ties) (db : Database) : List (BalanceHistory × ℕ) :=
  oldestHistories ties (excess MAX_BALANCE_COUNT db.balanceHistories.length) db.balanceHistories

variable {ties : Ties} {db : Database}

theorem trades_cleanUp :
    (cleanUpHistories ties db).trades.rows =
      db.trades.rows.filter fun trade => trade ∉ deletedTrades ties db := by
  have hhistory : ∀ db : Database,
      (removeExcessiveBalanceHistoryData ties db).trades = db.trades := by
    intro db
    rw [removeExcessiveBalanceHistoryData]
    split <;> rfl
  rw [cleanUpHistories, hhistory, removeExcessiveTradeData, checkTableCount, deletedTrades, excess]
  by_cases hcount : MAX_TRADES_COUNT < db.trades.rows.length
  · rw [if_pos (decide_eq_true hcount), if_pos hcount]
    exact List.filter_congr fun trade _ => (decide_not).symm
  · rw [if_neg (fun h => hcount (of_decide_eq_true h)), if_neg hcount]
    exact (List.filter_eq_self.mpr fun trade _ => decide_eq_true List.not_mem_nil).symm

theorem balanceHistories_cleanUp :
    (cleanUpHistories ties db).balanceHistories =
      (db.balanceHistories.zipIdx.filter fun numbered =>
        numbered ∉ deletedHistories ties db).map Prod.fst := by
  have htrades : (removeExcessiveTradeData ties db).balanceHistories = db.balanceHistories := by
    rw [removeExcessiveTradeData]
    split <;> rfl
  rw [cleanUpHistories, removeExcessiveBalanceHistoryData, htrades, checkTableCount,
    deletedHistories, excess]
  by_cases hcount : MAX_BALANCE_COUNT < db.balanceHistories.length
  · rw [if_pos (decide_eq_true hcount), if_pos hcount]
  · have hall := List.filter_eq_self.mpr fun numbered (_ : numbered ∈ db.balanceHistories.zipIdx) =>
      decide_eq_true (List.not_mem_nil (a := numbered))
    rw [if_neg (fun h => hcount (of_decide_eq_true h)), if_neg hcount, htrades]
    exact (congrArg (List.map Prod.fst) hall).trans (List.zipIdx_map_fst ..) |>.symm

theorem balanceOf_cleanUp (account : ℤ) :
    (cleanUpHistories ties db).balanceOf account = db.balanceOf account := by
  have hbalances : (cleanUpHistories ties db).balances = db.balances := by
    rw [cleanUpHistories, removeExcessiveBalanceHistoryData, removeExcessiveTradeData]
    split <;> split <;> rfl
  rw [Database.balanceOf, hbalances, Database.balanceOf]

/-! ## What is left -/

theorem nodup_zipIdx {α : Type} (rows : List α) : rows.zipIdx.Nodup :=
  List.Nodup.of_map Prod.snd (by
    rw [List.zipIdx_map_snd]
    exact List.nodup_range' 1)

theorem excess_le (count : ℕ) : excess 30000 count ≤ count := by
  rw [excess_eq]
  split <;> omega

theorem length_trades :
    db.trades.rows.length = (cleanUpHistories ties db).trades.rows.length +
      excess MAX_TRADES_COUNT db.trades.rows.length := by
  have hsplit := length_filter_not_mem_top ties.trades
    (fun trade => wholeSeconds trade.timestampOpen)
    (excess MAX_TRADES_COUNT db.trades.rows.length) (db.trades.keysNodup.of_map _)
  have hle : excess MAX_TRADES_COUNT db.trades.rows.length ≤ db.trades.rows.length :=
    excess_le _
  rw [min_eq_left hle] at hsplit
  rw [trades_cleanUp]
  exact hsplit

theorem length_balanceHistories :
    db.balanceHistories.length = (cleanUpHistories ties db).balanceHistories.length +
      excess MAX_BALANCE_COUNT db.balanceHistories.length := by
  have hsplit := length_filter_not_mem_top ties.balanceHistories
    (fun numbered => wholeSeconds numbered.1.actionDate)
    (excess MAX_BALANCE_COUNT db.balanceHistories.length) (nodup_zipIdx db.balanceHistories)
  have hle : excess MAX_BALANCE_COUNT db.balanceHistories.length ≤ db.balanceHistories.length :=
    excess_le _
  rw [List.length_zipIdx, min_eq_left hle] at hsplit
  rw [balanceHistories_cleanUp, List.length_map]
  exact hsplit

theorem trades_sublist :
    (cleanUpHistories ties db).trades.rows.Sublist db.trades.rows := by
  rw [trades_cleanUp]
  exact List.filter_sublist

theorem balanceHistories_sublist :
    (cleanUpHistories ties db).balanceHistories.Sublist db.balanceHistories := by
  have hfst : db.balanceHistories.zipIdx.map Prod.fst = db.balanceHistories :=
    List.zipIdx_map_fst ..
  have hsublist := (List.filter_sublist (p := fun numbered =>
    numbered ∉ deletedHistories ties db) (l := db.balanceHistories.zipIdx)).map Prod.fst
  rw [balanceHistories_cleanUp]
  rwa [hfst] at hsublist

/-- A trade that is deleted is at least as old as any that is left. -/
theorem deleted_trade_le {trade other : Trade} (htrade : trade ∈ db.trades.rows)
    (hdeleted : trade ∉ (cleanUpHistories ties db).trades.rows)
    (hleft : other ∈ (cleanUpHistories ties db).trades.rows) :
    wholeSeconds trade.timestampOpen ≤ wholeSeconds other.timestampOpen := by
  rw [trades_cleanUp, List.mem_filter, decide_eq_true_iff] at hdeleted hleft
  have htaken : trade ∈ deletedTrades ties db := by
    by_contra hnot
    exact hdeleted ⟨htrade, hnot⟩
  exact key_le_of_mem_top (fun trade : Trade => wholeSeconds trade.timestampOpen) htaken hleft.1
    hleft.2

/-- Where the rows of an account that the cleanup deletes and those that it leaves have a
second in common, the database has taken the earlier ones. -/
def TakesEarlier (ties : Ties) (db : Database) (account : ℤ) : Prop :=
  ∀ gone ∈ deletedHistories ties db, ∀ left ∈ db.balanceHistories.zipIdx,
    left ∉ deletedHistories ties db → gone.1.accountId = account → left.1.accountId = account →
      wholeSeconds gone.1.actionDate = wholeSeconds left.1.actionDate → gone.2 < left.2

/-- The rows of an account, in the order of entry, are in the order of their dates. -/
def EnteredInOrder (db : Database) (account : ℤ) : Prop :=
  ((Ledger.rowsOf historyColumns account db.balanceHistories).map
    BalanceHistory.actionDate).Pairwise (· ≤ ·)

/-- The numbered rows of an account. -/
def numberedRowsOf (db : Database) (account : ℤ) : List (BalanceHistory × ℕ) :=
  db.balanceHistories.zipIdx.filter fun numbered => numbered.1.accountId = account

theorem rowsOf_map_fst (account : ℤ) (rows : List (BalanceHistory × ℕ)) :
    Ledger.rowsOf historyColumns account (rows.map Prod.fst) =
      (rows.filter fun numbered => numbered.1.accountId = account).map Prod.fst :=
  List.filter_map ..

theorem map_fst_numberedRowsOf (account : ℤ) :
    (numberedRowsOf db account).map Prod.fst =
      Ledger.rowsOf historyColumns account db.balanceHistories := by
  calc
    _ = Ledger.rowsOf historyColumns account (db.balanceHistories.zipIdx.map Prod.fst) :=
      (rowsOf_map_fst account _).symm
    _ = Ledger.rowsOf historyColumns account db.balanceHistories := by
      rw [List.zipIdx_map_fst]

/-- Numbered rows stand in the order of their numbers and, if the rows do, of their dates. -/
theorem pairwise_numberedRowsOf {account : ℤ} (hentered : EnteredInOrder db account) :
    (numberedRowsOf db account).Pairwise fun earlier later =>
      earlier.1.actionDate ≤ later.1.actionDate ∧ earlier.2 < later.2 := by
  have hsnd : db.balanceHistories.zipIdx.map Prod.snd =
      List.range' 0 db.balanceHistories.length := List.zipIdx_map_snd ..
  have hnumbers := List.pairwise_lt_range' (s := 0) (n := db.balanceHistories.length)
  rw [← hsnd, List.pairwise_map] at hnumbers
  rw [EnteredInOrder, ← map_fst_numberedRowsOf, List.map_map, List.pairwise_map] at hentered
  exact hentered.and (hnumbers.filter _)

/-- The rows that are left of an account. -/
theorem rowsOf_cleanUp (account : ℤ) :
    Ledger.rowsOf historyColumns account (cleanUpHistories ties db).balanceHistories =
      ((numberedRowsOf db account).filter fun numbered =>
        numbered ∉ deletedHistories ties db).map Prod.fst := by
  rw [balanceHistories_cleanUp, rowsOf_map_fst, List.filter_comm, numberedRowsOf]

/-- The rows that are left of an account are the last ones. -/
theorem rowsOf_suffix {account : ℤ} (hentered : EnteredInOrder db account)
    (hties : TakesEarlier ties db account) :
    Ledger.rowsOf historyColumns account (cleanUpHistories ties db).balanceHistories <:+
      Ledger.rowsOf historyColumns account db.balanceHistories := by
  rw [rowsOf_cleanUp, ← map_fst_numberedRowsOf]
  refine List.IsSuffix.map Prod.fst (filter_suffix ?_)
  refine List.Pairwise.imp_of_mem ?_ (pairwise_numberedRowsOf hentered)
  intro earlier later hearlier hlater horder hleft
  rw [decide_eq_true_iff] at hleft ⊢
  intro hgone
  obtain ⟨hearlierRow, hearlierOwn⟩ := List.mem_filter.mp hearlier
  obtain ⟨-, hlaterOwn⟩ := List.mem_filter.mp hlater
  -- a later row that is deleted is no younger, so it is of the same second
  have hsecond : wholeSeconds later.1.actionDate = wholeSeconds earlier.1.actionDate :=
    le_antisymm (key_le_of_mem_top (fun numbered : BalanceHistory × ℕ =>
      wholeSeconds numbered.1.actionDate) hgone hearlierRow hleft) (wholeSeconds_mono horder.1)
  have hbefore : later.2 < earlier.2 := hties later hgone earlier hearlierRow hleft
    (of_decide_eq_true hlaterOwn) (of_decide_eq_true hearlierOwn) hsecond
  exact absurd hbefore (not_lt.mpr horder.2.le)

/-! ## What the cleanup does to any tables -/

/-- What the cleanup leaves of a database. -/
structure Tidied (ties : Ties) (before after : Database) : Prop where
  trades_length : before.trades.rows.length = after.trades.rows.length +
    if MAX_TRADES_COUNT < before.trades.rows.length then 15000 else 0
  trades_sublist : after.trades.rows.Sublist before.trades.rows
  /-- No trade that is left is older than one that is deleted. -/
  trades_oldest : ∀ trade ∈ before.trades.rows, trade ∉ after.trades.rows →
    ∀ other ∈ after.trades.rows,
      wholeSeconds trade.timestampOpen ≤ wholeSeconds other.timestampOpen
  histories_length : before.balanceHistories.length = after.balanceHistories.length +
    if MAX_BALANCE_COUNT < before.balanceHistories.length then 15000 else 0
  histories_sublist : after.balanceHistories.Sublist before.balanceHistories
  /-- Of an account whose rows were entered in order the last ones are left, unless the
  database takes a later row of a second and leaves an earlier one. -/
  histories_suffix : ∀ account, EnteredInOrder before account →
    TakesEarlier ties before account →
      Ledger.rowsOf historyColumns account after.balanceHistories <:+
        Ledger.rowsOf historyColumns account before.balanceHistories
  balances : ∀ account, after.balanceOf account = before.balanceOf account

variable (ties db) in
theorem tidied : Tidied ties db (cleanUpHistories ties db) where
  trades_length := by
    have hexcess := excess_eq db.trades.rows.length
    exact hexcess ▸ length_trades
  trades_sublist := trades_sublist
  trades_oldest := fun _ htrade hdeleted _ hleft => deleted_trade_le htrade hdeleted hleft
  histories_length := by
    have hexcess := excess_eq db.balanceHistories.length
    exact hexcess ▸ length_balanceHistories
  histories_sublist := balanceHistories_sublist
  histories_suffix := fun _ hentered hties => rowsOf_suffix hentered hties
  balances := balanceOf_cleanUp

/-! ## What the cleanup does to the tables of the broker -/

/-- The history of an account leads to its balance. -/
def Explained (db : Database) (account : ℤ) : Prop :=
  ∀ value, db.balanceOf account = some value → ∃ opening,
    Ledger.Chain historyColumns opening
      (Ledger.rowsOf historyColumns account db.balanceHistories) value

theorem Explained.of_suffix {before after : Database} {account : ℤ}
    (hexplained : Explained before account)
    (hbalance : after.balanceOf account = before.balanceOf account)
    (hsuffix : Ledger.rowsOf historyColumns account after.balanceHistories <:+
      Ledger.rowsOf historyColumns account before.balanceHistories) :
    Explained after account := by
  intro value hvalue
  obtain ⟨opening, hchain⟩ := hexplained value (hbalance ▸ hvalue)
  obtain ⟨deleted, hrows⟩ := hsuffix
  rw [← hrows] at hchain
  obtain ⟨middle, -, hleft⟩ := Ledger.chain_append_iff.mp hchain
  exact ⟨middle, hleft⟩

theorem enteredInOrder_of_chronicled {shared : Shared} (hchronicled : shared.Chronicled)
    (account : ℤ) : EnteredInOrder shared.database account := by
  obtain ⟨first, hordered⟩ := hchronicled.dated
  exact hordered.pairwise.sublist (List.filter_sublist.map _)

theorem explained_of_chronicled {shared : Shared} (hchronicled : shared.Chronicled)
    (account : ℤ) : Explained shared.database account := by
  obtain ⟨initial, hunbroken⟩ := hchronicled.explained
  intro value hvalue
  have hrows := hunbroken account
  cases hinitial : initial account with
  | none =>
      rw [hinitial] at hrows
      exact absurd (hvalue.symm.trans hrows.1) (Option.some_ne_none value)
  | some opening =>
      rw [hinitial] at hrows
      obtain ⟨final, hfinal, hchain⟩ := hrows
      cases hvalue.symm.trans hfinal
      exact ⟨opening, hchain⟩

/-- The rows that are left of an account whose rows were entered in order are the last ones, and
lead to the balance if all of them did. -/
theorem cleanUpHistories_tidies (ties : Ties) (db : Database) :
    Tidied ties db (cleanUpHistories ties db) ∧
      ∀ account, EnteredInOrder db account → TakesEarlier ties db account →
        Ledger.rowsOf historyColumns account (cleanUpHistories ties db).balanceHistories <:+
          Ledger.rowsOf historyColumns account db.balanceHistories ∧
        (Explained db account → Explained (cleanUpHistories ties db) account) := by
  refine ⟨tidied ties db, fun account hentered hties => ?_⟩
  have hsuffix := rowsOf_suffix hentered hties
  exact ⟨hsuffix, fun hexplained => hexplained.of_suffix (balanceOf_cleanUp account) hsuffix⟩

/-- Requests that are served one after the other enter rows in order that lead to the
balances. -/
theorem entersInOrder_of_runs {start final : Shared} {requests : List Served}
    (hruns : Runs start requests final) (hstart : start.Chronicled) (account : ℤ) :
    EnteredInOrder final.database account ∧ Explained final.database account :=
  ⟨enteredInOrder_of_chronicled (hruns.chronicled hstart) account,
    explained_of_chronicled (hruns.chronicled hstart) account⟩

/-! ## Crowded tables -/

namespace Sample

open Broker.Sample (shared environment)

/-- The trader's account is entered one deposit after another. -/
def depositRow (now : DateTime) (k : ℕ) : BalanceHistory :=
  BalanceHistory.ofAction 2 (100 + k) 1 .deposit now

/-- Since the start the trader has opened so many trades and made so many deposits, all at
once. -/
structure Crowded (start crowded : Shared) (opened deposits : ℕ) : Prop where
  clock : crowded.clock = start.clock
  listed : crowded.database.instruments = start.database.instruments
  balance : crowded.database.balances.find? 2 = some ⟨2, 100 + deposits⟩
  histories : crowded.database.balanceHistories =
    start.database.balanceHistories ++ (List.range deposits).map (depositRow start.clock)
  isOpen : ∀ trade ∈ crowded.database.trades.rows, trade.tradeClosed = false
  count : crowded.database.trades.rows.length = start.database.trades.rows.length + opened

theorem crowded_refl {start : Shared} (hbalance : start.database.balances.find? 2 = some ⟨2, 100⟩)
    (hopen : ∀ trade ∈ start.database.trades.rows, trade.tradeClosed = false) :
    Crowded start start 0 0 where
  clock := rfl
  listed := rfl
  balance := by rw [hbalance, Nat.cast_zero, add_zero]
  histories := (List.append_nil _).symm
  isOpen := hopen
  count := rfl

theorem crowded_shared : Crowded shared shared 0 0 :=
  crowded_refl (by decide +kernel) (by decide +kernel)

section Crowded

variable {start crowded : Shared} {opened deposits : ℕ}

theorem Crowded.mem_keys (hcrowded : Crowded start crowded opened deposits) :
    2 ∈ crowded.database.balances.keys :=
  Table.mem_keys_of_find? hcrowded.balance

theorem Crowded.open_trade (hcrowded : Crowded shared crowded opened deposits) :
    ∃ next, Serves environment (.longBuy 2 1 1 24 10) crowded (.ok ()) next ∧
      Crowded shared next (opened + 1) deposits := by
  have hinstrument : crowded.database.instruments.find? 1 =
      some ⟨1, 1, "EZ", "EasyTrade", "EasyTrade shares"⟩ := by
    rw [hcrowded.listed]
    decide +kernel
  have hexpires : (crowded.clock.addHours 24).isSome := by
    rw [hcrowded.clock]
    decide +kernel
  obtain ⟨next, hserves, hclock⟩ := exists_serves_longBuy environment hcrowded.mem_keys
    hinstrument (show (0 : ℚ) ≤ 1 by norm_num) (show (0 : ℚ) ≤ 10 by norm_num)
    (show (0 : ℤ) ≤ 24 by norm_num) hexpires
  obtain ⟨events, heffects, hpossible, hdatabase, -, -⟩ := serves_ok hserves
  obtain ⟨event, rfl, id, openedAt, expires, hevent⟩ := heffects
  obtain ⟨trade, rfl⟩ : ∃ trade, event = .registered trade := ⟨_, hevent⟩
  obtain ⟨⟨hfresh, -, hopen, -⟩, -⟩ := hpossible
  have htrades : next.database.trades.rows = crowded.database.trades.rows ++ [trade] := by
    rw [hdatabase]
    exact Table.rows_insert hfresh
  refine ⟨next, hserves, ?_⟩
  exact {
    clock := hclock.trans hcrowded.clock
    listed := by rw [hdatabase]; exact hcrowded.listed
    balance := by rw [hdatabase]; exact hcrowded.balance
    histories := by rw [hdatabase]; exact hcrowded.histories
    isOpen := by
      intro other htrade
      rw [htrades, List.mem_append, List.mem_singleton] at htrade
      rcases htrade with hold | hnew
      · exact hcrowded.isOpen other hold
      · exact hnew ▸ hopen
    count := by
      rw [htrades, List.length_append, hcrowded.count, List.length_singleton, add_assoc] }

theorem Crowded.deposit (hcrowded : Crowded start crowded opened deposits) :
    ∃ next, Serves environment (.deposit 2 1) crowded (.ok ()) next ∧
      Crowded start next opened (deposits + 1) := by
  obtain ⟨next, hserves, hclock⟩ := exists_serves_deposit environment hcrowded.mem_keys
    (show (0 : ℚ) ≤ 1 by norm_num)
  obtain ⟨events, heffects, -, hdatabase, -, hordered⟩ := serves_ok hserves
  obtain ⟨date, rfl⟩ := heffects
  have hdate : date = start.clock := by
    rw [hclock, hcrowded.clock] at hordered
    exact le_antisymm hordered.2 hordered.1
  have hposted : next.database = crowded.database.post 2 1 .deposit start.clock :=
    hdate ▸ hdatabase
  rw [post_of_find? hcrowded.balance] at hposted
  refine ⟨next, hserves, ?_⟩
  exact {
    clock := hclock.trans hcrowded.clock
    listed := by rw [hposted]; exact hcrowded.listed
    balance := by
      rw [hposted]
      refine (Table.find?_set_self hcrowded.mem_keys).trans ?_
      rw [Nat.cast_succ, add_assoc]
    histories := by
      rw [hposted, List.range_succ, List.map_append, ← List.append_assoc, ← hcrowded.histories]
      rfl
    isOpen := by rw [hposted]; exact hcrowded.isOpen
    count := by rw [hposted]; exact hcrowded.count }

end Crowded

theorem exists_deposited {start : Shared} (hstart : Crowded start start 0 0) (deposits : ℕ) :
    ∃ requests crowded, Runs start requests crowded ∧ Crowded start crowded 0 deposits := by
  induction deposits with
  | zero => exact ⟨[], start, .idle, hstart⟩
  | succ deposits ih =>
      obtain ⟨requests, crowded, hruns, hcrowded⟩ := ih
      obtain ⟨next, hserves, hnext⟩ := hcrowded.deposit
      have hserved : Runs start (requests ++ [⟨environment, .deposit 2 1, .ok ()⟩]) next :=
        hruns.serve hserves
      exact ⟨_, next, hserved, hnext⟩

/-- However many. -/
theorem exists_crowded (opened deposits : ℕ) :
    ∃ requests crowded, Runs shared requests crowded ∧
      Crowded shared crowded opened deposits := by
  induction opened with
  | zero => exact exists_deposited crowded_shared deposits
  | succ opened ih =>
      obtain ⟨requests, crowded, hruns, hcrowded⟩ := ih
      obtain ⟨next, hserves, hnext⟩ := hcrowded.open_trade
      have hserved : Runs shared (requests ++ [⟨environment, .longBuy 2 1 1 24 10, .ok ()⟩]) next :=
        hruns.serve hserves
      exact ⟨_, next, hserved, hnext⟩

theorem depositRow_injective (now : DateTime) : Function.Injective (depositRow now) := by
  intro k other h
  have hold : (100 + k : ℚ) = 100 + other := congrArg BalanceHistory.oldValue h
  exact Nat.cast_injective (add_left_cancel hold)

/-- A database that finds the first rows first. -/
def earliestFirst : Ties where
  trades := .listed Trade
  balanceHistories := .listed (BalanceHistory × ℕ)

/-- A database that finds the latest rows first. -/
def latestFirst : Ties where
  trades := .backwards Trade
  balanceHistories := .backwards (BalanceHistory × ℕ)

/-- A database that finds the very first row last. -/
def firstLast : Ties where
  trades := .rotated Trade
  balanceHistories := .rotated (BalanceHistory × ℕ)

theorem chronicled_shared : shared.Chronicled where
  dated := ⟨0, show (0 : ℤ) ≤ 100 by norm_num⟩
  explained := ⟨shared.database.balanceOf, .refl _⟩

section AtOnce

variable {crowded : Shared} {opened deposits : ℕ}

theorem Crowded.histories_eq (hcrowded : Crowded shared crowded opened deposits) :
    crowded.database.balanceHistories = (List.range deposits).map (depositRow 100) :=
  hcrowded.histories

theorem Crowded.rowsOf (hcrowded : Crowded shared crowded opened deposits) :
    Ledger.rowsOf historyColumns 2 crowded.database.balanceHistories =
      (List.range deposits).map (depositRow 100) := by
  rw [hcrowded.histories_eq]
  refine List.filter_eq_self.mpr fun row hrow => ?_
  obtain ⟨k, -, rfl⟩ := List.mem_map.mp hrow
  exact decide_eq_true rfl

/-- All rows that are left are the trader's. -/
theorem Crowded.rowsOf_left (hcrowded : Crowded shared crowded opened deposits) (ties : Ties) :
    Ledger.rowsOf historyColumns 2 (cleanUpHistories ties crowded.database).balanceHistories =
      (cleanUpHistories ties crowded.database).balanceHistories :=
  List.filter_eq_self.mpr fun row hrow =>
    List.filter_eq_self.mp (hcrowded.rowsOf.trans hcrowded.histories_eq.symm) row
      (balanceHistories_sublist.mem hrow)

/-- All rows have one date, so the database takes them as it finds them. -/
theorem Crowded.deleted (hcrowded : Crowded shared crowded opened deposits)
    (hmany : 30000 < deposits) (ties : Ties) :
    deletedHistories ties crowded.database =
      (ties.balanceHistories.arrange crowded.database.balanceHistories.zipIdx).take 15000 := by
  have hdates : ∀ numbered ∈ crowded.database.balanceHistories.zipIdx,
      numbered.1.actionDate = 100 := by
    intro numbered hnumbered
    have hrow : numbered.1 ∈ (List.range deposits).map (depositRow 100) :=
      hcrowded.histories_eq ▸ List.fst_mem_of_mem_zipIdx hnumbered
    obtain ⟨k, -, hk⟩ := List.mem_map.mp hrow
    rw [← hk]
    rfl
  have hexcess : excess MAX_BALANCE_COUNT crowded.database.balanceHistories.length = 15000 := by
    refine (excess_eq _).trans (if_pos ?_)
    rwa [hcrowded.histories_eq, List.length_map, List.length_range]
  rw [deletedHistories, hexcess, oldestHistories]
  exact top_of_eq fun row hrow other hother => by rw [hdates row hrow, hdates other hother]

end AtOnce

section EarliestFirst

variable {crowded : Shared} {opened deposits : ℕ}

/-- The first half of the rows is deleted. -/
theorem Crowded.mem_deleted_iff (hcrowded : Crowded shared crowded opened deposits)
    (hmany : 30000 < deposits) {numbered : BalanceHistory × ℕ}
    (hnumbered : numbered ∈ crowded.database.balanceHistories.zipIdx) :
    numbered ∈ deletedHistories earliestFirst crowded.database ↔ numbered.2 < 15000 := by
  have hfound : earliestFirst.balanceHistories.arrange crowded.database.balanceHistories.zipIdx =
      crowded.database.balanceHistories.zipIdx := rfl
  rw [hcrowded.deleted hmany, hfound, List.mem_take_iff_getElem]
  obtain ⟨i, hi, hget⟩ := List.getElem_of_mem hnumbered
  constructor
  · rintro ⟨j, hj, rfl⟩
    rw [List.getElem_zipIdx]
    dsimp only
    omega
  · intro hfirst
    have hplace : numbered.2 = i := by
      rw [← hget, List.getElem_zipIdx]
      exact Nat.zero_add i
    exact ⟨i, by omega, hget⟩

theorem Crowded.takesEarlier (hcrowded : Crowded shared crowded opened deposits)
    (hmany : 30000 < deposits) (account : ℤ) :
    TakesEarlier earliestFirst crowded.database account := by
  intro gone hgone left hleft hnot _ _ _
  have hmem : gone ∈ crowded.database.balanceHistories.zipIdx := mem_of_mem_top hgone
  rw [hcrowded.mem_deleted_iff hmany hmem] at hgone
  rw [hcrowded.mem_deleted_iff hmany hleft] at hnot
  omega

end EarliestFirst

section LatestFirst

variable {crowded : Shared} {opened deposits : ℕ}

/-- The last row is deleted. -/
theorem Crowded.last_deleted (hcrowded : Crowded shared crowded opened (deposits + 1))
    (hmany : 30000 ≤ deposits) :
    (depositRow 100 deposits, deposits) ∈ deletedHistories latestFirst crowded.database := by
  have hfound : latestFirst.balanceHistories.arrange crowded.database.balanceHistories.zipIdx =
      (depositRow 100 deposits, deposits) ::
        ((List.range deposits).map (depositRow 100)).zipIdx.reverse := by
    have hlength : 0 + ((List.range deposits).map (depositRow 100)).length = deposits := by
      rw [List.length_map, List.length_range, Nat.zero_add]
    calc
      _ = crowded.database.balanceHistories.zipIdx.reverse := rfl
      _ = (((List.range deposits).map (depositRow 100)).zipIdx ++
          [(depositRow 100 deposits, deposits)]).reverse := by
        rw [hcrowded.histories_eq, List.range_succ, List.map_append, List.zipIdx_append, hlength]
        rfl
      _ = _ := List.reverse_concat
  rw [hcrowded.deleted (Nat.lt_succ_of_le hmany), hfound, List.take_succ_cons]
  exact List.mem_cons_self

theorem Crowded.last_not_mem (hcrowded : Crowded shared crowded opened (deposits + 1))
    (hmany : 30000 ≤ deposits) :
    depositRow 100 deposits ∉
      (cleanUpHistories latestFirst crowded.database).balanceHistories := by
  intro hleft
  rw [balanceHistories_cleanUp] at hleft
  obtain ⟨⟨row, k⟩, hfiltered, hrow⟩ := List.mem_map.mp hleft
  have hrow : row = depositRow 100 deposits := hrow
  obtain ⟨hmem, hkept⟩ := List.mem_filter.mp hfiltered
  rw [List.mem_zipIdx_iff_getElem?, hcrowded.histories_eq, List.getElem?_map] at hmem
  obtain ⟨number, hnumber, hdeposit⟩ := Option.map_eq_some_iff.mp hmem
  obtain ⟨hlt, hget⟩ := List.getElem?_eq_some_iff.mp hnumber
  have hk : k = number := (List.getElem_range hlt).symm.trans hget
  have hlast : number = deposits := depositRow_injective 100 (hdeposit.trans hrow)
  rw [hrow, hk, hlast] at hkept
  exact of_decide_eq_true hkept (hcrowded.last_deleted hmany)

/-- What is left is not the end of the history. -/
theorem Crowded.not_suffix (hcrowded : Crowded shared crowded opened (deposits + 1))
    (hmany : 30000 ≤ deposits) :
    ¬Ledger.rowsOf historyColumns 2
        (cleanUpHistories latestFirst crowded.database).balanceHistories <:+
      Ledger.rowsOf historyColumns 2 crowded.database.balanceHistories := by
  intro hsuffix
  rw [hcrowded.rowsOf_left, hcrowded.rowsOf, List.range_succ, List.map_append] at hsuffix
  rcases List.suffix_concat_iff.mp hsuffix with hnone | ⟨rows, hrows, -⟩
  · have hlength := (tidied latestFirst crowded.database).histories_length
    rw [hnone, hcrowded.histories_eq, List.length_map, List.length_range,
      List.length_nil] at hlength
    split at hlength <;> omega
  · refine hcrowded.last_not_mem hmany ?_
    rw [hrows]
    exact List.mem_concat_self

/-- One of the open trades is deleted. -/
theorem Crowded.open_deleted (hcrowded : Crowded shared crowded opened deposits)
    (hmany : 30000 ≤ opened) : ∃ trade ∈ crowded.database.trades.rows,
      trade.tradeClosed = false ∧
        trade ∉ (cleanUpHistories latestFirst crowded.database).trades.rows := by
  by_contra hnone
  push Not at hnone
  have hlength := (tidied latestFirst crowded.database).trades_length
  have hcount : MAX_TRADES_COUNT < crowded.database.trades.rows.length := by
    have hone : shared.database.trades.rows.length = 1 := rfl
    rw [hcrowded.count, hone, MAX_TRADES_COUNT]
    omega
  rw [if_pos hcount] at hlength
  have hnodup : crowded.database.trades.rows.Nodup := crowded.database.trades.keysNodup.of_map _
  have hall : crowded.database.trades.rows ⊆
      (cleanUpHistories latestFirst crowded.database).trades.rows :=
    fun trade htrade => hnone trade htrade (hcrowded.isOpen trade htrade)
  have hle := (List.subperm_of_subset hnodup hall).length_le
  omega

end LatestFirst

/-! ### Rows that are not entered in order -/

/-- The rows of the two deposits, as they have been entered. -/
def overlapping : List BalanceHistory :=
  [BalanceHistory.ofAction ownerId 0 10 .deposit 20000000,
    BalanceHistory.ofAction ownerId 0 10 .deposit 100]

/-- Two deposits of the owner at the same time: the second to read the clock commits first. -/
theorem exists_overlapping :
    ∃ config : Requests Bool,
      Interleaves (fun _ => environment)
        (Requests.arrive shared fun _ => (Operation.deposit ownerId 10).request environment)
        config ∧
      (∀ i, (config.threads i).finished = true) ∧ config.shared.clock = 20000000 ∧
      Crowded config.shared config.shared 0 0 ∧
      config.shared.database.balanceHistories = overlapping := by
  obtain ⟨config, hcheck, hinterleaves⟩ := exists_interleaving (fun _ => environment)
    (Requests.arrive shared fun _ : Bool => (Operation.deposit ownerId 10).request environment)
    (List.replicate 2 (false, .work 100) ++ List.replicate 7 (true, .work 20000000) ++
      List.replicate 5 (false, .work 20000000))
    (fun config => (config.threads false).finished && (config.threads true).finished &&
      decide (config.shared.clock = 20000000 ∧
        config.shared.database.balances.find? 2 = some ⟨2, 100⟩ ∧
        (∀ trade ∈ config.shared.database.trades.rows, trade.tradeClosed = false) ∧
        config.shared.database.balanceHistories = overlapping))
    (by decide +kernel)
  simp only [Bool.and_eq_true, decide_eq_true_eq] at hcheck
  obtain ⟨⟨hfirst, hsecond⟩, hclock, hbalance, hopen, hhistories⟩ := hcheck
  exact ⟨config, hinterleaves, fun i => by cases i <;> assumption, hclock,
    crowded_refl hbalance hopen, hhistories⟩

section Overlapping

variable {start crowded : Shared} {deposits : ℕ}

theorem Crowded.histories_overlapping (hcrowded : Crowded start crowded 0 deposits)
    (hclock : start.clock = 20000000) (hstart : start.database.balanceHistories = overlapping) :
    crowded.database.balanceHistories.zipIdx =
      (BalanceHistory.ofAction ownerId 0 10 .deposit 20000000, 0) ::
        (BalanceHistory.ofAction ownerId 0 10 .deposit 100, 1) ::
          ((List.range deposits).map (depositRow 20000000)).zipIdx 2 := by
  rw [hcrowded.histories, hstart, hclock]
  rfl

/-- The owner's later row is older than the earlier one, and than all others. -/
theorem Crowded.deleted_overlapping (hcrowded : Crowded start crowded 0 deposits)
    (hclock : start.clock = 20000000) (hstart : start.database.balanceHistories = overlapping)
    (hmany : 30000 ≤ deposits) :
    deletedHistories firstLast crowded.database =
      (BalanceHistory.ofAction ownerId 0 10 .deposit 100, 1) ::
        (((List.range deposits).map (depositRow 20000000)).zipIdx 2).take 14999 := by
  have hexcess : excess MAX_BALANCE_COUNT crowded.database.balanceHistories.length = 15000 := by
    refine (excess_eq _).trans (if_pos ?_)
    rw [← List.length_zipIdx (i := 0), hcrowded.histories_overlapping hclock hstart,
      List.length_cons, List.length_cons, List.length_zipIdx, List.length_map, List.length_range]
    omega
  have hfound : firstLast.balanceHistories.arrange crowded.database.balanceHistories.zipIdx =
      (BalanceHistory.ofAction ownerId 0 10 .deposit 100, 1) ::
        (((List.range deposits).map (depositRow 20000000)).zipIdx 2 ++
          [(BalanceHistory.ofAction ownerId 0 10 .deposit 20000000, 0)]) := by
    have hrotated : firstLast.balanceHistories.arrange crowded.database.balanceHistories.zipIdx =
        crowded.database.balanceHistories.zipIdx.rotate 1 := rfl
    rw [hrotated, hcrowded.histories_overlapping hclock hstart, List.rotate_cons_succ,
      List.rotate_zero]
    rfl
  have hdates : ∀ numbered ∈ ((List.range deposits).map (depositRow 20000000)).zipIdx 2 ++
      [(BalanceHistory.ofAction ownerId 0 10 .deposit 20000000, 0)],
        wholeSeconds numbered.1.actionDate = 2 := by
    intro numbered hnumbered
    rcases List.mem_append.mp hnumbered with hdeposit | hfirst
    · obtain ⟨k, -, hk⟩ := List.mem_map.mp (List.fst_mem_of_mem_zipIdx hdeposit)
      rw [← hk]
      rfl
    · rw [List.mem_singleton.mp hfirst]
      rfl
  have hordered : (firstLast.balanceHistories.arrange
      crowded.database.balanceHistories.zipIdx).Pairwise fun left right =>
        wholeSeconds left.1.actionDate ≤ wholeSeconds right.1.actionDate := by
    rw [hfound, List.pairwise_cons]
    refine ⟨fun other hother => ?_,
      List.pairwise_of_forall_mem_list fun row hrow other hother => ?_⟩
    · rw [hdates other hother]
      decide
    · rw [hdates row hrow, hdates other hother]
  have hlength : 14999 ≤ (((List.range deposits).map (depositRow 20000000)).zipIdx 2).length := by
    rw [List.length_zipIdx, List.length_map, List.length_range]
    omega
  rw [deletedHistories, hexcess, oldestHistories, top_of_pairwise hordered, hfound,
    List.take_succ_cons, List.take_append_of_le_length hlength]

/-- Of the owner's two rows the later one is deleted and the earlier one is left. -/
theorem Crowded.rowsOf_overlapping (hcrowded : Crowded start crowded 0 deposits)
    (hclock : start.clock = 20000000) (hstart : start.database.balanceHistories = overlapping)
    (hmany : 30000 ≤ deposits) :
    numberedRowsOf crowded.database ownerId =
      [(BalanceHistory.ofAction ownerId 0 10 .deposit 20000000, 0),
        (BalanceHistory.ofAction ownerId 0 10 .deposit 100, 1)] ∧
    (BalanceHistory.ofAction ownerId 0 10 .deposit 20000000, 0) ∉
      deletedHistories firstLast crowded.database ∧
    (BalanceHistory.ofAction ownerId 0 10 .deposit 100, 1) ∈
      deletedHistories firstLast crowded.database := by
  rw [hcrowded.deleted_overlapping hclock hstart hmany]
  refine ⟨?_, ?_, List.mem_cons_self⟩
  · have hothers : (((List.range deposits).map (depositRow 20000000)).zipIdx 2).filter
        (fun numbered => numbered.1.accountId = ownerId) = [] := by
      refine List.filter_eq_nil_iff.mpr fun numbered hnumbered => ?_
      obtain ⟨k, -, hk⟩ := List.mem_map.mp (List.fst_mem_of_mem_zipIdx hnumbered)
      rw [← hk]
      show ¬decide ((2 : ℤ) = ownerId) = true
      decide
    rw [numberedRowsOf, hcrowded.histories_overlapping hclock hstart]
    exact congrArg (fun rows => (BalanceHistory.ofAction ownerId 0 10 .deposit 20000000, 0) ::
      (BalanceHistory.ofAction ownerId 0 10 .deposit 100, 1) :: rows) hothers
  · rw [List.mem_cons]
    rintro (hsame | hdeposit)
    · cases hsame
    · have hplace := List.le_snd_of_mem_zipIdx (List.mem_of_mem_take hdeposit)
      exact absurd hplace (by decide)

/-- The two rows bear different seconds. -/
theorem Crowded.takesEarlier_overlapping (hcrowded : Crowded start crowded 0 deposits)
    (hclock : start.clock = 20000000) (hstart : start.database.balanceHistories = overlapping)
    (hmany : 30000 ≤ deposits) : TakesEarlier firstLast crowded.database ownerId := by
  obtain ⟨hrows, hleft, hgone⟩ := hcrowded.rowsOf_overlapping hclock hstart hmany
  have hmine : ∀ numbered ∈ crowded.database.balanceHistories.zipIdx,
      numbered.1.accountId = ownerId →
        numbered = (BalanceHistory.ofAction ownerId 0 10 .deposit 20000000, 0) ∨
          numbered = (BalanceHistory.ofAction ownerId 0 10 .deposit 100, 1) := by
    intro numbered hnumbered howner
    have hmem : numbered ∈ numberedRowsOf crowded.database ownerId :=
      List.mem_filter.mpr ⟨hnumbered, decide_eq_true howner⟩
    rw [hrows] at hmem
    simpa using hmem
  intro gone hdeleted left hstored hnot hgoneOwner hleftOwner hsecond
  have hgoneRow := hmine gone (mem_of_mem_top hdeleted) hgoneOwner
  have hleftRow := hmine left hstored hleftOwner
  rcases hgoneRow with rfl | rfl
  · exact absurd hdeleted hleft
  · rcases hleftRow with rfl | rfl
    · exact absurd hsecond (by decide)
    · exact absurd hgone hnot

theorem Crowded.not_suffix_overlapping (hcrowded : Crowded start crowded 0 deposits)
    (hclock : start.clock = 20000000) (hstart : start.database.balanceHistories = overlapping)
    (hmany : 30000 ≤ deposits) :
    ¬Ledger.rowsOf historyColumns ownerId
        (cleanUpHistories firstLast crowded.database).balanceHistories <:+
      Ledger.rowsOf historyColumns ownerId crowded.database.balanceHistories := by
  obtain ⟨hrows, hleft, hgone⟩ := hcrowded.rowsOf_overlapping hclock hstart hmany
  have hdropped : ¬decide ((BalanceHistory.ofAction ownerId 0 10 .deposit 100, 1) ∉
      deletedHistories firstLast crowded.database) = true :=
    fun hleft => of_decide_eq_true hleft hgone
  have hkept : Ledger.rowsOf historyColumns ownerId
      (cleanUpHistories firstLast crowded.database).balanceHistories =
        [BalanceHistory.ofAction ownerId 0 10 .deposit 20000000] := by
    rw [rowsOf_cleanUp, hrows, List.filter_cons, if_pos (decide_eq_true hleft), List.filter_cons,
      if_neg hdropped]
    rfl
  rw [hkept, ← map_fst_numberedRowsOf, hrows]
  decide

end Overlapping

end Sample

open Sample in
/-- Of the first rows as many are deleted as are too many, and the others still lead to the
balance. -/
theorem cleanUpHistories_tidies_crowded :
    ∃ requests crowded, Runs Broker.Sample.shared requests crowded ∧
      (Ledger.rowsOf historyColumns 2 crowded.database.balanceHistories).length = 30001 ∧
      (Ledger.rowsOf historyColumns 2
        (cleanUpHistories earliestFirst crowded.database).balanceHistories).length = 15001 ∧
      Ledger.rowsOf historyColumns 2
          (cleanUpHistories earliestFirst crowded.database).balanceHistories <:+
        Ledger.rowsOf historyColumns 2 crowded.database.balanceHistories ∧
      Explained (cleanUpHistories earliestFirst crowded.database) 2 := by
  obtain ⟨requests, crowded, hruns, hcrowded⟩ := exists_crowded 0 30001
  obtain ⟨hentered, hexplained⟩ := entersInOrder_of_runs hruns chronicled_shared 2
  obtain ⟨htidied, haccounts⟩ := cleanUpHistories_tidies earliestFirst crowded.database
  obtain ⟨hsuffix, hstill⟩ := haccounts 2 hentered (hcrowded.takesEarlier (by decide) 2)
  have hbefore : (Ledger.rowsOf historyColumns 2 crowded.database.balanceHistories).length =
      30001 := by
    rw [hcrowded.rowsOf, List.length_map, List.length_range]
  have hlength := htidied.histories_length
  rw [hcrowded.histories_eq, List.length_map, List.length_range,
    if_pos (show MAX_BALANCE_COUNT < 30001 by decide)] at hlength
  refine ⟨requests, crowded, hruns, hbefore, ?_, hsuffix, hstill hexplained⟩
  rw [hcrowded.rowsOf_left]
  omega

open Sample in
/-- After 30000 long orders and 30001 deposits within one second the cleanup deletes open
trades and leaves rows of the history that are not the last ones.  After two deposits at the
same time and 30000 more it leaves rows that are not the last ones, though no rows of the
account share a second. -/
theorem not_harmless :
    (∃ requests crowded, Runs Broker.Sample.shared requests crowded ∧
      (∃ trade ∈ crowded.database.trades.rows, trade.tradeClosed = false ∧
        trade ∉ (cleanUpHistories latestFirst crowded.database).trades.rows) ∧
      ¬Ledger.rowsOf historyColumns 2
          (cleanUpHistories latestFirst crowded.database).balanceHistories <:+
        Ledger.rowsOf historyColumns 2 crowded.database.balanceHistories) ∧
    ∃ config : Requests Bool,
      Interleaves (fun _ => Broker.Sample.environment)
        (Requests.arrive Broker.Sample.shared fun _ =>
          (Operation.deposit ownerId 10).request Broker.Sample.environment) config ∧
      (∀ i, (config.threads i).finished = true) ∧
      ∃ requests crowded, Runs config.shared requests crowded ∧
        TakesEarlier firstLast crowded.database ownerId ∧
        ¬Ledger.rowsOf historyColumns ownerId
            (cleanUpHistories firstLast crowded.database).balanceHistories <:+
          Ledger.rowsOf historyColumns ownerId crowded.database.balanceHistories := by
  constructor
  · obtain ⟨requests, crowded, hruns, hcrowded⟩ := exists_crowded 30000 30001
    exact ⟨requests, crowded, hruns, hcrowded.open_deleted le_rfl, hcrowded.not_suffix le_rfl⟩
  · obtain ⟨config, hinterleaves, hfinished, hclock, hstart, hhistories⟩ := exists_overlapping
    obtain ⟨requests, crowded, hruns, hcrowded⟩ := exists_deposited hstart 30000
    exact ⟨config, hinterleaves, hfinished, requests, crowded, hruns,
      hcrowded.takesEarlier_overlapping hclock hhistories le_rfl,
      hcrowded.not_suffix_overlapping hclock hhistories le_rfl⟩

end EasyTrade.Cleanup

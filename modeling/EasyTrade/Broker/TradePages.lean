import EasyTrade.Broker.Database
import EasyTrade.Core.Paging

/-!
# The trades of an account, page by page

`GetTradesOfAccount` skips `count * page` trades, a product of two 32-bit integers.
A page is the right one as long as the product does not overflow, or wraps round to an
offset behind the last trade anyway.
-/

namespace EasyTrade.Broker

/-- What the trades are ordered by: the close time, where a missing one is the least,
and then the id. -/
def Trade.sortKey (trade : Trade) : Lex (WithBot DateTime × ℤ) :=
  toLex (trade.timestampClose, trade.id)

/-- `Skip`: a negative number of elements to skip is as good as none. -/
def skip (n : Int32) (trades : List Trade) : List Trade := trades.drop n.toNatClampNeg

/-- `Take`. -/
def take (n : Int32) (trades : List Trade) : List Trade := trades.take n.toNatClampNeg

/-- `OrderByDescending(TimestampClose).ThenByDescending(Id)`. -/
def orderByDescending (trades : List Trade) : List Trade :=
  trades.mergeSort fun left right => right.sortKey ≤ left.sortKey

/-- The three `Where` clauses of the query. -/
def tradesWhere (trades : Table Trade.id) (accountId : ℤ) (onlyOpen onlyLong : Bool) :
    List Trade :=
  let trades := trades.rows.filter fun x => x.accountId = accountId
  let trades := trades.filter fun x => !onlyOpen || !x.tradeClosed
  trades.filter fun x =>
    !onlyLong || x.direction == ActionType.longBuy.stored ||
      x.direction == ActionType.longSell.stored

def getTradesOfAccount (trades : Table Trade.id) (accountId : ℤ) (count page : Int32)
    (onlyOpen onlyLong : Bool) : List Trade :=
  take count (skip (count * page)
    (orderByDescending (tradesWhere trades accountId onlyOpen onlyLong)))

/-- The account's trades that pass the filters, the one that closes last first, and of
two that close at the same time the one with the greater id. -/
structure Listing (trades : Table Trade.id) (accountId : ℤ) (onlyOpen onlyLong : Bool)
    (sorted : List Trade) : Prop where
  mem_iff : ∀ trade, trade ∈ sorted ↔
    trade ∈ trades.rows ∧ trade.accountId = accountId ∧
      (onlyOpen = true → trade.tradeClosed = false) ∧
      (onlyLong = true → trade.direction = "longbuy" ∨ trade.direction = "longsell")
  ordered : sorted.Pairwise fun earlier later => later.sortKey < earlier.sortKey

section Listing

variable {trades : Table Trade.id} {accountId : ℤ} {onlyOpen onlyLong : Bool}
  {sorted : List Trade}

theorem Listing.nodup (hlisting : Listing trades accountId onlyOpen onlyLong sorted) :
    sorted.Nodup :=
  hlisting.ordered.imp fun hlt heq => absurd (congrArg Trade.sortKey heq) hlt.ne'

/-- There is one listing only. -/
theorem Listing.unique {other : List Trade}
    (hlisting : Listing trades accountId onlyOpen onlyLong sorted)
    (hother : Listing trades accountId onlyOpen onlyLong other) : sorted = other := by
  have hperm : sorted.Perm other := by
    refine (List.perm_ext_iff_of_nodup hlisting.nodup hother.nodup).mpr fun trade => ?_
    rw [hlisting.mem_iff, hother.mem_iff]
  refine List.Perm.eq_of_pairwise ?_ hlisting.ordered hother.ordered hperm
  exact fun _ _ _ _ hlt hgt => absurd hlt hgt.asymm

/-- Two trades of a table with one key are the same trade. -/
theorem eq_of_sortKey_eq {left right : Trade} (hleft : left ∈ trades.rows)
    (hright : right ∈ trades.rows) (hkey : left.sortKey = right.sortKey) : left = right := by
  have hid : left.id = right.id := congrArg Prod.snd hkey
  exact List.inj_on_of_nodup_map trades.keysNodup hleft hright hid

theorem mem_tradesWhere {trade : Trade} :
    trade ∈ tradesWhere trades accountId onlyOpen onlyLong ↔
      trade ∈ trades.rows ∧ trade.accountId = accountId ∧
        (onlyOpen = true → trade.tradeClosed = false) ∧
        (onlyLong = true → trade.direction = "longbuy" ∨ trade.direction = "longsell") := by
  rw [tradesWhere, List.mem_filter, List.mem_filter, List.mem_filter]
  cases onlyOpen <;> cases onlyLong <;> simp [ActionType.stored, and_assoc]

/-- What the query orders is the listing. -/
theorem listing_orderByDescending (trades : Table Trade.id) (accountId : ℤ)
    (onlyOpen onlyLong : Bool) :
    Listing trades accountId onlyOpen onlyLong
      (orderByDescending (tradesWhere trades accountId onlyOpen onlyLong)) := by
  set selected := tradesWhere trades accountId onlyOpen onlyLong
  have hmem : ∀ trade, trade ∈ orderByDescending selected ↔ trade ∈ selected := by
    intro trade
    exact List.mem_mergeSort
  refine ⟨fun trade => (hmem trade).trans mem_tradesWhere, ?_⟩
  have hsorted : (orderByDescending selected).Pairwise
      fun earlier later => later.sortKey ≤ earlier.sortKey := by
    have hpairwise : (orderByDescending selected).Pairwise
        fun earlier later => decide (later.sortKey ≤ earlier.sortKey) = true :=
      List.pairwise_mergeSort
        (fun _ _ _ hleft hright => decide_eq_true
          ((of_decide_eq_true hright).trans (of_decide_eq_true hleft)))
        (fun left right => by simpa using le_total right.sortKey left.sortKey) selected
    exact hpairwise.imp of_decide_eq_true
  have hnodup : (orderByDescending selected).Nodup := by
    have hrows : trades.rows.Nodup := trades.keysNodup.of_map _
    have hselected : selected.Nodup := ((hrows.filter _).filter _).filter _
    exact (List.mergeSort_perm selected _).nodup_iff.mpr hselected
  refine (hsorted.and hnodup).imp_of_mem fun hearlier hlater h => ?_
  refine lt_of_le_of_ne h.1 fun hkey => h.2 ?_
  have hinTable : ∀ {trade}, trade ∈ orderByDescending selected → trade ∈ trades.rows :=
    fun htrade => (mem_tradesWhere.mp ((hmem _).mp htrade)).1
  exact (eq_of_sortKey_eq (hinTable hlater) (hinTable hearlier) hkey).symm

/-- A page is cut out of the listing. -/
theorem getTradesOfAccount_eq (hlisting : Listing trades accountId onlyOpen onlyLong sorted)
    (count page : Int32) :
    getTradesOfAccount trades accountId count page onlyOpen onlyLong =
      Paging.fetch sorted count.toNatClampNeg (count * page).toNatClampNeg := by
  rw [hlisting.unique (listing_orderByDescending trades accountId onlyOpen onlyLong)]
  rfl

end Listing

/-! ## The offset of a page -/

section Offset

variable {offset : Int32} {product : ℕ}

/-- A product that wraps round: below 2³¹ it is right, from there to 2³² it is negative,
and it is never too large. -/
theorem offset_cases (hoffset : offset.toInt = Int.bmod product (2 ^ 32)) :
    offset.toNatClampNeg ≤ product ∧
      (product < 2 ^ 31 → offset.toNatClampNeg = product) ∧
      (2 ^ 31 ≤ product → product < 2 * 2 ^ 31 → offset.toNatClampNeg = 0) := by
  rw [Int.bmod_def] at hoffset
  rw [← Int32.toNat_toInt offset]
  generalize offset.toInt = offset at hoffset ⊢
  split at hoffset <;> omega

theorem offset_eq_iff (hoffset : offset.toInt = Int.bmod product (2 ^ 32)) :
    offset.toNatClampNeg = product ↔ product < 2 ^ 31 := by
  constructor
  · intro heq
    rw [← heq]
    exact Int32.toNatClampNeg_lt offset
  · exact (offset_cases hoffset).2.1

variable {count page : Int32}

theorem toInt_offset (hcount : 0 ≤ count) (hpage : 0 ≤ page) :
    (count * page).toInt =
      Int.bmod (count.toNatClampNeg * page.toNatClampNeg : ℕ) (2 ^ 32) := by
  rw [Int32.toInt_mul, Nat.cast_mul, Int32.cast_toNatClampNeg count hcount,
    Int32.cast_toNatClampNeg page hpage]

theorem toInt_offset_ofNat (hcount : 0 ≤ count) (page : ℕ) :
    (count * Int32.ofNat page).toInt =
      Int.bmod (count.toNatClampNeg * page : ℕ) (2 ^ 32) := by
  rw [Int32.toInt_mul, Int32.toInt_ofNat', Nat.cast_mul, Int32.cast_toNatClampNeg count hcount]
  exact Int.mul_bmod_bmod

end Offset

/-- Reading page 0, page 1 and so on until a page is empty lists the account's trades once
each, in their order. -/
def ListedByPages (trades : Table Trade.id) (accountId : ℤ) (count : Int32)
    (onlyOpen onlyLong : Bool) (sorted : List Trade) : Prop :=
  Paging.ReadsThrough (2 ^ 31)
    (fun page => getTradesOfAccount trades accountId count (Int32.ofNat page) onlyOpen onlyLong)
    sorted

/-- A page holds the trades from `count * page` on exactly if the product fits into 32 bits
or is taken for an offset behind the last trade; the pages together list every trade once
exactly if the offset of the first page behind the last trade fits. -/
theorem pages_right_iff (trades : Table Trade.id) (accountId : ℤ) (onlyOpen onlyLong : Bool)
    {sorted : List Trade} (hlisting : Listing trades accountId onlyOpen onlyLong sorted)
    {count page : Int32} (hcount : 1 ≤ count) (hpage : 0 ≤ page) :
    (getTradesOfAccount trades accountId count page onlyOpen onlyLong =
        Paging.fetch sorted count.toNatClampNeg (count.toNatClampNeg * page.toNatClampNeg) ↔
      count.toNatClampNeg * page.toNatClampNeg < 2 ^ 31 ∨
        sorted.length ≤ (count * page).toNatClampNeg) ∧
    (ListedByPages trades accountId count onlyOpen onlyLong sorted ↔
      count.toNatClampNeg * (sorted.length ⌈/⌉ count.toNatClampNeg) < 2 ^ 31) := by
  have hnonneg : 0 ≤ count := Int32.le_trans (by decide) hcount
  have hpos : 0 < count.toNatClampNeg := by
    rw [Int32.toNatClampNeg_pos_iff]
    exact Int32.lt_of_lt_of_le (by decide) hcount
  constructor
  · have hoffset := toInt_offset hnonneg hpage
    rw [getTradesOfAccount_eq hlisting,
      Paging.fetch_eq_iff hlisting.nodup hpos (offset_cases hoffset).1, offset_eq_iff hoffset]
  · have hpages : ListedByPages trades accountId count onlyOpen onlyLong sorted ↔
        Paging.ReadsThrough (2 ^ 31) (fun page => Paging.fetch sorted count.toNatClampNeg
          (count * Int32.ofNat page).toNatClampNeg) sorted := by
      have hfun : (fun page => getTradesOfAccount trades accountId count (Int32.ofNat page)
            onlyOpen onlyLong) =
          fun page => Paging.fetch sorted count.toNatClampNeg
            (count * Int32.ofNat page).toNatClampNeg := by
        funext page
        exact getTradesOfAccount_eq hlisting count (Int32.ofNat page)
      rw [ListedByPages, hfun]
    rw [hpages]
    refine Paging.readsThrough_iff hlisting.nodup hpos (Int32.toNatClampNeg_lt count)
      (fun page => ?_) (fun page => ?_)
    · exact (offset_cases (toInt_offset_ofNat hnonneg page)).2.1
    · exact (offset_cases (toInt_offset_ofNat hnonneg page)).2.2

/-- A trade that was bought and closed at once. -/
def tradeAt (id accountId : ℤ) (closed : DateTime) : Trade :=
  { Trade.quickTrade accountId 1 .buy 10 1 0 closed with id := id }

theorem sortKey_tradeAt_lt {id other accountId otherAccount : ℤ} {closed otherClosed : DateTime} :
    (tradeAt id accountId closed).sortKey < (tradeAt other otherAccount otherClosed).sortKey ↔
      closed < otherClosed ∨ closed = otherClosed ∧ id < other := by
  have hclosed : ((closed : WithBot DateTime) < otherClosed ↔ closed < otherClosed) ∧
      ((closed : WithBot DateTime) = otherClosed ↔ closed = otherClosed) :=
    ⟨WithBot.coe_lt_coe, WithBot.coe_inj⟩
  rw [← hclosed.1, ← hclosed.2]
  exact Prod.Lex.toLex_lt_toLex

/-- Five trades of account 2, three of which close at the same time, and one of account 3. -/
def dayTrades : Table Trade.id :=
  ⟨[tradeAt 1 2 10, tradeAt 2 3 10, tradeAt 3 2 10, tradeAt 4 2 30, tradeAt 5 2 10,
    tradeAt 6 2 20], by decide⟩

def dayListing : List Trade :=
  [tradeAt 4 2 30, tradeAt 6 2 20, tradeAt 5 2 10, tradeAt 3 2 10, tradeAt 1 2 10]

theorem listing_dayTrades : Listing dayTrades 2 false false dayListing := by
  refine ⟨fun trade => ?_, ?_⟩
  · have hnever : ∀ {p : Prop}, false = true → p := fun h => absurd h Bool.false_ne_true
    simp only [dayTrades, dayListing, List.mem_cons, List.not_mem_nil, or_false]
    constructor
    · rintro (rfl | rfl | rfl | rfl | rfl) <;> exact ⟨by simp, rfl, hnever, hnever⟩
    · rintro ⟨rfl | rfl | rfl | rfl | rfl | rfl, haccount, -⟩
      case inr.inl => exact absurd haccount (by decide)
      all_goals simp
  · simp [dayListing, sortKey_tradeAt_lt]

/-- Three pages with two trades each hold the five trades of the account. -/
theorem pages_right_dayTrades :
    getTradesOfAccount dayTrades 2 2 0 false false = [tradeAt 4 2 30, tradeAt 6 2 20] ∧
      getTradesOfAccount dayTrades 2 2 1 false false = [tradeAt 5 2 10, tradeAt 3 2 10] ∧
      getTradesOfAccount dayTrades 2 2 2 false false = [tradeAt 1 2 10] ∧
      ListedByPages dayTrades 2 2 false false dayListing := by
  have hright : ∀ page : Int32, 0 ≤ page →
      (getTradesOfAccount dayTrades 2 2 page false false =
          Paging.fetch dayListing 2 (2 * page.toNatClampNeg) ↔
        2 * page.toNatClampNeg < 2 ^ 31 ∨
          dayListing.length ≤ ((2 : Int32) * page).toNatClampNeg) ∧
      (ListedByPages dayTrades 2 2 false false dayListing ↔
        2 * (dayListing.length ⌈/⌉ 2) < 2 ^ 31) :=
    fun page hpage => pages_right_iff dayTrades 2 false false listing_dayTrades
      (by decide : (1 : Int32) ≤ 2) hpage
  exact ⟨(hright 0 (by decide)).1.mpr (Or.inl (by decide)),
    (hright 1 (by decide)).1.mpr (Or.inl (by decide)),
    (hright 2 (by decide)).1.mpr (Or.inl (by decide)),
    (hright 0 (by decide)).2.mpr (by decide)⟩

/-- A table with one trade. -/
def loneTrades : Table Trade.id := ⟨[tradeAt 1 2 0], List.nodup_singleton _⟩

theorem listing_loneTrades : Listing loneTrades 2 false false [tradeAt 1 2 0] := by
  refine ⟨fun trade => ?_, List.pairwise_singleton _ _⟩
  simp only [loneTrades, List.mem_singleton]
  have hnever : ∀ {p : Prop}, false = true → p := fun h => absurd h Bool.false_ne_true
  constructor
  · rintro rfl
    exact ⟨rfl, rfl, hnever, hnever⟩
  · exact And.left

/-- Page 65536 with 65536 trades a page has the offset 2³², which wraps round to zero: it
shows the first trade again. -/
theorem not_pages_right : ¬ ∀ (trades : Table Trade.id) (accountId : ℤ)
    (onlyOpen onlyLong : Bool) (sorted : List Trade),
    Listing trades accountId onlyOpen onlyLong sorted →
    ∀ count page : Int32, 1 ≤ count → 0 ≤ page →
      getTradesOfAccount trades accountId count page onlyOpen onlyLong =
        Paging.fetch sorted count.toNatClampNeg
          (count.toNatClampNeg * page.toNatClampNeg) := by
  intro h
  have hpage := h loneTrades 2 false false [tradeAt 1 2 0] listing_loneTrades 65536 65536
    (by decide) (by decide)
  rw [getTradesOfAccount_eq listing_loneTrades] at hpage
  exact absurd (congrArg List.length hpage) (by decide +kernel)

end EasyTrade.Broker

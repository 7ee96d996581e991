import EasyTrade.Broker.TradeRecord

/-!
# Nobody owns less than nothing

When requests overlap, an update of a holding may get lost and a holding may be sold twice.
What does not happen is that it becomes negative: whatever a request has read, it takes away no
more than that.
-/

namespace EasyTrade.Broker

open EasyTrade.Program EasyTrade.Interleaving

/-- No holding and no trade has a negative quantity. -/
structure Database.NoneNegative (database : Database) : Prop where
  holdings : ∀ row ∈ database.ownedInstruments.rows, 0 ≤ row.quantity
  trades : ∀ trade ∈ database.trades.rows, 0 ≤ trade.quantity

/-- No negative quantity is written. -/
def Write.noneNegative : Write → Prop
  | updateOwnedInstrument _ row | insertOwnedInstrument row => 0 ≤ row.quantity
  | updateTrade trade | insertTrade trade => 0 ≤ trade.quantity
  | _ => True

/-! ## One commit -/

section Commit

variable {database : Database} {sent : List Write} {write : Write}

theorem Database.NoneNegative.apply (hdatabase : database.NoneNegative)
    (hwrite : write.noneNegative) : (write.apply database).NoneNegative := by
  cases write with
  | updateBalance | insertBalanceHistory => exact ⟨hdatabase.holdings, hdatabase.trades⟩
  | updateOwnedInstrument original row =>
      refine ⟨fun other hother => ?_, hdatabase.trades⟩
      rcases Table.mem_rows_set.mp hother with ⟨hold, -⟩ | ⟨rfl, -⟩
      · exact hdatabase.holdings other hold
      · exact hwrite
  | insertOwnedInstrument row =>
      refine ⟨fun other hother => ?_, hdatabase.trades⟩
      rcases Table.mem_rows_of_insert hother with hold | rfl
      · exact hdatabase.holdings other hold
      · exact hwrite
  | updateTrade trade =>
      refine ⟨hdatabase.holdings, fun other hother => ?_⟩
      rcases Table.mem_rows_set.mp hother with ⟨hold, -⟩ | ⟨rfl, -⟩
      · exact hdatabase.trades other hold
      · exact hwrite
  | insertTrade trade =>
      refine ⟨hdatabase.holdings, fun other hother => ?_⟩
      rcases Table.mem_rows_of_insert hother with hold | rfl
      · exact hdatabase.trades other hold
      · exact hwrite

theorem Database.NoneNegative.applyAll (hdatabase : database.NoneNegative)
    (hsent : ∀ write ∈ sent, write.noneNegative) : (database.applyAll sent).NoneNegative := by
  induction sent generalizing database with
  | nil => exact hdatabase
  | cons write sent ih =>
      exact ih (hdatabase.apply (hsent write List.mem_cons_self)) fun other hother =>
        hsent other (List.mem_cons_of_mem write hother)

end Commit

/-! ## What a request holds in memory -/

/-- No quantity that the request has in memory or has sent is negative. -/
structure HoldsNoneNegative (context : DbContext) : Prop where
  holdings : ∀ entry ∈ context.ownedInstruments.rows, 0 ≤ entry.current.quantity
  newHoldings : ∀ row ∈ context.addedOwnedInstruments, 0 ≤ row.quantity
  trades : ∀ entry ∈ context.trades.rows, 0 ≤ entry.current.quantity
  newTrades : ∀ trade ∈ context.addedTrades, 0 ≤ trade.quantity
  sent : ∀ sent, context.transaction = some sent → ∀ write ∈ sent, write.noneNegative

/-- The request has read something negative. -/
def ReadNegative (context : DbContext) : Prop :=
  (∃ entry ∈ context.ownedInstruments.rows, entry.current.quantity < 0) ∨
    ∃ entry ∈ context.trades.rows, entry.current.quantity < 0

/-- Nothing negative is written without something negative having been read. -/
def quantityGuard : Command → DbContext → Prop
  | .addOwnedInstrument row, context | .updateOwnedInstrument row, context =>
      0 ≤ row.quantity ∨ ReadNegative context
  | .addTrade trade, context | .updateTrade trade, context =>
      0 ≤ trade.quantity ∨ ReadNegative context
  | _, _ => True

section Memory

variable {database : Database} {context : DbContext} {sent : List Write}

theorem HoldsNoneNegative.not_readNegative (hmemory : HoldsNoneNegative context) :
    ¬ ReadNegative context := by
  rintro (⟨entry, hentry, hnegative⟩ | ⟨entry, hentry, hnegative⟩)
  · exact absurd (hmemory.holdings entry hentry) (not_le.mpr hnegative)
  · exact absurd (hmemory.trades entry hentry) (not_le.mpr hnegative)

theorem holdsNoneNegative_fresh : HoldsNoneNegative DbContext.fresh := by
  refine ⟨?_, ?_, ?_, ?_, ?_⟩ <;> intro _ h <;> cases h

theorem HoldsNoneNegative.withTransaction (hmemory : HoldsNoneNegative context)
    {transaction : Option (List Write)} (h : transaction = none ∨ transaction = some []) :
    HoldsNoneNegative { context with transaction := transaction } := by
  refine { hmemory with sent := fun sent hsent => ?_ }
  rcases h with rfl | rfl <;> cases hsent
  exact fun _ h => absurd h List.not_mem_nil

theorem HoldsNoneNegative.within (hmemory : HoldsNoneNegative context)
    (hdatabase : database.NoneNegative) :
    (database.within context.transaction).NoneNegative := by
  cases hsent : context.transaction with
  | none => exact hdatabase
  | some sent => exact hdatabase.applyAll (hmemory.sent sent hsent)

theorem HoldsNoneNegative.saveChanges (hmemory : HoldsNoneNegative context) (shared : Shared)
    (hbegun : context.transaction = some sent) :
    HoldsNoneNegative (World.saveChanges (shared, context)).2 := by
  simp only [World.saveChanges, hbegun]
  refine ⟨fun entry hentry => ?_, fun _ h => absurd h List.not_mem_nil, fun entry hentry => ?_,
    fun _ h => absurd h List.not_mem_nil, fun sent' hsent' write hwrite => ?_⟩
  · obtain ⟨old, hold, rfl⟩ := List.mem_map.mp hentry
    exact hmemory.holdings old hold
  · obtain ⟨old, hold, rfl⟩ := List.mem_map.mp hentry
    exact hmemory.trades old hold
  cases hsent'
  rcases List.mem_append.mp hwrite with hearlier | hnow
  · exact hmemory.sent sent hbegun write hearlier
  simp only [World.unsaved, List.mem_append, List.mem_map] at hnow
  rcases hnow with ((((⟨entry, -, rfl⟩ | ⟨row, -, rfl⟩) | ⟨entry, hentry, rfl⟩) |
    ⟨row, hrow, rfl⟩) | ⟨entry, hentry, rfl⟩) | ⟨row, hrow, rfl⟩
  iterate 2 trivial
  · exact hmemory.holdings entry (List.mem_filter.mp hentry).1
  · obtain ⟨i, hi, rfl⟩ := List.mem_mapIdx.mp hrow
    have hrow := hmemory.newHoldings _ (List.getElem_mem hi)
    exact hrow
  · exact hmemory.trades entry (List.mem_filter.mp hentry).1
  · obtain ⟨i, hi, rfl⟩ := List.mem_mapIdx.mp hrow
    have hrow := hmemory.newTrades _ (List.getElem_mem hi)
    exact hrow

/-- Step lemma: a command of the request keeps its memory free of negative quantities. -/
theorem HoldsNoneNegative.step {environment : Environment} {command : Command}
    {shared shared' : Shared} {context' : DbContext}
    {answer : Except BrokerException command.Answer}
    (hdatabase : shared.database.NoneNegative) (hmemory : HoldsNoneNegative context)
    (hrecord : recordGuard command context) (hguard : quantityGuard command context)
    (hstep : Broker.step environment command (shared, context) answer (shared', context')) :
    HoldsNoneNegative context' := by
  rcases hstep with ⟨time, -, hrun⟩ | ⟨-, error, -, hsame⟩
  swap
  · cases hsame
    exact hmemory
  have hview := hmemory.within hdatabase
  cases command with
  | getOwnedInstrument accountId instrumentId =>
      simp only [Command.run] at hrun
      split at hrun <;> cases hrun
      · exact hmemory
      · rename_i row hrow
        refine { hmemory with holdings := fun entry hentry => ?_ }
        rcases IdentityMap.mem_rows_attach hentry with hold | rfl
        · exact hmemory.holdings entry hold
        · exact hview.holdings row (List.mem_of_find?_eq_some hrow)
  | getOwnedInstrumentsOfAccount accountId =>
      cases hrun
      refine { hmemory with holdings := fun entry hentry => ?_ }
      rcases IdentityMap.mem_rows_attachAll hentry with hold | ⟨row, hrow, rfl⟩
      · exact hmemory.holdings entry hold
      · exact hview.holdings row (List.mem_filter.mp hrow).1
  | getTradesWhere filter =>
      cases hrun
      refine { hmemory with trades := fun entry hentry => ?_ }
      rcases IdentityMap.mem_rows_attachAll hentry with hold | ⟨row, hrow, rfl⟩
      · exact hmemory.trades entry hold
      · exact hview.trades row
          (List.mem_filter.mp ((environment.order_perm _).mem_iff.mp hrow)).1
  | addOwnedInstrument row =>
      have hrow := hguard.resolve_right hmemory.not_readNegative
      cases hrun
      refine { hmemory with newHoldings := fun other hother => ?_ }
      rcases List.mem_append.mp hother with hold | hnew
      · exact hmemory.newHoldings other hold
      · rwa [List.mem_singleton.mp hnew]
  | updateOwnedInstrument row =>
      have hrow := hguard.resolve_right hmemory.not_readNegative
      cases hrun
      refine { hmemory with holdings := fun entry hentry => ?_ }
      rcases IdentityMap.mem_rows_update hentry with hold | ⟨hcurrent, -⟩
      · exact hmemory.holdings entry hold
      · rwa [hcurrent]
  | addTrade trade =>
      have htrade := hguard.resolve_right hmemory.not_readNegative
      cases hrun
      refine { hmemory with newTrades := fun other hother => ?_ }
      rcases List.mem_append.mp hother with hold | hnew
      · exact hmemory.newTrades other hold
      · rwa [List.mem_singleton.mp hnew]
  | updateTrade trade =>
      have htrade := hguard.resolve_right hmemory.not_readNegative
      cases hrun
      refine { hmemory with trades := fun entry hentry => ?_ }
      rcases IdentityMap.mem_rows_update hentry with hold | ⟨hcurrent, -⟩
      · exact hmemory.trades entry hold
      · rwa [hcurrent]
  | saveChanges =>
      have hcontext : (World.saveChanges ({ shared with clock := time }, context)).2 =
          context' := congrArg (fun result => result.2.2) hrun
      obtain ⟨sent, hsent⟩ := Option.ne_none_iff_exists'.mp hrecord
      rw [← hcontext]
      exact hmemory.saveChanges _ hsent
  | beginTransaction =>
      simp only [Command.run] at hrun
      split at hrun <;> cases hrun
      · exact hmemory.withTransaction (Or.inr rfl)
      · exact hmemory
  | commitTransaction | rollbackTransaction =>
      simp only [Command.run] at hrun
      split at hrun <;> cases hrun
      · exact hmemory.withTransaction (Or.inl rfl)
      · exact hmemory
  | getBalanceOfAccount accountId =>
      simp only [Command.run] at hrun
      split at hrun <;> cases hrun
      · exact hmemory
      · exact { hmemory with }
  | _ =>
      cases hrun
      exact { hmemory with }

end Memory

/-! ## The requests -/

section Requests

variable {context : DbContext}

/-- Programs that keep to the guard whatever they find. -/
def KeepsQuantities {α : Type} (program : Request α) : Prop :=
  ∀ context, wp DbContext.step quantityGuard program (fun _ _ => True) context

theorem KeepsQuantities.respects {α : Type} {program : Request α}
    (hkeeps : KeepsQuantities program) (context : DbContext) :
    Respects quantityGuard program (fun _ _ => True) context :=
  wp_mono (fun outcome _ _ => by cases outcome <;> trivial) (hkeeps context)

theorem keepsQuantities_of_respects {α : Type} {program : Request α}
    (h : ∀ context, Respects quantityGuard program (fun _ _ => True) context) :
    KeepsQuantities program :=
  fun context => wp_mono (fun _ _ _ => trivial) (h context)

theorem keepsQuantities_issue {command : Command}
    (hguard : ∀ context, quantityGuard command context) : KeepsQuantities (issue command) :=
  fun context => wp_perform.mpr ⟨hguard context, fun _ _ _ => trivial⟩

theorem keepsQuantities_ordinary (command : Command) (hordinary : command.isOrdinary = true) :
    KeepsQuantities (issue command) := by
  refine keepsQuantities_issue fun context => ?_
  cases command <;> trivial

/-- What is received is added to a holding that was read, or is a holding of its own. -/
theorem keepsQuantities_receives {accountId instrumentId : ℤ} {amount : ℚ}
    (hamount : 0 ≤ amount) :
    KeepsQuantities
      (TradeServiceBase.updateOwnedInstrumentOf accountId instrumentId amount) := by
  refine keepsQuantities_of_respects fun context => ?_
  rw [TradeServiceBase.updateOwnedInstrumentOf, respects_bind, respects_getOwnedInstrument]
  refine ⟨trivial, ?_, fun row hrow => ?_⟩
  · simp only [respects_bind, respects_utcNow, respects_addOwnedInstrument]
    exact ⟨trivial, fun now => ⟨Or.inl hamount, trivial⟩⟩
  · simp only [TradeServiceBase.updateOwnedInstrument, respects_bind, respects_utcNow,
      respects_updateOwnedInstrument]
    refine ⟨trivial, fun now => ⟨?_, trivial⟩⟩
    by_cases hnegative : (context.ownedInstruments.resolve row).quantity < 0
    · obtain ⟨entry, hentry, hcurrent⟩ :=
        Option.map_eq_some_iff.mp (context.ownedInstruments.find?_attach row)
      have hmem : entry ∈ (context.ownedInstruments.attach row).rows :=
        Table.mem_of_find? hentry
      exact Or.inr (Or.inl ⟨entry, hmem, hcurrent ▸ hnegative⟩)
    · exact Or.inl (add_nonneg (not_lt.mp hnegative) hamount)

theorem keepsQuantities_gives {ownedInstrument : OwnedInstrument} {amount : ℚ}
    (henough : amount ≤ ownedInstrument.quantity) :
    KeepsQuantities (TradeServiceBase.updateOwnedInstrument ownedInstrument (-amount)) := by
  have hadmits : Prog.Compositional fun {_} (program : Request _) => KeepsQuantities program :=
    Prog.compositional_wp DbContext.step quantityGuard
  refine hadmits.bind (keepsQuantities_ordinary _ rfl) fun now => ?_
  refine keepsQuantities_issue fun context => Or.inl ?_
  simpa [← sub_eq_add_neg] using henough

theorem admitsParts_keepsQuantities :
    AdmitsParts fun {_} program => KeepsQuantities program where
  toCompositional := Prog.compositional_wp DbContext.step quantityGuard
  ordinary := keepsQuantities_ordinary
  inserts trade htrade := keepsQuantities_issue fun _ => Or.inl <| by
    cases htrade <;> assumption
  receives _ _ _ hamount := keepsQuantities_receives hamount
  gives _ _ henough := keepsQuantities_gives henough

/-! ### The run over the open trades -/

/-- A negative trade that has been handed out has been read. -/
theorem Processing.readNegative {trades : List Trade} (hprocessing : Processing trades context)
    {trade : Trade} (htrade : trade ∈ trades) (hnegative : trade.quantity < 0) :
    ReadNegative context := by
  obtain ⟨entry, hentry, hopening⟩ := hprocessing.tracked trade htrade
  have hquantity : entry.current.opening.quantity = trade.opening.quantity :=
    congrArg Trade.quantity hopening
  exact Or.inr ⟨entry, hentry, hquantity ▸ hnegative⟩

/-- A part of the run either works on a trade that is not negative, or has read a negative
one. -/
theorem Processing.quantityGuard {α : Type} {program : Request α} {trades : List Trade}
    (hprocessing : Processing trades context)
    (hissues : program.Issues fun command => command.closes trades) {trade : Trade}
    (htrade : trade ∈ trades) (hkeeps : 0 ≤ trade.quantity → KeepsQuantities program) :
    Respects Broker.quantityGuard program (fun _ _ => True) context := by
  by_cases hnegative : trade.quantity < 0
  · refine wp_mono (fun outcome _ _ => ?_) (Prog.wp_of_issues_invariant hissues
      (fun command context _ hprocessing => ?_)
      (fun command context answer context' hcloses hprocessing hstep =>
        hprocessing.step hcloses hstep) hprocessing)
    · cases outcome <;> trivial
    · have hread := hprocessing.readNegative htrade hnegative
      cases command <;> first | trivial | exact Or.inr hread
  · exact (hkeeps (not_lt.mp hnegative)).respects context

theorem processLongRunningTransactions_quantityGuard :
    Respects quantityGuard LongTradeService.processLongRunningTransactions (fun _ _ => True)
      DbContext.fresh := by
  have hadmits := admitsParts_keepsQuantities.toCompositional
  have hclose : ∀ trade : Trade, 0 ≤ trade.quantity → ∀ closing ∈ closingTexts,
      KeepsQuantities (issue (.updateTrade (trade.close closing.1 closing.2))) :=
    fun trade htrade _ _ => keepsQuantities_issue fun _ => Or.inl htrade
  refine respects_processLongRunningTransactions (fun _ => trivial)
    (fun _ => ⟨trivial, trivial⟩) (fun trades command context _ hplain => ?_)
    (fun _ _ _ _ _ => trivial)
    (fun trades context hprocessing trade htrade => hprocessing.quantityGuard
      (closeTrade_closes htrade) htrade fun hquantity => ?_)
    fun trades context hprocessing trade htrade _ _ _ => hprocessing.quantityGuard
      (processOpenTrade_closes htrade _ _ _) htrade fun hquantity => ?_
  · cases command <;> trivial
  · exact admits_closeTrade hadmits admitsParts_keepsQuantities.plain (hclose trade hquantity)
      (by decide)
  · exact admits_processOpenTrade hadmits admitsParts_keepsQuantities.plain
      (hclose trade hquantity) (fun _ => keepsQuantities_receives hquantity)
      fun _ henough => keepsQuantities_gives henough

theorem Operation.respects_quantityGuard (environment : Environment) (operation : Operation) :
    Respects quantityGuard (operation.request environment) (fun _ _ => True)
      DbContext.fresh := by
  cases operation with
  | processLongRunningTransactions => exact processLongRunningTransactions_quantityGuard
  | _ => exact (admitsParts_keepsQuantities.request rfl).respects _

end Requests

/-- Whatever requests are at work and in whichever order their commands take effect, nobody
comes to own less than nothing, however many updates are lost and holdings sold twice. -/
theorem none_negative {ι : Type} [DecidableEq ι] {environment : ι → Environment}
    {operations : ι → Operation} {shared : Shared} {config : Requests ι}
    (hstart : shared.database.NoneNegative)
    (hreaches : Interleaves environment
      (Requests.arrive shared fun i => (operations i).request (environment i)) config) :
    config.shared.database.NoneNegative := by
  have hrequests : ∀ i, Respects
      (fun command context => recordGuard command context ∧ quantityGuard command context)
      ((operations i).request (environment i)) (fun _ _ => True) DbContext.fresh := by
    intro i
    refine wp_mono (fun outcome _ _ => ?_) (wp_conj (fun _ _ => And.intro)
      ((operations i).respects_recordGuard (environment i))
      ((operations i).respects_quantityGuard (environment i)))
    cases outcome <;> trivial
  refine invariant_of_commits (fun database _ => database.NoneNegative)
    (fun database context => database.NoneNegative ∧ HoldsNoneNegative context)
    (fun _ hsave => hsave.1) (fun _ _ hread => hread.1) ?_ ?_ hrequests hstart
    ⟨hstart, holdsNoneNegative_fresh⟩ (interleavesWhen_of_interleaves hreaches)
  · intro i command before context answer after context' _ hknows hguard hstep hsame
    exact ⟨hknows.1, hknows.2.step hknows.1 hguard.1 hguard.2 hstep⟩
  · intro database binlog context sent hdatabase hknows hsent _
    have hcommitted := hdatabase.applyAll (hknows.2.sent sent hsent)
    exact ⟨hcommitted, ⟨hcommitted, hknows.2.withTransaction (Or.inl rfl)⟩,
      fun other hother => ⟨hcommitted, hother.2⟩⟩

/-- Two sales of all five pieces, command by command: both succeed, and nothing is left. -/
theorem none_negative_sold_twice :
    ∃ config : Requests Bool,
      (config.shared.database.trades.rows.map Trade.quantity) = [1, 5, 5] ∧
      (config.shared.database.ownedInstruments.rows.map OwnedInstrument.quantity) = [0] ∧
      config.shared.database.NoneNegative := by
  obtain ⟨config, hcheck, hinterleaves⟩ := exists_interleaving
    (fun _ => Sample.environment)
    (Requests.arrive Sample.shared fun _ : Bool =>
      (Operation.quickSell 2 1 5).request Sample.environment)
    (List.replicate 22 [(false, .work 100), (true, .work 100)]).flatten
    (fun config => decide
      ((config.shared.database.trades.rows.map Trade.quantity) = [1, 5, 5] ∧
        (config.shared.database.ownedInstruments.rows.map OwnedInstrument.quantity) = [0]))
    (by decide +kernel)
  obtain ⟨htrades, hholdings⟩ := of_decide_eq_true hcheck
  refine ⟨config, htrades, hholdings, none_negative ⟨?_, ?_⟩ hinterleaves⟩
  · decide +kernel
  · decide +kernel

end EasyTrade.Broker

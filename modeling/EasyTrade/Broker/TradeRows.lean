import EasyTrade.Broker.TradeRecord

/-!
# What all trades are like

A request inserts two kinds of trades and closes those it has read with one of six texts.  So
a property that the new trades have, and that a trade has after it has been closed whatever it
was before, is one that all trades keep having, however the requests interleave.
-/

namespace EasyTrade.Broker

open EasyTrade.Program EasyTrade.Interleaving

/-- A property of trades that does not depend on the id, and that all trades have which
requests write. -/
structure Written (good : Trade → Prop) : Prop where
  withId : ∀ trade id, good trade → good { trade with id := id }
  inserted : ∀ trade, Inserts trade → good trade
  closed : ∀ trade, ∀ closing ∈ closingTexts, good (Trade.close trade closing.1 closing.2)

/-- The statement writes no other trades. -/
def Write.writesGood (good : Trade → Prop) : Write → Prop
  | updateTrade row | insertTrade row => good row
  | _ => True

/-- All that the request has written, or is going to. -/
structure WritesGood (good : Trade → Prop) (context : DbContext) : Prop where
  objects : ∀ entry ∈ context.trades.rows, entry.modified = true → good entry.current
  added : ∀ trade ∈ context.addedTrades, good trade
  sent : ∀ sent, context.transaction = some sent → ∀ write ∈ sent, write.writesGood good

/-- The command writes no other trades. -/
def Command.writesGood (good : Trade → Prop) : Command → Prop
  | addTrade trade | updateTrade trade => good trade
  | _ => True

section

variable {good : Trade → Prop} {database : Database} {context : DbContext} {sent : List Write}

/-- A commit of good trades keeps all trades good. -/
theorem good_applyAll (hgood : ∀ trade ∈ database.trades.rows, good trade)
    (hsent : ∀ write ∈ sent, write.writesGood good) :
    ∀ trade ∈ (database.applyAll sent).trades.rows, good trade := by
  intro trade htrade
  rcases mem_trades_applyAll htrade with hstored | hupdated | hinserted
  · exact hgood trade hstored
  · exact hsent _ hupdated
  · exact hsent _ hinserted

theorem Written.saveChanges (hwritten : Written good) (hcontext : WritesGood good context)
    (shared : Shared) (hbegun : context.transaction = some sent) :
    WritesGood good (World.saveChanges (shared, context)).2 := by
  simp only [World.saveChanges, hbegun]
  refine ⟨fun entry hentry hmodified => ?_, fun trade htrade => absurd htrade List.not_mem_nil,
    fun sent' hsent' write hwrite => ?_⟩
  · obtain ⟨old, -, rfl⟩ := List.mem_map.mp hentry
    cases hmodified
  · cases hsent'
    rcases List.mem_append.mp hwrite with hearlier | hnow
    · exact hcontext.sent sent hbegun write hearlier
    simp only [World.unsaved, List.mem_append, List.mem_map] at hnow
    rcases hnow with ((((⟨entry, -, rfl⟩ | ⟨row, -, rfl⟩) | ⟨entry, -, rfl⟩) |
      ⟨row, -, rfl⟩) | ⟨entry, hentry, rfl⟩) | ⟨row, hrow, rfl⟩
    iterate 4 trivial
    · obtain ⟨hmem, hmodified⟩ := List.mem_filter.mp hentry
      exact hcontext.objects entry hmem hmodified
    · obtain ⟨i, hi, rfl⟩ := List.mem_mapIdx.mp hrow
      exact hwritten.withId _ _ (hcontext.added _ (List.getElem_mem hi))

/-- Step lemma: a command of the request keeps what it has written good. -/
theorem Written.step (hwritten : Written good) {command : Command} {context' : DbContext}
    {answer : Except BrokerException command.Answer} (hcontext : WritesGood good context)
    (hrecord : recordGuard command context) (hgood : command.writesGood good)
    (hstep : DbContext.step command context answer context') : WritesGood good context' := by
  rcases hstep with ⟨value, -, heffect⟩ | ⟨error, -, rfl⟩
  swap
  · exact hcontext
  have hended : ∀ transaction : Option (List Write),
      transaction = none ∨ transaction = some [] →
        WritesGood good { context with transaction := transaction } := by
    refine fun transaction hend => ⟨hcontext.objects, hcontext.added, fun sent hsent => ?_⟩
    rcases hend with rfl | rfl <;> cases hsent
    exact fun _ h => absurd h List.not_mem_nil
  cases command with
  | getTradesWhere filter =>
      obtain ⟨rows, -, -, rfl⟩ := heffect
      refine ⟨fun entry hentry hmodified => ?_, hcontext.added, hcontext.sent⟩
      rcases IdentityMap.mem_rows_attachAll hentry with hold | ⟨row, -, rfl⟩
      · exact hcontext.objects entry hold hmodified
      · cases hmodified
  | updateTrade trade =>
      cases heffect
      refine ⟨fun entry hentry hmodified => ?_, hcontext.added, hcontext.sent⟩
      rcases IdentityMap.mem_rows_update hentry with hold | ⟨hcurrent, -⟩
      · exact hcontext.objects entry hold hmodified
      · rw [hcurrent]
        exact hgood
  | addTrade trade =>
      cases heffect
      refine ⟨hcontext.objects, fun other hother => ?_, hcontext.sent⟩
      rcases List.mem_append.mp hother with hold | hnew
      · exact hcontext.added other hold
      · rw [List.mem_singleton.mp hnew]
        exact hgood
  | saveChanges =>
      obtain ⟨shared, rfl⟩ := heffect
      obtain ⟨sent, hsent⟩ := Option.ne_none_iff_exists'.mp hrecord
      exact hwritten.saveChanges hcontext shared hsent
  | beginTransaction =>
      cases heffect
      exact hended _ (Or.inr rfl)
  | commitTransaction | rollbackTransaction =>
      cases heffect
      exact hended _ (Or.inl rfl)
  | getBalanceOfAccount | getOwnedInstrument =>
      rcases heffect with ⟨-, rfl⟩ | ⟨_, -, -, rfl⟩
      · exact hcontext
      · exact ⟨hcontext.objects, hcontext.added, hcontext.sent⟩
  | getOwnedInstrumentsOfAccount =>
      obtain ⟨_, -, rfl⟩ := heffect
      exact ⟨hcontext.objects, hcontext.added, hcontext.sent⟩
  | _ =>
      cases heffect
      exact ⟨hcontext.objects, hcontext.added, hcontext.sent⟩

/-- A request only writes good trades. -/
theorem Written.respects (hwritten : Written good) (environment : Environment)
    (operation : Operation) :
    Respects (fun command context => recordGuard command context ∧ command.writesGood good)
      (operation.request environment) (fun _ _ => True) DbContext.fresh := by
  have hissues : (operation.request environment).Issues (Command.writesGood good) := by
    refine Operation.issues (fun _ => trivial) (fun _ => trivial) (fun command hordinary => ?_)
      hwritten.inserted (fun filter _ => trivial) hwritten.closed
    cases command <;> trivial
  have hkeeps : wp DbContext.step (fun command _ => command.writesGood good)
      (operation.request environment) (fun _ _ => True) DbContext.fresh :=
    Prog.wp_of_issues hissues fun _ _ => id
  refine wp_mono (fun outcome _ _ => ?_) (wp_conj (fun _ _ => And.intro)
    (operation.respects_recordGuard environment) hkeeps)
  cases outcome <;> trivial

end

/-- However the requests interleave, all trades stay good. -/
theorem Written.trades {good : Trade → Prop} (hwritten : Written good) {ι : Type}
    [DecidableEq ι] {environment : ι → Environment} {operations : ι → Operation}
    {shared : Shared} {config : Requests ι}
    (hstart : ∀ trade ∈ shared.database.trades.rows, good trade)
    (hreaches : Interleaves environment
      (Requests.arrive shared fun i => (operations i).request (environment i)) config) :
    ∀ trade ∈ config.shared.database.trades.rows, good trade := by
  refine invariant_of_commits (fun database _ => ∀ trade ∈ database.trades.rows, good trade)
    (fun _ => WritesGood good) (fun _ hsave => hsave.1) (fun _ _ hread => hread.1) ?_ ?_
    (fun i => hwritten.respects (environment i) (operations i)) hstart ?_
    (interleavesWhen_of_interleaves hreaches)
  · intro i command before context answer after context' hcoherent hcontext hguard hstep _
    exact hwritten.step hcontext hguard.1 hguard.2 (DbContext.step_of_step hcoherent hstep)
  · intro database binlog context sent hgood hcontext hsent _
    refine ⟨good_applyAll hgood (hcontext.sent sent hsent),
      ⟨hcontext.objects, hcontext.added, fun _ h => ?_⟩, fun _ hother => hother⟩
    cases h
  · refine ⟨fun _ h => absurd h List.not_mem_nil, fun _ h => absurd h List.not_mem_nil,
      fun _ h => ?_⟩
    cases h

end EasyTrade.Broker

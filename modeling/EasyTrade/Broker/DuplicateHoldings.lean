import EasyTrade.Broker.Concurrent
import EasyTrade.Broker.Holdings

/-!
# Duplicate holdings

`UpdateOwnedInstrument` looks for the row of an account and an instrument and
adds one when it finds none.  Two requests that both find none add two, and from
then on the account's instruments cannot be listed.  As long as every added row
is still missing when it is committed, there is one row for each pair.
-/

namespace EasyTrade.Broker

open EasyTrade.Program EasyTrade.Interleaving

/-- The accounts and instruments that have a row. -/
def Database.pairs (database : Database) : List (ℤ × ℤ) :=
  database.ownedInstruments.rows.map OwnedInstrument.pair

namespace Write

/-- The account and the instrument of a row to be inserted. -/
def insertedPair : Write → Option (ℤ × ℤ)
  | insertOwnedInstrument row => some row.pair
  | _ => none

/-- The row to be inserted is still missing. -/
def StillMissing (database : Database) : Write → Prop
  | insertOwnedInstrument row => database.holdingRow row.accountId row.instrumentId = none
  | _ => True

instance (database : Database) : (write : Write) → Decidable (write.StillMissing database)
  | insertOwnedInstrument row => inferInstanceAs (Decidable
      (database.holdingRow row.accountId row.instrumentId = none))
  | updateBalance _ _ | insertBalanceHistory _ | updateOwnedInstrument _ _
  | updateTrade _ | insertTrade _ => inferInstanceAs (Decidable True)

end Write

/-- A lookup repeated now would still not find the rows that are inserted. -/
def HoldingsMissing (database : Database) (sent : List Write) : Prop :=
  ∀ write ∈ sent, write.StillMissing database

instance (database : Database) (sent : List Write) :
    Decidable (HoldingsMissing database sent) :=
  inferInstanceAs (Decidable (∀ write ∈ sent, write.StillMissing database))

/-- The row is stored, with the same account and instrument. -/
def Stored (database : Database) (row : OwnedInstrument) : Prop :=
  ∃ stored ∈ database.ownedInstruments.rows, stored.id = row.id ∧ stored.pair = row.pair

/-- Rows are rewritten in place. -/
def KeepsPairs (database : Database) (sent : List Write) : Prop :=
  ∀ original row, Write.updateOwnedInstrument original row ∈ sent → Stored database row

/-! ## One commit -/

section Commit

variable {database : Database} {sent : List Write} {write : Write} {row : OwnedInstrument}

/-- A stored row stays where it is. -/
theorem Stored.apply (hstored : Stored database row)
    (hkeeps : ∀ original other, write = .updateOwnedInstrument original other →
      Stored database other) :
    Stored (write.apply database) row := by
  obtain ⟨stored, hmem, hid, hpair⟩ := hstored
  cases write with
  | updateOwnedInstrument original other =>
      obtain ⟨same, hsame, hsameId, hsamePair⟩ := hkeeps original other rfl
      by_cases hother : stored.id = other.id
      · have heq : same = stored :=
          List.inj_on_of_nodup_map database.ownedInstruments.keysNodup hsame hmem
            (hsameId.trans hother.symm)
        refine ⟨other, Table.mem_rows_set.mpr (Or.inr ⟨rfl, ?_⟩), ?_, ?_⟩
        · exact List.mem_map.mpr ⟨stored, hmem, hother⟩
        · rw [← hother, hid]
        · rw [← hsamePair, heq, hpair]
      · exact ⟨stored, Table.mem_rows_set.mpr (Or.inl ⟨hmem, hother⟩), hid, hpair⟩
  | insertOwnedInstrument other =>
      refine ⟨stored, ?_, hid, hpair⟩
      by_cases hother : other.id ∈ database.ownedInstruments.keys
      · simpa only [Write.apply, Table.insert_of_mem hother] using hmem
      · simp only [Write.apply, Table.rows_insert hother]
        exact List.mem_append_left _ hmem
  | _ => exact ⟨stored, hmem, hid, hpair⟩

theorem KeepsPairs.apply (hkeeps : KeepsPairs database sent)
    (hwrite : ∀ original other, write = .updateOwnedInstrument original other →
      Stored database other) : KeepsPairs (write.apply database) sent :=
  fun original row hrow => (hkeeps original row hrow).apply hwrite

theorem Stored.applyAll (hstored : Stored database row) (hkeeps : KeepsPairs database sent) :
    Stored (database.applyAll sent) row := by
  induction sent generalizing database with
  | nil => exact hstored
  | cons write sent ih =>
      have hwrite : ∀ original other, write = .updateOwnedInstrument original other →
          Stored database other :=
        fun original other heq => hkeeps original other (heq ▸ List.mem_cons_self)
      have htail : KeepsPairs database sent :=
        fun original other hother => hkeeps original other (List.mem_cons_of_mem write hother)
      exact ih (hstored.apply hwrite) (htail.apply hwrite)

/-- Only an insertion adds a pair. -/
theorem pairs_apply (hkeeps : ∀ original other, write = .updateOwnedInstrument original other →
    Stored database other) :
    (write.apply database).pairs.Sublist (database.pairs ++ write.insertedPair.toList) := by
  cases write with
  | updateOwnedInstrument original other =>
      obtain ⟨stored, hstored, hid, hpair⟩ := hkeeps original other rfl
      have hsame : (database.ownedInstruments.set other).rows.map OwnedInstrument.pair =
          database.ownedInstruments.rows.map OwnedInstrument.pair := by
        refine Table.map_rows_set fun old hold => ?_
        rw [← hid, Table.find?_key hstored] at hold
        rw [← Option.some.inj hold, hpair]
      simp only [Database.pairs, Write.apply, hsame, Write.insertedPair, Option.toList_none,
        List.append_nil]
      exact List.Sublist.refl _
  | insertOwnedInstrument other =>
      by_cases hother : other.id ∈ database.ownedInstruments.keys
      · simp only [Database.pairs, Write.apply, Table.insert_of_mem hother]
        exact List.sublist_append_left _ _
      · simp only [Database.pairs, Write.apply, Table.rows_insert hother, List.map_append]
        exact List.Sublist.refl _
  | _ =>
      simp only [Database.pairs, Write.apply, Write.insertedPair, Option.toList_none,
        List.append_nil]
      exact List.Sublist.refl _

theorem pairs_applyAll (hkeeps : KeepsPairs database sent) :
    (database.applyAll sent).pairs.Sublist
      (database.pairs ++ sent.filterMap Write.insertedPair) := by
  induction sent generalizing database with
  | nil => exact List.sublist_append_left _ _
  | cons write sent ih =>
      have hwrite : ∀ original other, write = .updateOwnedInstrument original other →
          Stored database other :=
        fun original other heq => hkeeps original other (heq ▸ List.mem_cons_self)
      have htail : KeepsPairs database sent :=
        fun original other hother => hkeeps original other (List.mem_cons_of_mem write hother)
      have hrest := ih (htail.apply hwrite)
      have hhead := (pairs_apply hwrite).append_right (sent.filterMap Write.insertedPair)
      have hsplit : (write :: sent).filterMap Write.insertedPair =
          write.insertedPair.toList ++ sent.filterMap Write.insertedPair := by
        cases hpair : write.insertedPair <;> simp [hpair]
      rw [hsplit, ← List.append_assoc]
      exact hrest.trans hhead

/-- A commit whose new rows are missing keeps one row for each pair. -/
theorem nodup_pairs_applyAll (hunique : database.pairs.Nodup)
    (hkeeps : KeepsPairs database sent)
    (honce : (sent.filterMap Write.insertedPair).Nodup)
    (hmissing : HoldingsMissing database sent) : (database.applyAll sent).pairs.Nodup := by
  refine (hunique.append honce fun pair hstored hinserted => ?_).sublist
    (pairs_applyAll hkeeps)
  obtain ⟨write, hwrite, hpair⟩ := List.mem_filterMap.mp hinserted
  have hnone := hmissing write hwrite
  cases write with
  | insertOwnedInstrument row =>
      cases hpair
      exact not_mem_pairs_of_holdingRow hnone hstored
  | _ => cases hpair

end Commit

/-! ## What a request knows -/

/-- The objects of a request are stored under their pairs, and so are the rows
that its statements rewrite; at most one row is to be inserted for a pair. -/
structure Tracks (database : Database) (context : DbContext) : Prop where
  entries : ∀ entry ∈ context.ownedInstruments.rows, Stored database entry.current
  sent : ∀ sent, context.transaction = some sent →
    KeepsPairs database sent ∧ (sent.filterMap Write.insertedPair).Nodup

/-- A holding is looked up before anything has been sent, only an object that has
been read is rewritten, and at most one row is added. -/
def holdingGuard : Command → DbContext → Prop
  | .getOwnedInstrument _ _, context => context.transaction = some []
  | .getOwnedInstrumentsOfAccount _, _ => False
  | .updateOwnedInstrument row, context => context.HasRead row
  | .saveChanges, context =>
      context.transaction = some [] ∧ context.addedOwnedInstruments.length ≤ 1
  | _, _ => True

theorem holdingGuard_of_isRoutine (command : Command) (context : DbContext)
    (hroutine : command.isRoutine = true) : holdingGuard command context := by
  cases command <;> trivial

section Tracks

variable {database : Database} {context : DbContext}

theorem tracks_fresh (database : Database) : Tracks database DbContext.fresh :=
  ⟨fun _ h => absurd h List.not_mem_nil, fun _ h => by cases h⟩

theorem Tracks.withTransaction (htracks : Tracks database context)
    {transaction : Option (List Write)} (h : transaction = none ∨ transaction = some []) :
    Tracks database { context with transaction := transaction } := by
  refine ⟨htracks.entries, fun sent hsent => ?_⟩
  rcases h with rfl | rfl
  · cases hsent
  · cases hsent
    exact ⟨fun _ _ h => absurd h List.not_mem_nil, List.nodup_nil⟩

/-- The objects are saved with their pairs. -/
theorem Tracks.saveChanges (htracks : Tracks database context) (shared : Shared)
    (hbegun : context.transaction = some [])
    (honce : context.addedOwnedInstruments.length ≤ 1) :
    Tracks database (World.saveChanges (shared, context)).2 := by
  have hsaved : (World.saveChanges (shared, context)).2 =
      { (World.saveChanges (shared, context)).2 with
        transaction := some (World.unsaved (shared, context)) } := by
    simp only [World.saveChanges, hbegun, List.nil_append]
  have hentries : (World.saveChanges (shared, context)).2.ownedInstruments =
      context.ownedInstruments.accept := by
    simp only [World.saveChanges, hbegun]
  rw [hsaved]
  refine ⟨fun entry hentry => ?_, ?_⟩
  · rw [hentries] at hentry
    obtain ⟨old, hold, rfl⟩ := List.mem_map.mp hentry
    exact htracks.entries old hold
  · rintro sent ⟨⟩
    refine ⟨fun original row hrow => ?_, ?_⟩
    · simp only [World.unsaved, List.mem_append, List.mem_map, reduceCtorEq, and_false,
        exists_false, or_false, false_or, Write.updateOwnedInstrument.injEq] at hrow
      obtain ⟨entry, hentry, -, rfl⟩ := hrow
      exact htracks.entries entry (List.mem_filter.mp hentry).1
    · have hinserted : ((World.unsaved (shared, context)).filterMap
          Write.insertedPair).length = context.addedOwnedInstruments.length := by
        simp [World.unsaved, List.filterMap_append, List.filterMap_map, Function.comp_def,
          Write.insertedPair, assignOwnedInstrumentIds, Table.number]
      exact List.nodup_iff_injective_get.mpr fun i j _ => Fin.ext (by omega)

/-- A command of the request keeps what the request knows. -/
theorem Tracks.step {environment : Environment} {command : Command} {shared shared' : Shared}
    {context context' : DbContext} {answer : Except BrokerException command.Answer}
    (htracks : Tracks shared.database context) (hguard : holdingGuard command context)
    (hstep : Broker.step environment command (shared, context) answer (shared', context')) :
    Tracks shared.database context' := by
  rcases hstep with ⟨time, -, hrun⟩ | ⟨-, error, -, hsame⟩
  swap
  · cases hsame
    exact htracks
  cases command with
  | getOwnedInstrument accountId instrumentId =>
      have hbegun : context.transaction = some [] := hguard
      have hview : (World.tick (shared, context) time).view = shared.database := by
        simp only [World.view, World.tick, hbegun]
        rfl
      simp only [Command.run, hview] at hrun
      cases hfind : shared.database.holdingRow accountId instrumentId with
      | none =>
          rw [hfind] at hrun
          cases hrun
          exact htracks
      | some row =>
          rw [hfind] at hrun
          cases hrun
          refine ⟨fun entry hentry => ?_, htracks.sent⟩
          rcases IdentityMap.mem_rows_attach hentry with hold | rfl
          · exact htracks.entries entry hold
          · exact ⟨row, mem_of_holdingRow hfind, rfl, rfl⟩
  | updateOwnedInstrument row =>
      obtain ⟨read, hread, hid, hpair⟩ := hguard
      cases hrun
      refine ⟨fun entry hentry => ?_, htracks.sent⟩
      rcases IdentityMap.mem_rows_update hentry with hold | ⟨hcurrent, -⟩
      · exact htracks.entries entry hold
      · obtain ⟨stored, hstored, hstoredId, hstoredPair⟩ := htracks.entries read hread
        rw [hcurrent]
        exact ⟨stored, hstored, hstoredId.trans hid, hstoredPair.trans hpair⟩
  | saveChanges =>
      have hcontext : (World.saveChanges ({ shared with clock := time }, context)).2 =
          context' := congrArg (fun result => result.2.2) hrun
      rw [← hcontext]
      exact htracks.saveChanges _ hguard.1 hguard.2
  | beginTransaction =>
      simp only [Command.run] at hrun
      split at hrun <;> cases hrun
      · exact htracks.withTransaction (Or.inr rfl)
      · exact htracks
  | commitTransaction | rollbackTransaction =>
      simp only [Command.run] at hrun
      split at hrun <;> cases hrun
      · exact htracks.withTransaction (Or.inl rfl)
      · exact htracks
  | getBalanceOfAccount accountId =>
      simp only [Command.run] at hrun
      split at hrun <;> cases hrun <;> exact ⟨htracks.entries, htracks.sent⟩
  | getOwnedInstrumentsOfAccount => exact hguard.elim
  | _ =>
      cases hrun
      exact ⟨htracks.entries, htracks.sent⟩

/-- What a request knows survives the commits of the others. -/
theorem Tracks.applyAll {sent : List Write} (htracks : Tracks database context)
    (hkeeps : KeepsPairs database sent) : Tracks (database.applyAll sent) context :=
  ⟨fun entry hentry => (htracks.entries entry hentry).applyAll hkeeps, fun own hown =>
    ⟨fun original row hrow => ((htracks.sent own hown).1 original row hrow).applyAll hkeeps,
      (htracks.sent own hown).2⟩⟩

end Tracks

/-- Whatever it reads, a quick buy rewrites the row it has found or adds one. -/
theorem buyAssets_holding {environment : Environment} {accountId instrumentId : ℤ}
    {amount : ℚ} :
    Respects holdingGuard
      (TradeService.buyAssets environment accountId instrumentId amount) (fun _ _ => True)
      DbContext.fresh := by
  refine TradeService.buyAssets_respects holdingGuard_of_isRoutine ?_
  intro row owner trade income ppt tradeDate feeDate now hrow howner
  refine TradeServiceBase.updateOwnedInstrumentOf_respects holdingGuard_of_isRoutine rfl
    (fun _ => ?_) fun held hheld => ?_
  · exact respects_saveChangesOrRollback (fun _ => ⟨trivial, trivial⟩) ⟨rfl, le_rfl⟩
      fun _ => trivial
  · refine TradeServiceBase.updateOwnedInstrument_respects holdingGuard_of_isRoutine
      (fun _ => DbContext.hasRead_readHolding DbContext.fresh held _ _) fun _ => ?_
    exact respects_saveChangesOrRollback (fun _ => ⟨trivial, trivial⟩)
      ⟨rfl, Nat.zero_le 1⟩ fun _ => trivial

/-- One holding for each account and instrument.  In every interleaving of quick
buys in which a row is only committed while a lookup would still not find it, no
pair has two rows at any time. -/
theorem holdings_unique {ι : Type} [DecidableEq ι] {environment : ι → Environment}
    {accountId instrumentId : ι → ℤ} {amount : ι → ℚ} {shared : Shared}
    {config : Requests ι} (hunique : shared.database.pairs.Nodup)
    (hreaches : InterleavesWhen HoldingsMissing environment
      (Requests.arrive shared fun i => (Operation.quickBuy (accountId i) (instrumentId i)
        (amount i)).request (environment i)) config) :
    config.shared.database.pairs.Nodup := by
  refine invariant_of_commits (fun database _ => database.pairs.Nodup) Tracks
    (fun context hguard hnone => ?_) (fun _ _ hread => hread)
    (fun i command shared context answer shared' context' _ htracks hguard hstep _ =>
      htracks.step hguard hstep)
    (fun database binlog context sent hunique htracks hsent hmissing => ?_)
    (fun i => ?_) hunique (tracks_fresh _) hreaches
  · rw [hguard.1] at hnone
    cases hnone
  · obtain ⟨hkeeps, honce⟩ := htracks.sent sent hsent
    exact ⟨nodup_pairs_applyAll hunique hkeeps honce hmissing,
      (htracks.withTransaction (Or.inl rfl)).applyAll hkeeps,
      fun other hother => hother.applyAll hkeeps⟩
  · simp only [Operation.request, respects_bind, respects_pure]
    exact buyAssets_holding

/-! ## What a duplicate does -/

/-- The instruments of an account that has two rows for one instrument cannot be
listed. -/
theorem getInstruments_throws {environment : Environment} {accountId : ℤ} {shared : Shared}
    {world : World} {outcome : Except BrokerException (List InstrumentDTO)}
    (hduplicate : ¬ ((shared.database.ownedInstruments.rows.filter
      (·.accountId = accountId)).map OwnedInstrument.instrumentId).Nodup)
    (hexec : Exec (step environment) (InstrumentService.getInstruments accountId)
      (shared, DbContext.fresh) outcome world) : ∃ error, outcome = .error error := by
  have hrows : ((shared.database.ownedInstruments.rows.filter
      (·.accountId = accountId)).filterMap
        fun row => shared.database.ownedInstruments.find? row.id) =
      shared.database.ownedInstruments.rows.filter (·.accountId = accountId) := by
    have hfound : ∀ row ∈ shared.database.ownedInstruments.rows.filter (·.accountId = accountId),
        shared.database.ownedInstruments.find? row.id = some row :=
      fun row hrow => Table.find?_key (List.mem_filter.mp hrow).1
    rw [List.filterMap_congr hfound, List.filterMap_some]
  have hspec : Ensures environment (InstrumentService.getInstruments accountId)
      (fun _ _ => False) (fun _ _ => True)
      (Session.arrive shared.database shared.clock shared.closedTrades) := by
    simp only [InstrumentService.getInstruments, ensures_bind, ensures_getAllInstruments,
      ensures_getOwnedInstrumentsOfAccount, ensures_toDictionary, Session.arrive, hrows,
      true_and, implies_true]
    exact fun hnone => absurd (firstRepeated_nil_iff.mp hnone) hduplicate
  obtain ⟨final, -, hfinal⟩ := hspec.sound hexec
  cases outcome with
  | ok value => exact hfinal.elim
  | error error => exact ⟨error, rfl⟩

/-- The trader before the first buy. -/
def Sample.withoutHoldings : Shared :=
  { Sample.shared with
    database := { Sample.shared.database with ownedInstruments := Table.empty } }

/-- Two buys of one share for the same account: both find no row, both add one,
and the account's instruments can no longer be listed. -/
theorem duplicate_holding :
    Sample.withoutHoldings.database.pairs.Nodup ∧
    ∃ config : Requests Bool,
      Interleaves (fun _ => Sample.environment)
        (Requests.arrive Sample.withoutHoldings fun _ =>
          (Operation.quickBuy 2 1 1).request Sample.environment) config ∧
      ¬ config.shared.database.pairs.Nodup ∧
      ∀ environment outcome world,
        Exec (step environment) (InstrumentService.getInstruments 2)
          (config.shared, DbContext.fresh) outcome world →
        ∃ error, outcome = .error error := by
  obtain ⟨config, hcheck, hinterleaves⟩ := exists_interleaving
    (fun _ => Sample.environment)
    (Requests.arrive Sample.withoutHoldings fun _ : Bool =>
      (Operation.quickBuy 2 1 1).request Sample.environment)
    (List.replicate 20 (false, .work 100) ++ List.replicate 22 (true, .work 100) ++
      List.replicate 2 (false, .work 100))
    (fun config => (config.threads false).finished && (config.threads true).finished &&
      decide (config.shared.database.pairs = [(2, 1), (2, 1)] ∧
        (config.shared.database.ownedInstruments.rows.filter (·.accountId = 2)).map
          OwnedInstrument.instrumentId = [1, 1])) (by decide +kernel)
  simp only [Bool.and_eq_true, decide_eq_true_eq] at hcheck
  obtain ⟨-, hpairs, hlisted⟩ := hcheck
  refine ⟨by decide, config, hinterleaves, by rw [hpairs]; decide, ?_⟩
  intro environment outcome world hexec
  exact getInstruments_throws (by rw [hlisted]; decide) hexec

/-- One buy after the other. -/
theorem holdings_unique_buys :
    ∃ config : Requests Bool, (∀ i, (config.threads i).finished = true) ∧
      config.shared.database.pairs.Nodup := by
  obtain ⟨config, hcheck, hinterleaves⟩ := exists_interleavingWhen HoldingsMissing
    (fun _ => Sample.environment)
    (Requests.arrive Sample.withoutHoldings fun _ : Bool =>
      (Operation.quickBuy 2 1 1).request Sample.environment)
    (List.replicate 22 (false, .work 100) ++ List.replicate 22 (true, .work 100))
    (fun config => (config.threads false).finished && (config.threads true).finished)
    (by decide +kernel)
  rw [Bool.and_eq_true] at hcheck
  refine ⟨config, fun i => by cases i; exacts [hcheck.1, hcheck.2], ?_⟩
  exact holdings_unique (by decide) hinterleaves

end EasyTrade.Broker

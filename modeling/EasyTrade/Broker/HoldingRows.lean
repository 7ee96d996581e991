import EasyTrade.Broker.Interference

/-!
# Whose holding a row is

The id of a holding row is generated once, and no request gives a row to another account or
instrument.  So whatever requests do at the same time, the object that one of them has for a row
is for the account and the instrument of that row.
-/

namespace EasyTrade.Broker

/-- The stored rows are for the accounts and instruments that their ids were generated for, and
no id that is still to be generated has any. -/
structure Shared.Assigned (pairOf : ℤ → Option (ℤ × ℤ)) (shared : Shared) : Prop where
  rows : ∀ row ∈ shared.database.ownedInstruments.rows, pairOf row.id = some row.pair
  used : ∀ id, pairOf id ≠ none →
    id < shared.nextOwnedInstrumentId ∨ id ∈ shared.database.ownedInstruments.keys

/-- So are the objects of a request and the rows that its statements write. -/
structure DbContext.Assigned (pairOf : ℤ → Option (ℤ × ℤ)) (context : DbContext) : Prop where
  entries : ∀ entry ∈ context.ownedInstruments.rows,
    pairOf entry.current.id = some entry.current.pair
  sent : ∀ sent, context.transaction = some sent → ∀ write ∈ sent, ∀ row,
    write.holding = some row → pairOf row.id = some row.pair

section Statements

variable {database : Database} {writes : List Write}

theorem mem_ownedInstruments_applyAll {row : OwnedInstrument}
    (hrow : row ∈ (database.applyAll writes).ownedInstruments.rows) :
    row ∈ database.ownedInstruments.rows ∨ ∃ write ∈ writes, write.holding = some row := by
  induction writes generalizing database with
  | nil => exact Or.inl hrow
  | cons write writes ih =>
      rcases ih hrow with happlied | ⟨later, hlater, hholding⟩
      · cases write with
        | updateOwnedInstrument original written =>
            rcases Table.mem_rows_set.mp happlied with ⟨hold, -⟩ | ⟨rfl, -⟩
            · exact Or.inl hold
            · exact Or.inr ⟨_, List.mem_cons_self, rfl⟩
        | insertOwnedInstrument written =>
            rcases Table.mem_rows_of_insert happlied with hold | rfl
            · exact Or.inl hold
            · exact Or.inr ⟨_, List.mem_cons_self, rfl⟩
        | _ => exact Or.inl happlied
      · exact Or.inr ⟨later, List.mem_cons_of_mem write hlater, hholding⟩

theorem mem_keys_applyAll {id : ℤ} (hid : id ∈ database.ownedInstruments.keys) :
    id ∈ (database.applyAll writes).ownedInstruments.keys := by
  induction writes generalizing database with
  | nil => exact hid
  | cons write writes ih =>
      refine ih ?_
      cases write with
      | updateOwnedInstrument original written => simpa only [Write.apply, Table.keys_set] using hid
      | insertOwnedInstrument written => exact Table.mem_keys_insert.mpr (Or.inl hid)
      | _ => exact hid

end Statements

section Assigned

variable {pairOf : ℤ → Option (ℤ × ℤ)} {shared : Shared} {context : DbContext}

/-- When a run begins, only the stored rows have ids. -/
theorem assigned_arrive (shared : Shared) :
    shared.Assigned (fun id => (shared.database.ownedInstruments.find? id).map
      OwnedInstrument.pair) where
  rows row hrow := by
    rw [Table.find?_key hrow, Option.map_some]
  used id hid := by
    refine Or.inr ?_
    by_contra hnot
    rw [Table.find?_eq_none_iff.mpr hnot] at hid
    exact hid rfl

theorem assigned_fresh : DbContext.fresh.Assigned pairOf :=
  ⟨fun _ h => absurd h List.not_mem_nil, fun _ h => by cases h⟩

theorem Shared.Assigned.view (hshared : shared.Assigned pairOf)
    (hcontext : context.Assigned pairOf) {row : OwnedInstrument}
    (hrow : row ∈ (World.view (shared, context)).ownedInstruments.rows) :
    pairOf row.id = some row.pair := by
  cases htransaction : context.transaction with
  | none =>
      simp only [World.view, htransaction, Database.within] at hrow
      exact hshared.rows row hrow
  | some sent =>
      simp only [World.view, htransaction, Database.within] at hrow
      rcases mem_ownedInstruments_applyAll hrow with hstored | ⟨write, hwrite, hholding⟩
      · exact hshared.rows row hstored
      · exact hcontext.sent sent htransaction write hwrite row hholding

theorem Shared.Assigned.coherent (hshared : shared.Assigned pairOf)
    (hcontext : context.Assigned pairOf) : World.Coherent (shared, context) := by
  intro entry hentry row hrow hid
  have hpair := hcontext.entries entry hentry
  rw [hid, hshared.view hcontext hrow] at hpair
  exact (Option.some.inj hpair).symm

theorem DbContext.Assigned.attach (hcontext : context.Assigned pairOf) {row : OwnedInstrument}
    (hrow : pairOf row.id = some row.pair) : (context.readHolding row).Assigned pairOf := by
  refine ⟨fun entry hentry => ?_, hcontext.sent⟩
  rcases IdentityMap.mem_rows_attach hentry with hold | rfl
  · exact hcontext.entries entry hold
  · exact hrow

theorem DbContext.Assigned.update (hcontext : context.Assigned pairOf) {row : OwnedInstrument}
    (hread : context.HasRead row) :
    ({ context with ownedInstruments := context.ownedInstruments.update row } :
      DbContext).Assigned pairOf := by
  obtain ⟨read, hmem, hid, hpair⟩ := hread
  refine ⟨fun entry hentry => ?_, hcontext.sent⟩
  rcases IdentityMap.mem_rows_update hentry with hold | ⟨hcurrent, -⟩
  · exact hcontext.entries entry hold
  · rw [hcurrent, ← hid, ← hpair]
    exact hcontext.entries read hmem

theorem DbContext.Assigned.withTransaction (hcontext : context.Assigned pairOf)
    {transaction : Option (List Write)} (h : transaction = none ∨ transaction = some []) :
    ({ context with transaction := transaction } : DbContext).Assigned pairOf := by
  refine ⟨hcontext.entries, fun sent hsent => ?_⟩
  rcases h with rfl | rfl
  · cases hsent
  · cases hsent
    exact fun _ h => absurd h List.not_mem_nil

/-- What is assigned stays assigned. -/
theorem DbContext.Assigned.mono (hcontext : context.Assigned pairOf)
    {pairOf' : ℤ → Option (ℤ × ℤ)}
    (hmono : ∀ id pair, pairOf id = some pair → pairOf' id = some pair) :
    context.Assigned pairOf' where
  entries entry hentry := hmono _ _ (hcontext.entries entry hentry)
  sent sent hsent write hwrite row hrow :=
    hmono _ _ (hcontext.sent sent hsent write hwrite row hrow)

/-- A commit stores what the statements have written. -/
theorem Shared.Assigned.commit (hshared : shared.Assigned pairOf) {sent : List Write}
    (hcontext : context.Assigned pairOf) (hsent : context.transaction = some sent)
    {shared' : Shared} (hdatabase : shared'.database = shared.database.applyAll sent)
    (hnext : shared'.nextOwnedInstrumentId = shared.nextOwnedInstrumentId) :
    shared'.Assigned pairOf where
  rows row hrow := by
    rw [hdatabase] at hrow
    rcases mem_ownedInstruments_applyAll hrow with hstored | ⟨write, hwrite, hholding⟩
    · exact hshared.rows row hstored
    · exact hcontext.sent sent hsent write hwrite row hholding
  used id hid := by
    rw [hdatabase, hnext]
    exact (hshared.used id hid).imp_right mem_keys_applyAll

end Assigned

/-! ## New rows -/

section Saves

variable {pairOf : ℤ → Option (ℤ × ℤ)} {shared : Shared} {context : DbContext}

/-- The rows that a save inserts have the generated ids from the first one on. -/
def assignedBy (pairOf : ℤ → Option (ℤ × ℤ)) (first : ℤ) (added : List OwnedInstrument)
    (id : ℤ) : Option (ℤ × ℤ) :=
  if first ≤ id then added[(id - first).toNat]?.map OwnedInstrument.pair else pairOf id

theorem assignedBy_of_mem {first : ℤ} {added : List OwnedInstrument} {row : OwnedInstrument}
    (hrow : row ∈ assignOwnedInstrumentIds first added) :
    assignedBy pairOf first added row.id = some row.pair := by
  obtain ⟨i, hi, rfl⟩ := List.mem_mapIdx.mp hrow
  have hfirst : first ≤ first + i := by omega
  have hplace : (first + (i : ℤ) - first).toNat = i := by omega
  rw [assignedBy, if_pos hfirst, hplace, List.getElem?_eq_getElem hi]
  rfl

/-- Ids that are generated now have not been used. -/
theorem Shared.Assigned.lt_first (hshared : shared.Assigned pairOf) {id : ℤ}
    (hid : pairOf id ≠ none) : id < World.firstOwnedInstrumentId (shared, context) := by
  rcases hshared.used id hid with hnext | hstored
  · exact hnext.trans_le (le_max_left _ _)
  · refine (Table.lt_nextKey ?_).trans_le (le_max_right _ _)
    cases htransaction : context.transaction with
    | none => simpa only [World.view, htransaction, Database.within] using hstored
    | some sent =>
        simpa only [World.view, htransaction, Database.within] using mem_keys_applyAll hstored

/-- Ids have been generated up to the last one that a save uses. -/
theorem lt_of_assignedBy {added : List OwnedInstrument} {id : ℤ}
    (hid : assignedBy pairOf (World.firstOwnedInstrumentId (shared, context)) added id ≠ none) :
    id < World.firstOwnedInstrumentId (shared, context) + added.length := by
  rw [assignedBy] at hid
  split_ifs at hid with hfirst
  · have hlength : (id - World.firstOwnedInstrumentId (shared, context)).toNat < added.length := by
      by_contra hbeyond
      rw [List.getElem?_eq_none (not_lt.mp hbeyond)] at hid
      exact hid rfl
    omega
  · omega

/-- A save writes the holdings that the request has, and those it has added. -/
theorem holding_of_unsaved {write : Write} {row : OwnedInstrument}
    (hwrite : write ∈ World.unsaved (shared, context)) (hholding : write.holding = some row) :
    (∃ entry ∈ context.ownedInstruments.rows, entry.current = row) ∨
      row ∈ assignOwnedInstrumentIds (World.firstOwnedInstrumentId (shared, context))
        context.addedOwnedInstruments := by
  simp only [World.unsaved, List.mem_append, List.mem_map] at hwrite
  rcases hwrite with ((((⟨_, _, rfl⟩ | ⟨_, _, rfl⟩) | ⟨entry, hentry, rfl⟩) |
    ⟨inserted, hinserted, rfl⟩) | ⟨_, _, rfl⟩) | ⟨_, _, rfl⟩
  · cases hholding
  · cases hholding
  · cases hholding
    exact Or.inl ⟨entry, (List.mem_filter.mp hentry).1, rfl⟩
  · cases hholding
    exact Or.inr hinserted
  · cases hholding
  · cases hholding

/-- A save inside a transaction assigns the ids of the rows it inserts. -/
theorem Shared.Assigned.saveChanges (hshared : shared.Assigned pairOf)
    (hcontext : context.Assigned pairOf) {sent : List Write}
    (hsent : context.transaction = some sent) :
    ∃ pairOf', (∀ id pair, pairOf id = some pair → pairOf' id = some pair) ∧
      (World.saveChanges (shared, context)).1.Assigned pairOf' ∧
      (World.saveChanges (shared, context)).2.Assigned pairOf' := by
  let first := World.firstOwnedInstrumentId (shared, context)
  let pairOf' := assignedBy pairOf first context.addedOwnedInstruments
  have hmono : ∀ id pair, pairOf id = some pair → pairOf' id = some pair := by
    intro id pair hpair
    have hlt : id < first := hshared.lt_first (hpair ▸ Option.some_ne_none pair)
    exact (if_neg (not_le.mpr hlt)).trans hpair
  have hsaved : World.saveChanges (shared, context) =
      ({ shared with
          nextOwnedInstrumentId := first + context.addedOwnedInstruments.length
          nextTradeId := World.firstTradeId (shared, context) + context.addedTrades.length },
        { context with
          balances := context.balances.accept
          ownedInstruments := context.ownedInstruments.accept
          trades := context.trades.accept
          addedBalanceHistories := []
          addedOwnedInstruments := []
          addedTrades := []
          transaction := some (sent ++ World.unsaved (shared, context)) }) := by
    simp only [World.saveChanges, hsent, first]
  rw [hsaved]
  refine ⟨pairOf', hmono, ⟨fun row hrow => hmono _ _ (hshared.rows row hrow),
    fun id hid => Or.inl (lt_of_assignedBy hid)⟩, ?_, ?_⟩
  · intro entry hentry
    obtain ⟨old, hold, rfl⟩ := List.mem_map.mp hentry
    exact hmono _ _ (hcontext.entries old hold)
  · rintro _ ⟨⟩ write hwrite row hrow
    rcases List.mem_append.mp hwrite with hearlier | hnew
    · exact hmono _ _ (hcontext.sent sent hsent write hearlier row hrow)
    · rcases holding_of_unsaved hnew hrow with ⟨entry, hentry, rfl⟩ | hinserted
      · exact hmono _ _ (hcontext.entries entry hentry)
      · exact assignedBy_of_mem hinserted

/-- A command of a request that only rewrites holdings it has read, and only saves inside a
transaction. -/
theorem assigned_step {environment : Environment} {command : Command} {shared' : Shared}
    {context' : DbContext} {answer : Except BrokerException command.Answer}
    (hshared : shared.Assigned pairOf) (hcontext : context.Assigned pairOf)
    (hread : ∀ row, command = .updateOwnedInstrument row → context.HasRead row)
    (hbegun : command = .saveChanges → context.transaction ≠ none)
    (hstep : step environment command (shared, context) answer (shared', context')) :
    ∃ pairOf', (∀ id pair, pairOf id = some pair → pairOf' id = some pair) ∧
      shared'.Assigned pairOf' ∧ context'.Assigned pairOf' := by
  rcases hstep with ⟨time, -, hrun⟩ | ⟨-, error, -, hsame⟩
  swap
  · cases hsame
    exact ⟨pairOf, fun _ _ h => h, hshared, hcontext⟩
  have hlater : ({ shared with clock := time } : Shared).Assigned pairOf :=
    ⟨hshared.rows, hshared.used⟩
  -- commands that generate no ids
  have hkept : ∀ {final : World}, final.1.Assigned pairOf → final.2.Assigned pairOf →
      final = (shared', context') →
      ∃ pairOf', (∀ id pair, pairOf id = some pair → pairOf' id = some pair) ∧
        shared'.Assigned pairOf' ∧ context'.Assigned pairOf' := by
    rintro _ hfirst hsecond rfl
    exact ⟨pairOf, fun _ _ h => h, hfirst, hsecond⟩
  have hfinal := congrArg Prod.snd hrun
  have hview : ∀ row ∈ (World.tick (shared, context) time).view.ownedInstruments.rows,
      pairOf row.id = some row.pair := fun row hrow => hlater.view hcontext hrow
  cases command with
  | getBalanceOfAccount accountId =>
      simp only [Command.run] at hfinal
      split at hfinal
      · exact hkept hlater hcontext hfinal
      · exact hkept hlater ⟨hcontext.entries, hcontext.sent⟩ hfinal
  | getOwnedInstrument accountId instrumentId =>
      simp only [Command.run] at hfinal
      split at hfinal
      · exact hkept hlater hcontext hfinal
      · rename_i row hfound
        exact hkept hlater (hcontext.attach (hview row (List.mem_of_find?_eq_some hfound))) hfinal
  | getOwnedInstrumentsOfAccount accountId =>
      refine hkept hlater ⟨fun entry hentry => ?_, hcontext.sent⟩ hfinal
      rcases IdentityMap.mem_rows_attachAll hentry with hold | ⟨row, hrow, rfl⟩
      · exact hcontext.entries entry hold
      · exact hview row (List.mem_filter.mp hrow).1
  | updateOwnedInstrument row => exact hkept hlater (hcontext.update (hread row rfl)) hfinal
  | beginTransaction =>
      simp only [Command.run] at hfinal
      split at hfinal
      · exact hkept hlater (hcontext.withTransaction (Or.inr rfl)) hfinal
      · exact hkept hlater hcontext hfinal
  | rollbackTransaction =>
      simp only [Command.run] at hfinal
      split at hfinal
      · exact hkept hlater (hcontext.withTransaction (Or.inl rfl)) hfinal
      · exact hkept hlater hcontext hfinal
  | commitTransaction =>
      simp only [Command.run] at hfinal
      split at hfinal
      · rename_i sent hsent
        exact hkept (hlater.commit hcontext hsent rfl rfl)
          (hcontext.withTransaction (Or.inl rfl)) hfinal
      · exact hkept hlater hcontext hfinal
  | saveChanges =>
      obtain ⟨sent, hsent⟩ := Option.ne_none_iff_exists'.mp (hbegun rfl)
      have hsaved : World.saveChanges ({ shared with clock := time }, context) =
          (shared', context') := hfinal
      obtain ⟨pairOf', hmono, hfirst, hsecond⟩ := hlater.saveChanges hcontext hsent
      rw [hsaved] at hfirst hsecond
      exact ⟨pairOf', hmono, hfirst, hsecond⟩
  | _ => exact hkept ⟨hlater.rows, hlater.used⟩ ⟨hcontext.entries, hcontext.sent⟩ hfinal

end Saves

end EasyTrade.Broker

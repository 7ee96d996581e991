import EasyTrade.Pricing.ContentCreator

/-!
# The current prices

The prices with the latest timestamp are those of the batch that has been inserted
last, as far as it has been inserted.  Between two rows of a batch they are not
complete; when no batch is under way they are.
-/

namespace EasyTrade.Pricing

open EasyTrade.Program EasyTrade.Interleaving

/-- There is exactly one price for each of the instruments. -/
def Complete (prices : List PricingRow) : Prop :=
  ∀ instrument : Instruments,
    (prices.map PricingRow.instrumentId).count instrument.instrumentId = 1

/-- One row for each instrument, all for the same time. -/
structure IsBatch (prices : List NewPrice) : Prop where
  instruments : prices.map NewPrice.instrumentId = Instruments.values.map Instruments.instrumentId
  sameTime : ∀ price ∈ prices, ∀ other ∈ prices, price.timestamp = other.timestamp

/-- Every row is inserted; a batch is later than all rows before it; and the daily
clean-up leaves the latest rows alone. -/
def insertsInOrder {M : Type} : Condition PriceException PriceCommand.Answer (PriceWorld × M)
  | .insert price _, start, answer => answer.isOk = true ∧
      (start.1.following = [] → ∀ old ∈ start.1.pricing.rows, old.timestamp < price.timestamp)
  | .deleteBefore timestamp, start, _ => ∀ row ∈ start.1.latest, timestamp ≤ row.timestamp
  | _, _, _ => True

instance {M : Type} (command : PriceCommand) (start : PriceWorld × M)
    (answer : Except PriceException command.Answer) :
    Decidable (insertsInOrder command start answer) := by
  cases command <;> unfold insertsInOrder <;> infer_instance

/-- The rest of the batch, as its writer knows it. -/
def noteBatch : Note PriceException PriceCommand.Answer (List NewPrice)
  | _, .insert _ following, _ => following
  | rest, _, _ => rest

/-- The content creator goes on with its batch or starts a new one. -/
def creatorGuard : PriceCommand → List NewPrice → Prop
  | .insert price following, rest =>
      rest = price :: following ∨ rest = [] ∧ IsBatch (price :: following)
  | _, _ => True

/-- A client only reads. -/
def clientGuard : PriceCommand → List NewPrice → Prop
  | .currentPrices, _ => True
  | _, _ => False

def priceGuard : PriceParty → PriceCommand → List NewPrice → Prop
  | .contentCreator => creatorGuard
  | .client _ => clientGuard

/-- The latest rows and the rest of the batch make up one row for each instrument, and
they are all for the same time. -/
structure LatestBatch (world : PriceWorld) : Prop where
  nonempty : world.pricing.rows ≠ []
  covers : (world.latest.map PricingRow.instrumentId ++
    world.following.map NewPrice.instrumentId).Perm
      (Instruments.values.map Instruments.instrumentId)
  sameTime : ∀ row ∈ world.latest, ∀ next ∈ world.following, next.timestamp = row.timestamp

section Instruments

theorem nodup_instrumentIds : (Instruments.values.map Instruments.instrumentId).Nodup :=
  Instruments.nodup_values.map Instruments.instrumentId_injective

theorem count_instrumentIds (instrument : Instruments) :
    (Instruments.values.map Instruments.instrumentId).count instrument.instrumentId = 1 :=
  List.count_eq_one_of_mem nodup_instrumentIds (List.mem_map_of_mem instrument.mem_values)

theorem isBatch_generateAll (surroundings : Surroundings) (date : ℤ) :
    IsBatch (ContentCreator.generateAllPricingForGivenDate surroundings date) := by
  refine ⟨?_, fun price hprice other hother => ?_⟩
  · rw [ContentCreator.generateAllPricingForGivenDate, List.map_map]
    rfl
  · obtain ⟨instrument, -, rfl⟩ := List.mem_map.mp hprice
    obtain ⟨otherInstrument, -, rfl⟩ := List.mem_map.mp hother
    rfl

end Instruments

section World

variable {world : PriceWorld}

/-- The latest prices are complete exactly when nothing of the batch is missing. -/
theorem LatestBatch.complete_iff (hworld : LatestBatch world) {prices : List PricingRow}
    (hprices : prices.Perm world.latest) : Complete prices ↔ world.following = [] := by
  have hcount : ∀ instrument : Instruments,
      (prices.map PricingRow.instrumentId).count instrument.instrumentId +
        (world.following.map NewPrice.instrumentId).count instrument.instrumentId = 1 := by
    intro instrument
    calc (prices.map PricingRow.instrumentId).count instrument.instrumentId +
          (world.following.map NewPrice.instrumentId).count instrument.instrumentId
        = (world.latest.map PricingRow.instrumentId ++
            world.following.map NewPrice.instrumentId).count instrument.instrumentId := by
          rw [List.count_append, (hprices.map PricingRow.instrumentId).count_eq]
      _ = (Instruments.values.map Instruments.instrumentId).count instrument.instrumentId :=
          hworld.covers.count_eq _
      _ = 1 := count_instrumentIds instrument
  constructor
  · intro hcomplete
    by_contra hfollowing
    obtain ⟨next, hnext⟩ := List.exists_mem_of_ne_nil _ hfollowing
    have hid : next.instrumentId ∈ Instruments.values.map Instruments.instrumentId :=
      hworld.covers.subset (List.mem_append_right _ (List.mem_map_of_mem hnext))
    obtain ⟨instrument, -, hinstrument⟩ := List.mem_map.mp hid
    have hmissing : 0 < (world.following.map NewPrice.instrumentId).count
        instrument.instrumentId := by
      rw [hinstrument]
      exact List.count_pos_iff.mpr (List.mem_map_of_mem hnext)
    have hone := hcount instrument
    rw [hcomplete instrument] at hone
    omega
  · intro hfollowing instrument
    have hone := hcount instrument
    rw [hfollowing] at hone
    exact hone

/-- The first row of a new batch is the only latest row. -/
theorem LatestBatch.first {price : NewPrice} {following : List NewPrice}
    (hbatch : IsBatch (price :: following))
    (hlater : ∀ old ∈ world.pricing.rows, old.timestamp < price.timestamp) :
    LatestBatch (world.insert price following) := by
  have hlatest : (world.insert price following).latest = [price.row world.pricing.next] :=
    greatest_concat_of_lt hlater
  refine ⟨List.append_ne_nil_of_right_ne_nil _ (List.cons_ne_nil _ _), ?_,
    fun row hrow next hnext => ?_⟩
  · rw [hlatest, ← hbatch.instruments]
    rfl
  · rw [hlatest, List.mem_singleton] at hrow
    rw [hrow]
    exact hbatch.sameTime next (List.mem_cons_of_mem price hnext) price List.mem_cons_self

/-- The next row of the batch joins the latest rows. -/
theorem LatestBatch.next {price : NewPrice} {following : List NewPrice}
    (hworld : LatestBatch world) (hfollowing : world.following = price :: following) :
    LatestBatch (world.insert price following) := by
  obtain ⟨last, hlast⟩ := exists_mem_greatest PricingRow.timestamp hworld.nonempty
  have hprice : price ∈ world.following := hfollowing ▸ List.mem_cons_self
  have hlatest : (world.insert price following).latest =
      world.latest ++ [price.row world.pricing.next] :=
    greatest_concat_of_eq hlast (hworld.sameTime last hlast price hprice)
  have hcovers := hworld.covers
  rw [hfollowing] at hcovers
  refine ⟨List.append_ne_nil_of_right_ne_nil _ (List.cons_ne_nil _ _), ?_,
    fun row hrow next hnext => ?_⟩
  · rw [hlatest, List.map_append, List.append_assoc]
    exact hcovers
  · have hmem : next ∈ world.following := hfollowing ▸ List.mem_cons_of_mem price hnext
    rw [hlatest] at hrow
    rcases List.mem_append.mp hrow with hold | hnew
    · exact hworld.sameTime row hold next hmem
    · rw [List.mem_singleton.mp hnew]
      exact (hworld.sameTime last hlast next hmem).trans
        (hworld.sameTime last hlast price hprice).symm

theorem LatestBatch.deleteBefore {timestamp : ℤ} (hworld : LatestBatch world)
    (hkept : ∀ row ∈ world.latest, timestamp ≤ row.timestamp) :
    LatestBatch (world.deleteBefore timestamp) := by
  have hlatest : (world.deleteBefore timestamp).latest = world.latest := by
    refine greatest_filter fun row hrow => ?_
    simpa using hkept row hrow
  obtain ⟨last, hlast⟩ : ∃ last, last ∈ world.latest :=
    exists_mem_greatest PricingRow.timestamp hworld.nonempty
  refine ⟨fun hnil => ?_, ?_, ?_⟩
  · have hempty : (world.deleteBefore timestamp).latest = [] := by
      rw [PriceWorld.latest, hnil]
      rfl
    rw [← hlatest, hempty] at hlast
    cases hlast
  · rw [hlatest]
    exact hworld.covers
  · rw [hlatest]
    exact hworld.sameTime

end World

/-! ## Who does what -/

/-- What a command leaves when it succeeds or fails. -/
def PriceCommand.effect : PriceCommand → (succeeds : Bool) → PriceWorld → PriceWorld
  | insert price following, true, world => world.insert price following
  | insert _ following, false, world => { world with following }
  | deleteBefore timestamp, true, world => world.deleteBefore timestamp
  | _, _, world => world

theorem effect_of_priceStep {command : PriceCommand} {world world' : PriceWorld}
    {answer : Except PriceException command.Answer}
    (hstep : priceStep command world answer world') :
    world' = command.effect answer.isOk world := by
  obtain ⟨choice, hmove⟩ := hstep
  cases command with
  | insert price following => cases choice <;> cases hmove <;> rfl
  | deleteBefore timestamp => cases choice <;> cases hmove <;> rfl
  | currentTime =>
      cases choice with
      | goes n => cases hmove; rfl
      | _ => cases hmove
  | currentPrices =>
      cases choice with
      | fails => cases hmove; rfl
      | goes n => cases hmove
      | inOrder rows =>
          rw [PriceCommand.move] at hmove
          split_ifs at hmove
          cases hmove
          rfl

/-- The content creator knows what is missing of its batch. -/
def priceRelies : PriceParty → PriceWorld → List NewPrice → Prop
  | .contentCreator, world, rest => rest = world.following
  | .client _, _, _ => True

theorem guarantees_prices :
    Guarantees priceStep noteBatch insertsInOrder LatestBatch priceRelies priceGuard := by
  intro party command world rest answer world' hworld hrelies hguard hallowed hstep
  have heffect := effect_of_priceStep hstep
  cases party with
  | client n =>
      cases command with
      | currentPrices => subst heffect; exact ⟨hworld, trivial, fun _ _ _ h => h⟩
      | _ => cases hguard
  | contentCreator =>
      have hrest : rest = world.following := hrelies
      have hothers : ∀ other ≠ PriceParty.contentCreator, ∀ memory,
          priceRelies other world memory → priceRelies other world' memory := by
        intro other hother memory _
        cases other with
        | contentCreator => exact absurd rfl hother
        | client n => trivial
      cases command with
      | insert price following =>
          obtain ⟨hok, hlater⟩ := hallowed
          rw [hok] at heffect
          subst heffect
          refine ⟨?_, rfl, hothers⟩
          rcases hguard with hnext | ⟨hnone, hbatch⟩
          · exact hworld.next (hrest.symm.trans hnext)
          · exact .first hbatch (hlater (hrest.symm.trans hnone))
      | deleteBefore timestamp =>
          subst heffect
          cases answer with
          | ok value => exact ⟨hworld.deleteBefore hallowed, hrest, hothers⟩
          | error error => exact ⟨hworld, hrest, hothers⟩
      | currentPrices => subst heffect; exact ⟨hworld, hrest, hothers⟩
      | currentTime => subst heffect; exact ⟨hworld, hrest, hothers⟩

section Programs

variable {surroundings : Surroundings}

/-- A program of the content creator that goes on with the rest of its batch or starts a
new one. -/
abbrev Creates {α : Type} (task : PriceTask α)
    (post : Except PriceException α → List NewPrice → Prop) (rest : List NewPrice) : Prop :=
  wp (remembers (fun _ _ _ => True) noteBatch) creatorGuard task post rest

/-- After a batch nothing of it is left. -/
theorem creates_insertBatchData {batch rest : List NewPrice}
    (hrest : rest = batch ∨ rest = [] ∧ IsBatch batch) :
    Creates (ContentCreator.insertBatchData batch)
      (fun outcome final => outcome = .ok () ∧ final = []) rest := by
  induction batch generalizing rest with
  | nil =>
      rcases hrest with hdone | ⟨hnone, -⟩
      · exact ⟨rfl, hdone⟩
      · exact ⟨rfl, hnone⟩
  | cons price following ih =>
      rw [ContentCreator.insertBatchData, Creates, wp_bind, wp_tryCatch, perform,
        wp_remembers_perform]
      exact ⟨hrest, fun _ _ => ih (.inl rfl), fun _ _ => ih (.inl rfl)⟩

theorem creates_removeOldPricingData (rest : List NewPrice) :
    Creates (ContentCreator.removeOldPricingData surroundings) (fun _ final => final = rest)
      rest := by
  rw [ContentCreator.removeOldPricingData, Creates, wp_bind, perform, wp_remembers_perform]
  refine ⟨trivial, fun now _ => ?_, fun error _ => rfl⟩
  rw [andThen_ok, wp_tryCatch, perform, wp_remembers_perform]
  exact ⟨trivial, fun _ _ => rfl, fun _ _ => rfl⟩

theorem creates_generatePricingData (rounds : ℕ) (cal : ℤ) (i : ℕ) :
    Creates (ContentCreator.generatePricingData surroundings rounds cal i) (fun _ _ => True)
      [] := by
  induction rounds generalizing cal i with
  | zero => trivial
  | succ rounds ih =>
      rw [ContentCreator.generatePricingData, Creates, wp_bind]
      refine wp_mono (fun outcome final hfinal => ?_)
        (creates_insertBatchData (.inr ⟨rfl, isBatch_generateAll surroundings _⟩))
      obtain ⟨rfl, rfl⟩ := hfinal
      rw [andThen_ok]
      split_ifs with hday
      · rw [wp_bind]
        refine wp_mono (fun outcome final hfinal => ?_) (creates_removeOldPricingData [])
        rw [hfinal]
        cases outcome with
        | ok value => exact ih _ _
        | error error => trivial
      · exact ih _ _

theorem keeps_priceGuard (workload : PriceWorkload) (party : PriceParty) :
    wp (remembers (fun _ _ _ => True) noteBatch) (priceGuard party) (workload.program party)
      (fun _ _ => True) [] := by
  cases party with
  | contentCreator => exact creates_generatePricingData workload.rounds workload.cal 0
  | client n =>
      rw [PriceWorkload.program, GetCurrentPrices, wp_bind, wp_tryCatch, perform,
        wp_remembers_perform]
      exact ⟨trivial, fun _ _ => trivial, fun _ _ => trivial⟩

end Programs

/-- What `GetCurrentPrices` answers. -/
def currentPrices : Except PriceException (List PricingRow) → List PricingRow
  | .ok rows => rows
  | .error _ => []

/-- The query is all that `GetCurrentPrices` does. -/
theorem exec_getCurrentPrices {world world' : PriceWorld}
    {outcome : Except PriceException (List PricingRow)} :
    Exec priceStep GetCurrentPrices world outcome world' ↔
      ∃ answer, priceStep .currentPrices world answer world' ∧
        outcome = .ok (currentPrices answer) := by
  constructor
  · rintro ⟨answer, middle, hstep, hrest⟩
    refine ⟨answer, ?_⟩
    cases answer <;> exact ⟨hrest.2 ▸ hstep, hrest.1⟩
  · rintro ⟨answer, hstep, rfl⟩
    refine ⟨answer, world', hstep, ?_⟩
    cases answer <;> exact ⟨rfl, rfl⟩

theorem perm_latest_of_priceStep {world world' : PriceWorld} {rows : List PricingRow}
    (hstep : priceStep .currentPrices world (.ok rows) world') : rows.Perm world.latest := by
  obtain ⟨choice, hmove⟩ := hstep
  cases choice with
  | inOrder order =>
      rw [PriceCommand.move] at hmove
      split_ifs at hmove with hperm
      cases hmove
      exact hperm
  | _ => cases hmove

theorem not_complete_nil : ¬ Complete [] := by
  intro hcomplete
  cases hcomplete .easytravel

theorem upheld_start (workload : PriceWorkload) {world : PriceWorld}
    (hloaded : LatestBatch world) (hwhole : world.following = []) :
    Upheld (fun _ _ _ => True) noteBatch LatestBatch priceRelies priceGuard
      (workload.start [] world) := by
  refine ⟨hloaded, fun party => ?_, fun party => keeps_priceGuard workload party⟩
  cases party with
  | contentCreator => exact hwhole.symm
  | client n => trivial

/-- When the current prices are complete.  In every run after the initial load in which
rows are inserted in order, they are complete exactly when their query succeeds while
nothing of a batch is missing. -/
theorem current_prices_complete {workload : PriceWorkload} {world world' : PriceWorld}
    {system : PriceSystem (List NewPrice)} {prices : List PricingRow}
    (hloaded : LatestBatch world) (hwhole : world.following = [])
    (hreaches : ReachesWhen priceStep noteBatch insertsInOrder (workload.start [] world) system)
    (hread : Exec priceStep GetCurrentPrices system.shared (.ok prices) world') :
    ∃ answer, priceStep .currentPrices system.shared answer world' ∧
      prices = currentPrices answer ∧
      (Complete prices ↔ answer.isOk = true ∧ system.shared.following = []) := by
  obtain ⟨answer, hstep, houtcome⟩ := exec_getCurrentPrices.mp hread
  cases houtcome
  have hupheld := (upheld_start workload hloaded hwhole).reaches (fun _ _ _ _ _ => trivial)
    guarantees_prices hreaches
  refine ⟨answer, hstep, rfl, ?_⟩
  cases answer with
  | ok rows =>
      have hperm : (currentPrices (.ok rows)).Perm system.shared.latest :=
        perm_latest_of_priceStep hstep
      rw [hupheld.shared.complete_iff hperm]
      exact ⟨fun hnone => ⟨rfl, hnone⟩, And.right⟩
  | error error =>
      exact iff_of_false not_complete_nil fun h => Bool.false_ne_true h.1

/-! ## Between two rows of a batch -/

namespace Sample

def surroundings : Surroundings where
  generateCandleData _ _ := ⟨1, 1, 1, 1⟩
  localTime date := date / 1000

/-- What the initial load has left: one row for each instrument. -/
def loaded : PriceWorld :=
  (ContentCreator.generateAllPricingForGivenDate surroundings 0).foldl
    (fun world price => world.insert price []) ⟨.empty, []⟩

def oneMinute : PriceWorkload := ⟨surroundings, 1, 0⟩

theorem latestBatch_loaded : LatestBatch loaded := by
  refine ⟨by decide +kernel, by decide +kernel, fun row _ next hnext => ?_⟩
  cases hnext

end Sample

/-- The query may answer the latest rows in the order of the table. -/
theorem exec_latest (world : PriceWorld) :
    Exec priceStep GetCurrentPrices world (.ok world.latest) world := by
  have hmove : PriceCommand.currentPrices.move (.inOrder world.latest) world =
      some (.ok world.latest, world) :=
    if_pos (List.Perm.refl _)
  exact exec_getCurrentPrices.mpr ⟨.ok world.latest, ⟨_, hmove⟩, rfl⟩

/-- The first row of the new batch is there and the others are not: its price is all
that `GetCurrentPrices` answers. -/
theorem current_prices_incomplete :
    LatestBatch Sample.loaded ∧ Sample.loaded.following = [] ∧
    ∃ (system : PriceSystem Unit) (prices : List PricingRow),
      ReachesWhen priceStep (fun _ _ _ => ()) (fun _ _ _ => True)
        (Sample.oneMinute.start () Sample.loaded) system ∧
      Exec priceStep GetCurrentPrices system.shared (.ok prices) system.shared ∧
      prices.map PricingRow.instrumentId = [1] ∧ ¬ Complete prices := by
  obtain ⟨system, hcheck, hreaches⟩ := exists_reachesWhen priceStep_of_move
    (fun _ _ _ => ()) (fun _ _ _ => True) (Sample.oneMinute.start () Sample.loaded)
    [(.contentCreator, .goes 0)]
    (fun system => decide (system.shared.latest.map PricingRow.instrumentId = [1]))
    (by decide +kernel)
  have hids : system.shared.latest.map PricingRow.instrumentId = [1] := of_decide_eq_true hcheck
  refine ⟨Sample.latestBatch_loaded, rfl, system, system.shared.latest, hreaches,
    exec_latest system.shared, hids, fun hcomplete => ?_⟩
  have hmissing := hcomplete .easyplanes
  rw [hids] at hmissing
  cases hmissing

/-- The whole batch is there. -/
theorem current_prices_complete_again :
    ∃ (system : PriceSystem (List NewPrice)) (prices : List PricingRow),
      Exec priceStep GetCurrentPrices system.shared (.ok prices) system.shared ∧
      60 ∈ prices.map PricingRow.timestamp ∧ Complete prices := by
  obtain ⟨system, hcheck, hreaches⟩ := exists_reachesWhen priceStep_of_move noteBatch
    insertsInOrder (Sample.oneMinute.start [] Sample.loaded)
    (List.replicate 15 (.contentCreator, .goes 0))
    (fun system => decide (60 ∈ system.shared.latest.map PricingRow.timestamp ∧
      system.shared.following = []))
    (by decide +kernel)
  obtain ⟨htime, hnone⟩ := of_decide_eq_true hcheck
  have hread := exec_latest system.shared
  obtain ⟨answer, -, hprices, hcomplete⟩ :=
    current_prices_complete Sample.latestBatch_loaded rfl hreaches hread
  refine ⟨system, system.shared.latest, hread, htime, hcomplete.mpr ⟨?_, hnone⟩⟩
  cases answer with
  | ok rows => rfl
  | error error =>
      rw [hprices] at htime
      cases htime

end EasyTrade.Pricing

import EasyTrade.Core.Shuffle
import EasyTrade.FeatureFlags.FlagService
import EasyTrade.Offers.FailCounter

/-!
# Slow offers

When it starts, the offer service draws the platforms that it will keep waiting while a feature
flag is on.  Those are the platforms that pause in the end, and no others.
-/

namespace EasyTrade.Offers

open EasyTrade.Shuffle EasyTrade.FeatureFlags
open scoped Nat

/-! ## Drawing some of the platforms -/

section SampleArray

variable {α : Type}

/-- `result.length = size`: the array is cut off, or gets holes. -/
def setLength (size : ℕ) (result : List α) : List (Option α) :=
  (result.take size).map some ++ List.replicate (size - result.length) none

/-- `sampleArray`, with what `Math.floor(Math.random() * (i + 1))` gives for each `i`. -/
def sampleArray (array : List α) (size : ℕ) (draws : Draws array.length) : List (Option α) :=
  setLength size (shuffle draws ⟨array.toArray, rfl⟩).toList

variable {array : List α} {size : ℕ}

/-- The elements that a permutation puts first. -/
theorem sampleArray_eq (hsize : size ≤ array.length) (draws : Draws array.length) :
    sampleArray array size draws =
      List.ofFn fun k : Fin size => some (array.get (source draws (Fin.castLE hsize k))) := by
  have hlength : (shuffle draws ⟨array.toArray, rfl⟩).toList.length = array.length :=
    Vector.length_toList
  refine List.ext_getElem ?_ fun k hk _ => ?_
  · simp [sampleArray, setLength, hsize]
  · have hk' : k < array.length := by
      simp [sampleArray, setLength, hlength] at hk
      omega
    have hget := shuffle_get draws (⟨array.toArray, rfl⟩ : Vector α array.length) ⟨k, hk'⟩
    simp only [Vector.get_eq_getElem, Vector.getElem_mk, List.getElem_toArray] at hget
    simp only [sampleArray, setLength, hlength, Nat.sub_eq_zero_of_le hsize, List.replicate_zero,
      List.append_nil, List.getElem_map, List.getElem_take, Vector.getElem_toList,
      List.getElem_ofFn, List.get_eq_getElem]
    exact congrArg some hget

theorem some_mem_sampleArray_iff (hnodup : array.Nodup) (hsize : size ≤ array.length)
    (draws : Draws array.length) (i : Fin array.length) :
    some (array.get i) ∈ sampleArray array size draws ↔
      ∃ k : Fin size, source draws (Fin.castLE hsize k) = i := by
  rw [sampleArray_eq hsize, List.mem_ofFn]
  refine exists_congr fun k => ?_
  rw [Option.some.injEq, hnodup.get_inj_iff]

/-- A sample is some elements of the array, none of them twice. -/
theorem exists_sample (hnodup : array.Nodup) (hsize : size ≤ array.length)
    (draws : Draws array.length) :
    ∃ sample : List α, sampleArray array size draws = sample.map some ∧ sample.length = size ∧
      sample.Nodup ∧ sample ⊆ array := by
  refine ⟨List.ofFn fun k : Fin size => array.get (source draws (Fin.castLE hsize k)), ?_,
    List.length_ofFn, ?_, ?_⟩
  · rw [sampleArray_eq hsize, List.map_ofFn]
    rfl
  · refine List.nodup_ofFn.mpr fun k k' heq => ?_
    exact Fin.castLE_injective hsize ((source draws).injective (hnodup.injective_get heq))
  · intro a ha
    obtain ⟨k, rfl⟩ := List.mem_ofFn.mp ha
    exact List.get_mem _ _

/-- Every sample, in every order, is drawn by the same number of draws. -/
theorem card_sampleArray_eq (hnodup : array.Nodup) (hsize : size ≤ array.length)
    {sample : List α} (hlength : sample.length = size) (hsample : sample.Nodup)
    (hsubset : sample ⊆ array) :
    Nat.card {draws // sampleArray array size draws = sample.map some} =
      (array.length - size)! := by
  classical
  subst hlength
  -- where the elements of the sample are in the array
  choose index hindex using fun k : Fin sample.length =>
    List.get_of_mem (hsubset (sample.get_mem k))
  have hinjective : Function.Injective index := fun k k' heq =>
    hsample.injective_get (by rw [← hindex, ← hindex, heq])
  let f : {k : Fin array.length // (k : ℕ) < sample.length} ↪ Fin array.length :=
    ⟨fun k => index ⟨k.1, k.2⟩, fun k k' heq =>
      Subtype.ext (Fin.ext (Fin.mk.inj (hinjective heq)))⟩
  have hdraws : ∀ draws : Draws array.length,
      sampleArray array sample.length draws = sample.map some ↔ ∀ k, source draws k.1 = f k := by
    intro draws
    have hofFn : sample.map some = List.ofFn fun k => some (sample.get k) := by
      conv_lhs => rw [← List.ofFn_get sample, List.map_ofFn]
      rfl
    rw [sampleArray_eq hsize, hofFn, List.ofFn_inj, funext_iff]
    simp only [← hindex, Option.some.injEq, hnodup.get_inj_iff]
    constructor
    · exact fun h k => h ⟨k.1, k.2⟩
    · exact fun h k => h ⟨Fin.castLE hsize k, k.isLt⟩
  have hrest : Fintype.card {k : Fin array.length // ¬(k : ℕ) < sample.length} =
      array.length - sample.length := by
    rw [Fintype.card_subtype_compl, Fintype.card_fin, Fintype.card_subtype]
    congr 1
    exact Fin.card_filter_val_lt.trans (min_eq_right hsize)
  rw [Nat.card_eq_fintype_card, Fintype.card_subtype, ← hrest,
    ← card_perm_extending (fun k : Fin array.length => (k : ℕ) < sample.length) f,
    ← card_draws_filter]
  simp only [hdraws]

/-- Every element is drawn by the same share of the draws. -/
theorem card_some_mem_sampleArray (hnodup : array.Nodup) (hsize : size ≤ array.length) {a : α}
    (ha : a ∈ array) :
    array.length * Nat.card {draws // some a ∈ sampleArray array size draws} =
      size * Nat.card (Draws array.length) := by
  classical
  obtain ⟨i, rfl⟩ := List.get_of_mem ha
  have hposition : ∀ k : Fin size, (Finset.univ.filter fun draws : Draws array.length =>
      source draws (Fin.castLE hsize k) = i).card = (array.length - 1)! := fun k => by
    rw [card_draws_filter fun σ => σ (Fin.castLE hsize k) = i, card_perm_apply_eq,
      Fintype.card_fin]
  have hunion : (Finset.univ.filter fun draws : Draws array.length =>
      ∃ k : Fin size, source draws (Fin.castLE hsize k) = i).card =
        ∑ k : Fin size, (array.length - 1)! := by
    rw [← Finset.sum_congr rfl fun k _ => hposition k, ← Finset.card_biUnion]
    · congr 1
      ext draws
      simp
    · intro k _ k' _ hne
      refine Finset.disjoint_filter.mpr fun draws _ hk hk' => hne ?_
      exact Fin.castLE_injective hsize ((source draws).injective (hk.trans hk'.symm))
  have hpos : 0 < array.length := i.pos
  simp only [some_mem_sampleArray_iff hnodup hsize]
  rw [Nat.card_eq_fintype_card, Fintype.card_subtype, hunion, Nat.card_eq_fintype_card,
    card_draws, Finset.sum_const, Finset.card_univ, Fintype.card_fin, smul_eq_mul,
    ← Nat.mul_factorial_pred hpos.ne']
  ring

/-- When every draw is as likely as any other, `sampleArray` takes different elements of the
array, each choice of them in each order with the same chance, and so each element. -/
theorem sampleArray_uniform (hnodup : array.Nodup) (hsize : size ≤ array.length) :
    (∀ draws, ∃ sample : List α, sampleArray array size draws = sample.map some ∧
      sample.length = size ∧ sample.Nodup ∧ sample ⊆ array) ∧
    (∀ sample : List α, sample.length = size → sample.Nodup → sample ⊆ array →
      Nat.card {draws // sampleArray array size draws = sample.map some} =
        (array.length - size)!) ∧
    ∀ a ∈ array, array.length * Nat.card {draws // some a ∈ sampleArray array size draws} =
      size * Nat.card (Draws array.length) :=
  ⟨exists_sample hnodup hsize, fun _ => card_sampleArray_eq hnodup hsize,
    fun _ => card_some_mem_sampleArray hnodup hsize⟩

end SampleArray

/-! ## The plugin -/

def AFFECTED_PLATFORM_COUNT : ℕ := 2

def AFFECTED_PLATFROM_DELAY_MS : ℤ := 2000

def PLATFORMS : List String :=
  ["dynatestsieger.at", "tradeCom.co.uk", "CryptoTrading.com", "CheapTrading.mi",
    "Stratton-oakmount.com"]

theorem nodup_PLATFORMS : PLATFORMS.Nodup := by decide

theorem platforms_drawn_uniformly :
    (∀ draws, ∃ sample : List String, sampleArray PLATFORMS 2 draws = sample.map some ∧
      sample.length = 2 ∧ sample.Nodup ∧ sample ⊆ PLATFORMS) ∧
    (∀ sample : List String, sample.length = 2 → sample.Nodup → sample ⊆ PLATFORMS →
      Nat.card {draws // sampleArray PLATFORMS 2 draws = sample.map some} = (5 - 2)!) ∧
    ∀ name ∈ PLATFORMS, 5 * Nat.card {draws // some name ∈ sampleArray PLATFORMS 2 draws} =
      2 * Nat.card (Draws PLATFORMS.length) :=
  sampleArray_uniform nodup_PLATFORMS (by decide)

structure ErgoAggregatorSlowdownPlugin where
  delayMs : ℤ
  affectedPlatforms : List (Option String)

namespace ErgoAggregatorSlowdownPlugin

variable (plugin : ErgoAggregatorSlowdownPlugin)

def getName (_plugin : ErgoAggregatorSlowdownPlugin) : String := "ergo_aggregator_slowdown"

def isPlatformAffected (platformName : String) : Bool :=
  plugin.affectedPlatforms.contains (some platformName)

/-- For how many milliseconds `run` waits. -/
def run (platformName : String) : ℤ :=
  if plugin.isPlatformAffected platformName then plugin.delayMs else 0

end ErgoAggregatorSlowdownPlugin

/-- The plugin of the list of plugins, which is made when the service starts. -/
def slowdownPlugin (draws : Draws PLATFORMS.length) : ErgoAggregatorSlowdownPlugin where
  delayMs := AFFECTED_PLATFROM_DELAY_MS
  affectedPlatforms := sampleArray PLATFORMS AFFECTED_PLATFORM_COUNT draws

/-- `getFlag` of the client, which turns every failure into `undefined`. -/
def getFlag (registry : Registry) (flagId : String) (reached : Bool) : Option Flag :=
  if reached then
    match (handle registry (.getFlagById flagId)).1 with
    | .ok flag => some flag
    | _ => none
  else none

/-- `resolveBooleanEvaluation` of the provider. -/
def resolveBooleanEvaluation (plugin : Option Flag) (defaultValue : Bool) : Bool :=
  (plugin.bind Flag.enabled).getD defaultValue

/-- What the offer service meets when it gets a request: the flags, whether it can ask for them,
and how many nanoseconds it needs for the request itself. -/
structure Moment where
  registry : Registry
  reached : Bool
  own : ℤ
  useXml : Bool

/-- The plugin is turned on. -/
def ErgoAggregatorSlowdownPlugin.enabled (plugin : ErgoAggregatorSlowdownPlugin)
    (moment : Moment) : Bool :=
  resolveBooleanEvaluation (getFlag moment.registry plugin.getName moment.reached) false

/-- `getPluginRunner`, with the milliseconds that it takes. -/
def pluginRunner (plugin : ErgoAggregatorSlowdownPlugin) (moment : Moment)
    (platformName : String) : ℤ :=
  if plugin.enabled moment then plugin.run platformName else 0

/-- A check of the offers, which pass the plugin first. -/
def Moment.check (moment : Moment) (plugin : ErgoAggregatorSlowdownPlugin) (runtime : Runtime)
    (catalogue : Catalogue) : Check where
  answer := fun req => catalogue.answer runtime
    (some (moment.own + pluginRunner plugin moment req.url.platform * 1000000)) req
  useXml := moment.useXml

/-! ## What a platform notices -/

section Platforms

variable {runtime : Runtime} {catalogue : Catalogue} {p : Platform}
variable {plugin : ErgoAggregatorSlowdownPlugin}

/-- The requests of a platform come through, and an XML document can hold the answers. -/
structure Served (runtime : Runtime) (catalogue : Catalogue) (p : Platform) : Prop where
  url : runtime.url p.name = some ⟨p.name, []⟩
  texts : ∀ text ∈ (OfferData.mk "EasyTrade" p.name catalogue.packages.rows
    catalogue.products.rows).texts, text.toList.all isXmlChar = true

variable (plugin) in
theorem Served.connectorGetOffers (hserved : Served runtime catalogue p) (moment : Moment) :
    ∃ offer, connectorGetOffers runtime (moment.check plugin runtime catalogue).answer p.name
      p.filter p.maxFee (formatOf moment.useXml) =
        .ok ⟨offer, moment.own + pluginRunner plugin moment p.name * 1000000⟩ := by
  unfold Offers.connectorGetOffers
  rw [offersRequest_eq, hserved.url]
  have htexts : (OfferData.mk "EasyTrade" p.name catalogue.packages.rows
      catalogue.products.rows).texts.all (fun text => text.toList.all isXmlChar) = true :=
    List.all_eq_true.mpr hserved.texts
  cases moment.useXml with
  | false => exact ⟨_, rfl⟩
  | true =>
      refine ⟨MimeType.xml.offer runtime ⟨"EasyTrade", p.name, catalogue.packages.rows,
        catalogue.products.rows⟩, ?_⟩
      change (parseResponse runtime (.xml ⟨"EasyTrade", p.name, catalogue.packages.rows,
        catalogue.products.rows⟩) .xml).map _ = _
      rw [parseResponse, if_pos htexts]
      rfl

/-- A check fails exactly when the plugin is on and keeps this platform waiting. -/
theorem Served.fails_eq (hserved : Served runtime catalogue p) {moment : Moment}
    (hown : moment.own < p.requestTimeLimit)
    (hdelay : p.requestTimeLimit ≤ moment.own + plugin.delayMs * 1000000) :
    p.fails runtime (moment.check plugin runtime catalogue) =
      (plugin.isPlatformAffected p.name && plugin.enabled moment) := by
  obtain ⟨offer, hresult⟩ := hserved.connectorGetOffers plugin moment
  unfold PlatformConfig.fails
  rw [show (moment.check plugin runtime catalogue).useXml = moment.useXml from rfl, hresult]
  dsimp only
  unfold pluginRunner ErgoAggregatorSlowdownPlugin.run
  cases plugin.enabled moment <;> cases plugin.isPlatformAffected p.name <;> simp <;> omega

variable (plugin) in
/-- The moments at the end of some at which the plugin has been on all the time. -/
def enabledInRow (moments : List Moment) : ℕ := (moments.rtakeWhile plugin.enabled).length

/-- The offer service itself is in time, and one that waits is not. -/
def InTime (config : PlatformConfig) (plugin : ErgoAggregatorSlowdownPlugin)
    (moment : Moment) : Prop :=
  moment.own < config.requestTimeLimit ∧
    config.requestTimeLimit ≤ moment.own + plugin.delayMs * 1000000

/-- The checks of an affected platform fail as long as the plugin is on, those of the others
never. -/
theorem Served.failsInRow_eq (hserved : Served runtime catalogue p) {moments : List Moment}
    (htime : ∀ moment ∈ moments, InTime p.toPlatformConfig plugin moment) :
    p.failsInRow runtime (moments.map fun moment => moment.check plugin runtime catalogue) =
      if plugin.isPlatformAffected p.name then enabledInRow plugin moments else 0 := by
  induction moments using List.reverseRecOn with
  | nil => exact (ite_self 0).symm
  | append_singleton moments moment ih =>
      have hlast := htime moment (List.mem_append_right _ List.mem_cons_self)
      rw [List.map_append, List.map_singleton, failsInRow_concat,
        ih fun other hmem => htime other (List.mem_append_left _ hmem),
        hserved.fails_eq hlast.1 hlast.2, enabledInRow, enabledInRow, List.rtakeWhile_concat]
      cases plugin.isPlatformAffected p.name <;> cases plugin.enabled moment <;> simp

/-- An affected platform pauses once the plugin has been on for so many checks in a row, the
others never do. -/
theorem Served.pauses_iff (hserved : Served runtime catalogue p)
    (hcounter : p.consecutiveFailCounter = 0) (hlimit : 0 < p.consecutiveFailLimit)
    {moments : List Moment} {last : Moment}
    (htime : ∀ moment ∈ moments ++ [last], InTime p.toPlatformConfig plugin moment) :
    (checkOffersTick runtime
        (ticked runtime p (moments.map fun moment => moment.check plugin runtime catalogue))
        (last.check plugin runtime catalogue)).1 = true ↔
      plugin.isPlatformAffected p.name = true ∧
        p.consecutiveFailLimit ≤ enabledInRow plugin (moments ++ [last]) := by
  have hfails := hserved.failsInRow_eq htime
  rw [List.map_append, List.map_singleton] at hfails
  rw [tick_pauses_iff hcounter, hfails]
  split_ifs with haffected
  · simp [haffected]
  · simp [haffected, hlimit]

end Platforms

/-- Two of the five platforms are drawn when the service starts.  A platform pauses exactly when
it is one of them and the flag has been on for as many checks in a row as it tolerates. -/
theorem two_platforms_pause (draws : Draws PLATFORMS.length) {runtime : Runtime}
    {catalogue : Catalogue} {p : Platform} (hserved : Served runtime catalogue p)
    (hcounter : p.consecutiveFailCounter = 0) (hlimit : 0 < p.consecutiveFailLimit)
    {moments : List Moment} {last : Moment}
    (htime : ∀ moment ∈ moments ++ [last],
      InTime p.toPlatformConfig (slowdownPlugin draws) moment) :
    ∃ affected : List String,
      (slowdownPlugin draws).affectedPlatforms = affected.map some ∧
      affected.length = AFFECTED_PLATFORM_COUNT ∧ affected.Nodup ∧ affected ⊆ PLATFORMS ∧
      ((checkOffersTick runtime
          (ticked runtime p (moments.map fun moment =>
            moment.check (slowdownPlugin draws) runtime catalogue))
          (last.check (slowdownPlugin draws) runtime catalogue)).1 = true ↔
        p.name ∈ affected ∧
          p.consecutiveFailLimit ≤ enabledInRow (slowdownPlugin draws) (moments ++ [last])) := by
  obtain ⟨affected, hdrawn, hlength, hnodup, hsubset⟩ :=
    exists_sample nodup_PLATFORMS (show AFFECTED_PLATFORM_COUNT ≤ PLATFORMS.length by decide) draws
  refine ⟨affected, hdrawn, hlength, hnodup, hsubset, ?_⟩
  have haffected : (slowdownPlugin draws).isPlatformAffected p.name = true ↔ p.name ∈ affected := by
    rw [ErgoAggregatorSlowdownPlugin.isPlatformAffected, List.contains_iff_mem, slowdownPlugin,
      hdrawn, List.mem_map_of_injective (Option.some_injective _)]
  rw [hserved.pauses_iff hcounter hlimit htime, haffected]

namespace Sample

/-- A draw for which the first two platforms of the list are those that are affected. -/
def firstTwo : Draws PLATFORMS.length := fun k => Fin.last k

/-- A platform that pauses after two checks that fail. -/
def impatient : Platform :=
  { platform with
    name := "tradeCom.co.uk"
    consecutiveFailLimit := 2 }

def moment (enabled : Bool) : Moment where
  registry :=
    ⟨[⟨"ergo_aggregator_slowdown", some enabled, "", "", true, ""⟩], List.nodup_singleton _⟩
  reached := true
  own := 3
  useXml := false

theorem served_impatient : Served runtime (catalogue cryptoOnly) impatient where
  url := rfl
  texts := by decide +kernel

end Sample

/-- The flag is turned on before the second check, and at the third one the platform pauses. -/
theorem two_platforms_pause_impatient :
    (checkOffersTick Sample.runtime
      (ticked Sample.runtime Sample.impatient
        ([Sample.moment false, Sample.moment true].map fun moment =>
          moment.check (slowdownPlugin Sample.firstTwo) Sample.runtime
            (Sample.catalogue Sample.cryptoOnly)))
      ((Sample.moment true).check (slowdownPlugin Sample.firstTwo) Sample.runtime
        (Sample.catalogue Sample.cryptoOnly))).1 = true := by
  have htime : ∀ moment ∈ [Sample.moment false, Sample.moment true] ++ [Sample.moment true],
      InTime Sample.impatient.toPlatformConfig (slowdownPlugin Sample.firstTwo) moment := by
    simp only [List.cons_append, List.nil_append, List.forall_mem_cons, InTime]
    decide +kernel
  obtain ⟨affected, hdrawn, -, -, -, hpauses⟩ := two_platforms_pause Sample.firstTwo
    Sample.served_impatient rfl (by decide) htime
  have hfirst : affected.map some = [some "dynatestsieger.at", some "tradeCom.co.uk"] :=
    hdrawn.symm.trans (by decide +kernel)
  refine hpauses.mpr ⟨?_, by decide +kernel⟩
  have hmem : some "tradeCom.co.uk" ∈ affected.map some := by
    rw [hfirst]
    exact List.mem_cons_of_mem _ List.mem_cons_self
  exact (List.mem_map_of_injective (Option.some_injective _)).mp hmem

end EasyTrade.Offers

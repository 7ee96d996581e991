import EasyTrade.Core.Table

/-!
# The feature flag service

The flags are created when the service starts.  Requests read them and turn them on and
off; a flag that is not modifiable stays as it was created, and nothing else about a flag ever
changes.
-/

namespace EasyTrade.FeatureFlags

/-- `enabled` is an object of the language, which a request may leave out. -/
structure Flag where
  id : String
  enabled : Option Bool
  name : String
  description : String
  isModifiable : Bool
  tag : String
  deriving DecidableEq

structure NonModifiableFlagException where
  message : String
  deriving DecidableEq

def Flag.setEnabled (flag : Flag) (enabled : Option Bool) :
    Except NonModifiableFlagException Flag :=
  if flag.isModifiable = false then
    .error ⟨"Can't update a non-modifiable flag [" ++ flag.name ++ "]"⟩
  else .ok { flag with enabled }

/-! ## The flags of the configuration -/

/-- `Boolean.parseBoolean`. -/
def parseBoolean (text : String) : Bool := text.toLower = "true"

/-- The values of the properties under `app.flags`. -/
structure FeatureFlagConfig where
  enableModify : String
  enableDbNotResponding : String
  enableErgoAggregatorSlowdown : String
  enableFactoryCrisis : String
  enableFrontendModify : String
  enableCreditCardMeltdown : String
  enableHighCpuUsage : String

abbrev Registry := Table Flag.id

/-- The flags in some order, which the maps of the language do not promise. -/
def FeatureFlagConfig.flags (config : FeatureFlagConfig) : List Flag :=
  let isModifiable := parseBoolean config.enableModify
  [ { id := "frontend_feature_flag_management"
      enabled := some (parseBoolean config.enableFrontendModify)
      name := "Frontend feature flag management"
      description := "When enabled allows controlling problem pattern feature flags from the main " ++
        "app UI."
      isModifiable := false
      tag := "config" },
    { id := "db_not_responding"
      enabled := some (parseBoolean config.enableDbNotResponding)
      name := "DB not responding"
      description := "When enabled, the DB not responding will be simulated, this will cause " ++
        "errors when trying to create any new transactions."
      isModifiable
      tag := "problem_pattern" },
    { id := "ergo_aggregator_slowdown"
      enabled := some (parseBoolean config.enableErgoAggregatorSlowdown)
      name := "Ergo aggregator slowdown"
      description := "When enabled, the OfferService will respond with delay to 2 out of 5 " ++
        "AggregatorServices querying it, which will result in those services pausing the queries " ++
        "for 1h."
      isModifiable
      tag := "problem_pattern" },
    { id := "factory_crisis"
      enabled := some (parseBoolean config.enableFactoryCrisis)
      name := "Factory crisis"
      description := "When enabled, the factory won't produce new cards, which will cause the " ++
        "Third party service not to process credit card orders."
      isModifiable
      tag := "problem_pattern" },
    { id := "credit_card_meltdown"
      enabled := some (parseBoolean config.enableCreditCardMeltdown)
      name := "OrderController service error"
      description := "When enabled, then checking latest status will result in a division by 0 " ++
        "error. This results in visits to the Credit Card frontend tab resulting in an ugly error " ++
        "page."
      isModifiable
      tag := "problem_pattern" },
    { id := "high_cpu_usage"
      enabled := some (parseBoolean config.enableHighCpuUsage)
      name := "K8s: high CPU usage"
      description := "Causes a slowdown of broker-service response time and increases CPU usage " ++
        "during that time. If the app is deployed on K8s, a CPU resource limit is also applied."
      isModifiable
      tag := "problem_pattern" } ]

theorem FeatureFlagConfig.ids_flags (config : FeatureFlagConfig) :
    config.flags.map Flag.id = ["frontend_feature_flag_management", "db_not_responding",
      "ergo_aggregator_slowdown", "factory_crisis", "credit_card_meltdown", "high_cpu_usage"] := rfl

def FeatureFlagConfig.flagRegistry (config : FeatureFlagConfig) : Registry where
  rows := config.flags
  keysNodup := by
    rw [config.ids_flags]
    decide

/-! ## The service -/

def getFlagById (registry : Registry) (flagId : String) : Option Flag := registry.find? flagId

/-- The flag is changed in place, unless it refuses to. -/
def updateFlag (registry : Registry) (flagId : String) (enabled : Option Bool) :
    Except NonModifiableFlagException (Option Flag) × Registry :=
  match registry.find? flagId with
  | none => (.ok none, registry)
  | some flag =>
      match flag.setEnabled enabled with
      | .error e => (.error e, registry)
      | .ok flag => (.ok (some flag), registry.set flag)

def getFlagsByTag (registry : Registry) (tag : String) : List Flag :=
  registry.rows.filter fun flag => tag = flag.tag

def getAllFlags (registry : Registry) : List Flag := registry.rows

/-! ## The controller -/

inductive Request
  | getFlagById (flagId : String)
  | updateFlag (flagId : String) (enabled : Option Bool)
  | getFlags (tag : Option String)
  deriving DecidableEq

inductive Response
  | ok (flag : Flag)
  | results (flags : List Flag)
  | notFound
  | badRequest (body : String)
  deriving DecidableEq

def Response.ofFlag : Option Flag → Response
  | some flag => .ok flag
  | none => .notFound

/-- The body of the answer to an update that throws. -/
def errorBody (message : String) : String := "\x7b\"message\": \"" ++ message ++ "\"\x7d"

/-- `FlagController`. -/
def handle (registry : Registry) : Request → Response × Registry
  | .getFlagById flagId => (.ofFlag (getFlagById registry flagId), registry)
  | .updateFlag flagId enabled =>
      match updateFlag registry flagId enabled with
      | (.ok flag, registry) => (.ofFlag flag, registry)
      | (.error e, registry) => (.badRequest (errorBody e.message), registry)
  | .getFlags (some tag) => (.results (getFlagsByTag registry tag), registry)
  | .getFlags none => (.results (getAllFlags registry), registry)

/-- The flags after some requests. -/
def served (registry : Registry) (requests : List Request) : Registry :=
  requests.foldl (fun registry request => (handle registry request).2) registry

/-! ## What requests do to a flag -/

/-- A flag after a request, which changes at most whether it is enabled. -/
def Flag.after (flag : Flag) : Request → Flag
  | .updateFlag flagId enabled =>
      if flagId = flag.id ∧ flag.isModifiable = true then { flag with enabled } else flag
  | _ => flag

@[simp]
theorem Flag.after_id (flag : Flag) (request : Request) : (flag.after request).id = flag.id := by
  cases request with
  | updateFlag flagId enabled =>
      unfold Flag.after
      dsimp only
      split_ifs <;> rfl
  | getFlagById | getFlags => rfl

theorem setEnabled_eq (flag : Flag) (enabled : Option Bool) :
    flag.setEnabled enabled = if flag.isModifiable = true then .ok { flag with enabled }
      else .error ⟨"Can't update a non-modifiable flag [" ++ flag.name ++ "]"⟩ := by
  unfold Flag.setEnabled
  cases flag.isModifiable <;> rfl

/-- One step: every flag is changed as the request says, and the flags stay the same flags. -/
theorem handle_eq (registry : Registry) (request : Request) :
    (handle registry request).2 =
      registry.map (fun flag => flag.after request) (fun flag => flag.after_id request) := by
  have hsame : ∀ other, (∀ flag ∈ registry.rows, flag.after other = flag) →
      registry = registry.map (fun flag => flag.after other) (fun flag => flag.after_id other) :=
    fun other hflags => Table.ext_rows
      ((List.map_id registry.rows).symm.trans (List.map_congr_left fun flag hmem =>
        (hflags flag hmem).symm))
  cases request with
  | getFlagById flagId => exact hsame (.getFlagById flagId) fun _ _ => rfl
  | getFlags tag =>
      cases tag with
      | none => exact hsame (.getFlags none) fun _ _ => rfl
      | some tag => exact hsame (.getFlags (some tag)) fun _ _ => rfl
  | updateFlag flagId enabled =>
      simp only [handle, updateFlag]
      cases hfind : registry.find? flagId with
      | none =>
          refine hsame (.updateFlag flagId enabled) fun flag hmem => if_neg fun h => ?_
          rw [h.1, Table.find?_key hmem] at hfind
          cases hfind
      | some flag =>
          obtain ⟨hmem, rfl⟩ := Table.find?_eq_some_iff.mp hfind
          have honly : ∀ other ∈ registry.rows, other.id = flag.id → other = flag :=
            fun other hother => List.inj_on_of_nodup_map registry.keysNodup hother hmem
          dsimp only
          rw [setEnabled_eq]
          by_cases hmodifiable : flag.isModifiable = true
          · rw [if_pos hmodifiable]
            refine Table.ext_rows (List.map_congr_left fun other hother => ?_)
            by_cases hid : other.id = flag.id
            · rw [honly other hother hid]
              simp [Flag.after, hmodifiable]
            · simp [Flag.after, hid, Ne.symm hid]
          · rw [if_neg hmodifiable]
            refine hsame (.updateFlag flag.id enabled) fun other hother => if_neg fun h => ?_
            rw [honly other hother h.1.symm] at h
            exact hmodifiable h.2

/-! ## Runs of requests -/

/-- What the last update of a flag among some requests asks for. -/
def lastUpdate (flagId : String) (requests : List Request) : Option (Option Bool) :=
  requests.foldl (fun last request =>
    match request with
    | .updateFlag id enabled => if id = flagId then some enabled else last
    | _ => last) none

/-- The state that requests leave a flag in: a modifiable one is as the last update wants
it. -/
def Flag.current (flag : Flag) (requests : List Request) : Option Bool :=
  if flag.isModifiable = true then (lastUpdate flag.id requests).getD flag.enabled
  else flag.enabled

/-- A flag after the requests. -/
def Flag.following (flag : Flag) (requests : List Request) : Flag :=
  { flag with enabled := flag.current requests }

@[simp]
theorem Flag.following_id (flag : Flag) (requests : List Request) :
    (flag.following requests).id = flag.id := rfl

theorem lastUpdate_concat (flagId : String) (requests : List Request) (request : Request) :
    lastUpdate flagId (requests ++ [request]) =
      match request with
      | .updateFlag id enabled => if id = flagId then some enabled else lastUpdate flagId requests
      | _ => lastUpdate flagId requests := by
  rw [lastUpdate, List.foldl_append]
  rfl

theorem Flag.following_nil (flag : Flag) : flag.following [] = flag := by
  simp [following, current, lastUpdate]

theorem Flag.after_following (flag : Flag) (requests : List Request) (request : Request) :
    (flag.following requests).after request = flag.following (requests ++ [request]) := by
  cases request with
  | getFlagById | getFlags => simp [following, after, current, lastUpdate_concat]
  | updateFlag flagId enabled =>
      simp only [following, after, current, lastUpdate_concat]
      by_cases hid : flagId = flag.id <;> by_cases hmodifiable : flag.isModifiable = true <;>
        simp [hid, hmodifiable]

theorem served_concat (registry : Registry) (requests : List Request) (request : Request) :
    served registry (requests ++ [request]) = (handle (served registry requests) request).2 :=
  List.foldl_append

/-- The run: the flags that there were, each in the state of its last update. -/
theorem served_eq (registry : Registry) (requests : List Request) :
    served registry requests =
      registry.map (fun flag => flag.following requests)
        (fun flag => flag.following_id requests) := by
  induction requests using List.reverseRecOn with
  | nil =>
      refine Table.ext_rows ((List.map_id registry.rows).symm.trans ?_)
      exact List.map_congr_left fun flag _ => flag.following_nil.symm
  | append_singleton requests request ih =>
      rw [served_concat, handle_eq, ih]
      refine Table.ext_rows ?_
      simp only [Table.map, List.map_map]
      exact List.map_congr_left fun flag _ => flag.after_following requests request

theorem find?_served (registry : Registry) (requests : List Request) (flagId : String) :
    (served registry requests).find? flagId =
      (registry.find? flagId).map fun flag => flag.following requests := by
  rw [served_eq, Table.find?_map]

theorem lastUpdate_append_of_forall (flagId : String) (earlier later : List Request)
    (hlater : ∀ enabled, .updateFlag flagId enabled ∉ later) :
    lastUpdate flagId (earlier ++ later) = lastUpdate flagId earlier := by
  induction later using List.reverseRecOn with
  | nil => rw [List.append_nil]
  | append_singleton later request ih =>
      have hlast := ih fun enabled hmem => hlater enabled (List.mem_append_left _ hmem)
      rw [← List.append_assoc, lastUpdate_concat, hlast]
      cases request with
      | getFlagById | getFlags => rfl
      | updateFlag id enabled =>
          refine if_neg fun heq => hlater enabled ?_
          rw [heq]
          exact List.mem_append_right _ List.mem_cons_self

/-- A flag that requests do not update is found as it was. -/
theorem find?_served_append (registry : Registry) (flagId : String)
    (earlier later : List Request) (hlater : ∀ enabled, .updateFlag flagId enabled ∉ later) :
    (served registry (earlier ++ later)).find? flagId =
      (served registry earlier).find? flagId := by
  rw [find?_served, find?_served]
  cases hfind : registry.find? flagId with
  | none => rfl
  | some flag =>
      obtain rfl : flag.id = flagId := Table.key_of_find? hfind
      simp only [Option.map_some, Flag.following, Flag.current,
        lastUpdate_append_of_forall _ _ _ hlater]

/-- The flags are those that the service has been created with.  Each is in the state that its
last update has asked for, and one that is not modifiable is as it was created and refuses to be
updated. -/
theorem flags_follow_updates (registry : Registry) (requests : List Request) :
    (∀ flagId, (handle (served registry requests) (.getFlagById flagId)).1 =
      .ofFlag ((registry.find? flagId).map fun flag => flag.following requests)) ∧
    (∀ tag, (handle (served registry requests) (.getFlags (some tag))).1 =
      .results ((registry.rows.filter fun flag => tag = flag.tag).map fun flag =>
        flag.following requests)) ∧
    ∀ flagId enabled flag, registry.find? flagId = some flag → flag.isModifiable = false →
      (handle (served registry requests) (.getFlagById flagId)).1 = .ok flag ∧
      (handle (served registry requests) (.updateFlag flagId enabled)).1 =
        .badRequest (errorBody ("Can't update a non-modifiable flag [" ++ flag.name ++ "]")) := by
  have hget : ∀ flagId, (handle (served registry requests) (.getFlagById flagId)).1 =
      .ofFlag ((registry.find? flagId).map fun flag => flag.following requests) := fun flagId => by
    rw [handle, getFlagById, find?_served]
  refine ⟨hget, fun tag => ?_, fun flagId enabled flag hfind hfixed => ⟨?_, ?_⟩⟩
  · rw [handle, getFlagsByTag, served_eq]
    exact congrArg Response.results List.filter_map
  · rw [hget, hfind, Option.map_some, Flag.following, Flag.current, if_neg (by simp [hfixed])]
    rfl
  · rw [handle, updateFlag, find?_served, hfind, Option.map_some]
    dsimp only
    rw [setEnabled_eq, if_neg (by simp [hfixed, Flag.following])]
    rfl

end EasyTrade.FeatureFlags

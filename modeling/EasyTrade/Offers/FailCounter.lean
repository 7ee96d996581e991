import EasyTrade.Offers.Filters

/-!
# The fail counter of a platform

A platform counts the checks in a row that have failed or taken too long.  When there are too
many of them it pauses, and a pause does not reset the counter.
-/

namespace EasyTrade.Offers

/-- What a check meets: the offer service's answer to requests, and the format that has been
drawn. -/
structure Check where
  answer : Request → Option (Response × ℤ)
  useXml : Bool

/-- `errors.Is(err, ErrFailCounterLimitExceeded)`. -/
def isFailCounterLimitExceeded : Except CheckError Offer → Bool
  | .error (.provider _ limitExceeded) => limitExceeded
  | .error .failCounterLimitExceeded => true
  | .ok _ => false

/-- `checkOffersTick`, which may end with a pause. -/
def checkOffersTick (runtime : Runtime) (p : Platform) (check : Check) : Bool × Platform :=
  let checked := p.CheckOffers runtime check.answer check.useXml
  (isFailCounterLimitExceeded checked.1, checked.2)

/-- The platform after some ticks of its clock, whose functions run one after the other. -/
def ticked (runtime : Runtime) (p : Platform) (checks : List Check) : Platform :=
  checks.foldl (fun p check => (checkOffersTick runtime p check).2) p

/-- There is no offer, or not in time. -/
def PlatformConfig.fails (config : PlatformConfig) (runtime : Runtime) (check : Check) : Bool :=
  match connectorGetOffers runtime check.answer config.name config.filter config.maxFee
      (formatOf check.useXml) with
  | .error _ => true
  | .ok offerResult => config.requestTimeLimit ≤ offerResult.requestDuration

/-- The checks at the end of some that have all failed. -/
def PlatformConfig.failsInRow (config : PlatformConfig) (runtime : Runtime)
    (checks : List Check) : ℕ :=
  (checks.rtakeWhile (config.fails runtime)).length

section FailCounter

variable {runtime : Runtime} {p : Platform} {check : Check}

/-- The step: what a tick makes of the counter, and when it pauses. -/
theorem checkOffersTick_eq (runtime : Runtime) (p : Platform) (check : Check) :
    checkOffersTick runtime p check =
      let consecutiveFailCounter :=
        if p.fails runtime check then p.consecutiveFailCounter + 1 else 0
      (decide (p.consecutiveFailLimit ≤ consecutiveFailCounter),
        { p with consecutiveFailCounter }) := by
  unfold checkOffersTick Platform.CheckOffers PlatformConfig.fails
  rw [show (if check.useXml then MimeType.xml else MimeType.json) = formatOf check.useXml from rfl]
  cases connectorGetOffers runtime check.answer p.name p.filter p.maxFee
      (formatOf check.useXml) with
  | error error => rfl
  | ok offerResult =>
      by_cases hslow : p.requestTimeLimit ≤ offerResult.requestDuration
      · simp only [hslow, if_true, decide_true]
        split_ifs with hlimit <;> simp [isFailCounterLimitExceeded, hlimit]
      · simp only [hslow, if_false, decide_false, Bool.false_eq_true]
        split_ifs with hlimit <;> simp [isFailCounterLimitExceeded, hlimit]

theorem ticked_concat (checks : List Check) :
    ticked runtime p (checks ++ [check]) =
      (checkOffersTick runtime (ticked runtime p checks) check).2 :=
  List.foldl_append

theorem failsInRow_concat (config : PlatformConfig) (checks : List Check) :
    config.failsInRow runtime (checks ++ [check]) =
      if config.fails runtime check then config.failsInRow runtime checks + 1 else 0 := by
  unfold PlatformConfig.failsInRow
  split_ifs with hfails
  · rw [List.rtakeWhile_concat_pos _ _ _ hfails, List.length_append, List.length_singleton]
  · rw [List.rtakeWhile_concat_neg _ _ _ hfails, List.length_nil]

/-- The run: the counter is the number of checks that have failed in a row. -/
theorem ticked_eq (hcounter : p.consecutiveFailCounter = 0) (checks : List Check) :
    ticked runtime p checks =
      { p with consecutiveFailCounter := p.failsInRow runtime checks } := by
  induction checks using List.reverseRecOn with
  | nil => exact congrArg (Platform.mk p.toPlatformConfig) hcounter
  | append_singleton checks check ih =>
      rw [ticked_concat, ih, checkOffersTick_eq, failsInRow_concat]
      dsimp only
      congr 1
      split_ifs <;> rfl

/-- A tick pauses exactly when it is the last of too many checks in a row that have failed. -/
theorem tick_pauses_iff (hcounter : p.consecutiveFailCounter = 0) (checks : List Check) :
    (checkOffersTick runtime (ticked runtime p checks) check).1 = true ↔
      p.consecutiveFailLimit ≤ p.failsInRow runtime (checks ++ [check]) := by
  rw [ticked_eq hcounter, checkOffersTick_eq, failsInRow_concat]
  dsimp only
  rw [decide_eq_true_iff]
  split_ifs <;> rfl

end FailCounter

end EasyTrade.Offers

import EasyTrade.Broker.Requests

/-!
# Fraud detection

With `ENABLE_FRAUD_DETECTION` a quick trade is scored before its transaction begins, and the
score is logged.  A trade that is carried out is carried out as it would have been without, and one
that fails leaves the database as it was.
-/

namespace EasyTrade.Broker

open EasyTrade.Program EasyTrade.Program.Prog

/-- The same surroundings without fraud detection. -/
def Environment.withoutFraudDetection (environment : Environment) : Environment :=
  { environment with fraudDetectionEnabled := false }

/-- The command that fraud detection adds. -/
def Command.scores : Command → Prop
  | .scoreTradeAsync _ => True
  | _ => False

section FraudDetection

variable {environment : Environment} {accountId instrumentId : ℤ} {amount : ℚ}

/-- A score is taken in front of another command, or not at all. -/
theorem interposes_checkFraud {α : Type} (query : FraudQuery) {other : Command}
    {next : Except BrokerException other.Answer → Request α}
    (herror : ∀ error, next (.error error) = .raise error) :
    Interposes Command.scores
      (TradeService.checkFraud environment query >>= fun _ => (.call other next : Request α))
      (TradeService.checkFraud environment.withoutFraudDetection query >>=
        fun _ => (.call other next : Request α)) := by
  have hwithout : TradeService.checkFraud environment.withoutFraudDetection query = pure 0 :=
    if_neg Bool.false_ne_true
  rw [hwithout, TradeService.checkFraud]
  split_ifs
  · exact .between trivial (fun _ => .refl _) (fun _ => rfl) herror
  · exact .refl _

theorem interposes_buyAssets :
    Interposes Command.scores
      (TradeService.buyAssets environment accountId instrumentId amount)
      (TradeService.buyAssets environment.withoutFraudDetection accountId instrumentId
        amount) := by
  rw [TradeService.buyAssets, TradeService.buyAssets]
  refine .bind (.refl _) fun _ => .bind (.refl _) fun balance => ?_
  cases balance with
  | none => exact .refl _
  | some balance =>
      refine .bind (.refl _) fun instrument => ?_
      cases instrument with
      | none => exact .refl _
      | some instrument =>
          refine .bind (.refl _) fun _ => .bind (.refl _) fun price => .bind (.refl _) fun _ =>
            .bind (.refl _) fun product => ?_
          dsimp only
          split_ifs
          · exact .refl _
          · exact interposes_checkFraud _ fun _ => rfl

theorem interposes_sellAssets :
    Interposes Command.scores
      (TradeService.sellAssets environment accountId instrumentId amount)
      (TradeService.sellAssets environment.withoutFraudDetection accountId instrumentId
        amount) := by
  rw [TradeService.sellAssets, TradeService.sellAssets]
  refine .bind (.refl _) fun _ => .bind (.refl _) fun balance => ?_
  cases balance with
  | none => exact .refl _
  | some balance =>
      refine .bind (.refl _) fun instrument => ?_
      cases instrument with
      | none => exact .refl _
      | some instrument =>
          refine .bind (.refl _) fun _ => .bind (.refl _) fun price =>
            .bind (.refl _) fun product => .bind (.refl _) fun held => ?_
          cases held with
          | none => exact .refl _
          | some held =>
              dsimp only
              split_ifs
              · exact .refl _
              · exact interposes_checkFraud _ fun _ => rfl

theorem interposes_request (operation : Operation) :
    Interposes Command.scores (operation.request environment)
      (operation.request environment.withoutFraudDetection) := by
  cases operation with
  | quickBuy => exact interposes_buyAssets.bind fun _ => .refl _
  | quickSell => exact interposes_sellAssets.bind fun _ => .refl _
  | _ => exact .refl _

/-- A command that comes later in time could have come earlier. -/
theorem step_of_scored {command other : Command} {world world' world'' : World}
    {value : command.Answer} {result : other.Answer} (hscores : command.scores)
    (hstep : step environment command world (.ok value) world')
    (hother : step environment other world' (.ok result) world'') :
    step environment other world (.ok result) world'' := by
  cases command with
  | scoreTradeAsync query =>
      obtain ⟨time, htime, hrun⟩ | ⟨-, error, herror, -⟩ := hstep
      · obtain rfl : world.tick time = world' := congrArg Prod.snd hrun
        obtain ⟨later, hlater, hrun⟩ | ⟨-, error, herror, -⟩ := hother
        · exact Or.inl ⟨later, le_trans htime hlater, hrun⟩
        · cases herror
      · cases herror
  | _ => exact hscores.elim

/-- Fraud detection decides nothing.  A request that succeeds with it is one that succeeds
without, and it leaves the same behind; a request that fails leaves the database as it was;
and whatever can happen without it can happen with it. -/
theorem fraud_detection_transparent (environment : Environment) (operation : Operation)
    (shared shared' : Shared) :
    (Serves environment operation shared (.ok ()) shared' ↔
      Serves environment.withoutFraudDetection operation shared (.ok ()) shared') ∧
    (∀ error, Serves environment operation shared (.error error) shared' →
      shared'.database = shared.database) ∧
    ∀ error, Serves environment.withoutFraudDetection operation shared (.error error) shared' →
      Serves environment operation shared (.error error) shared' := by
  have hlonger : ∀ outcome, Serves environment.withoutFraudDetection operation shared outcome
      shared' → Serves environment operation shared outcome shared' := by
    rintro outcome ⟨context, hexec⟩
    refine ⟨context, (interposes_request operation).exec_longer ?_ hexec⟩
    intro command world hscores
    cases command with
    | scoreTradeAsync query =>
        exact ⟨environment.fraudScore query, Or.inl ⟨world.1.clock, le_rfl, rfl⟩⟩
    | _ => exact hscores.elim
  refine ⟨⟨fun hserves => ?_, hlonger _⟩, fun error hserves => (serves_error hserves).1,
    fun error => hlonger _⟩
  obtain ⟨context, hexec⟩ := hserves
  refine ⟨context, (interposes_request operation).exec_shorter ?_ hexec⟩
  exact fun command world value world' hscores hstep other result world'' hother =>
    step_of_scored hscores hstep hother

end FraudDetection

end EasyTrade.Broker

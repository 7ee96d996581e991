import EasyTrade.Broker.DatedHistory
import EasyTrade.Broker.Succeeding

/-!
# Requests that can be served

A deposit to an account that exists, and a long order of an account and for an instrument
that exist, succeed when nothing fails and no time passes.
-/

namespace EasyTrade.Broker

open EasyTrade.Program

/-- The service did its work, or it noticed that time had passed. -/
def InTime {α : Type} (shared : Shared) (outcome : Except BrokerException α) (final : Session) :
    Prop :=
  (∃ value, outcome = .ok value) ∨ (final.rolledBack = false ∧ shared.clock < final.clock)

section Accepted

variable {environment : Environment} {operation : Operation} {shared : Shared}

theorem exists_serves_of_inTime
    (h : wp (Session.effect environment) (fun _ _ => True) (operation.request environment)
      (InTime shared) (Session.arrive shared.database shared.clock shared.closedTrades)) :
    ∃ shared', Serves environment operation shared (.ok ()) shared' ∧
      shared'.clock = shared.clock := by
  obtain ⟨outcome, final, hexec, hclock⟩ :=
    exists_exec_works environment (operation.request environment) (shared, DbContext.fresh)
  have haccepted : Ensures environment (operation.request environment) (fun _ _ => True)
      (fun _ _ => True) (Session.arrive shared.database shared.clock shared.closedTrades) :=
    request_spec.mono (fun _ _ _ => trivial) fun _ _ _ => trivial
  obtain ⟨session, hrelated, hintime⟩ := session_of_works haccepted h hexec
  have houtcome : outcome = .ok () := by
    rcases hintime with ⟨value, hvalue⟩ | ⟨hopen, hlate⟩
    · exact hvalue
    · have hle : session.clock ≤ shared.clock := (hrelated.mirrored hopen).clock.trans hclock.le
      exact absurd hlate (not_lt.mpr hle)
  refine ⟨final.1, ⟨final.2, ?_⟩, hclock⟩
  rw [← houtcome]
  exact exec_mono (fun _ _ _ _ => step_of_works) hexec

/-- The result of the service method is not looked at. -/
theorem inTime_discard {α : Type} {program : Request α} {session : Session}
    (h : wp (Session.effect environment) (fun _ _ => True) program (InTime shared) session) :
    wp (Session.effect environment) (fun _ _ => True) (program >>= fun _ => pure ())
      (InTime shared) session := by
  refine (wp_bind _ _).mpr (wp_mono (fun outcome final hfinal => ?_) h)
  cases outcome with
  | ok value => exact .inl ⟨(), rfl⟩
  | error error => exact .inr (hfinal.resolve_left fun ⟨_, herror⟩ => nomatch herror)

/-- What follows succeeds. -/
theorem inTime_of_succeeds {α : Type} {program : Request α} {session : Session}
    (hprogram : Succeeds environment session.current.balances.keys program) :
    wp (Session.effect environment) (fun _ _ => True) program (InTime shared) session :=
  wp_mono (fun _ _ hfinal => .inl hfinal.1) (hprogram session rfl)

theorem exists_serves_deposit (environment : Environment) {accountId : ℤ} {amount : ℚ}
    (haccount : accountId ∈ shared.database.balances.keys) (hamount : 0 ≤ amount) :
    ∃ shared', Serves environment (.deposit accountId amount) shared (.ok ()) shared' ∧
      shared'.clock = shared.clock := by
  obtain ⟨balance, hbalance⟩ := find?_balances_of_mem haccount
  have hdeposit : balance.deposit amount =
      .ok { balance with value := balance.value + amount } := by
    rw [Balance.deposit, if_neg (not_lt.mpr hamount)]
  refine exists_serves_of_inTime (inTime_discard ?_)
  rw [BalanceService.deposit, BalanceService.modifyBalance]
  refine wp_issue_bind ?_
  rintro _ _ ⟨rfl, rfl⟩
  have hfound : (Session.arrive shared.database shared.clock
      shared.closedTrades).current.balances.find? accountId = some balance := hbalance
  rw [andThen_ok, hfound]
  refine inTime_of_succeeds (succeeds_bind (succeeds_issue _) fun now => ?_)
  dsimp only
  rw [hdeposit]
  refine succeeds_bind (succeeds_pure _) fun deposited => ?_
  refine succeeds_bind (succeeds_issue _) fun _ => ?_
  refine succeeds_bind (succeeds_issue _) fun _ => ?_
  refine succeeds_bind (succeeds_issue _) fun _ => ?_
  exact succeeds_bind succeeds_saveChangesOrRollback fun _ => succeeds_pure _

theorem exists_serves_longBuy (environment : Environment) {accountId instrumentId : ℤ}
    {amount price : ℚ} {duration : ℤ} {instrument : Instrument}
    (haccount : accountId ∈ shared.database.balances.keys)
    (hinstrument : shared.database.instruments.find? instrumentId = some instrument)
    (hamount : 0 ≤ amount) (hprice : 0 ≤ price) (hduration : 0 ≤ duration)
    (hexpires : (shared.clock.addHours duration).isSome) :
    ∃ shared', Serves environment (.longBuy accountId instrumentId amount duration price) shared
      (.ok ()) shared' ∧ shared'.clock = shared.clock := by
  obtain ⟨balance, hbalance⟩ := find?_balances_of_mem haccount
  have hvalid : LongTradeService.validateInput amount price duration = pure () := by
    rw [LongTradeService.validateInput, if_neg (not_lt.mpr hamount), if_neg (not_lt.mpr hprice),
      if_neg (not_lt.mpr hduration)]
  refine exists_serves_of_inTime (inTime_discard ?_)
  rw [LongTradeService.buyAssets, LongTradeService.createLongTransaction, hvalid]
  refine (wp_bind _ _).mpr ?_
  refine wp_issue_bind ?_
  rintro _ _ ⟨rfl, rfl⟩
  have hfound : (Session.arrive shared.database shared.clock
      shared.closedTrades).current.balances.find? accountId = some balance := hbalance
  rw [andThen_ok, hfound]
  refine wp_issue_bind ?_
  rintro _ _ ⟨rfl, rfl⟩
  have hlisted : (Session.arrive shared.database shared.clock
      shared.closedTrades).committed.instruments.find? instrumentId = some instrument := hinstrument
  rw [andThen_ok, hlisted]
  refine wp_issue_bind ?_
  rintro _ _ ⟨rfl, rfl⟩
  refine wp_issue_bind ?_
  rintro _ _ ⟨opened, hopened, rfl, rfl⟩
  rw [andThen_ok, LongTradeService.expiry, wp_bind]
  refine wp_issue_bind ?_
  rintro _ _ ⟨now, hnow, rfl, rfl⟩
  rw [andThen_ok]
  cases hexpiry : now.addHours duration with
  | none =>
      have hlate : now ≠ shared.clock := by
        rintro rfl
        rw [hexpiry] at hexpires
        cases hexpires
      exact .inr ⟨rfl, lt_of_le_of_ne (hopened.trans hnow) hlate.symm⟩
  | some expires =>
      exact inTime_of_succeeds (succeeds_bind (succeeds_issue _) fun _ =>
        succeeds_bind succeeds_saveChangesOrRollback fun _ => succeeds_pure _)

end Accepted

end EasyTrade.Broker

import Gally.Chain.Path
import Gally.Law.Ownership
import Gally.Law.Topics

/-!
# Governance

The pause is asymmetric: it stops the functions that assert that the protocol is not paused and
leaves every other one as it is, down to the abort codes. The parameters are public: whoever
replays the governance events from the defaults knows the configuration, and sees on the way that
every change started from the value the last one wrote and kept within the bounds of its setter.

## Key results

- `World.call_withPause`: a call that does not assert it cannot tell whether the protocol is paused
- `pause_stops_entry_only`: the runs of the paused protocol
- `audit_log_replays`: the governance events replay to the configuration
-/

namespace Gally

open Checked

/-! ## Pause -/

/-- The configuration with the pause switched to `b`. -/
def ProtocolConfig.withPause (b : Bool) (config : ProtocolConfig) : ProtocolConfig :=
  { config with paused := b }

/-- The world with the pause switched to `b`. -/
def World.withPause (b : Bool) (w : World) : World :=
  { w with config := w.config.withPause b }

/-- The call runs a function that begins with `assert_not_paused`. -/
def Call.assertsNotPaused : Call → Bool
  | .validator (.registerValidator ..) => true
  | .asset (.createAsset ..) | .asset (.createTermAsset ..) => true
  | .asset (.vouchAssetLegals ..) | .asset (.contributeCapital ..) => true
  | .asset (.submitMilestoneProof ..) | .asset (.approveMilestone ..) => true
  | .asset (.releaseFundingTranche ..) | .asset (.depositRevenue ..) => true
  | .accumulator (.wrapShares ..) => true
  | _ => false

/-- The call stops or resumes the protocol. -/
def Call.setsPause : Call → Bool
  | .protocol .adminEmergencyStop | .protocol .adminResume => true
  | _ => false

namespace World

variable {w : World} {sender : Address} {b : Bool}

/-- The setters do the same whether the protocol is paused or not, but for the two of the pause. -/
theorem protocolCall_withPause {c : ProtocolCall} (hc : (Call.protocol c).setsPause = false) :
    (w.withPause b).protocolCall sender c = withPause b <$> w.protocolCall sender c := by
  cases c with
  | adminEmergencyStop => cases hc
  | adminResume => cases hc
  | adminSetTreasury =>
    simp only [protocolCall, ProtocolCall.run, adminSetTreasury, map_bind, bind_assoc, map_pure,
      pure_bind]
    rfl
  | adminSetDisputeParams =>
    simp only [protocolCall, ProtocolCall.run, adminSetDisputeParams, map_bind, bind_assoc,
      map_pure, pure_bind]
    rfl
  | _ =>
    simp only [protocolCall, ProtocolCall.run, adminSetFeeBps, adminSetMinValidatorStake,
      adminSetVouchCoverageBps, adminSetEntityCollateralBps, adminSetVouchTimeoutMs,
      adminSetMinWrapDurationMs, setParam, map_bind, bind_assoc, map_pure, pure_bind]
    rfl

/-- The pool calls that do not ask for the pause do the same with and without it. -/
theorem validatorCall_withPause {c : ValidatorCall}
    (hc : (Call.validator c).assertsNotPaused = false) :
    (w.withPause b).validatorCall sender c = withPause b <$> w.validatorCall sender c := by
  cases c with
  | registerValidator => cases hc
  | _ =>
    simp only [validatorCall, map_bind, map_pure]
    rfl

/-- The asset calls that do not ask for the pause do the same with and without it. -/
theorem assetCall_withPause {c : AssetCall} (hc : (Call.asset c).assertsNotPaused = false) :
    (w.withPause b).assetCall sender c = withPause b <$> w.assetCall sender c := by
  cases c with
  | createAsset | createTermAsset | vouchAssetLegals | contributeCapital => cases hc
  | submitMilestoneProof | approveMilestone | releaseFundingTranche | depositRevenue => cases hc
  | _ =>
    simp only [assetCall, fileClosed, map_bind, map_pure]
    rfl

/-- The accumulator's calls that do not ask for the pause do the same with and without it. -/
theorem accumulatorCall_withPause {c : AccumulatorCall}
    (hc : (Call.accumulator c).assertsNotPaused = false) :
    (w.withPause b).accumulatorCall sender c = withPause b <$> w.accumulatorCall sender c := by
  cases c with
  | wrapShares => cases hc
  | _ =>
    simp only [accumulatorCall, map_bind, map_pure]
    rfl

/-- No call of the court asks for the pause. -/
theorem disputeCall_withPause {c : DisputeCall} :
    (w.withPause b).disputeCall sender c = withPause b <$> w.disputeCall sender c := by
  cases c <;>
  · simp only [disputeCall, map_bind, map_pure]
    rfl

/-- No call of the framework asks for the pause. -/
theorem frameworkCall_withPause {c : FrameworkCall} :
    (w.withPause b).frameworkCall sender c = withPause b <$> w.frameworkCall sender c := by
  cases c <;>
  · simp only [frameworkCall, map_bind, map_pure]
    rfl

/-- A call that does not assert it cannot tell whether the protocol is paused: it does the same, or
    aborts with the same code. -/
theorem call_withPause {c : Call} (hc : c.assertsNotPaused = false) (hset : c.setsPause = false) :
    (w.withPause b).call sender c = withPause b <$> w.call sender c := by
  cases c with
  | protocol c => exact protocolCall_withPause hset
  | validator c => exact validatorCall_withPause hc
  | asset c => exact assetCall_withPause hc
  | accumulator c => exact accumulatorCall_withPause hc
  | dispute c => exact disputeCall_withPause
  | framework c => exact frameworkCall_withPause

/-- A listing asks for the pause. -/
theorem listing_unpaused {config : ProtocolConfig} {l : Listing} {isTerm : Bool} {target : U64}
    {collateral now : ℕ} {assetId capId : ID} {r : Asset × EntityCap × List Event}
    (run : createAssetInternal config l isTerm target collateral now sender assetId capId = .ok r) :
    config.paused = false := by
  simp only [createAssetInternal, seq_eq_ok, assertNotPaused_eq_ok] at run
  obtain ⟨_, -, _, hunpaused, -⟩ := run
  exact hunpaused

/-- A call that asserts it succeeds in the unpaused protocol only. -/
theorem unpaused_of_call {w' : World} {c : Call} (h : w.call sender c = .ok w')
    (hc : c.assertsNotPaused = true) : w.config.paused = false := by
  -- each call that asserts it has it among its guards
  cases c with
  | protocol | dispute | framework => cases hc
  | validator c =>
    cases validatorCall_eq_ok.mp h with
    | registerValidator _ guards => exact guards.unpaused
    | _ => cases hc
  | asset c =>
    cases assetCall_eq_ok.mp h with
    | createAsset _ _ run => exact listing_unpaused run
    | createTermAsset _ _ run => exact listing_unpaused run
    | vouchAssetLegals _ _ _ _ guards => exact guards.unpaused
    | contributeCapital _ _ guards => exact guards.unpaused
    | submitMilestoneProof _ _ _ guards => exact guards.unpaused
    | approveMilestone _ _ _ _ guards => exact guards.unpaused
    | releaseFundingTranche _ _ _ guards => exact guards.unpaused
    | depositRevenue _ _ _ guards => exact guards.unpaused
    | _ => cases hc
  | accumulator c =>
    cases accumulatorCall_eq_ok.mp h with
    | wrapShares _ _ _ guards => exact guards.unpaused
    | _ => cases hc

/-- The protocol stays paused until somebody resumes it. -/
theorem paused_kept {w' : World} {c : Call} (h : w.call sender c = .ok w')
    (hset : c.setsPause = false) (hpaused : w.config.paused = true) :
    w'.config.paused = true := by
  have hc : c.assertsNotPaused = false := by
    by_contra hc
    rw [unpaused_of_call h (by simpa using hc)] at hpaused
    cases hpaused
  have hw : w.withPause true = w := by
    unfold withPause ProtocolConfig.withPause
    rw [← hpaused]
  have hcall : (w.withPause true).call sender c = withPause true <$> w.call sender c :=
    call_withPause hc hset
  rw [hw, h] at hcall
  rw [Except.ok.inj hcall]
  rfl

/-- An action whose calls neither ask for the pause nor set it does the same with and without it. -/
theorem step_withPause {action : Action}
    (hset : action.all (fun c => !c.setsPause) = true)
    (hc : action.all (fun c => !c.assertsNotPaused) = true) :
    (w.withPause b).step action = withPause b <$> w.step action := by
  cases action with
  | transaction sender calls =>
    refine Run.exec_map fun c hmem v => ?_
    have hset' := List.all_eq_true.mp hset c hmem
    have hc' := List.all_eq_true.mp hc c hmem
    exact call_withPause (by simpa using hc') (by simpa using hset')
  | tick now =>
    by_cases hle : w.clockMs ≤ now.val <;> simp [step, guarded, withPause, hle]

/-- No call of a run of the paused protocol asserts that it is not. -/
theorem run_asserts_not {w' : World} {actions : List Action} (hpaused : w.config.paused = true)
    (hset : actions.all (Action.all fun c => !c.setsPause) = true) (h : w.run actions = .ok w') :
    actions.all (Action.all fun c => !c.assertsNotPaused) = true := by
  -- the pause lasts, so no call of the run can have asked for it
  have hall := Run.exec_forall (I := fun w => w.config.paused = true)
    (q := fun action => action.all (fun c => !c.assertsNotPaused) = true) ?_ hpaused h
  · exact List.all_eq_true.mpr hall.2
  intro action haction u u' hu hs
  have hset' := List.all_eq_true.mp hset action haction
  cases action with
  | tick =>
    obtain ⟨-, rfl⟩ := guarded_eq_ok.mp hs
    exact ⟨hu, rfl⟩
  | transaction sender calls =>
    have hcalls := Run.exec_forall (I := fun w => w.config.paused = true)
      (q := fun c => (!c.assertsNotPaused) = true) (fun c hc v v' hv hcall => ?_) hu hs
    · exact hcalls.imp_right List.all_eq_true.mpr
    have hkeep : c.setsPause = false := by simpa using List.all_eq_true.mp hset' c hc
    refine ⟨paused_kept hcall hkeep hv, ?_⟩
    -- a call that asks for the pause would have failed
    by_contra hassert
    rw [unpaused_of_call hcall (by simpa using hassert)] at hv
    cases hv

end World

/-- The pause stops the functions that assert it is not set, and nothing else: a run without them
    is the same with and without the pause, and with them it is none of the paused protocol. -/
theorem pause_stops_entry_only (w : World) {actions : List Action}
    (hset : actions.all (Action.all fun c => !c.setsPause) = true) :
    if actions.all (Action.all fun c => !c.assertsNotPaused) then
      (w.withPause true).run actions = World.withPause true <$> (w.withPause false).run actions
    else ∀ w', (w.withPause true).run actions ≠ .ok w' := by
  split
  next hc =>
    have hrun : ∀ b, (w.withPause b).run actions = World.withPause b <$> w.run actions := by
      intro b
      refine Run.exec_map fun action haction v => ?_
      exact World.step_withPause (List.all_eq_true.mp hset action haction)
        (List.all_eq_true.mp hc action haction)
    rw [hrun, hrun, ← comp_map]
    rfl
  next hc =>
    intro w' h
    exact hc (World.run_asserts_not rfl hset h)

namespace Sample

/-- The investor claims the yield of deed 9. -/
def claiming : List Action := [.transaction 3 [.accumulator (.claimRewards 8 9)]]

/-- The investor wraps deed 9. -/
def wrapping : List Action := [.transaction 3 [.accumulator (.wrapShares 8 9)]]

end Sample

/-- The investor of the paused protocol can claim, but not wrap. -/
theorem pause_stops_entry_only_claiming : ∃ w v,
    (World.genesis 0).run (Sample.holding ++ Sample.revenue) = .ok w ∧
    (w.withPause false).run Sample.claiming = .ok v ∧
    (w.withPause true).run Sample.claiming = .ok (v.withPause true) ∧
    ∀ w', (w.withPause true).run Sample.wrapping ≠ .ok w' := by
  have hrun : returns ((World.genesis 0).run (Sample.holding ++ Sample.revenue)) (fun w =>
      returns ((w.withPause false).run Sample.claiming) fun _ => true) = true := by
    decide +kernel
  obtain ⟨w, hw, hq⟩ := returns_iff.mp hrun
  obtain ⟨v, hv, -⟩ := returns_iff.mp hq
  have hclaim : (w.withPause true).run Sample.claiming =
      World.withPause true <$> (w.withPause false).run Sample.claiming :=
    @pause_stops_entry_only w Sample.claiming rfl
  rw [hv] at hclaim
  exact ⟨w, v, hw, hv, hclaim, @pause_stops_entry_only w Sample.wrapping rfl⟩

/-! ## The audit log -/

/-- The events of `protocol.move`. -/
def EventKind.isGovernance : EventKind → Bool
  | .protocolInitialized | .protocolParamChanged | .protocolTreasuryChanged => true
  | .emergencyStopTriggered | .protocolResumed => true
  | _ => false

/-- Only the calls of `protocol.move` emit them. -/
theorem Call.silent_kinds {c : Call} (hc : ∀ c', c ≠ .protocol c') :
    ∀ k ∈ c.kinds, k.isGovernance = false := by
  cases c with
  | protocol c => exact absurd rfl (hc c)
  | validator c => cases c <;> simp [Call.kinds, ValidatorCall.kinds, EventKind.isGovernance]
  | asset c => cases c <;> simp [Call.kinds, AssetCall.kinds, EventKind.isGovernance]
  | accumulator c => cases c <;> simp [Call.kinds, AccumulatorCall.kinds, EventKind.isGovernance]
  | dispute c => cases c <;> simp [Call.kinds, DisputeCall.kinds, EventKind.isGovernance]
  | framework c => simp [Call.kinds]

namespace ProtocolConfig

/-- The parameter of this name. -/
def param (config : ProtocolConfig) : String → Option ℕ
  | "protocol_fee_bps" => some config.protocolFeeBps
  | "min_validator_stake" => some config.minValidatorStake
  | "vouch_coverage_bps" => some config.vouchCoverageBps
  | "entity_collateral_bps" => some config.entityCollateralBps
  | "vouch_timeout_ms" => some config.vouchTimeoutMs
  | "min_wrap_duration_ms" => some config.minWrapDurationMs
  | "challenger_bond" => some config.challengerBond
  | "jury_quorum" => some config.juryQuorum
  | "jury_threshold_bps" => some config.juryThresholdBps
  | "jury_min_stake" => some config.juryMinStake
  | "challenger_bounty_bps" => some config.challengerBountyBps
  | "dispute_window_ms" => some config.disputeWindowMs
  | "compensation_grace_ms" => some config.compensationGraceMs
  | _ => none

/-- The configuration with the parameter of this name set. -/
def withParam (config : ProtocolConfig) (v : ℕ) : String → ProtocolConfig
  | "protocol_fee_bps" => { config with protocolFeeBps := v }
  | "min_validator_stake" => { config with minValidatorStake := v }
  | "vouch_coverage_bps" => { config with vouchCoverageBps := v }
  | "entity_collateral_bps" => { config with entityCollateralBps := v }
  | "vouch_timeout_ms" => { config with vouchTimeoutMs := v }
  | "min_wrap_duration_ms" => { config with minWrapDurationMs := v }
  | "challenger_bond" => { config with challengerBond := v }
  | "jury_quorum" => { config with juryQuorum := v }
  | "jury_threshold_bps" => { config with juryThresholdBps := v }
  | "jury_min_stake" => { config with juryMinStake := v }
  | "challenger_bounty_bps" => { config with challengerBountyBps := v }
  | "dispute_window_ms" => { config with disputeWindowMs := v }
  | "compensation_grace_ms" => { config with compensationGraceMs := v }
  | _ => config

/-- The value is within the bounds of the parameter of this name. -/
def admits (v : ℕ) : String → Bool
  | "protocol_fee_bps" => v ≤ maxProtocolFeeBps
  | "vouch_coverage_bps" | "entity_collateral_bps" => 0 < v ∧ v ≤ bpsDenominator
  | "jury_threshold_bps" => minJuryThresholdBps ≤ v ∧ v ≤ maxJuryThresholdBps
  | "challenger_bounty_bps" => v ≤ maxChallengerBountyBps
  | "min_wrap_duration_ms" => true
  | _ => 0 < v

/-- What an observer makes of one more event; `none` when it contradicts the configuration the
    observer knows: a change has to start from the known value and to respect the bounds. -/
def replay (config : ProtocolConfig) : Event → Option ProtocolConfig
  | .protocolInitialized .. => none
  | .protocolParamChanged name oldValue newValue =>
    if config.param name = some oldValue ∧ admits newValue name = true then
      some (config.withParam newValue name)
    else none
  | .protocolTreasuryChanged oldTreasury newTreasury =>
    if config.treasury = oldTreasury then some { config with treasury := newTreasury } else none
  | .emergencyStopTriggered configId =>
    if config.id = configId then some (config.withPause true) else none
  | .protocolResumed configId =>
    if config.id = configId then some (config.withPause false) else none
  | _ => some config

/-- The events lead the observer from one configuration to another. -/
def ReplaysTo (config : ProtocolConfig) (events : List Event) (config' : ProtocolConfig) : Prop :=
  events.foldlM replay config = some config'

variable {config config' config'' : ProtocolConfig}

/-- Replays of two logs make a replay of both. -/
theorem ReplaysTo.append {events later : List Event} (h : config.ReplaysTo events config')
    (h' : config'.ReplaysTo later config'') : config.ReplaysTo (events ++ later) config'' := by
  unfold ReplaysTo at *
  rw [List.foldlM_append, h]
  exact h'

/-- An event of another kind changes no parameter. -/
theorem replay_other {e : Event} (h : e.kind.isGovernance = false) :
    config.replay e = some config := by
  cases e <;> first | rfl | cases h

/-- The observer passes over the events of the other modules. -/
theorem ReplaysTo.silent {events : List Event} (h : ∀ e ∈ events, e.kind.isGovernance = false) :
    config.ReplaysTo events config := by
  induction events with
  | nil => rfl
  | cons e events ih =>
    have hrest := ih fun e' he' => h e' (List.mem_cons_of_mem e he')
    unfold ReplaysTo at *
    rw [List.foldlM_cons, replay_other (h e List.mem_cons_self)]
    exact hrest

/-- The events of a setter replay to what it wrote. -/
theorem ReplaysTo.setter {c : ProtocolCall} {events : List Event}
    (h : c.run config = .ok (config', events)) : config.ReplaysTo events config' := by
  -- the setters of several parameters first, then those of one
  cases c with
  | adminSetDisputeParams new =>
    simp only [ProtocolCall.run, adminSetDisputeParams, seq_eq_ok, ensure_eq_ok, return_eq_ok,
      Prod.mk.injEq] at h
    obtain ⟨-, -, -, hbond, -, hquorum, -, hthreshold, -, hstake, -, hbounty, -, hwindow, -,
      hgrace, rfl, rfl⟩ := h
    simp [ReplaysTo, replay, param, admits, withParam, *]
  | adminSetTreasury =>
    simp only [ProtocolCall.run, adminSetTreasury, seq_eq_ok, return_eq_ok, Prod.mk.injEq] at h
    obtain ⟨-, -, rfl, rfl⟩ := h
    simp [ReplaysTo, replay]
  | adminEmergencyStop =>
    simp only [ProtocolCall.run, adminEmergencyStop, seq_eq_ok, return_eq_ok, Prod.mk.injEq] at h
    obtain ⟨-, -, rfl, rfl⟩ := h
    simp [ReplaysTo, replay, withPause]
  | adminResume =>
    simp only [ProtocolCall.run, adminResume, seq_eq_ok, return_eq_ok, Prod.mk.injEq] at h
    obtain ⟨-, -, rfl, rfl⟩ := h
    simp [ReplaysTo, replay, withPause]
  | _ =>
    obtain ⟨-, hvalid, heq⟩ := setParam_eq_ok.mp h
    obtain ⟨rfl, rfl⟩ := Prod.mk.inj heq
    simp [ReplaysTo, replay, param, admits, withParam, hvalid]

end ProtocolConfig

/-- The observer who saw the publication knows the configuration. -/
def World.Audited (admin : Address) (w : World) : Prop :=
  ∃ log, w.events = .protocolInitialized 0 admin :: log ∧
    (ProtocolConfig.init 0 admin).ReplaysTo log w.config

/-- One call keeps the world audited. -/
theorem World.Audited.call {w w' : World} {admin sender : Address} {c : Call}
    (ha : w.Audited admin) (h : w.call sender c = .ok w') : w'.Audited admin := by
  obtain ⟨log, hlog, hreplay⟩ := ha
  -- only the setters touch the configuration, and only they emit events of governance
  have hnew : ∃ es, w'.events = w.events ++ es ∧ w.config.ReplaysTo es w'.config := by
    cases c with
    | protocol c =>
      obtain ⟨-, _, es, hrun, rfl⟩ := World.protocolCall_eq_ok.mp h
      exact ⟨es, rfl, .setter hrun⟩
    | _ =>
      obtain ⟨es, hes, hkinds⟩ := World.emits h
      refine ⟨es, hes, ?_⟩
      rcases World.call_config h with hconfig | ⟨_, _, hprotocol, -⟩
      · rw [hconfig]
        exact .silent fun e he => Call.silent_kinds (by simp) _ (hkinds e he)
      · cases hprotocol
  obtain ⟨es, hes, hstep⟩ := hnew
  refine ⟨log ++ es, ?_, hreplay.append hstep⟩
  rw [hes, hlog, List.cons_append]

/-- The governance events are an audit log: replayed from the defaults they never contradict
    themselves or leave the bounds, and they end at the configuration. -/
theorem audit_log_replays {admin : Address} {actions : List Action} {w : World}
    (hrun : (World.genesis admin).run actions = .ok w) :
    ∃ log, w.events = .protocolInitialized 0 admin :: log ∧
      (ProtocolConfig.init 0 admin).ReplaysTo log w.config := by
  have hgenesis : Reachable (World.genesis admin) := ⟨admin, [], World.run_nil _⟩
  exact (World.Path.of_run hrun).preserves (P := World.Audited admin) hgenesis ⟨[], rfl, rfl⟩
    (fun _ ha _ hc => ha.call hc) fun _ ha _ => ha

namespace Sample

/-- The admin of the genesis changes a few parameters and stops the protocol. -/
def governing : List Action :=
  [.transaction 0 [.protocol (.adminSetFeeBps 250), .protocol (.adminSetTreasury 7),
    .protocol (.adminSetDisputeParams ⟨5, 3, 6000, 5, 0, 9, 9⟩), .protocol .adminEmergencyStop]]

end Sample

/-- The configuration after a few changes is the one the ten events tell. -/
theorem audit_log_replays_governing : ∃ w log,
    (World.genesis 0).run Sample.governing = .ok w ∧
    w.config.protocolFeeBps = 250 ∧ w.config.paused = true ∧ log.length = 10 ∧
    w.events = .protocolInitialized 0 0 :: log ∧
    (ProtocolConfig.init 0 0).ReplaysTo log w.config := by
  have hrun : returns ((World.genesis 0).run Sample.governing) (fun w =>
      w.config.protocolFeeBps = 250 ∧ w.config.paused = true ∧ w.events.length = 11) = true := by
    decide +kernel
  obtain ⟨w, hw, hq⟩ := returns_iff.mp hrun
  obtain ⟨hfee, hpaused, hlength⟩ := of_decide_eq_true hq
  obtain ⟨log, hlog, hreplay⟩ := audit_log_replays hw
  rw [hlog, List.length_cons] at hlength
  exact ⟨w, log, hw, hfee, hpaused, Nat.succ.inj hlength, hlog, hreplay⟩

end Gally

import Gally.Contract.Event

/-!
# Protocol governance (`protocol.move`)

The singleton `ProtocolConfig`, the setters gated by the `AdminCap`, and the
asymmetric pause. Every setter checks the version and its own bound before it
writes (`setParam`); the bounds hold of every configuration the setters can
produce (`ProtocolConfig.WithinCaps`).
-/

namespace Gally

open Checked

/-! ## Errors and constants -/

def ePaused : Abort := .code .protocol 0
def eVersionMismatch : Abort := .code .protocol 1
def eProtocolZeroAmount : Abort := .code .protocol 2
def eFeeExceedsCap : Abort := .code .protocol 100
def eProtocolInvalidBps : Abort := .code .protocol 101

/-- The package version every entry asserts. -/
def version : ℕ := 1
/-- Hard cap on the protocol fee: 10%. -/
def maxProtocolFeeBps : ℕ := 1000
/-- Jury threshold floor: a strict majority. -/
def minJuryThresholdBps : ℕ := 5001
def maxJuryThresholdBps : ℕ := 10000
/-- Hard cap on the challenger bounty: 50% of the slashed amount. -/
def maxChallengerBountyBps : ℕ := 5000

/-- Every tunable of the protocol. -/
structure ProtocolConfig where
  id : ID
  version : ℕ
  paused : Bool
  treasury : Address
  protocolFeeBps : ℕ
  minValidatorStake : ℕ
  vouchCoverageBps : ℕ
  entityCollateralBps : ℕ
  vouchTimeoutMs : ℕ
  challengerBond : ℕ
  juryQuorum : ℕ
  juryThresholdBps : ℕ
  juryMinStake : ℕ
  challengerBountyBps : ℕ
  disputeWindowMs : ℕ
  compensationGraceMs : ℕ
  minWrapDurationMs : ℕ
  deriving DecidableEq, Repr

/-- Gates parameter governance and the emergency pause. -/
structure AdminCap where
  id : ID
  deriving DecidableEq, Repr

/-- `init`: the defaults, created by `sender` at publication. -/
def ProtocolConfig.init (id : ID) (sender : Address) : ProtocolConfig where
  id := id
  version := Gally.version
  paused := false
  treasury := sender
  protocolFeeBps := 100
  minValidatorStake := 10000000000
  vouchCoverageBps := 2000
  entityCollateralBps := 1000
  vouchTimeoutMs := 2592000000
  challengerBond := 1000000000
  juryQuorum := 3
  juryThresholdBps := 6667
  juryMinStake := 10000000000
  challengerBountyBps := 1000
  disputeWindowMs := 604800000
  compensationGraceMs := 604800000
  minWrapDurationMs := 3600000

/-! ## Guards -/

def assertNotPaused (config : ProtocolConfig) : Except Abort Unit :=
  ensure (config.paused = false) ePaused

def assertVersion (config : ProtocolConfig) : Except Abort Unit :=
  ensure (config.version = version) eVersionMismatch

@[simp] theorem assertNotPaused_eq_ok {config : ProtocolConfig} {u : Unit} :
    assertNotPaused config = .ok u ↔ config.paused = false := ensure_eq_ok

@[simp] theorem assertVersion_eq_ok {config : ProtocolConfig} {u : Unit} :
    assertVersion config = .ok u ↔ config.version = version := ensure_eq_ok

/-! ## Admin functions -/

/-- The body the numeric setters share: check the version, check the new value,
    emit the change, write it. -/
def setParam (config : ProtocolConfig) (valid : Prop) [Decidable valid] (e : Abort)
    (name : String) (oldValue newValue : ℕ) (config' : ProtocolConfig) :
    Except Abort (ProtocolConfig × List Event) := do
  assertVersion config
  ensure valid e
  return (config', [.protocolParamChanged name oldValue newValue])

def adminSetFeeBps (config : ProtocolConfig) (newFeeBps : ℕ) :=
  setParam config (newFeeBps ≤ maxProtocolFeeBps) eFeeExceedsCap
    "protocol_fee_bps" config.protocolFeeBps newFeeBps
    { config with protocolFeeBps := newFeeBps }

def adminSetTreasury (config : ProtocolConfig) (newTreasury : Address) :
    Except Abort (ProtocolConfig × List Event) := do
  assertVersion config
  return ({ config with treasury := newTreasury },
    [.protocolTreasuryChanged config.treasury newTreasury])

def adminSetMinValidatorStake (config : ProtocolConfig) (newMinStake : ℕ) :=
  setParam config (0 < newMinStake) eProtocolZeroAmount
    "min_validator_stake" config.minValidatorStake newMinStake
    { config with minValidatorStake := newMinStake }

def adminSetVouchCoverageBps (config : ProtocolConfig) (newCoverageBps : ℕ) :=
  setParam config (0 < newCoverageBps ∧ newCoverageBps ≤ bpsDenominator) eProtocolInvalidBps
    "vouch_coverage_bps" config.vouchCoverageBps newCoverageBps
    { config with vouchCoverageBps := newCoverageBps }

def adminSetEntityCollateralBps (config : ProtocolConfig) (newCollateralBps : ℕ) :=
  setParam config (0 < newCollateralBps ∧ newCollateralBps ≤ bpsDenominator) eProtocolInvalidBps
    "entity_collateral_bps" config.entityCollateralBps newCollateralBps
    { config with entityCollateralBps := newCollateralBps }

def adminSetVouchTimeoutMs (config : ProtocolConfig) (newTimeoutMs : ℕ) :=
  setParam config (0 < newTimeoutMs) eProtocolZeroAmount
    "vouch_timeout_ms" config.vouchTimeoutMs newTimeoutMs
    { config with vouchTimeoutMs := newTimeoutMs }

def adminSetMinWrapDurationMs (config : ProtocolConfig) (newDurationMs : ℕ) :=
  setParam config True eProtocolZeroAmount
    "min_wrap_duration_ms" config.minWrapDurationMs newDurationMs
    { config with minWrapDurationMs := newDurationMs }

/-- The new values of `admin_set_dispute_params`. -/
structure DisputeParams where
  challengerBond : U64
  juryQuorum : U64
  juryThresholdBps : U64
  juryMinStake : U64
  challengerBountyBps : U64
  disputeWindowMs : U64
  compensationGraceMs : U64
  deriving DecidableEq, Repr

def adminSetDisputeParams (config : ProtocolConfig) (new : DisputeParams) :
    Except Abort (ProtocolConfig × List Event) := do
  assertVersion config
  ensure (0 < new.challengerBond.val) eProtocolZeroAmount
  ensure (0 < new.juryQuorum.val) eProtocolZeroAmount
  ensure (minJuryThresholdBps ≤ new.juryThresholdBps.val ∧
    new.juryThresholdBps.val ≤ maxJuryThresholdBps) eProtocolInvalidBps
  ensure (0 < new.juryMinStake.val) eProtocolZeroAmount
  ensure (new.challengerBountyBps.val ≤ maxChallengerBountyBps) eProtocolInvalidBps
  ensure (0 < new.disputeWindowMs.val) eProtocolZeroAmount
  ensure (0 < new.compensationGraceMs.val) eProtocolZeroAmount
  return ({ config with
      challengerBond := new.challengerBond.val
      juryQuorum := new.juryQuorum.val
      juryThresholdBps := new.juryThresholdBps.val
      juryMinStake := new.juryMinStake.val
      challengerBountyBps := new.challengerBountyBps.val
      disputeWindowMs := new.disputeWindowMs.val
      compensationGraceMs := new.compensationGraceMs.val },
    [.protocolParamChanged "challenger_bond" config.challengerBond new.challengerBond.val,
     .protocolParamChanged "jury_quorum" config.juryQuorum new.juryQuorum.val,
     .protocolParamChanged "jury_threshold_bps" config.juryThresholdBps new.juryThresholdBps.val,
     .protocolParamChanged "jury_min_stake" config.juryMinStake new.juryMinStake.val,
     .protocolParamChanged "challenger_bounty_bps" config.challengerBountyBps
       new.challengerBountyBps.val,
     .protocolParamChanged "dispute_window_ms" config.disputeWindowMs new.disputeWindowMs.val,
     .protocolParamChanged "compensation_grace_ms" config.compensationGraceMs
       new.compensationGraceMs.val])

/-- Halts capital entry; exits contain no pause check. -/
def adminEmergencyStop (config : ProtocolConfig) : Except Abort (ProtocolConfig × List Event) := do
  assertVersion config
  return ({ config with paused := true }, [.emergencyStopTriggered config.id])

def adminResume (config : ProtocolConfig) : Except Abort (ProtocolConfig × List Event) := do
  assertVersion config
  return ({ config with paused := false }, [.protocolResumed config.id])

/-! ## What every reachable configuration satisfies -/

/-- The hard caps of the setters, and the version nothing in the package changes. -/
structure ProtocolConfig.WithinCaps (config : ProtocolConfig) : Prop where
  version : config.version = Gally.version
  fee : config.protocolFeeBps ≤ maxProtocolFeeBps
  coverage : config.vouchCoverageBps ≤ bpsDenominator
  collateral : config.entityCollateralBps ≤ bpsDenominator
  quorum : 0 < config.juryQuorum
  threshold : minJuryThresholdBps ≤ config.juryThresholdBps
  bounty : config.challengerBountyBps ≤ maxChallengerBountyBps

/-- The configuration of a new protocol is within all caps. -/
theorem ProtocolConfig.init_withinCaps (id : ID) (sender : Address) :
    (ProtocolConfig.init id sender).WithinCaps := by
  constructor <;> simp [ProtocolConfig.init, maxProtocolFeeBps, bpsDenominator,
    minJuryThresholdBps, maxChallengerBountyBps]

/-- A successful setter wrote the new configuration and checked the new value. -/
@[simp] theorem setParam_eq_ok {config config' : ProtocolConfig} {valid : Prop} [Decidable valid]
    {e : Abort} {name : String} {oldValue newValue : ℕ} {r : ProtocolConfig × List Event} :
    setParam config valid e name oldValue newValue config' = .ok r ↔
      config.version = Gally.version ∧ valid ∧
        (config', [Event.protocolParamChanged name oldValue newValue]) = r := by
  simp only [setParam, seq_eq_ok, assertVersion_eq_ok, ensure_eq_ok, return_eq_ok, exists_and_left,
    exists_const]

end Gally

import Gally.Contract.Protocol

/-!
# Validator stake (`validator.move`)

Per-validator collateral pools. `withdrawStake` enforces the three-way floor
(status, locked coverage, registration minimum); freezing, slashing and coverage
accounting are package functions driven by vouching and by the dispute court.
Each function has one `_eq_ok` lemma that says when it succeeds and what it
returns then.
-/

namespace Gally

open Checked

/-! ## Errors and constants -/

def eStakeBelowMin : Abort := .code .validator 200
def eInsufficientFreeStake : Abort := .code .validator 201
def eValidatorNotActive : Abort := .code .validator 202
def eWrongValidatorCap : Abort := .code .validator 203
def eValidatorNotFrozen : Abort := .code .validator 204
def eValidatorMetadataTooLong : Abort := .code .validator 314

/-- Byte cap for the validator display name. -/
def maxValidatorNameBytes : ℕ := 96

/-- Per-validator collateral pool. -/
structure ValidatorPool where
  id : ID
  validator : Address
  name : Bytes
  stake : ℕ
  /-- portion committed against active vouches -/
  locked : ℕ
  activeVouches : ℕ
  status : PoolStatus
  registeredAtMs : ℕ
  deriving DecidableEq, Repr

/-- Authenticates the pool operator. -/
structure ValidatorCap where
  id : ID
  poolId : ID
  deriving DecidableEq, Repr

/-! ## Public functions -/

def registerValidator (config : ProtocolConfig) (stake : ℕ) (name : Bytes) (now : ℕ)
    (sender : Address) (poolId capId : ID) :
    Except Abort (ValidatorPool × ValidatorCap × List Event) := do
  assertVersion config
  assertNotPaused config
  ensure (config.minValidatorStake ≤ stake) eStakeBelowMin
  ensure (name.length ≤ maxValidatorNameBytes) eValidatorMetadataTooLong
  let pool : ValidatorPool :=
    { id := poolId, validator := sender, name, stake, locked := 0, activeVouches := 0,
      status := .active, registeredAtMs := now }
  return (pool, { id := capId, poolId }, [.validatorRegistered poolId sender stake name])

/-- Permissionless top-up; works even while paused. -/
def addStake (pool : ValidatorPool) (deposit : ℕ) (sender : Address) :
    Except Abort (ValidatorPool × List Event) := do
  let stake ← add64 pool.stake deposit
  return ({ pool with stake }, [.stakeAdded pool.id sender deposit stake])

def assertCap (pool : ValidatorPool) (cap : ValidatorCap) : Except Abort Unit :=
  ensure (cap.poolId = pool.id) eWrongValidatorCap

/-- Withdraws free stake; returns the pool and the coin. -/
def withdrawStake (pool : ValidatorPool) (cap : ValidatorCap) (config : ProtocolConfig)
    (amount : ℕ) : Except Abort (ValidatorPool × ℕ × List Event) := do
  assertVersion config
  assertCap pool cap
  ensure (pool.status = .active) eValidatorNotActive
  ensure (amount ≤ pool.stake) eInsufficientFreeStake
  let remainder ← sub pool.stake amount
  ensure (pool.locked ≤ remainder) eInsufficientFreeStake
  -- without a vouch the pool may be emptied
  ensure (0 < pool.activeVouches → config.minValidatorStake ≤ remainder) eInsufficientFreeStake
  let stake ← takeOut pool.stake amount
  return ({ pool with stake }, amount, [.stakeWithdrawn pool.id pool.validator amount remainder])

/-! ## Views -/

/-- Stake not committed to any vouch. -/
def freeStake (pool : ValidatorPool) : Except Abort ℕ := sub pool.stake pool.locked

def isActive (pool : ValidatorPool) : Bool := pool.status = .active

/-! ## Package functions -/

def setStatus (pool : ValidatorPool) (newStatus : PoolStatus) (disputeId : Option ID) :
    ValidatorPool × List Event :=
  ({ pool with status := newStatus },
    [.validatorStatusChanged pool.id pool.status newStatus disputeId])

/-- Commits `amount` of free stake as coverage for one vouch. -/
def lockCoverage (pool : ValidatorPool) (amount : ℕ) : Except Abort ValidatorPool := do
  ensure (pool.status = .active) eValidatorNotActive
  let free ← freeStake pool
  ensure (amount ≤ free) eInsufficientFreeStake
  let locked ← add64 pool.locked amount
  let activeVouches ← add64 pool.activeVouches 1
  return { pool with locked, activeVouches }

/-- Releases coverage when a vouch ends without fault. -/
def releaseCoverage (pool : ValidatorPool) (amount : ℕ) : Except Abort ValidatorPool := do
  -- no status check: a frozen or slashed pool releases as well
  ensure (amount ≤ pool.locked) eInsufficientFreeStake
  let locked ← sub pool.locked amount
  let activeVouches ← sub pool.activeVouches 1
  return { pool with locked, activeVouches }

/-- Credits the target's half of a rejected challenger's bond. -/
def restituteStake (pool : ValidatorPool) (funds : ℕ) : Except Abort ValidatorPool := do
  let stake ← add64 pool.stake funds
  return { pool with stake }

/-- Halts all of this pool's powers the moment a dispute opens. -/
def freezePool (pool : ValidatorPool) (disputeId : Option ID) :
    Except Abort (ValidatorPool × List Event) := do
  ensure (pool.status = .active) eValidatorNotActive
  return setStatus pool .frozen disputeId

/-- Restores a pool after a rejected or expired dispute. -/
def unfreezePool (pool : ValidatorPool) (disputeId : Option ID) :
    Except Abort (ValidatorPool × List Event) := do
  ensure (pool.status = .frozen) eValidatorNotFrozen
  return setStatus pool .active disputeId

/-- Liquidates `amount` of the pool's stake after a guilty verdict. The clamp keeps
    `locked` within the remaining stake when less than `amount` is locked. -/
def slash (pool : ValidatorPool) (amount : ℕ) (disputeId : Option ID) :
    Except Abort (ValidatorPool × ℕ × List Event) := do
  ensure (pool.status = .frozen) eValidatorNotFrozen
  ensure (amount ≤ pool.stake) eInsufficientFreeStake
  -- the vouch count stays: the slashed vouch is dead but never counted down
  let locked := if amount ≤ pool.locked then pool.locked - amount else 0
  let (pool, events) := setStatus { pool with locked } .slashed disputeId
  let stake ← takeOut pool.stake amount
  return ({ pool with stake }, amount, events)

/-! ## When the functions succeed -/

@[simp] theorem assertCap_eq_ok {pool : ValidatorPool} {cap : ValidatorCap} {u : Unit} :
    assertCap pool cap = .ok u ↔ cap.poolId = pool.id := ensure_eq_ok

/-- A pool as registration creates it. -/
def ValidatorPool.registered (id : ID) (validator : Address) (name : Bytes) (stake now : ℕ) :
    ValidatorPool :=
  { id, validator, name, stake, locked := 0, activeVouches := 0, status := .active,
    registeredAtMs := now }

/-- Everything `registerValidator` checks. -/
structure RegisterGuards (config : ProtocolConfig) (stake : ℕ) (name : Bytes) : Prop where
  version : config.version = Gally.version
  unpaused : config.paused = false
  stake : config.minValidatorStake ≤ stake
  name : name.length ≤ maxValidatorNameBytes

/-- A registration succeeds exactly when its checks hold, and creates the pool and its cap. -/
theorem registerValidator_eq_ok {config : ProtocolConfig} {stake : ℕ} {name : Bytes} {now : ℕ}
    {sender : Address} {poolId capId : ID} {r : ValidatorPool × ValidatorCap × List Event} :
    registerValidator config stake name now sender poolId capId = .ok r ↔
      RegisterGuards config stake name ∧
      r = (.registered poolId sender name stake now, { id := capId, poolId },
        [.validatorRegistered poolId sender stake name]) := by
  simp only [registerValidator, seq_eq_ok, assertVersion_eq_ok, assertNotPaused_eq_ok,
    ensure_eq_ok, return_eq_ok]
  constructor
  · rintro ⟨-, hv, -, hp, -, hs, -, hn, rfl⟩
    exact ⟨⟨hv, hp, hs, hn⟩, rfl⟩
  · rintro ⟨⟨hv, hp, hs, hn⟩, rfl⟩
    exact ⟨(), hv, (), hp, (), hs, (), hn, rfl⟩

/-- The pool with another stake. -/
def ValidatorPool.withStake (pool : ValidatorPool) (stake : ℕ) : ValidatorPool :=
  { pool with stake }

/-- Stake can be added exactly when the sum fits. -/
theorem addStake_eq_ok {pool : ValidatorPool} {deposit : ℕ} {sender : Address}
    {r : ValidatorPool × List Event} :
    addStake pool deposit sender = .ok r ↔
      pool.stake + deposit ≤ maxU64 ∧
      r = (pool.withStake (pool.stake + deposit),
        [.stakeAdded pool.id sender deposit (pool.stake + deposit)]) := by
  simp only [addStake, seq_eq_ok, add64_eq_ok, return_eq_ok]
  constructor
  · rintro ⟨_, ⟨h, rfl⟩, rfl⟩
    exact ⟨h, rfl⟩
  · rintro ⟨h, rfl⟩
    exact ⟨_, ⟨h, rfl⟩, rfl⟩

/-- Everything `withdrawStake` checks: the three-way floor. -/
structure WithdrawGuards (pool : ValidatorPool) (cap : ValidatorCap) (config : ProtocolConfig)
    (amount : ℕ) : Prop where
  version : config.version = Gally.version
  cap : cap.poolId = pool.id
  active : pool.status = .active
  stake : amount ≤ pool.stake
  locked : pool.locked ≤ pool.stake - amount
  floor : 0 < pool.activeVouches → config.minValidatorStake ≤ pool.stake - amount

/-- Stake can be withdrawn exactly when the checks hold; the rest of the pool stays. -/
theorem withdrawStake_eq_ok {pool : ValidatorPool} {cap : ValidatorCap}
    {config : ProtocolConfig} {amount : ℕ} {r : ValidatorPool × ℕ × List Event} :
    withdrawStake pool cap config amount = .ok r ↔
      WithdrawGuards pool cap config amount ∧
      r = (pool.withStake (pool.stake - amount), amount,
        [.stakeWithdrawn pool.id pool.validator amount (pool.stake - amount)]) := by
  simp only [withdrawStake, seq_eq_ok, assertVersion_eq_ok, assertCap_eq_ok, ensure_eq_ok,
    sub_eq_ok, takeOut_eq_ok, return_eq_ok]
  -- the two subtractions of the source are covered by the check of the amount
  constructor
  · rintro ⟨-, hv, -, hc, -, hs, -, ha, _, ⟨-, rfl⟩, -, hl, -, hm, _, ⟨-, rfl⟩, rfl⟩
    exact ⟨⟨hv, hc, hs, ha, hl, hm⟩, rfl⟩
  · rintro ⟨⟨hv, hc, hs, ha, hl, hm⟩, rfl⟩
    exact ⟨(), hv, (), hc, (), hs, (), ha, _, ⟨ha, rfl⟩, (), hl, (), hm, _, ⟨ha, rfl⟩, rfl⟩

/-- Coverage is locked exactly when the pool is active and its free stake suffices. -/
theorem lockCoverage_eq_ok {pool pool' : ValidatorPool} {amount : ℕ} :
    lockCoverage pool amount = .ok pool' ↔
      pool.status = .active ∧ pool.locked ≤ pool.stake ∧ amount ≤ pool.stake - pool.locked ∧
      pool.locked + amount ≤ maxU64 ∧ pool.activeVouches + 1 ≤ maxU64 ∧
      pool' = { pool with
        locked := pool.locked + amount, activeVouches := pool.activeVouches + 1 } := by
  simp only [lockCoverage, freeStake, seq_eq_ok, ensure_eq_ok, sub_eq_ok, add64_eq_ok,
    return_eq_ok]
  constructor
  · rintro ⟨-, hs, _, ⟨hl, rfl⟩, -, ha, _, ⟨h1, rfl⟩, _, ⟨h2, rfl⟩, rfl⟩
    exact ⟨hs, hl, ha, h1, h2, rfl⟩
  · rintro ⟨hs, hl, ha, h1, h2, rfl⟩
    exact ⟨(), hs, _, ⟨hl, rfl⟩, (), ha, _, ⟨h1, rfl⟩, _, ⟨h2, rfl⟩, rfl⟩

/-- Coverage is released exactly when that much is locked and the pool vouches for something. -/
theorem releaseCoverage_eq_ok {pool pool' : ValidatorPool} {amount : ℕ} :
    releaseCoverage pool amount = .ok pool' ↔
      amount ≤ pool.locked ∧ 1 ≤ pool.activeVouches ∧
      pool' = { pool with
        locked := pool.locked - amount, activeVouches := pool.activeVouches - 1 } := by
  simp only [releaseCoverage, seq_eq_ok, ensure_eq_ok, sub_eq_ok, return_eq_ok]
  constructor
  · rintro ⟨-, h, _, ⟨-, rfl⟩, _, ⟨h1, rfl⟩, rfl⟩
    exact ⟨h, h1, rfl⟩
  · rintro ⟨h, h1, rfl⟩
    exact ⟨(), h, _, ⟨h, rfl⟩, _, ⟨h1, rfl⟩, rfl⟩

/-- Stake is restituted exactly when the sum fits. -/
theorem restituteStake_eq_ok {pool pool' : ValidatorPool} {funds : ℕ} :
    restituteStake pool funds = .ok pool' ↔
      pool.stake + funds ≤ maxU64 ∧ pool' = { pool with stake := pool.stake + funds } := by
  simp only [restituteStake, seq_eq_ok, add64_eq_ok, return_eq_ok]
  constructor
  · rintro ⟨_, ⟨h, rfl⟩, rfl⟩
    exact ⟨h, rfl⟩
  · rintro ⟨h, rfl⟩
    exact ⟨_, ⟨h, rfl⟩, rfl⟩

/-- A pool is frozen exactly when it is active. -/
theorem freezePool_eq_ok {pool : ValidatorPool} {d : Option ID}
    {r : ValidatorPool × List Event} :
    freezePool pool d = .ok r ↔ pool.status = .active ∧ setStatus pool .frozen d = r := by
  simp only [freezePool, seq_eq_ok, ensure_eq_ok, return_eq_ok, exists_and_left, exists_const]

/-- A pool is unfrozen exactly when it is frozen. -/
theorem unfreezePool_eq_ok {pool : ValidatorPool} {d : Option ID}
    {r : ValidatorPool × List Event} :
    unfreezePool pool d = .ok r ↔ pool.status = .frozen ∧ setStatus pool .active d = r := by
  simp only [unfreezePool, seq_eq_ok, ensure_eq_ok, return_eq_ok, exists_and_left, exists_const]

/-- A pool is slashed exactly when it is frozen and has the stake; the locked part shrinks as far as
    it goes. -/
theorem slash_eq_ok {pool pool' : ValidatorPool} {amount out : ℕ} {d : Option ID}
    {events : List Event} :
    slash pool amount d = .ok (pool', out, events) ↔
      pool.status = .frozen ∧ amount ≤ pool.stake ∧
      pool' = { pool with
        locked := pool.locked - amount, status := .slashed, stake := pool.stake - amount } ∧
      out = amount ∧ events = [.validatorStatusChanged pool.id .frozen .slashed d] := by
  -- on natural numbers the clamp is the subtraction
  have hclamp : (if amount ≤ pool.locked then pool.locked - amount else 0) =
      pool.locked - amount := by
    split <;> omega
  simp only [slash, setStatus, hclamp, seq_eq_ok, ensure_eq_ok, takeOut_eq_ok, return_eq_ok,
    Prod.mk.injEq]
  constructor
  · rintro ⟨-, hs, -, ha, _, ⟨-, rfl⟩, rfl, rfl, rfl⟩
    exact ⟨hs, ha, rfl, rfl, by rw [hs]⟩
  · rintro ⟨hs, ha, rfl, rfl, rfl⟩
    exact ⟨(), hs, (), ha, _, ⟨ha, rfl⟩, rfl, rfl, by rw [hs]⟩

end Gally

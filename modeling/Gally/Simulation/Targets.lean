import Gally.Law.Completion
import Gally.Law.Cranks

/-!
# The targets of the simulation bot (`action.rs`, `sui_client.rs`, `daemon.rs`)

Before the bot submits a call it reads the objects concerned and asks a predicate of its own
whether they satisfy what the contract will assert. The views are what it decodes of an object;
fields that no predicate reads are left out.

## Key results

- `targets_mirror`: on the objects of a reachable world each predicate is the state check of the
  call, and what else the call asks for
- `tranche_cycle_iff`: when the three transactions about a tranche go through
-/

namespace Gally.Simulation

open Checked

/-! ## Views -/

structure TrancheView where
  deadlineMs : ℕ
  released : Bool
  hasProof : Bool
  approved : Bool
  deriving DecidableEq, Repr

structure AssetView where
  state : ℕ
  raised : ℕ
  fundingGoal : ℕ
  coverageLocked : ℕ
  disputed : Bool
  nextTranche : ℕ
  accumulatorId : Option ID
  validatorPoolId : Option ID
  tranches : List TrancheView
  deriving DecidableEq, Repr

structure AccumulatorView where
  totalMintedShares : ℕ
  totalWrappedShares : ℕ
  rolloverReserve : ℕ
  compensationPool : ℕ
  compensationUnlockMs : ℕ
  closed : Bool
  deriving DecidableEq, Repr

/-- The yield-earning denominator; the subtraction saturates. -/
def AccumulatorView.unwrappedSupply (acc : AccumulatorView) : ℕ :=
  acc.totalMintedShares - acc.totalWrappedShares

structure PoolView where
  stake : ℕ
  locked : ℕ
  activeVouches : ℕ
  status : ℕ
  deriving DecidableEq, Repr

def trancheView (t : Tranche) : TrancheView where
  deadlineMs := t.deadlineMs
  released := t.released
  hasProof := t.proof.isSome
  approved := t.approvedBy.isSome

def assetFullView (asset : Asset) : AssetView where
  state := asset.state.code
  raised := asset.raised
  fundingGoal := asset.fundingGoal
  coverageLocked := asset.coverageLocked
  disputed := asset.disputed
  nextTranche := asset.nextTranche
  accumulatorId := asset.accumulatorId
  validatorPoolId := asset.validatorPoolId
  tranches := asset.tranches.map trancheView

def accumulatorView (acc : GlobalYieldAccumulator) : AccumulatorView where
  totalMintedShares := acc.totalMintedShares
  totalWrappedShares := acc.totalWrappedShares
  rolloverReserve := acc.rolloverReserve
  compensationPool := acc.compensationPool
  compensationUnlockMs := acc.compensationUnlockMs
  closed := acc.closed

def poolView (pool : ValidatorPool) : PoolView where
  stake := pool.stake
  locked := pool.locked
  activeVouches := pool.activeVouches
  status := pool.status.code

/-! ## Predicates -/

def stFunding : ℕ := 1
def stExecuting : ℕ := 4
def stOperational : ℕ := 5
def stCompensating : ℕ := 6

def canContribute (v : AssetView) : Bool :=
  v.state == stFunding && v.raised < v.fundingGoal

def canFinalize (v : AssetView) : Bool :=
  v.state == stFunding && v.fundingGoal > 0 && v.raised == v.fundingGoal

def canDepositRevenue (v : AssetView) : Bool :=
  v.state == stOperational && v.accumulatorId.isSome

def canRunTranche (v : AssetView) : Bool :=
  v.state == stExecuting && !v.disputed && v.nextTranche < v.tranches.length &&
    !(v.tranches[v.nextTranche]?.map (·.released)).getD true

def canFlagDefault (v : AssetView) (nowMs : ℕ) : Bool :=
  v.state == stExecuting && v.accumulatorId.isSome &&
    (v.tranches[v.nextTranche]?.map fun t => !t.approved && nowMs > t.deadlineMs).getD false

def canOpenDispute (v : AssetView) : Bool :=
  (v.state == stExecuting || v.state == stOperational) && v.coverageLocked > 0 && !v.disputed &&
    v.accumulatorId.isSome && v.validatorPoolId.isSome

def canCloseAfterCompensation (v : AssetView) (acc : AccumulatorView) (nowMs : ℕ) : Bool :=
  v.state == stCompensating && acc.compensationPool == 0 && nowMs ≥ acc.compensationUnlockMs

def canSweepCompensation (acc : AccumulatorView) (nowMs : ℕ) : Bool :=
  !acc.closed && acc.compensationPool > 0 && nowMs ≥ acc.compensationUnlockMs

def canSweepRollover (acc : AccumulatorView) : Bool :=
  acc.rolloverReserve > 0 && acc.unwrappedSupply > 0

def canRedeem (acc : AccumulatorView) : Bool :=
  acc.closed

/-- μUSDC that the bot adds to a stake or takes from it (`STAKE_CHUNK`). -/
def stakeChunk : U64 := 5000000000

/-- The test before a withdrawal in `do_stake`. -/
def canWithdraw (v : PoolView) : Bool :=
  v.status == 0 && v.activeVouches == 0 && v.stake - v.locked > stakeChunk.val

/-! ## What the predicates say of an object -/

section Views

variable {asset : Asset} {acc : GlobalYieldAccumulator} {now : ℕ}

@[simp] theorem code_eq_funding : asset.state.code = stFunding ↔ asset.state = .funding := by
  cases asset.state <;> decide

@[simp] theorem code_eq_executing : asset.state.code = stExecuting ↔ asset.state = .executing := by
  cases asset.state <;> decide

@[simp] theorem code_eq_operational :
    asset.state.code = stOperational ↔ asset.state = .operational := by
  cases asset.state <;> decide

@[simp] theorem code_eq_compensating :
    asset.state.code = stCompensating ↔ asset.state = .compensating := by
  cases asset.state <;> decide

/-- What the bot asks before it contributes, on the chain's asset. -/
theorem canContribute_view : canContribute (assetFullView asset) = true ↔
    asset.state = .funding ∧ asset.raised < asset.fundingGoal := by
  simp only [canContribute, Bool.and_eq_true, beq_iff_eq, decide_eq_true_eq]
  exact and_congr_left' code_eq_funding

/-- What the bot asks before it finalizes, on the chain's asset. -/
theorem canFinalize_view : canFinalize (assetFullView asset) = true ↔
    asset.state = .funding ∧ 0 < asset.fundingGoal ∧ asset.raised = asset.fundingGoal := by
  simp [canFinalize, assetFullView, and_assoc]

/-- What the bot asks before it deposits revenue, on the chain's asset. -/
theorem canDepositRevenue_view : canDepositRevenue (assetFullView asset) = true ↔
    asset.state = .operational ∧ asset.accumulatorId.isSome := by
  simp [canDepositRevenue, assetFullView]

/-- What the bot asks before it runs a tranche, on the chain's asset. -/
theorem canRunTranche_view : canRunTranche (assetFullView asset) = true ↔
    asset.state = .executing ∧ asset.disputed = false ∧
      ∃ t, asset.tranches[asset.nextTranche]? = some t ∧ t.released = false := by
  cases h : asset.tranches[asset.nextTranche]? with
  | none => simp [canRunTranche, assetFullView, h]
  | some t =>
    obtain ⟨hlt, hget⟩ := List.getElem?_eq_some_iff.mp h
    simp [canRunTranche, assetFullView, hlt, hget, trancheView, and_assoc]

/-- What the bot asks before it flags a default, on the chain's asset. -/
theorem canFlagDefault_view : canFlagDefault (assetFullView asset) now = true ↔
    asset.state = .executing ∧ asset.accumulatorId.isSome ∧ asset.InDefault now := by
  cases h : asset.tranches[asset.nextTranche]? with
  | none => simp [canFlagDefault, assetFullView, h, Asset.InDefault]
  | some t => simp [canFlagDefault, assetFullView, h, trancheView, Asset.InDefault, and_assoc]

/-- What the bot asks before it opens a dispute, on the chain's asset. -/
theorem canOpenDispute_view : canOpenDispute (assetFullView asset) = true ↔
    (asset.state = .executing ∨ asset.state = .operational) ∧ 0 < asset.coverageLocked ∧
      asset.disputed = false ∧ asset.accumulatorId.isSome ∧ asset.validatorPoolId.isSome := by
  simp [canOpenDispute, assetFullView, and_assoc]

/-- What the bot asks before it closes a compensated asset, on the chain's objects. -/
theorem canCloseAfterCompensation_view :
    canCloseAfterCompensation (assetFullView asset) (accumulatorView acc) now = true ↔
      asset.state = .compensating ∧ acc.compensationPool = 0 ∧ acc.compensationUnlockMs ≤ now := by
  simp [canCloseAfterCompensation, assetFullView, accumulatorView, and_assoc]

/-- What the bot asks before it sweeps a compensation pool, on the chain's accumulator. -/
theorem canSweepCompensation_view : canSweepCompensation (accumulatorView acc) now = true ↔
    acc.closed = false ∧ 0 < acc.compensationPool ∧ acc.compensationUnlockMs ≤ now := by
  simp [canSweepCompensation, accumulatorView, and_assoc]

/-- What the bot asks before it sweeps a rollover reserve, on the chain's accumulator. -/
theorem canSweepRollover_view : canSweepRollover (accumulatorView acc) = true ↔
    0 < acc.rolloverReserve ∧ 0 < acc.unwrapped := by
  simp [canSweepRollover, accumulatorView, AccumulatorView.unwrappedSupply,
    GlobalYieldAccumulator.unwrapped]

end Views

/-! ## Predicates and calls -/

section Calls

variable {w : World} {a g p : ID} {asset : Asset} {acc : GlobalYieldAccumulator}
  {pool : ValidatorPool} {sender : Address}

/-- A contribution succeeds exactly when the bot would make it, nothing is paused, the raise is in
    time and the payer has a positive payment. -/
theorem contribute_iff (hw : Reachable w) (hasset : w.assets.get? a = some asset) (payment : U64) :
    Succeeds (w.call sender (.asset (.contributeCapital a payment))) ↔
      canContribute (assetFullView asset) = true ∧ w.config.paused = false ∧
        w.clockMs < asset.fundingDeadlineMs ∧ 0 < payment.val ∧
        payment.val ≤ w.wallets.balance sender := by
  rw [canContribute_view]
  constructor
  · intro ⟨w', h⟩
    cases World.callAsset_eq_ok.mp h with
    | contributeCapital hasset' funds guards =>
      obtain rfl := Option.some.inj (hasset.symm.trans hasset')
      exact ⟨⟨guards.state, guards.unmet⟩, guards.unpaused, guards.inTime, guards.positive, funds⟩
  · intro ⟨⟨hstate, hunmet⟩, hpaused, htime, hpos, hfunds⟩
    obtain ⟨hescrow, -, -⟩ := (hw.custodied hasset).raising (Or.inl hstate)
    have hfits : asset.fundingGoal ≤ maxU64 := (hw.sound hasset).scheduled.goalFits
    have haccepts : asset.accepts payment.val ≤ asset.fundingGoal - asset.raised :=
      Nat.min_le_right ..
    -- what is accepted fits under the goal, so no counter overflows
    have guards : ContributeGuards asset w.config w.clockMs payment.val := {
      version := hw.withinCaps.version, unpaused := hpaused, state := hstate, inTime := htime
      unmet := hunmet, positive := hpos, escrow := by omega, raised := by omega }
    exact ⟨_, World.callAsset_eq_ok.mpr (.contributeCapital hasset hfunds guards
      (contributeCapital_eq_ok.mpr ⟨guards, rfl⟩))⟩

/-- The token is the next of the pool: its cap is virgin, and it has 6 decimals. -/
theorem finalize_iff (hw : Reachable w) (hasset : w.assets.get? a = some asset) {token : TypeTag}
    {cap : TreasuryCap} {metadata : CoinMetadata} (hown : w.owner .treasuryCap token = sender)
    (hcap : w.treasuryCaps.get? token = some cap) (hmeta : w.metadata.get? token = some metadata)
    (hvirgin : cap.totalSupply = 0) (hdecimals : metadata.decimals = 6) :
    Succeeds (w.call sender (.asset (.finalizeSuccessfulRaise a token))) ↔
      canFinalize (assetFullView asset) = true ∧ w.clockMs ≤ asset.fundingDeadlineMs := by
  rw [canFinalize_view]
  constructor
  · intro ⟨w', h⟩
    cases World.callAsset_eq_ok.mp h with
    | finalizeSuccessfulRaise hasset' _ _ _ guards =>
      obtain rfl := Option.some.inj (hasset.symm.trans hasset')
      exact ⟨⟨guards.state, (hw.sound hasset).scheduled.goal, guards.met⟩, guards.inTime⟩
  · rintro ⟨⟨hstate, -, hmet⟩, htime⟩
    -- a reachable asset has a positive goal, which the bot asks for and the chain need not
    have guards : FinalizeGuards asset w.config cap metadata w.clockMs := {
      version := hw.withinCaps.version, state := hstate, met := hmet, inTime := htime
      decimals := hdecimals, virgin := hvirgin }
    exact ⟨_, World.callAsset_eq_ok.mpr (.finalizeSuccessfulRaise hasset hown hcap hmeta guards
      (finalizeSuccessfulRaise_eq_ok.mpr ⟨guards, rfl⟩))⟩

/-- Beyond the predicate a deposit needs the protocol unpaused, the funds, and two counters of the
    accumulator with room for it. -/
theorem deposit_iff (hw : Reachable w) (hasset : w.assets.get? a = some asset)
    (hg : asset.accumulatorId = some g) (hacc : w.accumulators.get? g = some acc) (payment : U64) :
    Succeeds (w.call sender (.asset (.depositRevenue a g payment))) ↔
      canDepositRevenue (assetFullView asset) = true ∧ w.config.paused = false ∧
        0 < payment.val ∧ payment.val ≤ w.wallets.balance sender ∧
        acc.lifetimeInvestorRevenue + asset.investorPortion w.config payment.val ≤ maxU64 ∧
        acc.SweepRoom := by
  rw [canDepositRevenue_view]
  constructor
  · intro ⟨w', h⟩
    cases World.callAsset_eq_ok.mp h with
    | depositRevenue hasset' hacc' funds guards deposited =>
      obtain rfl := Option.some.inj (hasset.symm.trans hasset')
      obtain rfl := Option.some.inj (hacc.symm.trans hacc')
      refine ⟨⟨guards.state, hg ▸ rfl⟩, guards.unpaused, guards.positive, funds,
        deposited.lifetime, ?_⟩
      rcases deposited.routed with ⟨hzero, -, -⟩ | ⟨-, hadvance, -⟩
      · exact Or.inl hzero
      · exact Or.inr hadvance.dust
  · rintro ⟨⟨hstate, -⟩, hpaused, hpos, hfunds, hlifetime, hroom⟩
    obtain ⟨acc', hacc', hlinked⟩ := hw.linked.acc hasset hg
    obtain rfl := Option.some.inj (hacc.symm.trans hacc')
    have hid : asset.id = a := Store.key_of_get? hasset
    have hfee : w.config.fee payment.val ≤ payment.val :=
      mulBps_le (Nat.le_trans hw.withinCaps.fee (by decide))
    have hportion : asset.investorPortion w.config payment.val ≤
        payment.val - w.config.fee payment.val := mulBps_le (hw.split_le hasset)
    have hle := Nat.le_trans hportion (Nat.sub_le _ _)
    have guards : DepositGuards asset acc w.config payment.val := {
      version := hw.withinCaps.version, unpaused := hpaused, state := hstate
      linked := hlinked.trans hid.symm, positive := hpos
      feeFits := Nat.le_trans hfee (U64.val_le payment), fee := hfee
      portionFits := Nat.le_trans hle (U64.val_le payment), portion := hportion }
    -- what a deposit asks of the accumulator does not depend on the return target
    have hrepaid : w.RepaidBy { asset with returnTarget := 0 } acc payment := {
      positive := hpos, available := Or.inr ⟨sender, hfunds⟩, lifetime := hlifetime
      reaches := Nat.zero_le _, room := hroom }
    obtain ⟨acc', hdeposited⟩ := hw.deposited hacc hrepaid hfunds hle
    exact ⟨_, World.callAsset_eq_ok.mpr (.depositRevenue hasset hacc hfunds guards hdeposited
      (depositRevenue_eq_ok.mpr ⟨guards, acc', hdeposited, rfl⟩))⟩

/-- A default is flagged exactly when the bot would flag it and the grace period can be added to the
    clock. -/
theorem flagDefault_iff (hw : Reachable w) (hasset : w.assets.get? a = some asset)
    (hg : asset.accumulatorId = some g) :
    Succeeds (w.call sender (.asset (.flagDefault a g))) ↔
      canFlagDefault (assetFullView asset) w.clockMs = true ∧
        w.clockMs + w.config.compensationGraceMs ≤ maxU64 := by
  rw [canFlagDefault_view]
  constructor
  · intro h
    obtain ⟨hstate, hlate, hfits⟩ := (hw.canFlag_iff hasset).mp ⟨sender, g, h⟩
    exact ⟨⟨hstate, hg ▸ rfl, hlate⟩, hfits⟩
  · rintro ⟨⟨hstate, -, hlate⟩, hfits⟩
    obtain ⟨t, ht, hunapproved, hmissed⟩ := hlate
    obtain ⟨g', hflag⟩ := hw.flags hasset hstate ht hmissed hunapproved hfits
    obtain ⟨w', hcall, -⟩ := hflag sender
    -- the accumulator of the call can only be the one of the asset
    have hsame : g' = g := by
      cases World.callAsset_eq_ok.mp hcall with
      | flagDefault hasset' hacc' guards =>
        obtain rfl := Option.some.inj (hasset.symm.trans hasset')
        exact Option.some.inj ((hw.linked.accumulatorId hasset hacc' guards.linked).symm.trans hg)
    exact ⟨w', hsame ▸ hcall⟩

/-- Beyond the predicate a dispute needs the pool ACTIVE; a dispute about another asset freezes
    it. -/
theorem openDispute_iff (hw : Reachable w) (hasset : w.assets.get? a = some asset)
    (hg : asset.accumulatorId = some g) (hp : asset.validatorPoolId = some p)
    (hpool : w.pools.get? p = some pool) {bond : U64} {evidence : WalrusRef} {reason : Bytes}
    (hbond : bond.val = w.config.challengerBond) (hfunds : bond.val ≤ w.wallets.balance sender)
    (hreason : reason.length ≤ maxReasonBytes) :
    Succeeds (w.call sender (.dispute (.initializeDispute a p g bond evidence reason))) ↔
      canOpenDispute (assetFullView asset) = true ∧ pool.status = .active ∧
        w.clockMs + w.config.disputeWindowMs ≤ maxU64 := by
  rw [canOpenDispute_view]
  constructor
  · intro ⟨w', h⟩
    cases World.callDispute_eq_ok.mp h with
    | initializeDispute hasset' hpool' _ _ guards =>
      obtain rfl := Option.some.inj (hasset.symm.trans hasset')
      obtain rfl := Option.some.inj (hpool.symm.trans hpool')
      exact ⟨⟨guards.state, guards.covered, guards.undisputed, hg ▸ rfl, hp ▸ rfl⟩, guards.active,
        guards.deadline⟩
  · rintro ⟨⟨hstate, hcovered, hflag, -, -⟩, hactive, hwindow⟩
    -- the remaining guards hold of every reachable world
    obtain ⟨acc, hacc, hguards⟩ :=
      hw.challengeable hasset hg hpool hp hstate hcovered hflag hactive hwindow
    have guards := hguards bond.val reason hbond hreason
    exact ⟨_, World.callDispute_eq_ok.mpr (.initializeDispute hasset hpool hacc hfunds guards
      (initializeDispute_eq_ok.mpr ⟨guards, rfl⟩))⟩

/-- A compensated asset is closed exactly when the bot would close it. -/
theorem closeAfterCompensation_iff (hw : Reachable w) (hasset : w.assets.get? a = some asset)
    (hg : asset.accumulatorId = some g) (hacc : w.accumulators.get? g = some acc) :
    Succeeds (w.call sender (.asset (.closeAfterCompensation a g))) ↔
      canCloseAfterCompensation (assetFullView asset) (accumulatorView acc) w.clockMs = true := by
  rw [canCloseAfterCompensation_view]
  constructor
  · intro ⟨w', h⟩
    cases World.callAsset_eq_ok.mp h with
    | closeAfterCompensation hasset' hacc' guards due =>
      obtain rfl := Option.some.inj (hasset.symm.trans hasset')
      obtain rfl := Option.some.inj (hacc.symm.trans hacc')
      -- of the three ways to close only this one is from COMPENSATING
      cases guards with
      | compensation hstate _ hswept => exact ⟨hstate, hswept, due⟩
  · intro ⟨hstate, hswept, hdue⟩
    -- the accumulator that is passed in is the asset's own
    obtain ⟨acc', hacc', hlinked⟩ := hw.linked.acc hasset hg
    obtain rfl := Option.some.inj (hacc.symm.trans hacc')
    have hid : asset.id = a := Store.key_of_get? hasset
    have guards : CloseGuards asset acc .compensation :=
      .compensation hstate (hlinked.trans hid.symm) hswept
    exact ⟨_, World.callAsset_eq_ok.mpr (.closeAfterCompensation hasset hacc guards hdue
      (closeAfterCompensation_eq_ok.mpr ⟨hw.withinCaps.version, hdue, guards, rfl⟩))⟩

/-- The bot leaves the pool of a closed accumulator alone, which the contract does not ask for. -/
theorem sweepCompensation_iff (hw : Reachable w) (hacc : w.accumulators.get? g = some acc) :
    canSweepCompensation (accumulatorView acc) w.clockMs = true ∧ acc.SweepRoom ↔
      acc.closed = false ∧ Succeeds (w.call sender (.accumulator (.sweepCompensation g))) := by
  rw [canSweepCompensation_view]
  constructor
  · intro ⟨⟨hopen, hpool, hdue⟩, hroom⟩
    exact ⟨hopen, (hw.sweep_iff hacc hpool sender).mpr ⟨hdue, hroom⟩⟩
  · intro ⟨hopen, h⟩
    obtain ⟨w', hcall⟩ := h
    -- an accumulator that sweeps has something in its pool
    have hpool : 0 < acc.compensationPool := by
      cases World.callAccumulator_eq_ok.mp hcall with
      | sweepCompensation hacc' _ positive =>
        obtain rfl := Option.some.inj (hacc.symm.trans hacc')
        exact positive
    obtain ⟨hdue, hroom⟩ := (hw.sweep_iff hacc hpool sender).mp ⟨w', hcall⟩
    exact ⟨⟨hopen, hpool, hdue⟩, hroom⟩

/-- The bot never sweeps parked revenue: what is parked has nobody to earn it. -/
theorem not_canSweepRollover (hw : Reachable w) (hacc : w.accumulators.get? g = some acc) :
    canSweepRollover (accumulatorView acc) = false ∧
      ¬ Succeeds (w.call sender (.accumulator (.sweepRollover g))) := by
  constructor
  · rw [Bool.eq_false_iff, ne_eq, canSweepRollover_view]
    intro ⟨hparked, hunwrapped⟩
    exact Nat.ne_of_gt hunwrapped (hw.idle hacc hparked)
  · intro h
    exact hw.not_canSweepRollover acc.assetId ⟨sender, g, acc, hacc, rfl, h⟩

/-- The owner of a share redeems it exactly when the bot would, unless the dust counter is full. -/
theorem redeem_iff (hw : Reachable w) (hacc : w.accumulators.get? g = some acc) {s : ID}
    {share : GallyShare} (hshare : w.shares.get? s = some share)
    (hown : w.owner .share s = sender) (ha : share.assetId = acc.assetId) :
    Succeeds (w.call sender (.accumulator (.redeemShare g s))) ↔
      canRedeem (accumulatorView acc) = true ∧
        (share.yieldClaimedIndex < acc.cumulativeYieldIndex → acc.dustBound + 1 ≤ maxU64) := by
  constructor
  · intro ⟨w', h⟩
    cases World.callAccumulator_eq_ok.mp h with
    | redeemShare hacc' _ hshare' guards =>
      obtain rfl := Option.some.inj (hacc.symm.trans hacc')
      obtain rfl := Option.some.inj (hshare.symm.trans hshare')
      exact ⟨guards.closed, guards.claim.dust⟩
  · intro ⟨hclosed, hdust⟩
    obtain ⟨hb, hsolvent, hfits⟩ := (hw.replay hacc).sound
    have hmem := World.mem_shares hshare ha
    -- a held share's claim is funded and fits, by solvency
    obtain ⟨-, hproduct, hpayout, hfunded⟩ := hb.pending hsolvent hfits hmem
    have hclaim : Gally.ClaimGuards acc share := {
      asset := ha, snapshot := hb.snapshots share hmem, dust := hdust, product := hproduct
      fits := hpayout, funded := hfunded }
    have guards : RedeemGuards acc share := ⟨hclosed, hclaim, hb.shareCount_le hmem⟩
    exact ⟨_, World.callAccumulator_eq_ok.mpr (.redeemShare hacc hown hshare guards
      (redeemShare_eq_ok.mpr ⟨guards, rfl⟩))⟩

/-- A withdrawal that passes the test of the bot succeeds. -/
theorem withdraw_succeeds (hw : Reachable w) (hpool : w.pools.get? p = some pool) {c : ID}
    {cap : ValidatorCap} (hown : w.owner .soulbound c = sender)
    (hcap : w.validatorCaps.get? c = some cap) (hbelongs : cap.poolId = pool.id)
    (h : canWithdraw (poolView pool) = true) :
    Succeeds (w.call sender (.validator (.withdrawStake p c stakeChunk))) := by
  -- what the bot asks, in the terms of the pool
  have hactive : pool.status = .active ∧ pool.activeVouches = 0 ∧
      stakeChunk.val < pool.stake - pool.locked := by
    have hcode : pool.status.code = 0 ↔ pool.status = .active := by cases pool.status <;> decide
    simpa [canWithdraw, poolView, hcode, and_assoc] using h
  obtain ⟨hstatus, hvouches, hfree⟩ := hactive
  have guards : WithdrawGuards pool cap w.config stakeChunk.val := {
    version := hw.withinCaps.version, cap := hbelongs, active := hstatus
    stake := by omega, locked := by omega, floor := fun hpos => by omega }
  exact ⟨_, World.validatorCall_eq_ok.mpr (.withdrawStake hpool hown hcap guards
    (withdrawStake_eq_ok.mpr ⟨guards, rfl⟩))⟩

end Calls

/-- Each predicate of the bot, asked about the objects of `w`, and the call that it guards. -/
structure TargetsMirror (w : World) (sender : Address) : Prop where
  contribute : ∀ a asset, w.assets.get? a = some asset → ∀ payment : U64,
    (Succeeds (w.call sender (.asset (.contributeCapital a payment))) ↔
      canContribute (assetFullView asset) = true ∧ w.config.paused = false ∧
        w.clockMs < asset.fundingDeadlineMs ∧ 0 < payment.val ∧
        payment.val ≤ w.wallets.balance sender)
  finalize : ∀ a asset token cap metadata, w.assets.get? a = some asset →
    w.owner .treasuryCap token = sender → w.treasuryCaps.get? token = some cap →
    w.metadata.get? token = some metadata → cap.totalSupply = 0 → metadata.decimals = 6 →
    (Succeeds (w.call sender (.asset (.finalizeSuccessfulRaise a token))) ↔
      canFinalize (assetFullView asset) = true ∧ w.clockMs ≤ asset.fundingDeadlineMs)
  depositRevenue : ∀ a asset g acc, w.assets.get? a = some asset → asset.accumulatorId = some g →
    w.accumulators.get? g = some acc → ∀ payment : U64,
    (Succeeds (w.call sender (.asset (.depositRevenue a g payment))) ↔
      canDepositRevenue (assetFullView asset) = true ∧ w.config.paused = false ∧
        0 < payment.val ∧ payment.val ≤ w.wallets.balance sender ∧
        acc.lifetimeInvestorRevenue + asset.investorPortion w.config payment.val ≤ maxU64 ∧
        acc.SweepRoom)
  flagDefault : ∀ a asset g, w.assets.get? a = some asset → asset.accumulatorId = some g →
    (Succeeds (w.call sender (.asset (.flagDefault a g))) ↔
      canFlagDefault (assetFullView asset) w.clockMs = true ∧
        w.clockMs + w.config.compensationGraceMs ≤ maxU64)
  openDispute : ∀ a asset g p pool, w.assets.get? a = some asset → asset.accumulatorId = some g →
    asset.validatorPoolId = some p → w.pools.get? p = some pool →
    ∀ (bond : U64) (evidence : WalrusRef) (reason : Bytes), bond.val = w.config.challengerBond →
    bond.val ≤ w.wallets.balance sender → reason.length ≤ maxReasonBytes →
    (Succeeds (w.call sender (.dispute (.initializeDispute a p g bond evidence reason))) ↔
      canOpenDispute (assetFullView asset) = true ∧ pool.status = .active ∧
        w.clockMs + w.config.disputeWindowMs ≤ maxU64)
  close : ∀ a asset g acc, w.assets.get? a = some asset → asset.accumulatorId = some g →
    w.accumulators.get? g = some acc →
    (Succeeds (w.call sender (.asset (.closeAfterCompensation a g))) ↔
      canCloseAfterCompensation (assetFullView asset) (accumulatorView acc) w.clockMs = true)
  sweepCompensation : ∀ g acc, w.accumulators.get? g = some acc →
    (canSweepCompensation (accumulatorView acc) w.clockMs = true ∧ acc.SweepRoom ↔
      acc.closed = false ∧ Succeeds (w.call sender (.accumulator (.sweepCompensation g))))
  sweepRollover : ∀ g acc, w.accumulators.get? g = some acc →
    canSweepRollover (accumulatorView acc) = false ∧
      ¬ Succeeds (w.call sender (.accumulator (.sweepRollover g)))
  redeem : ∀ g acc s share, w.accumulators.get? g = some acc → w.shares.get? s = some share →
    w.owner .share s = sender → share.assetId = acc.assetId →
    (Succeeds (w.call sender (.accumulator (.redeemShare g s))) ↔
      canRedeem (accumulatorView acc) = true ∧
        (share.yieldClaimedIndex < acc.cumulativeYieldIndex → acc.dustBound + 1 ≤ maxU64))
  withdraw : ∀ p pool c cap, w.pools.get? p = some pool → w.owner .soulbound c = sender →
    w.validatorCaps.get? c = some cap → cap.poolId = pool.id →
    canWithdraw (poolView pool) = true →
    Succeeds (w.call sender (.validator (.withdrawStake p c stakeChunk)))

/-- What the bot asks before a call is what the contract asserts of the state; what else the call
    needs is named. Parked revenue is never offered for a sweep, and a closed accumulator not
    either. -/
theorem targets_mirror {w : World} (hw : Reachable w) (sender : Address) :
    TargetsMirror w sender where
  contribute _ _ hasset payment := contribute_iff hw hasset payment
  finalize _ _ _ _ _ hasset hown hcap hmeta hvirgin hdecimals :=
    finalize_iff hw hasset hown hcap hmeta hvirgin hdecimals
  depositRevenue _ _ _ _ hasset hg hacc payment := deposit_iff hw hasset hg hacc payment
  flagDefault _ _ _ hasset hg := flagDefault_iff hw hasset hg
  openDispute _ _ _ _ _ hasset hg hp hpool _ _ _ hbond hfunds hreason :=
    openDispute_iff hw hasset hg hp hpool hbond hfunds hreason
  close _ _ _ _ hasset hg hacc := closeAfterCompensation_iff hw hasset hg hacc
  sweepCompensation _ _ hacc := sweepCompensation_iff hw hacc
  sweepRollover _ _ hacc := not_canSweepRollover hw hacc
  redeem _ _ _ _ hacc hshare hown ha := redeem_iff hw hacc hshare hown ha
  withdraw _ _ _ _ hpool hown hcap hbelongs h := withdraw_succeeds hw hpool hown hcap hbelongs h

/-- Asset 4 earns and takes a deposit. -/
theorem targets_mirror_earning : ∃ w, (World.genesis 0).run Sample.earning = .ok w ∧
    TargetsMirror w 2 ∧ Succeeds (w.call 2 (.asset (.depositRevenue 4 8 100))) := by
  have hrun : returns ((World.genesis 0).run Sample.earning) (fun w =>
      w.config.paused = false ∧ 100 ≤ w.wallets.balance 2 ∧
      ∃ asset ∈ w.assets.get? 4, ∃ acc ∈ w.accumulators.get? 8,
        asset.accumulatorId = some 8 ∧ canDepositRevenue (assetFullView asset) = true ∧
        acc.lifetimeInvestorRevenue + asset.investorPortion w.config 100 ≤ 1000 ∧
        acc.dustBound + acc.unwrapped / scale + 1 ≤ 1000) = true := by
    decide +kernel
  obtain ⟨w, hw, hq⟩ := returns_iff.mp hrun
  obtain ⟨hpaused, hfunds, asset, hasset, acc, hacc, hg, hcan, hlifetime, hdust⟩ :=
    of_decide_eq_true hq
  -- the mirror's own condition, from the values read above
  have hmirror := targets_mirror ⟨0, _, hw⟩ 2
  have hbound : 1000 ≤ maxU64 := by
    unfold maxU64
    decide
  exact ⟨w, hw, hmirror, (hmirror.depositRevenue 4 asset 8 acc hasset hg hacc 100).mpr
    ⟨hcan, hpaused, by decide, hfunds, hlifetime.trans hbound, Or.inr (hdust.trans hbound)⟩⟩

/-! ## The tranche cycle -/

/-- The proof that the bot submits. -/
def milestoneProof (op : Address) : WalrusRef where
  blobId := [5, 5]
  sha256 := [6, 6]
  attestedBy := op

/-- The transactions of `do_tranche_cycle`, which skips the steps that are done. The tranche of
    every call is tranche 0. -/
def trancheCycle (op : Address) (a p entityCap validatorCap : ID) (v : AssetView) : List Action :=
  let tr := v.tranches[v.nextTranche]?
  let hasProof := (tr.map (·.hasProof)).getD false
  let approved := (tr.map (·.approved)).getD false
  (if hasProof then [] else
    [.transaction op [.asset (.submitMilestoneProof a entityCap 0 (milestoneProof op))]]) ++
  (if approved then [] else
    [.transaction op [.asset (.approveMilestone a p validatorCap 0)]]) ++
  [.transaction op [.asset (.releaseFundingTranche a entityCap 0)]]

section Cycle

variable {w : World} {a p c v : ID} {asset : Asset} {pool : ValidatorPool} {op : Address}
  {t : Tranche}

/-- A list of transactions of one call each succeeds when its first does and the rest does after
    it. -/
theorem succeeds_cons {call : Call} {actions : List Action} :
    Succeeds (w.run (.transaction op [call] :: actions)) ↔
      ∃ u, w.call op call = .ok u ∧ Succeeds (u.run actions) := by
  constructor
  · intro h
    obtain ⟨w', h⟩ := h
    obtain ⟨u, hstep, hrun⟩ := Run.exec_cons_eq_ok.mp h
    simp only [World.step, Run.exec_cons_eq_ok, Run.exec_nil_eq_ok] at hstep
    obtain ⟨u', hcall, rfl⟩ := hstep
    exact ⟨_, hcall, w', hrun⟩
  · intro h
    obtain ⟨u, hcall, w', hrun⟩ := h
    exact ⟨w', World.run_call hcall hrun⟩

/-- The operator is about to make the calls about the next tranche `t` of an EXECUTING asset that
    is not disputed, with the capabilities of the asset and of a pool. -/
structure Operates (w : World) (op : Address) (a p c v : ID) (asset : Asset) (pool : ValidatorPool)
    (t : Tranche) : Prop where
  reachable : Reachable w
  hasset : w.assets.get? a = some asset
  hpool : w.pools.get? p = some pool
  ownCap : w.owner .soulbound c = op
  cap : ∃ cap, w.entityCaps.get? c = some cap ∧ cap.assetId = asset.id
  ownVcap : w.owner .soulbound v = op
  vcap : ∃ vcap, w.validatorCaps.get? v = some vcap ∧ vcap.poolId = pool.id
  state : asset.state = .executing
  undisputed : asset.disputed = false
  tranche : asset.tranches[asset.nextTranche]? = some t

namespace Operates

/-- The bot's literal index zero names the next tranche if none is released yet. -/
theorem tranche_zero (h : Operates w op a p c v asset pool t) (hnext : asset.nextTranche = 0) :
    asset.tranches[(0 : U64).val]? = some t := by
  rw [show (0 : U64).val = asset.nextTranche from hnext.symm]
  exact h.tranche

/-- An approved tranche is released exactly when nothing is paused and it is the first one. -/
theorem release_iff (h : Operates w op a p c v asset pool t) (happroved : t.approvedBy ≠ none) :
    Succeeds (w.run [.transaction op [.asset (.releaseFundingTranche a c 0)]]) ↔
      w.config.paused = false ∧ asset.nextTranche = 0 := by
  rw [succeeds_cons]
  constructor
  · rintro ⟨u, hcall, -⟩
    cases World.callAsset_eq_ok.mp hcall with
    | releaseFundingTranche hasset' _ _ guards =>
      obtain rfl := Option.some.inj (h.hasset.symm.trans hasset')
      exact ⟨guards.unpaused, guards.next.symm⟩
  · intro ⟨hpaused, hnext⟩
    obtain ⟨cap, hcap, hbelongs⟩ := h.cap
    obtain ⟨hunreleased, hfunded⟩ := h.reachable.next_funded h.hasset h.state h.tranche
    -- an executing asset has its accumulator since the raise was finalized
    have hlinked : asset.accumulatorId ≠ none := by
      obtain ⟨g, _, hg, -⟩ := h.reachable.accumulator_of_asset h.hasset (h.state ▸ rfl)
      simp [hg]
    have guards : ReleaseGuards asset cap w.config (0 : U64).val t := {
      version := h.reachable.withinCaps.version, unpaused := hpaused, state := h.state
      undisputed := h.undisputed, cap := hbelongs, next := hnext.symm
      tranche := h.tranche_zero hnext, approved := happroved, unreleased := hunreleased
      counter := by
        rw [hnext]
        unfold maxU64
        decide
      funded := hfunded, linked := fun _ => hlinked }
    exact ⟨_, World.callAsset_eq_ok.mpr (.releaseFundingTranche h.hasset h.ownCap hcap guards
      (releaseFundingTranche_eq_ok.mpr ⟨t, guards, rfl⟩)), _, World.run_nil _⟩

/-- The approval and the release, or the release alone, of a proved tranche. -/
theorem proved_iff (h : Operates w op a p c v asset pool t) (hproof : t.proof ≠ none) :
    Succeeds (w.run ((if t.approvedBy.isSome then [] else
        [.transaction op [.asset (.approveMilestone a p v 0)]]) ++
      [.transaction op [.asset (.releaseFundingTranche a c 0)]])) ↔
      w.config.paused = false ∧ asset.nextTranche = 0 ∧
        (t.approvedBy ≠ none ∨ asset.validatorPoolId = some p ∧ pool.status = .active) := by
  have hid : pool.id = p := Store.key_of_get? h.hpool
  -- with an approval the approval step is skipped
  by_cases happroved : t.approvedBy = none
  · rw [if_neg (by simp [happroved]), List.singleton_append, succeeds_cons]
    constructor
    · rintro ⟨u, hcall, -⟩
      cases World.callAsset_eq_ok.mp hcall with
      | approveMilestone hasset' hpool' _ _ guards =>
        obtain rfl := Option.some.inj (h.hasset.symm.trans hasset')
        obtain rfl := Option.some.inj (h.hpool.symm.trans hpool')
        exact ⟨guards.unpaused, guards.next.symm, Or.inr ⟨hid ▸ guards.vouching, guards.active⟩⟩
    · intro ⟨hpaused, hnext, hvouches⟩
      obtain ⟨hvouching, hactive⟩ := hvouches.resolve_left fun hne => hne happroved
      obtain ⟨vcap, hvcap, hbelongs⟩ := h.vcap
      have ht := h.tranche_zero hnext
      have guards : ApproveGuards asset pool vcap w.config (0 : U64).val t := {
        version := h.reachable.withinCaps.version, unpaused := hpaused, state := h.state
        undisputed := h.undisputed, cap := hbelongs, vouching := hid.symm ▸ hvouching
        active := hactive, next := hnext.symm, tranche := ht, proved := hproof
        unapproved := happroved }
      have hstep : AssetStep w op (.approveMilestone a p v 0) _ :=
        .approveMilestone h.hasset h.hpool h.ownVcap hvcap guards
          (approveMilestone_eq_ok.mpr ⟨t, guards, rfl⟩)
      have hcall := World.callAsset_eq_ok.mpr hstep
      -- the world after the approval is one that operates, with an approved tranche
      have hafter : Operates _ op a p c v (asset.withTranche (0 : U64).val
          { t with approvedBy := some op }) pool { t with approvedBy := some op } := { h with
        reachable := h.reachable.call hcall
        hasset := Store.get?_replace _ h.hasset rfl
        tranche := by
          rw [show (asset.withTranche _ _).nextTranche = (0 : U64).val from hnext]
          exact List.getElem?_set_self (List.getElem?_eq_some_iff.mp ht).1 }
      exact ⟨_, hcall, (hafter.release_iff (Option.some_ne_none op)).mpr ⟨hpaused, hnext⟩⟩
  · rw [if_pos (Option.isSome_iff_ne_none.mpr happroved), List.nil_append, h.release_iff happroved]
    simp [happroved]

end Operates

/-- The cycle of an asset goes through exactly when the protocol is not paused, its next tranche is
    the first, and this tranche is approved or the pool of the bot vouches for the asset and is
    ACTIVE. The bot runs it for every asset with a tranche left. -/
theorem tranche_cycle_iff (h : Operates w op a p c v asset pool t) :
    canRunTranche (assetFullView asset) = true ∧
    (Succeeds (w.run (trancheCycle op a p c v (assetFullView asset))) ↔
      w.config.paused = false ∧ asset.nextTranche = 0 ∧
        (t.approvedBy ≠ none ∨ asset.validatorPoolId = some p ∧ pool.status = .active)) := by
  obtain ⟨hunreleased, -⟩ := h.reachable.next_funded h.hasset h.state h.tranche
  refine ⟨canRunTranche_view.mpr ⟨h.state, h.undisputed, t, h.tranche, hunreleased⟩, ?_⟩
  have hplan : trancheCycle op a p c v (assetFullView asset) =
      (if t.proof.isSome then [] else
        [.transaction op [.asset (.submitMilestoneProof a c 0 (milestoneProof op))]]) ++
      ((if t.approvedBy.isSome then [] else
        [.transaction op [.asset (.approveMilestone a p v 0)]]) ++
      [.transaction op [.asset (.releaseFundingTranche a c 0)]]) := by
    simp [trancheCycle, assetFullView, h.tranche, trancheView]
  rw [hplan]
  by_cases hproof : t.proof = none
  · rw [if_neg (by simp [hproof]), List.singleton_append, succeeds_cons]
    -- the proof changes nothing that the rest of the cycle asks for
    have hafter : ∀ {u}, w.call op (.asset (.submitMilestoneProof a c 0 (milestoneProof op))) =
        .ok u → w.config.paused = false ∧ asset.nextTranche = 0 ∧ u.config = w.config ∧
          Operates u op a p c v (asset.withTranche (0 : U64).val
            { t with proof := some (milestoneProof op) }) pool
            { t with proof := some (milestoneProof op) } := by
      intro u hcall
      have hreachable := h.reachable.call hcall
      cases World.callAsset_eq_ok.mp hcall with
      | @submitMilestoneProof _ _ _ _ x cap t' events hasset' own hcap guards =>
        obtain rfl := Option.some.inj (h.hasset.symm.trans hasset')
        have hnext : (0 : U64).val = asset.nextTranche := guards.next
        obtain rfl := Option.some.inj (h.tranche.symm.trans (hnext ▸ guards.tranche))
        refine ⟨guards.unpaused, hnext.symm, rfl, ?_⟩
        exact { h with
          reachable := hreachable
          hasset := Store.get?_replace _ h.hasset rfl
          tranche := by
            rw [show (asset.withTranche _ _).nextTranche = (0 : U64).val from hnext.symm]
            exact List.getElem?_set_self (List.getElem?_eq_some_iff.mp guards.tranche).1 }
    constructor
    · intro ⟨u, hcall, hrest⟩
      obtain ⟨hpaused, hnext, hconfig, hu⟩ := hafter hcall
      exact ⟨hpaused, hnext, ((hu.proved_iff (Option.some_ne_none _)).mp hrest).2.2⟩
    · intro ⟨hpaused, hnext, happroval⟩
      obtain ⟨cap, hcap, hbelongs⟩ := h.cap
      have guards : ProofGuards asset cap w.config (0 : U64).val t := {
        version := h.reachable.withinCaps.version, unpaused := hpaused, state := h.state
        cap := hbelongs, next := hnext.symm, tranche := h.tranche_zero hnext, unproved := hproof }
      have hstep : AssetStep w op (.submitMilestoneProof a c 0 (milestoneProof op)) _ :=
        .submitMilestoneProof h.hasset h.ownCap hcap guards
          (submitMilestoneProof_eq_ok.mpr ⟨t, guards, rfl⟩)
      have hcall := World.callAsset_eq_ok.mpr hstep
      obtain ⟨-, -, hconfig, hu⟩ := hafter hcall
      exact ⟨_, hcall, (hu.proved_iff (Option.some_ne_none _)).mpr ⟨hpaused, hnext, happroval⟩⟩
  · rw [if_pos (Option.isSome_iff_ne_none.mpr hproof), List.nil_append, h.proved_iff hproof]

end Cycle

namespace Sample

/-- The operator 0 is the entity of asset 4 and runs its pool. -/
def operated : List Action :=
  [.transaction 0 [.framework (.mintUsdc 0 40000000000)],
   .transaction 0 [.validator (.registerValidator 20000000000 [])],
   .transaction 0 [.asset (.createAsset (Gally.Sample.listing 1000000) 100000)],
   .transaction 0 [.asset (.vouchAssetLegals 4 2 3 [Gally.Sample.evidence])],
   .transaction 0 [.asset (.contributeCapital 4 1000000)],
   .transaction 0 [.framework (.publishToken 6)],
   .transaction 0 [.asset (.finalizeSuccessfulRaise 4 7)]]

end Sample

/-- The cycle of a first tranche runs through in a world that a run reaches. -/
theorem tranche_cycle_iff_operated : ∃ w asset,
    (World.genesis 0).run Sample.operated = .ok w ∧ w.assets.get? 4 = some asset ∧
    Succeeds (w.run (trancheCycle 0 4 2 5 3 (assetFullView asset))) := by
  have hrun : returns ((World.genesis 0).run Sample.operated) (fun w =>
      w.config.paused = false ∧ w.owner .soulbound 5 = 0 ∧ w.owner .soulbound 3 = 0 ∧
      (∃ cap ∈ w.entityCaps.get? 5, cap.assetId = 4) ∧
      (∃ vcap ∈ w.validatorCaps.get? 3, vcap.poolId = 2) ∧
      (∃ pool ∈ w.pools.get? 2, pool.status = .active) ∧
      ∃ asset ∈ w.assets.get? 4, asset.state = .executing ∧ asset.disputed = false ∧
        asset.nextTranche = 0 ∧ asset.validatorPoolId = some 2 ∧
        (asset.tranches[asset.nextTranche]?).isSome = true) = true := by
    decide +kernel
  obtain ⟨w, hw, hq⟩ := returns_iff.mp hrun
  obtain ⟨hpaused, hown, hvown, ⟨cap, hcap, hbelongs⟩, ⟨vcap, hvcap, hpoolId⟩,
    ⟨pool, hpool, hactive⟩, asset, hasset, hstate, hundisputed, hnext, hvouching, hsome⟩ :=
    of_decide_eq_true hq
  obtain ⟨t, ht⟩ := Option.isSome_iff_exists.mp hsome
  have hid : asset.id = 4 := Store.key_of_get? hasset
  have hpid : pool.id = 2 := Store.key_of_get? hpool
  have hoperates : Operates w 0 4 2 5 3 asset pool t := {
    reachable := ⟨0, _, hw⟩, hasset := hasset, hpool := hpool, ownCap := hown
    cap := ⟨cap, hcap, hbelongs.trans hid.symm⟩, ownVcap := hvown
    vcap := ⟨vcap, hvcap, hpoolId.trans hpid.symm⟩, state := hstate, undisputed := hundisputed
    tranche := ht }
  exact ⟨w, asset, hw, hasset, (tranche_cycle_iff hoperates).2.mpr
    ⟨hpaused, hnext, Or.inr ⟨hvouching, hactive⟩⟩⟩

end Gally.Simulation

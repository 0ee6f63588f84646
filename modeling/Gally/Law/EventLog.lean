import Gally.Chain.Links
import Gally.Law.Trial
import Gally.Library.Table

/-!
# The event log as a projection of the chain

An indexer that only reads events keeps a `Ledger`: what the log tells of each asset, of each
accumulator, of the stake and status of each pool and of the bond a dispute holds. `Ledger.apply`
is what it does with one event, `World.ledger` the same data read from the objects themselves.

## Key results

- `World.announces`: the events of one call turn the ledger of the world before it into that of
  the world after it
- `log_faithful`: in every reachable world the replayed log is the ledger of the world
-/

namespace Gally

open Checked

/-! ## What the log tells -/

/-- The fields of an asset that the log tells. -/
structure AssetView where
  state : AssetState
  raised : ℕ
  escrow : ℕ
  accumulatorId : Option ID
  deriving DecidableEq, Repr

/-- The fields of an accumulator that the log tells. -/
structure AccumulatorView where
  cumulativeYieldIndex : ℕ
  totalMintedShares : ℕ
  totalWrappedShares : ℕ
  rewardPool : ℕ
  rolloverReserve : ℕ
  compensationPool : ℕ
  compensationUnlockMs : ℕ
  wrappingFrozen : Bool
  closed : Bool
  lifetimeInvestorRevenue : ℕ
  deriving DecidableEq, Repr

/-- The fields of a pool that the log tells. -/
structure PoolView where
  stake : ℕ
  status : PoolStatus
  deriving DecidableEq, Repr

def Asset.view (asset : Asset) : AssetView where
  state := asset.state
  raised := asset.raised
  escrow := asset.escrow
  accumulatorId := asset.accumulatorId

def GlobalYieldAccumulator.view (acc : GlobalYieldAccumulator) : AccumulatorView where
  cumulativeYieldIndex := acc.cumulativeYieldIndex
  totalMintedShares := acc.totalMintedShares
  totalWrappedShares := acc.totalWrappedShares
  rewardPool := acc.rewardPool
  rolloverReserve := acc.rolloverReserve
  compensationPool := acc.compensationPool
  compensationUnlockMs := acc.compensationUnlockMs
  wrappingFrozen := acc.wrappingFrozen
  closed := acc.closed
  lifetimeInvestorRevenue := acc.lifetimeInvestorRevenue

def ValidatorPool.view (pool : ValidatorPool) : PoolView where
  stake := pool.stake
  status := pool.status

/-- What an indexer keeps: the views by object ID, and the bond each dispute holds. -/
@[ext] structure Ledger where
  assets : ID → Option AssetView
  accumulators : ID → Option AccumulatorView
  pools : ID → Option PoolView
  bonds : ID → Option ℕ

/-- The ledger of the objects themselves. -/
def World.ledger (w : World) : Ledger where
  assets := w.assets.table Asset.view
  accumulators := w.accumulators.table GlobalYieldAccumulator.view
  pools := w.pools.table ValidatorPool.view
  bonds := w.disputes.table Dispute.bond

namespace Ledger

/-- The ledger of an empty log. -/
def empty : Ledger := ⟨fun _ => none, fun _ => none, fun _ => none, fun _ => none⟩

/-- Edit the entry of asset `a`. -/
def onAsset (l : Ledger) (a : ID) (f : AssetView → AssetView) : Ledger :=
  { l with assets := amend l.assets a f }

/-- Edit the entry of the accumulator of asset `a`: events name the asset. -/
def onAccumulator (l : Ledger) (a : ID) (f : AccumulatorView → AccumulatorView) : Ledger :=
  match (l.assets a).bind AssetView.accumulatorId with
  | some g => { l with accumulators := amend l.accumulators g f }
  | none => l

/-- Edit the entry of pool `p`. -/
def onPool (l : Ledger) (p : ID) (f : PoolView → PoolView) : Ledger :=
  { l with pools := amend l.pools p f }

/-- What an event says about the ledger. -/
def apply (l : Ledger) : Event → Ledger
  -- validator
  | .validatorRegistered p _ stake _ =>
    { l with pools := Function.update l.pools p (some ⟨stake, .active⟩) }
  | .stakeAdded p _ _ stakeAfter => l.onPool p fun v => { v with stake := stakeAfter }
  | .stakeWithdrawn p _ _ stakeAfter => l.onPool p fun v => { v with stake := stakeAfter }
  | .validatorStatusChanged p _ newStatus _ => l.onPool p fun v => { v with status := newStatus }
  -- accumulator
  | .rolloverSwept a _ indexAfter _ rewardPoolAfter rolloverReserveAfter =>
    l.onAccumulator a fun v => { v with
      cumulativeYieldIndex := indexAfter, rewardPool := rewardPoolAfter,
      rolloverReserve := rolloverReserveAfter }
  | .yieldClaimed a _ _ _ rewardPoolAfter =>
    l.onAccumulator a fun v => { v with rewardPool := rewardPoolAfter }
  | .compensationSwept a _ indexAfter _ _ rewardPoolAfter rolloverReserveAfter
      compensationPoolAfter wrappingFrozen =>
    l.onAccumulator a fun v => { v with
      cumulativeYieldIndex := indexAfter, rewardPool := rewardPoolAfter,
      rolloverReserve := rolloverReserveAfter, compensationPool := compensationPoolAfter,
      wrappingFrozen }
  | .sharesWrapped a _ _ totalWrappedAfter =>
    l.onAccumulator a fun v => { v with totalWrappedShares := totalWrappedAfter }
  | .sharesUnwrapped a _ _ _ totalWrappedAfter =>
    l.onAccumulator a fun v => { v with totalWrappedShares := totalWrappedAfter }
  | .shareRedeemed a _ _ totalMintedAfter =>
    l.onAccumulator a fun v => { v with totalMintedShares := totalMintedAfter }
  | .dustSwept a _ rewardPoolAfter rolloverReserveAfter =>
    l.onAccumulator a fun v => { v with
      rewardPool := rewardPoolAfter, rolloverReserve := rolloverReserveAfter }
  -- asset
  | .assetCreated a .. =>
    { l with assets := Function.update l.assets a (some ⟨.pendingVouch, 0, 0, none⟩) }
  | .assetStateChanged a _ newState =>
    -- both ways into COMPENSATING seize the whole escrow
    l.onAsset a fun v => { v with
      state := newState, escrow := if newState = .compensating then 0 else v.escrow }
  | .capitalContributed a _ amount raisedAfter =>
    l.onAsset a fun v => { v with raised := raisedAfter, escrow := v.escrow + amount }
  | .raiseFinalized a g totalShares =>
    { l.onAsset a fun v => { v with accumulatorId := some g } with
      accumulators := Function.update l.accumulators g
        (some ⟨0, totalShares, 0, 0, 0, 0, 0, false, false, 0⟩) }
  | .contributionRefunded a _ amount =>
    l.onAsset a fun v => { v with raised := v.raised - amount, escrow := v.escrow - amount }
  | .trancheReleased a _ _ escrowAfter => l.onAsset a fun v => { v with escrow := escrowAfter }
  | .entityDefaulted a _ _ _ compensationPoolAfter compensationUnlockMs wrappingFrozen =>
    l.onAccumulator a fun v => { v with
      compensationPool := compensationPoolAfter, compensationUnlockMs, wrappingFrozen }
  | .assetClosed a _ => l.onAccumulator a fun v => { v with closed := true }
  | .revenueDeposited a _ _ investorPortion _ indexAfter _ rewardPoolAfter rolloverReserveAfter =>
    l.onAccumulator a fun v => { v with
      cumulativeYieldIndex := indexAfter, rewardPool := rewardPoolAfter,
      rolloverReserve := rolloverReserveAfter,
      lifetimeInvestorRevenue := v.lifetimeInvestorRevenue + investorPortion }
  -- dispute
  | .disputeOpened d _ _ _ bond _ _ =>
    { l with bonds := Function.update l.bonds d (some bond) }
  | .disputeResolved d a p verdict slashed _ _ compensationPoolAfter compensationUnlockMs
      wrappingFrozen =>
    -- the target gets half the bond of a rejected challenger
    let restitution := if verdict = .rejected then (l.bonds d).getD 0 / 2 else 0
    { l.onAccumulator a fun v => { v with
        compensationPool := compensationPoolAfter, compensationUnlockMs, wrappingFrozen } with
      pools := amend l.pools p fun v => { v with stake := v.stake - slashed + restitution }
      bonds := amend l.bonds d fun _ => 0 }
  | _ => l

/-- The ledger of a log. -/
def replay (events : List Event) : Ledger := events.foldl apply empty

theorem replay_append (events more : List Event) :
    replay (events ++ more) = more.foldl apply (replay events) := List.foldl_append

/-- Two events about an asset apply one after the other. -/
theorem onAsset_onAsset (l : Ledger) (a : ID) (f g : AssetView → AssetView) :
    (l.onAsset a f).onAsset a g = l.onAsset a fun v => g (f v) := by
  simp only [onAsset, amend_amend]

/-- An event about an accumulator amends the entry that the asset links to. -/
theorem onAccumulator_of_some {l : Ledger} {a g : ID} {v : AssetView} (h : l.assets a = some v)
    (hg : v.accumulatorId = some g) (f : AccumulatorView → AccumulatorView) :
    l.onAccumulator a f = { l with accumulators := amend l.accumulators g f } := by
  rw [onAccumulator, h, Option.bind_some, hg]

/-- Two events about an accumulator apply one after the other. -/
theorem onAccumulator_onAccumulator (l : Ledger) (a : ID)
    (f g : AccumulatorView → AccumulatorView) :
    (l.onAccumulator a f).onAccumulator a g = l.onAccumulator a fun v => g (f v) := by
  cases h : (l.assets a).bind AssetView.accumulatorId with
  | none => simp only [onAccumulator, h]
  | some k => simp only [onAccumulator, h, amend_amend]

/-- A verdict's closing event edits the accumulator, the target and the bond. -/
theorem apply_closing {l : Ledger} {v : Verdict} {dispute : Dispute} {x : AssetView} {g : ID}
    (h : l.assets dispute.assetId = some x) (hg : x.accumulatorId = some g) :
    l.apply (v.closing dispute) = {
      assets := l.assets
      accumulators := amend l.accumulators g fun y => { y with
        compensationPool := v.acc.compensationPool
        compensationUnlockMs := v.acc.compensationUnlockMs
        wrappingFrozen := v.acc.wrappingFrozen }
      pools := amend l.pools dispute.targetPoolId fun y => { y with
        stake := y.stake - v.slashed +
          if v.dispute.status = .rejected then (l.bonds dispute.id).getD 0 / 2 else 0 }
      bonds := amend l.bonds dispute.id fun _ => 0 } := by
  simp only [Verdict.closing, apply, onAccumulator_of_some h hg]

end Ledger

/-! ## What one call announces -/

/-- The events that `w'` has on top of those of `w` say what became of the ledger. -/
def World.Announces (w w' : World) : Prop :=
  ∃ events, w'.events = w.events ++ events ∧ events.foldl Ledger.apply w.ledger = w'.ledger

namespace World

variable {w w' : World} {sender : Address}

/-- One asset was replaced, and its events turn the old view into the new one. -/
theorem onAsset_put {a b : ID} {asset asset' : Asset} {f : AssetView → AssetView}
    (hasset : w.assets.get? a = some asset) (hb : asset.id = b) (hid : asset'.id = asset.id)
    (hview : f asset.view = asset'.view) :
    w.ledger.onAsset b f = { w.ledger with assets := (w.assets.put asset').table Asset.view } :=
  Ledger.ext (Store.table_replace hasset hb hid hview) rfl rfl rfl

/-- The events of an accumulator find it through its asset. -/
theorem onAccumulator_eq (hl : w.Linked) {g : ID} {acc : GlobalYieldAccumulator}
    (hacc : w.accumulators.get? g = some acc) (f : AccumulatorView → AccumulatorView) :
    w.ledger.onAccumulator acc.assetId f =
      { w.ledger with accumulators := amend w.ledger.accumulators g f } := by
  obtain ⟨asset, hasset, hg⟩ := hl.asset hacc
  exact Ledger.onAccumulator_of_some (Store.table_of_get? hasset) hg f

/-- One accumulator was replaced. -/
theorem onAccumulator_put (hl : w.Linked) {a g : ID} {acc acc' : GlobalYieldAccumulator}
    {f : AccumulatorView → AccumulatorView} (hacc : w.accumulators.get? g = some acc)
    (ha : acc.assetId = a) (hid : acc'.id = acc.id) (hview : f acc.view = acc'.view) :
    w.ledger.onAccumulator a f = { w.ledger with
      accumulators := (w.accumulators.put acc').table GlobalYieldAccumulator.view } := by
  rw [← ha, onAccumulator_eq hl hacc]
  exact Ledger.ext rfl (Store.table_replace hacc (Store.key_of_get? hacc) hid hview) rfl rfl

/-- One pool was replaced. -/
theorem onPool_put {p q : ID} {pool pool' : ValidatorPool} {f : PoolView → PoolView}
    (hpool : w.pools.get? p = some pool) (hq : pool.id = q) (hid : pool'.id = pool.id)
    (hview : f pool.view = pool'.view) :
    w.ledger.onPool q f =
      { w.ledger with pools := (w.pools.put pool').table ValidatorPool.view } :=
  Ledger.ext rfl rfl (Store.table_replace hpool hq hid hview) rfl

/-- An asset and its accumulator were replaced, the accumulator's events first. -/
theorem onAccumulator_onAsset_put (hl : w.Linked) {a g : ID} {asset asset' : Asset}
    {acc acc' : GlobalYieldAccumulator} {f : AccumulatorView → AccumulatorView}
    {f' : AssetView → AssetView} (hasset : w.assets.get? a = some asset)
    (hacc : w.accumulators.get? g = some acc) (ha : acc.assetId = asset.id)
    (hid : asset'.id = asset.id) (hid' : acc'.id = acc.id) (hview : f' asset.view = asset'.view)
    (hview' : f acc.view = acc'.view) :
    (w.ledger.onAccumulator asset.id f).onAsset asset.id f' = { w.ledger with
      assets := (w.assets.put asset').table Asset.view
      accumulators := (w.accumulators.put acc').table GlobalYieldAccumulator.view } := by
  rw [onAccumulator_put hl hacc ha hid' hview']
  exact Ledger.ext (Store.table_replace hasset rfl hid hview) rfl rfl rfl

/-- A listing announces itself. -/
theorem listed_announces {config : ProtocolConfig} {l : Listing} {isTerm : Bool}
    {target : U64} {collateral now : ℕ} {assetId capId : ID} {asset : Asset} {cap : EntityCap}
    {events : List Event} (run : createAssetInternal config l isTerm target collateral now sender
      assetId capId = .ok (asset, cap, events)) :
    w.Announces (w.listed sender collateral asset cap events) := by
  have hput := Store.table_put Asset.view w.assets asset
  simp only [createAssetInternal, seq_eq_ok, assertVersion_eq_ok, assertNotPaused_eq_ok,
    ensure_eq_ok, mulBps_eq_ok, return_eq_ok, Prod.mk.injEq] at run
  obtain ⟨-, -, -, -, -, -, -, -, -, -, -, -, -, -, -, -, -, -, -, -, -, -, -, -, _, -, -, -, _, -,
    -, -, rfl, rfl, rfl⟩ := run
  exact ⟨_, rfl, Ledger.ext hput.symm rfl rfl rfl⟩

/-- A close announces itself. -/
theorem closing_announces (hl : w.Linked) {a g : ID} {asset : Asset}
    {acc : GlobalYieldAccumulator} {reason : CloseReason}
    (hasset : w.assets.get? a = some asset) (hacc : w.accumulators.get? g = some acc)
    (guards : CloseGuards asset acc reason) :
    w.Announces (w.closing asset acc
      [.assetClosed asset.id reason, .assetStateChanged asset.id asset.state .closed]) :=
  ⟨_, rfl, onAccumulator_onAsset_put hl hasset hacc guards.linked rfl rfl rfl rfl⟩

/-- The asset module's calls announce what they do. -/
theorem asset_announces (hl : w.Linked) {c : AssetCall} (h : AssetStep w sender c w') :
    w.Announces w' := by
  cases h with
  | createAsset _ _ run => exact listed_announces run
  | createTermAsset _ _ run => exact listed_announces run
  | cancelUnvouchedByEntity hasset _ _ _ _ run =>
    obtain ⟨-, -, ⟨⟩⟩ := cancelUnvouchedByEntity_eq_ok.mp run
    exact ⟨_, rfl, onAsset_put hasset rfl rfl rfl⟩
  | cancelUnvouchedTimeout hasset _ run =>
    obtain ⟨-, -, -, -, ⟨⟩⟩ := cancelUnvouchedTimeout_eq_ok.mp run
    exact ⟨_, rfl, onAsset_put hasset rfl rfl rfl⟩
  | vouchAssetLegals hasset hpool _ _ _ run =>
    obtain ⟨-, ⟨⟩⟩ := vouchAssetLegals_eq_ok.mp run
    exact ⟨_, rfl, Ledger.ext (Store.table_replace hasset rfl rfl rfl) rfl
      (Store.table_replaceSame hpool rfl rfl) rfl⟩
  | contributeCapital hasset _ _ run =>
    obtain ⟨-, ⟨⟩⟩ := contributeCapital_eq_ok.mp run
    exact ⟨_, rfl, onAsset_put hasset rfl rfl rfl⟩
  | @finalizeSuccessfulRaise _ _ asset cap _ _ hasset _ _ _ _ run =>
    obtain ⟨-, ⟨⟩⟩ := finalizeSuccessfulRaise_eq_ok.mp run
    have hput := Store.table_put GlobalYieldAccumulator.view w.accumulators
      (asset.newAccumulator cap w.nextId)
    refine ⟨_, rfl, Ledger.ext ?_ hput.symm rfl rfl⟩
    exact (amend_amend ..).trans (Store.table_replace hasset rfl rfl rfl)
  | abortFailedRaise hasset hpool _ run =>
    obtain ⟨-, ⟨⟩⟩ := abortFailedRaise_eq_ok.mp run
    exact ⟨_, rfl, Ledger.ext (Store.table_replace hasset rfl rfl rfl) rfl
      (Store.table_replaceSame hpool rfl rfl) rfl⟩
  | refundContribution hasset _ _ guards run =>
    obtain ⟨-, ⟨⟩⟩ := refundContribution_eq_ok.mp run
    exact ⟨_, rfl, onAsset_put hasset guards.belongs.symm rfl rfl⟩
  | claimShares _ _ _ _ _ _ _ run =>
    obtain ⟨-, -, -, -, ⟨⟩⟩ := claimShares_eq_ok.mp run
    exact ⟨_, rfl, rfl⟩
  | submitMilestoneProof hasset _ _ _ run =>
    obtain ⟨t, -, h⟩ := submitMilestoneProof_eq_ok.mp run
    obtain ⟨-, rfl⟩ := Prod.mk.inj h
    exact ⟨_, rfl, Ledger.ext (Store.table_replaceSame hasset rfl rfl) rfl rfl rfl⟩
  | approveMilestone hasset _ _ _ _ run =>
    obtain ⟨t, -, h⟩ := approveMilestone_eq_ok.mp run
    obtain ⟨-, rfl⟩ := Prod.mk.inj h
    exact ⟨_, rfl, Ledger.ext (Store.table_replaceSame hasset rfl rfl) rfl rfl rfl⟩
  | @releaseFundingTranche _ _ _ asset _ _ _ hasset _ _ guards run =>
    obtain ⟨t, htranche, h⟩ := releaseFundingTranche_eq_ok.mp run
    obtain rfl := Option.some.inj (htranche.tranche.symm.trans guards.tranche)
    cases h
    refine ⟨_, rfl, ?_⟩
    by_cases hlast : asset.nextTranche + 1 = asset.tranches.length
    -- the last release announces the state as well
    · obtain ⟨g, hg⟩ := Option.ne_none_iff_exists'.mp (guards.linked hlast)
      rw [Asset.trancheEvents, if_pos hlast, hg]
      refine (Ledger.onAsset_onAsset ..).trans ?_
      exact onAsset_put hasset rfl rfl (by simp [Asset.view, Asset.afterTranche, hlast])
    · rw [Asset.trancheEvents, if_neg hlast]
      exact onAsset_put hasset rfl rfl (by simp [Asset.view, Asset.afterTranche, hlast])
  | releaseVouchCoverage hasset hpool _ _ =>
    refine ⟨[], (List.append_nil _).symm, ?_⟩
    exact Ledger.ext (Store.table_replaceSame hasset rfl rfl) rfl
      (Store.table_replaceSame hpool rfl rfl) rfl
  | flagDefault hasset hacc guards run =>
    obtain ⟨_, -, h⟩ := flagDefault_eq_ok.mp run
    cases h
    exact ⟨_, rfl, onAccumulator_onAsset_put hl hasset hacc guards.linked rfl rfl rfl rfl⟩
  | depositRevenue hasset hacc _ guards deposited run =>
    obtain ⟨-, _, -, h⟩ := depositRevenue_eq_ok.mp run
    cases h
    refine ⟨_, rfl, onAccumulator_put hl hacc guards.linked deposited.routed.frame.id ?_⟩
    rcases deposited.routed with ⟨-, -, rfl⟩ | ⟨-, -, rfl⟩ <;> rfl
  | closeAtReturnTarget hasset hacc guards run =>
    obtain ⟨-, -, h⟩ := closeAtReturnTarget_eq_ok.mp run
    cases h
    exact closing_announces hl hasset hacc guards
  | closeAfterCompensation hasset hacc guards _ run =>
    obtain ⟨-, -, -, h⟩ := closeAfterCompensation_eq_ok.mp run
    cases h
    exact closing_announces hl hasset hacc guards
  | closeWindDown hasset hacc _ _ _ _ guards run =>
    obtain ⟨-, -, -, h⟩ := closeWindDown_eq_ok.mp run
    cases h
    exact closing_announces hl hasset hacc guards

/-- The validator module's calls announce what they do. -/
theorem validator_announces {c : ValidatorCall} (h : ValidatorStep w sender c w') :
    w.Announces w' := by
  cases h with
  | @registerValidator stake name _ _ _ run =>
    obtain ⟨-, ⟨⟩⟩ := registerValidator_eq_ok.mp run
    have hput := Store.table_put ValidatorPool.view w.pools
      (.registered w.nextId sender name stake.val w.clockMs)
    exact ⟨_, rfl, Ledger.ext rfl rfl hput.symm rfl⟩
  | addStake hpool _ _ run =>
    obtain ⟨-, ⟨⟩⟩ := addStake_eq_ok.mp run
    exact ⟨_, rfl, onPool_put hpool rfl rfl rfl⟩
  | withdrawStake hpool _ _ _ run =>
    obtain ⟨-, ⟨⟩⟩ := withdrawStake_eq_ok.mp run
    exact ⟨_, rfl, onPool_put hpool rfl rfl rfl⟩

/-- The accumulator's calls announce what they do. -/
theorem accumulator_announces (hl : w.Linked) {c : AccumulatorCall}
    (h : AccumulatorStep w sender c w') : w.Announces w' := by
  cases h with
  | claimRewards hacc _ _ _ run =>
    obtain ⟨-, ⟨⟩⟩ := claimRewards_eq_ok.mp run
    exact ⟨_, rfl, onAccumulator_put hl hacc rfl rfl rfl⟩
  | sweepRollover hacc _ _ run =>
    obtain ⟨-, -, ⟨⟩⟩ := sweepRollover_eq_ok.mp run
    exact ⟨_, rfl, onAccumulator_put hl hacc rfl rfl rfl⟩
  | sweepCompensation hacc _ _ route run =>
    obtain ⟨-, -, -, -, rfl⟩ := sweepCompensation_eq_ok.mp run
    refine ⟨_, rfl, onAccumulator_put hl hacc route.frame.assetId.symm route.frame.id ?_⟩
    rcases route with ⟨-, -, rfl⟩ | ⟨-, -, rfl⟩ <;> rfl
  | wrapShares hacc _ _ _ run =>
    obtain ⟨-, ⟨⟩⟩ := wrapShares_eq_ok.mp run
    -- the claim first, then the wrap
    refine ⟨_, rfl, (Ledger.onAccumulator_onAccumulator ..).trans ?_⟩
    exact onAccumulator_put hl hacc rfl rfl rfl
  | unwrapCoins hacc _ _ _ _ sweep run =>
    obtain ⟨-, -, swept, hsweep, rfl⟩ := unwrapCoins_eq_ok.mp run
    refine ⟨_, rfl, ?_⟩
    rcases hsweep with ⟨-, h⟩ | ⟨-, rfl, rfl⟩
    · obtain ⟨-, rfl, rfl⟩ := sweepRolloverInternal_eq_ok.mp h
      -- the auto-sweep is announced before the unwrap
      refine (Ledger.onAccumulator_onAccumulator ..).trans ?_
      exact onAccumulator_put hl hacc rfl rfl rfl
    · exact onAccumulator_put hl hacc rfl rfl rfl
  | mergeShares hacc _ _ _ _ _ _ run =>
    obtain ⟨-, ⟨⟩⟩ := mergeShares_eq_ok.mp run
    refine ⟨_, rfl, (Ledger.onAccumulator_onAccumulator ..).trans ?_⟩
    exact onAccumulator_put hl hacc rfl rfl rfl
  | redeemShare hacc _ _ _ run =>
    obtain ⟨-, ⟨⟩⟩ := redeemShare_eq_ok.mp run
    refine ⟨_, rfl, (Ledger.onAccumulator_onAccumulator ..).trans ?_⟩
    exact onAccumulator_put hl hacc rfl rfl rfl
  | adminSweepDust _ hacc _ run =>
    obtain ⟨-, ⟨⟩⟩ := adminSweepDust_eq_ok.mp run
    exact ⟨_, rfl, onAccumulator_put hl hacc rfl rfl rfl⟩
  | splitShare => exact ⟨[], (List.append_nil _).symm, rfl⟩

/-- Before its closing event a verdict announces the asset and the status of the pool. -/
theorem decides_announces {a : ID} {dispute : Dispute} {pool : ValidatorPool} {asset : Asset}
    {acc : GlobalYieldAccumulator} {v : Verdict} (hasset : w.assets.get? a = some asset)
    (decides : Decides dispute pool asset acc w.config w.clockMs v) :
    v.events.foldl Ledger.apply w.ledger = { w.ledger with
      assets := (w.assets.put v.asset).table Asset.view
      pools := amend w.ledger.pools pool.id fun y => { y with status := v.pool.status } } := by
  have hid : v.asset.id = asset.id := decides.keeps.assetId
  cases decides with
  | expired => exact Ledger.ext (Store.table_replaceSame hasset rfl rfl) rfl rfl rfl
  | rejected => exact Ledger.ext (Store.table_replaceSame hasset rfl rfl) rfl rfl rfl
  | upheld =>
    by_cases hstate : asset.state = .executing
    -- the seizure is announced through the state
    · have hevents : (upheldVerdict dispute pool asset acc w.config w.clockMs).events =
          [.validatorStatusChanged pool.id .frozen .slashed (some dispute.id),
           .assetStateChanged asset.id asset.state .compensating] := by
        rw [upheldVerdict, if_pos hstate]
      have hseized : { asset.view with state := .compensating, escrow := 0 } =
          asset.upheld.view := by
        rw [Asset.upheld, if_pos hstate]
        rfl
      rw [hevents]
      exact Ledger.ext (Store.table_replace hasset rfl hid hseized) rfl rfl rfl
    · have hevents : (upheldVerdict dispute pool asset acc w.config w.clockMs).events =
          [.validatorStatusChanged pool.id .frozen .slashed (some dispute.id)] := by
        rw [upheldVerdict, if_neg hstate]
      have hsame : asset.view = asset.upheld.view := by
        rw [Asset.upheld, if_neg hstate]
        rfl
      rw [hevents]
      exact Ledger.ext (Store.table_replaceSame hasset hid hsame) rfl rfl rfl

/-- What the closing event says is what the verdict did. -/
theorem closing_tells {dispute : Dispute} {pool : ValidatorPool} {asset : Asset}
    {acc : GlobalYieldAccumulator} {config : ProtocolConfig} {now : ℕ} {v : Verdict}
    (decides : Decides dispute pool asset acc config now v) :
    v.acc.view = { acc.view with
      compensationPool := v.acc.compensationPool
      compensationUnlockMs := v.acc.compensationUnlockMs
      wrappingFrozen := v.acc.wrappingFrozen } ∧
    v.pool.stake = pool.stake - v.slashed +
      (if v.dispute.status = .rejected then dispute.bond / 2 else 0) ∧
    v.dispute.bond = 0 := by
  cases decides <;> exact ⟨rfl, rfl, rfl⟩

/-- What a resolution announces, whichever the verdict. -/
theorem verdict_announces (hl : w.Linked) {d p a g : ID} {dispute : Dispute}
    {pool : ValidatorPool} {asset : Asset} {acc : GlobalYieldAccumulator} {v : Verdict}
    (hdispute : w.disputes.get? d = some dispute) (hpool : w.pools.get? p = some pool)
    (hasset : w.assets.get? a = some asset) (hacc : w.accumulators.get? g = some acc)
    (guards : ResolveGuards dispute pool asset acc w.config w.clockMs)
    (decides : Decides dispute pool asset acc w.config w.clockMs v) :
    (v.events ++ [v.closing dispute]).foldl Ledger.apply w.ledger = {
      assets := (w.assets.put v.asset).table Asset.view
      accumulators := (w.accumulators.put v.acc).table GlobalYieldAccumulator.view
      pools := (w.pools.put v.pool).table ValidatorPool.view
      bonds := (w.disputes.put v.dispute).table Dispute.bond } := by
  have hkeeps := decides.keeps
  obtain ⟨htold, hstake, hbond⟩ := closing_tells decides
  -- the closing event finds the accumulator through the asset
  have hlink : v.asset.accumulatorId = some g :=
    hkeeps.accumulator.trans (hl.accumulatorId hasset hacc (hl.disputed hdispute hacc guards))
  have hview : (w.assets.put v.asset).table Asset.view dispute.assetId = some v.asset.view :=
    Store.table_of_get? (Store.get?_replace v.asset (guards.asset_recorded hasset) hkeeps.assetId)
  have hheld : w.ledger.bonds dispute.id = some dispute.bond :=
    Store.table_of_get? (Store.get?_key (Store.mem_of_get? hdispute))
  rw [List.foldl_append, decides_announces hasset decides]
  refine (Ledger.apply_closing hview hlink).trans (Ledger.ext rfl ?_ ?_ ?_)
  · exact Store.table_replace hacc (Store.key_of_get? hacc) hkeeps.accId htold.symm
  · refine Store.table_replaceTwice hpool rfl guards.pool hkeeps.poolId ?_
    simp only [hheld, Option.getD_some]
    exact congrArg (PoolView.mk · v.pool.status) hstake.symm
  · exact Store.table_replace hdispute rfl hkeeps.disputeId hbond.symm

/-- The court's calls announce what they do. -/
theorem dispute_announces (hl : w.Linked) {c : DisputeCall} (h : DisputeStep w sender c w') :
    w.Announces w' := by
  cases h with
  | @initializeDispute _ _ _ bond evidence reason asset pool acc _ hasset hpool _ _ _ run =>
    obtain ⟨-, ⟨⟩⟩ := initializeDispute_eq_ok.mp run
    have hput := Store.table_put Dispute.bond w.disputes
      (.opening asset pool acc w.config bond.val evidence reason w.clockMs sender w.nextId)
    exact ⟨_, rfl, Ledger.ext (Store.table_replaceSame hasset rfl rfl) rfl
      (Store.table_replace hpool rfl rfl rfl) hput.symm⟩
  | voteOnDispute hdispute _ _ _ _ run =>
    obtain ⟨-, ⟨⟩⟩ := voteOnDispute_eq_ok.mp run
    exact ⟨_, rfl, Ledger.ext rfl rfl rfl (Store.table_replaceSame hdispute rfl rfl)⟩
  | resolveDispute hdispute hpool hasset hacc guards decides =>
    exact ⟨_, rfl, verdict_announces hl hdispute hpool hasset hacc guards decides⟩
  | claimJurorReward hdispute _ _ _ _ _ _ run =>
    obtain ⟨-, -, -, -, ⟨⟩⟩ := claimJurorReward_eq_ok.mp run
    exact ⟨_, rfl, Ledger.ext rfl rfl rfl (Store.table_replaceSame hdispute rfl rfl)⟩

/-- The setters announce nothing an indexer keeps. -/
theorem protocol_announces {c : ProtocolCall} {config : ProtocolConfig} {events : List Event}
    (h : c.run w.config = .ok (config, events)) (l : Ledger) :
    events.foldl Ledger.apply l = l := by
  -- a setter changes nothing that the ledger has
  cases c with
  | adminSetDisputeParams new =>
    simp only [ProtocolCall.run, adminSetDisputeParams, seq_eq_ok, return_eq_ok,
      Prod.mk.injEq] at h
    obtain ⟨-, -, -, -, -, -, -, -, -, -, -, -, -, -, -, -, -, rfl⟩ := h
    rfl
  | adminSetTreasury =>
    simp only [ProtocolCall.run, adminSetTreasury, seq_eq_ok, return_eq_ok, Prod.mk.injEq] at h
    obtain ⟨-, -, -, rfl⟩ := h
    rfl
  | adminEmergencyStop =>
    simp only [ProtocolCall.run, adminEmergencyStop, seq_eq_ok, return_eq_ok, Prod.mk.injEq] at h
    obtain ⟨-, -, -, rfl⟩ := h
    rfl
  | adminResume =>
    simp only [ProtocolCall.run, adminResume, seq_eq_ok, return_eq_ok, Prod.mk.injEq] at h
    obtain ⟨-, -, -, rfl⟩ := h
    rfl
  | _ =>
    obtain ⟨-, -, heq⟩ := setParam_eq_ok.mp h
    obtain ⟨-, rfl⟩ := Prod.mk.inj heq
    rfl

/-- Every call announces what it does: its events lead from the ledger before it to the one
    after. -/
theorem announces (hl : w.Linked) {c : Call} (h : w.call sender c = .ok w') :
    w.Announces w' := by
  cases c with
  | protocol c =>
    obtain ⟨-, _, events, hrun, rfl⟩ := World.protocolCall_eq_ok.mp h
    exact ⟨events, rfl, protocol_announces hrun _⟩
  | validator c => exact validator_announces (World.validatorCall_eq_ok.mp h)
  | asset c => exact asset_announces hl (World.assetCall_eq_ok.mp h)
  | accumulator c => exact accumulator_announces hl (World.accumulatorCall_eq_ok.mp h)
  | dispute c => exact dispute_announces hl (World.disputeCall_eq_ok.mp h)
  | framework c =>
    cases World.frameworkCall_eq_ok.mp h <;> exact ⟨[], (List.append_nil _).symm, rfl⟩

end World

/-! ## The whole log -/

/-- In every reachable world the replay of the log is the ledger. -/
theorem Reachable.replayed {w : World} (hw : Reachable w) : Ledger.replay w.events = w.ledger := by
  refine hw.induct (P := fun w => Ledger.replay w.events = w.ledger) (fun _ => rfl) ?_
    fun _ h _ => h
  intro w sender c w' hw ih hcall
  obtain ⟨events, hevents, hledger⟩ := World.announces hw.linked hcall
  rw [hevents, Ledger.replay_append, ih, hledger]

/-- The log tells what the objects hold, and nothing changes without being told. -/
structure World.Logged (w : World) : Prop where
  replayed : Ledger.replay w.events = w.ledger
  announced : ∀ {sender c w'}, w.call sender c = .ok w' → w.Announces w'

/-- The log is faithful: replayed from nothing it gives the assets, accumulators, pools and disputes
    of the world, and every call announces its own changes. -/
theorem log_faithful {w : World} (hw : Reachable w) : w.Logged where
  replayed := hw.replayed
  announced h := World.announces hw.linked h

/-- The challenge of the executing asset 4 is upheld. -/
def Sample.conviction : List Action :=
  executing 1000000 100000 ++ court ++ [.transaction 3 [challenge]] ++ voting ++
  [.transaction 3 [resolution]]

/-- The log of an upheld verdict tells the seizure and the slash. -/
theorem log_faithful_conviction : ∃ w, (World.genesis 0).run Sample.conviction = .ok w ∧
    (Ledger.replay w.events).assets 4 = some ⟨.compensating, 1000000, 0, some 8⟩ ∧
    (Ledger.replay w.events).pools 2 = some ⟨19999800000, .slashed⟩ ∧ w.Logged := by
  have hrun : returns ((World.genesis 0).run Sample.conviction) (fun w =>
      (Ledger.replay w.events).assets 4 = some ⟨.compensating, 1000000, 0, some 8⟩ &&
      (Ledger.replay w.events).pools 2 = some ⟨19999800000, .slashed⟩) = true := by
    decide +kernel
  obtain ⟨w, hw, hq⟩ := returns_iff.mp hrun
  simp only [Bool.and_eq_true, decide_eq_true_eq] at hq
  exact ⟨w, hw, hq.1, hq.2, log_faithful ⟨0, _, hw⟩⟩

end Gally

import Gally.Contract.Protocol
import Gally.Contract.Share

/-!
# Global yield accumulator (`accumulator.move`)

The lazy yield index and the wrap machine. `claimRewards` and `advanceIndex` are
the two places where money and entitlements meet, and both floor in the pool's
favour. Each of the two has its guards as a structure (`ClaimGuards`,
`AdvanceGuards`) and its effect as a pure function (`afterClaim`,
`afterAdvance`); the `_eq_ok` lemma of every other function is stated with them.
-/

namespace Gally

open Checked

/-! ## Errors and constants -/

def eAccumulatorZeroAmount : Abort := .code .accumulator 2
def eCapNotVirgin : Abort := .code .accumulator 306
def eAccumulatorMismatch : Abort := .code .accumulator 310
def eShareAssetMismatch : Abort := .code .accumulator 500
def eWrappingFrozen : Abort := .code .accumulator 501
def eWrapCooldown : Abort := .code .accumulator 502
def ePayoutOverflow : Abort := .code .accumulator 503
def eAccumulatorGraceNotElapsed : Abort := .code .accumulator 702
def eNotClosed : Abort := .code .accumulator 703
def eSharesOutstanding : Abort := .code .accumulator 707
def eDustBoundExceeded : Abort := .code .accumulator 708

/-- Fixed-point scaling factor of the index. -/
@[irreducible] def scale : ℕ := 1000000000

/-- The scale is positive. -/
theorem scale_pos : 0 < scale := by simp [scale]

/-- A scaled `u64` is far from the bound of a `u128`. -/
theorem scale_mul_maxU64_le : scale * (4 * maxU64) ≤ maxU128 := by
  simp [scale, maxU64, maxU128]

/-- One per funded asset. The type parameter `T` is the token of the custodied
    treasury cap. -/
structure GlobalYieldAccumulator where
  id : ID
  assetId : ID
  cumulativeYieldIndex : ℕ
  totalMintedShares : ℕ
  totalWrappedShares : ℕ
  rewardPool : ℕ
  rolloverReserve : ℕ
  compensationPool : ℕ
  compensationUnlockMs : ℕ
  wrappingFrozen : Bool
  treasuryCap : TreasuryCap
  closed : Bool
  lifetimeInvestorRevenue : ℕ
  dustBound : ℕ
  deriving DecidableEq, Repr

/-- A `Coin<T>` of an entity token. -/
structure TokenCoin where
  id : ID
  token : TypeTag
  value : ℕ
  deriving DecidableEq, Repr

/-! ## Views -/

/-- The yield-earning denominator: shares not circulating as `Coin<T>`. -/
def unwrappedSupply (acc : GlobalYieldAccumulator) : Except Abort ℕ :=
  sub acc.totalMintedShares acc.totalWrappedShares

/-- Yield currently claimable by `share`. -/
def pendingPayout (acc : GlobalYieldAccumulator) (share : GallyShare) : Except Abort ℕ := do
  let delta ← sub acc.cumulativeYieldIndex share.yieldClaimedIndex
  let scaled ← mul128 delta share.shareCount
  let payout := scaled / scale
  ensure (payout ≤ maxU64) ePayoutOverflow
  return payout

def assertAsset (acc : GlobalYieldAccumulator) (assetId : ID) : Except Abort Unit :=
  ensure (acc.assetId = assetId) eAccumulatorMismatch

/-! ## The index scaler -/

/-- Distributes `funds` over the unwrapped supply; multiply by `scale` before
    dividing. Truncation dust stays in the reward pool. (The constant is the first
    factor because the kernel evaluates products by recursion on the second.) -/
def advanceIndex (acc : GlobalYieldAccumulator) (funds : ℕ) :
    Except Abort GlobalYieldAccumulator := do
  let unwrapped ← unwrappedSupply acc
  let scaled ← mul128 scale funds
  -- aborts when nothing is unwrapped; every caller has excluded that
  let delta ← div scaled unwrapped
  let cumulativeYieldIndex ← add128 acc.cumulativeYieldIndex delta
  -- the floor strands less than `unwrapped / scale + 1` units
  let dustBound ← add64 acc.dustBound (unwrapped / scale)
  let dustBound ← add64 dustBound 1
  let rewardPool ← add64 acc.rewardPool funds
  return { acc with cumulativeYieldIndex, dustBound, rewardPool }

/-- The branch `add_revenue` and `sweep_compensation` share: without unwrapped supply
    the funds go to the rollover reserve instead of dividing by zero. -/
def routeInflow (acc : GlobalYieldAccumulator) (funds : ℕ) :
    Except Abort GlobalYieldAccumulator := do
  let unwrapped ← unwrappedSupply acc
  if unwrapped = 0 then
    let rolloverReserve ← add64 acc.rolloverReserve funds
    return { acc with rolloverReserve }
  else advanceIndex acc funds

def sweepRolloverInternal (acc : GlobalYieldAccumulator) :
    Except Abort (GlobalYieldAccumulator × List Event) := do
  let amount := acc.rolloverReserve
  let acc ← advanceIndex { acc with rolloverReserve := 0 } amount
  let unwrapped ← unwrappedSupply acc
  return (acc, [.rolloverSwept acc.assetId amount acc.cumulativeYieldIndex unwrapped
    acc.rewardPool acc.rolloverReserve])

/-! ## Public functions -/

/-- Lazy pull claim. A zero payout is a successful no-op; never pause-gated. -/
def claimRewards (acc : GlobalYieldAccumulator) (share : GallyShare) (sender : Address) :
    Except Abort (GlobalYieldAccumulator × GallyShare × ℕ × List Event) := do
  ensure (share.assetId = acc.assetId) eShareAssetMismatch
  -- a claim with a zero delta strands nothing and must not raise the bound
  let dustBound ← (if share.yieldClaimedIndex < acc.cumulativeYieldIndex
    then add64 acc.dustBound 1 else pure acc.dustBound)
  let payout ← pendingPayout acc share
  let share := { share with yieldClaimedIndex := acc.cumulativeYieldIndex }
  let rewardPool ← takeOut acc.rewardPool payout
  return ({ acc with dustBound, rewardPool }, share, payout,
    [.yieldClaimed acc.assetId sender payout acc.cumulativeYieldIndex rewardPool])

/-- Permissionless rescue of revenue parked while the unwrapped supply was zero. -/
def sweepRollover (acc : GlobalYieldAccumulator) :
    Except Abort (GlobalYieldAccumulator × List Event) := do
  ensure (0 < acc.rolloverReserve) eAccumulatorZeroAmount
  let unwrapped ← unwrappedSupply acc
  ensure (0 < unwrapped) eAccumulatorZeroAmount
  sweepRolloverInternal acc

/-- Permissionless distribution of restitution after the grace window. -/
def sweepCompensation (acc : GlobalYieldAccumulator) (now : ℕ) :
    Except Abort (GlobalYieldAccumulator × List Event) := do
  ensure (acc.compensationUnlockMs ≤ now) eAccumulatorGraceNotElapsed
  ensure (0 < acc.compensationPool) eAccumulatorZeroAmount
  let amount := acc.compensationPool
  let acc := { acc with compensationPool := 0 }
  -- read before the routing, which leaves both supplies unchanged
  let unwrapped ← unwrappedSupply acc
  let acc ← routeInflow acc amount
  let acc := { acc with wrappingFrozen := false }
  return (acc, [.compensationSwept acc.assetId amount acc.cumulativeYieldIndex unwrapped
    (unwrapped = 0) acc.rewardPool acc.rolloverReserve acc.compensationPool acc.wrappingFrozen])

/-- Wraps a deed into `Coin<T>`: guards, force-claim, counter up, deed burned, coin
    minted 1:1. Returns the coin and the claimed yield. -/
def wrapShares (acc : GlobalYieldAccumulator) (config : ProtocolConfig) (share : GallyShare)
    (now : ℕ) (sender : Address) (coinId : ID) :
    Except Abort (GlobalYieldAccumulator × TokenCoin × ℕ × List Event) := do
  assertVersion config
  assertNotPaused config
  -- no wrapping in a grace window, and none once the asset is closed
  ensure (acc.wrappingFrozen = false ∧ acc.closed = false) eWrappingFrozen
  let cooldownEnd ← add64 share.acquiredAtMs config.minWrapDurationMs
  ensure (cooldownEnd ≤ now) eWrapCooldown
  -- what is owed has to leave now: a wrapped holder cannot claim
  let (acc, share, claimed, events) ← claimRewards acc share sender
  let count := share.shareCount
  let totalWrappedShares ← add64 acc.totalWrappedShares count
  let treasuryCap ← acc.treasuryCap.mint count
  return ({ acc with totalWrappedShares, treasuryCap },
    { id := coinId, token := treasuryCap.token, value := count }, claimed,
    events ++ [.sharesWrapped acc.assetId sender count totalWrappedShares])

/-- Unwraps `Coin<T>` into a fresh deed at the current index, then sweeps the
    rollover reserve onto it. No pause check, no freeze check. -/
def unwrapCoins (acc : GlobalYieldAccumulator) (coin : TokenCoin) (now : ℕ) (sender : Address)
    (shareId : ID) : Except Abort (GlobalYieldAccumulator × GallyShare × List Event) := do
  let amount := coin.value
  ensure (0 < amount) eAccumulatorZeroAmount
  let treasuryCap ← acc.treasuryCap.burn amount
  let totalWrappedShares ← sub acc.totalWrappedShares amount
  let acc := { acc with treasuryCap, totalWrappedShares }
  -- the index before the sweep: no yield of the wrapped period, but a part of the reserve
  let fresh : GallyShare :=
    { id := shareId, assetId := acc.assetId, shareCount := amount,
      yieldClaimedIndex := acc.cumulativeYieldIndex, acquiredAtMs := now }
  let unwrapped ← unwrappedSupply acc
  let (acc, events) ← (if 0 < acc.rolloverReserve ∧ 0 < unwrapped
    then sweepRolloverInternal acc else pure (acc, []))
  return (acc, fresh, events ++
    [.sharesUnwrapped acc.assetId sender amount shareId acc.totalWrappedShares])

/-- Merges `victim` into `target`: both are claimed, the counts are added, the more
    recent acquisition time is kept. -/
def mergeShares (acc : GlobalYieldAccumulator) (target victim : GallyShare) (sender : Address) :
    Except Abort (GlobalYieldAccumulator × GallyShare × ℕ × List Event) := do
  let (acc, target, claimed, events) ← claimRewards acc target sender
  let (acc, victim, claimed', events') ← claimRewards acc victim sender
  let claimed ← add64 claimed claimed'
  -- both claims bound the deeds to `acc`, so this cannot fail
  ensure (victim.assetId = target.assetId) eShareAssetMismatch
  let combinedCount ← add64 target.shareCount victim.shareCount
  let target := { target with
    shareCount := combinedCount
    -- a merge must not shorten the wrap cooldown
    acquiredAtMs := if target.acquiredAtMs < victim.acquiredAtMs then victim.acquiredAtMs
      else target.acquiredAtMs }
  return (acc, target, claimed, events ++ events')

/-- Burns a deed for good once the asset is closed. No pause check, no config. -/
def redeemShare (acc : GlobalYieldAccumulator) (share : GallyShare) (sender : Address) :
    Except Abort (GlobalYieldAccumulator × ℕ × List Event) := do
  ensure (acc.closed = true) eNotClosed
  -- settles the history and binds the deed to `acc`
  let (acc, share, proceeds, events) ← claimRewards acc share sender
  ensure (share.assetId = acc.assetId) eShareAssetMismatch
  let totalMintedShares ← sub acc.totalMintedShares share.shareCount
  return ({ acc with totalMintedShares }, proceeds,
    events ++ [.shareRedeemed acc.assetId sender share.shareCount totalMintedShares])

/-- Reclaims the truncation residue after full redemption. -/
def adminSweepDust (acc : GlobalYieldAccumulator) (config : ProtocolConfig) :
    Except Abort (GlobalYieldAccumulator × ℕ × List Event) := do
  assertVersion config
  ensure (acc.closed = true) eNotClosed
  ensure (acc.totalMintedShares = 0 ∧ acc.totalWrappedShares = 0) eSharesOutstanding
  let residue ← add64 acc.rewardPool acc.rolloverReserve
  -- only truncation residue may leave this way
  ensure (residue ≤ acc.dustBound) eDustBoundExceeded
  return ({ acc with rewardPool := 0, rolloverReserve := 0 }, residue,
    [.dustSwept acc.assetId residue 0 0])

/-! ## Package functions -/

/-- Creates the accumulator at finalize, swallowing the virgin treasury cap. -/
def newAccumulator (assetId : ID) (totalMintedShares : ℕ) (treasuryCap : TreasuryCap) (accId : ID) :
    Except Abort GlobalYieldAccumulator := do
  ensure (treasuryCap.totalSupply = 0) eCapNotVirgin
  return { id := accId, assetId, cumulativeYieldIndex := 0, totalMintedShares,
           totalWrappedShares := 0, rewardPool := 0, rolloverReserve := 0, compensationPool := 0,
           compensationUnlockMs := 0, wrappingFrozen := false, treasuryCap, closed := false,
           lifetimeInvestorRevenue := 0, dustBound := 0 }

/-- Receives seized or slashed funds and opens or extends the grace window. -/
def addToCompensationPool (acc : GlobalYieldAccumulator) (funds unlockMs : ℕ) :
    Except Abort GlobalYieldAccumulator := do
  let compensationPool ← add64 acc.compensationPool funds
  return { acc with
    compensationPool
    wrappingFrozen := true
    -- an open grace window is only ever extended
    compensationUnlockMs := if acc.compensationUnlockMs < unlockMs then unlockMs
      else acc.compensationUnlockMs }

/-- Investor-portion intake; routed to the reserve when nothing is unwrapped. -/
def addRevenue (acc : GlobalYieldAccumulator) (funds : ℕ) :
    Except Abort (GlobalYieldAccumulator × ℕ) := do
  -- counted at intake only: the later sweep of the reserve routes the same funds
  let lifetimeInvestorRevenue ← add64 acc.lifetimeInvestorRevenue funds
  let acc ← routeInflow { acc with lifetimeInvestorRevenue } funds
  return (acc, acc.cumulativeYieldIndex)

/-- Mirrors the asset's terminal transition onto the accumulator. -/
def markClosed (acc : GlobalYieldAccumulator) : GlobalYieldAccumulator :=
  { acc with closed := true }

end Gally

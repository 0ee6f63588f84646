import Gally.Contract.Accumulator

/-!
# When the accumulator functions succeed, and what they return

One `_eq_ok` lemma for each function of `accumulator.move`: a successful call is
exactly the conjunction of its guards, and its result is spelled out with two
pure updates, `afterClaim` (a settled claim) and `afterAdvance` (an index
advance). Callers use these lemmas and never unfold the functions.
-/

namespace Gally

open Checked

/-- The unwrapped supply as a number. -/
def GlobalYieldAccumulator.unwrapped (acc : GlobalYieldAccumulator) : ℕ :=
  acc.totalMintedShares - acc.totalWrappedShares

/-- The scaled entitlement of `share`: index delta times share count. -/
def GlobalYieldAccumulator.entitlement (acc : GlobalYieldAccumulator) (share : GallyShare) : ℕ :=
  (acc.cumulativeYieldIndex - share.yieldClaimedIndex) * share.shareCount

/-- What a claim on `share` pays: the entitlement in raw units, rounded down. -/
def GlobalYieldAccumulator.payout (acc : GlobalYieldAccumulator) (share : GallyShare) : ℕ :=
  acc.entitlement share / scale

/-- What a claim adds to the dust bound: one if the index moved since the last one. -/
def GlobalYieldAccumulator.claimDust (acc : GlobalYieldAccumulator) (share : GallyShare) : ℕ :=
  if share.yieldClaimedIndex < acc.cumulativeYieldIndex then 1 else 0

/-- A claim adds at most one unit to the dust bound. -/
theorem GlobalYieldAccumulator.claimDust_le (acc : GlobalYieldAccumulator) (share : GallyShare) :
    acc.claimDust share ≤ 1 := by
  unfold GlobalYieldAccumulator.claimDust
  split <;> omega

/-- The accumulator after a claim on `share`. -/
def GlobalYieldAccumulator.afterClaim (acc : GlobalYieldAccumulator) (share : GallyShare) :
    GlobalYieldAccumulator :=
  { acc with
    dustBound := acc.dustBound + acc.claimDust share
    rewardPool := acc.rewardPool - acc.payout share }

/-- The share after a claim: its snapshot is the live index. -/
def GallyShare.settledAt (share : GallyShare) (index : ℕ) : GallyShare :=
  { share with yieldClaimedIndex := index }

/-- The increment of an index advance by `funds`. -/
def GlobalYieldAccumulator.increment (acc : GlobalYieldAccumulator) (funds : ℕ) : ℕ :=
  scale * funds / acc.unwrapped

/-- The accumulator after an index advance by `funds`. -/
def GlobalYieldAccumulator.afterAdvance (acc : GlobalYieldAccumulator) (funds : ℕ) :
    GlobalYieldAccumulator :=
  { acc with
    cumulativeYieldIndex := acc.cumulativeYieldIndex + acc.increment funds
    dustBound := acc.dustBound + acc.unwrapped / scale + 1
    rewardPool := acc.rewardPool + funds }

/-- Everything `claimRewards` checks, overflow included. -/
structure ClaimGuards (acc : GlobalYieldAccumulator) (share : GallyShare) : Prop where
  asset : share.assetId = acc.assetId
  snapshot : share.yieldClaimedIndex ≤ acc.cumulativeYieldIndex
  dust : share.yieldClaimedIndex < acc.cumulativeYieldIndex → acc.dustBound + 1 ≤ maxU64
  product : acc.entitlement share ≤ maxU128
  fits : acc.payout share ≤ maxU64
  funded : acc.payout share ≤ acc.rewardPool

/-- Everything `advanceIndex` checks, overflow included. -/
structure AdvanceGuards (acc : GlobalYieldAccumulator) (funds : ℕ) : Prop where
  supply : acc.totalWrappedShares ≤ acc.totalMintedShares
  product : scale * funds ≤ maxU128
  unwrapped : acc.unwrapped ≠ 0
  index : acc.cumulativeYieldIndex + acc.increment funds ≤ maxU128
  dust : acc.dustBound + acc.unwrapped / scale + 1 ≤ maxU64
  pool : acc.rewardPool + funds ≤ maxU64

/-! ## Views and package functions -/

/-- The unwrapped supply is returned exactly when no more is wrapped than minted. -/
@[simp] theorem unwrappedSupply_eq_ok {acc : GlobalYieldAccumulator} {r : ℕ} :
    unwrappedSupply acc = .ok r ↔
      acc.totalWrappedShares ≤ acc.totalMintedShares ∧ acc.unwrapped = r :=
  sub_eq_ok

@[simp] theorem assertAsset_eq_ok {acc : GlobalYieldAccumulator} {a : ID} {u : Unit} :
    assertAsset acc a = .ok u ↔ acc.assetId = a := ensure_eq_ok

/-- The payout of a deed is returned exactly when its snapshot is not ahead and nothing
    overflows. -/
theorem pendingPayout_eq_ok {acc : GlobalYieldAccumulator} {share : GallyShare} {r : ℕ} :
    pendingPayout acc share = .ok r ↔
      share.yieldClaimedIndex ≤ acc.cumulativeYieldIndex ∧ acc.entitlement share ≤ maxU128 ∧
      acc.payout share ≤ maxU64 ∧ acc.payout share = r := by
  simp only [pendingPayout, seq_eq_ok, sub_eq_ok, mul128_eq_ok, ensure_eq_ok, return_eq_ok,
    GlobalYieldAccumulator.payout, GlobalYieldAccumulator.entitlement]
  -- every check of the source is one conjunct, in its order
  constructor
  · rintro ⟨_, ⟨hs, rfl⟩, _, ⟨hp, rfl⟩, -, hf, hr⟩
    exact ⟨hs, hp, hf, hr⟩
  · rintro ⟨hs, hp, hf, hr⟩
    exact ⟨_, ⟨hs, rfl⟩, _, ⟨hp, rfl⟩, (), hf, hr⟩

/-- An accumulator is created exactly from a treasury cap that has not minted. -/
theorem newAccumulator_eq_ok {assetId accId : ID} {minted : ℕ} {cap : TreasuryCap}
    {acc : GlobalYieldAccumulator} :
    newAccumulator assetId minted cap accId = .ok acc ↔
      cap.totalSupply = 0 ∧ acc =
        { id := accId, assetId, cumulativeYieldIndex := 0, totalMintedShares := minted,
          totalWrappedShares := 0, rewardPool := 0, rolloverReserve := 0, compensationPool := 0,
          compensationUnlockMs := 0, wrappingFrozen := false, treasuryCap := cap,
          closed := false, lifetimeInvestorRevenue := 0, dustBound := 0 } := by
  simp only [newAccumulator, seq_eq_ok, ensure_eq_ok, return_eq_ok, exists_and_left, exists_const]
  exact and_congr_right fun _ => eq_comm

/-- Compensation is added exactly when the pool does not overflow; it freezes wrapping and only
    moves the end of the grace period forward. -/
theorem addToCompensationPool_eq_ok {acc acc' : GlobalYieldAccumulator} {funds unlockMs : ℕ} :
    addToCompensationPool acc funds unlockMs = .ok acc' ↔
      acc.compensationPool + funds ≤ maxU64 ∧ acc' = { acc with
        compensationPool := acc.compensationPool + funds
        wrappingFrozen := true
        compensationUnlockMs := max acc.compensationUnlockMs unlockMs } := by
  -- the source moves the unlock time only forward
  have hmax : (if acc.compensationUnlockMs < unlockMs then unlockMs
      else acc.compensationUnlockMs) = max acc.compensationUnlockMs unlockMs := by
    rw [Nat.max_def]; split <;> split <;> omega
  simp only [addToCompensationPool, hmax, seq_eq_ok, add64_eq_ok, return_eq_ok]
  constructor
  · rintro ⟨_, ⟨h, rfl⟩, rfl⟩
    exact ⟨h, rfl⟩
  · rintro ⟨h, rfl⟩
    exact ⟨_, ⟨h, rfl⟩, rfl⟩

/-! ## The index -/

/-- The index advances exactly when the guards hold. -/
theorem advanceIndex_eq_ok {acc acc' : GlobalYieldAccumulator} {funds : ℕ} :
    advanceIndex acc funds = .ok acc' ↔
      AdvanceGuards acc funds ∧ acc' = acc.afterAdvance funds := by
  simp only [advanceIndex, seq_eq_ok, unwrappedSupply_eq_ok, mul128_eq_ok, div_eq_ok,
    add128_eq_ok, add64_eq_ok, return_eq_ok]
  constructor
  · rintro ⟨_, ⟨hs, rfl⟩, _, ⟨hp, rfl⟩, _, ⟨hu, rfl⟩, _, ⟨hi, rfl⟩, _, ⟨-, rfl⟩, _, ⟨hd, rfl⟩,
      _, ⟨hr, rfl⟩, rfl⟩
    exact ⟨⟨hs, hp, hu, hi, hd, hr⟩, rfl⟩
  -- the two subtractions of the source follow from the supply bound
  · rintro ⟨⟨hs, hp, hu, hi, hd, hr⟩, rfl⟩
    exact ⟨_, ⟨hs, rfl⟩, _, ⟨hp, rfl⟩, _, ⟨hu, rfl⟩, _, ⟨hi, rfl⟩, _, ⟨by omega, rfl⟩, _,
      ⟨hd, rfl⟩, _, ⟨hr, rfl⟩, rfl⟩

/-- The accumulator with its rollover reserve withdrawn. -/
def GlobalYieldAccumulator.drained (acc : GlobalYieldAccumulator) : GlobalYieldAccumulator :=
  { acc with rolloverReserve := 0 }

@[simp] theorem drained_unwrapped (acc : GlobalYieldAccumulator) :
    acc.drained.unwrapped = acc.unwrapped := rfl

@[simp] theorem afterAdvance_unwrapped (acc : GlobalYieldAccumulator) (funds : ℕ) :
    (acc.afterAdvance funds).unwrapped = acc.unwrapped := rfl

@[simp] theorem drained_increment (acc : GlobalYieldAccumulator) (funds : ℕ) :
    acc.drained.increment funds = acc.increment funds := rfl

/-- The guards of an advance do not look at the reserve. -/
theorem advanceGuards_drained {acc : GlobalYieldAccumulator} {funds : ℕ} :
    AdvanceGuards acc.drained funds ↔ AdvanceGuards acc funds :=
  ⟨fun ⟨hs, hp, hu, hi, hd, hr⟩ => ⟨hs, hp, hu, hi, hd, hr⟩,
    fun ⟨hs, hp, hu, hi, hd, hr⟩ => ⟨hs, hp, hu, hi, hd, hr⟩⟩

/-- The internal sweep succeeds exactly when the index can take the whole reserve. -/
theorem sweepRolloverInternal_eq_ok {acc acc' : GlobalYieldAccumulator} {events : List Event} :
    sweepRolloverInternal acc = .ok (acc', events) ↔
      AdvanceGuards acc acc.rolloverReserve ∧
      acc' = acc.drained.afterAdvance acc.rolloverReserve ∧
      events = [.rolloverSwept acc.assetId acc.rolloverReserve
        (acc.cumulativeYieldIndex + acc.increment acc.rolloverReserve) acc.unwrapped
        (acc.rewardPool + acc.rolloverReserve) 0] := by
  simp only [sweepRolloverInternal, seq_eq_ok, advanceIndex_eq_ok, unwrappedSupply_eq_ok,
    return_eq_ok, Prod.mk.injEq]
  constructor
  -- the reserve is emptied before the index advances, which the guards do not notice
  · rintro ⟨_, ⟨hg, rfl⟩, _, ⟨-, rfl⟩, rfl, rfl⟩
    exact ⟨advanceGuards_drained.mp hg, rfl, rfl⟩
  · rintro ⟨hg, rfl, rfl⟩
    exact ⟨_, ⟨advanceGuards_drained.mpr hg, rfl⟩, _, ⟨hg.supply, rfl⟩, rfl, rfl⟩

/-- The reserve can be swept exactly when there is one and the index can take it. -/
theorem sweepRollover_eq_ok {acc : GlobalYieldAccumulator}
    {r : GlobalYieldAccumulator × List Event} :
    sweepRollover acc = .ok r ↔
      0 < acc.rolloverReserve ∧ AdvanceGuards acc acc.rolloverReserve ∧
      r = (acc.drained.afterAdvance acc.rolloverReserve,
        [.rolloverSwept acc.assetId acc.rolloverReserve
          (acc.cumulativeYieldIndex + acc.increment acc.rolloverReserve) acc.unwrapped
          (acc.rewardPool + acc.rolloverReserve) 0]) := by
  simp only [sweepRollover, seq_eq_ok, ensure_eq_ok, unwrappedSupply_eq_ok]
  constructor
  · rintro ⟨-, h0, _, ⟨-, rfl⟩, -, -, h⟩
    obtain ⟨hg, h1, h2⟩ := sweepRolloverInternal_eq_ok.mp h
    exact ⟨h0, hg, Prod.ext h1 h2⟩
  -- the check that something is unwrapped is one of the guards
  · rintro ⟨h0, hg, rfl⟩
    exact ⟨(), h0, _, ⟨hg.supply, rfl⟩, (), Nat.pos_of_ne_zero hg.unwrapped,
      sweepRolloverInternal_eq_ok.mpr ⟨hg, rfl, rfl⟩⟩

/-- Where an inflow goes: into the rollover reserve when nothing is unwrapped, through
    the index otherwise. -/
def Routed (acc : GlobalYieldAccumulator) (funds : ℕ) (acc' : GlobalYieldAccumulator) : Prop :=
  (acc.unwrapped = 0 ∧ acc.rolloverReserve + funds ≤ maxU64 ∧
    acc' = { acc with rolloverReserve := acc.rolloverReserve + funds }) ∨
  (acc.unwrapped ≠ 0 ∧ AdvanceGuards acc funds ∧ acc' = acc.afterAdvance funds)

/-- An inflow is routed to the index or, where nothing is unwrapped, to the reserve. -/
theorem routeInflow_eq_ok {acc acc' : GlobalYieldAccumulator} {funds : ℕ} :
    routeInflow acc funds = .ok acc' ↔
      acc.totalWrappedShares ≤ acc.totalMintedShares ∧ Routed acc funds acc' := by
  simp only [routeInflow, seq_eq_ok, unwrappedSupply_eq_ok, ite_eq_ok, add64_eq_ok, return_eq_ok,
    advanceIndex_eq_ok]
  constructor
  · rintro ⟨_, ⟨hs, rfl⟩, ⟨h0, _, ⟨hr, rfl⟩, rfl⟩ | ⟨h0, hg, rfl⟩⟩
    · exact ⟨hs, Or.inl ⟨h0, hr, rfl⟩⟩
    · exact ⟨hs, Or.inr ⟨h0, hg, rfl⟩⟩
  · rintro ⟨hs, ⟨h0, hr, rfl⟩ | ⟨h0, hg, rfl⟩⟩
    · exact ⟨_, ⟨hs, rfl⟩, Or.inl ⟨h0, _, ⟨hr, rfl⟩, rfl⟩⟩
    · exact ⟨_, ⟨hs, rfl⟩, Or.inr ⟨h0, hg, rfl⟩⟩

/-- What routing and advancing leave alone. -/
structure SameShape (acc acc' : GlobalYieldAccumulator) : Prop where
  id : acc'.id = acc.id
  assetId : acc'.assetId = acc.assetId
  minted : acc'.totalMintedShares = acc.totalMintedShares
  wrapped : acc'.totalWrappedShares = acc.totalWrappedShares
  cap : acc'.treasuryCap = acc.treasuryCap

/-- Accumulators of the same shape have the same unwrapped supply. -/
theorem SameShape.unwrapped {acc acc' : GlobalYieldAccumulator} (h : SameShape acc acc') :
    acc'.unwrapped = acc.unwrapped := by
  rw [GlobalYieldAccumulator.unwrapped, h.minted, h.wrapped, GlobalYieldAccumulator.unwrapped]

/-- Of accumulators of the same shape one wraps at most what it minted if the other does. -/
theorem SameShape.supply {acc acc' : GlobalYieldAccumulator} (h : SameShape acc acc')
    (hs : acc.totalWrappedShares ≤ acc.totalMintedShares) :
    acc'.totalWrappedShares ≤ acc'.totalMintedShares := by
  rwa [h.minted, h.wrapped]

/-- Routing keeps the shape of the accumulator. -/
theorem Routed.frame {acc acc' : GlobalYieldAccumulator} {funds : ℕ} (h : Routed acc funds acc') :
    SameShape acc acc' := by
  rcases h with ⟨-, -, rfl⟩ | ⟨-, -, rfl⟩ <;> exact ⟨rfl, rfl, rfl, rfl, rfl⟩

/-- Routing does not close the accumulator. -/
theorem Routed.closed {acc acc' : GlobalYieldAccumulator} {funds : ℕ} (h : Routed acc funds acc') :
    acc'.closed = acc.closed := by
  rcases h with ⟨-, -, rfl⟩ | ⟨-, -, rfl⟩ <;> rfl

/-- `addRevenue` counts the inflow once and routes it. -/
theorem addRevenue_eq_ok {acc acc' : GlobalYieldAccumulator} {funds index : ℕ} :
    addRevenue acc funds = .ok (acc', index) ↔
      acc.lifetimeInvestorRevenue + funds ≤ maxU64 ∧
      acc.totalWrappedShares ≤ acc.totalMintedShares ∧
      Routed { acc with lifetimeInvestorRevenue := acc.lifetimeInvestorRevenue + funds } funds
        acc' ∧ index = acc'.cumulativeYieldIndex := by
  simp only [addRevenue, seq_eq_ok, add64_eq_ok, routeInflow_eq_ok, return_eq_ok, Prod.mk.injEq]
  constructor
  · rintro ⟨_, ⟨hl, rfl⟩, next, ⟨hs, hr⟩, rfl, rfl⟩
    exact ⟨hl, hs, hr, rfl⟩
  · rintro ⟨hl, hs, hr, rfl⟩
    exact ⟨_, ⟨hl, rfl⟩, acc', ⟨hs, hr⟩, rfl, rfl⟩

/-- Compensation is swept exactly when the grace period is over and there is something to route. -/
theorem sweepCompensation_eq_ok {acc acc' : GlobalYieldAccumulator} {now : ℕ}
    {events : List Event} :
    sweepCompensation acc now = .ok (acc', events) ↔
      acc.compensationUnlockMs ≤ now ∧ 0 < acc.compensationPool ∧
      acc.totalWrappedShares ≤ acc.totalMintedShares ∧
      (∃ routed, Routed { acc with compensationPool := 0 } acc.compensationPool routed ∧
        acc' = { routed with wrappingFrozen := false }) ∧
      events = [.compensationSwept acc'.assetId acc.compensationPool acc'.cumulativeYieldIndex
        acc.unwrapped (acc.unwrapped = 0) acc'.rewardPool acc'.rolloverReserve
        acc'.compensationPool false] := by
  simp only [sweepCompensation, seq_eq_ok, ensure_eq_ok, unwrappedSupply_eq_ok, routeInflow_eq_ok,
    return_eq_ok, Prod.mk.injEq]
  constructor
  · rintro ⟨-, hu, -, hp, _, ⟨hs, rfl⟩, routed, ⟨-, hr⟩, rfl, rfl⟩
    exact ⟨hu, hp, hs, ⟨routed, hr, rfl⟩, rfl⟩
  · rintro ⟨hu, hp, hs, ⟨routed, hr, rfl⟩, rfl⟩
    exact ⟨(), hu, (), hp, _, ⟨hs, rfl⟩, routed, ⟨hs, hr⟩, rfl, rfl⟩

/-! ## Claims -/

/-- Rewards are claimed exactly when the guards hold; the deed is moved to the index and its payout
    leaves the pool. -/
theorem claimRewards_eq_ok {acc : GlobalYieldAccumulator} {share : GallyShare} {sender : Address}
    {r : GlobalYieldAccumulator × GallyShare × ℕ × List Event} :
    claimRewards acc share sender = .ok r ↔
      ClaimGuards acc share ∧
      r = (acc.afterClaim share, share.settledAt acc.cumulativeYieldIndex, acc.payout share,
        [.yieldClaimed acc.assetId sender (acc.payout share) acc.cumulativeYieldIndex
          (acc.rewardPool - acc.payout share)]) := by
  -- the dust bound only grows if the index moved since the deed's snapshot
  have hdust : ∀ {d : ℕ}, ((if share.yieldClaimedIndex < acc.cumulativeYieldIndex
      then add64 acc.dustBound 1 else pure acc.dustBound : Except Abort ℕ) = .ok d) ↔
      (share.yieldClaimedIndex < acc.cumulativeYieldIndex → acc.dustBound + 1 ≤ maxU64) ∧
      acc.dustBound + acc.claimDust share = d := by
    intro d
    rw [ite_eq_ok, GlobalYieldAccumulator.claimDust, add64_eq_ok, return_eq_ok]
    by_cases h : share.yieldClaimedIndex < acc.cumulativeYieldIndex <;> simp [h]
  simp only [claimRewards, seq_eq_ok, ensure_eq_ok, hdust, pendingPayout_eq_ok, takeOut_eq_ok,
    return_eq_ok]
  constructor
  · rintro ⟨-, ha, _, ⟨hd, rfl⟩, _, ⟨hs, hp, hf, rfl⟩, _, ⟨hr, rfl⟩, rfl⟩
    exact ⟨⟨ha, hs, hd, hp, hf, hr⟩, rfl⟩
  · rintro ⟨⟨ha, hs, hd, hp, hf, hr⟩, rfl⟩
    exact ⟨(), ha, _, ⟨hd, rfl⟩, _, ⟨hs, hp, hf, rfl⟩, _, ⟨hr, rfl⟩, rfl⟩

/-! ## Wrap, unwrap, merge, redeem -/

/-- Everything `wrapShares` checks. -/
structure WrapGuards (acc : GlobalYieldAccumulator) (config : ProtocolConfig) (share : GallyShare)
    (now : ℕ) : Prop where
  version : config.version = Gally.version
  unpaused : config.paused = false
  unfrozen : acc.wrappingFrozen = false
  notClosed : acc.closed = false
  cooldownFits : share.acquiredAtMs + config.minWrapDurationMs ≤ maxU64
  cooldown : share.acquiredAtMs + config.minWrapDurationMs ≤ now
  claim : ClaimGuards acc share
  wrapped : acc.totalWrappedShares + share.shareCount ≤ maxU64
  supply : share.shareCount < maxU64 - acc.treasuryCap.totalSupply

/-- The accumulator after `share` was claimed on and wrapped. -/
def GlobalYieldAccumulator.afterWrap (acc : GlobalYieldAccumulator) (share : GallyShare) :
    GlobalYieldAccumulator :=
  { acc.afterClaim share with
    totalWrappedShares := acc.totalWrappedShares + share.shareCount
    treasuryCap := { acc.treasuryCap with
      totalSupply := acc.treasuryCap.totalSupply + share.shareCount } }

/-- A deed is wrapped exactly when the guards hold; its rewards are claimed first. -/
theorem wrapShares_eq_ok {acc : GlobalYieldAccumulator} {config : ProtocolConfig}
    {share : GallyShare} {now : ℕ} {sender : Address} {coinId : ID}
    {r : GlobalYieldAccumulator × TokenCoin × ℕ × List Event} :
    wrapShares acc config share now sender coinId = .ok r ↔
      WrapGuards acc config share now ∧
      r = (acc.afterWrap share,
        { id := coinId, token := acc.treasuryCap.token, value := share.shareCount },
        acc.payout share,
        [.yieldClaimed acc.assetId sender (acc.payout share) acc.cumulativeYieldIndex
          (acc.rewardPool - acc.payout share),
         .sharesWrapped acc.assetId sender share.shareCount
          (acc.totalWrappedShares + share.shareCount)]) := by
  simp only [wrapShares, seq_eq_ok, assertVersion_eq_ok, assertNotPaused_eq_ok, ensure_eq_ok,
    add64_eq_ok, claimRewards_eq_ok, TreasuryCap.mint_eq_ok, return_eq_ok]
  constructor
  -- the claim of the rewards is a call of `claim_rewards`, with its guards
  · rintro ⟨-, hv, -, hn, -, ⟨hf, hc⟩, _, ⟨ho, rfl⟩, -, hnow, _, ⟨hg, rfl⟩, _, ⟨hw, rfl⟩, _,
      ⟨hm, rfl⟩, rfl⟩
    exact ⟨⟨hv, hn, hf, hc, ho, hnow, hg, hw, hm⟩, rfl⟩
  · rintro ⟨⟨hv, hn, hf, hc, ho, hnow, hg, hw, hm⟩, rfl⟩
    exact ⟨(), hv, (), hn, (), ⟨hf, hc⟩, _, ⟨ho, rfl⟩, (), hnow, _, ⟨hg, rfl⟩, _, ⟨hw, rfl⟩, _,
      ⟨hm, rfl⟩, rfl⟩

/-- The accumulator after `amount` units of its coin were burned. -/
def GlobalYieldAccumulator.afterBurn (acc : GlobalYieldAccumulator) (amount : ℕ) :
    GlobalYieldAccumulator :=
  { acc with
    treasuryCap := { acc.treasuryCap with totalSupply := acc.treasuryCap.totalSupply - amount }
    totalWrappedShares := acc.totalWrappedShares - amount }

/-- The deed minted for `amount` units unwrapped at time `now`. -/
def GlobalYieldAccumulator.freshShare (acc : GlobalYieldAccumulator) (shareId amount now : ℕ) :
    GallyShare :=
  { id := shareId, assetId := acc.assetId, shareCount := amount,
    yieldClaimedIndex := acc.cumulativeYieldIndex, acquiredAtMs := now }

/-- The auto-sweep at the end of an unwrap. -/
def AutoSwept (acc acc' : GlobalYieldAccumulator) (events : List Event) : Prop :=
  ((0 < acc.rolloverReserve ∧ 0 < acc.unwrapped) ∧ sweepRolloverInternal acc = .ok (acc', events)) ∨
  (¬ (0 < acc.rolloverReserve ∧ 0 < acc.unwrapped) ∧ acc' = acc ∧ events = [])

/-- The sweep after an unwrap keeps the shape of the accumulator. -/
theorem AutoSwept.frame {acc acc' : GlobalYieldAccumulator} {events : List Event}
    (h : AutoSwept acc acc' events) : SameShape acc acc' := by
  rcases h with ⟨-, h⟩ | ⟨-, rfl, -⟩
  · obtain ⟨-, rfl, -⟩ := sweepRolloverInternal_eq_ok.mp h
    exact ⟨rfl, rfl, rfl, rfl, rfl⟩
  · exact ⟨rfl, rfl, rfl, rfl, rfl⟩

/-- The sweep after an unwrap does not close the accumulator. -/
theorem AutoSwept.closed {acc acc' : GlobalYieldAccumulator} {events : List Event}
    (h : AutoSwept acc acc' events) : acc'.closed = acc.closed := by
  rcases h with ⟨-, h⟩ | ⟨-, rfl, -⟩
  · obtain ⟨-, rfl, -⟩ := sweepRolloverInternal_eq_ok.mp h
    rfl
  · rfl

/-- Everything `unwrapCoins` checks before the auto-sweep. -/
structure UnwrapGuards (acc : GlobalYieldAccumulator) (coin : TokenCoin) : Prop where
  positive : 0 < coin.value
  supply : coin.value ≤ acc.treasuryCap.totalSupply
  wrapped : coin.value ≤ acc.totalWrappedShares
  minted : acc.totalWrappedShares - coin.value ≤ acc.totalMintedShares

/-- A coin is unwrapped exactly when the guards hold and the reserve, if there is one, can be
    swept. -/
theorem unwrapCoins_eq_ok {acc acc' : GlobalYieldAccumulator} {coin : TokenCoin} {now : ℕ}
    {sender : Address} {shareId : ID} {fresh : GallyShare} {events : List Event} :
    unwrapCoins acc coin now sender shareId = .ok (acc', fresh, events) ↔
      UnwrapGuards acc coin ∧ fresh = acc.freshShare shareId coin.value now ∧
      ∃ swept, AutoSwept (acc.afterBurn coin.value) acc' swept ∧
        events = swept ++
          [.sharesUnwrapped acc'.assetId sender coin.value shareId acc'.totalWrappedShares] := by
  simp only [unwrapCoins, seq_eq_ok, ensure_eq_ok, TreasuryCap.burn_eq_ok, sub_eq_ok,
    unwrappedSupply_eq_ok, ite_eq_ok, return_eq_ok, Prod.mk.injEq]
  constructor
  · rintro ⟨-, h0, _, ⟨hb, rfl⟩, _, ⟨hw, rfl⟩, _, ⟨hs, rfl⟩, ⟨_, swept⟩, hsw, rfl, rfl, rfl⟩
    refine ⟨⟨h0, hb, hw, hs⟩, rfl, swept, ?_, rfl⟩
    -- the source sweeps only where there is a reserve and something unwrapped
    rcases hsw with hsw | ⟨hn, hsw⟩
    · exact Or.inl hsw
    · simp only [Prod.mk.injEq] at hsw
      exact Or.inr ⟨hn, hsw.1.symm, hsw.2.symm⟩
  · rintro ⟨⟨h0, hb, hw, hs⟩, rfl, swept, hsw, rfl⟩
    refine ⟨(), h0, _, ⟨hb, rfl⟩, _, ⟨hw, rfl⟩, _, ⟨hs, rfl⟩, (acc', swept), ?_, rfl, rfl, rfl⟩
    rcases hsw with hsw | ⟨hn, rfl, rfl⟩
    · exact Or.inl hsw
    · exact Or.inr ⟨hn, rfl⟩

/-- The share that results from merging `victim` into `target` at index `index`. -/
def GallyShare.mergedWith (target victim : GallyShare) (index : ℕ) : GallyShare :=
  { target with
    shareCount := target.shareCount + victim.shareCount
    yieldClaimedIndex := index
    acquiredAtMs := max target.acquiredAtMs victim.acquiredAtMs }

/-- Everything `mergeShares` checks. -/
structure MergeGuards (acc : GlobalYieldAccumulator) (target victim : GallyShare) : Prop where
  claim : ClaimGuards acc target
  claim' : ClaimGuards (acc.afterClaim target) victim
  claimed : acc.payout target + acc.payout victim ≤ maxU64
  count : target.shareCount + victim.shareCount ≤ maxU64

/-- Two deeds are merged exactly when both can claim and their sum fits; the later entry date
    counts. -/
theorem mergeShares_eq_ok {acc : GlobalYieldAccumulator} {target victim : GallyShare}
    {sender : Address} {r : GlobalYieldAccumulator × GallyShare × ℕ × List Event} :
    mergeShares acc target victim sender = .ok r ↔
      MergeGuards acc target victim ∧
      r = ((acc.afterClaim target).afterClaim victim,
        target.mergedWith victim acc.cumulativeYieldIndex,
        acc.payout target + acc.payout victim,
        [.yieldClaimed acc.assetId sender (acc.payout target) acc.cumulativeYieldIndex
          (acc.rewardPool - acc.payout target),
         .yieldClaimed acc.assetId sender (acc.payout victim) acc.cumulativeYieldIndex
          (acc.rewardPool - acc.payout target - acc.payout victim)]) := by
  -- the later entry date is the maximum of the two
  have hmerge : target.mergedWith victim acc.cumulativeYieldIndex = { target with
      shareCount := target.shareCount + victim.shareCount
      yieldClaimedIndex := acc.cumulativeYieldIndex
      acquiredAtMs := if target.acquiredAtMs < victim.acquiredAtMs then victim.acquiredAtMs
        else target.acquiredAtMs } := by
    simp only [GallyShare.mergedWith, Nat.max_def, GallyShare.mk.injEq, true_and]
    split <;> split <;> omega
  simp only [mergeShares, seq_eq_ok, ensure_eq_ok, add64_eq_ok, claimRewards_eq_ok, return_eq_ok,
    hmerge]
  constructor
  · rintro ⟨_, ⟨ht, rfl⟩, _, ⟨hv, rfl⟩, _, ⟨hp, rfl⟩, -, -, _, ⟨hc, rfl⟩, rfl⟩
    exact ⟨⟨ht, hv, hp, hc⟩, rfl⟩
  -- that the deeds belong to one asset follows from the two claims
  · rintro ⟨⟨ht, hv, hp, hc⟩, rfl⟩
    exact ⟨_, ⟨ht, rfl⟩, _, ⟨hv, rfl⟩, _, ⟨hp, rfl⟩, (), hv.asset.trans ht.asset.symm, _, ⟨hc, rfl⟩,
      rfl⟩

/-- Everything `redeemShare` checks. -/
structure RedeemGuards (acc : GlobalYieldAccumulator) (share : GallyShare) : Prop where
  closed : acc.closed = true
  claim : ClaimGuards acc share
  minted : share.shareCount ≤ acc.totalMintedShares

/-- The accumulator after `share` was claimed on and burnt. -/
def GlobalYieldAccumulator.afterRedeem (acc : GlobalYieldAccumulator) (share : GallyShare) :
    GlobalYieldAccumulator :=
  { acc.afterClaim share with totalMintedShares := acc.totalMintedShares - share.shareCount }

/-- A deed is redeemed exactly when the guards hold; its rewards are claimed first. -/
theorem redeemShare_eq_ok {acc : GlobalYieldAccumulator} {share : GallyShare} {sender : Address}
    {r : GlobalYieldAccumulator × ℕ × List Event} :
    redeemShare acc share sender = .ok r ↔
      RedeemGuards acc share ∧
      r = (acc.afterRedeem share, acc.payout share,
        [.yieldClaimed acc.assetId sender (acc.payout share) acc.cumulativeYieldIndex
          (acc.rewardPool - acc.payout share),
         .shareRedeemed acc.assetId sender share.shareCount
          (acc.totalMintedShares - share.shareCount)]) := by
  simp only [redeemShare, seq_eq_ok, ensure_eq_ok, sub_eq_ok, claimRewards_eq_ok, return_eq_ok]
  constructor
  · rintro ⟨-, hc, _, ⟨hg, rfl⟩, -, -, _, ⟨hm, rfl⟩, rfl⟩
    exact ⟨⟨hc, hg, hm⟩, rfl⟩
  · rintro ⟨⟨hc, hg, hm⟩, rfl⟩
    exact ⟨(), hc, _, ⟨hg, rfl⟩, (), hg.asset, _, ⟨hm, rfl⟩, rfl⟩

/-- What is left in the pools after everything was redeemed. -/
def GlobalYieldAccumulator.residue (acc : GlobalYieldAccumulator) : ℕ :=
  acc.rewardPool + acc.rolloverReserve

/-- The accumulator after the residue was swept. -/
def GlobalYieldAccumulator.afterDust (acc : GlobalYieldAccumulator) : GlobalYieldAccumulator :=
  { acc with rewardPool := 0, rolloverReserve := 0 }

/-- Everything `adminSweepDust` checks. -/
structure DustGuards (acc : GlobalYieldAccumulator) (config : ProtocolConfig) : Prop where
  version : config.version = Gally.version
  closed : acc.closed = true
  minted : acc.totalMintedShares = 0
  wrapped : acc.totalWrappedShares = 0
  fits : acc.residue ≤ maxU64
  bound : acc.residue ≤ acc.dustBound

/-- Dust is swept exactly when the accumulator is closed, nothing is outstanding and the bound
    holds. -/
theorem adminSweepDust_eq_ok {acc : GlobalYieldAccumulator} {config : ProtocolConfig}
    {r : GlobalYieldAccumulator × ℕ × List Event} :
    adminSweepDust acc config = .ok r ↔
      DustGuards acc config ∧
      r = (acc.afterDust, acc.residue, [.dustSwept acc.assetId acc.residue 0 0]) := by
  simp only [adminSweepDust, seq_eq_ok, assertVersion_eq_ok, ensure_eq_ok, add64_eq_ok,
    return_eq_ok]
  -- the residue is what is left in all three pools
  constructor
  · rintro ⟨-, hv, -, hc, -, ⟨hm, hw⟩, _, ⟨ho, rfl⟩, -, hb, rfl⟩
    exact ⟨⟨hv, hc, hm, hw, ho, hb⟩, rfl⟩
  · rintro ⟨⟨hv, hc, hm, hw, ho, hb⟩, rfl⟩
    exact ⟨(), hv, (), hc, (), ⟨hm, hw⟩, _, ⟨ho, rfl⟩, (), hb, rfl⟩

end Gally

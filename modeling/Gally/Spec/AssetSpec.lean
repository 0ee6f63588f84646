import Gally.Contract.Asset
import Gally.Spec.AccumulatorSpec

/-!
# When the asset functions succeed, and what they return

Each function of `asset.move` with more than a couple of checks has them as a
structure (`VouchGuards`, `ReleaseGuards`, ...), and its effect on the asset as a
pure update (`vouched`, `afterRelease`, ...). The `_eq_ok` lemma of a function says
that it returns exactly this update exactly when the guards hold.
-/

namespace Gally

open Checked

@[simp] theorem assertState_eq_ok {asset : Asset} {s : AssetState} {u : Unit} :
    assertState asset s = .ok u ↔ asset.state = s := ensure_eq_ok

@[simp] theorem assertEntityCap_eq_ok {asset : Asset} {cap : EntityCap} {u : Unit} :
    assertEntityCap asset cap = .ok u ↔ cap.assetId = asset.id := ensure_eq_ok

@[simp] theorem assertVouchingPool_eq_ok {asset : Asset} {pool : ValidatorPool} {u : Unit} :
    assertVouchingPool asset pool = .ok u ↔ asset.validatorPoolId = some pool.id := ensure_eq_ok

/-- The three states that the source counts as after finalize. -/
theorem isPostFinalize_iff {asset : Asset} :
    isPostFinalize asset = true ↔
      asset.state = .executing ∨ asset.state = .operational ∨ asset.state = .compensating := by
  simp [isPostFinalize]

/-! ## Listing -/

/-- The sum of the tranche amounts. -/
def trancheTotal (ts : List Tranche) : ℕ := (ts.map Tranche.amount).sum

@[simp] theorem trancheTotal_nil : trancheTotal [] = 0 := rfl

@[simp] theorem trancheTotal_cons (t : Tranche) (ts : List Tranche) :
    trancheTotal (t :: ts) = t.amount + trancheTotal ts := rfl

/-- A tranche as the listing creates it. -/
structure Tranche.Fresh (t : Tranche) : Prop where
  positive : 0 < t.amount
  unreleased : t.released = false
  unproved : t.proof = none
  unapproved : t.approvedBy = none

/-- The loop of the listing creates fresh tranches, one for each amount, and returns
    the running sum. -/
theorem buildTranches_eq_ok {amounts : List U64} {descriptions : List Bytes}
    {deadlines : List U64} {sum prev : ℕ} {ts : List Tranche} {total : ℕ}
    (h : buildTranches amounts descriptions deadlines sum prev = .ok (ts, total))
    (hd : descriptions.length = amounts.length) (hl : deadlines.length = amounts.length) :
    total = sum + trancheTotal ts ∧ ts.length = amounts.length ∧ ∀ t ∈ ts, t.Fresh := by
  -- on the amounts; the two other lists run along, since they have the same length
  induction amounts generalizing descriptions deadlines sum prev ts total with
  | nil =>
    simp only [buildTranches, Except.ok.injEq, Prod.mk.injEq] at h
    obtain ⟨rfl, rfl⟩ := h
    simp
  | cons a amounts ih =>
    obtain _ | ⟨d, descriptions⟩ := descriptions
    · simp at hd
    obtain _ | ⟨l, deadlines⟩ := deadlines
    · simp at hl
    simp only [buildTranches, seq_eq_ok, ensure_eq_ok, add64_eq_ok, return_eq_ok,
      Prod.mk.injEq] at h
    obtain ⟨-, hpos, -, -, _, ⟨-, rfl⟩, ⟨rest, total'⟩, hrest, rfl, rfl⟩ := h
    obtain ⟨hsum, hlen, hfresh⟩ := ih hrest (by simpa using hd) (by simpa using hl)
    refine ⟨by rw [hsum, trancheTotal_cons, Nat.add_assoc], by simp [hlen], ?_⟩
    intro t ht
    rcases List.mem_cons.mp ht with rfl | ht
    · exact ⟨hpos, rfl, rfl, rfl⟩
    · exact hfresh t ht

/-- A new listing: nothing raised, nothing vouched, every tranche fresh, and the
    tranches add up to the goal. -/
structure Asset.Listed (asset : Asset) (collateral : ℕ) : Prop where
  state : asset.state = .pendingVouch
  pool : asset.validatorPoolId = none
  coverage : asset.coverageLocked = 0
  raised : asset.raised = 0
  escrow : asset.escrow = 0
  nextTranche : asset.nextTranche = 0
  collateral : asset.entityCollateral = collateral
  accumulator : asset.accumulatorId = none
  disputed : asset.disputed = false
  docs : asset.legalDocs = none
  goal : 0 < asset.fundingGoal
  goalFits : asset.fundingGoal ≤ maxU64
  split : asset.revenueSplitBps ≤ bpsDenominator
  count : asset.tranches.length ≤ maxU64
  fresh : ∀ t ∈ asset.tranches, t.Fresh
  total : trancheTotal asset.tranches = asset.fundingGoal

/-- A `u64` is at most the largest. -/
theorem U64.val_le (n : U64) : n.val ≤ maxU64 := by
  have := n.isLt
  simp only [maxU64]
  omega

/-- A list of positive numbers is at most as long as its sum. -/
theorem length_le_trancheTotal {ts : List Tranche} (h : ∀ t ∈ ts, 0 < t.amount) :
    ts.length ≤ trancheTotal ts := by
  -- every tranche adds at least one
  induction ts with
  | nil => simp
  | cons t ts ih =>
    have ht := h t (by simp)
    have hts := ih fun t' h' => h t' (by simp [h'])
    simp only [List.length_cons, trancheTotal_cons]
    omega

/-- What a listing by `sender` creates. -/
structure Asset.CreatedBy (asset : Asset) (cap : EntityCap) (sender : Address)
    (collateral now : ℕ) (assetId capId : ID) : Prop where
  listed : asset.Listed collateral
  id : asset.id = assetId
  entity : asset.entity = sender
  cap : cap = { id := capId, assetId }
  deadline : now < asset.fundingDeadlineMs

/-- What a listing creates: a fresh asset with a sound schedule, and its cap. -/
theorem createAssetInternal_ok {config : ProtocolConfig} {l : Listing} {isTerm : Bool}
    {target : U64} {collateral now : ℕ} {sender : Address} {assetId capId : ID}
    {asset : Asset} {cap : EntityCap} {events : List Event}
    (h : createAssetInternal config l isTerm target collateral now sender assetId capId =
      .ok (asset, cap, events)) :
    asset.CreatedBy cap sender collateral now assetId capId := by
  simp only [createAssetInternal, seq_eq_ok, assertVersion_eq_ok, assertNotPaused_eq_ok,
    ensure_eq_ok, mulBps_eq_ok, return_eq_ok, Prod.mk.injEq] at h
  obtain ⟨-, -, -, -, -, -, -, -, -, -, -, -, -, -, -, hgoal, -, ⟨-, hd, hl⟩, -, hnow, -, hsplit,
    -, -, _, -, -, -, ⟨ts, total⟩, hts, -, htotal, rfl, rfl, -⟩ := h
  obtain ⟨hsum, -, hfresh⟩ := buildTranches_eq_ok hts hd hl
  -- the amounts add up to the goal, and each of them is positive
  have hts' : trancheTotal ts = l.fundingGoal.val := by
    have : total = l.fundingGoal.val := htotal
    omega
  have hcount := length_le_trancheTotal fun t ht => (hfresh t ht).positive
  exact {
    listed := {
      state := rfl, pool := rfl, coverage := rfl, raised := rfl, escrow := rfl,
      nextTranche := rfl, collateral := rfl, accumulator := rfl, disputed := rfl, docs := rfl,
      goal := hgoal, goalFits := U64.val_le _, split := hsplit.2,
      count := Nat.le_trans hcount (hts' ▸ U64.val_le _), fresh := hfresh, total := hts' }
    id := rfl, entity := rfl, cap := rfl, deadline := hnow }

/-! ## Before the raise -/

/-- The asset after a cancellation. -/
def Asset.cancelled (asset : Asset) : Asset :=
  { asset with state := .cancelled, entityCollateral := 0 }

/-- The events of a cancellation. -/
def Asset.cancelEvents (asset : Asset) : List Event :=
  [.assetCancelled asset.id, .assetStateChanged asset.id asset.state .cancelled]

/-- An asset is cancelled exactly before it is vouched for. -/
theorem cancelInternal_eq_ok {asset : Asset} {r : Asset × ℕ × List Event} :
    cancelInternal asset = .ok r ↔ asset.state = .pendingVouch ∧
      r = (asset.cancelled, asset.entityCollateral, asset.cancelEvents) := by
  simp only [cancelInternal, setState, seq_eq_ok, assertState_eq_ok, return_eq_ok, exists_and_left,
    exists_const]
  exact and_congr_right fun _ => eq_comm

/-- The entity cancels exactly its own asset, before it is vouched for. -/
theorem cancelUnvouchedByEntity_eq_ok {asset : Asset} {cap : EntityCap}
    {r : Asset × ℕ × List Event} :
    cancelUnvouchedByEntity asset cap = .ok r ↔
      cap.assetId = asset.id ∧ asset.state = .pendingVouch ∧
      r = (asset.cancelled, asset.entityCollateral, asset.cancelEvents) := by
  simp only [cancelUnvouchedByEntity, seq_eq_ok, assertEntityCap_eq_ok, cancelInternal_eq_ok,
    exists_and_left, exists_const]

/-- Anyone cancels an asset exactly when nobody vouched for it in time. -/
theorem cancelUnvouchedTimeout_eq_ok {asset : Asset} {config : ProtocolConfig} {now : ℕ}
    {r : Asset × Transfers × List Event} :
    cancelUnvouchedTimeout asset config now = .ok r ↔
      config.version = version ∧ asset.createdAtMs + config.vouchTimeoutMs ≤ maxU64 ∧
      asset.createdAtMs + config.vouchTimeoutMs < now ∧ asset.state = .pendingVouch ∧
      r = (asset.cancelled, [(asset.entity, asset.entityCollateral)], asset.cancelEvents) := by
  simp only [cancelUnvouchedTimeout, seq_eq_ok, assertVersion_eq_ok, add64_eq_ok, ensure_eq_ok,
    cancelInternal_eq_ok, return_eq_ok]
  constructor
  · rintro ⟨-, hv, _, ⟨ht, rfl⟩, -, hn, _, ⟨hs, rfl⟩, rfl⟩
    exact ⟨hv, ht, hn, hs, rfl⟩
  · rintro ⟨hv, ht, hn, hs, rfl⟩
    exact ⟨(), hv, _, ⟨ht, rfl⟩, (), hn, _, ⟨hs, rfl⟩, rfl⟩

/-- The coverage a vouch locks under `config`. -/
def Asset.coverageFor (asset : Asset) (config : ProtocolConfig) : ℕ :=
  asset.fundingGoal * config.vouchCoverageBps / bpsDenominator

/-- The asset after a vouch by pool `poolId` over `coverage`. -/
def Asset.vouched (asset : Asset) (poolId : ID) (coverage : ℕ) (docs : List WalrusRef) : Asset :=
  { asset with
    validatorPoolId := some poolId, coverageLocked := coverage, legalDocs := some docs,
    state := .funding }

/-- The pool after it locked coverage for one more vouch. -/
def ValidatorPool.afterLock (pool : ValidatorPool) (amount : ℕ) : ValidatorPool :=
  { pool with locked := pool.locked + amount, activeVouches := pool.activeVouches + 1 }

/-- The pool after the coverage of one vouch was released. -/
def ValidatorPool.afterRelease (pool : ValidatorPool) (amount : ℕ) : ValidatorPool :=
  { pool with locked := pool.locked - amount, activeVouches := pool.activeVouches - 1 }

/-- Everything `vouchAssetLegals` checks. -/
structure VouchGuards (asset : Asset) (pool : ValidatorPool) (vcap : ValidatorCap)
    (config : ProtocolConfig) (docs : List WalrusRef) : Prop where
  version : config.version = Gally.version
  unpaused : config.paused = false
  state : asset.state = .pendingVouch
  cap : vcap.poolId = pool.id
  docs : 0 < docs.length
  fits : asset.coverageFor config ≤ maxU64
  active : pool.status = .active
  backed : pool.locked ≤ pool.stake
  free : asset.coverageFor config ≤ pool.stake - pool.locked
  locked : pool.locked + asset.coverageFor config ≤ maxU64
  vouches : pool.activeVouches + 1 ≤ maxU64
  noDocs : asset.legalDocs = none

/-- A pool vouches exactly when the guards hold; the coverage is locked in it. -/
theorem vouchAssetLegals_eq_ok {asset : Asset} {pool : ValidatorPool} {vcap : ValidatorCap}
    {config : ProtocolConfig} {docs : List WalrusRef} {sender : Address}
    {r : Asset × ValidatorPool × List Event} :
    vouchAssetLegals asset pool vcap config docs sender = .ok r ↔
      VouchGuards asset pool vcap config docs ∧
      r = (asset.vouched pool.id (asset.coverageFor config) docs,
        pool.afterLock (asset.coverageFor config),
        [.assetVouched asset.id pool.id sender (asset.coverageFor config) (docs.map (·.sha256)),
         .assetStateChanged asset.id asset.state .funding]) := by
  simp only [vouchAssetLegals, setState, seq_eq_ok, assertVersion_eq_ok, assertNotPaused_eq_ok,
    assertState_eq_ok, assertCap_eq_ok, ensure_eq_ok, mulBps_eq_ok, lockCoverage_eq_ok,
    return_eq_ok]
  -- the checks of `lock_coverage` come with the others
  constructor
  · rintro ⟨-, hv, -, hp, -, hs, -, hc, -, hd, _, ⟨hf, rfl⟩, _, ⟨ha, hb, hfree, hl, hn, rfl⟩, -,
      hdocs, rfl⟩
    exact ⟨⟨hv, hp, hs, hc, hd, hf, ha, hb, hfree, hl, hn, hdocs⟩, rfl⟩
  · rintro ⟨⟨hv, hp, hs, hc, hd, hf, ha, hb, hfree, hl, hn, hdocs⟩, rfl⟩
    exact ⟨(), hv, (), hp, (), hs, (), hc, (), hd, _, ⟨hf, rfl⟩, _, ⟨ha, hb, hfree, hl, hn, rfl⟩,
      (), hdocs, rfl⟩

/-! ## The raise -/

/-- How much of a payment a raise still takes. -/
def Asset.accepts (asset : Asset) (payment : ℕ) : ℕ :=
  min payment (asset.fundingGoal - asset.raised)

/-- The asset after `accepted` was contributed. -/
def Asset.afterContribution (asset : Asset) (accepted : ℕ) : Asset :=
  { asset with escrow := asset.escrow + accepted, raised := asset.raised + accepted }

/-- Everything `contributeCapital` checks. -/
structure ContributeGuards (asset : Asset) (config : ProtocolConfig) (now payment : ℕ) : Prop where
  version : config.version = Gally.version
  unpaused : config.paused = false
  state : asset.state = .funding
  inTime : now < asset.fundingDeadlineMs
  unmet : asset.raised < asset.fundingGoal
  positive : 0 < payment
  escrow : asset.escrow + asset.accepts payment ≤ maxU64
  raised : asset.raised + asset.accepts payment ≤ maxU64

/-- A contribution is accepted exactly when the guards hold, up to what is missing to the goal. -/
theorem contributeCapital_eq_ok {asset : Asset} {config : ProtocolConfig} {now payment : ℕ}
    {sender : Address} {receiptId : ID} {r : Asset × ContributionReceipt × ℕ × List Event} :
    contributeCapital asset config now payment sender receiptId = .ok r ↔
      ContributeGuards asset config now payment ∧
      r = (asset.afterContribution (asset.accepts payment),
        { id := receiptId, assetId := asset.id, amount := asset.accepts payment },
        payment - asset.accepts payment,
        [.capitalContributed asset.id sender (asset.accepts payment)
          (asset.raised + asset.accepts payment)]) := by
  -- the source clamps the payment to what is missing
  have hacc : (if payment < asset.fundingGoal - asset.raised then payment
      else asset.fundingGoal - asset.raised) = asset.accepts payment := by
    rw [Asset.accepts, Nat.min_def]; split <;> split <;> omega
  have hle : asset.accepts payment ≤ payment := Nat.min_le_left ..
  simp only [contributeCapital, seq_eq_ok, assertVersion_eq_ok, assertNotPaused_eq_ok,
    assertState_eq_ok, ensure_eq_ok, sub_eq_ok, takeOut_eq_ok, add64_eq_ok, return_eq_ok]
  constructor
  · rintro ⟨-, hv, -, hp, -, hs, -, ht, -, hu, -, h0, _, ⟨-, rfl⟩, h⟩
    rw [hacc] at h
    obtain ⟨_, ⟨-, rfl⟩, _, ⟨he, rfl⟩, _, ⟨hr, rfl⟩, rfl⟩ := h
    exact ⟨⟨hv, hp, hs, ht, hu, h0, he, hr⟩, rfl⟩
  · rintro ⟨⟨hv, hp, hs, ht, hu, h0, he, hr⟩, rfl⟩
    refine ⟨(), hv, (), hp, (), hs, (), ht, (), hu, (), h0, _, ⟨Nat.le_of_lt hu, rfl⟩, ?_⟩
    rw [hacc]
    exact ⟨_, ⟨hle, rfl⟩, _, ⟨he, rfl⟩, _, ⟨hr, rfl⟩, rfl⟩

/-- The accumulator a successful raise creates. -/
def Asset.newAccumulator (asset : Asset) (cap : TreasuryCap) (accId : ID) :
    GlobalYieldAccumulator :=
  { id := accId, assetId := asset.id, cumulativeYieldIndex := 0,
    totalMintedShares := asset.fundingGoal, totalWrappedShares := 0, rewardPool := 0,
    rolloverReserve := 0, compensationPool := 0, compensationUnlockMs := 0,
    wrappingFrozen := false, treasuryCap := cap, closed := false, lifetimeInvestorRevenue := 0,
    dustBound := 0 }

/-- The asset after a successful raise. -/
def Asset.finalized (asset : Asset) (accId : ID) : Asset :=
  { asset with accumulatorId := some accId, state := .executing }

/-- Everything `finalizeSuccessfulRaise` checks. -/
structure FinalizeGuards (asset : Asset) (config : ProtocolConfig) (cap : TreasuryCap)
    (metadata : CoinMetadata) (now : ℕ) : Prop where
  version : config.version = Gally.version
  state : asset.state = .funding
  met : asset.raised = asset.fundingGoal
  inTime : now ≤ asset.fundingDeadlineMs
  decimals : metadata.decimals = 6
  virgin : cap.totalSupply = 0

/-- A raise is finalized exactly when the guards hold; the asset gets its accumulator. -/
theorem finalizeSuccessfulRaise_eq_ok {asset : Asset} {config : ProtocolConfig} {cap : TreasuryCap}
    {metadata : CoinMetadata} {now : ℕ} {accId : ID}
    {r : Asset × GlobalYieldAccumulator × List Event} :
    finalizeSuccessfulRaise asset config cap metadata now accId = .ok r ↔
      FinalizeGuards asset config cap metadata now ∧
      r = (asset.finalized accId, asset.newAccumulator cap accId,
        [.raiseFinalized asset.id accId asset.fundingGoal,
         .assetStateChanged asset.id asset.state .executing]) := by
  simp only [finalizeSuccessfulRaise, setState, seq_eq_ok, assertVersion_eq_ok, assertState_eq_ok,
    ensure_eq_ok, newAccumulator_eq_ok, return_eq_ok]
  constructor
  · rintro ⟨-, hv, -, hs, -, hm, -, ht, -, hd, _, ⟨hc, rfl⟩, rfl⟩
    exact ⟨⟨hv, hs, hm, ht, hd, hc⟩, rfl⟩
  · rintro ⟨⟨hv, hs, hm, ht, hd, hc⟩, rfl⟩
    exact ⟨(), hv, (), hs, (), hm, (), ht, (), hd, _, ⟨hc, rfl⟩, rfl⟩

/-- The asset after a failed raise. -/
def Asset.failed (asset : Asset) : Asset :=
  { asset with coverageLocked := 0, entityCollateral := 0, state := .failed }

/-- Everything `abortFailedRaise` checks. -/
structure AbortGuards (asset : Asset) (pool : ValidatorPool) (config : ProtocolConfig)
    (now : ℕ) : Prop where
  version : config.version = Gally.version
  state : asset.state = .funding
  expired : asset.fundingDeadlineMs < now
  unmet : asset.raised < asset.fundingGoal
  vouching : asset.validatorPoolId = some pool.id
  locked : asset.coverageLocked ≤ pool.locked
  vouches : 1 ≤ pool.activeVouches

/-- A raise is aborted exactly when the guards hold; collateral and coverage go back. -/
theorem abortFailedRaise_eq_ok {asset : Asset} {pool : ValidatorPool} {config : ProtocolConfig}
    {now : ℕ} {r : Asset × ValidatorPool × Transfers × List Event} :
    abortFailedRaise asset pool config now = .ok r ↔
      AbortGuards asset pool config now ∧
      r = (asset.failed, pool.afterRelease asset.coverageLocked,
        [(asset.entity, asset.entityCollateral)],
        [.raiseAborted asset.id asset.raised,
         .assetStateChanged asset.id asset.state .failed]) := by
  simp only [abortFailedRaise, setState, seq_eq_ok, assertVersion_eq_ok, assertState_eq_ok,
    ensure_eq_ok, assertVouchingPool_eq_ok, releaseCoverage_eq_ok, return_eq_ok]
  constructor
  · rintro ⟨-, hv, -, hs, -, ht, -, hu, -, hp, _, ⟨hl, hn, rfl⟩, rfl⟩
    exact ⟨⟨hv, hs, ht, hu, hp, hl, hn⟩, rfl⟩
  · rintro ⟨⟨hv, hs, ht, hu, hp, hl, hn⟩, rfl⟩
    exact ⟨(), hv, (), hs, (), ht, (), hu, (), hp, _, ⟨hl, hn, rfl⟩, rfl⟩

/-- The asset after `amount` was refunded. -/
def Asset.afterRefund (asset : Asset) (amount : ℕ) : Asset :=
  { asset with raised := asset.raised - amount, escrow := asset.escrow - amount }

/-- Everything `refundContribution` checks. -/
structure RefundGuards (asset : Asset) (config : ProtocolConfig)
    (receipt : ContributionReceipt) : Prop where
  version : config.version = Gally.version
  state : asset.state = .failed
  belongs : receipt.assetId = asset.id
  raised : receipt.amount ≤ asset.raised
  escrow : receipt.amount ≤ asset.escrow

/-- A receipt is refunded exactly when the guards hold. -/
theorem refundContribution_eq_ok {asset : Asset} {config : ProtocolConfig}
    {receipt : ContributionReceipt} {sender : Address} {r : Asset × ℕ × List Event} :
    refundContribution asset config receipt sender = .ok r ↔
      RefundGuards asset config receipt ∧
      r = (asset.afterRefund receipt.amount, receipt.amount,
        [.contributionRefunded receipt.assetId sender receipt.amount]) := by
  simp only [refundContribution, seq_eq_ok, assertVersion_eq_ok, assertState_eq_ok, ensure_eq_ok,
    sub_eq_ok, takeOut_eq_ok, return_eq_ok]
  constructor
  · rintro ⟨-, hv, -, hs, -, ha, _, ⟨hr, rfl⟩, _, ⟨he, rfl⟩, rfl⟩
    exact ⟨⟨hv, hs, ha, hr, he⟩, rfl⟩
  · rintro ⟨⟨hv, hs, ha, hr, he⟩, rfl⟩
    exact ⟨(), hv, (), hs, (), ha, _, ⟨hr, rfl⟩, _, ⟨he, rfl⟩, rfl⟩

/-- The deed minted for a receipt at the current index. -/
def ContributionReceipt.deed (receipt : ContributionReceipt) (shareId index now : ℕ) :
    GallyShare :=
  { id := shareId, assetId := receipt.assetId, shareCount := receipt.amount,
    yieldClaimedIndex := index, acquiredAtMs := now }

/-- A receipt is converted exactly when the asset is past finalize and the objects belong
    together. -/
theorem claimShares_eq_ok {asset : Asset} {acc : GlobalYieldAccumulator} {config : ProtocolConfig}
    {receipt : ContributionReceipt} {now : ℕ} {sender : Address} {shareId : ID}
    {r : GallyShare × List Event} :
    claimShares asset acc config receipt now sender shareId = .ok r ↔
      config.version = version ∧ isPostFinalize asset = true ∧ acc.assetId = asset.id ∧
      receipt.assetId = asset.id ∧
      r = (receipt.deed shareId acc.cumulativeYieldIndex now,
        [.sharesClaimed receipt.assetId sender receipt.amount shareId]) := by
  simp only [claimShares, seq_eq_ok, assertVersion_eq_ok, ensure_eq_ok, assertAsset_eq_ok,
    return_eq_ok, exists_and_left, exists_const, ContributionReceipt.deed]
  -- the version, the state and the two links
  constructor
  · rintro ⟨hv, hs, ha, hr, rfl⟩
    exact ⟨hv, hs, ha, hr, rfl⟩
  · rintro ⟨hv, hs, ha, hr, rfl⟩
    exact ⟨hv, hs, ha, hr, rfl⟩

/-! ## Tranches -/

/-- The asset with tranche `i` replaced. -/
def Asset.withTranche (asset : Asset) (i : ℕ) (t : Tranche) : Asset :=
  { asset with tranches := asset.tranches.set i t }

/-- Everything `submitMilestoneProof` checks; `t` is the tranche concerned. -/
structure ProofGuards (asset : Asset) (cap : EntityCap) (config : ProtocolConfig) (i : ℕ)
    (t : Tranche) : Prop where
  version : config.version = Gally.version
  unpaused : config.paused = false
  state : asset.state = .executing
  cap : cap.assetId = asset.id
  next : i = asset.nextTranche
  tranche : asset.tranches[i]? = some t
  unproved : t.proof = none

/-- A proof is filed exactly when the guards hold for some tranche. -/
theorem submitMilestoneProof_eq_ok {asset : Asset} {cap : EntityCap} {config : ProtocolConfig}
    {i : ℕ} {proof : WalrusRef} {r : Asset × List Event} :
    submitMilestoneProof asset cap config i proof = .ok r ↔
      ∃ t, ProofGuards asset cap config i t ∧
      r = (asset.withTranche i { t with proof := some proof },
        [.milestoneProofSubmitted asset.id i proof.blobId proof.sha256]) := by
  simp only [submitMilestoneProof, seq_eq_ok, assertVersion_eq_ok, assertNotPaused_eq_ok,
    assertState_eq_ok, assertEntityCap_eq_ok, ensure_eq_ok, ofOption_eq_ok, return_eq_ok]
  constructor
  · rintro ⟨-, hv, -, hp, -, hs, -, hc, -, hn, t, ht, -, hu, rfl⟩
    exact ⟨t, ⟨hv, hp, hs, hc, hn, ht, hu⟩, rfl⟩
  · rintro ⟨t, ⟨hv, hp, hs, hc, hn, ht, hu⟩, rfl⟩
    exact ⟨(), hv, (), hp, (), hs, (), hc, (), hn, t, ht, (), hu, rfl⟩

/-- Everything `approveMilestone` checks. -/
structure ApproveGuards (asset : Asset) (pool : ValidatorPool) (vcap : ValidatorCap)
    (config : ProtocolConfig) (i : ℕ) (t : Tranche) : Prop where
  version : config.version = Gally.version
  unpaused : config.paused = false
  state : asset.state = .executing
  undisputed : asset.disputed = false
  cap : vcap.poolId = pool.id
  vouching : asset.validatorPoolId = some pool.id
  active : pool.status = .active
  next : i = asset.nextTranche
  tranche : asset.tranches[i]? = some t
  proved : t.proof ≠ none
  unapproved : t.approvedBy = none

/-- A milestone is approved exactly when the guards hold for some tranche. -/
theorem approveMilestone_eq_ok {asset : Asset} {pool : ValidatorPool} {vcap : ValidatorCap}
    {config : ProtocolConfig} {i : ℕ} {sender : Address} {r : Asset × List Event} :
    approveMilestone asset pool vcap config i sender = .ok r ↔
      ∃ t, ApproveGuards asset pool vcap config i t ∧
      r = (asset.withTranche i { t with approvedBy := some sender },
        [.milestoneApproved asset.id i sender pool.id]) := by
  simp only [approveMilestone, isActive, decide_eq_true_eq, seq_eq_ok, assertVersion_eq_ok,
    assertNotPaused_eq_ok, assertState_eq_ok, assertCap_eq_ok, assertVouchingPool_eq_ok,
    ensure_eq_ok, ofOption_eq_ok, return_eq_ok]
  constructor
  · rintro ⟨-, hv, -, hp, -, hs, -, hd, -, hc, -, hpool, -, ha, -, hn, t, ht, -, hpr, -, hu, rfl⟩
    exact ⟨t, ⟨hv, hp, hs, hd, hc, hpool, ha, hn, ht, hpr, hu⟩, rfl⟩
  · rintro ⟨t, ⟨hv, hp, hs, hd, hc, hpool, ha, hn, ht, hpr, hu⟩, rfl⟩
    exact ⟨(), hv, (), hp, (), hs, (), hd, (), hc, (), hpool, (), ha, (), hn, t, ht, (), hpr, (),
      hu, rfl⟩

/-- Everything `releaseFundingTranche` checks. -/
structure ReleaseGuards (asset : Asset) (cap : EntityCap) (config : ProtocolConfig) (i : ℕ)
    (t : Tranche) : Prop where
  version : config.version = Gally.version
  unpaused : config.paused = false
  state : asset.state = .executing
  undisputed : asset.disputed = false
  cap : cap.assetId = asset.id
  next : i = asset.nextTranche
  tranche : asset.tranches[i]? = some t
  approved : t.approvedBy ≠ none
  unreleased : t.released = false
  counter : asset.nextTranche + 1 ≤ maxU64
  funded : t.amount ≤ asset.escrow
  linked : asset.nextTranche + 1 = asset.tranches.length → asset.accumulatorId ≠ none

/-- The asset after the release of tranche `t`, the next one; the last release makes it
    OPERATIONAL. -/
def Asset.afterTranche (asset : Asset) (t : Tranche) : Asset :=
  { asset with
    tranches := asset.tranches.set asset.nextTranche { t with released := true }
    nextTranche := asset.nextTranche + 1
    escrow := asset.escrow - t.amount
    state := if asset.nextTranche + 1 = asset.tranches.length then .operational else asset.state }

/-- The events of a release. -/
def Asset.trancheEvents (asset : Asset) (t : Tranche) : List Event :=
  .trancheReleased asset.id asset.nextTranche t.amount (asset.escrow - t.amount) ::
    if asset.nextTranche + 1 = asset.tranches.length then
      match asset.accumulatorId with
      | some accId => [.assetBecameOperational asset.id accId,
          .assetStateChanged asset.id asset.state .operational]
      | none => []
    else []

/-- A tranche is released exactly when the guards hold for it; the last one makes the asset
    OPERATIONAL. -/
theorem releaseFundingTranche_eq_ok {asset : Asset} {cap : EntityCap} {config : ProtocolConfig}
    {i : ℕ} {r : Asset × ℕ × List Event} :
    releaseFundingTranche asset cap config i = .ok r ↔
      ∃ t, ReleaseGuards asset cap config i t ∧
      r = (asset.afterTranche t, t.amount, asset.trancheEvents t) := by
  simp only [releaseFundingTranche, setState, seq_eq_ok, assertVersion_eq_ok,
    assertNotPaused_eq_ok, assertState_eq_ok, assertEntityCap_eq_ok, ensure_eq_ok, ofOption_eq_ok,
    add64_eq_ok, takeOut_eq_ok, ite_eq_ok, return_eq_ok, List.length_set]
  constructor
  · rintro ⟨-, hv, -, hp, -, hs, -, hd, -, hc, -, rfl, t, ht, -, ha, -, hr, _, ⟨hn, rfl⟩, _,
      ⟨hf, rfl⟩, ⟨hlast, accId, hacc, rfl⟩ | ⟨hlast, rfl⟩⟩
    · refine ⟨t, ⟨hv, hp, hs, hd, hc, rfl, ht, ha, hr, hn, hf, by simp [hacc]⟩, ?_⟩
      simp [Asset.afterTranche, Asset.trancheEvents, hlast, hacc]
    · refine ⟨t, ⟨hv, hp, hs, hd, hc, rfl, ht, ha, hr, hn, hf, fun h => absurd h hlast⟩, ?_⟩
      simp [Asset.afterTranche, Asset.trancheEvents, hlast]
  · rintro ⟨t, ⟨hv, hp, hs, hd, hc, rfl, ht, ha, hr, hn, hf, hl⟩, rfl⟩
    refine ⟨(), hv, (), hp, (), hs, (), hd, (), hc, (), rfl, t, ht, (), ha, (), hr, _, ⟨hn, rfl⟩,
      _, ⟨hf, rfl⟩, ?_⟩
    -- the last tranche needs the accumulator, to make the asset OPERATIONAL
    by_cases hlast : asset.nextTranche + 1 = asset.tranches.length
    · obtain ⟨accId, hacc⟩ := Option.ne_none_iff_exists'.mp (hl hlast)
      refine Or.inl ⟨hlast, accId, hacc, ?_⟩
      simp [Asset.afterTranche, Asset.trancheEvents, hlast, hacc]
    · refine Or.inr ⟨hlast, ?_⟩
      simp [Asset.afterTranche, Asset.trancheEvents, hlast]

/-- Everything `releaseVouchCoverage` checks; `disputed` is not among it. -/
structure CoverageGuards (asset : Asset) (pool : ValidatorPool) : Prop where
  state : asset.state = .operational ∨ asset.state = .closed
  vouching : asset.validatorPoolId = some pool.id
  covered : 0 < asset.coverageLocked
  locked : asset.coverageLocked ≤ pool.locked
  vouches : 1 ≤ pool.activeVouches

/-- Coverage is released exactly when the guards hold. -/
theorem releaseVouchCoverage_eq_ok {asset : Asset} {pool : ValidatorPool}
    {r : Asset × ValidatorPool} :
    releaseVouchCoverage asset pool = .ok r ↔
      CoverageGuards asset pool ∧
      r = (clearCoverage asset, pool.afterRelease asset.coverageLocked) := by
  simp only [releaseVouchCoverage, seq_eq_ok, ensure_eq_ok, assertVouchingPool_eq_ok,
    releaseCoverage_eq_ok, return_eq_ok]
  constructor
  · rintro ⟨-, hs, -, hp, -, h0, _, ⟨hl, hn, rfl⟩, rfl⟩
    exact ⟨⟨hs, hp, h0, hl, hn⟩, rfl⟩
  · rintro ⟨⟨hs, hp, h0, hl, hn⟩, rfl⟩
    exact ⟨(), hs, (), hp, (), h0, _, ⟨hl, hn, rfl⟩, rfl⟩

/-! ## Default and close -/

/-- The asset after its escrow and collateral were seized. -/
def Asset.seized (asset : Asset) : Asset :=
  { asset with entityCollateral := 0, escrow := 0, state := .compensating }

/-- The accumulator after `funds` entered the compensation pool. -/
def GlobalYieldAccumulator.compensated (acc : GlobalYieldAccumulator) (funds unlockMs : ℕ) :
    GlobalYieldAccumulator :=
  { acc with
    compensationPool := acc.compensationPool + funds
    wrappingFrozen := true
    compensationUnlockMs := max acc.compensationUnlockMs unlockMs }

/-- Everything `flagDefault` checks. -/
structure DefaultGuards (asset : Asset) (acc : GlobalYieldAccumulator) (config : ProtocolConfig)
    (now : ℕ) (t : Tranche) : Prop where
  version : config.version = Gally.version
  state : asset.state = .executing
  linked : acc.assetId = asset.id
  tranche : asset.tranches[asset.nextTranche]? = some t
  missed : t.deadlineMs < now
  unapproved : t.approvedBy = none
  seized : asset.entityCollateral + asset.escrow ≤ maxU64
  unlock : now + config.compensationGraceMs ≤ maxU64
  pool : acc.compensationPool + (asset.entityCollateral + asset.escrow) ≤ maxU64

/-- A default is flagged exactly when the guards hold for the next tranche; all funds of the asset
    become compensation. -/
theorem flagDefault_eq_ok {asset : Asset} {acc : GlobalYieldAccumulator} {config : ProtocolConfig}
    {now : ℕ} {r : Asset × GlobalYieldAccumulator × List Event} :
    flagDefault asset acc config now = .ok r ↔
      ∃ t, DefaultGuards asset acc config now t ∧
      r = (asset.seized,
        acc.compensated (asset.entityCollateral + asset.escrow) (now + config.compensationGraceMs),
        [.entityDefaulted asset.id asset.nextTranche asset.entityCollateral asset.escrow
          (acc.compensationPool + (asset.entityCollateral + asset.escrow))
          (max acc.compensationUnlockMs (now + config.compensationGraceMs)) true,
         .assetStateChanged asset.id asset.state .compensating]) := by
  simp only [flagDefault, setState, seq_eq_ok, assertVersion_eq_ok, assertState_eq_ok,
    assertAsset_eq_ok, ensure_eq_ok, ofOption_eq_ok, add64_eq_ok, addToCompensationPool_eq_ok,
    return_eq_ok]
  constructor
  · rintro ⟨-, hv, -, hs, -, hl, t, ht, -, hm, -, hu, _, ⟨hz, rfl⟩, _, ⟨hn, rfl⟩, _, ⟨hp, rfl⟩,
      rfl⟩
    exact ⟨t, ⟨hv, hs, hl, ht, hm, hu, hz, hn, hp⟩, rfl⟩
  · rintro ⟨t, ⟨hv, hs, hl, ht, hm, hu, hz, hn, hp⟩, rfl⟩
    exact ⟨(), hv, (), hs, (), hl, t, ht, (), hm, (), hu, _, ⟨hz, rfl⟩, _, ⟨hn, rfl⟩, _,
      ⟨hp, rfl⟩, rfl⟩

/-- The fee of a deposit of `gross`. -/
def ProtocolConfig.fee (config : ProtocolConfig) (gross : ℕ) : ℕ :=
  gross * config.protocolFeeBps / bpsDenominator

/-- The investors' part of a deposit of `gross`. -/
def Asset.investorPortion (asset : Asset) (config : ProtocolConfig) (gross : ℕ) : ℕ :=
  (gross - config.fee gross) * asset.revenueSplitBps / bpsDenominator

/-- The entity's part of a deposit of `gross`. -/
def Asset.entityPortion (asset : Asset) (config : ProtocolConfig) (gross : ℕ) : ℕ :=
  gross - config.fee gross - asset.investorPortion config gross

/-- The payments a deposit makes besides the investors' part. -/
def Asset.depositTransfers (asset : Asset) (config : ProtocolConfig) (gross : ℕ) : Transfers :=
  (if 0 < config.fee gross then [(config.treasury, config.fee gross)] else []) ++
    if 0 < asset.entityPortion config gross then
      [(asset.entity, asset.entityPortion config gross)] else []

/-- Everything `depositRevenue` checks before it touches the accumulator. -/
structure DepositGuards (asset : Asset) (acc : GlobalYieldAccumulator) (config : ProtocolConfig)
    (gross : ℕ) : Prop where
  version : config.version = Gally.version
  unpaused : config.paused = false
  state : asset.state = .operational
  linked : acc.assetId = asset.id
  positive : 0 < gross
  feeFits : config.fee gross ≤ maxU64
  fee : config.fee gross ≤ gross
  portionFits : asset.investorPortion config gross ≤ maxU64
  portion : asset.investorPortion config gross ≤ gross - config.fee gross

/-- The accumulator after it counted `funds` as investor revenue. -/
def GlobalYieldAccumulator.counted (acc : GlobalYieldAccumulator) (funds : ℕ) :
    GlobalYieldAccumulator :=
  { acc with lifetimeInvestorRevenue := acc.lifetimeInvestorRevenue + funds }

/-- How a deposit of `funds` for the investors changes the accumulator. -/
structure Deposited (acc : GlobalYieldAccumulator) (funds : ℕ) (acc' : GlobalYieldAccumulator) :
    Prop where
  lifetime : acc.lifetimeInvestorRevenue + funds ≤ maxU64
  supply : acc.totalWrappedShares ≤ acc.totalMintedShares
  routed : Routed (acc.counted funds) funds acc'

/-- Revenue is deposited exactly when the guards hold and the accumulator takes the share of the
    investors. -/
theorem depositRevenue_eq_ok {asset : Asset} {acc : GlobalYieldAccumulator}
    {config : ProtocolConfig} {gross : ℕ} {r : GlobalYieldAccumulator × Transfers × List Event} :
    depositRevenue asset acc config gross = .ok r ↔
      DepositGuards asset acc config gross ∧
      ∃ acc', Deposited acc (asset.investorPortion config gross) acc' ∧
        r = (acc', asset.depositTransfers config gross,
          [.revenueDeposited asset.id gross (config.fee gross)
            (asset.investorPortion config gross) (asset.entityPortion config gross)
            acc'.cumulativeYieldIndex acc'.unwrapped acc'.rewardPool acc'.rolloverReserve]) := by
  simp only [depositRevenue, seq_eq_ok, assertVersion_eq_ok, assertNotPaused_eq_ok,
    assertState_eq_ok, assertAsset_eq_ok, ensure_eq_ok, mulBps_eq_ok, sub_eq_ok,
    unwrappedSupply_eq_ok, return_eq_ok, Prod.exists, addRevenue_eq_ok]
  constructor
  · rintro ⟨-, hv, -, hp, -, hs, -, hl, -, h0, _, ⟨hf, rfl⟩, _, ⟨hfee, rfl⟩, _, ⟨hi, rfl⟩, _,
      ⟨hpor, rfl⟩, acc', _, ⟨hlife, hsup, hr, rfl⟩, _, ⟨-, rfl⟩, rfl⟩
    exact ⟨⟨hv, hp, hs, hl, h0, hf, hfee, hi, hpor⟩, acc', ⟨hlife, hsup, hr⟩, rfl⟩
  · rintro ⟨⟨hv, hp, hs, hl, h0, hf, hfee, hi, hpor⟩, acc', ⟨hlife, hsup, hr⟩, rfl⟩
    -- the event reads the unwrapped supply after the routing
    have hsup' : acc'.totalWrappedShares ≤ acc'.totalMintedShares := hr.frame.supply hsup
    exact ⟨(), hv, (), hp, (), hs, (), hl, (), h0, _, ⟨hf, rfl⟩, _, ⟨hfee, rfl⟩, _, ⟨hi, rfl⟩, _,
      ⟨hpor, rfl⟩, acc', _, ⟨hlife, hsup, hr, rfl⟩, _, ⟨hsup', rfl⟩, rfl⟩

/-- The asset after a close. -/
def Asset.closed (asset : Asset) : Asset :=
  { asset with entityCollateral := 0, state := .closed }

/-- The payment of a close. -/
def Asset.closeTransfers (asset : Asset) : Transfers :=
  if 0 < asset.entityCollateral then [(asset.entity, asset.entityCollateral)] else []

/-- The guards and the reason of the three close triggers. -/
inductive CloseGuards (asset : Asset) (acc : GlobalYieldAccumulator) : CloseReason → Prop where
  | returnTarget (state : asset.state = .operational) (linked : acc.assetId = asset.id)
      (isTerm : asset.isTermFinancing = true)
      (reached : asset.returnTarget ≤ acc.lifetimeInvestorRevenue) :
      CloseGuards asset acc .returnTarget
  | compensation (state : asset.state = .compensating) (linked : acc.assetId = asset.id)
      (swept : acc.compensationPool = 0) : CloseGuards asset acc .compensation
  | windDown (state : asset.state = .operational) (linked : acc.assetId = asset.id) :
      CloseGuards asset acc .windDown

/-- An asset is only closed together with its own accumulator. -/
theorem CloseGuards.linked {asset : Asset} {acc : GlobalYieldAccumulator} {reason : CloseReason}
    (h : CloseGuards asset acc reason) : acc.assetId = asset.id := by
  cases h <;> assumption

/-- A term asset is closed at its target exactly when the guards hold. -/
theorem closeAtReturnTarget_eq_ok {asset : Asset} {acc : GlobalYieldAccumulator}
    {config : ProtocolConfig} {r : Asset × GlobalYieldAccumulator × Transfers × List Event} :
    closeAtReturnTarget asset acc config = .ok r ↔
      config.version = version ∧ CloseGuards asset acc .returnTarget ∧
      r = close asset acc .returnTarget := by
  simp only [closeAtReturnTarget, seq_eq_ok, assertVersion_eq_ok, assertState_eq_ok,
    assertAsset_eq_ok, ensure_eq_ok, return_eq_ok, exists_and_left, exists_const]
  constructor
  · rintro ⟨hv, hs, hl, ht, hr, rfl⟩
    exact ⟨hv, .returnTarget hs hl ht hr, rfl⟩
  · rintro ⟨hv, hg, rfl⟩
    cases hg with
    | returnTarget hs hl ht hr => exact ⟨hv, hs, hl, ht, hr, rfl⟩

/-- A defaulted asset is closed exactly after the grace period, when the compensation was swept. -/
theorem closeAfterCompensation_eq_ok {asset : Asset} {acc : GlobalYieldAccumulator}
    {config : ProtocolConfig} {now : ℕ}
    {r : Asset × GlobalYieldAccumulator × Transfers × List Event} :
    closeAfterCompensation asset acc config now = .ok r ↔
      config.version = version ∧ acc.compensationUnlockMs ≤ now ∧
      CloseGuards asset acc .compensation ∧ r = close asset acc .compensation := by
  simp only [closeAfterCompensation, seq_eq_ok, assertVersion_eq_ok, assertState_eq_ok,
    assertAsset_eq_ok, ensure_eq_ok, return_eq_ok, exists_and_left, exists_const]
  constructor
  · rintro ⟨hv, hs, hl, hu, hp, rfl⟩
    exact ⟨hv, hu, .compensation hs hl hp, rfl⟩
  · rintro ⟨hv, hu, hg, rfl⟩
    cases hg with
    | compensation hs hl hp => exact ⟨hv, hs, hl, hu, hp, rfl⟩

/-- An asset is wound down exactly by the two caps, when the guards hold. -/
theorem closeWindDown_eq_ok {asset : Asset} {acc : GlobalYieldAccumulator}
    {config : ProtocolConfig} {admin : AdminCap} {cap : EntityCap}
    {r : Asset × GlobalYieldAccumulator × Transfers × List Event} :
    closeWindDown asset acc config admin cap = .ok r ↔
      config.version = version ∧ cap.assetId = asset.id ∧ CloseGuards asset acc .windDown ∧
      r = close asset acc .windDown := by
  simp only [closeWindDown, seq_eq_ok, assertVersion_eq_ok, assertState_eq_ok, assertAsset_eq_ok,
    assertEntityCap_eq_ok, return_eq_ok, exists_and_left, exists_const]
  constructor
  · rintro ⟨hv, hs, hc, hl, rfl⟩
    exact ⟨hv, hc, .windDown hs hl, rfl⟩
  · rintro ⟨hv, hc, hg, rfl⟩
    cases hg with
    | windDown hs hl => exact ⟨hv, hs, hc, hl, rfl⟩

/-- The funds of an asset are seized exactly while it is EXECUTING. -/
theorem seizeIntoCompensation_eq_ok {asset : Asset} {r : Asset × ℕ × List Event} :
    seizeIntoCompensation asset = .ok r ↔
      asset.state = .executing ∧ asset.entityCollateral + asset.escrow ≤ maxU64 ∧
      r = (asset.seized, asset.entityCollateral + asset.escrow,
        [.assetStateChanged asset.id asset.state .compensating]) := by
  simp only [seizeIntoCompensation, setState, seq_eq_ok, assertState_eq_ok, add64_eq_ok,
    return_eq_ok]
  constructor
  · rintro ⟨-, hs, _, ⟨hz, rfl⟩, rfl⟩
    exact ⟨hs, hz, rfl⟩
  · rintro ⟨hs, hz, rfl⟩
    exact ⟨(), hs, _, ⟨hz, rfl⟩, rfl⟩

end Gally

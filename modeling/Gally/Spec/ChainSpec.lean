import Gally.Contract.Chain
import Gally.Spec.DisputeSpec

/-!
# What a call can do to the world

One inductive for the calls of each module, with a constructor for every call that
names the objects it fetched, the guards that held, the Move function it ran and
the world it left. The `_eq_ok` theorems say that a call succeeds exactly along
these constructors; every invariant of the chain is proved by cases on them.
-/

namespace Gally

open Checked

/-- An admin call succeeds exactly for the owner of the admin cap, and only changes the
    configuration. -/
theorem World.protocolCall_eq_ok {w w' : World} {sender : Address} {c : ProtocolCall} :
    w.protocolCall sender c = .ok w' ↔
      w.owner .soulbound w.adminCap.id = sender ∧ ∃ config events,
        c.run w.config = .ok (config, events) ∧
        w' = { w with config, events := w.events ++ events } := by
  simp only [World.protocolCall, seq_eq_ok, ensure_eq_ok, return_eq_ok, Prod.exists]
  constructor
  · rintro ⟨-, ho, config, events, h, rfl⟩
    exact ⟨ho, config, events, h, rfl⟩
  · rintro ⟨ho, config, events, h, rfl⟩
    exact ⟨(), ho, config, events, h, rfl⟩

/-- The successful calls of `validator.move`. -/
inductive ValidatorStep (w : World) (sender : Address) : ValidatorCall → World → Prop where
  | registerValidator {stake : U64} {name : Bytes} {events : List Event}
      (funds : stake.val ≤ w.wallets.balance sender)
      (guards : RegisterGuards w.config stake.val name)
      (run : registerValidator w.config stake.val name w.clockMs sender w.nextId (w.nextId + 1) =
        .ok (.registered w.nextId sender name stake.val w.clockMs, ⟨w.nextId + 1, w.nextId⟩,
          events)) :
      ValidatorStep w sender (.registerValidator stake name) { w with
        nextId := w.nextId + 2
        pools := w.pools.put (.registered w.nextId sender name stake.val w.clockMs)
        validatorCaps := w.validatorCaps.put ⟨w.nextId + 1, w.nextId⟩
        owner := w.give .soulbound (w.nextId + 1) sender
        wallets := w.wallets.spend sender stake.val
        events := w.events ++ events }
  | addStake {poolId : ID} {deposit : U64} {pool : ValidatorPool} {events : List Event}
      (hpool : w.pools.get? poolId = some pool) (funds : deposit.val ≤ w.wallets.balance sender)
      (fits : pool.stake + deposit.val ≤ maxU64)
      (run : addStake pool deposit.val sender =
        .ok (pool.withStake (pool.stake + deposit.val), events)) :
      ValidatorStep w sender (.addStake poolId deposit) { w with
        pools := w.pools.put (pool.withStake (pool.stake + deposit.val))
        wallets := w.wallets.spend sender deposit.val
        events := w.events ++ events }
  | withdrawStake {poolId capId : ID} {amount : U64} {pool : ValidatorPool}
      {cap : ValidatorCap} {events : List Event}
      (hpool : w.pools.get? poolId = some pool) (own : w.owner .soulbound capId = sender)
      (hcap : w.validatorCaps.get? capId = some cap)
      (guards : WithdrawGuards pool cap w.config amount.val)
      (run : withdrawStake pool cap w.config amount.val =
        .ok (pool.withStake (pool.stake - amount.val), amount.val, events)) :
      ValidatorStep w sender (.withdrawStake poolId capId amount) { w with
        pools := w.pools.put (pool.withStake (pool.stake - amount.val))
        wallets := w.wallets.credit sender amount.val
        events := w.events ++ events }

/-- The steps of the validator calls are the successful ones. -/
theorem World.validatorCall_eq_ok {w w' : World} {sender : Address} {c : ValidatorCall} :
    w.validatorCall sender c = .ok w' ↔ ValidatorStep w sender c w' := by
  constructor
  -- what was fetched is peeled off; the function's own lemma gives its guards
  · cases c <;> simp only [World.validatorCall, seq_eq_ok, shared_eq_ok, World.owned_eq_ok,
      Wallets.debit_eq_ok, return_eq_ok, Prod.exists]
    case registerValidator =>
      rintro ⟨_, ⟨hf, rfl⟩, _, _, _, h, rfl⟩
      obtain ⟨hg, ⟨⟩⟩ := registerValidator_eq_ok.mp h
      exact .registerValidator hf hg h
    case addStake =>
      rintro ⟨_, hp, _, ⟨hf, rfl⟩, _, _, h, rfl⟩
      obtain ⟨hg, ⟨⟩⟩ := addStake_eq_ok.mp h
      exact .addStake hp hf hg h
    case withdrawStake =>
      rintro ⟨_, hp, _, ⟨ho, hc⟩, _, _, _, h, rfl⟩
      obtain ⟨hg, ⟨⟩⟩ := withdrawStake_eq_ok.mp h
      exact .withdrawStake hp ho hc hg h
  · intro h
    cases h <;> simp [World.validatorCall, *]

/-- The world after a listing. -/
def World.listed (w : World) (sender : Address) (collateral : ℕ) (asset : Asset) (cap : EntityCap)
    (events : List Event) : World :=
  { w with
    nextId := w.nextId + 2, assets := w.assets.put asset, entityCaps := w.entityCaps.put cap,
    owner := w.give .soulbound cap.id sender, wallets := w.wallets.spend sender collateral,
    events := w.events ++ events }

/-- The world after a close. -/
def World.closing (w : World) (asset : Asset) (acc : GlobalYieldAccumulator)
    (events : List Event) : World :=
  { w with
    assets := w.assets.put asset.closed, accumulators := w.accumulators.put (markClosed acc),
    wallets := w.wallets.pay asset.closeTransfers, events := w.events ++ events }

/-- The successful calls of `asset.move`. -/
inductive AssetStep (w : World) (sender : Address) : AssetCall → World → Prop where
  | createAsset {l : Listing} {collateral : U64} {asset : Asset} {cap : EntityCap}
      {events : List Event} (funds : collateral.val ≤ w.wallets.balance sender)
      (created : asset.CreatedBy cap sender collateral.val w.clockMs w.nextId (w.nextId + 1))
      (run : createAssetInternal w.config l false 0 collateral.val w.clockMs sender w.nextId
        (w.nextId + 1) = .ok (asset, cap, events)) :
      AssetStep w sender (.createAsset l collateral)
        (w.listed sender collateral.val asset cap events)
  | createTermAsset {l : Listing} {target collateral : U64} {asset : Asset} {cap : EntityCap}
      {events : List Event} (funds : collateral.val ≤ w.wallets.balance sender)
      (created : asset.CreatedBy cap sender collateral.val w.clockMs w.nextId (w.nextId + 1))
      (run : createAssetInternal w.config l true target collateral.val w.clockMs sender w.nextId
        (w.nextId + 1) = .ok (asset, cap, events)) :
      AssetStep w sender (.createTermAsset l target collateral)
        (w.listed sender collateral.val asset cap events)
  | cancelUnvouchedByEntity {a c : ID} {asset : Asset} {cap : EntityCap}
      {events : List Event} (hasset : w.assets.get? a = some asset)
      (own : w.owner .soulbound c = sender) (hcap : w.entityCaps.get? c = some cap)
      (belongs : cap.assetId = asset.id) (state : asset.state = .pendingVouch)
      (run : cancelUnvouchedByEntity asset cap =
        .ok (asset.cancelled, asset.entityCollateral, events)) :
      AssetStep w sender (.cancelUnvouchedByEntity a c) { w with
        assets := w.assets.put asset.cancelled
        wallets := w.wallets.credit sender asset.entityCollateral
        events := w.events ++ events }
  | cancelUnvouchedTimeout {a : ID} {asset : Asset} {events : List Event}
      (hasset : w.assets.get? a = some asset) (state : asset.state = .pendingVouch)
      (run : cancelUnvouchedTimeout asset w.config w.clockMs =
        .ok (asset.cancelled, [(asset.entity, asset.entityCollateral)], events)) :
      AssetStep w sender (.cancelUnvouchedTimeout a) { w with
        assets := w.assets.put asset.cancelled
        wallets := w.wallets.pay [(asset.entity, asset.entityCollateral)]
        events := w.events ++ events }
  | vouchAssetLegals {a p c : ID} {docs : List WalrusRef} {asset : Asset}
      {pool : ValidatorPool} {cap : ValidatorCap} {events : List Event}
      (hasset : w.assets.get? a = some asset) (hpool : w.pools.get? p = some pool)
      (own : w.owner .soulbound c = sender) (hcap : w.validatorCaps.get? c = some cap)
      (guards : VouchGuards asset pool cap w.config docs)
      (run : vouchAssetLegals asset pool cap w.config docs sender =
        .ok (asset.vouched pool.id (asset.coverageFor w.config) docs,
          pool.afterLock (asset.coverageFor w.config), events)) :
      AssetStep w sender (.vouchAssetLegals a p c docs) { w with
        assets := w.assets.put (asset.vouched pool.id (asset.coverageFor w.config) docs)
        pools := w.pools.put (pool.afterLock (asset.coverageFor w.config))
        events := w.events ++ events }
  | contributeCapital {a : ID} {payment : U64} {asset : Asset} {events : List Event}
      (hasset : w.assets.get? a = some asset) (funds : payment.val ≤ w.wallets.balance sender)
      (guards : ContributeGuards asset w.config w.clockMs payment.val)
      (run : contributeCapital asset w.config w.clockMs payment.val sender w.nextId =
        .ok (asset.afterContribution (asset.accepts payment.val),
          ⟨w.nextId, asset.id, asset.accepts payment.val⟩,
          payment.val - asset.accepts payment.val, events)) :
      AssetStep w sender (.contributeCapital a payment) { w with
        nextId := w.nextId + 1
        assets := w.assets.put (asset.afterContribution (asset.accepts payment.val))
        receipts := w.receipts.put ⟨w.nextId, asset.id, asset.accepts payment.val⟩
        owner := w.give .soulbound w.nextId sender
        wallets := (w.wallets.spend sender payment.val).credit sender
          (payment.val - asset.accepts payment.val)
        events := w.events ++ events }
  | finalizeSuccessfulRaise {a : ID} {token : TypeTag} {asset : Asset} {cap : TreasuryCap}
      {metadata : CoinMetadata} {events : List Event}
      (hasset : w.assets.get? a = some asset) (own : w.owner .treasuryCap token = sender)
      (hcap : w.treasuryCaps.get? token = some cap) (hmeta : w.metadata.get? token = some metadata)
      (guards : FinalizeGuards asset w.config cap metadata w.clockMs)
      (run : finalizeSuccessfulRaise asset w.config cap metadata w.clockMs w.nextId =
        .ok (asset.finalized w.nextId, asset.newAccumulator cap w.nextId, events)) :
      AssetStep w sender (.finalizeSuccessfulRaise a token) { w with
        nextId := w.nextId + 1
        assets := w.assets.put (asset.finalized w.nextId)
        accumulators := w.accumulators.put (asset.newAccumulator cap w.nextId)
        treasuryCaps := w.treasuryCaps.delete token
        events := w.events ++ events }
  | abortFailedRaise {a p : ID} {asset : Asset} {pool : ValidatorPool} {events : List Event}
      (hasset : w.assets.get? a = some asset) (hpool : w.pools.get? p = some pool)
      (guards : AbortGuards asset pool w.config w.clockMs)
      (run : abortFailedRaise asset pool w.config w.clockMs =
        .ok (asset.failed, pool.afterRelease asset.coverageLocked,
          [(asset.entity, asset.entityCollateral)], events)) :
      AssetStep w sender (.abortFailedRaise a p) { w with
        assets := w.assets.put asset.failed
        pools := w.pools.put (pool.afterRelease asset.coverageLocked)
        wallets := w.wallets.pay [(asset.entity, asset.entityCollateral)]
        events := w.events ++ events }
  | refundContribution {a r : ID} {asset : Asset} {receipt : ContributionReceipt}
      {events : List Event}
      (hasset : w.assets.get? a = some asset) (own : w.owner .soulbound r = sender)
      (hreceipt : w.receipts.get? r = some receipt)
      (guards : RefundGuards asset w.config receipt)
      (run : refundContribution asset w.config receipt sender =
        .ok (asset.afterRefund receipt.amount, receipt.amount, events)) :
      AssetStep w sender (.refundContribution a r) { w with
        assets := w.assets.put (asset.afterRefund receipt.amount)
        receipts := w.receipts.delete r
        wallets := w.wallets.credit sender receipt.amount
        events := w.events ++ events }
  | claimShares {a g r : ID} {asset : Asset} {acc : GlobalYieldAccumulator}
      {receipt : ContributionReceipt} {events : List Event}
      (hasset : w.assets.get? a = some asset) (hacc : w.accumulators.get? g = some acc)
      (own : w.owner .soulbound r = sender) (hreceipt : w.receipts.get? r = some receipt)
      (postFinalize : isPostFinalize asset = true) (linked : acc.assetId = asset.id)
      (belongs : receipt.assetId = asset.id)
      (run : claimShares asset acc w.config receipt w.clockMs sender w.nextId =
        .ok (receipt.deed w.nextId acc.cumulativeYieldIndex w.clockMs, events)) :
      AssetStep w sender (.claimShares a g r) { w with
        nextId := w.nextId + 1
        receipts := w.receipts.delete r
        shares := w.shares.put (receipt.deed w.nextId acc.cumulativeYieldIndex w.clockMs)
        owner := w.give .share w.nextId sender
        events := w.events ++ events }
  | submitMilestoneProof {a c : ID} {i : U64} {proof : WalrusRef} {asset : Asset}
      {cap : EntityCap} {t : Tranche} {events : List Event}
      (hasset : w.assets.get? a = some asset) (own : w.owner .soulbound c = sender)
      (hcap : w.entityCaps.get? c = some cap)
      (guards : ProofGuards asset cap w.config i.val t)
      (run : submitMilestoneProof asset cap w.config i.val proof =
        .ok (asset.withTranche i.val { t with proof := some proof }, events)) :
      AssetStep w sender (.submitMilestoneProof a c i proof) { w with
        assets := w.assets.put (asset.withTranche i.val { t with proof := some proof })
        events := w.events ++ events }
  | approveMilestone {a p c : ID} {i : U64} {asset : Asset} {pool : ValidatorPool}
      {cap : ValidatorCap} {t : Tranche} {events : List Event}
      (hasset : w.assets.get? a = some asset) (hpool : w.pools.get? p = some pool)
      (own : w.owner .soulbound c = sender) (hcap : w.validatorCaps.get? c = some cap)
      (guards : ApproveGuards asset pool cap w.config i.val t)
      (run : approveMilestone asset pool cap w.config i.val sender =
        .ok (asset.withTranche i.val { t with approvedBy := some sender }, events)) :
      AssetStep w sender (.approveMilestone a p c i) { w with
        assets := w.assets.put (asset.withTranche i.val { t with approvedBy := some sender })
        events := w.events ++ events }
  | releaseFundingTranche {a c : ID} {i : U64} {asset : Asset} {cap : EntityCap}
      {t : Tranche} {events : List Event}
      (hasset : w.assets.get? a = some asset) (own : w.owner .soulbound c = sender)
      (hcap : w.entityCaps.get? c = some cap)
      (guards : ReleaseGuards asset cap w.config i.val t)
      (run : releaseFundingTranche asset cap w.config i.val =
        .ok (asset.afterTranche t, t.amount, events)) :
      AssetStep w sender (.releaseFundingTranche a c i) { w with
        assets := w.assets.put (asset.afterTranche t)
        wallets := w.wallets.credit sender t.amount
        events := w.events ++ events }
  | releaseVouchCoverage {a p : ID} {asset : Asset} {pool : ValidatorPool}
      (hasset : w.assets.get? a = some asset) (hpool : w.pools.get? p = some pool)
      (guards : CoverageGuards asset pool)
      (run : releaseVouchCoverage asset pool =
        .ok (clearCoverage asset, pool.afterRelease asset.coverageLocked)) :
      AssetStep w sender (.releaseVouchCoverage a p) { w with
        assets := w.assets.put (clearCoverage asset)
        pools := w.pools.put (pool.afterRelease asset.coverageLocked) }
  | flagDefault {a g : ID} {asset : Asset} {acc : GlobalYieldAccumulator} {t : Tranche}
      {events : List Event}
      (hasset : w.assets.get? a = some asset) (hacc : w.accumulators.get? g = some acc)
      (guards : DefaultGuards asset acc w.config w.clockMs t)
      (run : flagDefault asset acc w.config w.clockMs =
        .ok (asset.seized, acc.compensated (asset.entityCollateral + asset.escrow)
          (w.clockMs + w.config.compensationGraceMs), events)) :
      AssetStep w sender (.flagDefault a g) { w with
        assets := w.assets.put asset.seized
        accumulators := w.accumulators.put (acc.compensated
          (asset.entityCollateral + asset.escrow) (w.clockMs + w.config.compensationGraceMs))
        events := w.events ++ events }
  | depositRevenue {a g : ID} {payment : U64} {asset : Asset} {acc acc' : GlobalYieldAccumulator}
      {events : List Event}
      (hasset : w.assets.get? a = some asset) (hacc : w.accumulators.get? g = some acc)
      (funds : payment.val ≤ w.wallets.balance sender)
      (guards : DepositGuards asset acc w.config payment.val)
      (deposited : Deposited acc (asset.investorPortion w.config payment.val) acc')
      (run : depositRevenue asset acc w.config payment.val =
        .ok (acc', asset.depositTransfers w.config payment.val, events)) :
      AssetStep w sender (.depositRevenue a g payment) { w with
        accumulators := w.accumulators.put acc'
        wallets := (w.wallets.spend sender payment.val).pay
          (asset.depositTransfers w.config payment.val)
        events := w.events ++ events }
  | closeAtReturnTarget {a g : ID} {asset : Asset} {acc : GlobalYieldAccumulator}
      {events : List Event}
      (hasset : w.assets.get? a = some asset) (hacc : w.accumulators.get? g = some acc)
      (guards : CloseGuards asset acc .returnTarget)
      (run : closeAtReturnTarget asset acc w.config =
        .ok (asset.closed, markClosed acc, asset.closeTransfers, events)) :
      AssetStep w sender (.closeAtReturnTarget a g) (w.closing asset acc events)
  | closeAfterCompensation {a g : ID} {asset : Asset} {acc : GlobalYieldAccumulator}
      {events : List Event}
      (hasset : w.assets.get? a = some asset) (hacc : w.accumulators.get? g = some acc)
      (guards : CloseGuards asset acc .compensation) (due : acc.compensationUnlockMs ≤ w.clockMs)
      (run : closeAfterCompensation asset acc w.config w.clockMs =
        .ok (asset.closed, markClosed acc, asset.closeTransfers, events)) :
      AssetStep w sender (.closeAfterCompensation a g) (w.closing asset acc events)
  | closeWindDown {a g c : ID} {asset : Asset} {acc : GlobalYieldAccumulator}
      {cap : EntityCap} {events : List Event}
      (hasset : w.assets.get? a = some asset) (hacc : w.accumulators.get? g = some acc)
      (admin : w.owner .soulbound w.adminCap.id = sender) (own : w.owner .soulbound c = sender)
      (hcap : w.entityCaps.get? c = some cap) (belongs : cap.assetId = asset.id)
      (guards : CloseGuards asset acc .windDown)
      (run : closeWindDown asset acc w.config w.adminCap cap =
        .ok (asset.closed, markClosed acc, asset.closeTransfers, events)) :
      AssetStep w sender (.closeWindDown a g c) (w.closing asset acc events)

/-- A listing succeeds exactly when the sender can pay the collateral and the asset can be
    created. -/
theorem World.list_eq_ok {w w' : World} {sender : Address} {collateral : ℕ}
    {created : Except Abort (Asset × EntityCap × List Event)} :
    w.list sender collateral created = .ok w' ↔
      collateral ≤ w.wallets.balance sender ∧ ∃ asset cap events,
        created = .ok (asset, cap, events) ∧ w.listed sender collateral asset cap events = w' := by
  simp only [World.list, seq_eq_ok, Wallets.debit_eq_ok, return_eq_ok, Prod.exists]
  constructor
  · rintro ⟨_, ⟨hf, rfl⟩, asset, cap, events, h, rfl⟩
    exact ⟨hf, asset, cap, events, h, rfl⟩
  · rintro ⟨hf, asset, cap, events, h, rfl⟩
    exact ⟨_, ⟨hf, rfl⟩, asset, cap, events, h, rfl⟩

/-- What a close returns is filed. -/
theorem World.fileClosed_eq_ok {w w' : World}
    {closed : Except Abort (Asset × GlobalYieldAccumulator × Transfers × List Event)} :
    w.fileClosed closed = .ok w' ↔ ∃ asset acc transfers events,
      closed = .ok (asset, acc, transfers, events) ∧
      { w with
        assets := w.assets.put asset, accumulators := w.accumulators.put acc,
        wallets := w.wallets.pay transfers, events := w.events ++ events } = w' := by
  simp only [World.fileClosed, seq_eq_ok, return_eq_ok, Prod.exists]

/-- The steps of the asset calls are the successful ones. -/
theorem World.assetCall_eq_ok {w w' : World} {sender : Address} {c : AssetCall} :
    w.assetCall sender c = .ok w' ↔ AssetStep w sender c w' := by
  constructor
  -- what was fetched is peeled off; the function's own lemma gives its guards
  · cases c <;> simp only [World.assetCall, createAsset, createTermAsset, World.list_eq_ok,
      World.fileClosed_eq_ok, seq_eq_ok, shared_eq_ok, World.owned_eq_ok, ensure_eq_ok,
      Wallets.debit_eq_ok, return_eq_ok, Prod.exists]
    case createAsset =>
      rintro ⟨hf, _, _, _, h, rfl⟩
      exact .createAsset hf (createAssetInternal_ok h) h
    case createTermAsset =>
      rintro ⟨hf, _, _, _, h, rfl⟩
      exact .createTermAsset hf (createAssetInternal_ok h) h
    case cancelUnvouchedByEntity =>
      rintro ⟨_, ha, _, ⟨ho, hc⟩, _, _, _, h, rfl⟩
      obtain ⟨hb, hs, ⟨⟩⟩ := cancelUnvouchedByEntity_eq_ok.mp h
      exact .cancelUnvouchedByEntity ha ho hc hb hs h
    case cancelUnvouchedTimeout =>
      rintro ⟨_, ha, _, _, _, h, rfl⟩
      obtain ⟨-, -, -, hs, ⟨⟩⟩ := cancelUnvouchedTimeout_eq_ok.mp h
      exact .cancelUnvouchedTimeout ha hs h
    case vouchAssetLegals =>
      rintro ⟨_, ha, _, hp, _, ⟨ho, hc⟩, _, _, _, h, rfl⟩
      obtain ⟨hg, ⟨⟩⟩ := vouchAssetLegals_eq_ok.mp h
      exact .vouchAssetLegals ha hp ho hc hg h
    case contributeCapital =>
      rintro ⟨_, ha, _, ⟨hf, rfl⟩, _, _, _, _, h, rfl⟩
      obtain ⟨hg, ⟨⟩⟩ := contributeCapital_eq_ok.mp h
      exact .contributeCapital ha hf hg h
    case finalizeSuccessfulRaise =>
      rintro ⟨_, ha, _, ⟨ho, hc⟩, _, hm, _, _, _, h, rfl⟩
      obtain ⟨hg, ⟨⟩⟩ := finalizeSuccessfulRaise_eq_ok.mp h
      exact .finalizeSuccessfulRaise ha ho hc hm hg h
    case abortFailedRaise =>
      rintro ⟨_, ha, _, hp, _, _, _, _, h, rfl⟩
      obtain ⟨hg, ⟨⟩⟩ := abortFailedRaise_eq_ok.mp h
      exact .abortFailedRaise ha hp hg h
    case refundContribution =>
      rintro ⟨_, ha, _, ⟨ho, hr⟩, _, _, _, h, rfl⟩
      obtain ⟨hg, ⟨⟩⟩ := refundContribution_eq_ok.mp h
      exact .refundContribution ha ho hr hg h
    case claimShares =>
      rintro ⟨_, ha, _, hg, _, ⟨ho, hr⟩, _, _, h, rfl⟩
      obtain ⟨-, hp, hl, hb, ⟨⟩⟩ := claimShares_eq_ok.mp h
      exact .claimShares ha hg ho hr hp hl hb h
    -- the calls about tranches name the tranche they found
    case submitMilestoneProof =>
      rintro ⟨_, ha, _, ⟨ho, hc⟩, _, _, h, rfl⟩
      obtain ⟨t, hg, ⟨⟩⟩ := submitMilestoneProof_eq_ok.mp h
      exact .submitMilestoneProof ha ho hc hg h
    case approveMilestone =>
      rintro ⟨_, ha, _, hp, _, ⟨ho, hc⟩, _, _, h, rfl⟩
      obtain ⟨t, hg, ⟨⟩⟩ := approveMilestone_eq_ok.mp h
      exact .approveMilestone ha hp ho hc hg h
    case releaseFundingTranche =>
      rintro ⟨_, ha, _, ⟨ho, hc⟩, _, _, _, h, rfl⟩
      obtain ⟨t, hg, ⟨⟩⟩ := releaseFundingTranche_eq_ok.mp h
      exact .releaseFundingTranche ha ho hc hg h
    case releaseVouchCoverage =>
      rintro ⟨_, ha, _, hp, _, _, h, rfl⟩
      obtain ⟨hg, ⟨⟩⟩ := releaseVouchCoverage_eq_ok.mp h
      exact .releaseVouchCoverage ha hp hg h
    case flagDefault =>
      rintro ⟨_, ha, _, hg, _, _, _, h, rfl⟩
      obtain ⟨t, hd, ⟨⟩⟩ := flagDefault_eq_ok.mp h
      exact .flagDefault ha hg hd h
    case depositRevenue =>
      rintro ⟨_, ha, _, hg, _, ⟨hf, rfl⟩, _, _, _, h, rfl⟩
      obtain ⟨hd, _, hr, ⟨⟩⟩ := depositRevenue_eq_ok.mp h
      exact .depositRevenue ha hg hf hd hr h
    -- the three closes differ in their guards and file the same
    case closeAtReturnTarget =>
      rintro ⟨_, ha, _, hg, _, _, _, _, h, rfl⟩
      obtain ⟨-, hc, ⟨⟩⟩ := closeAtReturnTarget_eq_ok.mp h
      exact .closeAtReturnTarget ha hg hc h
    case closeAfterCompensation =>
      rintro ⟨_, ha, _, hg, _, _, _, _, h, rfl⟩
      obtain ⟨-, hd, hc, ⟨⟩⟩ := closeAfterCompensation_eq_ok.mp h
      exact .closeAfterCompensation ha hg hc hd h
    case closeWindDown =>
      rintro ⟨_, ha, _, hg, -, hadm, _, ⟨ho, hc⟩, _, _, _, _, h, rfl⟩
      obtain ⟨-, hb, hcl, ⟨⟩⟩ := closeWindDown_eq_ok.mp h
      exact .closeWindDown ha hg hadm ho hc hb hcl h
  -- conversely a step names all that the call fetches
  · intro h
    cases h <;> simp [World.assetCall, createAsset, createTermAsset, World.list_eq_ok,
      World.fileClosed_eq_ok, World.closing, ContributionReceipt.deed, *]

/-- The successful calls of `accumulator.move` and `share.move`. -/
inductive AccumulatorStep (w : World) (sender : Address) : AccumulatorCall → World → Prop where
  | claimRewards {g s : ID} {acc : GlobalYieldAccumulator} {share : GallyShare}
      {events : List Event}
      (hacc : w.accumulators.get? g = some acc) (own : w.owner .share s = sender)
      (hshare : w.shares.get? s = some share)
      (guards : ClaimGuards acc share)
      (run : claimRewards acc share sender = .ok (acc.afterClaim share,
        share.settledAt acc.cumulativeYieldIndex, acc.payout share, events)) :
      AccumulatorStep w sender (.claimRewards g s) { w with
        accumulators := w.accumulators.put (acc.afterClaim share)
        shares := w.shares.put (share.settledAt acc.cumulativeYieldIndex)
        wallets := w.wallets.credit sender (acc.payout share)
        events := w.events ++ events }
  | sweepRollover {g : ID} {acc : GlobalYieldAccumulator} {events : List Event}
      (hacc : w.accumulators.get? g = some acc) (positive : 0 < acc.rolloverReserve)
      (guards : AdvanceGuards acc acc.rolloverReserve)
      (run : sweepRollover acc = .ok (acc.drained.afterAdvance acc.rolloverReserve, events)) :
      AccumulatorStep w sender (.sweepRollover g) { w with
        accumulators := w.accumulators.put (acc.drained.afterAdvance acc.rolloverReserve)
        events := w.events ++ events }
  | sweepCompensation {g : ID} {acc routed : GlobalYieldAccumulator} {events : List Event}
      (hacc : w.accumulators.get? g = some acc) (due : acc.compensationUnlockMs ≤ w.clockMs)
      (positive : 0 < acc.compensationPool)
      (route : Routed { acc with compensationPool := 0 } acc.compensationPool routed)
      (run : sweepCompensation acc w.clockMs =
        .ok ({ routed with wrappingFrozen := false }, events)) :
      AccumulatorStep w sender (.sweepCompensation g) { w with
        accumulators := w.accumulators.put { routed with wrappingFrozen := false }
        events := w.events ++ events }
  | wrapShares {g s : ID} {acc : GlobalYieldAccumulator} {share : GallyShare}
      {events : List Event}
      (hacc : w.accumulators.get? g = some acc) (own : w.owner .share s = sender)
      (hshare : w.shares.get? s = some share)
      (guards : WrapGuards acc w.config share w.clockMs)
      (run : wrapShares acc w.config share w.clockMs sender w.nextId = .ok (acc.afterWrap share,
        ⟨w.nextId, acc.treasuryCap.token, share.shareCount⟩, acc.payout share, events)) :
      AccumulatorStep w sender (.wrapShares g s) { w with
        nextId := w.nextId + 1
        accumulators := w.accumulators.put (acc.afterWrap share)
        shares := w.shares.delete s
        coins := w.coins.put ⟨w.nextId, acc.treasuryCap.token, share.shareCount⟩
        owner := w.give .coin w.nextId sender
        wallets := w.wallets.credit sender (acc.payout share)
        events := w.events ++ events }
  | unwrapCoins {g k : ID} {acc acc' : GlobalYieldAccumulator} {coin : TokenCoin}
      {swept events : List Event}
      (hacc : w.accumulators.get? g = some acc) (own : w.owner .coin k = sender)
      (hcoin : w.coins.get? k = some coin) (token : coin.token = acc.treasuryCap.token)
      (guards : UnwrapGuards acc coin) (sweep : AutoSwept (acc.afterBurn coin.value) acc' swept)
      (run : unwrapCoins acc coin w.clockMs sender w.nextId =
        .ok (acc', acc.freshShare w.nextId coin.value w.clockMs, events)) :
      AccumulatorStep w sender (.unwrapCoins g k) { w with
        nextId := w.nextId + 1
        accumulators := w.accumulators.put acc'
        coins := w.coins.delete k
        shares := w.shares.put (acc.freshShare w.nextId coin.value w.clockMs)
        owner := w.give .share w.nextId sender
        events := w.events ++ events }
  | mergeShares {g t v : ID} {acc : GlobalYieldAccumulator} {target victim : GallyShare}
      {events : List Event}
      (hacc : w.accumulators.get? g = some acc) (own : w.owner .share t = sender)
      (htarget : w.shares.get? t = some target) (own' : w.owner .share v = sender)
      (hvictim : w.shares.get? v = some victim) (distinct : t ≠ v)
      (guards : MergeGuards acc target victim)
      (run : mergeShares acc target victim sender = .ok ((acc.afterClaim target).afterClaim victim,
        target.mergedWith victim acc.cumulativeYieldIndex, acc.payout target + acc.payout victim,
        events)) :
      AccumulatorStep w sender (.mergeShares g t v) { w with
        accumulators := w.accumulators.put ((acc.afterClaim target).afterClaim victim)
        shares := (w.shares.delete v).put (target.mergedWith victim acc.cumulativeYieldIndex)
        wallets := w.wallets.credit sender (acc.payout target + acc.payout victim)
        events := w.events ++ events }
  | redeemShare {g s : ID} {acc : GlobalYieldAccumulator} {share : GallyShare}
      {events : List Event}
      (hacc : w.accumulators.get? g = some acc) (own : w.owner .share s = sender)
      (hshare : w.shares.get? s = some share)
      (guards : RedeemGuards acc share)
      (run : redeemShare acc share sender = .ok (acc.afterRedeem share, acc.payout share, events)) :
      AccumulatorStep w sender (.redeemShare g s) { w with
        accumulators := w.accumulators.put (acc.afterRedeem share)
        shares := w.shares.delete s
        wallets := w.wallets.credit sender (acc.payout share)
        events := w.events ++ events }
  | adminSweepDust {g : ID} {acc : GlobalYieldAccumulator} {events : List Event}
      (admin : w.owner .soulbound w.adminCap.id = sender)
      (hacc : w.accumulators.get? g = some acc)
      (guards : DustGuards acc w.config)
      (run : adminSweepDust acc w.config = .ok (acc.afterDust, acc.residue, events)) :
      AccumulatorStep w sender (.adminSweepDust g) { w with
        accumulators := w.accumulators.put acc.afterDust
        wallets := w.wallets.credit sender acc.residue
        events := w.events ++ events }
  | splitShare {s : ID} {amount : U64} {share : GallyShare}
      (own : w.owner .share s = sender) (hshare : w.shares.get? s = some share)
      (positive : 0 < amount.val) (less : amount.val < share.shareCount)
      (run : splitShare share amount.val w.nextId =
        .ok ({ share with shareCount := share.shareCount - amount.val },
          { share with id := w.nextId, shareCount := amount.val })) :
      AccumulatorStep w sender (.splitShare s amount) { w with
        nextId := w.nextId + 1
        shares := (w.shares.put { share with shareCount := share.shareCount - amount.val }).put
          { share with id := w.nextId, shareCount := amount.val }
        owner := w.give .share w.nextId sender }

/-- The steps of the accumulator calls are the successful ones. -/
theorem World.accumulatorCall_eq_ok {w w' : World} {sender : Address} {c : AccumulatorCall} :
    w.accumulatorCall sender c = .ok w' ↔ AccumulatorStep w sender c w' := by
  constructor
  -- what was fetched is peeled off; the function's own lemma gives its guards
  · cases c <;> simp only [World.accumulatorCall, seq_eq_ok, shared_eq_ok, World.owned_eq_ok,
      ensure_eq_ok, return_eq_ok, Prod.exists]
    case claimRewards =>
      rintro ⟨_, hg, _, ⟨ho, hs⟩, _, _, _, _, h, rfl⟩
      obtain ⟨hc, ⟨⟩⟩ := claimRewards_eq_ok.mp h
      exact .claimRewards hg ho hs hc h
    case sweepRollover =>
      rintro ⟨_, hg, _, _, h, rfl⟩
      obtain ⟨h0, ha, ⟨⟩⟩ := sweepRollover_eq_ok.mp h
      exact .sweepRollover hg h0 ha h
    case sweepCompensation =>
      rintro ⟨_, hg, _, _, h, rfl⟩
      obtain ⟨hd, h0, -, ⟨_, hr, rfl⟩, -⟩ := sweepCompensation_eq_ok.mp h
      exact .sweepCompensation hg hd h0 hr h
    case wrapShares =>
      rintro ⟨_, hg, _, ⟨ho, hs⟩, _, _, _, _, h, rfl⟩
      obtain ⟨hw, ⟨⟩⟩ := wrapShares_eq_ok.mp h
      exact .wrapShares hg ho hs hw h
    case unwrapCoins =>
      rintro ⟨_, hg, _, ⟨ho, hk⟩, -, ht, _, _, _, h, rfl⟩
      obtain ⟨hu, rfl, swept, hsw, -⟩ := unwrapCoins_eq_ok.mp h
      exact .unwrapCoins hg ho hk ht hu hsw h
    case mergeShares =>
      rintro ⟨_, hg, _, ⟨ho, ht⟩, _, ⟨ho', hv⟩, -, hne, _, _, _, _, h, rfl⟩
      obtain ⟨hm, ⟨⟩⟩ := mergeShares_eq_ok.mp h
      exact .mergeShares hg ho ht ho' hv hne hm h
    case redeemShare =>
      rintro ⟨_, hg, _, ⟨ho, hs⟩, _, _, _, h, rfl⟩
      obtain ⟨hr, ⟨⟩⟩ := redeemShare_eq_ok.mp h
      exact .redeemShare hg ho hs hr h
    case adminSweepDust =>
      rintro ⟨-, hadm, _, hg, _, _, _, h, rfl⟩
      obtain ⟨hd, ⟨⟩⟩ := adminSweepDust_eq_ok.mp h
      exact .adminSweepDust hadm hg hd h
    case splitShare =>
      rintro ⟨_, ⟨ho, hs⟩, _, _, h, rfl⟩
      obtain ⟨h0, hl, rfl, rfl⟩ := splitShare_eq_ok.mp h
      exact .splitShare ho hs h0 hl h
  -- conversely a step names all that the call fetches
  · intro h
    cases h <;> simp [World.accumulatorCall, GlobalYieldAccumulator.freshShare, *]

/-- The successful calls of `dispute.move`. -/
inductive DisputeStep (w : World) (sender : Address) : DisputeCall → World → Prop where
  | initializeDispute {a p g : ID} {bond : U64} {evidence : WalrusRef} {reason : Bytes}
      {asset : Asset} {pool : ValidatorPool} {acc : GlobalYieldAccumulator}
      {events : List Event}
      (hasset : w.assets.get? a = some asset) (hpool : w.pools.get? p = some pool)
      (hacc : w.accumulators.get? g = some acc) (funds : bond.val ≤ w.wallets.balance sender)
      (guards : InitializeGuards asset pool acc w.config bond.val reason w.clockMs)
      (run : initializeDispute asset pool acc w.config bond.val evidence reason w.clockMs sender
        w.nextId = .ok (setDisputed asset true, pool.withStatus .frozen,
          .opening asset pool acc w.config bond.val evidence reason w.clockMs sender w.nextId,
          events)) :
      DisputeStep w sender (.initializeDispute a p g bond evidence reason) { w with
        nextId := w.nextId + 1
        assets := w.assets.put (setDisputed asset true)
        pools := w.pools.put (pool.withStatus .frozen)
        disputes := w.disputes.put
          (.opening asset pool acc w.config bond.val evidence reason w.clockMs sender w.nextId)
        wallets := w.wallets.spend sender bond.val
        events := w.events ++ events }
  | voteOnDispute {d p c : ID} {guilty : Bool} {dispute : Dispute} {pool : ValidatorPool}
      {cap : ValidatorCap} {events : List Event}
      (hdispute : w.disputes.get? d = some dispute) (hpool : w.pools.get? p = some pool)
      (own : w.owner .soulbound c = sender) (hcap : w.validatorCaps.get? c = some cap)
      (guards : VoteGuards dispute pool cap w.config guilty w.clockMs)
      (run : voteOnDispute dispute pool cap w.config guilty w.clockMs =
        .ok (dispute.afterVote pool.id guilty, events)) :
      DisputeStep w sender (.voteOnDispute d p c guilty) { w with
        disputes := w.disputes.put (dispute.afterVote pool.id guilty)
        events := w.events ++ events }
  | resolveDispute {d p a g : ID} {dispute : Dispute} {pool : ValidatorPool} {asset : Asset}
      {acc : GlobalYieldAccumulator} {v : Verdict}
      (hdispute : w.disputes.get? d = some dispute) (hpool : w.pools.get? p = some pool)
      (hasset : w.assets.get? a = some asset) (hacc : w.accumulators.get? g = some acc)
      (guards : ResolveGuards dispute pool asset acc w.config w.clockMs)
      (decides : Decides dispute pool asset acc w.config w.clockMs v)
      (run : resolveDispute dispute pool asset acc w.config w.clockMs =
        .ok { v with events := v.events ++ [v.closing dispute] }) :
      DisputeStep w sender (.resolveDispute d p a g) { w with
        disputes := w.disputes.put v.dispute
        pools := w.pools.put v.pool
        assets := w.assets.put v.asset
        accumulators := w.accumulators.put v.acc
        wallets := w.wallets.pay v.transfers
        events := w.events ++ (v.events ++ [v.closing dispute]) }
  | claimJurorReward {d p c : ID} {dispute : Dispute} {pool : ValidatorPool}
      {cap : ValidatorCap} {events : List Event}
      (hdispute : w.disputes.get? d = some dispute) (hpool : w.pools.get? p = some pool)
      (own : w.owner .soulbound c = sender) (hcap : w.validatorCaps.get? c = some cap)
      (rejected : dispute.status = .rejected) (juror : pool.id ∈ dispute.voted)
      (funded : dispute.jurorRewardPerVote ≤ dispute.jurorRewardPool)
      (run : claimJurorReward dispute pool cap =
        .ok (dispute.afterReward pool.id, dispute.jurorRewardPerVote, events)) :
      DisputeStep w sender (.claimJurorReward d p c) { w with
        disputes := w.disputes.put (dispute.afterReward pool.id)
        wallets := w.wallets.credit sender dispute.jurorRewardPerVote
        events := w.events ++ events }

/-- The steps of the dispute calls are the successful ones. -/
theorem World.disputeCall_eq_ok {w w' : World} {sender : Address} {c : DisputeCall} :
    w.disputeCall sender c = .ok w' ↔ DisputeStep w sender c w' := by
  constructor
  -- what was fetched is peeled off; the function's own lemma gives its guards
  · cases c <;> simp only [World.disputeCall, seq_eq_ok, shared_eq_ok, World.owned_eq_ok,
      Wallets.debit_eq_ok, return_eq_ok, Prod.exists]
    case initializeDispute =>
      rintro ⟨_, ha, _, hp, _, hg, _, ⟨hf, rfl⟩, _, _, _, _, h, rfl⟩
      obtain ⟨hi, ⟨⟩⟩ := initializeDispute_eq_ok.mp h
      exact .initializeDispute ha hp hg hf hi h
    case voteOnDispute =>
      rintro ⟨_, hd, _, hp, _, ⟨ho, hc⟩, _, _, h, rfl⟩
      obtain ⟨hv, ⟨⟩⟩ := voteOnDispute_eq_ok.mp h
      exact .voteOnDispute hd hp ho hc hv h
    case resolveDispute =>
      rintro ⟨_, hd, _, hp, _, ha, _, hg, _, h, rfl⟩
      obtain ⟨hr, v, hv, rfl⟩ := resolveDispute_eq_ok.mp h
      exact .resolveDispute hd hp ha hg hr hv h
    case claimJurorReward =>
      rintro ⟨_, hd, _, hp, _, ⟨ho, hc⟩, _, _, _, h, rfl⟩
      obtain ⟨hr, -, hj, hf, ⟨⟩⟩ := claimJurorReward_eq_ok.mp h
      exact .claimJurorReward hd hp ho hc hr hj hf h
  -- conversely a step names all that the call fetches
  · intro h
    cases h <;> simp [World.disputeCall, *]

/-- The successful calls of the framework. -/
inductive FrameworkStep (w : World) (sender : Address) : FrameworkCall → World → Prop where
  | mintUsdc {recipient : Address} {value : U64} (supply : value.val < maxU64 - w.usdcSupply) :
      FrameworkStep w sender (.mintUsdc recipient value) { w with
        usdcSupply := w.usdcSupply + value.val, wallets := w.wallets.credit recipient value.val }
  | burnUsdc {value : U64} (funds : value.val ≤ w.wallets.balance sender)
      (supply : value.val ≤ w.usdcSupply) :
      FrameworkStep w sender (.burnUsdc value) { w with
        usdcSupply := w.usdcSupply - value.val, wallets := w.wallets.spend sender value.val }
  | payUsdc {recipient : Address} {value : U64} (funds : value.val ≤ w.wallets.balance sender) :
      FrameworkStep w sender (.payUsdc recipient value) { w with
        wallets := (w.wallets.spend sender value.val).credit recipient value.val }
  | publishToken {decimals : UInt8} :
      FrameworkStep w sender (.publishToken decimals) { w with
        nextId := w.nextId + 1,
        treasuryCaps := w.treasuryCaps.put { token := w.nextId, totalSupply := 0 },
        metadata := w.metadata.put { token := w.nextId, decimals := decimals.toNat },
        owner := w.give .treasuryCap w.nextId sender }
  | mintToken {token : TypeTag} {value : U64} {cap : TreasuryCap}
      (own : w.owner .treasuryCap token = sender) (hcap : w.treasuryCaps.get? token = some cap)
      (supply : value.val < maxU64 - cap.totalSupply) :
      FrameworkStep w sender (.mintToken token value) { w with
        nextId := w.nextId + 1,
        treasuryCaps := w.treasuryCaps.put
          { cap with totalSupply := cap.totalSupply + value.val },
        coins := w.coins.put { id := w.nextId, token, value := value.val },
        owner := w.give .coin w.nextId sender }
  | burnToken {token : TypeTag} {k : ID} {cap : TreasuryCap} {coin : TokenCoin}
      (own : w.owner .treasuryCap token = sender) (hcap : w.treasuryCaps.get? token = some cap)
      (own' : w.owner .coin k = sender) (hcoin : w.coins.get? k = some coin)
      (same : coin.token = token) (supply : coin.value ≤ cap.totalSupply) :
      FrameworkStep w sender (.burnToken token k) { w with
        treasuryCaps := w.treasuryCaps.put
          { cap with totalSupply := cap.totalSupply - coin.value },
        coins := w.coins.delete k }
  | zeroCoin {token : TypeTag} :
      FrameworkStep w sender (.zeroCoin token) { w with
        nextId := w.nextId + 1, coins := w.coins.put { id := w.nextId, token, value := 0 },
        owner := w.give .coin w.nextId sender }
  | destroyZero {k : ID} {coin : TokenCoin} (own : w.owner .coin k = sender)
      (hcoin : w.coins.get? k = some coin) (zero : coin.value = 0) :
      FrameworkStep w sender (.destroyZero k) { w with coins := w.coins.delete k }
  | splitCoin {k : ID} {amount : U64} {coin : TokenCoin} (own : w.owner .coin k = sender)
      (hcoin : w.coins.get? k = some coin) (funds : amount.val ≤ coin.value) :
      FrameworkStep w sender (.splitCoin k amount) { w with
        nextId := w.nextId + 1,
        coins := (w.coins.put { coin with value := coin.value - amount.val }).put
          { id := w.nextId, token := coin.token, value := amount.val },
        owner := w.give .coin w.nextId sender }
  | joinCoins {k j : ID} {coin other : TokenCoin} (own : w.owner .coin k = sender)
      (hcoin : w.coins.get? k = some coin) (own' : w.owner .coin j = sender)
      (hother : w.coins.get? j = some other) (distinct : k ≠ j)
      (same : other.token = coin.token) (fits : coin.value + other.value ≤ maxU64) :
      FrameworkStep w sender (.joinCoins k j) { w with
        coins := (w.coins.delete j).put { coin with value := coin.value + other.value } }
  | transferCoin {k : ID} {recipient : Address} {coin : TokenCoin} (own : w.owner .coin k = sender)
      (hcoin : w.coins.get? k = some coin) :
      FrameworkStep w sender (.transferCoin k recipient)
        { w with owner := w.give .coin coin.id recipient }
  | transferShare {s : ID} {recipient : Address} {share : GallyShare}
      (own : w.owner .share s = sender) (hshare : w.shares.get? s = some share) :
      FrameworkStep w sender (.transferShare s recipient)
        { w with owner := w.give .share share.id recipient }
  | transferTreasuryCap {token : TypeTag} {recipient : Address} {cap : TreasuryCap}
      (own : w.owner .treasuryCap token = sender) (hcap : w.treasuryCaps.get? token = some cap) :
      FrameworkStep w sender (.transferTreasuryCap token recipient)
        { w with owner := w.give .treasuryCap cap.token recipient }

/-- The steps of the framework calls are the successful ones. -/
theorem World.frameworkCall_eq_ok {w w' : World} {sender : Address} {c : FrameworkCall} :
    w.frameworkCall sender c = .ok w' ↔ FrameworkStep w sender c w' := by
  constructor
  -- no function of the package runs, so the checks are those of the framework
  · cases c <;> simp only [World.frameworkCall, seq_eq_ok, World.owned_eq_ok, ensure_eq_ok,
      Wallets.debit_eq_ok, sub_eq_ok, takeOut_eq_ok, add64_eq_ok, TreasuryCap.mint_eq_ok,
      TreasuryCap.burn_eq_ok, return_eq_ok, Except.ok.injEq]
    case mintUsdc =>
      rintro ⟨-, h, rfl⟩
      exact .mintUsdc h
    case burnUsdc =>
      rintro ⟨_, ⟨hf, rfl⟩, _, ⟨hs, rfl⟩, rfl⟩
      exact .burnUsdc hf hs
    case payUsdc =>
      rintro ⟨_, ⟨hf, rfl⟩, rfl⟩
      exact .payUsdc hf
    case publishToken =>
      rintro rfl
      exact .publishToken
    case mintToken =>
      rintro ⟨_, ⟨ho, hc⟩, _, ⟨hs, rfl⟩, rfl⟩
      exact .mintToken ho hc hs
    case burnToken =>
      rintro ⟨_, ⟨ho, hc⟩, _, ⟨ho', hk⟩, -, ht, _, ⟨hs, rfl⟩, rfl⟩
      exact .burnToken ho hc ho' hk ht hs
    case zeroCoin =>
      rintro rfl
      exact .zeroCoin
    case destroyZero =>
      rintro ⟨_, ⟨ho, hk⟩, -, hz, rfl⟩
      exact .destroyZero ho hk hz
    case splitCoin =>
      rintro ⟨_, ⟨ho, hk⟩, _, ⟨hf, rfl⟩, rfl⟩
      exact .splitCoin ho hk hf
    case joinCoins =>
      rintro ⟨_, ⟨ho, hk⟩, _, ⟨ho', hj⟩, -, hne, -, hs, _, ⟨hf, rfl⟩, rfl⟩
      exact .joinCoins ho hk ho' hj hne hs hf
    case transferCoin =>
      rintro ⟨_, ⟨ho, hk⟩, rfl⟩
      exact .transferCoin ho hk
    case transferShare =>
      rintro ⟨_, ⟨ho, hs⟩, rfl⟩
      exact .transferShare ho hs
    case transferTreasuryCap =>
      rintro ⟨_, ⟨ho, hc⟩, rfl⟩
      exact .transferTreasuryCap ho hc
  -- conversely a step names all that the call fetches
  · intro h
    cases h <;> simp_all [World.frameworkCall, -bind_pure_comp]

/-! ## The objects of a resolution -/

section Recorded

variable {w : World} {dispute : Dispute} {pool : ValidatorPool} {asset : Asset}
  {acc : GlobalYieldAccumulator} {config : ProtocolConfig} {now : ℕ}

/-- The pool at hand is the one the dispute names. -/
theorem ResolveGuards.pool_recorded (h : ResolveGuards dispute pool asset acc config now) {p : ID}
    (hpool : w.pools.get? p = some pool) : w.pools.get? dispute.targetPoolId = some pool := by
  rw [← h.pool]
  exact Store.get?_key (Store.mem_of_get? hpool)

/-- So is the asset. -/
theorem ResolveGuards.asset_recorded (h : ResolveGuards dispute pool asset acc config now)
    {a : ID} (hasset : w.assets.get? a = some asset) :
    w.assets.get? dispute.assetId = some asset := by
  rw [← h.asset]
  exact Store.get?_key (Store.mem_of_get? hasset)

/-- So is the accumulator. -/
theorem ResolveGuards.acc_recorded (h : ResolveGuards dispute pool asset acc config now) {g : ID}
    (hacc : w.accumulators.get? g = some acc) :
    w.accumulators.get? dispute.accumulatorId = some acc := by
  rw [← h.acc]
  exact Store.get?_key (Store.mem_of_get? hacc)

end Recorded

/-! ## A given call -/

/-- An asset call of a transaction is a step. -/
theorem World.callAsset_eq_ok {w w' : World} {sender : Address} {c : AssetCall} :
    w.call sender (.asset c) = .ok w' ↔ AssetStep w sender c w' := World.assetCall_eq_ok

/-- An accumulator call of a transaction is a step. -/
theorem World.callAccumulator_eq_ok {w w' : World} {sender : Address} {c : AccumulatorCall} :
    w.call sender (.accumulator c) = .ok w' ↔ AccumulatorStep w sender c w' :=
  World.accumulatorCall_eq_ok

/-- A dispute call of a transaction is a step. -/
theorem World.callDispute_eq_ok {w w' : World} {sender : Address} {c : DisputeCall} :
    w.call sender (.dispute c) = .ok w' ↔ DisputeStep w sender c w' := World.disputeCall_eq_ok

/-- A framework call of a transaction is a step. -/
theorem World.callFramework_eq_ok {w w' : World} {sender : Address} {c : FrameworkCall} :
    w.call sender (.framework c) = .ok w' ↔ FrameworkStep w sender c w' :=
  World.frameworkCall_eq_ok

end Gally

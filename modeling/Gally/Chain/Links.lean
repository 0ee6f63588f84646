import Gally.Spec.ChainSpec

/-!
# Identifiers and links

`World.Fresh` says that every identifier in use is below the next one the chain will
hand out, so a new object never collides with an old one. `World.Linked` says how
assets, accumulators, tokens, deeds and receipts point at each other. Each call
preserves both; there is one lemma for each kind of store update.

## Key results

- `Reachable.fresh`, `Reachable.linked`
-/

namespace Gally

open Checked

/-- Every identifier in use is below the next one; coins of a token that is not
    published yet are worth nothing. -/
structure World.Fresh (w : World) : Prop where
  assets : w.assets.Below w.nextId
  accumulators : w.accumulators.Below w.nextId
  shares : w.shares.Below w.nextId
  receipts : w.receipts.Below w.nextId
  coins : w.coins.Below w.nextId
  pools : w.pools.Below w.nextId
  disputes : w.disputes.Below w.nextId
  entityCaps : w.entityCaps.Below w.nextId
  validatorCaps : w.validatorCaps.Below w.nextId
  treasuryCaps : w.treasuryCaps.Below w.nextId
  tokens : ∀ acc ∈ w.accumulators, acc.treasuryCap.token < w.nextId
  unissued : ∀ coin ∈ w.coins, w.nextId ≤ coin.token → coin.value = 0

namespace World.Fresh

variable {w w' : World} {sender : Address}

/-- No ID has been given out in the first world. -/
theorem genesis (admin : Address) : (World.genesis admin).Fresh where
  assets := Store.below_empty
  accumulators := Store.below_empty
  shares := Store.below_empty
  receipts := Store.below_empty
  coins := Store.below_empty
  pools := Store.below_empty
  disputes := Store.below_empty
  entityCaps := Store.below_empty
  validatorCaps := Store.below_empty
  treasuryCaps := Store.below_empty
  tokens := by simp [World.genesis]
  unissued := by simp [World.genesis]

/-- Handing out `n` identifiers keeps the old ones fresh. -/
theorem bump (hf : w.Fresh) (n : ℕ) : World.Fresh { w with nextId := w.nextId + n } where
  assets := hf.assets.mono (Nat.le_add_right _ n)
  accumulators := hf.accumulators.mono (Nat.le_add_right _ n)
  shares := hf.shares.mono (Nat.le_add_right _ n)
  receipts := hf.receipts.mono (Nat.le_add_right _ n)
  coins := hf.coins.mono (Nat.le_add_right _ n)
  pools := hf.pools.mono (Nat.le_add_right _ n)
  disputes := hf.disputes.mono (Nat.le_add_right _ n)
  entityCaps := hf.entityCaps.mono (Nat.le_add_right _ n)
  validatorCaps := hf.validatorCaps.mono (Nat.le_add_right _ n)
  treasuryCaps := hf.treasuryCaps.mono (Nat.le_add_right _ n)
  tokens acc hacc := Nat.lt_add_right n (hf.tokens acc hacc)
  unissued coin hcoin ht := hf.unissued coin hcoin (Nat.le_trans (Nat.le_add_right _ n) ht)

/-- The next ID is given out by the next creation. -/
theorem lt_succ (w : World) : w.nextId < w.nextId + 1 := Nat.lt_succ_self _

/-- A new listing takes an identifier nothing is filed under. -/
theorem unlisted (hf : w.Fresh) {asset : Asset} {cap : EntityCap} {collateral now : ℕ}
    (h : asset.CreatedBy cap sender collateral now w.nextId (w.nextId + 1)) :
    w.assets.get? (Keyed.key asset) = none := by
  rw [show Keyed.key asset = w.nextId from h.id]
  exact hf.assets.get?_eq_none (Nat.lt_irrefl _)

/-- Replacing an accumulator by one of the same token. -/
theorem putAcc (hf : w.Fresh) (acc' : GlobalYieldAccumulator) {g : ID}
    {acc : GlobalYieldAccumulator} (hacc : w.accumulators.get? g = some acc)
    (hid : acc'.id = acc.id)
    (ht : acc'.treasuryCap.token = acc.treasuryCap.token) :
    World.Fresh { w with accumulators := w.accumulators.put acc' } :=
  { hf with
    accumulators := hf.accumulators.replace hacc hid
    tokens := Store.forall_put (ht ▸ hf.tokens acc (Store.mem_of_get? hacc)) hf.tokens }

/-- Filing a coin of a published token, or one without value. -/
theorem putCoin (hf : w.Fresh) (coin : TokenCoin) (hid : coin.id < w.nextId)
    (ht : w.nextId ≤ coin.token → coin.value = 0) :
    World.Fresh { w with coins := w.coins.put coin } :=
  { hf with
    coins := hf.coins.put hid
    unissued := Store.forall_put ht hf.unissued }

/-- Destroying a coin keeps the IDs in bounds. -/
theorem deleteCoin (hf : w.Fresh) (k : ID) : World.Fresh { w with coins := w.coins.delete k } :=
  { hf with
    coins := hf.coins.delete
    unissued := Store.forall_delete hf.unissued }

/-- Validator calls keep the IDs in bounds. -/
theorem validatorStep (hf : w.Fresh) {c : ValidatorCall} (h : ValidatorStep w sender c w') :
    w'.Fresh := by
  cases h with
  | registerValidator =>
    exact { hf.bump 2 with
      pools := (hf.bump 2).pools.put (Nat.lt_add_of_pos_right (by decide))
      validatorCaps := (hf.bump 2).validatorCaps.put (Nat.lt_succ_self _) }
  | addStake hpool => exact { hf with pools := hf.pools.replace hpool rfl }
  | withdrawStake hpool => exact { hf with pools := hf.pools.replace hpool rfl }

/-- A listing keeps the IDs in bounds; it takes two. -/
theorem listed (hf : w.Fresh) {asset : Asset} {cap : EntityCap} {collateral now : ℕ}
    {events : List Event}
    (h : asset.CreatedBy cap sender collateral now w.nextId (w.nextId + 1)) :
    (w.listed sender collateral asset cap events).Fresh :=
  { hf.bump 2 with
    assets := (hf.bump 2).assets.put (h.id ▸ Nat.lt_add_of_pos_right (by decide))
    entityCaps := (hf.bump 2).entityCaps.put (h.cap ▸ Nat.lt_succ_self _) }

/-- A close keeps the IDs in bounds. -/
theorem closing (hf : w.Fresh) {a g : ID} {asset : Asset} {acc : GlobalYieldAccumulator}
    {events : List Event} (hasset : w.assets.get? a = some asset)
    (hacc : w.accumulators.get? g = some acc) : (w.closing asset acc events).Fresh :=
  { hf.putAcc (markClosed acc) hacc rfl rfl with
    assets := hf.assets.replace hasset rfl }

/-- Asset calls keep the IDs in bounds. -/
theorem assetStep (hf : w.Fresh) {c : AssetCall} (h : AssetStep w sender c w') : w'.Fresh := by
  cases h with
  | createAsset _ created => exact hf.listed created
  | createTermAsset _ created => exact hf.listed created
  | cancelUnvouchedByEntity hasset => exact { hf with assets := hf.assets.replace hasset rfl }
  | cancelUnvouchedTimeout hasset => exact { hf with assets := hf.assets.replace hasset rfl }
  | vouchAssetLegals hasset hpool =>
    exact { hf with
      assets := hf.assets.replace hasset rfl
      pools := hf.pools.replace hpool rfl }
  | contributeCapital hasset =>
    exact { hf.bump 1 with
      assets := (hf.bump 1).assets.replace hasset rfl
      receipts := (hf.bump 1).receipts.put (lt_succ w) }
  | @finalizeSuccessfulRaise a token asset cap _ _ hasset _ hcap =>
    -- the custodied token was published before, so it is older than `nextId`
    have htoken : cap.token < w.nextId := hf.treasuryCaps cap (Store.mem_of_get? hcap)
    exact { hf.bump 1 with
      assets := (hf.bump 1).assets.replace hasset rfl
      accumulators := (hf.bump 1).accumulators.put (lt_succ w)
      tokens := Store.forall_put (Nat.lt_succ_of_lt htoken) (hf.bump 1).tokens
      treasuryCaps := (hf.bump 1).treasuryCaps.delete }
  | abortFailedRaise hasset hpool =>
    exact { hf with
      assets := hf.assets.replace hasset rfl
      pools := hf.pools.replace hpool rfl }
  | refundContribution hasset =>
    exact { hf with
      assets := hf.assets.replace hasset rfl
      receipts := hf.receipts.delete }
  | claimShares =>
    exact { hf.bump 1 with
      receipts := (hf.bump 1).receipts.delete
      shares := (hf.bump 1).shares.put (lt_succ w) }
  | submitMilestoneProof hasset => exact { hf with assets := hf.assets.replace hasset rfl }
  | approveMilestone hasset => exact { hf with assets := hf.assets.replace hasset rfl }
  | releaseFundingTranche hasset => exact { hf with assets := hf.assets.replace hasset rfl }
  | releaseVouchCoverage hasset hpool =>
    exact { hf with
      assets := hf.assets.replace hasset rfl
      pools := hf.pools.replace hpool rfl }
  | flagDefault hasset hacc =>
    exact { hf.putAcc (GlobalYieldAccumulator.compensated _ _ _) hacc rfl rfl with
      assets := hf.assets.replace hasset rfl }
  | depositRevenue _ hacc _ _ deposited =>
    have hframe := deposited.routed.frame
    exact { hf.putAcc _ hacc hframe.id (congrArg TreasuryCap.token hframe.cap) with }
  | closeAtReturnTarget hasset hacc => exact hf.closing hasset hacc
  | closeAfterCompensation hasset hacc => exact hf.closing hasset hacc
  | closeWindDown hasset hacc => exact hf.closing hasset hacc

/-- Accumulator calls keep the IDs in bounds. -/
theorem accumulatorStep (hf : w.Fresh) {c : AccumulatorCall} (h : AccumulatorStep w sender c w') :
    w'.Fresh := by
  cases h with
  | @claimRewards _ _ acc share _ hacc _ hshare =>
    exact { hf.putAcc (acc.afterClaim share) hacc rfl rfl with
      shares := hf.shares.replace hshare rfl }
  | @sweepRollover _ acc _ hacc =>
    have hput := hf.putAcc (acc.drained.afterAdvance acc.rolloverReserve) hacc rfl rfl
    exact { hput with }
  | @sweepCompensation _ acc routed _ hacc _ _ route =>
    have hput := hf.putAcc { routed with wrappingFrozen := false } hacc route.frame.id
      (congrArg TreasuryCap.token route.frame.cap)
    exact { hput with }
  | @wrapShares _ _ acc share _ hacc =>
    have hput := (hf.bump 1).putAcc (acc.afterWrap share) hacc rfl rfl
    have htoken := hf.tokens acc (Store.mem_of_get? hacc)
    -- the token of the new coin is older than `nextId`
    have hcoin := hput.putCoin ⟨w.nextId, acc.treasuryCap.token, share.shareCount⟩
      (lt_succ w) fun h => absurd (Nat.lt_succ_of_lt htoken) (Nat.not_lt.mpr h)
    exact { hcoin with shares := hcoin.shares.delete }
  | @unwrapCoins _ k acc acc' coin _ _ hacc _ _ _ _ sweep =>
    have htoken : acc'.treasuryCap.token = acc.treasuryCap.token := by rw [sweep.frame.cap]; rfl
    have hput := (hf.bump 1).putAcc acc' hacc sweep.frame.id htoken
    exact { hput.deleteCoin k with shares := hput.shares.put (lt_succ w) }
  | @mergeShares _ _ v acc target victim _ hacc _ htarget _ _ distinct =>
    have ht := (Store.get?_delete_ne distinct).trans htarget
    exact { hf.putAcc ((acc.afterClaim target).afterClaim victim) hacc rfl rfl with
      shares := hf.shares.delete.replace ht rfl }
  | @redeemShare _ _ acc share _ hacc =>
    exact { hf.putAcc (acc.afterRedeem share) hacc rfl rfl with
      shares := hf.shares.delete }
  | @adminSweepDust _ acc _ _ hacc =>
    exact { hf.putAcc acc.afterDust hacc rfl rfl with }
  | @splitShare s amount share _ hshare =>
    have hparent := hf.shares.replace (x := { share with
      shareCount := share.shareCount - amount.val }) hshare rfl
    exact { hf.bump 1 with
      shares := (hparent.mono (Nat.le_succ _)).put (lt_succ w) }

/-- Dispute calls keep the IDs in bounds. -/
theorem disputeStep (hf : w.Fresh) {c : DisputeCall} (h : DisputeStep w sender c w') :
    w'.Fresh := by
  cases h with
  | initializeDispute hasset hpool =>
    exact { hf.bump 1 with
      assets := (hf.bump 1).assets.replace hasset rfl
      pools := (hf.bump 1).pools.replace hpool rfl
      disputes := (hf.bump 1).disputes.put (lt_succ w) }
  | voteOnDispute hdispute => exact { hf with disputes := hf.disputes.replace hdispute rfl }
  | @resolveDispute _ _ _ _ _ _ asset _ v hdispute hpool hasset hacc _ decides =>
    -- a verdict files the four objects it fetched under their own IDs
    have hkeeps := decides.keeps
    exact { hf.putAcc _ hacc hkeeps.accId (congrArg TreasuryCap.token hkeeps.cap) with
      disputes := hf.disputes.replace hdispute hkeeps.disputeId
      pools := hf.pools.replace hpool hkeeps.poolId
      assets := hf.assets.replace hasset hkeeps.assetId }
  | claimJurorReward hdispute => exact { hf with disputes := hf.disputes.replace hdispute rfl }

/-- Framework calls keep the IDs in bounds. -/
theorem frameworkStep (hf : w.Fresh) {c : FrameworkCall} (h : FrameworkStep w sender c w') :
    w'.Fresh := by
  cases h with
  | mintUsdc => exact { hf with }
  | burnUsdc => exact { hf with }
  | payUsdc => exact { hf with }
  | publishToken =>
    exact { hf.bump 1 with treasuryCaps := (hf.bump 1).treasuryCaps.put (lt_succ w) }
  | @mintToken token value _ _ hcap =>
    have htoken := hf.treasuryCaps.get?_lt hcap
    have hcoin := (hf.bump 1).putCoin ⟨w.nextId, token, value.val⟩ (lt_succ w)
      fun h => absurd (Nat.lt_succ_of_lt htoken) (Nat.not_lt.mpr h)
    exact { hcoin with treasuryCaps := (hf.bump 1).treasuryCaps.replace hcap rfl }
  | @burnToken _ k _ _ _ hcap =>
    exact { hf.deleteCoin k with treasuryCaps := hf.treasuryCaps.replace hcap rfl }
  | zeroCoin => exact { (hf.bump 1).putCoin ⟨_, _, 0⟩ (lt_succ w) fun _ => rfl with }
  | @destroyZero k => exact { hf.deleteCoin k with }
  | @splitCoin k amount coin _ hcoin funds =>
    have hmem := Store.mem_of_get? hcoin
    -- a part of a coin without value has no value
    have hissued : w.nextId + 1 ≤ coin.token → coin.value = 0 := fun h =>
      hf.unissued coin hmem (Nat.le_of_succ_le h)
    have hparent := (hf.bump 1).putCoin { coin with value := coin.value - amount.val }
      (Nat.lt_succ_of_lt (hf.coins coin hmem)) fun h => by simp [hissued h]
    exact { hparent.putCoin ⟨w.nextId, coin.token, amount.val⟩ (lt_succ w)
      fun h => Nat.le_zero.mp (hissued h ▸ funds) with }
  | @joinCoins _ j coin other _ hcoin _ hother _ same =>
    have hmem := Store.mem_of_get? hcoin
    exact { (hf.deleteCoin j).putCoin { coin with value := coin.value + other.value }
      (hf.coins coin hmem) fun h => by
        have hc := hf.unissued coin hmem h
        have ho := hf.unissued other (Store.mem_of_get? hother) (same ▸ h)
        simp [hc, ho] with }
  | transferCoin => exact { hf with }
  | transferShare => exact { hf with }
  | transferTreasuryCap => exact { hf with }

/-- Every call keeps identifiers fresh. -/
theorem call (hf : w.Fresh) {c : Call} (h : w.call sender c = .ok w') : w'.Fresh := by
  cases c with
  | protocol c =>
    obtain ⟨-, _, _, -, rfl⟩ := World.protocolCall_eq_ok.mp h
    exact { hf with }
  | validator c => exact hf.validatorStep (World.validatorCall_eq_ok.mp h)
  | asset c => exact hf.assetStep (World.assetCall_eq_ok.mp h)
  | accumulator c => exact hf.accumulatorStep (World.accumulatorCall_eq_ok.mp h)
  | dispute c => exact hf.disputeStep (World.disputeCall_eq_ok.mp h)
  | framework c => exact hf.frameworkStep (World.frameworkCall_eq_ok.mp h)

end World.Fresh

/-! ## Links -/

/-- The raise of the asset was finalized. -/
def AssetState.isFinalized : AssetState → Bool
  | .executing | .operational | .compensating | .closed => true
  | .pendingVouch | .cancelled | .funding | .failed => false

/-- A verdict does not move an asset across the finalize. -/
theorem Decides.isFinalized {dispute : Dispute} {pool : ValidatorPool} {asset : Asset}
    {acc : GlobalYieldAccumulator} {config : ProtocolConfig} {now : ℕ} {v : Verdict}
    (h : Decides dispute pool asset acc config now v) :
    v.asset.state.isFinalized = asset.state.isFinalized := by
  cases h with
  | expired => rfl
  | rejected => rfl
  | upheld =>
    simp only [upheldVerdict, Asset.upheld]
    split
    · next hs => rw [hs]; rfl
    · rfl

/-- An accumulator and its asset point at each other, from the finalization of the raise
    on; no two accumulators custody the same token, and a custodied cap is not free;
    every deed belongs to an accumulator, every receipt to an asset, and a dispute names
    an asset with its accumulator. -/
structure World.Linked (w : World) : Prop where
  asset : ∀ {g acc}, w.accumulators.get? g = some acc →
    ∃ asset, w.assets.get? acc.assetId = some asset ∧ asset.accumulatorId = some g
  acc : ∀ {a asset g}, w.assets.get? a = some asset → asset.accumulatorId = some g →
    ∃ acc, w.accumulators.get? g = some acc ∧ acc.assetId = a
  staged : ∀ {a asset}, w.assets.get? a = some asset →
    asset.accumulatorId.isSome = asset.state.isFinalized
  tokens : ∀ {g g' acc acc'}, w.accumulators.get? g = some acc →
    w.accumulators.get? g' = some acc' → acc.treasuryCap.token = acc'.treasuryCap.token → g = g'
  custodied : ∀ {g acc}, w.accumulators.get? g = some acc →
    w.treasuryCaps.get? acc.treasuryCap.token = none
  deeds : ∀ share ∈ w.shares, ∃ g acc, w.accumulators.get? g = some acc ∧
    acc.assetId = share.assetId
  receipts : ∀ receipt ∈ w.receipts, ∃ asset, w.assets.get? receipt.assetId = some asset
  disputes : ∀ dispute ∈ w.disputes, ∃ acc,
    w.accumulators.get? dispute.accumulatorId = some acc ∧ acc.assetId = dispute.assetId

namespace World.Linked

variable {w w' : World} {sender : Address}

/-- Nothing is linked in the first world. -/
theorem genesis (admin : Address) : (World.genesis admin).Linked where
  asset h := by simp [World.genesis] at h
  acc h := by simp [World.genesis] at h
  staged h := by simp [World.genesis] at h
  tokens h := by simp [World.genesis] at h
  custodied h := by simp [World.genesis] at h
  deeds := by simp [World.genesis]
  receipts := by simp [World.genesis]
  disputes := by simp [World.genesis]

/-- Replacing an asset by one with the same accumulator. -/
theorem putAsset (hl : w.Linked) (asset' : Asset) {a : ID} {asset : Asset}
    (hasset : w.assets.get? a = some asset) (hid : asset'.id = asset.id)
    (hg : asset'.accumulatorId = asset.accumulatorId)
    (hst : asset'.state.isFinalized = asset.state.isFinalized) :
    World.Linked { w with assets := w.assets.put asset' } := by
  have hkey : asset.id = a := Store.key_of_get? hasset
  -- the store after the update, seen from each identifier
  have hget : ∀ b, (w.assets.put asset').get? b =
      if a = b then some asset' else w.assets.get? b := by
    intro b
    rw [Store.get?_put, show Keyed.key asset' = a from hid.trans hkey]
  refine { hl with asset := ?_, acc := ?_, staged := ?_, receipts := ?_ }
  · intro g acc hacc
    obtain ⟨x, hx, hxg⟩ := hl.asset hacc
    simp only [hget]
    split
    · next h =>
      -- the accumulator's asset is the one replaced
      obtain rfl : asset = x := Option.some.inj (hasset.symm.trans (h ▸ hx))
      exact ⟨asset', rfl, hg.trans hxg⟩
    · exact ⟨x, hx, hxg⟩
  · intro b x g hx hxg
    simp only [hget] at hx
    split at hx
    · next h =>
      obtain rfl := Option.some.inj hx
      exact hl.acc (h ▸ hasset) (hg.symm.trans hxg)
    · exact hl.acc hx hxg
  · intro b x hx
    simp only [hget] at hx
    split at hx
    · obtain rfl := Option.some.inj hx
      rw [hg, hst, hl.staged hasset]
    · exact hl.staged hx
  · intro r hr
    obtain ⟨x, hx⟩ := hl.receipts r hr
    simp only [hget]
    split
    · exact ⟨asset', rfl⟩
    · exact ⟨x, hx⟩

/-- Replacing an accumulator by one of the same asset and token. -/
theorem putAcc (hl : w.Linked) (acc' : GlobalYieldAccumulator) {g : ID}
    {acc : GlobalYieldAccumulator} (hacc : w.accumulators.get? g = some acc)
    (hid : acc'.id = acc.id)
    (ha : acc'.assetId = acc.assetId)
    (ht : acc'.treasuryCap.token = acc.treasuryCap.token) :
    World.Linked { w with accumulators := w.accumulators.put acc' } := by
  have hkey : acc.id = g := Store.key_of_get? hacc
  have hget : ∀ j, (w.accumulators.put acc').get? j =
      if g = j then some acc' else w.accumulators.get? j := by
    intro j
    rw [Store.get?_put, show Keyed.key acc' = g from hid.trans hkey]
  -- an accumulator after the update has the asset and token of the one before
  have hold : ∀ {j x}, (w.accumulators.put acc').get? j = some x → ∃ y,
      w.accumulators.get? j = some y ∧ x.assetId = y.assetId ∧
      x.treasuryCap.token = y.treasuryCap.token := by
    intro j x hx
    rw [hget] at hx
    split at hx
    · next h =>
      obtain rfl := Option.some.inj hx
      exact ⟨acc, h ▸ hacc, ha, ht⟩
    · exact ⟨x, hx, rfl, rfl⟩
  -- and no accumulator is lost
  have hnew : ∀ {j y}, w.accumulators.get? j = some y → ∃ x,
      (w.accumulators.put acc').get? j = some x ∧ x.assetId = y.assetId := by
    intro j y hy
    rw [hget]
    split
    · next h =>
      obtain rfl : acc = y := Option.some.inj (hacc.symm.trans (h ▸ hy))
      exact ⟨acc', rfl, ha⟩
    · exact ⟨y, hy, rfl⟩
  refine { hl with
    asset := ?_, acc := ?_, tokens := ?_, custodied := ?_, deeds := ?_, disputes := ?_ }
  · intro j x hx
    obtain ⟨y, hy, hxa, -⟩ := hold hx
    rw [hxa]
    exact hl.asset hy
  · intro a asset j hasset hj
    obtain ⟨y, hy, hya⟩ := hl.acc hasset hj
    obtain ⟨x, hx, hxa⟩ := hnew hy
    exact ⟨x, hx, hxa.trans hya⟩
  · intro j j' x x' hx hx' htok
    obtain ⟨y, hy, -, hyt⟩ := hold hx
    obtain ⟨y', hy', -, hyt'⟩ := hold hx'
    exact hl.tokens hy hy' (hyt ▸ hyt' ▸ htok)
  · intro j x hx
    obtain ⟨y, hy, -, hyt⟩ := hold hx
    rw [hyt]
    exact hl.custodied hy
  · intro share hs
    obtain ⟨j, y, hy, hya⟩ := hl.deeds share hs
    obtain ⟨x, hx, hxa⟩ := hnew hy
    exact ⟨j, x, hx, hxa.trans hya⟩
  · intro d hd
    obtain ⟨y, hy, hya⟩ := hl.disputes d hd
    obtain ⟨x, hx, hxa⟩ := hnew hy
    exact ⟨x, hx, hxa.trans hya⟩

/-- Filing deeds of assets that have an accumulator. -/
theorem putShare (hl : w.Linked) (share : GallyShare) {g : ID} {acc : GlobalYieldAccumulator}
    (hacc : w.accumulators.get? g = some acc) (ha : share.assetId = acc.assetId) :
    World.Linked { w with shares := w.shares.put share } :=
  { hl with deeds := Store.forall_put ⟨g, acc, hacc, ha.symm⟩ hl.deeds }

/-- Destroying a deed keeps the links. -/
theorem deleteShare (hl : w.Linked) (k : ID) :
    World.Linked { w with shares := w.shares.delete k } :=
  { hl with deeds := Store.forall_delete hl.deeds }

/-- Replacing a dispute by one about the same asset. -/
theorem putDispute (hl : w.Linked) (dispute' : Dispute) {d : ID} {dispute : Dispute}
    (hdispute : w.disputes.get? d = some dispute) (ha : dispute'.assetId = dispute.assetId)
    (hg : dispute'.accumulatorId = dispute.accumulatorId) :
    World.Linked { w with disputes := w.disputes.put dispute' } :=
  { hl with
    disputes := Store.forall_put
      (by rw [ha, hg]; exact hl.disputes dispute (Store.mem_of_get? hdispute)) hl.disputes }

/-- Destroying a receipt keeps the links. -/
theorem deleteReceipt (hl : w.Linked) (k : ID) :
    World.Linked { w with receipts := w.receipts.delete k } :=
  { hl with receipts := Store.forall_delete hl.receipts }

/-- Changing the supply of a free cap. -/
theorem putCap (hl : w.Linked) (cap' : TreasuryCap) {token : TypeTag} {cap : TreasuryCap}
    (hcap : w.treasuryCaps.get? token = some cap) (ht : cap'.token = cap.token) :
    World.Linked { w with treasuryCaps := w.treasuryCaps.put cap' } :=
  { hl with
    custodied := by
      intro g acc hacc
      -- the token of a free cap is in nobody's custody
      have hne : cap'.token ≠ acc.treasuryCap.token := by
        rw [ht, show cap.token = token from Store.key_of_get? hcap]
        rintro rfl
        simp [hl.custodied hacc] at hcap
      exact (Store.get?_put_ne hne).trans (hl.custodied hacc) }

/-- Filing an asset that has no accumulator yet. -/
theorem list (hl : w.Linked) {asset : Asset} (hfresh : w.assets.get? asset.id = none)
    (hg : asset.accumulatorId = none) (hst : asset.state.isFinalized = false) :
    World.Linked { w with assets := w.assets.put asset } := by
  -- the identifier is new, so nothing is overwritten
  have hget : ∀ {b x}, w.assets.get? b = some x → (w.assets.put asset).get? b = some x := by
    intro b x hx
    refine (Store.get?_put_ne ?_).trans hx
    rintro rfl
    exact absurd (hfresh.symm.trans hx) (by simp)
  refine { hl with asset := ?_, acc := ?_, staged := ?_, receipts := ?_ }
  · intro g acc hacc
    obtain ⟨x, hx, hxg⟩ := hl.asset hacc
    exact ⟨x, hget hx, hxg⟩
  · intro b x g hx hxg
    rw [Store.get?_put] at hx
    split at hx
    · obtain rfl := Option.some.inj hx
      simp [hg] at hxg
    · exact hl.acc hx hxg
  · intro b x hx
    rw [Store.get?_put] at hx
    split at hx
    · obtain rfl := Option.some.inj hx
      rw [hg, hst, Option.isSome_none]
    · exact hl.staged hx
  · intro r hr
    obtain ⟨x, hx⟩ := hl.receipts r hr
    exact ⟨x, hget hx⟩

/-- An asset without accumulator gets a fresh one, which custodies a free cap. -/
theorem finalize (hl : w.Linked) {a : ID} {asset : Asset} {cap : TreasuryCap} {g : ID}
    (hasset : w.assets.get? a = some asset) (hnone : asset.accumulatorId = none)
    (hcap : w.treasuryCaps.get? cap.token = some cap)
    (hfresh : w.accumulators.get? g = none) :
    World.Linked { w with
      assets := w.assets.put (asset.finalized g)
      accumulators := w.accumulators.put (asset.newAccumulator cap g)
      treasuryCaps := w.treasuryCaps.delete cap.token } := by
  obtain rfl : asset.id = a := Store.key_of_get? hasset
  have hasset' := Store.get?_put w.assets (asset.finalized g)
  have hacc' := Store.get?_put w.accumulators (asset.newAccumulator cap g)
  simp only [show Keyed.key (asset.finalized g) = asset.id from rfl] at hasset'
  simp only [show Keyed.key (asset.newAccumulator cap g) = g from rfl] at hacc'
  -- every accumulator is the new one or an old one under another identifier
  have hold : ∀ {j x}, (w.accumulators.put (asset.newAccumulator cap g)).get? j = some x →
      (g = j ∧ asset.newAccumulator cap g = x) ∨ (g ≠ j ∧ w.accumulators.get? j = some x) := by
    intro j x hx
    rw [hacc'] at hx
    split at hx
    · next h => exact Or.inl ⟨h, Option.some.inj hx⟩
    · next h => exact Or.inr ⟨h, hx⟩
  -- the accumulators filed before are still there
  have hkeep : ∀ {j x}, w.accumulators.get? j = some x →
      (w.accumulators.put (asset.newAccumulator cap g)).get? j = some x := by
    intro j x hx
    rw [hacc', if_neg, hx]
    rintro rfl
    simp [hfresh] at hx
  -- the cap was free, so none of them custodies its token
  have hcapne : ∀ {j x}, w.accumulators.get? j = some x → x.treasuryCap.token ≠ cap.token := by
    intro j x hx heq
    have := hl.custodied hx
    rw [heq, hcap] at this
    simp at this
  constructor
  · intro j x hx
    rcases hold hx with ⟨rfl, rfl⟩ | ⟨-, hx⟩
    -- the new pair points at each other
    · exact ⟨asset.finalized g, by rw [hasset']; simp [Asset.newAccumulator], rfl⟩
    · obtain ⟨y, hy, hyg⟩ := hl.asset hx
      refine ⟨y, ?_, hyg⟩
      rw [hasset', if_neg, hy]
      -- an old accumulator's asset had one already, which `asset` had not
      intro heq
      rw [← heq, hasset, Option.some.injEq] at hy
      simp [← hy, hnone] at hyg
  · intro b x j hx hxj
    rw [hasset'] at hx
    split at hx
    · next h =>
      obtain rfl := Option.some.inj hx
      obtain rfl : g = j := Option.some.inj hxj
      exact ⟨_, by rw [hacc', if_pos rfl], h⟩
    · obtain ⟨y, hy, hya⟩ := hl.acc hx hxj
      exact ⟨y, hkeep hy, hya⟩
  · intro b x hx
    rw [hasset'] at hx
    split at hx
    · obtain rfl := Option.some.inj hx
      rfl
    · exact hl.staged hx
  · intro j j' x x' hx hx' ht
    -- two accumulators of one token: neither can be the new one alone
    rcases hold hx with ⟨rfl, rfl⟩ | ⟨-, hx⟩ <;> rcases hold hx' with ⟨rfl, rfl⟩ | ⟨-, hx'⟩
    · rfl
    · exact absurd ht.symm (hcapne hx')
    · exact absurd ht (hcapne hx)
    · exact hl.tokens hx hx' ht
  · intro j x hx
    rw [Store.get?_delete]
    rcases hold hx with ⟨-, rfl⟩ | ⟨-, hx⟩
    · simp [Asset.newAccumulator]
    · rw [if_neg (hcapne hx), hl.custodied hx]
  · intro share hs
    obtain ⟨j, x, hx, hxa⟩ := hl.deeds share hs
    exact ⟨j, x, hkeep hx, hxa⟩
  · intro r hr
    obtain ⟨x, hx⟩ := hl.receipts r hr
    rw [hasset']
    split
    · exact ⟨_, rfl⟩
    · exact ⟨x, hx⟩
  · intro d hd
    obtain ⟨x, hx, hxa⟩ := hl.disputes d hd
    exact ⟨x, hkeep hx, hxa⟩

/-- A listing keeps the links: the new asset has no accumulator yet. -/
theorem listed (hl : w.Linked) (hf : w.Fresh) {asset : Asset} {cap : EntityCap}
    {collateral now : ℕ} {events : List Event}
    (h : asset.CreatedBy cap sender collateral now w.nextId (w.nextId + 1)) :
    (w.listed sender collateral asset cap events).Linked :=
  { hl.list (h.id ▸ hf.assets.get?_eq_none (Nat.lt_irrefl _)) h.listed.accumulator
      (h.listed.state ▸ rfl) with }

/-- A close keeps the links. -/
theorem closing (hl : w.Linked) {a g : ID} {asset : Asset} {acc : GlobalYieldAccumulator}
    {reason : CloseReason} {events : List Event} (hasset : w.assets.get? a = some asset)
    (hacc : w.accumulators.get? g = some acc) (guards : CloseGuards asset acc reason) :
    (w.closing asset acc events).Linked := by
  -- each trigger closes from a state after the finalization
  have hst : asset.closed.state.isFinalized = asset.state.isFinalized := by
    cases guards with
    | returnTarget state => rw [state]; rfl
    | compensation state => rw [state]; rfl
    | windDown state => rw [state]; rfl
  have hput := hl.putAsset asset.closed hasset rfl rfl hst
  exact { hput.putAcc (markClosed acc) hacc rfl rfl rfl with }

/-- Asset calls keep the links. -/
theorem assetStep (hl : w.Linked) (hf : w.Fresh) {c : AssetCall}
    (h : AssetStep w sender c w') : w'.Linked := by
  cases h with
  | createAsset _ created => exact hl.listed hf created
  | createTermAsset _ created => exact hl.listed hf created
  | @cancelUnvouchedByEntity _ _ asset _ _ hasset _ _ _ state =>
    exact { hl.putAsset asset.cancelled hasset rfl rfl (state ▸ rfl) with }
  | @cancelUnvouchedTimeout _ asset _ hasset state =>
    exact { hl.putAsset asset.cancelled hasset rfl rfl (state ▸ rfl) with }
  | @vouchAssetLegals _ _ _ docs asset pool _ _ hasset _ _ _ guards =>
    exact { hl.putAsset (asset.vouched pool.id (asset.coverageFor w.config) docs) hasset
      rfl rfl (guards.state ▸ rfl) with }
  | @contributeCapital _ payment asset _ hasset =>
    have hput := hl.putAsset
      (asset.afterContribution (asset.accepts payment.val)) hasset rfl rfl rfl
    have hself : (w.assets.put (asset.afterContribution (asset.accepts payment.val))).get?
        asset.id = some (asset.afterContribution (asset.accepts payment.val)) :=
      Store.get?_put_self _ _
    exact { hput with receipts := Store.forall_put ⟨_, hself⟩ hput.receipts }
  | @finalizeSuccessfulRaise _ token asset cap _ _ hasset _ hcap _ guards =>
    obtain rfl : cap.token = token := Store.key_of_get? hcap
    -- a raise that is not finalized has no accumulator
    have hnone : asset.accumulatorId = none := by
      have := hl.staged hasset
      rwa [guards.state, AssetState.isFinalized, Option.isSome_eq_false_iff,
        Option.isNone_iff_eq_none] at this
    exact { hl.finalize hasset hnone hcap (hf.accumulators.get?_eq_none (Nat.lt_irrefl _)) with }
  | @abortFailedRaise _ _ asset _ _ hasset _ guards =>
    exact { hl.putAsset asset.failed hasset rfl rfl (guards.state ▸ rfl) with }
  | @refundContribution _ r asset receipt _ hasset =>
    exact { (hl.putAsset (asset.afterRefund receipt.amount) hasset
      rfl rfl rfl).deleteReceipt r with }
  | @claimShares _ g r asset acc receipt _ _ hacc _ _ _ linked belongs =>
    exact { (hl.deleteReceipt r).putShare
      (receipt.deed w.nextId acc.cumulativeYieldIndex w.clockMs) hacc
      (belongs.trans linked.symm) with }
  | @submitMilestoneProof _ _ i proof asset _ t _ hasset =>
    exact { hl.putAsset (asset.withTranche i.val { t with proof := some proof }) hasset
      rfl rfl rfl with }
  | @approveMilestone _ _ _ i asset _ _ t _ hasset =>
    exact { hl.putAsset (asset.withTranche i.val { t with
      approvedBy := some sender }) hasset rfl rfl rfl with }
  | @releaseFundingTranche _ _ _ asset _ t _ hasset _ _ guards =>
    -- the last tranche flips EXECUTING to OPERATIONAL, both finalized
    have hst : (asset.afterTranche t).state.isFinalized = asset.state.isFinalized := by
      rw [Asset.afterTranche, guards.state]
      simp only
      split <;> rfl
    exact { hl.putAsset (asset.afterTranche t) hasset rfl rfl hst with }
  | @releaseVouchCoverage _ _ asset _ hasset =>
    exact { hl.putAsset (clearCoverage asset) hasset rfl rfl rfl with }
  | @flagDefault _ _ asset acc _ _ hasset hacc guards =>
    have hput := hl.putAsset asset.seized hasset rfl rfl (guards.state ▸ rfl)
    exact { hput.putAcc (acc.compensated (asset.entityCollateral + asset.escrow)
      (w.clockMs + w.config.compensationGraceMs)) hacc rfl rfl rfl with }
  | depositRevenue _ hacc _ _ deposited =>
    have hframe := deposited.routed.frame
    have hput := hl.putAcc _ hacc hframe.id hframe.assetId (congrArg TreasuryCap.token hframe.cap)
    exact { hput with }
  | closeAtReturnTarget hasset hacc guards => exact hl.closing hasset hacc guards
  | closeAfterCompensation hasset hacc guards => exact hl.closing hasset hacc guards
  | closeWindDown hasset hacc _ _ _ _ guards => exact hl.closing hasset hacc guards

/-- Accumulator calls keep the links. -/
theorem accumulatorStep (hl : w.Linked) {c : AccumulatorCall}
    (h : AccumulatorStep w sender c w') : w'.Linked := by
  cases h with
  | @claimRewards _ _ acc share _ hacc _ _ guards =>
    exact { (hl.putShare (share.settledAt acc.cumulativeYieldIndex) hacc
      guards.asset).putAcc (acc.afterClaim share) hacc rfl rfl rfl with }
  | @sweepRollover _ acc _ hacc =>
    have hput := hl.putAcc (acc.drained.afterAdvance acc.rolloverReserve) hacc rfl rfl rfl
    exact { hput with }
  | @sweepCompensation _ acc routed _ hacc _ _ route =>
    have hput := hl.putAcc { routed with wrappingFrozen := false } hacc route.frame.id
      route.frame.assetId (congrArg TreasuryCap.token route.frame.cap)
    exact { hput with }
  | @wrapShares _ s acc share _ hacc =>
    exact { (hl.deleteShare s).putAcc (acc.afterWrap share) hacc rfl rfl rfl with }
  | @unwrapCoins _ _ acc acc' coin _ _ hacc _ _ _ _ sweep =>
    have htoken : acc'.treasuryCap.token = acc.treasuryCap.token := by rw [sweep.frame.cap]; rfl
    have hput := (hl.putShare (acc.freshShare w.nextId coin.value w.clockMs) hacc
      rfl).putAcc acc' hacc sweep.frame.id sweep.frame.assetId htoken
    exact { hput with }
  | @mergeShares _ _ v acc target victim _ hacc _ _ _ _ _ guards =>
    have hput := (hl.deleteShare v).putShare
      (target.mergedWith victim acc.cumulativeYieldIndex) hacc guards.claim.asset
    exact { hput.putAcc ((acc.afterClaim target).afterClaim victim) hacc rfl rfl rfl with }
  | @redeemShare _ s acc share _ hacc =>
    exact { (hl.deleteShare s).putAcc (acc.afterRedeem share) hacc rfl rfl rfl with }
  | @adminSweepDust _ acc _ _ hacc =>
    exact { hl.putAcc acc.afterDust hacc rfl rfl rfl with }
  | @splitShare _ _ share _ hshare =>
    -- both parts belong to the accumulator of the parent
    obtain ⟨g, acc, hacc, ha⟩ := hl.deeds share (Store.mem_of_get? hshare)
    exact { hl with
      deeds := Store.forall_put ⟨g, acc, hacc, ha⟩ (Store.forall_put ⟨g, acc, hacc, ha⟩ hl.deeds) }

/-- Dispute calls keep the links. -/
theorem disputeStep (hl : w.Linked) {c : DisputeCall} (h : DisputeStep w sender c w') :
    w'.Linked := by
  cases h with
  | @initializeDispute _ _ g bond evidence reason asset pool acc _ hasset _ hacc _ guards =>
    obtain rfl : acc.id = g := Store.key_of_get? hacc
    have hput := hl.putAsset (setDisputed asset true) hasset rfl rfl rfl
    exact { hput with disputes := Store.forall_put ⟨acc, hacc, guards.linked⟩ hl.disputes }
  | @voteOnDispute _ _ _ guilty dispute pool _ _ hdispute =>
    exact { hl.putDispute (dispute.afterVote pool.id guilty) hdispute rfl rfl with }
  | resolveDispute hdispute _ hasset hacc _ decides =>
    -- a verdict keeps the IDs and links of the dispute, the asset and the accumulator
    have hkeeps := decides.keeps
    have hput := (hl.putDispute _ hdispute hkeeps.disputeAsset hkeeps.disputeAcc).putAsset _ hasset
      hkeeps.assetId hkeeps.accumulator decides.isFinalized
    exact { hput.putAcc _ hacc hkeeps.accId hkeeps.accAsset (congrArg TreasuryCap.token hkeeps.cap)
      with }
  | @claimJurorReward _ _ _ dispute pool _ _ hdispute =>
    exact { hl.putDispute (dispute.afterReward pool.id) hdispute rfl rfl with }

/-- Framework calls keep the links. -/
theorem frameworkStep (hl : w.Linked) (hf : w.Fresh) {c : FrameworkCall}
    (h : FrameworkStep w sender c w') : w'.Linked := by
  cases h with
  | publishToken =>
    exact { hl with
      custodied := by
        -- a new token has an ID that no custodied cap can have
        intro g acc hacc
        have hne : w.nextId ≠ acc.treasuryCap.token :=
          Nat.ne_of_gt (hf.tokens acc (Store.mem_of_get? hacc))
        exact (Store.get?_put_ne hne).trans (hl.custodied hacc) }
  | @mintToken _ value cap _ hcap =>
    exact { hl.putCap { cap with totalSupply := cap.totalSupply + value.val } hcap rfl
      with }
  | @burnToken _ _ cap coin _ hcap =>
    exact { hl.putCap { cap with totalSupply := cap.totalSupply - coin.value } hcap rfl
      with }
  | _ => exact { hl with }

/-- Every call keeps the links. -/
theorem call (hl : w.Linked) (hf : w.Fresh) {c : Call} (h : w.call sender c = .ok w') :
    w'.Linked := by
  cases c with
  | protocol c =>
    obtain ⟨-, _, _, -, rfl⟩ := World.protocolCall_eq_ok.mp h
    exact { hl with }
  | validator c => cases World.validatorCall_eq_ok.mp h <;> exact { hl with }
  | asset c => exact hl.assetStep hf (World.assetCall_eq_ok.mp h)
  | accumulator c => exact hl.accumulatorStep (World.accumulatorCall_eq_ok.mp h)
  | dispute c => exact hl.disputeStep (World.disputeCall_eq_ok.mp h)
  | framework c => exact hl.frameworkStep hf (World.frameworkCall_eq_ok.mp h)

end World.Linked

/-! ## Free treasury caps -/

/-- The value of all coins of token `t`. -/
def World.coinSupply (w : World) (t : TypeTag) : ℕ :=
  (w.coins.group TokenCoin.token t).sum TokenCoin.value

/-- A cap that is not custodied has minted exactly the coins there are. -/
def World.Issued (w : World) : Prop :=
  ∀ t cap, w.treasuryCaps.get? t = some cap → w.coinSupply t = cap.totalSupply

namespace World.Issued

variable {w w' : World} {sender : Address}

/-- Coins of a custodied token do not concern the free caps. -/
theorem of_custodied (hi : w.Issued) (hl : w.Linked) {g : ID} {acc : GlobalYieldAccumulator}
    (hacc : w.accumulators.get? g = some acc) (hcaps : w'.treasuryCaps = w.treasuryCaps)
    (hother : ∀ t, t ≠ acc.treasuryCap.token → w'.coinSupply t = w.coinSupply t) :
    w'.Issued := by
  intro t cap hcap
  rw [hcaps] at hcap
  have hne : t ≠ acc.treasuryCap.token := by
    rintro rfl
    simp [hl.custodied hacc] at hcap
  rw [hother t hne, hi t cap hcap]

/-- A new coin adds to the supply of its own token. -/
theorem coinSupply_put (w : World) (coin : TokenCoin) (h : w.coins.get? coin.id = none)
    (t : TypeTag) : World.coinSupply { w with coins := w.coins.put coin } t =
      (if coin.token = t then coin.value else 0) + w.coinSupply t := by
  simp only [coinSupply, Store.sum_group]
  exact Store.sum_put_of_fresh h _

/-- A coin that is replaced changes the supply of its token by the difference. -/
theorem coinSupply_replace (w : World) (coin : TokenCoin) {old : TokenCoin}
    (h : w.coins.get? coin.id = some old) (t : TypeTag) :
    (if old.token = t then old.value else 0) +
      World.coinSupply { w with coins := w.coins.put coin } t =
      (if coin.token = t then coin.value else 0) + w.coinSupply t := by
  simp only [coinSupply, Store.sum_group]
  exact Store.sum_put_of_get? h fun c : TokenCoin => if c.token = t then c.value else 0

/-- A coin that is destroyed leaves the supply of its token. -/
theorem coinSupply_delete {w : World} {k : ID} {coin : TokenCoin}
    (h : w.coins.get? k = some coin) (t : TypeTag) :
    (if coin.token = t then coin.value else 0) +
      World.coinSupply { w with coins := w.coins.delete k } t = w.coinSupply t := by
  simp only [coinSupply, Store.sum_group]
  exact Store.sum_delete_of_get? h fun c : TokenCoin => if c.token = t then c.value else 0

/-- Coins of an unpublished token are worth nothing. -/
theorem coinSupply_unissued (hf : w.Fresh) : w.coinSupply w.nextId = 0 := by
  apply Store.sum_eq_zero
  intro coin hc
  obtain ⟨hmem, ht⟩ := Store.mem_group.mp hc
  exact hf.unissued coin hmem (Nat.le_of_eq ht.symm)

/-- Accumulator calls keep coins and caps in step. -/
theorem accumulatorStep (hi : w.Issued) (hl : w.Linked) (hf : w.Fresh) {c : AccumulatorCall}
    (h : AccumulatorStep w sender c w') : w'.Issued := by
  cases h with
  | @wrapShares _ _ acc share _ hacc =>
    -- the minted coin is of a custodied token
    refine hi.of_custodied hl hacc rfl fun t ht => ?_
    have hput := coinSupply_put w ⟨w.nextId, acc.treasuryCap.token, share.shareCount⟩
      (hf.coins.get?_eq_none (Nat.lt_irrefl _)) t
    rw [if_neg ht.symm, Nat.zero_add] at hput
    exact hput
  | unwrapCoins hacc _ hcoin token =>
    -- and so is the burnt one
    refine hi.of_custodied hl hacc rfl fun t ht => ?_
    have hdel := coinSupply_delete hcoin t
    rw [if_neg (token ▸ ht.symm), Nat.zero_add] at hdel
    exact hdel
  | _ => exact hi

/-- Framework calls keep coins and caps in step. -/
theorem frameworkStep (hi : w.Issued) (hf : w.Fresh) {c : FrameworkCall}
    (h : FrameworkStep w sender c w') : w'.Issued := by
  have hfresh : w.coins.get? w.nextId = none := hf.coins.get?_eq_none (Nat.lt_irrefl _)
  cases h with
  | publishToken =>
    intro t cap hcap
    rw [Store.get?_put] at hcap
    split at hcap
    · next h =>
      obtain rfl := Option.some.inj hcap
      -- the published token has no coins of value yet
      obtain rfl : w.nextId = t := h
      exact coinSupply_unissued hf
    · exact hi t cap hcap
  | @mintToken token value cap _ hcap =>
    intro t cap' hcap'
    have hkey : cap.token = token := Store.key_of_get? hcap
    have hput := coinSupply_put w ⟨w.nextId, token, value.val⟩ hfresh t
    rw [Store.get?_put] at hcap'
    split at hcap'
    · next h =>
      obtain rfl := Option.some.inj hcap'
      obtain rfl : token = t := hkey.symm.trans h
      -- the cap's own token: supply and coins grow together
      rw [if_pos rfl, hi _ _ hcap, Nat.add_comm] at hput
      exact hput
    · next h =>
      -- another token: neither changes
      rw [if_neg (hkey ▸ h), Nat.zero_add, hi _ _ hcap'] at hput
      exact hput
  | @burnToken token k cap coin _ hcap _ hcoin same supply =>
    intro t cap' hcap'
    have hkey : cap.token = token := Store.key_of_get? hcap
    have hdel := coinSupply_delete hcoin t
    rw [same] at hdel
    rw [Store.get?_put] at hcap'
    split at hcap'
    · next h =>
      obtain rfl := Option.some.inj hcap'
      obtain rfl : token = t := hkey.symm.trans h
      rw [if_pos rfl, hi _ _ hcap] at hdel
      exact (Nat.sub_eq_of_eq_add' hdel.symm).symm
    · next h =>
      rw [if_neg (hkey ▸ h), Nat.zero_add, hi _ _ hcap'] at hdel
      exact hdel
  | @zeroCoin token =>
    intro t cap hcap
    have hput := coinSupply_put w ⟨w.nextId, token, 0⟩ hfresh t
    rw [ite_self, Nat.zero_add, hi t cap hcap] at hput
    exact hput
  | destroyZero _ hcoin zero =>
    intro t cap hcap
    have hdel := coinSupply_delete hcoin t
    rw [zero, ite_self, Nat.zero_add, hi t cap hcap] at hdel
    exact hdel
  | @splitCoin k amount coin _ hcoin funds =>
    intro t cap hcap
    obtain rfl : coin.id = k := Store.key_of_get? hcoin
    -- the rest and the new coin have the value of the coin before
    have hrest := coinSupply_replace w { coin with value := coin.value - amount.val } hcoin t
    have hchild := coinSupply_put
      { w with coins := w.coins.put { coin with value := coin.value - amount.val } }
      ⟨w.nextId, coin.token, amount.val⟩
      ((hf.coins.replace (x := { coin with value := coin.value - amount.val }) hcoin
        rfl).get?_eq_none (Nat.lt_irrefl _)) t
    rw [hi t cap hcap] at hrest
    refine hchild.trans ?_
    split at hrest <;> simp_all only [if_true, if_false] <;> omega
  | @joinCoins k j coin other _ hcoin _ hother distinct same =>
    intro t cap hcap
    obtain rfl : coin.id = k := Store.key_of_get? hcoin
    have hdel := coinSupply_delete hother t
    have hput := coinSupply_replace { w with coins := w.coins.delete j }
      { coin with value := coin.value + other.value }
      ((Store.get?_delete_ne distinct).trans hcoin) t
    rw [hi t cap hcap, same] at hdel
    change World.coinSupply { w with
      coins := (w.coins.delete j).put { coin with value := coin.value + other.value } } t = _
    split at hdel <;> simp_all only [if_true, if_false] <;> omega
  | _ => exact hi

/-- Every call keeps the free caps in step with their coins. -/
theorem call (hi : w.Issued) (hl : w.Linked) (hf : w.Fresh) {c : Call}
    (h : w.call sender c = .ok w') : w'.Issued := by
  cases c with
  | protocol c =>
    obtain ⟨-, _, _, -, rfl⟩ := World.protocolCall_eq_ok.mp h
    exact hi
  | validator c => cases World.validatorCall_eq_ok.mp h <;> exact hi
  | asset c =>
    cases World.assetCall_eq_ok.mp h with
    | finalizeSuccessfulRaise =>
      -- the finalization takes one cap away from the free ones
      intro t cap hcap
      rw [Store.get?_delete] at hcap
      split at hcap
      · simp at hcap
      · exact hi t cap hcap
    | _ => exact hi
  | accumulator c => exact hi.accumulatorStep hl hf (World.accumulatorCall_eq_ok.mp h)
  | dispute c => cases World.disputeCall_eq_ok.mp h <;> exact hi
  | framework c => exact hi.frameworkStep hf (World.frameworkCall_eq_ok.mp h)

end World.Issued

/-- In every reachable world the IDs that were given out are below the next one. -/
theorem Reachable.fresh {w : World} (hw : Reachable w) : w.Fresh :=
  hw.induct World.Fresh.genesis (fun _ hf h => hf.call h) fun _ hf _ => { hf with }

/-- In every reachable world the objects are linked. -/
theorem Reachable.linked {w : World} (hw : Reachable w) : w.Linked :=
  hw.induct World.Linked.genesis (fun hw hl h => hl.call hw.fresh h) fun _ hl _ => { hl with }

/-- Past its raise an asset has an accumulator. -/
theorem Reachable.accumulator_of_asset {w : World} (hw : Reachable w) {a : ID} {asset : Asset}
    (hasset : w.assets.get? a = some asset) (hfinalized : asset.state.isFinalized = true) :
    ∃ g acc, asset.accumulatorId = some g ∧ w.accumulators.get? g = some acc ∧
      acc.assetId = asset.id := by
  rw [← hw.linked.staged hasset] at hfinalized
  obtain ⟨g, hg⟩ := Option.isSome_iff_exists.mp hfinalized
  obtain ⟨acc, hacc, ha⟩ := hw.linked.acc hasset hg
  exact ⟨g, acc, hg, hacc, ha.trans (Store.key_of_get? hasset).symm⟩

/-- In every reachable world the caps count the coins. -/
theorem Reachable.issued {w : World} (hw : Reachable w) : w.Issued := by
  refine hw.induct ?_ (fun hw hi h => hi.call hw.linked hw.fresh h) fun _ hi _ => hi
  intro admin t cap hcap
  simp [World.genesis] at hcap

end Gally

import Gally.Chain.Custody

/-!
# What a call does to one object

For every asset, dispute, accumulator and pool, the effect of a call as one inductive with a
constructor for each call that changes such an object: which call it was, the guards that
held, and what the object became. Laws about one object over a run are proved by cases on it
(`World.call_touch`, `World.call_hearing`, `World.call_accumulators`, `World.call_origin`).
-/

namespace Gally

open Checked

/-- What call `c`, made in `w` by `sender`, does to asset `x`. -/
inductive Asset.Touch (w : World) (sender : Address) (x : Asset) : Call → Asset → Prop where
  | keep {c : Call} : Touch w sender x c x
  | cancelByEntity {c : ID} (state : x.state = .pendingVouch) :
      Touch w sender x (.asset (.cancelUnvouchedByEntity x.id c)) x.cancelled
  | cancelTimeout (state : x.state = .pendingVouch) :
      Touch w sender x (.asset (.cancelUnvouchedTimeout x.id)) x.cancelled
  | vouch {p c : ID} {docs : List WalrusRef} {pool : ValidatorPool} {cap : ValidatorCap}
      (hpool : w.pools.get? p = some pool) (guards : VouchGuards x pool cap w.config docs) :
      Touch w sender x (.asset (.vouchAssetLegals x.id p c docs))
        (x.vouched pool.id (x.coverageFor w.config) docs)
  | contribute {payment : U64} (guards : ContributeGuards x w.config w.clockMs payment.val) :
      Touch w sender x (.asset (.contributeCapital x.id payment))
        (x.afterContribution (x.accepts payment.val))
  | finalize {token : TypeTag} {cap : TreasuryCap} {metadata : CoinMetadata}
      (guards : FinalizeGuards x w.config cap metadata w.clockMs) :
      Touch w sender x (.asset (.finalizeSuccessfulRaise x.id token)) (x.finalized w.nextId)
  | abort {p : ID} {pool : ValidatorPool} (hpool : w.pools.get? p = some pool)
      (guards : AbortGuards x pool w.config w.clockMs) :
      Touch w sender x (.asset (.abortFailedRaise x.id p)) x.failed
  | refund {r : ID} {receipt : ContributionReceipt} (guards : RefundGuards x w.config receipt) :
      Touch w sender x (.asset (.refundContribution x.id r)) (x.afterRefund receipt.amount)
  | prove {c : ID} {i : U64} {proof : WalrusRef} {cap : EntityCap} {t : Tranche}
      (own : w.owner .soulbound c = sender) (hcap : w.entityCaps.get? c = some cap)
      (guards : ProofGuards x cap w.config i.val t) :
      Touch w sender x (.asset (.submitMilestoneProof x.id c i proof))
        (x.withTranche i.val { t with proof := some proof })
  | approve {p c : ID} {i : U64} {pool : ValidatorPool} {cap : ValidatorCap} {t : Tranche}
      (hpool : w.pools.get? p = some pool) (own : w.owner .soulbound c = sender)
      (hcap : w.validatorCaps.get? c = some cap)
      (guards : ApproveGuards x pool cap w.config i.val t) :
      Touch w sender x (.asset (.approveMilestone x.id p c i))
        (x.withTranche i.val { t with approvedBy := some sender })
  | release {c : ID} {i : U64} {cap : EntityCap} {t : Tranche}
      (own : w.owner .soulbound c = sender) (hcap : w.entityCaps.get? c = some cap)
      (guards : ReleaseGuards x cap w.config i.val t) :
      Touch w sender x (.asset (.releaseFundingTranche x.id c i)) (x.afterTranche t)
  | uncover {p : ID} {pool : ValidatorPool} (hpool : w.pools.get? p = some pool)
      (guards : CoverageGuards x pool) :
      Touch w sender x (.asset (.releaseVouchCoverage x.id p)) (clearCoverage x)
  | default {g : ID} {acc : GlobalYieldAccumulator} {t : Tranche}
      (hacc : w.accumulators.get? g = some acc)
      (guards : DefaultGuards x acc w.config w.clockMs t) :
      Touch w sender x (.asset (.flagDefault x.id g)) x.seized
  | closeAtReturnTarget {g : ID} {acc : GlobalYieldAccumulator}
      (hacc : w.accumulators.get? g = some acc) (guards : CloseGuards x acc .returnTarget) :
      Touch w sender x (.asset (.closeAtReturnTarget x.id g)) x.closed
  | closeAfterCompensation {g : ID} {acc : GlobalYieldAccumulator}
      (hacc : w.accumulators.get? g = some acc) (guards : CloseGuards x acc .compensation) :
      Touch w sender x (.asset (.closeAfterCompensation x.id g)) x.closed
  | closeWindDown {g c : ID} {acc : GlobalYieldAccumulator} {cap : EntityCap}
      (hacc : w.accumulators.get? g = some acc) (own : w.owner .soulbound c = sender)
      (hcap : w.entityCaps.get? c = some cap) (belongs : cap.assetId = x.id)
      (admin : w.owner .soulbound w.adminCap.id = sender) (guards : CloseGuards x acc .windDown) :
      Touch w sender x (.asset (.closeWindDown x.id g c)) x.closed
  | challenge {p g : ID} {bond : U64} {evidence : WalrusRef} {reason : Bytes}
      {pool : ValidatorPool} {acc : GlobalYieldAccumulator}
      (hpool : w.pools.get? p = some pool) (hacc : w.accumulators.get? g = some acc)
      (guards : InitializeGuards x pool acc w.config bond.val reason w.clockMs) :
      Touch w sender x (.dispute (.initializeDispute x.id p g bond evidence reason))
        (setDisputed x true)
  | verdict {d p g : ID} {dispute : Dispute} {pool : ValidatorPool}
      {acc : GlobalYieldAccumulator} {v : Verdict}
      (hdispute : w.disputes.get? d = some dispute) (hpool : w.pools.get? p = some pool)
      (hacc : w.accumulators.get? g = some acc)
      (guards : ResolveGuards dispute pool x acc w.config w.clockMs)
      (decides : Decides dispute pool x acc w.config w.clockMs v) :
      Touch w sender x (.dispute (.resolveDispute d p x.id g)) v.asset

/-- What call `c`, made in `w` by `sender`, does to an EXECUTING asset `x`. -/
inductive Asset.TouchExecuting (w : World) (sender : Address) (x : Asset) :
    Call → Asset → Prop where
  | keep {c : Call} : TouchExecuting w sender x c x
  | prove {c : ID} {i : U64} {proof : WalrusRef} {cap : EntityCap} {t : Tranche}
      (own : w.owner .soulbound c = sender) (hcap : w.entityCaps.get? c = some cap)
      (guards : ProofGuards x cap w.config i.val t) :
      TouchExecuting w sender x (.asset (.submitMilestoneProof x.id c i proof))
        (x.withTranche i.val { t with proof := some proof })
  | approve {p c : ID} {i : U64} {pool : ValidatorPool} {cap : ValidatorCap} {t : Tranche}
      (hpool : w.pools.get? p = some pool) (own : w.owner .soulbound c = sender)
      (hcap : w.validatorCaps.get? c = some cap)
      (guards : ApproveGuards x pool cap w.config i.val t) :
      TouchExecuting w sender x (.asset (.approveMilestone x.id p c i))
        (x.withTranche i.val { t with approvedBy := some sender })
  | release {c : ID} {i : U64} {cap : EntityCap} {t : Tranche}
      (own : w.owner .soulbound c = sender) (hcap : w.entityCaps.get? c = some cap)
      (guards : ReleaseGuards x cap w.config i.val t) :
      TouchExecuting w sender x (.asset (.releaseFundingTranche x.id c i)) (x.afterTranche t)
  | default {g : ID} {acc : GlobalYieldAccumulator} {t : Tranche}
      (hacc : w.accumulators.get? g = some acc)
      (guards : DefaultGuards x acc w.config w.clockMs t) :
      TouchExecuting w sender x (.asset (.flagDefault x.id g)) x.seized
  | challenge {p g : ID} {bond : U64} {evidence : WalrusRef} {reason : Bytes}
      {pool : ValidatorPool} {acc : GlobalYieldAccumulator}
      (hpool : w.pools.get? p = some pool) (hacc : w.accumulators.get? g = some acc)
      (guards : InitializeGuards x pool acc w.config bond.val reason w.clockMs) :
      TouchExecuting w sender x (.dispute (.initializeDispute x.id p g bond evidence reason))
        (setDisputed x true)
  | verdict {d p g : ID} {dispute : Dispute} {pool : ValidatorPool}
      {acc : GlobalYieldAccumulator} {v : Verdict}
      (hdispute : w.disputes.get? d = some dispute) (hpool : w.pools.get? p = some pool)
      (hacc : w.accumulators.get? g = some acc)
      (guards : ResolveGuards dispute pool x acc w.config w.clockMs)
      (decides : Decides dispute pool x acc w.config w.clockMs v) :
      TouchExecuting w sender x (.dispute (.resolveDispute d p x.id g)) v.asset

/-- The state guards of the other calls exclude an EXECUTING asset. -/
theorem Asset.Touch.executing {w : World} {sender : Address} {x x' : Asset} {c : Call}
    (h : x.Touch w sender c x') (hstate : x.state = .executing) :
    x.TouchExecuting w sender c x' := by
  -- a call whose guards need another state does not reach an EXECUTING asset
  have hother : ∀ {s : AssetState}, x.state = s → s ≠ .executing →
      x.TouchExecuting w sender c x' := by
    intro s hs hne
    exact absurd (hs.symm.trans hstate) hne
  cases h with
  | keep => exact .keep
  | prove own hcap guards => exact .prove own hcap guards
  | approve hpool own hcap guards => exact .approve hpool own hcap guards
  | release own hcap guards => exact .release own hcap guards
  | default hacc guards => exact .default hacc guards
  | challenge hpool hacc guards => exact .challenge hpool hacc guards
  | verdict hdispute hpool hacc guards decides => exact .verdict hdispute hpool hacc guards decides
  | cancelByEntity state => exact hother state (by simp)
  | cancelTimeout state => exact hother state (by simp)
  | vouch _ guards => exact hother guards.state (by simp)
  | contribute guards => exact hother guards.state (by simp)
  | finalize guards => exact hother guards.state (by simp)
  | abort _ guards => exact hother guards.state (by simp)
  | refund guards => exact hother guards.state (by simp)
  -- the coverage is released after the raise is over, or after the wind-down
  | uncover _ guards =>
    rcases guards.state with state | state <;> exact hother state (by simp)
  | closeAtReturnTarget _ guards =>
    cases guards with
    | returnTarget state => exact hother state (by simp)
  | closeAfterCompensation _ guards =>
    cases guards with
    | compensation state => exact hother state (by simp)
  | closeWindDown _ _ _ _ _ guards =>
    cases guards with
    | windDown state => exact hother state (by simp)

/-- What call `c`, made in `w` by `sender`, does to dispute `x`. -/
inductive Dispute.Hearing (w : World) (sender : Address) (x : Dispute) : Call → Dispute → Prop where
  | keep {c : Call} : Hearing w sender x c x
  | vote {p c : ID} {guilty : Bool} {pool : ValidatorPool} {cap : ValidatorCap}
      (hpool : w.pools.get? p = some pool)
      (guards : VoteGuards x pool cap w.config guilty w.clockMs) :
      Hearing w sender x (.dispute (.voteOnDispute x.id p c guilty)) (x.afterVote pool.id guilty)
  | verdict {p a g : ID} {pool : ValidatorPool} {asset : Asset} {acc : GlobalYieldAccumulator}
      {v : Verdict} (hpool : w.pools.get? p = some pool) (hasset : w.assets.get? a = some asset)
      (hacc : w.accumulators.get? g = some acc)
      (guards : ResolveGuards x pool asset acc w.config w.clockMs)
      (decides : Decides x pool asset acc w.config w.clockMs v) :
      Hearing w sender x (.dispute (.resolveDispute x.id p a g)) v.dispute
  | reward {p c : ID} {pool : ValidatorPool} (rejected : x.status = .rejected) :
      Hearing w sender x (.dispute (.claimJurorReward x.id p c)) (x.afterReward pool.id)

/-- The three calls that close asset `a` with accumulator `g`, and their reasons. -/
inductive AssetCall.Closes (a g : ID) : AssetCall → CloseReason → Prop where
  | atReturnTarget : Closes a g (.closeAtReturnTarget a g) .returnTarget
  | afterCompensation : Closes a g (.closeAfterCompensation a g) .compensation
  | windDown {c : ID} : Closes a g (.closeWindDown a g c) .windDown

/-- What call `c`, made in `w` by `sender`, does to accumulator `x`. -/
inductive GlobalYieldAccumulator.Touch (w : World) (sender : Address) (x : GlobalYieldAccumulator) :
    Call → GlobalYieldAccumulator → Prop where
  | keep {c : Call} : Touch w sender x c x
  | claim {s : ID} {share : GallyShare} (hshare : w.shares.get? s = some share)
      (guards : ClaimGuards x share) :
      Touch w sender x (.accumulator (.claimRewards x.id s)) (x.afterClaim share)
  | merge {t v : ID} {target victim : GallyShare} (htarget : w.shares.get? t = some target)
      (hvictim : w.shares.get? v = some victim) (guards : MergeGuards x target victim) :
      Touch w sender x (.accumulator (.mergeShares x.id t v))
        ((x.afterClaim target).afterClaim victim)
  | wrap {s : ID} {share : GallyShare} (hshare : w.shares.get? s = some share)
      (guards : WrapGuards x w.config share w.clockMs) :
      Touch w sender x (.accumulator (.wrapShares x.id s)) (x.afterWrap share)
  | unwrap {k : ID} {coin : TokenCoin} {x' : GlobalYieldAccumulator} {swept : List Event}
      (hcoin : w.coins.get? k = some coin) (token : coin.token = x.treasuryCap.token)
      (guards : UnwrapGuards x coin) (sweep : AutoSwept (x.afterBurn coin.value) x' swept) :
      Touch w sender x (.accumulator (.unwrapCoins x.id k)) x'
  | redeem {s : ID} {share : GallyShare} (hshare : w.shares.get? s = some share)
      (guards : RedeemGuards x share) :
      Touch w sender x (.accumulator (.redeemShare x.id s)) (x.afterRedeem share)
  | sweepRollover (positive : 0 < x.rolloverReserve) (guards : AdvanceGuards x x.rolloverReserve) :
      Touch w sender x (.accumulator (.sweepRollover x.id))
        (x.drained.afterAdvance x.rolloverReserve)
  | sweepCompensation {routed : GlobalYieldAccumulator} (due : x.compensationUnlockMs ≤ w.clockMs)
      (positive : 0 < x.compensationPool)
      (route : Routed { x with compensationPool := 0 } x.compensationPool routed) :
      Touch w sender x (.accumulator (.sweepCompensation x.id))
        { routed with wrappingFrozen := false }
  | sweepDust (guards : DustGuards x w.config) :
      Touch w sender x (.accumulator (.adminSweepDust x.id)) x.afterDust
  | deposit {a : ID} {payment : U64} {asset : Asset} {x' : GlobalYieldAccumulator}
      (hasset : w.assets.get? a = some asset) (guards : DepositGuards asset x w.config payment.val)
      (deposited : Deposited x (asset.investorPortion w.config payment.val) x') :
      Touch w sender x (.asset (.depositRevenue a x.id payment)) x'
  | default {a : ID} {asset : Asset} {t : Tranche} (hasset : w.assets.get? a = some asset)
      (guards : DefaultGuards asset x w.config w.clockMs t) :
      Touch w sender x (.asset (.flagDefault a x.id)) (x.compensated
        (asset.entityCollateral + asset.escrow) (w.clockMs + w.config.compensationGraceMs))
  | uphold {d p a : ID} {dispute : Dispute} {pool : ValidatorPool} {asset : Asset}
      (hdispute : w.disputes.get? d = some dispute) (hasset : w.assets.get? a = some asset)
      (guards : ResolveGuards dispute pool asset x w.config w.clockMs)
      (quorum : w.config.juryQuorum ≤ dispute.totalVotes)
      (uphold : UpholdGuards dispute pool asset x w.config w.clockMs) :
      Touch w sender x (.dispute (.resolveDispute d p a x.id)) (x.compensated
        (asset.coverageLocked - w.config.bounty asset.coverageLocked + asset.seizable)
        (w.clockMs + w.config.compensationGraceMs))
  | close {a : ID} {c : AssetCall} {asset : Asset} {reason : CloseReason}
      (hasset : w.assets.get? a = some asset) (closes : c.Closes a x.id reason)
      (guards : CloseGuards asset x reason) : Touch w sender x (.asset c) (markClosed x)

/-- No call moves an accumulator to another asset. -/
theorem GlobalYieldAccumulator.Touch.assetId {w : World} {sender : Address} {c : Call}
    {x x' : GlobalYieldAccumulator} (h : x.Touch w sender c x') : x'.assetId = x.assetId := by
  cases h with
  | unwrap _ _ _ sweep => exact sweep.frame.assetId
  | sweepCompensation _ _ route => exact route.frame.assetId
  | deposit _ _ deposited => exact deposited.routed.frame.assetId
  | _ => rfl

/-- What call `c`, made in `w` by `sender`, does to pool `x`. -/
inductive ValidatorPool.Touch (w : World) (sender : Address) (x : ValidatorPool) :
    Call → ValidatorPool → Prop where
  | keep {c : Call} : Touch w sender x c x
  | add {deposit : U64} :
      Touch w sender x (.validator (.addStake x.id deposit)) (x.withStake (x.stake + deposit.val))
  | withdraw {k : ID} {amount : U64} {cap : ValidatorCap} (own : w.owner .soulbound k = sender)
      (hcap : w.validatorCaps.get? k = some cap)
      (guards : WithdrawGuards x cap w.config amount.val) :
      Touch w sender x (.validator (.withdrawStake x.id k amount))
        (x.withStake (x.stake - amount.val))
  | vouch {a k : ID} {docs : List WalrusRef} {asset : Asset} {cap : ValidatorCap}
      (hasset : w.assets.get? a = some asset) (guards : VouchGuards asset x cap w.config docs) :
      Touch w sender x (.asset (.vouchAssetLegals a x.id k docs))
        (x.afterLock (asset.coverageFor w.config))
  | abort {a : ID} {asset : Asset} (hasset : w.assets.get? a = some asset)
      (guards : AbortGuards asset x w.config w.clockMs) :
      Touch w sender x (.asset (.abortFailedRaise a x.id)) (x.afterRelease asset.coverageLocked)
  | uncover {a : ID} {asset : Asset} (hasset : w.assets.get? a = some asset)
      (guards : CoverageGuards asset x) :
      Touch w sender x (.asset (.releaseVouchCoverage a x.id))
        (x.afterRelease asset.coverageLocked)
  | challenge {a g : ID} {bond : U64} {evidence : WalrusRef} {reason : Bytes} {asset : Asset}
      {acc : GlobalYieldAccumulator} (hasset : w.assets.get? a = some asset)
      (hacc : w.accumulators.get? g = some acc)
      (guards : InitializeGuards asset x acc w.config bond.val reason w.clockMs) :
      Touch w sender x (.dispute (.initializeDispute a x.id g bond evidence reason))
        (x.withStatus .frozen)
  | verdict {d a g : ID} {dispute : Dispute} {asset : Asset} {acc : GlobalYieldAccumulator}
      {v : Verdict} (hdispute : w.disputes.get? d = some dispute)
      (hasset : w.assets.get? a = some asset) (hacc : w.accumulators.get? g = some acc)
      (guards : ResolveGuards dispute x asset acc w.config w.clockMs)
      (decides : Decides dispute x asset acc w.config w.clockMs v) :
      Touch w sender x (.dispute (.resolveDispute d x.id a g)) v.pool

namespace World

variable {w w' : World} {sender : Address}

/-- One asset was replaced. -/
theorem touch_replace {c : Call} {a : ID} {asset asset' : Asset}
    (hasset : w.assets.get? a = some asset) (hid : asset'.id = asset.id)
    (h : asset.Touch w sender c asset') :
    w.assets.Keeps (fun x x' => x.Touch w sender c x') (w.assets.put asset') :=
  .replace (fun _ => .keep) _ hasset hid h

/-- What an asset call does to the assets: one of the listed touches, or nothing. -/
theorem asset_touch (hf : w.Fresh) {c : AssetCall} (h : AssetStep w sender c w') :
    w.assets.Keeps (fun x x' => x.Touch w sender (.asset c) x') w'.assets := by
  -- a listing files a new asset, every other call replaces the one it fetched
  have hr : ∀ x : Asset, x.Touch w sender (.asset c) x := fun _ => .keep
  cases h with
  | createAsset _ created => exact .fresh hr _ (hf.unlisted created)
  | createTermAsset _ created => exact .fresh hr _ (hf.unlisted created)
  | claimShares => exact .refl hr _
  | depositRevenue => exact .refl hr _
  | cancelUnvouchedByEntity hasset _ _ _ state =>
    obtain rfl := Store.key_of_get? hasset
    exact touch_replace hasset rfl (.cancelByEntity state)
  | cancelUnvouchedTimeout hasset state =>
    obtain rfl := Store.key_of_get? hasset
    exact touch_replace hasset rfl (.cancelTimeout state)
  | vouchAssetLegals hasset hpool _ _ guards =>
    obtain rfl := Store.key_of_get? hasset
    exact touch_replace hasset rfl (.vouch hpool guards)
  | contributeCapital hasset _ guards =>
    obtain rfl := Store.key_of_get? hasset
    exact touch_replace hasset rfl (.contribute guards)
  | finalizeSuccessfulRaise hasset _ _ _ guards =>
    obtain rfl := Store.key_of_get? hasset
    exact touch_replace hasset rfl (.finalize guards)
  | abortFailedRaise hasset hpool guards =>
    obtain rfl := Store.key_of_get? hasset
    exact touch_replace hasset rfl (.abort hpool guards)
  | refundContribution hasset _ _ guards =>
    obtain rfl := Store.key_of_get? hasset
    exact touch_replace hasset rfl (.refund guards)
  | submitMilestoneProof hasset own hcap guards =>
    obtain rfl := Store.key_of_get? hasset
    exact touch_replace hasset rfl (.prove own hcap guards)
  | approveMilestone hasset hpool own hcap guards =>
    obtain rfl := Store.key_of_get? hasset
    exact touch_replace hasset rfl (.approve hpool own hcap guards)
  | releaseFundingTranche hasset own hcap guards =>
    obtain rfl := Store.key_of_get? hasset
    exact touch_replace hasset rfl (.release own hcap guards)
  | releaseVouchCoverage hasset hpool guards =>
    obtain rfl := Store.key_of_get? hasset
    exact touch_replace hasset rfl (.uncover hpool guards)
  | flagDefault hasset hacc guards =>
    obtain rfl := Store.key_of_get? hasset
    exact touch_replace hasset rfl (.default hacc guards)
  | closeAtReturnTarget hasset hacc guards =>
    obtain rfl := Store.key_of_get? hasset
    exact touch_replace hasset rfl (.closeAtReturnTarget hacc guards)
  | closeAfterCompensation hasset hacc guards =>
    obtain rfl := Store.key_of_get? hasset
    exact touch_replace hasset rfl (.closeAfterCompensation hacc guards)
  | closeWindDown hasset hacc admin own hcap belongs guards =>
    obtain rfl := Store.key_of_get? hasset
    exact touch_replace hasset rfl (.closeWindDown hacc own hcap belongs admin guards)

/-- Every call leaves an asset alone or touches it. -/
theorem call_touch (hf : w.Fresh) {c : Call} (h : w.call sender c = .ok w') :
    w.assets.Keeps (fun x x' => x.Touch w sender c x') w'.assets := by
  -- only the calls of the asset and the dispute module file an asset
  have hr : ∀ x : Asset, x.Touch w sender c x := fun _ => .keep
  cases c with
  | protocol c =>
    obtain ⟨-, _, _, -, rfl⟩ := World.protocolCall_eq_ok.mp h
    exact .refl hr _
  | validator c => cases World.validatorCall_eq_ok.mp h <;> exact .refl hr _
  | asset c => exact asset_touch hf (World.assetCall_eq_ok.mp h)
  | accumulator c => cases World.accumulatorCall_eq_ok.mp h <;> exact .refl hr _
  | dispute c =>
    cases World.disputeCall_eq_ok.mp h with
    | initializeDispute hasset hpool hacc _ guards =>
      obtain rfl := Store.key_of_get? hasset
      exact touch_replace hasset rfl (.challenge hpool hacc guards)
    | resolveDispute hdispute hpool hasset hacc guards decides =>
      obtain rfl := Store.key_of_get? hasset
      exact touch_replace hasset decides.keeps.assetId (.verdict hdispute hpool hacc guards decides)
    | voteOnDispute => exact .refl hr _
    | claimJurorReward => exact .refl hr _
  | framework c => cases World.frameworkCall_eq_ok.mp h <;> exact .refl hr _

/-- One accumulator was replaced. -/
theorem touch_putAcc {c : Call} {g : ID} {acc acc' : GlobalYieldAccumulator}
    (hacc : w.accumulators.get? g = some acc) (hid : acc'.id = acc.id)
    (h : acc.Touch w sender c acc') :
    w.accumulators.Keeps (fun x x' => x.Touch w sender c x') (w.accumulators.put acc') :=
  .replace (fun _ => .keep) _ hacc hid h

/-- Every call leaves an accumulator alone or touches it. -/
theorem call_touchAcc (hf : w.Fresh) {c : Call} (h : w.call sender c = .ok w') :
    w.accumulators.Keeps (fun x x' => x.Touch w sender c x') w'.accumulators := by
  -- an accumulator is filed by the calls that take it as an argument
  have hr : ∀ x : GlobalYieldAccumulator, x.Touch w sender c x := fun _ => .keep
  cases c with
  | protocol c =>
    obtain ⟨-, _, _, -, rfl⟩ := World.protocolCall_eq_ok.mp h
    exact .refl hr _
  | validator c => cases World.validatorCall_eq_ok.mp h <;> exact .refl hr _
  | asset c =>
    cases World.assetCall_eq_ok.mp h with
    | finalizeSuccessfulRaise =>
      exact .fresh hr _ (hf.accumulators.get?_eq_none (Nat.lt_irrefl w.nextId))
    | flagDefault hasset hacc guards =>
      obtain rfl := Store.key_of_get? hacc
      exact touch_putAcc hacc rfl (.default hasset guards)
    | depositRevenue hasset hacc _ guards deposited =>
      obtain rfl := Store.key_of_get? hacc
      exact touch_putAcc hacc deposited.routed.frame.id (.deposit hasset guards deposited)
    | closeAtReturnTarget hasset hacc guards =>
      obtain rfl := Store.key_of_get? hacc
      exact touch_putAcc hacc rfl (.close hasset .atReturnTarget guards)
    | closeAfterCompensation hasset hacc guards =>
      obtain rfl := Store.key_of_get? hacc
      exact touch_putAcc hacc rfl (.close hasset .afterCompensation guards)
    | closeWindDown hasset hacc _ _ _ _ guards =>
      obtain rfl := Store.key_of_get? hacc
      exact touch_putAcc hacc rfl (.close hasset .windDown guards)
    | _ => exact .refl hr _
  | accumulator c =>
    cases World.accumulatorCall_eq_ok.mp h with
    | claimRewards hacc _ hshare guards =>
      obtain rfl := Store.key_of_get? hacc
      exact touch_putAcc hacc rfl (.claim hshare guards)
    | sweepRollover hacc positive guards =>
      obtain rfl := Store.key_of_get? hacc
      exact touch_putAcc hacc rfl (.sweepRollover positive guards)
    | sweepCompensation hacc due positive route =>
      obtain rfl := Store.key_of_get? hacc
      exact touch_putAcc hacc route.frame.id (.sweepCompensation due positive route)
    | wrapShares hacc _ hshare guards =>
      obtain rfl := Store.key_of_get? hacc
      exact touch_putAcc hacc rfl (.wrap hshare guards)
    | unwrapCoins hacc _ hcoin token guards sweep =>
      obtain rfl := Store.key_of_get? hacc
      exact touch_putAcc hacc sweep.frame.id (.unwrap hcoin token guards sweep)
    | mergeShares hacc _ htarget _ hvictim _ guards =>
      obtain rfl := Store.key_of_get? hacc
      exact touch_putAcc hacc rfl (.merge htarget hvictim guards)
    | redeemShare hacc _ hshare guards =>
      obtain rfl := Store.key_of_get? hacc
      exact touch_putAcc hacc rfl (.redeem hshare guards)
    | adminSweepDust _ hacc guards =>
      obtain rfl := Store.key_of_get? hacc
      exact touch_putAcc hacc rfl (.sweepDust guards)
    | splitShare => exact .refl hr _
  | dispute c =>
    cases World.disputeCall_eq_ok.mp h with
    | initializeDispute => exact .refl hr _
    | voteOnDispute => exact .refl hr _
    | resolveDispute hdispute hpool hasset hacc guards decides =>
      obtain rfl := Store.key_of_get? hacc
      refine touch_putAcc hacc decides.keeps.accId ?_
      -- only an upheld dispute puts funds into the accumulator
      cases decides with
      | expired => exact .keep
      | rejected => exact .keep
      | upheld quorum _ uphold => exact .uphold hdispute hasset guards quorum uphold
    | claimJurorReward => exact .refl hr _
  | framework c => cases World.frameworkCall_eq_ok.mp h <;> exact .refl hr _

/-- Every call leaves a pool alone or touches it. -/
theorem call_touchPool (hf : w.Fresh) {c : Call} (h : w.call sender c = .ok w') :
    w.pools.Keeps (fun x x' => x.Touch w sender c x') w'.pools := by
  -- a pool is replaced under its own ID, and a new one gets a fresh ID
  have hr : ∀ x : ValidatorPool, x.Touch w sender c x := fun _ => .keep
  cases c with
  | protocol c =>
    obtain ⟨-, _, _, -, rfl⟩ := World.protocolCall_eq_ok.mp h
    exact .refl hr _
  | validator c =>
    cases World.validatorCall_eq_ok.mp h with
    | registerValidator => exact .fresh hr _ (hf.pools.get?_eq_none (Nat.lt_irrefl w.nextId))
    | addStake hpool =>
      obtain rfl := Store.key_of_get? hpool
      exact .replace hr _ hpool rfl .add
    | withdrawStake hpool own hcap guards =>
      obtain rfl := Store.key_of_get? hpool
      exact .replace hr _ hpool rfl (.withdraw own hcap guards)
  | asset c =>
    cases World.assetCall_eq_ok.mp h with
    | vouchAssetLegals hasset hpool _ _ guards =>
      obtain rfl := Store.key_of_get? hpool
      exact .replace hr _ hpool rfl (.vouch hasset guards)
    | abortFailedRaise hasset hpool guards =>
      obtain rfl := Store.key_of_get? hpool
      exact .replace hr _ hpool rfl (.abort hasset guards)
    | releaseVouchCoverage hasset hpool guards =>
      obtain rfl := Store.key_of_get? hpool
      exact .replace hr _ hpool rfl (.uncover hasset guards)
    | _ => exact .refl hr _
  | accumulator c => cases World.accumulatorCall_eq_ok.mp h <;> exact .refl hr _
  | dispute c =>
    cases World.disputeCall_eq_ok.mp h with
    | initializeDispute hasset hpool hacc _ guards =>
      obtain rfl := Store.key_of_get? hpool
      exact .replace hr _ hpool rfl (.challenge hasset hacc guards)
    | resolveDispute hdispute hpool hasset hacc guards decides =>
      obtain rfl := Store.key_of_get? hpool
      exact .replace hr _ hpool decides.keeps.poolId (.verdict hdispute hasset hacc guards decides)
    | _ => exact .refl hr _
  | framework c => cases World.frameworkCall_eq_ok.mp h <;> exact .refl hr _

/-- Every call leaves a dispute alone or hears it. -/
theorem call_hearing (hf : w.Fresh) {c : Call} (h : w.call sender c = .ok w') :
    w.disputes.Keeps (fun x x' => x.Hearing w sender c x') w'.disputes := by
  -- only the calls of the dispute module file a dispute
  have hr : ∀ x : Dispute, x.Hearing w sender c x := fun _ => .keep
  cases c with
  | protocol c =>
    obtain ⟨-, _, _, -, rfl⟩ := World.protocolCall_eq_ok.mp h
    exact .refl hr _
  | validator c => cases World.validatorCall_eq_ok.mp h <;> exact .refl hr _
  | asset c => cases World.assetCall_eq_ok.mp h <;> exact .refl hr _
  | accumulator c => cases World.accumulatorCall_eq_ok.mp h <;> exact .refl hr _
  | dispute c =>
    cases World.disputeCall_eq_ok.mp h with
    | initializeDispute =>
      exact .fresh hr _ (hf.disputes.get?_eq_none (Nat.lt_irrefl w.nextId))
    | voteOnDispute hdispute hpool _ _ guards =>
      obtain rfl := Store.key_of_get? hdispute
      exact .replace hr _ hdispute rfl (.vote hpool guards)
    | resolveDispute hdispute hpool hasset hacc guards decides =>
      obtain rfl := Store.key_of_get? hdispute
      exact .replace hr _ hdispute decides.keeps.disputeId
        (.verdict hpool hasset hacc guards decides)
    | claimJurorReward hdispute _ _ _ rejected =>
      obtain rfl := Store.key_of_get? hdispute
      exact .replace hr _ hdispute rfl (.reward rejected)
  | framework c => cases World.frameworkCall_eq_ok.mp h <;> exact .refl hr _

/-- An accumulator is old, or a finalization created it. -/
theorem call_older {c : Call} (h : w.call sender c = .ok w') {g : ID}
    {acc' : GlobalYieldAccumulator}
    (hacc' : w'.accumulators.get? g = some acc') : (w.accumulators.get? g).isSome ∨
      ∃ a asset cap, w.assets.get? a = some asset ∧ asset.state = .funding ∧
        acc' = asset.newAccumulator cap g := by
  -- every accumulator is replaced under its own ID; only `finalize` creates one
  have hold : ∀ {x : GlobalYieldAccumulator}, w.accumulators.get? g = some x →
      (w.accumulators.get? g).isSome := by
    intro x hx
    rw [hx, Option.isSome_some]
  cases c with
  | protocol c =>
    obtain ⟨-, _, _, -, rfl⟩ := World.protocolCall_eq_ok.mp h
    exact Or.inl (hold hacc')
  | validator c => cases World.validatorCall_eq_ok.mp h <;> exact Or.inl (hold hacc')
  | asset c =>
    cases World.assetCall_eq_ok.mp h with
    | @finalizeSuccessfulRaise a _ asset cap _ _ hasset _ _ _ guards =>
      simp only [Store.get?_put] at hacc'
      split at hacc'
      -- the new ID is that of the accumulator just created
      · next hg =>
        obtain rfl : w.nextId = g := hg
        exact Or.inr ⟨a, asset, cap, hasset, guards.state, (Option.some.inj hacc').symm⟩
      · exact Or.inl (hold hacc')
    | flagDefault _ hacc => exact Or.inl (Store.isSome_of_replace hacc hacc' rfl)
    | depositRevenue _ hacc _ _ deposited =>
      exact Or.inl (Store.isSome_of_replace hacc hacc' deposited.routed.frame.id)
    | closeAtReturnTarget _ hacc => exact Or.inl (Store.isSome_of_replace hacc hacc' rfl)
    | closeAfterCompensation _ hacc => exact Or.inl (Store.isSome_of_replace hacc hacc' rfl)
    | closeWindDown _ hacc => exact Or.inl (Store.isSome_of_replace hacc hacc' rfl)
    | _ => exact Or.inl (hold hacc')
  | accumulator c =>
    cases World.accumulatorCall_eq_ok.mp h with
    | sweepCompensation hacc _ _ route =>
      exact Or.inl (Store.isSome_of_replace hacc hacc' route.frame.id)
    | unwrapCoins hacc _ _ _ _ sweep =>
      exact Or.inl (Store.isSome_of_replace hacc hacc' sweep.frame.id)
    | splitShare => exact Or.inl (hold hacc')
    | adminSweepDust _ hacc => exact Or.inl (Store.isSome_of_replace hacc hacc' rfl)
    | _ hacc => exact Or.inl (Store.isSome_of_replace hacc hacc' rfl)
  | dispute c =>
    cases World.disputeCall_eq_ok.mp h with
    | resolveDispute _ _ _ hacc _ decides =>
      exact Or.inl (Store.isSome_of_replace hacc hacc' decides.keeps.accId)
    | _ => exact Or.inl (hold hacc')
  | framework c => cases World.frameworkCall_eq_ok.mp h <;> exact Or.inl (hold hacc')

/-- An accumulator was there and was touched, or a finalization created it. -/
theorem call_accumulators (hf : w.Fresh) {c : Call} (h : w.call sender c = .ok w') {g : ID}
    {acc' : GlobalYieldAccumulator} (hacc' : w'.accumulators.get? g = some acc') :
    (∃ acc, w.accumulators.get? g = some acc ∧ acc.Touch w sender c acc') ∨
      ∃ a asset cap, w.assets.get? a = some asset ∧ asset.state = .funding ∧
        acc' = asset.newAccumulator cap g := by
  refine (call_older h hacc').imp_left fun hsome => ?_
  obtain ⟨acc, hacc⟩ := Option.isSome_iff_exists.mp hsome
  obtain ⟨x, hx, htouch⟩ := call_touchAcc hf h g acc hacc
  obtain rfl := Option.some.inj (hx.symm.trans hacc')
  exact ⟨acc, hacc, htouch⟩

/-- A dispute was there and was heard, or it was just opened. -/
theorem call_disputes (hf : w.Fresh) {c : Call} (h : w.call sender c = .ok w') {d : ID}
    {dispute' : Dispute} (hdispute' : w'.disputes.get? d = some dispute') :
    (∃ dispute, w.disputes.get? d = some dispute ∧ dispute.Hearing w sender c dispute') ∨
      d = w.nextId ∧ ∃ a p g bond evidence reason,
        c = .dispute (.initializeDispute a p g bond evidence reason) := by
  -- it is enough to tell old disputes from new ones; what happens to old ones is known
  suffices hold : (w.disputes.get? d).isSome ∨ d = w.nextId ∧ ∃ a p g bond evidence reason,
      c = .dispute (.initializeDispute a p g bond evidence reason) by
    refine hold.imp_left fun hsome => ?_
    obtain ⟨dispute, hdispute⟩ := Option.isSome_iff_exists.mp hsome
    obtain ⟨x, hx, hhear⟩ := call_hearing hf h d dispute hdispute
    obtain rfl := Option.some.inj (hx.symm.trans hdispute')
    exact ⟨dispute, hdispute, hhear⟩
  have hold : ∀ {x : Dispute}, w.disputes.get? d = some x → (w.disputes.get? d).isSome := by
    intro x hx
    rw [hx, Option.isSome_some]
  cases c with
  | protocol c =>
    obtain ⟨-, _, _, -, rfl⟩ := World.protocolCall_eq_ok.mp h
    exact Or.inl (hold hdispute')
  | validator c => cases World.validatorCall_eq_ok.mp h <;> exact Or.inl (hold hdispute')
  | asset c => cases World.assetCall_eq_ok.mp h <;> exact Or.inl (hold hdispute')
  | accumulator c => cases World.accumulatorCall_eq_ok.mp h <;> exact Or.inl (hold hdispute')
  | dispute c =>
    cases World.disputeCall_eq_ok.mp h with
    | initializeDispute =>
      simp only [Store.get?_put] at hdispute'
      split at hdispute'
      · next hd => exact Or.inr ⟨(show w.nextId = d from hd).symm, _, _, _, _, _, _, rfl⟩
      · exact Or.inl (hold hdispute')
    | voteOnDispute hdispute => exact Or.inl (Store.isSome_of_replace hdispute hdispute' rfl)
    | resolveDispute hdispute _ _ _ _ decides =>
      exact Or.inl (Store.isSome_of_replace hdispute hdispute' decides.keeps.disputeId)
    | claimJurorReward hdispute => exact Or.inl (Store.isSome_of_replace hdispute hdispute' rfl)
  | framework c => cases World.frameworkCall_eq_ok.mp h <;> exact Or.inl (hold hdispute')

/-- A call registers a new pool, or it adds neither a pool nor a `ValidatorCap`. -/
theorem call_registered {c : Call} (h : w.call sender c = .ok w') :
    (∃ (stake : U64) (name : Bytes), c = .validator (.registerValidator stake name) ∧
      w'.pools = w.pools.put (.registered w.nextId sender name stake.val w.clockMs) ∧
      w'.validatorCaps = w.validatorCaps.put ⟨w.nextId + 1, w.nextId⟩) ∨
    w'.validatorCaps = w.validatorCaps ∧
      ∀ p x, w'.pools.get? p = some x → (w.pools.get? p).isSome := by
  -- only a registration files a pool under a new ID
  have hold : ∀ p x, w.pools.get? p = some x → (w.pools.get? p).isSome := by
    intro p x hx
    rw [hx, Option.isSome_some]
  cases c with
  | protocol c =>
    obtain ⟨-, _, _, -, rfl⟩ := World.protocolCall_eq_ok.mp h
    exact Or.inr ⟨rfl, hold⟩
  | validator c =>
    cases World.validatorCall_eq_ok.mp h with
    | registerValidator => exact Or.inl ⟨_, _, rfl, rfl, rfl⟩
    | addStake hpool => exact Or.inr ⟨rfl, fun _ _ hx => Store.isSome_of_replace hpool hx rfl⟩
    | withdrawStake hpool =>
      exact Or.inr ⟨rfl, fun _ _ hx => Store.isSome_of_replace hpool hx rfl⟩
  | asset c =>
    cases World.assetCall_eq_ok.mp h with
    | vouchAssetLegals _ hpool =>
      exact Or.inr ⟨rfl, fun _ _ hx => Store.isSome_of_replace hpool hx rfl⟩
    | abortFailedRaise _ hpool =>
      exact Or.inr ⟨rfl, fun _ _ hx => Store.isSome_of_replace hpool hx rfl⟩
    | releaseVouchCoverage _ hpool =>
      exact Or.inr ⟨rfl, fun _ _ hx => Store.isSome_of_replace hpool hx rfl⟩
    | _ => exact Or.inr ⟨rfl, hold⟩
  | accumulator c => cases World.accumulatorCall_eq_ok.mp h <;> exact Or.inr ⟨rfl, hold⟩
  | dispute c =>
    cases World.disputeCall_eq_ok.mp h with
    | initializeDispute _ hpool =>
      exact Or.inr ⟨rfl, fun _ _ hx => Store.isSome_of_replace hpool hx rfl⟩
    | resolveDispute _ hpool _ _ _ decides =>
      exact Or.inr ⟨rfl, fun _ _ hx => Store.isSome_of_replace hpool hx decides.keeps.poolId⟩
    | _ => exact Or.inr ⟨rfl, hold⟩
  | framework c => cases World.frameworkCall_eq_ok.mp h <;> exact Or.inr ⟨rfl, hold⟩

/-- A pool was there and was touched, or it was just registered. -/
theorem call_origin (hf : w.Fresh) {c : Call} (h : w.call sender c = .ok w') {p : ID}
    {pool' : ValidatorPool} (hpool' : w'.pools.get? p = some pool') :
    (∃ pool, w.pools.get? p = some pool ∧ pool.Touch w sender c pool') ∨
      p = w.nextId ∧ ∃ (stake : U64) (name : Bytes),
        c = .validator (.registerValidator stake name) ∧
        pool' = .registered w.nextId sender name stake.val w.clockMs := by
  -- a pool that was there is touched, and only a registration adds one
  have hold : (w.pools.get? p).isSome →
      ∃ pool, w.pools.get? p = some pool ∧ pool.Touch w sender c pool' := by
    intro hsome
    obtain ⟨pool, hpool⟩ := Option.isSome_iff_exists.mp hsome
    obtain ⟨x, hx, htouch⟩ := call_touchPool hf h p pool hpool
    obtain rfl := Option.some.inj (hx.symm.trans hpool')
    exact ⟨pool, hpool, htouch⟩
  rcases call_registered h with ⟨stake, name, rfl, hpools, -⟩ | ⟨-, holds⟩
  · rw [hpools, Store.get?_put] at hpool'
    split at hpool'
    · next hp => exact Or.inr ⟨hp.symm, stake, name, rfl, (Option.some.inj hpool').symm⟩
    · exact Or.inl (hold (by rw [hpool', Option.isSome_some]))
  · exact Or.inl (hold (holds p pool' hpool'))

end World

/-! ## The index -/

/-- Routing does not lower the index. -/
theorem Routed.index_le {acc acc' : GlobalYieldAccumulator} {funds : ℕ}
    (h : Routed acc funds acc') :
    acc.cumulativeYieldIndex ≤ acc'.cumulativeYieldIndex := by
  rcases h with ⟨-, -, rfl⟩ | ⟨-, -, rfl⟩
  · exact Nat.le_refl _
  · exact Nat.le_add_right _ _

/-- The sweep after an unwrap does not lower the index. -/
theorem AutoSwept.index_le {acc acc' : GlobalYieldAccumulator} {events : List Event}
    (h : AutoSwept acc acc' events) : acc.cumulativeYieldIndex ≤ acc'.cumulativeYieldIndex := by
  rcases h with ⟨-, h⟩ | ⟨-, rfl, -⟩
  · obtain ⟨-, rfl, -⟩ := sweepRolloverInternal_eq_ok.mp h
    exact Nat.le_add_right _ _
  · exact Nat.le_refl _

/-- The index only grows. -/
theorem GlobalYieldAccumulator.Touch.index_le {w : World} {sender : Address} {c : Call}
    {x x' : GlobalYieldAccumulator} (h : x.Touch w sender c x') :
    x.cumulativeYieldIndex ≤ x'.cumulativeYieldIndex := by
  cases h with
  | unwrap _ _ _ sweep => exact sweep.index_le
  | sweepRollover => exact Nat.le_add_right _ _
  | sweepCompensation _ _ route => exact route.index_le
  | deposit _ _ deposited => exact deposited.routed.index_le
  | _ => exact Nat.le_refl _

end Gally

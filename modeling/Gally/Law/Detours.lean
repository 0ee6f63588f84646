import Gally.Chain.Treasury
import Gally.Law.Exits
import Gally.Law.Ownership
import Gally.Law.Rollover

/-!
# Detours

Wrapping a deed and unwrapping the coins, or splitting a deed and merging the parts, leads back to
where a plain claim leads: to the same pools and the same deed, less a unit of rounding at most.

## Key results

- `wrap_unwrap_claims`: a wrapped deed can be unwrapped, and then it was only claimed on
- `split_merge_claims`: so with the parts of a split deed
- `usdc_conserved`: and no run creates or loses USDC on the way
-/

namespace Gally

open Checked

/-! ## No deed is empty -/

/-- Deeds and receipts stand for at least one unit. -/
structure World.Substantial (w : World) : Prop where
  shares : ∀ share ∈ w.shares, 0 < share.shareCount
  receipts : ∀ receipt ∈ w.receipts, 0 < receipt.amount

/-- One call keeps the deeds and receipts substantial. -/
theorem World.Substantial.call {w w' : World} {sender : Address} {c : Call} (hs : w.Substantial)
    (h : w.call sender c = .ok w') : w'.Substantial := by
  have hget : ∀ {s share}, w.shares.get? s = some share → 0 < share.shareCount :=
    fun hshare => hs.shares _ (Store.mem_of_get? hshare)
  -- every deed that is put down has units: a split asks for both parts, an unwrap for a coin of
  -- value
  cases c with
  | protocol c =>
    obtain ⟨-, _, _, -, rfl⟩ := World.protocolCall_eq_ok.mp h
    exact { hs with }
  | validator c => cases World.validatorCall_eq_ok.mp h <;> exact { hs with }
  | asset c =>
    cases World.assetCall_eq_ok.mp h with
    | contributeCapital _ _ guards =>
      have hleft := Nat.sub_pos_of_lt guards.unmet
      exact { hs with
        receipts := Store.forall_put (Nat.lt_min.mpr ⟨guards.positive, hleft⟩) hs.receipts }
    | refundContribution => exact { hs with receipts := Store.forall_delete hs.receipts }
    | claimShares _ _ _ hreceipt =>
      exact { hs with
        shares := Store.forall_put (hs.receipts _ (Store.mem_of_get? hreceipt)) hs.shares
        receipts := Store.forall_delete hs.receipts }
    | _ => exact { hs with }
  | accumulator c =>
    cases World.accumulatorCall_eq_ok.mp h with
    | claimRewards _ _ hshare =>
      have hcount := hget hshare
      exact { hs with shares := Store.forall_put hcount hs.shares }
    | wrapShares => exact { hs with shares := Store.forall_delete hs.shares }
    | unwrapCoins _ _ _ _ guards =>
      exact { hs with shares := Store.forall_put guards.positive hs.shares }
    | mergeShares _ _ htarget =>
      exact { hs with
        shares := Store.forall_put (Nat.add_pos_left (hget htarget) _)
          (Store.forall_delete hs.shares) }
    | redeemShare => exact { hs with shares := Store.forall_delete hs.shares }
    | splitShare _ _ positive less =>
      exact { hs with
        shares := Store.forall_put positive
          (Store.forall_put (Nat.sub_pos_of_lt less) hs.shares) }
    | _ => exact { hs with }
  | dispute c => cases World.disputeCall_eq_ok.mp h <;> exact { hs with }
  | framework c => cases World.frameworkCall_eq_ok.mp h <;> exact { hs with }

/-- In every reachable world no deed and no receipt is empty. -/
theorem Reachable.substantial {w : World} (hw : Reachable w) : w.Substantial := by
  refine hw.induct ?_ (fun _ hs h => hs.call h) fun _ hs _ => { hs with }
  intro admin
  exact ⟨fun _ hmem => absurd hmem (Store.not_mem_empty _),
    fun _ hmem => absurd hmem (Store.not_mem_empty _)⟩

/-! ## Wrap and unwrap -/

section

variable {w u v : World} {sender : Address} {g s : ID}

/-- While a deed earns, nothing waits in the rollover reserve. -/
theorem Reachable.reserve_eq_zero (hw : Reachable w) {acc : GlobalYieldAccumulator}
    (hacc : w.accumulators.get? g = some acc) {share : GallyShare}
    (hshare : w.shares.get? s = some share) (hasset : share.assetId = acc.assetId) :
    acc.rolloverReserve = 0 := by
  have hpos := hw.substantial.shares share (Store.mem_of_get? hshare)
  have hle : share.shareCount ≤ (w.engine acc).deedUnits :=
    Store.le_sum (World.mem_shares hshare hasset) GallyShare.shareCount
  have hunwrapped := (hw.replay hacc).sound.1.deedUnits_le
  by_contra hne
  have hzero : acc.unwrapped = 0 := hw.idle hacc (Nat.pos_of_ne_zero hne)
  have hearn : (w.engine acc).acc.unwrapped = acc.unwrapped := rfl
  omega

/-- The accumulator after a deed was wrapped and its coins were burned again. -/
theorem GlobalYieldAccumulator.afterWrap_afterBurn (acc : GlobalYieldAccumulator)
    (share : GallyShare) :
    (acc.afterWrap share).afterBurn share.shareCount = acc.afterClaim share := by
  simp [afterWrap, afterBurn, afterClaim]

/-- The world after `share` was wrapped. -/
structure World.Wrapped (w u : World) (sender : Address) (g s : ID) (acc : GlobalYieldAccumulator)
    (share : GallyShare) : Prop where
  hacc : w.accumulators.get? g = some acc
  own : w.owner .share s = sender
  hshare : w.shares.get? s = some share
  guards : WrapGuards acc w.config share w.clockMs
  after : ∃ events, u = { w with
    nextId := w.nextId + 1
    accumulators := w.accumulators.put (acc.afterWrap share)
    shares := w.shares.delete s
    coins := w.coins.put ⟨w.nextId, acc.treasuryCap.token, share.shareCount⟩
    owner := w.give .coin w.nextId sender
    wallets := w.wallets.credit sender (acc.payout share)
    events }

/-- What is known of a wrap that succeeded. -/
theorem World.wrapped (h : w.call sender (.accumulator (.wrapShares g s)) = .ok u) :
    ∃ acc share, w.Wrapped u sender g s acc share := by
  have hstep : AccumulatorStep w sender (.wrapShares g s) u := World.accumulatorCall_eq_ok.mp h
  cases hstep with
  | wrapShares hacc own hshare guards => exact ⟨_, _, hacc, own, hshare, guards, _, rfl⟩

/-- What is wrapped can be unwrapped at once, and the chain is then as after a claim, but for the
    ID of the deed and a new cooldown. No object but the coin and the new deed has an owner it did
    not have. -/
theorem wrap_unwrap_claims (hw : Reachable w)
    (hwrap : w.call sender (.accumulator (.wrapShares g s)) = .ok u) :
    ∃ c v share, w.call sender (.accumulator (.claimRewards g s)) = .ok c ∧
      u.call sender (.accumulator (.unwrapCoins g w.nextId)) = .ok v ∧
      c.shares.get? s = some share ∧ v.owner .share (w.nextId + 1) = sender ∧
      (∀ kind k, ¬ (kind = .coin ∧ k = w.nextId) → ¬ (kind = .share ∧ k = w.nextId + 1) →
        v.owner kind k = c.owner kind k) ∧
      v = { c with
        nextId := w.nextId + 2
        shares := (c.shares.delete s).put
          { share with id := w.nextId + 1, acquiredAtMs := w.clockMs }
        owner := v.owner
        events := v.events } := by
  obtain ⟨acc, share, hacc, own, hshare, guards, events, hu⟩ := World.wrapped hwrap
  have hkey : Keyed.key share = s := Store.key_of_get? hshare
  have hassetId := guards.claim.asset
  have hclaim := AccumulatorStep.claimRewards hacc own hshare guards.claim
    (claimRewards_eq_ok.mpr ⟨guards.claim, rfl⟩)
  -- what the unwrap finds: the coin and the wrapped accumulator
  let coin : TokenCoin := ⟨w.nextId, acc.treasuryCap.token, share.shareCount⟩
  have hcoin : u.coins.get? w.nextId = some coin := by
    rw [hu]
    exact Store.get?_put_self w.coins coin
  have hown : u.owner .coin w.nextId = sender := by
    rw [hu]
    exact if_pos ⟨rfl, rfl⟩
  have hwrapped : u.accumulators.get? g = some (acc.afterWrap share) := by
    rw [hu, ← Store.key_of_get? hacc]
    exact Store.get?_put_self w.accumulators (acc.afterWrap share)
  have hunwrap : UnwrapGuards (acc.afterWrap share) coin := {
    positive := hw.substantial.shares share (Store.mem_of_get? hshare)
    supply := Nat.le_add_left _ _
    wrapped := Nat.le_add_left _ _
    minted := by
      have hle : acc.totalWrappedShares ≤ acc.totalMintedShares :=
        (hw.replay hacc).sound.1.supply
      exact (Nat.add_sub_cancel acc.totalWrappedShares share.shareCount).symm ▸ hle }
  have hsweep : AutoSwept ((acc.afterWrap share).afterBurn coin.value) (acc.afterClaim share)
      [] := by
    have hreserve := hw.reserve_eq_zero hacc hshare hassetId
    rw [acc.afterWrap_afterBurn share]
    exact Or.inr ⟨fun h => Nat.ne_of_gt h.1 hreserve, rfl, rfl⟩
  have hstep := AccumulatorStep.unwrapCoins hwrapped hown hcoin rfl hunwrap hsweep
    (unwrapCoins_eq_ok.mpr ⟨hunwrap, rfl, _, hsweep, rfl⟩)
  refine ⟨_, _, share.settledAt acc.cumulativeYieldIndex, World.accumulatorCall_eq_ok.mpr hclaim,
    World.accumulatorCall_eq_ok.mpr hstep, ?_, ?_, ?_, ?_⟩
  · rw [← hkey]
    exact Store.get?_put_self w.shares (share.settledAt acc.cumulativeYieldIndex)
  · rw [hu]
    exact if_pos ⟨rfl, rfl⟩
  · -- the coin was given first, then the deed
    intro kind k hnotcoin hnotdeed
    rw [hu]
    exact (if_neg hnotdeed).trans (if_neg hnotcoin)
  · subst hu
    have haccs : (w.accumulators.put (acc.afterWrap share)).put (acc.afterClaim share) =
        w.accumulators.put (acc.afterClaim share) := Store.put_put_self rfl
    have hcoins : (w.coins.put coin).delete w.nextId = w.coins :=
      Store.delete_put_fresh (x := coin) (hw.fresh.coins.get?_eq_none (Nat.lt_irrefl _))
    have hshares : (w.shares.put (share.settledAt acc.cumulativeYieldIndex)).delete s =
        w.shares.delete s := by
      rw [← hkey]
      exact Store.delete_put_self w.shares (share.settledAt acc.cumulativeYieldIndex)
    have hfresh : (acc.afterWrap share).freshShare (w.nextId + 1) coin.value w.clockMs =
        { share.settledAt acc.cumulativeYieldIndex with
          id := w.nextId + 1, acquiredAtMs := w.clockMs } := by
      rw [GlobalYieldAccumulator.freshShare, GallyShare.mk.injEq]
      exact ⟨rfl, hassetId.symm, rfl, rfl, rfl⟩
    congr 1
    exact congrArg₂ Store.put hshares.symm hfresh

end

namespace Sample

/-- The deed of the investor earned and can be wrapped. -/
def rested : List Action := holding ++ revenue ++ [.tick 1000000000]

end Sample

/-- Wrapped and unwrapped, deed 9 is deed 11 and 49 units are claimed. -/
theorem wrap_unwrap_claims_rested : ∃ w u c v share,
    (World.genesis 0).run Sample.rested = .ok w ∧ w.nextId = 10 ∧
    w.call 3 (.accumulator (.wrapShares 8 9)) = .ok u ∧
    w.call 3 (.accumulator (.claimRewards 8 9)) = .ok c ∧
    u.call 3 (.accumulator (.unwrapCoins 8 w.nextId)) = .ok v ∧
    c.wallets.balance 3 = w.wallets.balance 3 + 49 ∧ c.shares.get? 9 = some share ∧
    v = { c with
      nextId := w.nextId + 2
      shares := (c.shares.delete 9).put
        { share with id := w.nextId + 1, acquiredAtMs := w.clockMs }
      owner := v.owner
      events := v.events } := by
  have hrun : returns ((World.genesis 0).run Sample.rested) (fun w => w.nextId = 10 ∧
      returns (w.call 3 (.accumulator (.wrapShares 8 9))) (fun _ => true) = true ∧
      returns (w.call 3 (.accumulator (.claimRewards 8 9))) (fun c =>
        c.wallets.balance 3 = w.wallets.balance 3 + 49) = true) = true := by
    decide +kernel
  obtain ⟨w, hw, hq⟩ := returns_iff.mp hrun
  obtain ⟨hid, hwrap, hclaim⟩ := of_decide_eq_true hq
  obtain ⟨u, hu, -⟩ := returns_iff.mp hwrap
  obtain ⟨c, hc, hpaid⟩ := returns_iff.mp hclaim
  obtain ⟨c', v, share, hc', hv, hshare, -, -, heq⟩ := wrap_unwrap_claims ⟨0, _, hw⟩ hu
  -- the claim of the theorem is the one of the run
  obtain rfl := Except.ok.inj (hc.symm.trans hc')
  exact ⟨w, u, c, v, share, hw, hid, hu, hc, hv, of_decide_eq_true hpaid, hshare, heq⟩

/-! ## Split and merge -/

section

variable {w u v : World} {sender : Address} {g s : ID}

/-- The payouts of two parts of a deed add up to that of the whole, less one unit at most. -/
theorem GlobalYieldAccumulator.payout_parts (acc : GlobalYieldAccumulator)
    {share parent child : GallyShare}
    (hcount : parent.shareCount + child.shareCount = share.shareCount)
    (hparent : parent.yieldClaimedIndex = share.yieldClaimedIndex)
    (hchild : child.yieldClaimedIndex = share.yieldClaimedIndex) :
    acc.payout parent + acc.payout child ≤ acc.payout share ∧
      acc.payout share ≤ acc.payout parent + acc.payout child + 1 := by
  have hwhole : acc.entitlement share = acc.entitlement parent + acc.entitlement child := by
    unfold entitlement
    rw [hparent, hchild, ← hcount, Nat.mul_add]
  unfold payout
  rw [hwhole, Nat.add_div scale_pos]
  split <;> omega

/-- The parts of a split deed, merged again, are the settled deed. -/
theorem Reachable.merged_parts (hw : Reachable w) {share : GallyShare}
    (hshare : w.shares.get? share.id = some share) {amount index : ℕ}
    (less : amount < share.shareCount) :
    (((w.shares.put { share with shareCount := share.shareCount - amount }).put
      { share with id := w.nextId, shareCount := amount }).delete w.nextId).put
      (GallyShare.mergedWith { share with shareCount := share.shareCount - amount }
        { share with id := w.nextId, shareCount := amount } index) =
      w.shares.put (share.settledAt index) := by
  let parent := { share with shareCount := share.shareCount - amount }
  let child := { share with id := w.nextId, shareCount := amount }
  -- the parent gets all its units back
  have hmerged : parent.mergedWith child index = share.settledAt index := by
    rw [GallyShare.mergedWith, GallyShare.settledAt, GallyShare.mk.injEq]
    exact ⟨rfl, rfl, Nat.sub_add_cancel (Nat.le_of_lt less), rfl, Nat.max_self _⟩
  have hnew : (w.shares.put parent).get? w.nextId = none := by
    have hbelow := hw.fresh.shares.replace (x := parent) hshare rfl
    exact hbelow.get?_eq_none (Nat.lt_irrefl _)
  have hdelete : ((w.shares.put parent).put child).delete w.nextId = w.shares.put parent :=
    Store.delete_put_fresh (x := child) hnew
  calc _ = (w.shares.put parent).put (share.settledAt index) :=
        congrArg₂ Store.put hdelete hmerged
    _ = w.shares.put (share.settledAt index) := Store.put_put_self rfl

/-- Merging the parts of a split deed brings it back as a claim leaves it. The claim pays the two
    parts on their own, so it pays one unit less at most, and that unit stays in the pool. The
    events apart, nothing else changes; only the ID of the part, which no object has any more, has
    an owner it did not have. -/
theorem split_merge_claims (hw : Reachable w) {amount : U64}
    (hsplit : w.call sender (.accumulator (.splitShare s amount)) = .ok u)
    (hmerge : u.call sender (.accumulator (.mergeShares g s w.nextId)) = .ok v) :
    ∃ acc share paid dust, w.accumulators.get? g = some acc ∧ w.shares.get? s = some share ∧
      paid ≤ acc.payout share ∧ acc.payout share ≤ paid + 1 ∧
      acc.dustBound ≤ dust ∧ dust ≤ acc.dustBound + 2 ∧ v.shares.get? w.nextId = none ∧
      (∀ kind k, ¬ (kind = .share ∧ k = w.nextId) → v.owner kind k = w.owner kind k) ∧
      v = { w with
        nextId := w.nextId + 1
        accumulators := w.accumulators.put
          { acc with dustBound := dust, rewardPool := acc.rewardPool - paid }
        shares := w.shares.put (share.settledAt acc.cumulativeYieldIndex)
        wallets := w.wallets.credit sender paid
        owner := v.owner
        events := v.events } := by
  have hstep : AccumulatorStep w sender (.splitShare s amount) u :=
    World.accumulatorCall_eq_ok.mp hsplit
  cases hstep with
  | @splitShare _ _ share own hshare positive less =>
    let parent := { share with shareCount := share.shareCount - amount.val }
    let child := { share with id := w.nextId, shareCount := amount.val }
    have hkey : share.id = s := Store.key_of_get? hshare
    have hlt : s < w.nextId := hw.fresh.shares.get?_lt hshare
    have hstep' : AccumulatorStep _ sender (.mergeShares g s w.nextId) v :=
      World.accumulatorCall_eq_ok.mp hmerge
    cases hstep' with
    | @mergeShares _ _ _ acc target victim _ hacc _ htarget _ hvictim =>
      -- the two parts of the merge are those of the split, as the ids say
      have hchild : victim = child := by
        have hget := Store.get?_put_self (w.shares.put parent) child
        exact Option.some.inj (hvictim.symm.trans hget)
      have hparent : target = parent := by
        have hget : ((w.shares.put parent).put child).get? s = some parent := by
          rw [Store.get?_put_ne (show Keyed.key child ≠ s from Nat.ne_of_gt hlt), ← hkey]
          exact Store.get?_put_self w.shares parent
        exact Option.some.inj (htarget.symm.trans hget)
      have hcount : parent.shareCount + child.shareCount = share.shareCount :=
        Nat.sub_add_cancel (Nat.le_of_lt less)
      -- two floors lose one unit at most
      obtain ⟨hle, hge⟩ := acc.payout_parts hcount rfl rfl
      have hshares : (((w.shares.put parent).put child).delete w.nextId).put
          (parent.mergedWith child acc.cumulativeYieldIndex) =
          w.shares.put (share.settledAt acc.cumulativeYieldIndex) :=
        hw.merged_parts (hkey ▸ hshare) less
      -- each of the two claims adds at most one to the dust bound
      have hdust := acc.claimDust_le parent
      have hdust' := acc.claimDust_le child
      refine ⟨acc, share, acc.payout parent + acc.payout child,
        acc.dustBound + acc.claimDust parent + acc.claimDust child, hacc, hshare, hle, hge,
        by omega, by omega, ?_, ?_, ?_⟩
      · have hbelow := hw.fresh.shares.replace (x := share.settledAt acc.cumulativeYieldIndex)
          hshare rfl
        subst hparent hchild
        show ((((w.shares.put parent).put child).delete w.nextId).put
          (parent.mergedWith child acc.cumulativeYieldIndex)).get? w.nextId = none
        rw [hshares]
        exact hbelow.get?_eq_none (Nat.lt_irrefl _)
      · intro kind k hnotpart
        exact if_neg hnotpart
      have hacc' : (acc.afterClaim parent).afterClaim child = { acc with
          dustBound := acc.dustBound + acc.claimDust parent + acc.claimDust child
          rewardPool := acc.rewardPool - (acc.payout parent + acc.payout child) } := by
        rw [← Nat.sub_sub]
        rfl
      subst hparent hchild
      congr 1
      exact congrArg w.accumulators.put hacc'

end

/-- Deed 9 is split and merged again. -/
theorem split_merge_claims_rested : ∃ w u v share paid,
    (World.genesis 0).run Sample.rested = .ok w ∧
    w.call 3 (.accumulator (.splitShare 9 333333)) = .ok u ∧
    u.call 3 (.accumulator (.mergeShares 8 9 10)) = .ok v ∧
    w.shares.get? 9 = some share ∧ v.wallets = w.wallets.credit 3 paid ∧
    v.shares = w.shares.put (share.settledAt 49000) := by
  have hrun : returns ((World.genesis 0).run Sample.rested) (fun w => w.nextId = 10 ∧
      ((w.accumulators.get? 8).any fun acc => acc.cumulativeYieldIndex = 49000) ∧
      returns (w.call 3 (.accumulator (.splitShare 9 333333))) (fun u =>
        returns (u.call 3 (.accumulator (.mergeShares 8 9 10))) fun _ => true) = true) = true := by
    decide +kernel
  obtain ⟨w, hw, hq⟩ := returns_iff.mp hrun
  obtain ⟨hid, hindex, hsplit⟩ := of_decide_eq_true hq
  obtain ⟨acc, hacc, hacc'⟩ := (Option.any_eq_true _ _).mp hindex
  obtain ⟨u, hu, hmerge⟩ := returns_iff.mp hsplit
  obtain ⟨v, hv, -⟩ := returns_iff.mp hmerge
  obtain ⟨acc', share, paid, dust, hget, hshare, -, -, -, -, -, -, heq⟩ :=
    split_merge_claims ⟨0, _, hw⟩ hu (hid.symm ▸ hv)
  -- the accumulator of the theorem is the one of the run
  obtain rfl := Option.some.inj (hacc.symm.trans hget)
  refine ⟨w, u, v, share, paid, hw, hu, hv, hshare, ?_, ?_⟩
  · rw [heq]
  · rw [heq, of_decide_eq_true hacc']

/-! ## The issuer -/

/-- What a call mints. -/
def Call.issued : Call → ℕ
  | .framework (.mintUsdc _ value) => value.val
  | _ => 0

/-- What a call burns. -/
def Call.burned : Call → ℕ
  | .framework (.burnUsdc value) => value.val
  | _ => 0

/-- The total over the calls of an action. -/
def Action.total (f : Call → ℕ) : Action → ℕ
  | .transaction _ calls => (calls.map f).sum
  | .tick _ => 0

/-- A call changes the supply by what it issues and burns. -/
theorem World.call_supply {w w' : World} {sender : Address} {c : Call}
    (h : w.call sender c = .ok w') : w'.usdcSupply + c.burned = w.usdcSupply + c.issued := by
  cases c with
  | protocol c =>
    obtain ⟨-, _, _, -, rfl⟩ := World.protocolCall_eq_ok.mp h
    rfl
  | validator c => cases World.validatorCall_eq_ok.mp h <;> rfl
  | asset c => cases World.assetCall_eq_ok.mp h <;> rfl
  | accumulator c => cases World.accumulatorCall_eq_ok.mp h <;> rfl
  | dispute c => cases World.disputeCall_eq_ok.mp h <;> rfl
  | framework c =>
    cases World.frameworkCall_eq_ok.mp h with
    | burnUsdc _ supply => exact Nat.sub_add_cancel supply
    | _ => rfl

/-- The USDC on the chain is what the issuer minted and has not burned, wherever the calls of a run
    have moved it, and it fits in a `u64`. -/
theorem usdc_conserved {admin : Address} {actions : List Action} {w : World}
    (hrun : (World.genesis admin).run actions = .ok w) :
    w.usdc + (actions.map (Action.total Call.burned)).sum =
      (actions.map (Action.total Call.issued)).sum ∧ w.usdc ≤ maxU64 := by
  have hw : Reachable w := ⟨admin, actions, hrun⟩
  have hconserved : w.usdc = w.usdcSupply := hw.conserved
  -- an action adds up what its calls issue and burn
  have hstep : ∀ action ∈ actions, ∀ v v' : World, v.step action = .ok v' →
      v'.usdcSupply + action.total Call.burned = v.usdcSupply + action.total Call.issued := by
    intro action _ v v' hs
    cases action with
    | transaction sender calls => exact Run.exec_balance (fun _ _ _ _ h => World.call_supply h) hs
    | tick =>
      obtain ⟨-, rfl⟩ := guarded_eq_ok.mp hs
      rfl
  have hbalance := Run.exec_balance hstep hrun
  have hzero : (World.genesis admin).usdcSupply = 0 := rfl
  have hsupply := hw.supply_le
  exact ⟨by omega, by omega⟩

/-- The supply of the sample, spread over wallets, pools and escrows. -/
theorem usdc_conserved_rested : ∃ w, (World.genesis 0).run Sample.rested = .ok w ∧
    w.usdc + (Sample.rested.map (Action.total Call.burned)).sum =
      (Sample.rested.map (Action.total Call.issued)).sum ∧ w.usdc ≤ maxU64 := by
  have hrun : returns ((World.genesis 0).run Sample.rested) (fun _ => true) = true := by
    decide +kernel
  obtain ⟨w, hw, -⟩ := returns_iff.mp hrun
  exact ⟨w, hw, usdc_conserved hw⟩

end Gally

import Gally.Law.Closing
import Gally.Law.Dust

/-!
# Receipts and the end of an asset

A receipt is turned in for a refund where the raise failed, and for a deed once it was
finalized, except when the asset is CLOSED: nobody can turn in a receipt that is left then,
and its units stay minted for good. Without one, everything else can be turned in.

## Key results

- `receipts_redeemable`: both, for every receipt and every reachable CLOSED state
-/

namespace Gally

open Checked

/-! ## Turning in a receipt -/

/-- The holder of receipt `r` can turn it in: for a refund if the raise failed, else for a
    deed. -/
def World.TurnsIn (w : World) (r : ID) : Prop :=
  ∃ receipt asset, w.receipts.get? r = some receipt ∧
    w.assets.get? receipt.assetId = some asset ∧
    if asset.state = .failed then
      Succeeds (w.call (w.owner .soulbound r) (.asset (.refundContribution receipt.assetId r)))
    else ∃ g, asset.accumulatorId = some g ∧
      Succeeds (w.call (w.owner .soulbound r) (.asset (.claimShares receipt.assetId g r)))

/-- The states past the raise, other than CLOSED, are those `claim_shares` accepts. -/
theorem isPostFinalize_of_finalized {asset : Asset} (h : asset.state.isFinalized = true)
    (hclosed : asset.state ≠ .closed) : isPostFinalize asset = true := by
  rw [isPostFinalize_iff]
  cases hs : asset.state <;> simp_all [AssetState.isFinalized]

/-- Where the raise failed a receipt is refunded, and past the raise it is exchanged unless the
    asset is CLOSED. -/
theorem Reachable.turnsIn_iff {w : World} (hw : Reachable w) {r : ID}
    {receipt : ContributionReceipt} (hreceipt : w.receipts.get? r = some receipt) {asset : Asset}
    (hasset : w.assets.get? receipt.assetId = some asset)
    (hstate : asset.state = .failed ∨ asset.state.isFinalized = true) :
    w.TurnsIn r ↔ asset.state ≠ .closed := by
  have hbelongs : receipt.assetId = asset.id := (Store.key_of_get? hasset).symm
  constructor
  · intro ⟨receipt', asset', hreceipt', hasset', hredeems⟩ hclosed
    obtain rfl := Option.some.inj (hreceipt.symm.trans hreceipt')
    obtain rfl := Option.some.inj (hasset.symm.trans hasset')
    rw [if_neg (by simp [hclosed])] at hredeems
    obtain ⟨g, -, w', hcall⟩ := hredeems
    cases World.callAsset_eq_ok.mp hcall with
    | claimShares hx _ _ _ postFinalize =>
      obtain rfl := Option.some.inj (hasset.symm.trans hx)
      rw [isPostFinalize_iff, hclosed] at postFinalize
      simp at postFinalize
  · intro hopen
    refine ⟨receipt, asset, hreceipt, hasset, ?_⟩
    -- a failed raise refunds the principal, any other state past the raise gives the deed
    by_cases hfailed : asset.state = .failed
    · rw [if_pos hfailed]
      -- the escrow covers the receipt, so nothing aborts
      obtain ⟨⟨_, hraised⟩, _, hescrow⟩ :=
        (hw.custodied hasset).refund hfailed r receipt hreceipt hbelongs
      have guards : RefundGuards asset w.config receipt := {
        version := hw.withinCaps.version
        state := hfailed
        belongs := hbelongs
        raised := (sub_eq_ok.mp hraised).1
        escrow := (takeOut_eq_ok.mp hescrow).1 }
      have hstep : AssetStep w (w.owner .soulbound r) (.refundContribution receipt.assetId r) _ :=
        .refundContribution hasset rfl hreceipt guards
          (refundContribution_eq_ok.mpr ⟨guards, rfl⟩)
      exact ⟨_, World.callAsset_eq_ok.mpr hstep⟩
    · rw [if_neg hfailed]
      have hfinalized := hstate.resolve_left hfailed
      have hpost := isPostFinalize_of_finalized hfinalized hopen
      obtain ⟨g, acc, hg, hacc, hlinked⟩ := hw.accumulator_of_asset hasset hfinalized
      have hstep : AssetStep w (w.owner .soulbound r) (.claimShares receipt.assetId g r) _ :=
        .claimShares hasset hacc rfl hreceipt hpost hlinked hbelongs
          (claimShares_eq_ok.mpr ⟨hw.withinCaps.version, hpost, hlinked, hbelongs, rfl⟩)
      exact ⟨g, hg, _, World.callAsset_eq_ok.mpr hstep⟩

/-! ## Receipts of a CLOSED asset -/

/-- A receipt is kept by a call, unless its asset is in a state that lets it go. -/
theorem World.call_receipt {w w' : World} {sender : Address} (hf : w.Fresh) {c : Call}
    (h : w.call sender c = .ok w') {r : ID} {receipt : ContributionReceipt}
    (hreceipt : w.receipts.get? r = some receipt) : w'.receipts.get? r = some receipt ∨
      ∃ asset, w.assets.get? receipt.assetId = some asset ∧ asset.state ≠ .closed := by
  -- only these two calls consume receipts, and only of an asset that is not CLOSED
  have hdelete : ∀ {k : ID} {x : ContributionReceipt} {asset : Asset},
      w.receipts.get? k = some x → w.assets.get? x.assetId = some asset →
      asset.state ≠ .closed → (w.receipts.delete k).get? r = some receipt ∨
        ∃ asset, w.assets.get? receipt.assetId = some asset ∧ asset.state ≠ .closed := by
    intro k x asset hx hasset hopen
    by_cases hk : r = k
    · subst hk
      obtain rfl := Option.some.inj (hreceipt.symm.trans hx)
      exact Or.inr ⟨asset, hasset, hopen⟩
    · exact Or.inl ((Store.get?_delete_ne hk).trans hreceipt)
  cases c with
  | protocol c =>
    obtain ⟨-, _, _, -, rfl⟩ := World.protocolCall_eq_ok.mp h
    exact Or.inl hreceipt
  | validator c => cases World.validatorCall_eq_ok.mp h <;> exact Or.inl hreceipt
  | asset c =>
    cases World.assetCall_eq_ok.mp h with
    | contributeCapital =>
      have hne : w.nextId ≠ r := Nat.ne_of_gt (hf.receipts.get?_lt hreceipt)
      exact Or.inl ((Store.get?_put_ne hne).trans hreceipt)
    | @refundContribution a k asset x _ hasset _ hx guards =>
      have ha : x.assetId = a := guards.belongs.trans (Store.key_of_get? hasset)
      exact hdelete hx (ha ▸ hasset) (by simp [guards.state])
    | @claimShares a g k asset acc x _ hasset _ _ hx postFinalize _ belongs =>
      have ha : x.assetId = a := belongs.trans (Store.key_of_get? hasset)
      refine hdelete hx (ha ▸ hasset) fun hclosed => ?_
      rw [isPostFinalize_iff, hclosed] at postFinalize
      simp at postFinalize
    | _ => exact Or.inl hreceipt
  | accumulator c => cases World.accumulatorCall_eq_ok.mp h <;> exact Or.inl hreceipt
  | dispute c => cases World.disputeCall_eq_ok.mp h <;> exact Or.inl hreceipt
  | framework c => cases World.frameworkCall_eq_ok.mp h <;> exact Or.inl hreceipt

/-- A receipt that is left when its asset is CLOSED is left for good. -/
theorem Reachable.receipt_left {w w' : World} (hw : Reachable w) {r : ID}
    {receipt : ContributionReceipt} (hreceipt : w.receipts.get? r = some receipt) {asset : Asset}
    (hasset : w.assets.get? receipt.assetId = some asset) (hclosed : asset.state = .closed)
    {actions : List Action} (h : w.run actions = .ok w') : w'.receipts.get? r = some receipt := by
  -- the asset is closed all along, and a closed asset takes no receipt
  suffices hinv : w'.receipts.get? r = some receipt ∧
      ∃ x, w'.assets.get? receipt.assetId = some x ∧ x.state = .closed from hinv.1
  refine hw.run_induct (P := fun u => u.receipts.get? r = some receipt ∧
    ∃ x, u.assets.get? receipt.assetId = some x ∧ x.state = .closed) ?_ (fun _ hP _ => hP)
    ⟨hreceipt, asset, hasset, hclosed⟩ h
  intro u sender c u' hu hP hcall
  obtain ⟨hr, x, hx, hxs⟩ := hP
  obtain ⟨x', hx', hcustody⟩ := World.call_custody hu hcall _ x hx
  constructor
  · rcases World.call_receipt hu.fresh hcall hr with hkept | ⟨y, hy, hopen⟩
    · exact hkept
    · exact absurd (Option.some.inj (hx.symm.trans hy) ▸ hxs) hopen
  · refine ⟨x', hx', ?_⟩
    rcases hcustody.next with hsame | hnext
    · exact hsame.trans hxs
    · -- CLOSED is terminal
      rw [hxs] at hnext
      cases hnext

/-- An accumulator stays that of its asset. -/
theorem Reachable.run_assetId {w w' : World} (hw : Reachable w) {g : ID}
    {acc : GlobalYieldAccumulator} (hacc : w.accumulators.get? g = some acc)
    {actions : List Action} (h : w.run actions = .ok w') :
    ∃ acc', w'.accumulators.get? g = some acc' ∧ acc'.assetId = acc.assetId := by
  refine hw.run_induct (P := fun u => ∃ x, u.accumulators.get? g = some x ∧
    x.assetId = acc.assetId) ?_ (fun _ hP _ => hP) ⟨acc, hacc, rfl⟩ h
  intro u sender c u' hu hP hcall
  obtain ⟨x, hx, ha⟩ := hP
  obtain ⟨x', hx', htouch⟩ := World.call_touchAcc hu.fresh hcall g x hx
  exact ⟨x', hx', htouch.assetId.trans ha⟩

/-! ## Turning in everything -/

/-- Nothing is left of accumulator `g`: no receipt, no deed, no coin and no minted unit. -/
def World.Emptied (w : World) (g : ID) : Prop := ∃ acc, w.accumulators.get? g = some acc ∧
  (∀ receipt ∈ w.receipts, receipt.assetId ≠ acc.assetId) ∧
  (∀ share ∈ w.shares, share.assetId ≠ acc.assetId) ∧
  (∀ coin ∈ w.coins, coin.token ≠ acc.treasuryCap.token) ∧ acc.totalMintedShares = 0

/-- What one sweep of the reserve can add to the dust counter. -/
def GlobalYieldAccumulator.sweepToll (acc : GlobalYieldAccumulator) : ℕ :=
  if 0 < acc.rolloverReserve then acc.totalMintedShares / scale + 1 else 0

/-- The toll of a sweep falls with the reserve and the units. -/
theorem GlobalYieldAccumulator.sweepToll_le {acc acc' : GlobalYieldAccumulator}
    (hreserve : acc'.rolloverReserve ≤ acc.rolloverReserve)
    (hminted : acc'.totalMintedShares ≤ acc.totalMintedShares) :
    acc'.sweepToll ≤ acc.sweepToll := by
  have hdiv := Nat.div_le_div_right (c := scale) hminted
  by_cases hpos : 0 < acc'.rolloverReserve
  · rw [sweepToll, sweepToll, if_pos hpos, if_pos (Nat.lt_of_lt_of_le hpos hreserve)]
    omega
  · rw [sweepToll, if_neg hpos]
    exact Nat.zero_le _

/-- The sweep of one unwrap adds no more dust than the toll. -/
theorem GlobalYieldAccumulator.sweepDust_le (acc : GlobalYieldAccumulator) (coin : TokenCoin) :
    acc.sweepDust coin ≤ acc.sweepToll := by
  have hdiv : (acc.afterBurn coin.value).unwrapped / scale ≤ acc.totalMintedShares / scale :=
    Nat.div_le_div_right (Nat.sub_le _ _)
  rw [sweepDust, sweepToll]
  split <;> omega

/-- A sweep is paid for by the toll, which is not due again. -/
theorem AutoSwept.toll {acc acc' : GlobalYieldAccumulator} {v : ℕ} {events : List Event}
    (h : AutoSwept (acc.afterBurn v) acc' events) :
    acc'.dustBound + acc'.sweepToll ≤ acc.dustBound + acc.sweepToll := by
  rcases h with ⟨⟨hreserve, -⟩, h⟩ | ⟨-, rfl, -⟩
  · obtain ⟨-, rfl, -⟩ := sweepRolloverInternal_eq_ok.mp h
    have hdiv : (acc.afterBurn v).unwrapped / scale ≤ acc.totalMintedShares / scale :=
      Nat.div_le_div_right (Nat.sub_le _ _)
    have hdue : acc.sweepToll = acc.totalMintedShares / scale + 1 := if_pos hreserve
    show acc.dustBound + (acc.afterBurn v).unwrapped / scale + 1 + 0 ≤ _
    omega
  · exact Nat.le_refl _

/-- What the exits of all deeds and coins can add to the dust counter: one for each, and one
    sweep. -/
def Engine.exitDust (e : Engine) : ℕ :=
  e.shares.sum (fun _ => 1) + e.coins.sum (fun _ => 1) + e.acc.sweepToll

/-- The calls that are left: one to redeem each deed, and one more to unwrap each coin. -/
def Engine.exitCalls (e : Engine) : ℕ := e.shares.sum (fun _ => 1) + 2 * e.coins.sum (fun _ => 1)

/-- The accumulator is closed, no receipt is left, and the dust counter has room for all
    exits. -/
structure World.Unwinds (w : World) (g : ID) (acc : GlobalYieldAccumulator) : Prop where
  reachable : Reachable w
  stored : w.accumulators.get? g = some acc
  closed : acc.closed = true
  converted : ∀ receipt ∈ w.receipts, receipt.assetId ≠ acc.assetId
  room : acc.dustBound + (w.engine acc).exitDust ≤ maxU64

/-- One call nearer to the end. -/
def World.Nearer (w : World) (g : ID) (acc : GlobalYieldAccumulator) : Prop :=
  ∃ action w' acc', w.step action = .ok w' ∧ w'.Unwinds g acc' ∧
    (w'.engine acc').exitCalls < (w.engine acc).exitCalls

namespace World.Unwinds

variable {w w' : World} {g : ID} {acc acc' : GlobalYieldAccumulator}

/-- The dust a call adds is paid for by the objects it uses up. -/
theorem nearer (h : w.Unwinds g acc) {sender : Address} {c : Call}
    (hcall : w.call sender c = .ok w')
    (hacc' : w'.accumulators.get? g = some acc') (hclosed : acc'.closed = acc.closed)
    (ha : acc'.assetId = acc.assetId) (hreceipts : w'.receipts = w.receipts)
    (hdust : acc'.dustBound + (w'.engine acc').exitDust ≤
      acc.dustBound + (w.engine acc).exitDust)
    (hcalls : (w'.engine acc').exitCalls < (w.engine acc).exitCalls) : w.Nearer g acc := by
  refine ⟨_, w', acc', World.step_call hcall, ?_, hcalls⟩
  exact {
    reachable := h.reachable.call hcall
    stored := hacc'
    closed := hclosed.trans h.closed
    converted := by rw [hreceipts, ha]; exact h.converted
    room := Nat.le_trans hdust h.room }

/-- A deed is redeemed by its holder. -/
theorem redeem (h : w.Unwinds g acc) {share : GallyShare} (hmem : share ∈ w.shares)
    (ha : share.assetId = acc.assetId) : w.Nearer g acc := by
  have hs : w.shares.get? share.id = some share := Store.get?_key hmem
  -- a deed less to redeem, and at most one unit of dust for its claim
  have hcount := Store.sum_delete_of_get? (s := (w.engine acc).shares) (Store.get?_group hs ha)
    (fun _ => 1)
  have hroom := h.room
  have hdust := acc.claimDust_le share
  have hguards := h.reachable.redeemGuards h.stored h.closed hs ha (by
    rw [Engine.exitDust] at hroom
    omega)
  have hstep : AccumulatorStep w (w.owner .share share.id) (.redeemShare g share.id) _ :=
    .redeemShare h.stored rfl hs hguards (redeemShare_eq_ok.mpr ⟨hguards, rfl⟩)
  have htoll : (acc.afterRedeem share).sweepToll ≤ acc.sweepToll :=
    GlobalYieldAccumulator.sweepToll_le (Nat.le_refl _) (Nat.sub_le _ _)
  have hleft : (w.shares.delete share.id).group GallyShare.assetId acc.assetId =
      (w.engine acc).shares.delete share.id := Store.group_delete
  refine h.nearer (World.callAccumulator_eq_ok.mpr hstep) (Store.get?_replace _ h.stored rfl)
    rfl rfl rfl ?_ ?_
  · show acc.dustBound + acc.claimDust share + (((w.shares.delete share.id).group
      GallyShare.assetId acc.assetId).sum (fun _ => 1) + (w.engine acc).coins.sum (fun _ => 1) +
      (acc.afterRedeem share).sweepToll) ≤ acc.dustBound + ((w.engine acc).shares.sum (fun _ => 1) +
      (w.engine acc).coins.sum (fun _ => 1) + acc.sweepToll)
    rw [hleft]
    omega
  · show ((w.shares.delete share.id).group GallyShare.assetId acc.assetId).sum (fun _ => 1) +
      2 * (w.engine acc).coins.sum (fun _ => 1) < _
    rw [hleft, Engine.exitCalls]
    omega

/-- A coin is unwrapped by its holder, which leaves a deed for it. -/
theorem unwrap (h : w.Unwinds g acc) {coin : TokenCoin} (hmem : coin ∈ w.coins)
    (ht : coin.token = acc.treasuryCap.token) (hpos : 0 < coin.value) : w.Nearer g acc := by
  have hw := h.reachable
  have hk : w.coins.get? coin.id = some coin := Store.get?_key hmem
  have hcount := Store.sum_delete_of_get? (s := (w.engine acc).coins) (Store.get?_group hk ht)
    (fun _ => 1)
  have hfresh : (w.engine acc).shares.get? w.nextId = none :=
    Store.get?_group_eq_none (hw.fresh.shares.get?_eq_none (Nat.lt_irrefl _))
  have hroom := h.room
  -- the unwrap may sweep the reserve, whose dust `sweepToll` has set aside
  have hdust := acc.sweepDust_le coin
  have hguards := hw.unwrapGuards h.stored hk ht hpos
  obtain ⟨acc', swept, hsweep⟩ := hw.autoSwept h.stored hk ht hpos (by
    have hold : (w.engine acc).acc = acc := rfl
    rw [Engine.exitDust, hold] at hroom
    omega)
  have hstep : AccumulatorStep w (w.owner .coin coin.id) (.unwrapCoins g coin.id) _ :=
    .unwrapCoins h.stored rfl hk ht hguards hsweep
      (unwrapCoins_eq_ok.mpr ⟨hguards, rfl, swept, hsweep, rfl⟩)
  have hasset : acc'.assetId = acc.assetId := hsweep.frame.assetId
  have htoken : acc'.treasuryCap.token = acc.treasuryCap.token := by
    rw [hsweep.frame.cap]
    rfl
  have htoll := hsweep.toll
  -- one coin less and one deed more
  have hdeeds : ((w.shares.put (acc.freshShare w.nextId coin.value w.clockMs)).group
      GallyShare.assetId acc'.assetId).sum (fun _ => 1) =
      1 + (w.engine acc).shares.sum (fun _ => 1) := by
    have hgroup : (w.shares.put (acc.freshShare w.nextId coin.value w.clockMs)).group
        GallyShare.assetId acc.assetId = (w.engine acc).shares.put
        (acc.freshShare w.nextId coin.value w.clockMs) := Store.group_put rfl
    rw [hasset, hgroup]
    exact Store.sum_put_of_fresh hfresh _
  have hcoins : (w.coins.delete coin.id).group TokenCoin.token acc'.treasuryCap.token =
      (w.engine acc).coins.delete coin.id := by
    rw [htoken]
    exact Store.group_delete
  refine h.nearer (World.callAccumulator_eq_ok.mpr hstep)
    (Store.get?_replace _ h.stored hsweep.frame.id) hsweep.closed hasset rfl ?_ ?_
  · show acc'.dustBound + (((w.shares.put (acc.freshShare w.nextId coin.value w.clockMs)).group
      GallyShare.assetId acc'.assetId).sum (fun _ => 1) + ((w.coins.delete coin.id).group
      TokenCoin.token acc'.treasuryCap.token).sum (fun _ => 1) + acc'.sweepToll) ≤
      acc.dustBound + ((w.engine acc).shares.sum (fun _ => 1) +
      (w.engine acc).coins.sum (fun _ => 1) + acc.sweepToll)
    rw [hdeeds, hcoins]
    omega
  · show ((w.shares.put (acc.freshShare w.nextId coin.value w.clockMs)).group
      GallyShare.assetId acc'.assetId).sum (fun _ => 1) + 2 * ((w.coins.delete coin.id).group
      TokenCoin.token acc'.treasuryCap.token).sum (fun _ => 1) < _
    rw [hdeeds, hcoins, Engine.exitCalls]
    omega

/-- A coin of nothing is destroyed. -/
theorem destroy (h : w.Unwinds g acc) {coin : TokenCoin} (hmem : coin ∈ w.coins)
    (ht : coin.token = acc.treasuryCap.token) (hzero : coin.value = 0) : w.Nearer g acc := by
  have hk : w.coins.get? coin.id = some coin := Store.get?_key hmem
  have hcount := Store.sum_delete_of_get? (s := (w.engine acc).coins) (Store.get?_group hk ht)
    (fun _ => 1)
  have hstep : FrameworkStep w (w.owner .coin coin.id) (.destroyZero coin.id) _ :=
    .destroyZero rfl hk hzero
  -- the engine's coins are those of its token, less the one
  have hleft : (w.coins.delete coin.id).group TokenCoin.token acc.treasuryCap.token =
      (w.engine acc).coins.delete coin.id := Store.group_delete
  -- the dust bound stays, and one coin fewer is left
  refine h.nearer (World.callFramework_eq_ok.mpr hstep) h.stored rfl rfl rfl ?_ ?_
  · show acc.dustBound + ((w.engine acc).shares.sum (fun _ => 1) + ((w.coins.delete coin.id).group
      TokenCoin.token acc.treasuryCap.token).sum (fun _ => 1) + acc.sweepToll) ≤
      acc.dustBound + ((w.engine acc).shares.sum (fun _ => 1) +
      (w.engine acc).coins.sum (fun _ => 1) + acc.sweepToll)
    rw [hleft]
    omega
  · show (w.engine acc).shares.sum (fun _ => 1) + 2 * ((w.coins.delete coin.id).group
      TokenCoin.token acc.treasuryCap.token).sum (fun _ => 1) < _
    rw [hleft, Engine.exitCalls]
    omega

/-- Without deeds, coins and receipts no unit is minted. -/
theorem emptied (h : w.Unwinds g acc) (hshares : ∀ share ∈ w.shares, share.assetId ≠ acc.assetId)
    (hcoins : ∀ coin ∈ w.coins, coin.token ≠ acc.treasuryCap.token) : w.Emptied g := by
  refine ⟨acc, h.stored, h.converted, hshares, hcoins, ?_⟩
  -- minted units are units of deeds, receipts and coins, and there are none
  have hb := (h.reachable.replay h.stored).sound.1
  have hdeeds : (w.engine acc).deedUnits = 0 := Store.sum_eq_zero fun share hshare =>
    absurd (Store.mem_group.mp hshare).2 (hshares share (Store.mem_group.mp hshare).1)
  have hreceipts : (w.engine acc).receiptUnits = 0 := Store.sum_eq_zero fun receipt hreceipt =>
    absurd (Store.mem_group.mp hreceipt).2 (h.converted receipt (Store.mem_group.mp hreceipt).1)
  have hcoins : (w.engine acc).coinUnits = 0 := Store.sum_eq_zero fun coin hcoin =>
    absurd (Store.mem_group.mp hcoin).2 (hcoins coin (Store.mem_group.mp hcoin).1)
  have hsame : (w.engine acc).acc = acc := rfl
  have hunits := hb.units
  have hwrapped := hb.coins.symm.trans hcoins
  rw [hb.wrapped] at hwrapped
  rw [hdeeds, hreceipts, hwrapped, hsame] at hunits
  exact hunits.symm

/-- All deeds and coins can be turned in. -/
theorem can (h : w.Unwinds g acc) : w.Can (World.Emptied · g) := by
  refine Run.exec_variant (I := fun u n => ∃ x, u.Unwinds g x ∧ (u.engine x).exitCalls = n)
    (fun u n hu => ?_) ⟨acc, h, rfl⟩
  obtain ⟨x, hx, rfl⟩ := hu
  have hnearer : u.Nearer g x → ∃ action u' m, u.step action = .ok u' ∧
      (∃ x', u'.Unwinds g x' ∧ (u'.engine x').exitCalls = m) ∧ m < (u.engine x).exitCalls := by
    intro ⟨action, u', x', hstep, hx', hlt⟩
    exact ⟨action, u', _, hstep, ⟨x', hx', rfl⟩, hlt⟩
  -- first the coins, which become deeds, then the deeds
  by_cases hcoin : ∃ coin ∈ u.coins, coin.token = x.treasuryCap.token
  · obtain ⟨coin, hmem, ht⟩ := hcoin
    rcases Nat.eq_zero_or_pos coin.value with hzero | hpos
    · exact Or.inr (hnearer (hx.destroy hmem ht hzero))
    · exact Or.inr (hnearer (hx.unwrap hmem ht hpos))
  by_cases hshare : ∃ share ∈ u.shares, share.assetId = x.assetId
  · obtain ⟨share, hmem, ha⟩ := hshare
    exact Or.inr (hnearer (hx.redeem hmem ha))
  · exact Or.inl (hx.emptied (fun share hmem ha => hshare ⟨share, hmem, ha⟩)
      fun coin hmem ht => hcoin ⟨coin, hmem, ht⟩)

end World.Unwinds

/-! ## Every receipt -/

/-- A receipt that is left when its asset is CLOSED keeps units minted. -/
theorem Reachable.emptied_converted {w : World} (hw : Reachable w) {a g : ID} {asset : Asset}
    (hasset : w.assets.get? a = some asset) (hclosed : asset.state = .closed)
    {acc : GlobalYieldAccumulator} (hacc : w.accumulators.get? g = some acc)
    (ha : acc.assetId = a) (hcan : w.Can (World.Emptied · g)) :
    ∀ receipt ∈ w.receipts, receipt.assetId ≠ a := by
  intro receipt hmem hbelongs
  obtain ⟨actions, w', hrun, x, hx, hnone, -⟩ := hcan
  obtain ⟨x', hx', hsame⟩ := hw.run_assetId hacc hrun
  obtain rfl := Option.some.inj (hx.symm.trans hx')
  -- the receipt outlives every run from here
  have hleft := hw.receipt_left (Store.get?_key hmem) (hbelongs ▸ hasset) hclosed hrun
  exact hnone receipt (Store.mem_of_get? hleft) (hbelongs.trans (ha.symm.trans hsame.symm))

/-- The holder of a receipt of an asset that is FAILED or past its raise can turn it in exactly
    if the asset is not CLOSED. From a CLOSED state everything can be turned in only if no
    receipt is left, and then it can, as far as the dust counter has room. -/
theorem receipts_redeemable {w : World} (hw : Reachable w) {a : ID} {asset : Asset}
    (hasset : w.assets.get? a = some asset) :
    (asset.state = .failed ∨ asset.state.isFinalized = true → ∀ r receipt,
      w.receipts.get? r = some receipt → receipt.assetId = a →
      (w.TurnsIn r ↔ asset.state ≠ .closed)) ∧
    (asset.state = .closed → ∃ g acc, asset.accumulatorId = some g ∧
      w.accumulators.get? g = some acc ∧
      (w.Can (World.Emptied · g) → ∀ receipt ∈ w.receipts, receipt.assetId ≠ a) ∧
      ((∀ receipt ∈ w.receipts, receipt.assetId ≠ a) →
        acc.dustBound + (w.engine acc).exitDust ≤ maxU64 → w.Can (World.Emptied · g))) := by
  refine ⟨fun hstate r receipt hreceipt hbelongs => ?_, fun hclosed => ?_⟩
  -- in a failed or finalized state a receipt can be turned in until the close
  · subst hbelongs
    exact hw.turnsIn_iff hreceipt hasset hstate
  · obtain ⟨g, acc, hg, hacc, hlinked⟩ := hw.accumulator_of_asset hasset (hclosed ▸ rfl)
    have ha : acc.assetId = a := hlinked.trans (Store.key_of_get? hasset)
    refine ⟨g, acc, hg, hacc, hw.emptied_converted hasset hclosed hacc ha, fun hnone hroom => ?_⟩
    -- with all receipts converted, what is left to do is unwrapping and redeeming
    have hunwinds : w.Unwinds g acc := {
      reachable := hw
      stored := hacc
      closed := ((hw.custodied hasset).closed g acc hacc hlinked).mpr hclosed
      converted := fun receipt hmem => ha ▸ hnone receipt hmem
      room := hroom }
    exact hunwinds.can

namespace Sample

/-- The repaid term asset is closed. -/
def closing : List Action := [.transaction 3 [.asset (.closeAtReturnTarget 4 8)]]

end Sample

/-- A receipt of the OPERATIONAL project; and the term asset, closed after the conversion. -/
theorem receipts_redeemable_term :
    (∃ w, (World.genesis 0).run (Sample.operational 1000000 100000) = .ok w ∧ w.TurnsIn 6) ∧
    ∃ w, (World.genesis 0).run (Sample.term ++ Sample.conversion ++
      [.transaction 2 [Sample.repayment]] ++ Sample.closing) = .ok w ∧
      ∃ g, w.Can (World.Emptied · g) := by
  constructor
  · have hrun : returns ((World.genesis 0).run (Sample.operational 1000000 100000)) (fun w =>
        (w.receipts.get? 6).any (fun receipt => receipt.assetId = 4) &&
        (w.assets.get? 4).any fun asset => asset.state = .operational) = true := by
      decide +kernel
    obtain ⟨w, hw, hq⟩ := returns_iff.mp hrun
    simp only [Bool.and_eq_true, Option.any_eq_true, decide_eq_true_eq] at hq
    obtain ⟨⟨receipt, hreceipt, hbelongs⟩, asset, hasset, hstate⟩ := hq
    have hredeems := (receipts_redeemable ⟨0, _, hw⟩ hasset).1 (Or.inr (by rw [hstate]; rfl)) 6
      receipt hreceipt hbelongs
    exact ⟨w, hw, hredeems.mpr (by simp [hstate])⟩
  · have hrun : returns ((World.genesis 0).run (Sample.term ++ Sample.conversion ++
        [.transaction 2 [Sample.repayment]] ++ Sample.closing)) (fun w =>
        w.receipts.entries = [] &&
        (w.assets.get? 4).any (fun asset => asset.state = .closed ∧ asset.accumulatorId = some 8) &&
        (w.accumulators.get? 8).any fun acc =>
          acc.dustBound + (w.engine acc).exitDust ≤ 1000) = true := by
      decide +kernel
    obtain ⟨w, hw, hq⟩ := returns_iff.mp hrun
    simp only [Bool.and_eq_true, Option.any_eq_true, decide_eq_true_eq] at hq
    obtain ⟨⟨hnone, asset, hasset, hstate, hg⟩, acc, hacc, hroom⟩ := hq
    obtain ⟨g, x, hg', hx, -, hempty⟩ := (receipts_redeemable ⟨0, _, hw⟩ hasset).2 hstate
    obtain rfl := Option.some.inj (hg.symm.trans hg')
    obtain rfl := Option.some.inj (hacc.symm.trans hx)
    -- after the conversion no receipt is left, and the dust counter has room
    refine ⟨w, hw, 8, hempty (fun receipt hmem => ?_) (Nat.le_trans hroom (by simp [maxU64]))⟩
    rw [Store.mem_def, hnone] at hmem
    simp at hmem

/-- The receipt of the term asset is left when the asset is closed: its holder cannot turn it
    in, nothing that happens later changes it, and its units stay minted. -/
theorem receipt_stranded : ∃ w receipt,
    (World.genesis 0).run (Sample.term ++ [.transaction 2 [Sample.repayment]] ++ Sample.closing) =
      .ok w ∧ w.receipts.get? 6 = some receipt ∧ receipt.assetId = 4 ∧ ¬ w.TurnsIn 6 ∧
    (∀ actions w', w.run actions = .ok w' → w'.receipts.get? 6 = some receipt) ∧
    ¬ w.Can (World.Emptied · 8) := by
  have hrun : returns ((World.genesis 0).run
      (Sample.term ++ [.transaction 2 [Sample.repayment]] ++ Sample.closing)) (fun w =>
      (w.receipts.get? 6).any (fun receipt => receipt.assetId = 4) &&
      (w.assets.get? 4).any (fun asset => asset.state = .closed) &&
      (w.accumulators.get? 8).any fun acc => acc.assetId = 4) = true := by
    decide +kernel
  obtain ⟨w, hw, hq⟩ := returns_iff.mp hrun
  simp only [Bool.and_eq_true, Option.any_eq_true, decide_eq_true_eq] at hq
  obtain ⟨⟨⟨receipt, hreceipt, hbelongs⟩, asset, hasset, hstate⟩, acc, hacc, ha⟩ := hq
  have hreach : Reachable w := ⟨0, _, hw⟩
  refine ⟨w, receipt, hw, hreceipt, hbelongs, ?_, ?_, ?_⟩
  -- an unconverted receipt of the closed asset
  · intro hredeems
    have hfinal : asset.state.isFinalized = true := by rw [hstate]; rfl
    exact (hreach.turnsIn_iff hreceipt (hbelongs.symm ▸ hasset) (Or.inr hfinal)).mp hredeems hstate
  · intro actions w' h
    exact hreach.receipt_left hreceipt (hbelongs.symm ▸ hasset) hstate h
  · intro hcan
    exact hreach.emptied_converted hasset hstate hacc ha hcan receipt (Store.mem_of_get? hreceipt)
      hbelongs

end Gally

import Gally.Chain.Path
import Gally.Chain.Titles
import Gally.Law.Exits

/-!
# What an address owns is its own

Nobody else spends, takes, changes or hands on what an address owns: its USDC, deeds, coins,
receipts, capabilities and treasury caps. So an address that signs nothing keeps everything, and
the yield its deeds can claim only grows.

## Key results

- `World.Retains`: objects of one kind that stay where they are
- `passive_holder_keeps`: over any run the address signs nothing of
- `authority_fixed`: who can use a capability, and that it stays so
-/

namespace Gally

open Checked

/-! ## Calls of others -/

namespace World

variable {w w' : World} {sender a : Address} {c : Call}

/-- A new object is handed out, or one that `a` does not own changes hands. -/
theorem give_kept {kind kind' : OwnedKind} {n k : ID} {b : Address} (hown : w.owner kind k = a)
    (hne : kind = kind' → k ≠ n) : w.give kind' n b kind k = a := by
  unfold give
  rw [if_neg, hown]
  intro heq
  exact hne heq.1 heq.2

/-- Nobody hands on what another owns. -/
theorem owner_kept (h : w.call sender c = .ok w') (hne : sender ≠ a) {kind : OwnedKind} {k : ID}
    (hk : k < w.nextId) (hown : w.owner kind k = a) : w'.owner kind k = a := by
  -- a call gives only objects that it makes, and moves only objects of its sender
  have hnew : ∀ {kind' : OwnedKind} {n : ID}, w.nextId ≤ n →
      w.give kind' n sender kind k = a := by
    intro kind' n hn
    exact give_kept hown fun _ => Nat.ne_of_lt (Nat.lt_of_lt_of_le hk hn)
  have hmoved : ∀ {kind' : OwnedKind} {n m : ID} {b : Address}, w.owner kind' m = sender →
      n = m → w.give kind' n b kind k = a := by
    intro kind' n m b hm hnm
    refine give_kept hown fun heq hkn => ?_
    subst heq hkn hnm
    exact hne (hm.symm.trans hown)
  cases c with
  | protocol c =>
    obtain ⟨-, _, _, -, rfl⟩ := World.protocolCall_eq_ok.mp h
    exact hown
  | validator c =>
    cases World.validatorCall_eq_ok.mp h with
    | registerValidator => exact hnew (Nat.le_succ _)
    | _ => exact hown
  | asset c =>
    cases World.assetCall_eq_ok.mp h with
    | createAsset _ created => exact hnew (created.cap ▸ Nat.le_succ _)
    | createTermAsset _ created => exact hnew (created.cap ▸ Nat.le_succ _)
    | contributeCapital => exact hnew (Nat.le_refl _)
    | claimShares => exact hnew (Nat.le_refl _)
    | _ => exact hown
  | accumulator c =>
    cases World.accumulatorCall_eq_ok.mp h with
    | wrapShares => exact hnew (Nat.le_refl _)
    | unwrapCoins => exact hnew (Nat.le_refl _)
    | splitShare => exact hnew (Nat.le_refl _)
    | _ => exact hown
  | dispute c => cases World.disputeCall_eq_ok.mp h <;> exact hown
  | framework c =>
    cases World.frameworkCall_eq_ok.mp h with
    | publishToken => exact hnew (Nat.le_refl _)
    | mintToken => exact hnew (Nat.le_refl _)
    | zeroCoin => exact hnew (Nat.le_refl _)
    | splitCoin => exact hnew (Nat.le_refl _)
    | transferCoin own hcoin => exact hmoved own (Store.key_of_get? hcoin)
    | transferShare own hshare => exact hmoved own (Store.key_of_get? hshare)
    | transferTreasuryCap own hcap => exact hmoved own (Store.key_of_get? hcap)
    | _ => exact hown

/-- Somebody else's key is not among those of `a`. -/
theorem other_key {kind : OwnedKind} {α : Type} [Keyed α ID] {s : Store α} {k : ID} {x y : α}
    (hne : sender ≠ a) (own : w.owner kind k = sender) (hx : s.get? k = some x)
    (hy : Keyed.key y = Keyed.key x) : ¬ w.owner kind (Keyed.key y) = a := by
  rw [hy, Store.key_of_get? hx, own]
  exact hne

/-- Others' calls leave somebody's deeds where they are. -/
theorem shares_spared (hf : w.Fresh) (h : w.call sender c = .ok w') (hne : sender ≠ a) :
    w.shares.Spares (fun k => w.owner .share k = a) w'.shares := by
  have hnew : w.shares.get? w.nextId = none := hf.shares.get?_eq_none (Nat.lt_irrefl _)
  cases c with
  | protocol c =>
    obtain ⟨-, _, _, -, rfl⟩ := World.protocolCall_eq_ok.mp h
    exact .refl _
  | validator c => cases World.validatorCall_eq_ok.mp h <;> exact .refl _
  | asset c =>
    cases World.assetCall_eq_ok.mp h with
    | claimShares => exact .fresh hnew
    | _ => exact .refl _
  | accumulator c =>
    cases World.accumulatorCall_eq_ok.mp h with
    | claimRewards _ own hshare => exact .put (other_key hne own hshare rfl)
    | wrapShares _ own => exact .delete (own ▸ hne)
    | unwrapCoins => exact .fresh hnew
    | @mergeShares _ _ v _ _ _ _ _ own htarget own' =>
      have hvictim : w.shares.Spares (fun k => w.owner .share k = a) (w.shares.delete v) :=
        .delete (own' ▸ hne)
      exact hvictim.trans (.put (other_key hne own htarget rfl))
    | redeemShare _ own => exact .delete (own ▸ hne)
    -- the parent keeps its id and the child takes a new one; neither is somebody else's
    | @splitShare _ amount share own hshare =>
      let parent := { share with shareCount := share.shareCount - amount.val }
      have hparent : w.shares.Spares (fun k => w.owner .share k = a) (w.shares.put parent) :=
        .put (other_key hne own hshare rfl)
      have hchild := hf.shares.replace (x := parent) hshare rfl
      exact hparent.trans (.fresh (hchild.get?_eq_none (Nat.lt_irrefl _)))
    | _ => exact .refl _
  | dispute c => cases World.disputeCall_eq_ok.mp h <;> exact .refl _
  | framework c => cases World.frameworkCall_eq_ok.mp h <;> exact .refl _

/-- Others' calls leave somebody's coins where they are. -/
theorem coins_spared (hf : w.Fresh) (h : w.call sender c = .ok w') (hne : sender ≠ a) :
    w.coins.Spares (fun k => w.owner .coin k = a) w'.coins := by
  have hnew : w.coins.get? w.nextId = none := hf.coins.get?_eq_none (Nat.lt_irrefl _)
  cases c with
  | protocol c =>
    obtain ⟨-, _, _, -, rfl⟩ := World.protocolCall_eq_ok.mp h
    exact .refl _
  | validator c => cases World.validatorCall_eq_ok.mp h <;> exact .refl _
  | asset c => cases World.assetCall_eq_ok.mp h <;> exact .refl _
  | accumulator c =>
    cases World.accumulatorCall_eq_ok.mp h with
    | wrapShares => exact .fresh hnew
    | unwrapCoins _ own => exact .delete (own ▸ hne)
    | _ => exact .refl _
  | dispute c => cases World.disputeCall_eq_ok.mp h <;> exact .refl _
  | framework c =>
    cases World.frameworkCall_eq_ok.mp h with
    | mintToken => exact .fresh hnew
    | burnToken _ _ own => exact .delete (own ▸ hne)
    | zeroCoin => exact .fresh hnew
    | destroyZero own => exact .delete (own ▸ hne)
    | @splitCoin _ amount coin own hcoin =>
      let rest := { coin with value := coin.value - amount.val }
      have hrest : w.coins.Spares (fun k => w.owner .coin k = a) (w.coins.put rest) :=
        .put (other_key hne own hcoin rfl)
      have hnew := hf.coins.replace (x := rest) hcoin rfl
      exact hrest.trans (.fresh (hnew.get?_eq_none (Nat.lt_irrefl _)))
    | @joinCoins _ j _ _ own hcoin own' =>
      have hother : w.coins.Spares (fun k => w.owner .coin k = a) (w.coins.delete j) :=
        .delete (own' ▸ hne)
      exact hother.trans (.put (other_key hne own hcoin rfl))
    | _ => exact .refl _

/-- Others' calls leave somebody's receipts where they are. -/
theorem receipts_spared (hf : w.Fresh) (h : w.call sender c = .ok w') (hne : sender ≠ a) :
    w.receipts.Spares (fun k => w.owner .soulbound k = a) w'.receipts := by
  have hnew : w.receipts.get? w.nextId = none := hf.receipts.get?_eq_none (Nat.lt_irrefl _)
  cases c with
  | protocol c =>
    obtain ⟨-, _, _, -, rfl⟩ := World.protocolCall_eq_ok.mp h
    exact .refl _
  | validator c => cases World.validatorCall_eq_ok.mp h <;> exact .refl _
  | asset c =>
    cases World.assetCall_eq_ok.mp h with
    | contributeCapital => exact .fresh hnew
    | refundContribution _ own => exact .delete (own ▸ hne)
    | claimShares _ _ own => exact .delete (own ▸ hne)
    | _ => exact .refl _
  | accumulator c => cases World.accumulatorCall_eq_ok.mp h <;> exact .refl _
  | dispute c => cases World.disputeCall_eq_ok.mp h <;> exact .refl _
  | framework c => cases World.frameworkCall_eq_ok.mp h <;> exact .refl _

/-- Others' calls leave somebody's treasuries where they are. -/
theorem treasuryCaps_spared (hf : w.Fresh) (h : w.call sender c = .ok w') (hne : sender ≠ a) :
    w.treasuryCaps.Spares (fun k => w.owner .treasuryCap k = a) w'.treasuryCaps := by
  cases c with
  | protocol c =>
    obtain ⟨-, _, _, -, rfl⟩ := World.protocolCall_eq_ok.mp h
    exact .refl _
  | validator c => cases World.validatorCall_eq_ok.mp h <;> exact .refl _
  | asset c =>
    cases World.assetCall_eq_ok.mp h with
    | finalizeSuccessfulRaise _ own => exact .delete (own ▸ hne)
    | _ => exact .refl _
  | accumulator c => cases World.accumulatorCall_eq_ok.mp h <;> exact .refl _
  | dispute c => cases World.disputeCall_eq_ok.mp h <;> exact .refl _
  | framework c =>
    cases World.frameworkCall_eq_ok.mp h with
    | publishToken => exact .fresh (hf.treasuryCaps.get?_eq_none (Nat.lt_irrefl _))
    | mintToken own hcap => exact .put (other_key hne own hcap rfl)
    | burnToken own hcap => exact .put (other_key hne own hcap rfl)
    | _ => exact .refl _

/-- Capabilities are never given up. -/
theorem caps_spared (hf : w.Fresh) (h : w.call sender c = .ok w') {p q : ID → Prop} :
    w.entityCaps.Spares p w'.entityCaps ∧ w.validatorCaps.Spares q w'.validatorCaps := by
  -- only a listing and a registration make capabilities, with new ids, and nothing consumes them
  have hlt : ¬ w.nextId + 1 < w.nextId := Nat.not_lt.mpr (Nat.le_succ _)
  cases c with
  | protocol c =>
    obtain ⟨-, _, _, -, rfl⟩ := World.protocolCall_eq_ok.mp h
    exact ⟨.refl _, .refl _⟩
  | validator c =>
    cases World.validatorCall_eq_ok.mp h with
    | registerValidator => exact ⟨.refl _, .fresh (hf.validatorCaps.get?_eq_none hlt)⟩
    | _ => exact ⟨.refl _, .refl _⟩
  | asset c =>
    cases World.assetCall_eq_ok.mp h with
    | createAsset _ created =>
      exact ⟨.fresh (hf.entityCaps.get?_eq_none (created.cap ▸ hlt)), .refl _⟩
    | createTermAsset _ created =>
      exact ⟨.fresh (hf.entityCaps.get?_eq_none (created.cap ▸ hlt)), .refl _⟩
    | _ => exact ⟨.refl _, .refl _⟩
  | accumulator c => cases World.accumulatorCall_eq_ok.mp h <;> exact ⟨.refl _, .refl _⟩
  | dispute c => cases World.disputeCall_eq_ok.mp h <;> exact ⟨.refl _, .refl _⟩
  | framework c => cases World.frameworkCall_eq_ok.mp h <;> exact ⟨.refl _, .refl _⟩

/-! ## USDC -/

/-- A credit takes nothing. -/
theorem credit_le (ws : Wallets) (b : Address) (v : ℕ) :
    ws.balance a ≤ (ws.credit b v).balance a := by
  rw [Wallets.balance_credit]
  split
  · next hb =>
    subst hb
    exact Nat.le_add_right _ _
  · exact Nat.le_refl _

/-- Payments take nothing. -/
theorem pay_le (ws : Wallets) (ts : Transfers) : ws.balance a ≤ (ws.pay ts).balance a := by
  induction ts generalizing ws with
  | nil => exact Nat.le_refl _
  | cons t ts ih => exact (credit_le ws t.1 t.2).trans (ih _)

/-- What another address spends is not somebody's. -/
theorem spend_eq (ws : Wallets) (hne : sender ≠ a) (v : ℕ) :
    (ws.spend sender v).balance a = ws.balance a := by
  rw [Wallets.balance_spend, if_neg hne]

/-- Nobody spends the USDC of another. -/
theorem balance_le (h : w.call sender c = .ok w') (hne : sender ≠ a) :
    w.wallets.balance a ≤ w'.wallets.balance a := by
  -- every other call pays out, and its costs come from its sender's wallet
  have hspent := fun v => Nat.le_of_eq (spend_eq w.wallets hne v).symm
  cases c with
  | protocol c =>
    obtain ⟨-, _, _, -, rfl⟩ := World.protocolCall_eq_ok.mp h
    exact Nat.le_refl _
  | validator c =>
    cases World.validatorCall_eq_ok.mp h with
    | registerValidator => exact hspent _
    | addStake => exact hspent _
    | withdrawStake => exact credit_le _ _ _
  | asset c =>
    cases World.assetCall_eq_ok.mp h with
    | createAsset => exact hspent _
    | createTermAsset => exact hspent _
    | cancelUnvouchedByEntity => exact credit_le _ _ _
    | cancelUnvouchedTimeout => exact pay_le _ _
    | contributeCapital => exact (hspent _).trans (credit_le _ _ _)
    | abortFailedRaise => exact pay_le _ _
    | refundContribution => exact credit_le _ _ _
    | releaseFundingTranche => exact credit_le _ _ _
    | depositRevenue => exact (hspent _).trans (pay_le _ _)
    | closeAtReturnTarget => exact pay_le _ _
    | closeAfterCompensation => exact pay_le _ _
    | closeWindDown => exact pay_le _ _
    | _ => exact Nat.le_refl _
  | accumulator c =>
    cases World.accumulatorCall_eq_ok.mp h with
    | claimRewards => exact credit_le _ _ _
    | wrapShares => exact credit_le _ _ _
    | mergeShares => exact credit_le _ _ _
    | redeemShare => exact credit_le _ _ _
    | adminSweepDust => exact credit_le _ _ _
    | _ => exact Nat.le_refl _
  | dispute c =>
    cases World.disputeCall_eq_ok.mp h with
    | initializeDispute => exact hspent _
    | voteOnDispute => exact Nat.le_refl _
    | resolveDispute => exact pay_le _ _
    | claimJurorReward => exact credit_le _ _ _
  | framework c =>
    cases World.frameworkCall_eq_ok.mp h with
    | mintUsdc => exact credit_le _ _ _
    | burnUsdc => exact hspent _
    | payUsdc => exact (hspent _).trans (credit_le _ _ _)
    | _ => exact Nat.le_refl _

end World

/-! ## Runs of others -/

/-- The objects of kind `kind` that `a` owns in `w` are in `w'` as they were, and still its own. -/
def World.Retains (w w' : World) (a : Address) (kind : OwnedKind) {α : Type} [Keyed α ID]
    (objects : World → Store α) : Prop :=
  ∀ k x, (objects w).get? k = some x → w.owner kind k = a →
    (objects w').get? k = some x ∧ w'.owner kind k = a

/-- Address `a` has everything it had, and no deed of it can claim less. -/
structure World.KeepsFor (w w' : World) (a : Address) : Prop where
  usdc : w.wallets.balance a ≤ w'.wallets.balance a
  shares : w.Retains w' a .share World.shares
  coins : w.Retains w' a .coin World.coins
  receipts : w.Retains w' a .soulbound World.receipts
  entityCaps : w.Retains w' a .soulbound World.entityCaps
  validatorCaps : w.Retains w' a .soulbound World.validatorCaps
  treasuryCaps : w.Retains w' a .treasuryCap World.treasuryCaps
  admin : w.admin = a → w'.admin = a
  yield : ∀ s share g acc, w.shares.get? s = some share → w.owner .share s = a →
    w.accumulators.get? g = some acc → share.assetId = acc.assetId →
    ∃ acc' payout payout', w'.accumulators.get? g = some acc' ∧
      pendingPayout acc share = .ok payout ∧ pendingPayout acc' share = .ok payout' ∧
      payout ≤ payout'

namespace World.Retains

variable {w u v : World} {a : Address} {kind : OwnedKind} {α : Type} [Keyed α ID]
variable {objects : World → Store α}

theorem refl : w.Retains w a kind objects := fun _ _ hx hown => ⟨hx, hown⟩

/-- A call of somebody else is made. -/
theorem call {sender : Address} {c : Call} (hr : w.Retains u a kind objects)
    (hbelow : (objects u).Below u.nextId) (h : u.call sender c = .ok v) (hne : sender ≠ a)
    (hspares : (objects u).Spares (fun k => u.owner kind k = a) (objects v)) :
    w.Retains v a kind objects := by
  intro k x hx hown
  obtain ⟨hx', hown'⟩ := hr k x hx hown
  exact ⟨hspares k x hown' hx', owner_kept h hne (hbelow.get?_lt hx') hown'⟩

end World.Retains

/-- What `a` keeps, with the indices of all accumulators in place of its payouts. -/
structure World.Untaken (w u : World) (a : Address) : Prop where
  usdc : w.wallets.balance a ≤ u.wallets.balance a
  shares : w.Retains u a .share World.shares
  coins : w.Retains u a .coin World.coins
  receipts : w.Retains u a .soulbound World.receipts
  entityCaps : w.Retains u a .soulbound World.entityCaps
  validatorCaps : w.Retains u a .soulbound World.validatorCaps
  treasuryCaps : w.Retains u a .treasuryCap World.treasuryCaps
  admin : w.admin = u.admin
  index : w.accumulators.Keeps (fun acc acc' => acc'.assetId = acc.assetId ∧
    acc.cumulativeYieldIndex ≤ acc'.cumulativeYieldIndex) u.accumulators

theorem World.Untaken.call {w u v : World} {a sender : Address} {c : Call} (hw : w.Untaken u a)
    (hu : Reachable u) (hne : sender ≠ a) (h : u.call sender c = .ok v) : w.Untaken v a := by
  have hf := hu.fresh
  obtain ⟨hentity, hvalidator⟩ := World.caps_spared (p := fun k => u.owner .soulbound k = a)
    (q := fun k => u.owner .soulbound k = a) hf h
  -- object by object: what was retained up to now is spared by one more call
  exact {
    usdc := hw.usdc.trans (World.balance_le h hne)
    shares := hw.shares.call hf.shares h hne (World.shares_spared hf h hne)
    coins := hw.coins.call hf.coins h hne (World.coins_spared hf h hne)
    receipts := hw.receipts.call hf.receipts h hne (World.receipts_spared hf h hne)
    entityCaps := hw.entityCaps.call hf.entityCaps h hne hentity
    validatorCaps := hw.validatorCaps.call hf.validatorCaps h hne hvalidator
    treasuryCaps := hw.treasuryCaps.call hf.treasuryCaps h hne (World.treasuryCaps_spared hf h hne)
    admin := hw.admin.trans (hu.call_admin h).symm
    index := by
      intro g acc hacc
      obtain ⟨x, hx, hid, hle⟩ := hw.index g acc hacc
      obtain ⟨y, hy, htouch⟩ := World.call_touchAcc hf h g x hx
      exact ⟨y, hy, htouch.assetId.trans hid, hle.trans htouch.index_le⟩ }

/-- The address signs none of the calls. -/
def CallRule.notBy (a : Address) : CallRule := fun _ sender _ => sender ≠ a

/-- Along a path of others' calls nothing is taken. -/
theorem World.Path.untaken {w u : World} {a : Address} (hw : Reachable w)
    (h : w.Path (.notBy a) u) : w.Untaken u a := by
  refine preserves (P := fun u => w.Untaken u a) hw h ?_ (fun hu hP hne hc => hP.call hu hne hc)
    fun _ hP _ => { hP with }
  exact {
    usdc := Nat.le_refl _
    shares := .refl, coins := .refl, receipts := .refl, entityCaps := .refl
    validatorCaps := .refl, treasuryCaps := .refl, admin := rfl
    index := .refl (fun _ => ⟨rfl, Nat.le_refl _⟩) _ }

/-- The payout of a deed grows with the index. -/
theorem GlobalYieldAccumulator.payout_mono {acc acc' : GlobalYieldAccumulator}
    (h : acc.cumulativeYieldIndex ≤ acc'.cumulativeYieldIndex) (share : GallyShare) :
    acc.payout share ≤ acc'.payout share := by
  apply Nat.div_le_div_right
  exact Nat.mul_le_mul_right _ (Nat.sub_le_sub_right h _)

/-- Whatever the others do, an address that signs nothing keeps everything it owns, and its deeds
    can claim no less. -/
theorem passive_holder_keeps {w w' : World} (hw : Reachable w) {a : Address}
    {actions : List Action} (hothers : ∀ calls, .transaction a calls ∉ actions)
    (hrun : w.run actions = .ok w') : w.KeepsFor w' a := by
  -- the actions of others are a path in which the sender is never the holder
  have hpath : w.Path (.notBy a) w' := by
    refine World.Path.of_run_rule (fun action haction => ?_) hrun
    cases action with
    | tick now => trivial
    | transaction sender calls =>
      intro c _ v hsender
      exact hothers calls (hsender ▸ haction)
  have hkept := hpath.untaken hw
  have hw' := hpath.reachable hw
  exact {
    usdc := hkept.usdc, shares := hkept.shares, coins := hkept.coins
    receipts := hkept.receipts, entityCaps := hkept.entityCaps
    validatorCaps := hkept.validatorCaps, treasuryCaps := hkept.treasuryCaps
    admin := fun ha => hkept.admin ▸ ha
    yield := by
      intro s share g acc hshare hown hacc hasset
      obtain ⟨acc', hacc', hid, hle⟩ := hkept.index g acc hacc
      -- the pending payout of a deed is a function of the index, which only grows
      have hpays := (hw.replay hacc).pays.pending share (World.mem_shares hshare hasset)
      have hmem := World.mem_shares (hkept.shares s share hshare hown).1 (hasset.trans hid.symm)
      have hpays' := (hw'.replay hacc').pays.pending share hmem
      exact ⟨acc', _, _, hacc', hpays, hpays', GlobalYieldAccumulator.payout_mono hle share⟩ }

namespace Sample

/-- The investor holds deed 9. -/
def holding : List Action :=
  operational 1000000 100000 ++ [.transaction 3 [.asset (.claimShares 4 8 6)]]

/-- The entity deposits revenue. -/
def revenue : List Action := [.transaction 2 [.asset (.depositRevenue 4 8 100)]]

end Sample

/-- The deposit of the entity leaves the investor its deed, which can claim 49 units more. -/
theorem passive_holder_keeps_earning : ∃ w w' share acc',
    (World.genesis 0).run Sample.holding = .ok w ∧ w.run Sample.revenue = .ok w' ∧
    w.owner .share 9 = 3 ∧ w.shares.get? 9 = some share ∧ w'.accumulators.get? 8 = some acc' ∧
    pendingPayout acc' share = .ok 49 ∧ w.KeepsFor w' 3 := by
  have hrun : returns ((World.genesis 0).run Sample.holding) (fun w =>
      w.owner .share 9 = 3 ∧ returns (w.run Sample.revenue) (fun w' =>
        (w.shares.get? 9).any fun share => (w'.accumulators.get? 8).any fun acc' =>
          pendingPayout acc' share = .ok 49) = true) = true := by
    decide +kernel
  obtain ⟨w, hw, hq⟩ := returns_iff.mp hrun
  obtain ⟨hown, hlater⟩ := of_decide_eq_true hq
  obtain ⟨w', hw', hq⟩ := returns_iff.mp hlater
  obtain ⟨share, hshare, hq⟩ := (Option.any_eq_true _ _).mp hq
  obtain ⟨acc', hacc', hpayout⟩ := (Option.any_eq_true _ _).mp hq
  refine ⟨w, w', share, acc', hw, hw', hown, hshare, hacc', of_decide_eq_true hpayout, ?_⟩
  exact passive_holder_keeps ⟨0, _, hw⟩ (fun calls => by simp [Sample.revenue]) hw'

/-! ## Capabilities -/

/-- The asset whose `EntityCap` the call uses. -/
def Call.entityOf : Call → Option ID
  | .asset (.cancelUnvouchedByEntity a _) => some a
  | .asset (.submitMilestoneProof a ..) => some a
  | .asset (.releaseFundingTranche a ..) => some a
  | .asset (.closeWindDown a ..) => some a
  | _ => none

/-- The pool whose `ValidatorCap` the call uses. -/
def Call.validatorOf : Call → Option ID
  | .validator (.withdrawStake p ..) => some p
  | .asset (.vouchAssetLegals _ p ..) => some p
  | .asset (.approveMilestone _ p ..) => some p
  | .dispute (.voteOnDispute _ p ..) => some p
  | .dispute (.claimJurorReward _ p _) => some p
  | _ => none

/-- The call uses the `AdminCap`. -/
def Call.isAdmin : Call → Bool
  | .protocol _ | .asset (.closeWindDown ..) | .accumulator (.adminSweepDust _) => true
  | _ => false

/-- The sender is whom the objects of the call name. -/
structure World.Authorizes (w : World) (sender : Address) (c : Call) : Prop where
  entity : ∀ a, c.entityOf = some a →
    ∃ asset, w.assets.get? a = some asset ∧ sender = asset.entity
  validator : ∀ p, c.validatorOf = some p →
    ∃ pool, w.pools.get? p = some pool ∧ sender = pool.validator
  admin : c.isAdmin = true → sender = w.admin

/-- Entities, validators and the admin stay who they are, and every capability stays with its
    owner. -/
structure World.SameAuthorities (w w' : World) : Prop where
  entities : w.assets.Keeps (fun asset asset' => asset'.entity = asset.entity) w'.assets
  validators : w.pools.Keeps (fun pool pool' => pool'.validator = pool.validator) w'.pools
  entityCaps : ∀ k cap, w.entityCaps.get? k = some cap →
    w'.entityCaps.get? k = some cap ∧ w'.owner .soulbound k = w.owner .soulbound k
  validatorCaps : ∀ k cap, w.validatorCaps.get? k = some cap →
    w'.validatorCaps.get? k = some cap ∧ w'.owner .soulbound k = w.owner .soulbound k
  admin : w'.admin = w.admin

/-- A call takes no capability away and hands none over. -/
theorem World.caps_stay {w w' : World} (hf : w.Fresh) {sender : Address} {c : Call}
    (h : w.call sender c = .ok w') :
    (∀ k cap, w.entityCaps.get? k = some cap →
      w'.entityCaps.get? k = some cap ∧ w'.owner .soulbound k = w.owner .soulbound k) ∧
    ∀ k cap, w.validatorCaps.get? k = some cap →
      w'.validatorCaps.get? k = some cap ∧ w'.owner .soulbound k = w.owner .soulbound k := by
  obtain ⟨hentity, hvalidator⟩ := World.caps_spared (p := fun _ => True) (q := fun _ => True) hf h
  constructor
  · intro k cap hcap
    exact ⟨hentity k cap trivial hcap, World.call_owner h (hf.entityCaps.get?_lt hcap)⟩
  · intro k cap hcap
    exact ⟨hvalidator k cap trivial hcap, World.call_owner h (hf.validatorCaps.get?_lt hcap)⟩

/-- One call keeps the authorities as they were. -/
theorem World.SameAuthorities.call {w u v : World} {sender : Address} {c : Call}
    (hs : w.SameAuthorities u) (hu : Reachable u) (h : u.call sender c = .ok v) :
    w.SameAuthorities v where
  entities := by
    intro a asset hasset
    obtain ⟨x, hx, hentity⟩ := hs.entities a asset hasset
    obtain ⟨y, hy, hstep⟩ := World.call_sites hu h a x hx
    refine ⟨y, hy, ?_⟩
    -- a call leaves the asset or takes a step of its life, which keeps its entity
    rcases hstep with heq | hstep
    · rw [show y = x from congrArg Site.asset heq, hentity]
    · exact hstep.entity.trans hentity
  validators := by
    intro p pool hpool
    obtain ⟨x, hx, hvalidator⟩ := hs.validators p pool hpool
    obtain ⟨y, hy, hsame⟩ := World.call_pools hu.fresh h p x hx
    exact ⟨y, hy, hsame.trans hvalidator⟩
  entityCaps := by
    intro k cap hcap
    obtain ⟨hcap', hown⟩ := hs.entityCaps k cap hcap
    obtain ⟨hcap'', hown'⟩ := (World.caps_stay hu.fresh h).1 k cap hcap'
    exact ⟨hcap'', hown'.trans hown⟩
  validatorCaps := by
    intro k cap hcap
    obtain ⟨hcap', hown⟩ := hs.validatorCaps k cap hcap
    obtain ⟨hcap'', hown'⟩ := (World.caps_stay hu.fresh h).2 k cap hcap'
    exact ⟨hcap'', hown'.trans hown⟩
  admin := (hu.call_admin h).trans hs.admin

/-- Along any path the authorities stay what they were. -/
theorem World.Path.authorities {Q : CallRule} {w u : World} (hw : Reachable w) (h : w.Path Q u) :
    w.SameAuthorities u := by
  refine preserves (P := fun u => w.SameAuthorities u) hw h ?_ (fun hu hP _ hc => hP.call hu hc)
    fun _ hP _ => { hP with }
  exact {
    entities := fun _ asset hasset => ⟨asset, hasset, rfl⟩
    validators := fun _ pool hpool => ⟨pool, hpool, rfl⟩
    entityCaps := fun _ _ hcap => ⟨hcap, rfl⟩
    validatorCaps := fun _ _ hcap => ⟨hcap, rfl⟩
    admin := rfl }

/-- A call that needs an authority has it from its sender. -/
theorem Reachable.authorizes {w w' : World} (hw : Reachable w) {sender : Address} {c : Call}
    (h : w.call sender c = .ok w') : w.Authorizes sender c where
  entity := by
    intro a ha
    -- the capability that is shown fixes whose asset it is
    cases c with
    | asset c =>
      cases World.assetCall_eq_ok.mp h with
      | cancelUnvouchedByEntity hasset own hcap belongs =>
        obtain rfl := Option.some.inj ha
        exact ⟨_, hasset, hw.entity_of_cap own hcap hasset belongs⟩
      | submitMilestoneProof hasset own hcap guards =>
        obtain rfl := Option.some.inj ha
        exact ⟨_, hasset, hw.entity_of_cap own hcap hasset guards.cap⟩
      | releaseFundingTranche hasset own hcap guards =>
        obtain rfl := Option.some.inj ha
        exact ⟨_, hasset, hw.entity_of_cap own hcap hasset guards.cap⟩
      | closeWindDown hasset _ _ own hcap belongs =>
        obtain rfl := Option.some.inj ha
        exact ⟨_, hasset, hw.entity_of_cap own hcap hasset belongs⟩
      | _ => cases ha
    | _ => cases ha
  validator := by
    intro p hp
    cases c with
    | validator c =>
      cases World.validatorCall_eq_ok.mp h with
      | withdrawStake hpool own hcap guards =>
        obtain rfl := Option.some.inj hp
        exact ⟨_, hpool, hw.validator_of_cap own hcap hpool guards.cap⟩
      | _ => cases hp
    | asset c =>
      cases World.assetCall_eq_ok.mp h with
      | vouchAssetLegals _ hpool own hcap guards =>
        obtain rfl := Option.some.inj hp
        exact ⟨_, hpool, hw.validator_of_cap own hcap hpool guards.cap⟩
      | approveMilestone _ hpool own hcap guards =>
        obtain rfl := Option.some.inj hp
        exact ⟨_, hpool, hw.validator_of_cap own hcap hpool guards.cap⟩
      | _ => cases hp
    | dispute c =>
      cases World.disputeCall_eq_ok.mp h with
      | voteOnDispute _ hpool own hcap guards =>
        obtain rfl := Option.some.inj hp
        exact ⟨_, hpool, hw.validator_of_cap own hcap hpool guards.cap⟩
      | claimJurorReward _ hpool own hcap _ _ _ run =>
        obtain rfl := Option.some.inj hp
        obtain ⟨-, belongs, -⟩ := claimJurorReward_eq_ok.mp run
        exact ⟨_, hpool, hw.validator_of_cap own hcap hpool belongs⟩
      | _ => cases hp
    | _ => cases hp
  admin := by
    intro ha
    cases c with
    | protocol c => exact (World.protocolCall_eq_ok.mp h).1.symm
    | asset c =>
      cases World.assetCall_eq_ok.mp h with
      | closeWindDown _ _ admin => exact admin.symm
      | _ => cases ha
    | accumulator c =>
      cases World.accumulatorCall_eq_ok.mp h with
      | adminSweepDust admin => exact admin.symm
      | _ => cases ha
    | _ => cases ha

/-- Only the entity of an asset, the validator of a pool and the publisher of the package ever act
    as such, and no run changes who they are. -/
theorem authority_fixed {admin : Address} {actions : List Action} {w : World}
    (hrun : (World.genesis admin).run actions = .ok w) :
    w.admin = admin ∧
    (∀ sender c w', w.call sender c = .ok w' → w.Authorizes sender c) ∧
    ∀ later w', w.run later = .ok w' → w.SameAuthorities w' := by
  have hw : Reachable w := ⟨admin, actions, hrun⟩
  have hgenesis : Reachable (World.genesis admin) := ⟨admin, [], World.run_nil _⟩
  have hadmin := ((World.Path.of_run hrun).authorities hgenesis).admin
  exact ⟨hadmin, fun _ _ _ h => hw.authorizes h,
    fun _ _ hlater => (World.Path.of_run hlater).authorities hw⟩

/-- The release of the first tranche, which only the entity can sign. -/
theorem authority_fixed_approved : ∃ w w' asset,
    (World.genesis 0).run (Sample.approved 1000000 100000) = .ok w ∧
    w.call 2 (.asset (.releaseFundingTranche 4 5 0)) = .ok w' ∧ w.assets.get? 4 = some asset ∧
    2 = asset.entity ∧ w.admin = 0 := by
  have hrun : returns ((World.genesis 0).run (Sample.approved 1000000 100000)) (fun w =>
      returns (w.call 2 (.asset (.releaseFundingTranche 4 5 0))) (fun _ => true)) = true := by
    decide +kernel
  obtain ⟨w, hw, hq⟩ := returns_iff.mp hrun
  obtain ⟨w', hw', -⟩ := returns_iff.mp hq
  obtain ⟨hadmin, hauth, -⟩ := authority_fixed hw
  obtain ⟨asset, hasset, hentity⟩ := (hauth _ _ _ hw').entity 4 rfl
  exact ⟨w, w', asset, hw, hw', hasset, hentity, hadmin⟩

end Gally

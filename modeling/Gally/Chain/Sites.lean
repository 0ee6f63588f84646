import Gally.Chain.Links
import Gally.Chain.Site

/-!
# Calls act on one site at a time

`World.site` cuts an asset with its receipts, deeds and coins out of the world.
`World.call_sites` says that a call leaves the site of every asset alone or takes a
step of it, so whatever `Site.Step` preserves holds of every asset of a reachable
world.
-/

namespace Gally

open Checked

namespace World

/-- The engine of `acc`: what belongs to its asset, and the coins of its token. -/
def engine (w : World) (acc : GlobalYieldAccumulator) : Engine where
  acc
  receipts := w.receipts.group ContributionReceipt.assetId acc.assetId
  shares := w.shares.group GallyShare.assetId acc.assetId
  coins := w.coins.group TokenCoin.token acc.treasuryCap.token

/-- The accumulator an asset points at. -/
def accOf (w : World) (asset : Asset) : Option GlobalYieldAccumulator :=
  asset.accumulatorId.bind w.accumulators.get?

/-- The site of an asset. -/
def site (w : World) (asset : Asset) : Site where
  asset
  receipts := w.receipts.group ContributionReceipt.assetId asset.id
  engine := (w.accOf asset).map w.engine

variable {w w' : World} {sender : Address}

/-- The accumulator of an asset, found through its ID. -/
theorem accOf_eq {asset : Asset} {g : ID} {acc : GlobalYieldAccumulator}
    (hg : asset.accumulatorId = some g) (hacc : w.accumulators.get? g = some acc) :
    w.accOf asset = some acc := by
  simp [accOf, hg, hacc]

/-! ## Updates that concern one asset only -/

/-- Everything that changes between the worlds belongs to asset `a`. -/
structure LocalTo (a : ID) (w w' : World) : Prop where
  assets : ∀ b, b ≠ a → w'.assets.get? b = w.assets.get? b
  accs : ∀ {g acc}, w.accumulators.get? g = some acc → acc.assetId ≠ a →
    w'.accumulators.get? g = some acc
  receipts : ∀ b, b ≠ a → w'.receipts.group ContributionReceipt.assetId b =
    w.receipts.group ContributionReceipt.assetId b
  shares : ∀ b, b ≠ a → w'.shares.group GallyShare.assetId b =
    w.shares.group GallyShare.assetId b
  coins : ∀ {g acc}, w.accumulators.get? g = some acc → acc.assetId ≠ a →
    w'.coins.group TokenCoin.token acc.treasuryCap.token =
      w.coins.group TokenCoin.token acc.treasuryCap.token

namespace LocalTo

variable {a : ID}

/-- A world is local to any asset in itself. -/
theorem refl (a : ID) (w : World) : LocalTo a w w where
  assets _ _ := rfl
  accs h _ := h
  receipts _ _ := rfl
  shares _ _ := rfl
  coins _ _ := rfl

/-- The other sites do not notice. -/
theorem site (h : LocalTo a w w') (hl : w.Linked) {b : ID} {asset : Asset} (hb : b ≠ a)
    (hasset : w.assets.get? b = some asset) :
    w'.assets.get? b = some asset ∧ w'.site asset = w.site asset := by
  obtain rfl : asset.id = b := Store.key_of_get? hasset
  refine ⟨(h.assets _ hb).trans hasset, ?_⟩
  simp only [World.site, Site.mk.injEq, true_and]
  refine ⟨h.receipts _ hb, ?_⟩
  -- the engine of the other site is cut out of stores that did not change there
  cases hg : asset.accumulatorId with
  | none => simp [accOf, hg]
  | some g =>
    obtain ⟨acc, hacc, ha⟩ := hl.acc hasset hg
    have hne : acc.assetId ≠ a := ha ▸ hb
    rw [accOf_eq hg hacc, accOf_eq hg (h.accs hacc hne)]
    simp only [engine, Option.map_some, Option.some.injEq, Engine.mk.injEq, true_and]
    exact ⟨h.receipts _ hne, h.shares _ hne, h.coins hacc hne⟩

end LocalTo

/-- Every site is left alone or takes a step. -/
def Sites (w w' : World) : Prop :=
  ∀ a asset, w.assets.get? a = some asset → ∃ asset', w'.assets.get? a = some asset' ∧
    (w'.site asset' = w.site asset ∨ Site.Step (w.site asset) (w'.site asset'))

/-- It is enough to look at the one site a call concerns. -/
theorem LocalTo.sites {a : ID} (h : LocalTo a w w') (hl : w.Linked)
    (ha : ∀ asset, w.assets.get? a = some asset → ∃ asset', w'.assets.get? a = some asset' ∧
      (w'.site asset' = w.site asset ∨ Site.Step (w.site asset) (w'.site asset'))) :
    Sites w w' := by
  intro b asset hasset
  -- the concerned site by assumption, the others because they see no change
  by_cases hb : b = a
  · exact ha asset (hb ▸ hasset) |>.imp fun _ h => hb ▸ h
  · obtain ⟨hget, hsite⟩ := h.site hl hb hasset
    exact ⟨asset, hget, Or.inl hsite⟩

/-- A world in which no site changed. -/
theorem Sites.of_eq (hl : w.Linked) (h : ∀ a, LocalTo a w w') : Sites w w' := by
  intro b asset hasset
  obtain ⟨hget, hsite⟩ := (h (b + 1)).site hl (Nat.ne_of_lt (Nat.lt_succ_self b)) hasset
  exact ⟨asset, hget, Or.inl hsite⟩

/-! ## Store updates -/

/-- Replacing one asset is not seen under other IDs. -/
theorem putAsset_elsewhere {assets : Store Asset} {a : ID} {asset : Asset} (asset' : Asset)
    (hasset : assets.get? a = some asset) (hid : asset'.id = asset.id) :
    ∀ b, b ≠ a → (assets.put asset').get? b = assets.get? b := by
  intro b hb
  have hkey : Keyed.key asset' = a := hid.trans (Store.key_of_get? hasset)
  exact Store.get?_put_ne (hkey ▸ hb.symm)

/-- Replacing the accumulator of one asset is not seen by other assets. -/
theorem putAcc_elsewhere {accs : Store GlobalYieldAccumulator} {g : ID}
    {acc : GlobalYieldAccumulator} (acc' : GlobalYieldAccumulator)
    (hacc : accs.get? g = some acc) (hid : acc'.id = acc.id) {a : ID} (ha : acc.assetId = a)
    {j : ID} {x : GlobalYieldAccumulator} (hx : accs.get? j = some x) (hne : x.assetId ≠ a) :
    (accs.put acc').get? j = some x := by
  refine (Store.get?_put_ne ?_).trans hx
  have hkey : Keyed.key acc' = g := hid.trans (Store.key_of_get? hacc)
  rw [hkey]
  rintro rfl
  obtain rfl : x = acc := Option.some.inj (hx.symm.trans hacc)
  exact hne ha

/-- Filing an object of `a` where nothing or an object of `a` was. -/
theorem put_elsewhere {α : Type} [Keyed α ID] {s : Store α} {f : α → ID} (x : α) {a : ID}
    (hx : f x = a) (hs : ∀ y, s.get? (Keyed.key x) = some y → f y = a) :
    ∀ b, b ≠ a → (s.put x).group f b = s.group f b :=
  fun _ hb => Store.group_put_ne (hx ▸ hb.symm) fun y hy => hs y hy ▸ hb.symm

/-- Deleting an object of one asset leaves the groups of the others. -/
theorem delete_elsewhere {α : Type} [Keyed α ID] {s : Store α} {f : α → ID} {x : α} {a k : ID}
    (h : s.get? k = some x) (hx : f x = a) : ∀ b, b ≠ a → (s.delete k).group f b = s.group f b :=
  fun _ hb => Store.group_delete_ne h (hx ▸ hb.symm)

/-- Accumulators of different assets custody different tokens. -/
theorem token_ne (hl : w.Linked) {g j : ID} {acc x : GlobalYieldAccumulator}
    (hacc : w.accumulators.get? g = some acc) (hx : w.accumulators.get? j = some x)
    (hne : x.assetId ≠ acc.assetId) : acc.treasuryCap.token ≠ x.treasuryCap.token := by
  intro ht
  obtain rfl := hl.tokens hacc hx ht
  exact hne (congrArg _ (Option.some.inj (hx.symm.trans hacc)))

/-! ## The two ways a call concerns a site -/

/-- The call changes the asset itself. -/
theorem LocalTo.step {a : ID} {asset asset' : Asset} (h : LocalTo a w w') (hl : w.Linked)
    (hasset : w.assets.get? a = some asset) (hasset' : w'.assets.get? a = some asset')
    (hstep : Site.Step (w.site asset) (w'.site asset')) : Sites w w' := by
  refine h.sites hl fun x hx => ?_
  obtain rfl : x = asset := Option.some.inj (hx.symm.trans hasset)
  exact ⟨asset', hasset', Or.inr hstep⟩

/-- The call runs an operation of the engine. -/
theorem LocalTo.exchange {g : ID} {acc : GlobalYieldAccumulator} {acc' : GlobalYieldAccumulator}
    (h : LocalTo acc.assetId w w') (hl : w.Linked) (hacc : w.accumulators.get? g = some acc)
    (hacc' : w'.accumulators.get? g = some acc') (ha : acc'.assetId = acc.assetId)
    (hassets : w'.assets = w.assets) (op : EngineOp) (hop : op.isExchange = true)
    (payouts : List Payout) (happly : (w.engine acc).apply op = .ok (w'.engine acc', payouts)) :
    Sites w w' := by
  obtain ⟨asset, hasset, hg⟩ := hl.asset hacc
  have hid : asset.id = acc.assetId := Store.key_of_get? hasset
  have hsite : w'.site asset = { w.site asset with
      receipts := (w'.engine acc').receipts, engine := some (w'.engine acc') } := by
    simp only [World.site, accOf_eq hg hacc', engine, hid, ha, Option.map_some]
  refine h.step hl hasset (hassets ▸ hasset) (hsite ▸ .exchange ?_ hop happly)
  simp only [World.site, accOf_eq hg hacc, Option.map_some]

/-- The call changes coins of one token, by an operation of the engine if the token is
    custodied. -/
theorem Sites.of_coins (hl : w.Linked) {t : TypeTag} (hassets : w'.assets = w.assets)
    (haccs : w'.accumulators = w.accumulators) (hreceipts : w'.receipts = w.receipts)
    (hshares : w'.shares = w.shares)
    (hother : ∀ u, u ≠ t → w'.coins.group TokenCoin.token u = w.coins.group TokenCoin.token u)
    (hop : ∀ {g acc}, w.accumulators.get? g = some acc → acc.treasuryCap.token = t →
      ∃ op : EngineOp, op.isExchange = true ∧
        (w.engine acc).apply op = .ok (w'.engine acc, [])) :
    Sites w w' := by
  have hlocal : ∀ a, (∀ {g acc}, w.accumulators.get? g = some acc → acc.assetId ≠ a →
      acc.treasuryCap.token ≠ t) → LocalTo a w w' := fun a ha =>
    { assets _ _ := by rw [hassets]
      accs h _ := by rw [haccs, h]
      receipts _ _ := by rw [hreceipts]
      shares _ _ := by rw [hshares]
      coins h hne := hother _ (ha h hne) }
  -- a custodied token has one engine, a free one none
  by_cases hex : ∃ g acc, w.accumulators.get? g = some acc ∧ acc.treasuryCap.token = t
  · obtain ⟨g, acc, hacc, rfl⟩ := hex
    obtain ⟨op, hexch, happly⟩ := hop hacc rfl
    have hloc := hlocal acc.assetId fun hx hne => (token_ne hl hacc hx hne).symm
    exact hloc.exchange hl hacc (haccs ▸ hacc) rfl hassets op hexch [] happly
  · refine Sites.of_eq hl fun a => hlocal a fun hx _ ht => hex ⟨_, _, hx, ht⟩

/-! ## Every call -/

/-- A call that only replaces the asset itself. -/
theorem Sites.of_asset (hl : w.Linked) {a : ID} {asset : Asset} (asset' : Asset)
    (hasset : w.assets.get? a = some asset) (hid : asset'.id = asset.id)
    (hassets : w'.assets = w.assets.put asset') (haccs : w'.accumulators = w.accumulators)
    (hreceipts : w'.receipts = w.receipts) (hshares : w'.shares = w.shares)
    (hcoins : w'.coins = w.coins)
    (hstep : Site.Step (w.site asset) (w'.site asset')) : Sites w w' := by
  have hkey : Keyed.key asset' = a := hid.trans (Store.key_of_get? hasset)
  -- only the asset itself was replaced
  have hloc : LocalTo a w w' :=
    { assets := hassets ▸ putAsset_elsewhere asset' hasset hid
      accs h _ := haccs ▸ h
      receipts _ _ := by rw [hreceipts]
      shares _ _ := by rw [hshares]
      coins _ _ := by rw [hcoins] }
  refine hloc.step hl hasset ?_ hstep
  rw [hassets, ← hkey, Store.get?_put_self]

/-- A listing touches no site that exists. -/
theorem listed_sites (hl : w.Linked) (hf : w.Fresh) {asset : Asset} {cap : EntityCap}
    {collateral now : ℕ} {events : List Event}
    (h : asset.CreatedBy cap sender collateral now w.nextId (w.nextId + 1)) :
    Sites w (w.listed sender collateral asset cap events) := by
  have hfresh : w.assets.get? w.nextId = none := hf.assets.get?_eq_none (Nat.lt_irrefl _)
  have hloc : LocalTo w.nextId w (w.listed sender collateral asset cap events) :=
    { LocalTo.refl w.nextId w with
      assets := fun b hb => Store.get?_put_ne
        ((show Keyed.key asset = w.nextId from h.id) ▸ hb.symm) }
  exact hloc.sites hl fun x hx => absurd (hfresh.symm.trans hx) (by simp)

/-- An asset has no accumulator before its raise is finalized. -/
theorem Linked.accumulatorId_eq_none (hl : w.Linked) {a : ID} {asset : Asset}
    (hasset : w.assets.get? a = some asset) (hst : asset.state.isFinalized = false) :
    asset.accumulatorId = none := by
  simpa [hst] using hl.staged hasset

/-- Before the raise is finalized there is no engine. -/
theorem site_raising {asset : Asset} (h : asset.accumulatorId = none) :
    w.site asset = ⟨asset, w.receipts.group ContributionReceipt.assetId asset.id, none⟩ := by
  simp only [site, accOf, h, Option.bind_none, Option.map_none]

/-- What `hl.asset` says about an accumulator that passed `assertAsset`. -/
theorem Linked.accumulatorId (hl : w.Linked) {a g : ID} {asset : Asset}
    {acc : GlobalYieldAccumulator} (hasset : w.assets.get? a = some asset)
    (hacc : w.accumulators.get? g = some acc) (ha : acc.assetId = asset.id) :
    asset.accumulatorId = some g := by
  obtain ⟨x, hx, hg⟩ := hl.asset hacc
  have hself : w.assets.get? asset.id = some asset := Store.get?_key (Store.mem_of_get? hasset)
  rw [ha, hself] at hx
  rwa [← Option.some.inj hx] at hg

/-- The engine of a site is that of the asset's accumulator. -/
theorem site_engine {asset : Asset} {g : ID} {acc : GlobalYieldAccumulator}
    (hg : asset.accumulatorId = some g) (hacc : w.accumulators.get? g = some acc) :
    (w.site asset).engine = some (w.engine acc) := by
  simp only [site, accOf_eq hg hacc, Option.map_some]

/-- A call that replaces the asset and its accumulator. -/
theorem Sites.of_both (hl : w.Linked) {a g : ID} {asset : Asset} {acc : GlobalYieldAccumulator}
    (asset' : Asset) (acc' : GlobalYieldAccumulator) (hasset : w.assets.get? a = some asset)
    (hacc : w.accumulators.get? g = some acc) (ha : acc.assetId = asset.id)
    (hid : asset'.id = asset.id) (hg : asset'.accumulatorId = asset.accumulatorId)
    (hid' : acc'.id = acc.id) (ha' : acc'.assetId = acc.assetId)
    (ht' : acc'.treasuryCap.token = acc.treasuryCap.token)
    (hassets : w'.assets = w.assets.put asset')
    (haccs : w'.accumulators = w.accumulators.put acc') (hreceipts : w'.receipts = w.receipts)
    (hshares : w'.shares = w.shares) (hcoins : w'.coins = w.coins)
    (hstep : Site.Step (w.site asset) { w.site asset with
      asset := asset', engine := some { w.engine acc with acc := acc' } }) : Sites w w' := by
  obtain rfl : asset.id = a := Store.key_of_get? hasset
  have hown := hl.accumulatorId hasset hacc ha
  -- the pair as the new world files it
  have hget : w'.accumulators.get? g = some acc' := by
    rw [haccs, ← show Keyed.key acc' = g from hid'.trans (Store.key_of_get? hacc),
      Store.get?_put_self]
  have hsite : w'.site asset' = { w.site asset with
      asset := asset', engine := some { w.engine acc with acc := acc' } } := by
    simp only [site, accOf_eq (hg.trans hown) hget, hid, hreceipts, engine, hshares, hcoins, ha',
      ht', Option.map_some]
  have hloc : LocalTo asset.id w w' :=
    { assets := hassets ▸ putAsset_elsewhere asset' hasset hid
      accs hx hne := haccs ▸ putAcc_elsewhere acc' hacc hid' ha hx hne
      receipts _ _ := by rw [hreceipts]
      shares _ _ := by rw [hshares]
      coins _ _ := by rw [hcoins] }
  refine hloc.step hl hasset ?_ (hsite ▸ hstep)
  rw [hassets, ← show Keyed.key asset' = asset.id from hid, Store.get?_put_self]

/-- A close is a step of the asset's site. -/
theorem closing_sites (hl : w.Linked) {a g : ID} {asset : Asset}
    {acc : GlobalYieldAccumulator} {reason : CloseReason} {events : List Event}
    (hasset : w.assets.get? a = some asset) (hacc : w.accumulators.get? g = some acc)
    (guards : CloseGuards asset acc reason) : Sites w (w.closing asset acc events) :=
  .of_both hl asset.closed (markClosed acc) hasset hacc guards.linked rfl rfl rfl rfl rfl rfl rfl
    rfl rfl rfl (.close (site_engine (hl.accumulatorId hasset hacc guards.linked) hacc) guards)

/-- A contribution is a step of the asset's site. -/
theorem contributeCapital_sites (hl : w.Linked) (hf : w.Fresh) {a : ID} {asset : Asset}
    {payment : ℕ} {owner : OwnedKind → ID → Address} {wallets : Wallets} {events : List Event}
    (hasset : w.assets.get? a = some asset)
    (guards : ContributeGuards asset w.config w.clockMs payment) :
    Sites w { w with
      nextId := w.nextId + 1
      assets := w.assets.put (asset.afterContribution (asset.accepts payment))
      receipts := w.receipts.put ⟨w.nextId, asset.id, asset.accepts payment⟩
      owner, wallets, events } := by
  obtain rfl : asset.id = a := Store.key_of_get? hasset
  have hfresh : w.receipts.get? w.nextId = none := hf.receipts.get?_eq_none (Nat.lt_irrefl _)
  have hloc : LocalTo asset.id w { w with
      assets := w.assets.put (asset.afterContribution (asset.accepts payment))
      receipts := w.receipts.put ⟨w.nextId, asset.id, asset.accepts payment⟩ } :=
    { LocalTo.refl asset.id w with
      assets := putAsset_elsewhere _ hasset rfl
      receipts := put_elsewhere (⟨w.nextId, asset.id, asset.accepts payment⟩ :
        ContributionReceipt) rfl fun y hy => absurd (hfresh.symm.trans hy) (by simp) }
  -- the receipts of the asset grow by the new one
  have hgroup : (w.receipts.put ⟨w.nextId, asset.id, asset.accepts payment⟩).group
      ContributionReceipt.assetId asset.id = (w.receipts.group ContributionReceipt.assetId
        asset.id).put ⟨w.nextId, asset.id, asset.accepts payment⟩ := Store.group_put rfl
  refine LocalTo.step { hloc with } hl hasset
    (Store.get?_put_self _ (asset.afterContribution (asset.accepts payment))) ?_
  have hnone := hl.accumulatorId_eq_none hasset (guards.state ▸ rfl)
  rw [site_raising hnone, @site_raising _ (asset.afterContribution _) hnone]
  exact hgroup ▸ .contribute guards (Store.get?_group_eq_none hfresh)

/-- A finalized raise is a step of the asset's site, and gives it its engine. -/
theorem finalizeSuccessfulRaise_sites (hl : w.Linked) (hf : w.Fresh) (hi : w.Issued) {a : ID}
    {asset : Asset} {token : TypeTag} {cap : TreasuryCap} {metadata : CoinMetadata}
    {events : List Event} (hasset : w.assets.get? a = some asset)
    (hcap : w.treasuryCaps.get? token = some cap)
    (guards : FinalizeGuards asset w.config cap metadata w.clockMs) :
    Sites w { w with
      nextId := w.nextId + 1
      assets := w.assets.put (asset.finalized w.nextId)
      accumulators := w.accumulators.put (asset.newAccumulator cap w.nextId)
      treasuryCaps := w.treasuryCaps.delete token
      events } := by
  obtain rfl : asset.id = a := Store.key_of_get? hasset
  obtain rfl : cap.token = token := Store.key_of_get? hcap
  have hfresh : w.accumulators.get? w.nextId = none :=
    hf.accumulators.get?_eq_none (Nat.lt_irrefl _)
  -- the new identifier hides no accumulator
  have hkeep : ∀ {g acc}, w.accumulators.get? g = some acc →
      (w.accumulators.put (asset.newAccumulator cap w.nextId)).get? g = some acc := by
    intro g acc hacc
    refine (Store.get?_put_ne ?_).trans hacc
    rintro rfl
    exact absurd (hfresh.symm.trans hacc) (by simp)
  have hloc : LocalTo asset.id w { w with
      assets := w.assets.put (asset.finalized w.nextId)
      accumulators := w.accumulators.put (asset.newAccumulator cap w.nextId) } :=
    { LocalTo.refl asset.id w with
      assets := putAsset_elsewhere _ hasset rfl
      accs := fun hacc _ => hkeep hacc }
  refine LocalTo.step { hloc with } hl hasset
    (Store.get?_put_self _ (asset.finalized w.nextId)) ?_
  have hnone := hl.accumulatorId_eq_none hasset (guards.state ▸ rfl)
  -- no deed belongs to the asset before it has an accumulator
  have hshares : w.shares.group GallyShare.assetId asset.id = ∅ := by
    refine Store.eq_empty fun share hs => ?_
    obtain ⟨hmem, hs⟩ := Store.mem_group.mp hs
    obtain ⟨g, acc, hacc, ha⟩ := hl.deeds share hmem
    simp [hl.accumulatorId hasset hacc (ha.trans hs)] at hnone
  rw [site_raising hnone, site, @accOf_eq _ _ _ (asset.newAccumulator cap w.nextId) rfl
    (Store.get?_put_self _ (asset.newAccumulator cap w.nextId))]
  exact .finalize guards rfl rfl hshares ((hi _ cap hcap).trans guards.virgin)

/-- A refund is a step of the asset's site. -/
theorem refundContribution_sites (hl : w.Linked) {a r : ID} {asset : Asset}
    {receipt : ContributionReceipt} {wallets : Wallets} {events : List Event}
    (hasset : w.assets.get? a = some asset) (hreceipt : w.receipts.get? r = some receipt)
    (guards : RefundGuards asset w.config receipt) :
    Sites w { w with
      assets := w.assets.put (asset.afterRefund receipt.amount)
      receipts := w.receipts.delete r
      wallets, events } := by
  obtain rfl : asset.id = a := Store.key_of_get? hasset
  obtain rfl : receipt.id = r := Store.key_of_get? hreceipt
  have hloc : LocalTo asset.id w { w with
      assets := w.assets.put (asset.afterRefund receipt.amount)
      receipts := w.receipts.delete receipt.id } :=
    { LocalTo.refl asset.id w with
      assets := putAsset_elsewhere _ hasset rfl
      receipts := delete_elsewhere hreceipt guards.belongs }
  refine LocalTo.step { hloc with } hl hasset
    (Store.get?_put_self _ (asset.afterRefund receipt.amount)) ?_
  have hnone := hl.accumulatorId_eq_none hasset (guards.state ▸ rfl)
  rw [site_raising hnone, @site_raising _ (asset.afterRefund _) hnone]
  -- the receipt leaves the store and with it the group of the asset
  have hgroup : (w.receipts.delete receipt.id).group ContributionReceipt.assetId asset.id =
      (w.receipts.group ContributionReceipt.assetId asset.id).delete receipt.id :=
    Store.group_delete
  exact hgroup ▸ .refund (Store.get?_group hreceipt guards.belongs) guards

/-- The conversion of a receipt is an exchange at the asset's site. -/
theorem claimShares_sites (hl : w.Linked) (hf : w.Fresh) {g r : ID}
    {acc : GlobalYieldAccumulator} {receipt : ContributionReceipt}
    {owner : OwnedKind → ID → Address} {events : List Event}
    (hacc : w.accumulators.get? g = some acc) (hreceipt : w.receipts.get? r = some receipt)
    (belongs : receipt.assetId = acc.assetId) :
    Sites w { w with
      nextId := w.nextId + 1
      receipts := w.receipts.delete r
      shares := w.shares.put (receipt.deed w.nextId acc.cumulativeYieldIndex w.clockMs)
      owner, events } := by
  have hfresh : w.shares.get? w.nextId = none := hf.shares.get?_eq_none (Nat.lt_irrefl _)
  have hloc : LocalTo acc.assetId w { w with
      receipts := w.receipts.delete r
      shares := w.shares.put (receipt.deed w.nextId acc.cumulativeYieldIndex w.clockMs) } :=
    { LocalTo.refl acc.assetId w with
      receipts := delete_elsewhere hreceipt belongs
      shares := put_elsewhere (receipt.deed w.nextId acc.cumulativeYieldIndex w.clockMs) belongs
        fun y hy => absurd (hfresh.symm.trans hy) (by simp) }
  -- conversion is an operation of the engine, not of the asset
  refine LocalTo.exchange { hloc with } hl hacc hacc rfl rfl (.claimShares r w.nextId
    w.clockMs) rfl [] ?_
  have hgroup : (w.shares.put (receipt.deed w.nextId acc.cumulativeYieldIndex w.clockMs)).group
      GallyShare.assetId acc.assetId = (w.shares.group GallyShare.assetId acc.assetId).put
        (receipt.deed w.nextId acc.cumulativeYieldIndex w.clockMs) := Store.group_put belongs
  refine (Engine.apply_eq_ok.mpr (.claimShares (Store.get?_group hreceipt belongs) belongs
    (Store.get?_group_eq_none hfresh))).trans ?_
  simp only [engine, Store.group_delete, hgroup]

/-- A default is a step of the asset's site. -/
theorem flagDefault_sites (hl : w.Linked) {a g : ID} {asset : Asset}
    {acc : GlobalYieldAccumulator} {t : Tranche} {events : List Event}
    (hasset : w.assets.get? a = some asset) (hacc : w.accumulators.get? g = some acc)
    (guards : DefaultGuards asset acc w.config w.clockMs t) :
    Sites w { w with
      assets := w.assets.put asset.seized
      accumulators := w.accumulators.put (acc.compensated
        (asset.entityCollateral + asset.escrow) (w.clockMs + w.config.compensationGraceMs))
      events } :=
  .of_both hl asset.seized (acc.compensated (asset.entityCollateral + asset.escrow)
    (w.clockMs + w.config.compensationGraceMs)) hasset hacc guards.linked rfl rfl rfl rfl rfl rfl
    rfl rfl rfl rfl
    (.default (site_engine (hl.accumulatorId hasset hacc guards.linked) hacc) guards)

/-- A deposit of revenue is an exchange at the asset's site. -/
theorem depositRevenue_sites (hl : w.Linked) {g : ID} {acc acc' : GlobalYieldAccumulator}
    {funds : ℕ} {wallets : Wallets} {events : List Event}
    (hacc : w.accumulators.get? g = some acc) (deposited : Deposited acc funds acc') :
    Sites w { w with accumulators := w.accumulators.put acc', wallets, events } := by
  have hframe := deposited.routed.frame
  have hkey : Keyed.key acc' = g := hframe.id.trans (Store.key_of_get? hacc)
  have hloc : LocalTo acc.assetId w { w with accumulators := w.accumulators.put acc' } :=
    { LocalTo.refl acc.assetId w with accs := putAcc_elsewhere acc' hacc hframe.id rfl }
  -- for the engine a deposit is its investor portion
  refine LocalTo.exchange { hloc with } hl hacc (hkey ▸ Store.get?_put_self _ _) hframe.assetId
    rfl (.addRevenue funds) rfl [] ?_
  refine (Engine.apply_eq_ok.mpr (.addRevenue deposited)).trans ?_
  simp only [engine, hframe.assetId, hframe.cap]
  rfl

/-- Every asset call is a step of the site of its asset and of no other. -/
theorem assetStep_sites (hl : w.Linked) (hf : w.Fresh) (hi : w.Issued) {c : AssetCall}
    (h : AssetStep w sender c w') : Sites w w' := by
  cases h with
  | createAsset _ created => exact listed_sites hl hf created
  | createTermAsset _ created => exact listed_sites hl hf created
  | @cancelUnvouchedByEntity _ _ asset _ _ hasset _ _ _ state =>
    exact Sites.of_asset hl asset.cancelled hasset rfl rfl rfl rfl rfl rfl (.cancel state)
  | @cancelUnvouchedTimeout _ asset _ hasset state =>
    exact Sites.of_asset hl asset.cancelled hasset rfl rfl rfl rfl rfl rfl (.cancel state)
  -- the calls before the finalize and about tranches only replace the asset
  | @vouchAssetLegals _ _ _ docs asset pool _ _ hasset _ _ _ guards =>
    exact Sites.of_asset hl (asset.vouched pool.id (asset.coverageFor w.config) docs) hasset
      rfl rfl rfl rfl rfl rfl (.vouch guards)
  | @contributeCapital _ payment asset _ hasset _ guards =>
    exact contributeCapital_sites hl hf hasset guards
  | @finalizeSuccessfulRaise _ token asset cap metadata _ hasset _ hcap _ guards =>
    exact finalizeSuccessfulRaise_sites hl hf hi hasset hcap guards
  | @abortFailedRaise _ _ asset _ _ hasset _ guards =>
    exact Sites.of_asset hl asset.failed hasset rfl rfl rfl rfl rfl rfl (.abort guards)
  | @refundContribution _ r asset receipt _ hasset _ hreceipt guards =>
    exact refundContribution_sites hl hasset hreceipt guards
  | @claimShares _ g r asset acc receipt _ _ hacc _ hreceipt _ linked belongs =>
    exact claimShares_sites hl hf hacc hreceipt (belongs.trans linked.symm)
  | @submitMilestoneProof _ _ i proof asset _ t _ hasset _ _ guards =>
    exact Sites.of_asset hl (asset.withTranche i.val { t with proof := some proof }) hasset
      rfl rfl rfl rfl rfl rfl (.prove guards)
  | @approveMilestone _ _ _ i asset _ _ t _ hasset _ _ _ guards =>
    exact Sites.of_asset hl (asset.withTranche i.val { t with approvedBy := some sender }) hasset
      rfl rfl rfl rfl rfl rfl (.approve guards)
  | @releaseFundingTranche _ _ _ asset _ t _ hasset _ _ guards =>
    exact Sites.of_asset hl (asset.afterTranche t) hasset rfl rfl rfl rfl rfl rfl (.release guards)
  | @releaseVouchCoverage _ _ asset _ hasset _ guards =>
    exact Sites.of_asset hl (clearCoverage asset) hasset rfl rfl rfl rfl rfl rfl (.uncover guards)
  -- from the finalize on the accumulator takes part
  | flagDefault hasset hacc guards => exact flagDefault_sites hl hasset hacc guards
  | depositRevenue _ hacc _ _ deposited => exact depositRevenue_sites hl hacc deposited
  | closeAtReturnTarget hasset hacc guards => exact closing_sites hl hasset hacc guards
  | closeAfterCompensation hasset hacc guards => exact closing_sites hl hasset hacc guards
  | closeWindDown hasset hacc _ _ _ _ guards => exact closing_sites hl hasset hacc guards

/-! ## Calls that claim

What such a call returns on its deeds is what it credits to the sender. -/

/-- A claim of rewards in the world is the one of the engine. -/
theorem claimRewards_apply {k : ID} {acc : GlobalYieldAccumulator} {share : GallyShare}
    {accumulators : Store GlobalYieldAccumulator} {wallets : Wallets} {events : List Event}
    (hshare : w.shares.get? k = some share) (guards : ClaimGuards acc share) :
    (w.engine acc).apply (.claimRewards k 0) = .ok (World.engine { w with
      accumulators, shares := w.shares.put (share.settledAt acc.cumulativeYieldIndex)
      wallets, events } (acc.afterClaim share), [⟨k, acc.payout share⟩]) := by
  -- the deed stays in the group of its asset
  have hgroup : (w.shares.put (share.settledAt acc.cumulativeYieldIndex)).group
      GallyShare.assetId acc.assetId = (w.shares.group GallyShare.assetId acc.assetId).put
        (share.settledAt acc.cumulativeYieldIndex) := Store.group_put guards.asset
  refine (Engine.apply_eq_ok.mpr
    (.claimRewards (Store.get?_group hshare guards.asset) guards)).trans ?_
  exact congrArg (fun shares => Except.ok (Engine.mk _ _ shares _, _)) hgroup.symm

/-- A claim of rewards is an exchange at the asset's site. -/
theorem claimRewards_sites (hl : w.Linked) {g k : ID} {acc : GlobalYieldAccumulator}
    {share : GallyShare} {wallets : Wallets} {events : List Event}
    (hacc : w.accumulators.get? g = some acc) (hshare : w.shares.get? k = some share)
    (guards : ClaimGuards acc share) :
    Sites w { w with
      accumulators := w.accumulators.put (acc.afterClaim share)
      shares := w.shares.put (share.settledAt acc.cumulativeYieldIndex)
      wallets, events } := by
  obtain rfl : acc.id = g := Store.key_of_get? hacc
  obtain rfl : share.id = k := Store.key_of_get? hshare
  have hloc : LocalTo acc.assetId w { w with
      accumulators := w.accumulators.put (acc.afterClaim share)
      shares := w.shares.put (share.settledAt acc.cumulativeYieldIndex) } :=
    { LocalTo.refl acc.assetId w with
      accs := putAcc_elsewhere (acc.afterClaim share) hacc rfl rfl
      shares := put_elsewhere (share.settledAt acc.cumulativeYieldIndex) guards.asset fun y hy =>
        Option.some.inj (hshare.symm.trans hy) ▸ guards.asset }
  -- who claims is immaterial to the engine, so any address will do
  exact LocalTo.exchange { hloc with } hl hacc (Store.get?_put_self _ (acc.afterClaim share))
    rfl rfl (.claimRewards share.id 0) rfl _ (claimRewards_apply hshare guards)

/-- A call that only replaces the accumulator, by one the engine can produce itself. -/
theorem Sites.of_acc (hl : w.Linked) {g : ID} {acc : GlobalYieldAccumulator}
    (acc' : GlobalYieldAccumulator) (hacc : w.accumulators.get? g = some acc)
    (hid : acc'.id = acc.id) (ha : acc'.assetId = acc.assetId)
    (ht : acc'.treasuryCap = acc.treasuryCap) (hassets : w'.assets = w.assets)
    (haccs : w'.accumulators = w.accumulators.put acc') (hreceipts : w'.receipts = w.receipts)
    (hshares : w'.shares = w.shares) (hcoins : w'.coins = w.coins) (op : EngineOp)
    (hop : op.isExchange = true)
    (happly : (w.engine acc).apply op = .ok ({ w.engine acc with acc := acc' }, [])) :
    Sites w w' := by
  have hkey : Keyed.key acc' = g := hid.trans (Store.key_of_get? hacc)
  have hloc : LocalTo acc.assetId w w' :=
    { assets _ _ := by rw [hassets]
      accs hx hne := haccs ▸ putAcc_elsewhere acc' hacc hid rfl hx hne
      receipts _ _ := by rw [hreceipts]
      shares _ _ := by rw [hshares]
      coins _ _ := by rw [hcoins] }
  have hget : w'.accumulators.get? g = some acc' := by
    rw [haccs, ← hkey, Store.get?_put_self]
  -- only the accumulator of the engine changes
  have hengine : w'.engine acc' = { w.engine acc with acc := acc' } := by
    simp only [engine, hreceipts, hshares, hcoins, ha, ht]
  exact hloc.exchange hl hacc hget ha hassets op hop [] (hengine ▸ happly)

/-- A wrap in the world is the one of the engine. -/
theorem wrapShares_apply (hf : w.Fresh) {k : ID} {acc : GlobalYieldAccumulator}
    {share : GallyShare} {nextId : ID} {accumulators : Store GlobalYieldAccumulator}
    {owner : OwnedKind → ID → Address} {wallets : Wallets} {events : List Event}
    (hshare : w.shares.get? k = some share) (guards : WrapGuards acc w.config share w.clockMs) :
    (w.engine acc).apply (.wrapShares w.config k w.clockMs 0 w.nextId) =
      .ok (World.engine { w with
        nextId, accumulators, shares := w.shares.delete k
        coins := w.coins.put ⟨w.nextId, acc.treasuryCap.token, share.shareCount⟩
        owner, wallets, events } (acc.afterWrap share), [⟨k, acc.payout share⟩]) := by
  have hfresh : w.coins.get? w.nextId = none := hf.coins.get?_eq_none (Nat.lt_irrefl _)
  -- the deed leaves its group, and the coin enters that of the custodied token
  have hshares : (w.shares.delete k).group GallyShare.assetId acc.assetId =
      (w.shares.group GallyShare.assetId acc.assetId).delete k := Store.group_delete
  have hcoins : (w.coins.put ⟨w.nextId, acc.treasuryCap.token, share.shareCount⟩).group
      TokenCoin.token acc.treasuryCap.token = (w.coins.group TokenCoin.token
        acc.treasuryCap.token).put ⟨w.nextId, acc.treasuryCap.token, share.shareCount⟩ :=
    Store.group_put rfl
  refine (Engine.apply_eq_ok.mpr (.wrapShares (Store.get?_group hshare guards.claim.asset)
    (Store.get?_group_eq_none hfresh) guards)).trans ?_
  exact congrArg₂ (fun shares coins => Except.ok (Engine.mk _ _ shares coins, _)) hshares.symm
    hcoins.symm

/-- A wrap is an exchange at the asset's site. -/
theorem wrapShares_sites (hl : w.Linked) (hf : w.Fresh) {g k : ID}
    {acc : GlobalYieldAccumulator} {share : GallyShare} {owner : OwnedKind → ID → Address}
    {wallets : Wallets} {events : List Event} (hacc : w.accumulators.get? g = some acc)
    (hshare : w.shares.get? k = some share) (guards : WrapGuards acc w.config share w.clockMs) :
    Sites w { w with
      nextId := w.nextId + 1
      accumulators := w.accumulators.put (acc.afterWrap share)
      shares := w.shares.delete k
      coins := w.coins.put ⟨w.nextId, acc.treasuryCap.token, share.shareCount⟩
      owner, wallets, events } := by
  obtain rfl : acc.id = g := Store.key_of_get? hacc
  have hfresh : w.coins.get? w.nextId = none := hf.coins.get?_eq_none (Nat.lt_irrefl _)
  -- the coin is of a token that belongs to this accumulator alone
  have hloc : LocalTo acc.assetId w { w with
      accumulators := w.accumulators.put (acc.afterWrap share)
      shares := w.shares.delete k
      coins := w.coins.put ⟨w.nextId, acc.treasuryCap.token, share.shareCount⟩ } :=
    { LocalTo.refl acc.assetId w with
      accs := putAcc_elsewhere (acc.afterWrap share) hacc rfl rfl
      shares := delete_elsewhere hshare guards.claim.asset
      coins := fun hx hne => Store.group_put_ne (token_ne hl hacc hx hne) fun y hy =>
        absurd (hfresh.symm.trans hy) (by simp) }
  exact LocalTo.exchange { hloc with } hl hacc (Store.get?_put_self _ (acc.afterWrap share))
    rfl rfl (.wrapShares w.config k w.clockMs 0 w.nextId) rfl _ (wrapShares_apply hf hshare guards)

/-- An unwrap is an exchange at the asset's site. -/
theorem unwrapCoins_sites (hl : w.Linked) (hf : w.Fresh) {g k : ID}
    {acc acc' : GlobalYieldAccumulator} {coin : TokenCoin} {swept : List Event}
    {owner : OwnedKind → ID → Address} {events : List Event}
    (hacc : w.accumulators.get? g = some acc) (hcoin : w.coins.get? k = some coin)
    (token : coin.token = acc.treasuryCap.token) (guards : UnwrapGuards acc coin)
    (sweep : AutoSwept (acc.afterBurn coin.value) acc' swept) :
    Sites w { w with
      nextId := w.nextId + 1
      accumulators := w.accumulators.put acc'
      coins := w.coins.delete k
      shares := w.shares.put (acc.freshShare w.nextId coin.value w.clockMs)
      owner, events } := by
  have hframe := sweep.frame
  have hkey : Keyed.key acc' = g := hframe.id.trans (Store.key_of_get? hacc)
  have ha : acc'.assetId = acc.assetId := hframe.assetId
  have ht : acc'.treasuryCap.token = acc.treasuryCap.token := by rw [hframe.cap]; rfl
  have hfresh : w.shares.get? w.nextId = none := hf.shares.get?_eq_none (Nat.lt_irrefl _)
  have hloc : LocalTo acc.assetId w { w with
      accumulators := w.accumulators.put acc'
      coins := w.coins.delete k
      shares := w.shares.put (acc.freshShare w.nextId coin.value w.clockMs) } :=
    { LocalTo.refl acc.assetId w with
      accs := putAcc_elsewhere acc' hacc hframe.id rfl
      shares := put_elsewhere (acc.freshShare w.nextId coin.value w.clockMs) rfl fun y hy =>
        absurd (hfresh.symm.trans hy) (by simp)
      coins := fun hx hne => Store.group_delete_ne hcoin (token ▸ token_ne hl hacc hx hne) }
  -- the other way round
  have hshares : (w.shares.put (acc.freshShare w.nextId coin.value w.clockMs)).group
      GallyShare.assetId acc.assetId = (w.shares.group GallyShare.assetId acc.assetId).put
        (acc.freshShare w.nextId coin.value w.clockMs) := Store.group_put rfl
  have hcoins : (w.coins.delete k).group TokenCoin.token acc.treasuryCap.token =
      (w.coins.group TokenCoin.token acc.treasuryCap.token).delete k := Store.group_delete
  refine LocalTo.exchange { hloc with } hl hacc (hkey ▸ Store.get?_put_self _ acc') ha rfl
    (.unwrapCoins k w.clockMs 0 w.nextId) rfl [] ?_
  refine (Engine.apply_eq_ok.mpr (.unwrapCoins (Store.get?_group hcoin token)
    (Store.get?_group_eq_none hfresh) guards sweep)).trans ?_
  simp only [engine, ha, ht, hshares, hcoins]

/-- A merge in the world is the one of the engine. -/
theorem mergeShares_apply {t v : ID} {acc : GlobalYieldAccumulator} {target victim : GallyShare}
    {accumulators : Store GlobalYieldAccumulator} {wallets : Wallets} {events : List Event}
    (htarget : w.shares.get? t = some target) (hvictim : w.shares.get? v = some victim)
    (distinct : t ≠ v) (guards : MergeGuards acc target victim) :
    (w.engine acc).apply (.mergeShares t v 0) = .ok (World.engine { w with
      accumulators
      shares := (w.shares.delete v).put (target.mergedWith victim acc.cumulativeYieldIndex)
      wallets, events } ((acc.afterClaim target).afterClaim victim),
      [⟨t, acc.payout target + acc.payout victim⟩]) := by
  have ht : target.assetId = acc.assetId := guards.claim.asset
  -- the victim leaves the group of the asset, the target stays in it
  have hgroup : ((w.shares.delete v).put
      (target.mergedWith victim acc.cumulativeYieldIndex)).group GallyShare.assetId acc.assetId =
      ((w.shares.group GallyShare.assetId acc.assetId).delete v).put
        (target.mergedWith victim acc.cumulativeYieldIndex) := by
    rw [← Store.group_delete]
    exact Store.group_put ht
  refine (Engine.apply_eq_ok.mpr (.mergeShares (Store.get?_group htarget ht)
    (Store.get?_group hvictim guards.claim'.asset) distinct guards)).trans ?_
  exact congrArg (fun shares => Except.ok (Engine.mk _ _ shares _, _)) hgroup.symm

/-- A merge is an exchange at the asset's site. -/
theorem mergeShares_sites (hl : w.Linked) {g t v : ID} {acc : GlobalYieldAccumulator}
    {target victim : GallyShare} {wallets : Wallets} {events : List Event}
    (hacc : w.accumulators.get? g = some acc) (htarget : w.shares.get? t = some target)
    (hvictim : w.shares.get? v = some victim) (distinct : t ≠ v)
    (guards : MergeGuards acc target victim) :
    Sites w { w with
      accumulators := w.accumulators.put ((acc.afterClaim target).afterClaim victim)
      shares := (w.shares.delete v).put (target.mergedWith victim acc.cumulativeYieldIndex)
      wallets, events } := by
  obtain rfl : acc.id = g := Store.key_of_get? hacc
  obtain rfl : target.id = t := Store.key_of_get? htarget
  have ht : target.assetId = acc.assetId := guards.claim.asset
  have hv : victim.assetId = acc.assetId := guards.claim'.asset
  -- the target is still filed when the victim is gone
  have hkept : (w.shares.delete v).get? target.id = some target :=
    (Store.get?_delete_ne distinct).trans htarget
  have hloc : LocalTo acc.assetId w { w with
      accumulators := w.accumulators.put ((acc.afterClaim target).afterClaim victim)
      shares := (w.shares.delete v).put
        (target.mergedWith victim acc.cumulativeYieldIndex) } :=
    { LocalTo.refl acc.assetId w with
      accs := putAcc_elsewhere ((acc.afterClaim target).afterClaim victim) hacc rfl rfl
      shares := fun b hb => (put_elsewhere (target.mergedWith victim acc.cumulativeYieldIndex) ht
        (fun y hy => Option.some.inj (hkept.symm.trans hy) ▸ ht) b hb).trans
          (delete_elsewhere hvictim hv b hb) }
  exact LocalTo.exchange { hloc with } hl hacc
    (Store.get?_put_self _ ((acc.afterClaim target).afterClaim victim)) rfl rfl
    (.mergeShares target.id v 0) rfl _ (mergeShares_apply htarget hvictim distinct guards)

/-- A redemption in the world is the one of the engine. -/
theorem redeemShare_apply {k : ID} {acc : GlobalYieldAccumulator} {share : GallyShare}
    {accumulators : Store GlobalYieldAccumulator} {wallets : Wallets} {events : List Event}
    (hshare : w.shares.get? k = some share) (guards : RedeemGuards acc share) :
    (w.engine acc).apply (.redeemShare k 0) = .ok (World.engine { w with
      accumulators, shares := w.shares.delete k
      wallets, events } (acc.afterRedeem share), [⟨k, acc.payout share⟩]) := by
  have hgroup : (w.shares.delete k).group GallyShare.assetId acc.assetId =
      (w.shares.group GallyShare.assetId acc.assetId).delete k := Store.group_delete
  refine (Engine.apply_eq_ok.mpr
    (.redeemShare (Store.get?_group hshare guards.claim.asset) guards)).trans ?_
  exact congrArg (fun shares => Except.ok (Engine.mk _ _ shares _, _)) hgroup.symm

/-- A redemption is an exchange at the asset's site. -/
theorem redeemShare_sites (hl : w.Linked) {g k : ID} {acc : GlobalYieldAccumulator}
    {share : GallyShare} {wallets : Wallets} {events : List Event}
    (hacc : w.accumulators.get? g = some acc) (hshare : w.shares.get? k = some share)
    (guards : RedeemGuards acc share) :
    Sites w { w with
      accumulators := w.accumulators.put (acc.afterRedeem share)
      shares := w.shares.delete k
      wallets, events } := by
  obtain rfl : acc.id = g := Store.key_of_get? hacc
  have hloc : LocalTo acc.assetId w { w with
      accumulators := w.accumulators.put (acc.afterRedeem share)
      shares := w.shares.delete k } :=
    { LocalTo.refl acc.assetId w with
      accs := putAcc_elsewhere (acc.afterRedeem share) hacc rfl rfl
      shares := delete_elsewhere hshare guards.claim.asset }
  exact LocalTo.exchange { hloc with } hl hacc (Store.get?_put_self _ (acc.afterRedeem share))
    rfl rfl (.redeemShare k 0) rfl _ (redeemShare_apply hshare guards)

/-- A split is an exchange at the asset's site. -/
theorem splitShare_sites (hl : w.Linked) (hf : w.Fresh) {k : ID} {amount : ℕ}
    {share : GallyShare} {owner : OwnedKind → ID → Address}
    (hshare : w.shares.get? k = some share) (positive : 0 < amount)
    (less : amount < share.shareCount) :
    Sites w { w with
      nextId := w.nextId + 1
      shares := (w.shares.put { share with shareCount := share.shareCount - amount }).put
        { share with id := w.nextId, shareCount := amount }
      owner } := by
  obtain rfl : share.id = k := Store.key_of_get? hshare
  obtain ⟨g, acc, hacc, ha⟩ := hl.deeds share (Store.mem_of_get? hshare)
  have hfresh : w.shares.get? w.nextId = none := hf.shares.get?_eq_none (Nat.lt_irrefl _)
  -- the child's identifier is free after the parent was put back, too
  have hfresh' : (w.shares.put { share with shareCount := share.shareCount - amount }).get?
      w.nextId = none := by
    refine (Store.get?_put_ne ?_).trans hfresh
    exact Nat.ne_of_lt (hf.shares share (Store.mem_of_get? hshare))
  have hloc : LocalTo acc.assetId w { w with
      shares := (w.shares.put { share with shareCount := share.shareCount - amount }).put
        { share with id := w.nextId, shareCount := amount } } :=
    { LocalTo.refl acc.assetId w with
      shares := fun b hb =>
        (put_elsewhere { share with id := w.nextId, shareCount := amount } ha.symm
          (fun y hy => absurd (hfresh'.symm.trans hy) (by simp)) b hb).trans
          (put_elsewhere { share with shareCount := share.shareCount - amount } ha.symm
            (fun y hy => Option.some.inj (hshare.symm.trans hy) ▸ ha.symm) b hb) }
  have hgroup : ((w.shares.put { share with shareCount := share.shareCount - amount }).put
      { share with id := w.nextId, shareCount := amount }).group GallyShare.assetId acc.assetId =
      ((w.shares.group GallyShare.assetId acc.assetId).put
        { share with shareCount := share.shareCount - amount }).put
        { share with id := w.nextId, shareCount := amount } := by
    rw [Store.group_put, Store.group_put] <;> exact ha.symm
  refine LocalTo.exchange { hloc with } hl hacc hacc rfl rfl
    (.splitShare share.id amount w.nextId) rfl [] ?_
  refine (Engine.apply_eq_ok.mpr (.splitShare (Store.get?_group hshare ha.symm)
    (Store.get?_group_eq_none hfresh) positive less)).trans ?_
  exact congrArg (fun shares => Except.ok (Engine.mk _ _ shares _, [])) hgroup.symm

/-- Every accumulator call is an exchange at the site of its asset and leaves the others alone. -/
theorem accumulatorStep_sites (hl : w.Linked) (hf : w.Fresh) {c : AccumulatorCall}
    (h : AccumulatorStep w sender c w') : Sites w w' := by
  cases h with
  | claimRewards hacc _ hshare guards => exact claimRewards_sites hl hacc hshare guards
  | @sweepRollover _ acc _ hacc positive guards =>
    -- the sweeps read no object but the accumulator
    exact Sites.of_acc hl (acc.drained.afterAdvance acc.rolloverReserve) hacc rfl rfl rfl rfl rfl
      rfl rfl rfl .sweepRollover rfl (Engine.apply_eq_ok.mpr (.sweepRollover positive guards))
  | @sweepCompensation _ acc routed _ hacc due positive route run =>
    obtain ⟨-, -, supply, -⟩ := sweepCompensation_eq_ok.mp run
    exact Sites.of_acc hl { routed with wrappingFrozen := false } hacc route.frame.id
      route.frame.assetId route.frame.cap rfl rfl rfl rfl rfl (.sweepCompensation w.clockMs) rfl
      (Engine.apply_eq_ok.mpr (.sweepCompensation due positive supply route))
  | wrapShares hacc _ hshare guards => exact wrapShares_sites hl hf hacc hshare guards
  | unwrapCoins hacc _ hcoin token guards sweep =>
    exact unwrapCoins_sites hl hf hacc hcoin token guards sweep
  | mergeShares hacc _ htarget _ hvictim distinct guards =>
    exact mergeShares_sites hl hacc htarget hvictim distinct guards
  | redeemShare hacc _ hshare guards => exact redeemShare_sites hl hacc hshare guards
  | @adminSweepDust _ acc _ _ hacc guards =>
    exact Sites.of_acc hl acc.afterDust hacc rfl rfl rfl rfl rfl rfl rfl rfl
      (.adminSweepDust w.config) rfl (Engine.apply_eq_ok.mpr (.adminSweepDust guards))
  | splitShare _ hshare positive less => exact splitShare_sites hl hf hshare positive less

/-- The accumulator of a dispute belongs to its asset. -/
theorem Linked.disputed (hl : w.Linked) {d g : ID} {dispute : Dispute} {pool : ValidatorPool}
    {asset : Asset} {acc : GlobalYieldAccumulator} (hdispute : w.disputes.get? d = some dispute)
    (hacc : w.accumulators.get? g = some acc)
    (guards : ResolveGuards dispute pool asset acc w.config w.clockMs) :
    acc.assetId = asset.id := by
  obtain ⟨x, hx, hxa⟩ := hl.disputes _ (Store.mem_of_get? hdispute)
  obtain rfl := Option.some.inj (hx.symm.trans (guards.acc_recorded hacc))
  rw [hxa, guards.asset]

/-- A dispute call is a step of the site of the accused asset and of no other. -/
theorem disputeStep_sites (hl : w.Linked) {c : DisputeCall} (h : DisputeStep w sender c w') :
    Sites w w' := by
  cases h with
  | @initializeDispute _ _ _ _ _ _ asset _ _ _ hasset _ _ _ guards =>
    exact Sites.of_asset hl (setDisputed asset true) hasset rfl rfl rfl rfl rfl rfl
      (.challenge guards)
  | voteOnDispute => exact Sites.of_eq hl fun a => { LocalTo.refl a w with }
  | @resolveDispute _ _ _ _ dispute pool asset acc v hdispute _ hasset hacc guards decides =>
    have hlinked := hl.disputed hdispute hacc guards
    have hkeeps := decides.keeps
    refine Sites.of_both hl v.asset v.acc hasset hacc hlinked hkeeps.assetId hkeeps.accumulator
      hkeeps.accId hkeeps.accAsset (congrArg TreasuryCap.token hkeeps.cap) rfl rfl rfl rfl rfl ?_
    have hengine := site_engine (hl.accumulatorId hasset hacc hlinked) hacc
    -- an acquittal leaves the engine as it is
    have hsame : { w.site asset with
        asset := setDisputed asset false, engine := some { w.engine acc with acc := acc } } =
        { w.site asset with asset := setDisputed asset false } := by
      rw [← show (w.site asset).engine = some { w.engine acc with acc := acc } from hengine]
    cases decides with
    | expired => exact hsame ▸ .acquit
    | rejected => exact hsame ▸ .acquit
    | upheld _ _ guards => exact .uphold hengine guards
  | claimJurorReward => exact Sites.of_eq hl fun a => { LocalTo.refl a w with }

/-! ## Coins -/

/-- A split of a coin is an exchange at the site whose token it is. -/
theorem splitCoin_sites (hl : w.Linked) (hf : w.Fresh) {k : ID} {amount : ℕ} {coin : TokenCoin}
    {owner : OwnedKind → ID → Address} (hcoin : w.coins.get? k = some coin)
    (funds : amount ≤ coin.value) :
    Sites w { w with
      nextId := w.nextId + 1
      coins := (w.coins.put { coin with value := coin.value - amount }).put
        { id := w.nextId, token := coin.token, value := amount }
      owner } := by
  obtain rfl : coin.id = k := Store.key_of_get? hcoin
  have hfresh : w.coins.get? w.nextId = none := hf.coins.get?_eq_none (Nat.lt_irrefl _)
  have hfresh' : (w.coins.put { coin with value := coin.value - amount }).get? w.nextId = none := by
    refine (Store.get?_put_ne ?_).trans hfresh
    exact Nat.ne_of_lt (hf.coins coin (Store.mem_of_get? hcoin))
  -- other tokens are untouched; under a custodied token it is an engine step
  refine Sites.of_coins hl (t := coin.token) rfl rfl rfl rfl (fun u hu => ?_) fun {_ acc} _ ht => ?_
  · exact (put_elsewhere (⟨w.nextId, coin.token, amount⟩ : TokenCoin) rfl
      (fun y hy => absurd (hfresh'.symm.trans hy) (by simp)) u hu).trans
      (put_elsewhere { coin with value := coin.value - amount } rfl
        (fun y hy => Option.some.inj (hcoin.symm.trans hy) ▸ rfl) u hu)
  · refine ⟨.splitCoin coin.id amount w.nextId, rfl, ?_⟩
    refine (Engine.apply_eq_ok.mpr (.splitCoin (Store.get?_group hcoin ht.symm)
      (Store.get?_group_eq_none hfresh) funds)).trans ?_
    simp only [engine]
    rw [Store.group_put, Store.group_put] <;> exact ht.symm

/-- A join of coins is an exchange at the site whose token they are. -/
theorem joinCoins_sites (hl : w.Linked) {k j : ID} {coin other : TokenCoin}
    (hcoin : w.coins.get? k = some coin) (hother : w.coins.get? j = some other)
    (distinct : k ≠ j) (same : other.token = coin.token)
    (fits : coin.value + other.value ≤ maxU64) :
    Sites w { w with
      coins := (w.coins.delete j).put { coin with value := coin.value + other.value } } := by
  obtain rfl : coin.id = k := Store.key_of_get? hcoin
  have hkept : (w.coins.delete j).get? coin.id = some coin :=
    (Store.get?_delete_ne distinct).trans hcoin
  refine Sites.of_coins hl (t := coin.token) rfl rfl rfl rfl (fun u hu => ?_) fun {_ acc} _ ht => ?_
  · exact (put_elsewhere { coin with value := coin.value + other.value } rfl
      (fun y hy => Option.some.inj (hkept.symm.trans hy) ▸ rfl) u hu).trans
      (delete_elsewhere hother same u hu)
  · refine ⟨.joinCoins coin.id j, rfl, ?_⟩
    refine (Engine.apply_eq_ok.mpr (.joinCoins (Store.get?_group hcoin ht.symm)
      (Store.get?_group hother (same.trans ht.symm)) distinct fits)).trans ?_
    simp only [engine, ← Store.group_delete]
    rw [Store.group_put]
    exact ht.symm

/-- A framework call is an exchange at the site of the token it moves, if there is one. -/
theorem frameworkStep_sites (hl : w.Linked) (hf : w.Fresh) {c : FrameworkCall}
    (h : FrameworkStep w sender c w') : Sites w w' := by
  have hfresh : w.coins.get? w.nextId = none := hf.coins.get?_eq_none (Nat.lt_irrefl _)
  -- coins under a free cap belong to no engine
  have hfree : ∀ {t cap g acc}, w.treasuryCaps.get? t = some cap →
      w.accumulators.get? g = some acc → acc.treasuryCap.token ≠ t := by
    rintro t cap g acc hcap hacc rfl
    exact absurd (hcap.symm.trans (hl.custodied hacc)) (by simp)
  cases h with
  | @mintToken token value cap _ hcap =>
    refine Sites.of_coins hl (t := token) rfl rfl rfl rfl (fun u hu => ?_)
      fun hacc ht => absurd ht (hfree hcap hacc)
    exact put_elsewhere (⟨w.nextId, token, value.val⟩ : TokenCoin) rfl
      (fun y hy => absurd (hfresh.symm.trans hy) (by simp)) u hu
  | @burnToken token k cap coin _ hcap _ hcoin same =>
    exact Sites.of_coins hl (t := token) rfl rfl rfl rfl
      (fun u hu => delete_elsewhere hcoin same u hu) fun hacc ht => absurd ht (hfree hcap hacc)
  | @zeroCoin token =>
    -- anybody can make a zero coin, of a custodied token as well
    refine Sites.of_coins hl (t := token) rfl rfl rfl rfl (fun u hu => ?_) fun {_ acc} _ ht => ?_
    · exact put_elsewhere (⟨w.nextId, token, 0⟩ : TokenCoin) rfl
        (fun y hy => absurd (hfresh.symm.trans hy) (by simp)) u hu
    · refine ⟨.zeroCoin w.nextId, rfl, ?_⟩
      refine (Engine.apply_eq_ok.mpr (.zeroCoin (Store.get?_group_eq_none hfresh))).trans ?_
      subst ht
      simp only [engine]
      rw [Store.group_put]
      rfl
  | @destroyZero k coin _ hcoin zero =>
    refine Sites.of_coins hl (t := coin.token) rfl rfl rfl rfl
      (fun u hu => delete_elsewhere hcoin rfl u hu) fun {_ acc} _ ht => ?_
    refine ⟨.destroyZero k, rfl, ?_⟩
    refine (Engine.apply_eq_ok.mpr
      (.destroyZero (Store.get?_group hcoin ht.symm) zero)).trans ?_
    simp only [engine, Store.group_delete]
  | splitCoin _ hcoin funds => exact splitCoin_sites hl hf hcoin funds
  | joinCoins _ hcoin _ hother distinct same fits =>
    exact joinCoins_sites hl hcoin hother distinct same fits
  | _ => exact Sites.of_eq hl fun a => { LocalTo.refl a w with }

/-- Every call leaves every site alone or takes a step of it. -/
theorem call_sites (hw : Reachable w) {c : Call} (h : w.call sender c = .ok w') : Sites w w' := by
  have hl := hw.linked
  cases c with
  | protocol c =>
    obtain ⟨-, _, _, -, rfl⟩ := World.protocolCall_eq_ok.mp h
    exact Sites.of_eq hl fun a => { LocalTo.refl a w with }
  -- configuration, pools and caps are not part of any site
  | validator c =>
    cases World.validatorCall_eq_ok.mp h <;> exact Sites.of_eq hl fun a => { LocalTo.refl a w with }
  | asset c => exact assetStep_sites hl hw.fresh hw.issued (World.assetCall_eq_ok.mp h)
  | accumulator c => exact accumulatorStep_sites hl hw.fresh (World.accumulatorCall_eq_ok.mp h)
  | dispute c => exact disputeStep_sites hl (World.disputeCall_eq_ok.mp h)
  | framework c => exact frameworkStep_sites hl hw.fresh (World.frameworkCall_eq_ok.mp h)

end World

end Gally

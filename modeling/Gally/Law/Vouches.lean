import Gally.Chain.History
import Gally.Law.Docket
import Gally.Law.Receipts

/-!
# Vouch counting

What became of each vouch is a history: it is live from the vouch until the raise is aborted,
its coverage is released or an UPHELD verdict slashes it. The counter of a pool, `activeVouches`,
counts the live vouches and, because `slash` never counts down, the slashed ones.

## Key results

- `World.Traced.counted`: the counter over every run
- `vouches_counted`: without slashed and without uncovered vouches it is the number of live ones,
  and each of them can be ended; `vouches_miscounted`
-/

namespace Gally

open Checked

/-! ## The history of a vouch -/

/-- What became of the vouch for an asset. -/
inductive VouchStage where
  | unvouched | live | aborted | released | slashed
  deriving DecidableEq, Repr

/-- The stage of the vouch for asset `a` after a call. -/
def World.vouchAfter (w : World) (a : ID) (s : VouchStage) : Call → VouchStage
  | .asset (.vouchAssetLegals b _ _ _) => if b = a then .live else s
  | .asset (.abortFailedRaise b _) => if b = a then .aborted else s
  | .asset (.releaseVouchCoverage b _) => if b = a then .released else s
  | .dispute (.resolveDispute d _ b _) =>
    -- only what is live can be slashed
    if b = a ∧ s = .live ∧ (w.disputes.get? d).any (·.verdict w.config = .upheld) then .slashed
    else s
  | _ => s

/-- The stages of all vouches after a call, by asset. -/
def World.vouchesAfter (w : World) (c : Call) (L : ID → VouchStage) (a : ID) : VouchStage :=
  w.vouchAfter a (L a) c

def vouchHistory : History (ID → VouchStage) := .of (fun _ => .unvouched) World.vouchesAfter

/-- The number of live vouches of pool `p`. -/
def World.liveVouches (w : World) (L : ID → VouchStage) (p : ID) : ℕ :=
  w.assets.sum fun asset => if asset.validatorPoolId = some p ∧ L asset.id = .live then 1 else 0

/-! ## What the counter counts -/

/-- Whether a vouch at this stage is in the counter of its pool. -/
def VouchStage.counted : VouchStage → ℕ
  | .live | .slashed => 1
  | _ => 0

/-- Whether the asset is in the counter of pool `p`. -/
def Asset.counted (L : ID → VouchStage) (p : ID) (asset : Asset) : ℕ :=
  if asset.validatorPoolId = some p then (L asset.id).counted else 0

/-- The stage of the vouch and the asset agree. -/
structure VouchStage.Fits (s : VouchStage) (asset : Asset) : Prop where
  unvouched : s = .unvouched ↔ asset.validatorPoolId = none
  failed : s = .live → asset.state ≠ .failed
  covered : 0 < asset.coverageLocked → s = .live
  funding : asset.state = .funding → s = .live

/-- The history agrees with the assets, and the counters with the history. -/
structure World.Counted (w : World) (L : ID → VouchStage) : Prop where
  unlisted : ∀ a, w.assets.get? a = none → L a = .unvouched
  fits : ∀ asset ∈ w.assets, (L asset.id).Fits asset
  count : ∀ pool ∈ w.pools, pool.activeVouches = w.assets.sum (Asset.counted L pool.id)

/-- The calls that begin or end a vouch. -/
def Call.vouching : Call → Bool
  | .asset (.vouchAssetLegals ..) | .asset (.abortFailedRaise ..)
  | .asset (.releaseVouchCoverage ..) | .dispute (.resolveDispute ..) => true
  | _ => false

/-- The others leave every stage as it is. -/
theorem World.vouchAfter_quiet {w : World} {c : Call} (hc : c.vouching = false) (a : ID)
    (s : VouchStage) : w.vouchAfter a s c = s := by
  unfold World.vouchAfter
  split <;> first | rfl | simp [Call.vouching] at hc

/-- What such a call leaves of an asset, as far as its vouch is concerned. -/
structure Asset.Quiet (asset asset' : Asset) : Prop where
  id : asset'.id = asset.id
  pool : asset'.validatorPoolId = asset.validatorPoolId
  coverage : asset'.coverageLocked = asset.coverageLocked
  funding : asset'.state = .funding → asset.state = .funding
  failed : asset'.state = .failed → asset.state = .failed

/-- A call that is not about vouching leaves an asset's vouch. -/
theorem Asset.Touch.quiet {w : World} {sender : Address} {asset asset' : Asset} {c : Call}
    (h : asset.Touch w sender c asset') (hc : c.vouching = false) : asset.Quiet asset' := by
  cases h with
  | vouch | abort | uncover | verdict => simp [Call.vouching] at hc
  -- a release of the last tranche changes the state, though not to or from FUNDING or a failed one
  | release =>
    refine ⟨rfl, rfl, rfl, ?_, ?_⟩
    all_goals
      simp only [Asset.afterTranche]
      split
      · simp
      · exact fun hs => hs
  | cancelByEntity | cancelTimeout | finalize | default | closeAtReturnTarget
  | closeAfterCompensation | closeWindDown =>
    exact ⟨rfl, rfl, rfl, by simp [Asset.cancelled, Asset.finalized, Asset.seized, Asset.closed],
      by simp [Asset.cancelled, Asset.finalized, Asset.seized, Asset.closed]⟩
  | _ => exact ⟨rfl, rfl, rfl, fun hs => hs, fun hs => hs⟩

/-- A stage that fits an asset fits it after a quiet change. -/
theorem VouchStage.Fits.quiet {s : VouchStage} {asset asset' : Asset} (h : s.Fits asset)
    (hquiet : asset.Quiet asset') : s.Fits asset' where
  unvouched := by rw [hquiet.pool]; exact h.unvouched
  failed hs hfailed := h.failed hs (hquiet.failed hfailed)
  covered := by rw [hquiet.coverage]; exact h.covered
  funding hfunding := h.funding (hquiet.funding hfunding)

/-- A pool whose vouches a call does not concern keeps its counter. -/
theorem ValidatorPool.Touch.quiet {w : World} {sender : Address} {pool pool' : ValidatorPool}
    {c : Call} (h : pool.Touch w sender c pool') (hc : c.vouching = false) :
    pool'.id = pool.id ∧ pool'.activeVouches = pool.activeVouches := by
  cases h with
  | vouch | abort | uncover | verdict => simp [Call.vouching] at hc
  | _ => exact ⟨rfl, rfl⟩

namespace World.Counted

variable {w w' : World} {L L' : ID → VouchStage} {sender : Address}

theorem genesis (admin : Address) : (World.genesis admin).Counted fun _ => .unvouched where
  unlisted _ _ := rfl
  fits := by simp [World.genesis]
  count := by simp [World.genesis]

/-- A call that neither begins nor ends a vouch. -/
theorem quiet (h : w.Counted L) (hw : Reachable w) {c : Call} (hc : c.vouching = false)
    (hcall : w.call sender c = .ok w') : w'.Counted (w.vouchesAfter c L) := by
  have hL : w.vouchesAfter c L = L := funext fun a => World.vouchAfter_quiet hc a (L a)
  rw [hL]
  have hquiet : w.assets.Keeps Asset.Quiet w'.assets := by
    intro a asset hasset
    obtain ⟨asset', hasset', htouch⟩ := World.call_touch hw.fresh hcall a asset hasset
    exact ⟨asset', hasset', htouch.quiet hc⟩
  -- an asset that was not there is a new listing, without a vouch
  have hnew : ∀ asset' ∈ w'.assets, w.assets.get? asset'.id = none →
      ∃ collateral, asset'.Listed collateral := by
    intro asset' hasset' hnone
    rcases World.call_assets hcall (Store.get?_key hasset') with hold | ⟨-, -, n, -, hlisted⟩
    · have hgone : w.assets.get? (Keyed.key asset') = none := hnone
      rw [hgone] at hold
      simp at hold
    · exact ⟨n, hlisted⟩
  refine ⟨?_, ?_, ?_⟩
  · intro a hnone
    refine h.unlisted a ?_
    cases hasset : w.assets.get? a with
    | none => rfl
    | some asset =>
      obtain ⟨asset', hasset', -⟩ := hquiet a asset hasset
      rw [hnone] at hasset'
      simp at hasset'
  · intro asset' hasset'
    cases hasset : w.assets.get? asset'.id with
    | none =>
      obtain ⟨n, hlisted⟩ := hnew asset' hasset' hasset
      rw [h.unlisted _ hasset]
      exact ⟨by simp [hlisted.pool], by simp, by simp [hlisted.coverage], by simp [hlisted.state]⟩
    | some asset =>
      obtain ⟨x, hx, hq⟩ := hquiet _ asset hasset
      obtain rfl := Option.some.inj (hx.symm.trans (Store.get?_key hasset'))
      rw [hq.id]
      exact (h.fits asset (Store.mem_of_get? hasset)).quiet hq
  · intro pool' hpool'
    have hsum : w'.assets.sum (Asset.counted L pool'.id) =
        w.assets.sum (Asset.counted L pool'.id) := by
      refine Store.sum_eq_of_keeps (fun a asset hasset => ?_) fun asset' hasset' hnone => ?_
      · obtain ⟨asset', hasset', hq⟩ := hquiet a asset hasset
        exact ⟨asset', hasset', by simp only [Asset.counted, hq.pool, hq.id]⟩
      · obtain ⟨n, hlisted⟩ := hnew asset' hasset' hnone
        simp [Asset.counted, hlisted.pool]
    rw [hsum]
    rcases World.call_origin hw.fresh hcall (Store.get?_key hpool') with
      ⟨pool, hpool, htouch⟩ | ⟨hid, stake, name, -, rfl⟩
    · obtain ⟨hid, hcount⟩ := htouch.quiet hc
      rw [hcount, hid]
      exact h.count pool (Store.mem_of_get? hpool)
    · -- nobody vouched with a pool that is registered only now
      refine (Store.sum_eq_zero fun asset hasset => if_neg fun hp => ?_).symm
      obtain ⟨pool, hpool⟩ := hw.covered.pool asset hasset _ hp
      exact Nat.lt_irrefl _ (hw.fresh.pools.get?_lt hpool)

/-- A call that replaces an asset together with its vouching pool. -/
theorem replace (h : w.Counted L) {a p : ID} {asset : Asset} (asset' : Asset)
    {pool pool' : ValidatorPool} (hasset : w.assets.get? a = some asset)
    (hpool : w.pools.get? p = some pool)
    (hassets : w'.assets = w.assets.put asset') (hpools : w'.pools = w.pools.put pool')
    (hid : asset'.id = asset.id) (hpid : pool'.id = pool.id)
    (hL : ∀ b, b ≠ a → L' b = L b) (hfits : (L' a).Fits asset')
    (hbefore : asset.validatorPoolId = none ∨ asset.validatorPoolId = some pool.id)
    (hafter : asset'.validatorPoolId = some pool.id)
    (hcount : pool'.activeVouches + (L a).counted = pool.activeVouches + (L' a).counted) :
    w'.Counted L' := by
  obtain rfl : asset.id = a := Store.key_of_get? hasset
  -- the assets that are not listed, the stage of each asset, and the count of each pool
  refine ⟨?_, ?_, ?_⟩
  · intro b hnone
    rw [hassets, Store.get?_put] at hnone
    split at hnone
    · simp at hnone
    · next hb =>
      rw [hL b fun he => hb (hid.trans he.symm)]
      exact h.unlisted b hnone
  · intro x hx
    rw [hassets] at hx
    rcases Store.mem_put.mp hx with rfl | ⟨hx, hne⟩
    · rw [hid]
      exact hfits
    · rw [hL x.id fun he => hne (he.trans hid.symm)]
      exact h.fits x hx
  · rw [hassets, hpools]
    -- the sum over the assets changes by the one that is replaced
    have hsum : ∀ q, asset.counted L q + (w.assets.put asset').sum (Asset.counted L' q) =
        asset'.counted L' q + w.assets.sum (Asset.counted L q) := fun q =>
      Store.sum_replace_of_agree asset' hasset hid fun z _ hz => by
        simp only [Asset.counted, hL z.id hz]
    intro x hx
    rcases Store.mem_put.mp hx with rfl | ⟨hx, hne⟩
    · -- the pool of the vouch counts the asset by its stage, before and after
      have hold : asset.counted L pool.id = (L asset.id).counted := by
        rcases hbefore with hnone | hsome
        · have hstage := (h.fits asset (Store.mem_of_get? hasset)).unvouched.mpr hnone
          rw [hstage, Asset.counted, hnone]
          rfl
        · exact if_pos hsome
      have hnew : asset'.counted L' pool.id = (L' asset.id).counted := by
        rw [Asset.counted, if_pos hafter, hid]
      have hthen := h.count pool (Store.mem_of_get? hpool)
      have hsum := hsum pool.id
      rw [hpid]
      omega
    · -- any other pool counts it neither before nor after
      have hxp : x.id ≠ pool.id := fun he => hne (he.trans hpid.symm)
      have hold : asset.counted L x.id = 0 := by
        refine if_neg fun hp => ?_
        rcases hbefore with hnone | hsome
        · rw [hnone] at hp
          simp at hp
        · exact hxp (Option.some.inj (hp.symm.trans hsome))
      have hnew : asset'.counted L' x.id = 0 :=
        if_neg fun hp => hxp (Option.some.inj (hp.symm.trans hafter))
      have hthen := h.count x hx
      have hsum := hsum x.id
      omega

/-- A vouch brings the asset to life and counts for its pool. -/
theorem vouched (h : w.Counted L) (hw : Reachable w) {a p k : ID} {docs : List WalrusRef}
    (hcall : w.call sender (.asset (.vouchAssetLegals a p k docs)) = .ok w') :
    w'.Counted fun b => if a = b then .live else L b := by
  cases World.callAsset_eq_ok.mp hcall with
  | @vouchAssetLegals _ _ _ _ asset pool _ _ hasset hpool _ _ guards =>
    have hnone := (hw.covered.unvouched asset (Store.mem_of_get? hasset) guards.state).1
    have hstage : L a = .unvouched :=
      Store.key_of_get? hasset ▸ (h.fits asset (Store.mem_of_get? hasset)).unvouched.mpr hnone
    refine h.replace (asset.vouched pool.id (asset.coverageFor w.config) docs) hasset hpool rfl rfl
      rfl rfl (fun b hb => if_neg hb.symm) ?_ (Or.inl hnone) rfl ?_
    · rw [if_pos rfl]
      exact ⟨by simp [Asset.vouched], by simp [Asset.vouched], fun _ => rfl, fun _ => rfl⟩
    · rw [if_pos rfl, hstage]
      rfl

/-- The end of a live vouch without fault. -/
theorem ended (h : w.Counted L) {a p : ID} {asset : Asset} (asset' : Asset) {pool : ValidatorPool}
    (hasset : w.assets.get? a = some asset) (hpool : w.pools.get? p = some pool)
    (hassets : w'.assets = w.assets.put asset')
    (hpools : w'.pools = w.pools.put (pool.afterRelease asset.coverageLocked))
    (hid : asset'.id = asset.id) (hvouching : asset.validatorPoolId = some pool.id)
    (hsame : asset'.validatorPoolId = asset.validatorPoolId) (hcoverage : asset'.coverageLocked = 0)
    (hstate : asset'.state ≠ .funding) (hpos : 1 ≤ pool.activeVouches) (hlive : L a = .live)
    {s : VouchStage} (hs : s = .aborted ∨ s = .released) :
    w'.Counted fun b => if a = b then s else L b := by
  have hvouching' := hsame.trans hvouching
  refine h.replace asset' hasset hpool hassets hpools hid rfl (fun b hb => if_neg hb.symm) ?_
    (Or.inr hvouching) hvouching' ?_
  · rw [if_pos rfl]
    rcases hs with rfl | rfl <;>
      exact ⟨by simp [hvouching'], by simp, by simp [hcoverage], fun hf => absurd hf hstate⟩
  · rw [if_pos rfl, hlive]
    rcases hs with rfl | rfl <;> exact Nat.sub_add_cancel hpos

/-- An aborted raise no longer counts. -/
theorem aborted (h : w.Counted L) {a p : ID}
    (hcall : w.call sender (.asset (.abortFailedRaise a p)) = .ok w') :
    w'.Counted fun b => if a = b then .aborted else L b := by
  cases World.callAsset_eq_ok.mp hcall with
  | @abortFailedRaise _ _ asset pool _ hasset hpool guards =>
    have hlive := (h.fits asset (Store.mem_of_get? hasset)).funding guards.state
    rw [show asset.id = a from Store.key_of_get? hasset] at hlive
    exact h.ended asset.failed hasset hpool rfl rfl rfl guards.vouching rfl rfl
      (by simp [Asset.failed]) guards.vouches hlive (Or.inl rfl)

/-- A released vouch no longer counts. -/
theorem released (h : w.Counted L) {a p : ID}
    (hcall : w.call sender (.asset (.releaseVouchCoverage a p)) = .ok w') :
    w'.Counted fun b => if a = b then .released else L b := by
  cases World.callAsset_eq_ok.mp hcall with
  | @releaseVouchCoverage _ _ asset pool hasset hpool guards =>
    have hlive := (h.fits asset (Store.mem_of_get? hasset)).covered guards.covered
    rw [show asset.id = a from Store.key_of_get? hasset] at hlive
    refine h.ended (clearCoverage asset) hasset hpool rfl rfl rfl guards.vouching rfl rfl ?_
      guards.vouches hlive (Or.inr rfl)
    rcases guards.state with hst | hst <;> simp [clearCoverage, hst]

/-- A verdict that spares the vouch. -/
theorem spared (h : w.Counted L) {a p : ID} {asset : Asset} {pool pool' : ValidatorPool}
    (hasset : w.assets.get? a = some asset) (hpool : w.pools.get? p = some pool)
    (hassets : w'.assets = w.assets.put (setDisputed asset false))
    (hpools : w'.pools = w.pools.put pool') (hpid : pool'.id = pool.id)
    (hsame : pool'.activeVouches = pool.activeVouches)
    (hvouching : asset.validatorPoolId = some pool.id) (hL : ∀ b, L' b = L b) : w'.Counted L' := by
  have hfits := h.fits asset (Store.mem_of_get? hasset)
  rw [show asset.id = a from Store.key_of_get? hasset] at hfits
  refine h.replace (setDisputed asset false) hasset hpool hassets hpools rfl hpid (fun b _ => hL b)
    ?_ (Or.inr hvouching) hvouching ?_
  · rw [hL a]
    exact hfits.quiet ⟨rfl, rfl, rfl, fun hs => hs, fun hs => hs⟩
  · rw [hL a, hsame]

/-- A verdict slashes a live vouch or none; the counter stays. -/
theorem resolved (h : w.Counted L) (hw : Reachable w) {d a p g : ID}
    (hcall : w.call sender (.dispute (.resolveDispute d p a g)) = .ok w') :
    w'.Counted (w.vouchesAfter (.dispute (.resolveDispute d p a g)) L) := by
  cases World.callDispute_eq_ok.mp hcall with
  | @resolveDispute _ _ _ _ dispute pool asset acc v hdispute hpool hasset hacc guards decides =>
    have hfits := h.fits asset (Store.mem_of_get? hasset)
    rw [show asset.id = a from Store.key_of_get? hasset] at hfits
    have hkeeps := decides.keeps
    have hfinal := World.Tried.finalized_of_dispute hw.linked hdispute hasset hacc guards
    have hvouching := hw.covered.accused hdispute hasset guards
    have hstage : L a ≠ .unvouched := fun hs => by
      rw [hfits.unvouched.mp hs] at hvouching
      simp at hvouching
    have hstatus := decides.status
    have hsettled := decides.isFinalized.trans hfinal
    -- only an UPHELD verdict changes a stage, and only that of `a`
    have hspared : v.dispute.status ≠ .upheld → ∀ b,
        w.vouchesAfter (.dispute (.resolveDispute d p a g)) L b = L b := by
      intro hno b
      refine if_neg fun ⟨_, _, hupheld⟩ => hno (hstatus.trans ?_)
      simpa [hdispute] using hupheld
    cases decides with
    | expired =>
      exact h.spared hasset hpool rfl rfl rfl rfl hvouching (hspared (by simp [expiredVerdict]))
    | rejected =>
      exact h.spared hasset hpool rfl rfl rfl rfl hvouching (hspared (by simp [rejectedVerdict]))
    | upheld =>
      have hfinal' : asset.upheld.state.isFinalized = true := hsettled
      have hzero : asset.upheld.coverageLocked = 0 := by
        unfold Asset.upheld
        split <;> rfl
      have hvouching' : asset.upheld.validatorPoolId = some pool.id :=
        hkeeps.vouching.trans hvouching
      have hnow : w.vouchesAfter (.dispute (.resolveDispute d p a g)) L a =
          if L a = .live then .slashed else L a := by
        simp [World.vouchesAfter, World.vouchAfter, hdispute, ← hstatus, upheldVerdict]
      refine h.replace asset.upheld hasset hpool rfl rfl hkeeps.assetId rfl
        (fun b hb => if_neg fun hc => hb hc.1.symm) ?_ (Or.inr hvouching) hvouching' ?_
      · rw [hnow]
        refine ⟨?_, ?_, by simp [hzero], fun hf => by simp [hf, AssetState.isFinalized] at hfinal'⟩
        · split <;> simp [hvouching', hstage]
        · split
          · simp
          · next hdead => exact fun hlive => absurd hlive hdead
      · -- the slashed vouch counts like the live one did
        rw [hnow]
        split
        · next hlive =>
          rw [hlive]
          rfl
        · rfl

/-- One call keeps the count, with the stages it leads to. -/
theorem call (h : w.Counted L) (hw : Reachable w) {c : Call} (hcall : w.call sender c = .ok w') :
    w'.Counted (w.vouchesAfter c L) := by
  cases hc : c.vouching with
  | false => exact h.quiet hw hc hcall
  | true =>
    unfold Call.vouching at hc
    split at hc
    · exact h.vouched hw hcall
    · exact h.aborted hcall
    · exact h.released hcall
    · exact h.resolved hw hcall
    · simp at hc

end World.Counted

/-- In every traced run the pools count by the stages of the assets. -/
theorem World.Traced.counted {w : World} {L : ID → VouchStage}
    {Q : World → (ID → VouchStage) → Call → Prop} (h : w.Traced vouchHistory Q L) : w.Counted L :=
  h.preserves .genesis (fun hw hc _ hcall hL => hL ▸ hc.call hw hcall)
    fun hc _ => ⟨hc.unlisted, hc.fits, hc.count⟩

/-! ## Vouches that count as they should -/

/-- The condition on a call: no vouch without coverage, and no UPHELD verdict about an asset whose
    vouch is live. -/
def World.KeepsFaith (w : World) (L : ID → VouchStage) : Call → Prop
  | .asset (.vouchAssetLegals a _ _ _) =>
    ∀ asset, w.assets.get? a = some asset → 0 < asset.coverageFor w.config
  | .dispute (.resolveDispute d _ a _) =>
    L a = .live → ∀ x, w.disputes.get? d = some x → x.verdict w.config ≠ .upheld
  | _ => True

/-- A vouch that keeps its coverage while it is live, and is never slashed. -/
structure VouchStage.Kept (s : VouchStage) (asset : Asset) : Prop where
  covered : s = .live → 0 < asset.coverageLocked
  unslashed : s ≠ .slashed

namespace World.Counted

variable {w w' : World} {L L' : ID → VouchStage} {sender : Address}

/-- One vouch changes, the others are kept. -/
theorem kept_put (hk : ∀ asset ∈ w.assets, (L asset.id).Kept asset) {a : ID} {asset : Asset}
    (asset' : Asset) (hasset : w.assets.get? a = some asset) (hid : asset'.id = asset.id)
    (hL : ∀ b, b ≠ a → L' b = L b) (hnew : (L' a).Kept asset') :
    ∀ x ∈ w.assets.put asset', (L' x.id).Kept x := by
  obtain rfl : asset.id = a := Store.key_of_get? hasset
  intro x hx
  rcases Store.mem_put.mp hx with rfl | ⟨hx, hne⟩
  · rw [hid]
    exact hnew
  · rw [hL x.id fun he => hne (he.trans hid.symm)]
    exact hk x hx

/-- A call that keeps faith keeps live vouches covered. -/
theorem kept (h : w.Counted L) (hw : Reachable w) (hk : ∀ asset ∈ w.assets, (L asset.id).Kept asset)
    {c : Call} (hok : w.KeepsFaith L c) (hcall : w.call sender c = .ok w') :
    ∀ asset ∈ w'.assets, (w.vouchesAfter c L asset.id).Kept asset := by
  -- only vouching, an abort, a release and a verdict move a stage
  cases hc : c.vouching with
  | false =>
    intro asset' hasset'
    rw [show w.vouchesAfter c L asset'.id = L asset'.id from
      World.vouchAfter_quiet hc asset'.id _]
    cases hasset : w.assets.get? asset'.id with
    | none =>
      rw [h.unlisted _ hasset]
      exact ⟨by simp, by simp⟩
    | some asset =>
      obtain ⟨x, hx, htouch⟩ := World.call_touch hw.fresh hcall _ asset hasset
      obtain rfl := Option.some.inj (hx.symm.trans (Store.get?_key hasset'))
      have hq := htouch.quiet hc
      have hold := hk asset (Store.mem_of_get? hasset)
      rw [hq.id]
      exact ⟨fun hlive => hq.coverage.symm ▸ hold.covered hlive, hold.unslashed⟩
  | true =>
    unfold Call.vouching at hc
    split at hc
    · next a p k docs =>
      have hstage : w.vouchesAfter (.asset (.vouchAssetLegals a p k docs)) L a = .live :=
        if_pos rfl
      cases World.callAsset_eq_ok.mp hcall with
      | vouchAssetLegals hasset =>
        refine kept_put hk _ hasset rfl (fun b hb => if_neg hb.symm) ?_
        rw [hstage]
        exact ⟨fun _ => hok _ hasset, by simp⟩
    · next a p =>
      have hstage : w.vouchesAfter (.asset (.abortFailedRaise a p)) L a = .aborted :=
        if_pos rfl
      cases World.callAsset_eq_ok.mp hcall with
      | abortFailedRaise hasset =>
        refine kept_put hk _ hasset rfl (fun b hb => if_neg hb.symm) ?_
        rw [hstage]
        exact ⟨by simp, by simp⟩
    · next a p =>
      have hstage : w.vouchesAfter (.asset (.releaseVouchCoverage a p)) L a = .released :=
        if_pos rfl
      cases World.callAsset_eq_ok.mp hcall with
      | releaseVouchCoverage hasset =>
        refine kept_put hk _ hasset rfl (fun b hb => if_neg hb.symm) ?_
        rw [hstage]
        exact ⟨by simp, by simp⟩
    · next d p a g =>
      cases World.callDispute_eq_ok.mp hcall with
      | @resolveDispute _ _ _ _ dispute _ asset _ v hdispute _ hasset _ _ decides =>
        have hsame : w.vouchesAfter (.dispute (.resolveDispute d p a g)) L a = L a := by
          refine if_neg fun hslashed => ?_
          simp only [hdispute, Option.any_some, decide_eq_true_eq] at hslashed
          exact hok hslashed.2.1 dispute hdispute hslashed.2.2
        refine kept_put hk v.asset hasset decides.keeps.assetId
          (fun b hb => if_neg fun hc => hb hc.1.symm) ?_
        rw [hsame]
        have hold := hk asset (Store.mem_of_get? hasset)
        rw [show asset.id = a from Store.key_of_get? hasset] at hold
        have hstatus := decides.status
        refine ⟨fun hlive => ?_, hold.unslashed⟩
        -- an upheld verdict against a live vouch would break faith
        cases decides with
        | expired => exact hold.covered hlive
        | rejected => exact hold.covered hlive
        | upheld => exact absurd hstatus.symm (hok hlive dispute hdispute)
    · simp at hc

end World.Counted

/-- Everything `withdrawStake` checks but the floor. -/
structure World.MayWithdraw (w : World) (sender : Address) (p k : ID) (amount : U64)
    (pool : ValidatorPool) : Prop where
  found : w.pools.get? p = some pool
  own : w.owner .soulbound k = sender
  cap : ∃ cap, w.validatorCaps.get? k = some cap ∧ cap.poolId = p
  version : w.config.version = Gally.version
  active : pool.status = .active
  stake : amount.val ≤ pool.stake
  locked : pool.locked ≤ pool.stake - amount.val

/-- Vouches are counted while they live, end with their asset, and hold the floor. -/
structure World.CountsVouches (w : World) (L : ID → VouchStage) : Prop where
  count : ∀ pool ∈ w.pools, pool.activeVouches = w.liveVouches L pool.id
  /-- some call ends the vouch, whoever makes it -/
  retired : ∀ asset ∈ w.assets, L asset.id = .live →
    asset.state = .failed ∨ asset.state = .closed →
    ∃ c, w.vouchAfter asset.id (L asset.id) c ≠ .live ∧ ∀ sender, Succeeds (w.call sender c)
  floor : ∀ sender p k amount pool, w.MayWithdraw sender p k amount pool →
    (Succeeds (w.call sender (.validator (.withdrawStake p k amount))) ↔
      (0 < w.liveVouches L p → w.config.minValidatorStake ≤ pool.stake - amount.val))

/-- A covered vouch of a closed asset can be released by anybody. -/
theorem Reachable.release {w : World} (hw : Reachable w) {asset : Asset} (hasset : asset ∈ w.assets)
    {p : ID} (hp : asset.validatorPoolId = some p) (hclosed : asset.state = .closed)
    (hcovered : 0 < asset.coverageLocked) (sender : Address) :
    Succeeds (w.call sender (.asset (.releaseVouchCoverage asset.id p))) := by
  obtain ⟨pool, hpool⟩ := hw.covered.pool asset hasset p hp
  obtain rfl : pool.id = p := Store.key_of_get? hpool
  have hget := Store.get?_key hasset
  -- the asset is among those the pool counts, so its counter is positive
  have hone : asset.vouchIn pool.id = 1 := if_pos ⟨hp, Or.inr hcovered⟩
  have hcount := Store.le_sum hasset (Asset.vouchIn pool.id)
  have hvouches := (hw.covered.backs pool (Store.mem_of_get? hpool)).vouches
  have guards : CoverageGuards asset pool :=
    { state := Or.inr hclosed
      vouching := hp
      covered := hcovered
      locked := hw.covered.coverage_le hget hpool hp
      vouches := by omega }
  have hrun := releaseVouchCoverage_eq_ok.mpr ⟨guards, rfl⟩
  exact ⟨_, World.callAsset_eq_ok.mpr (.releaseVouchCoverage hget hpool guards hrun)⟩

/-- Withdrawals, and the floor as the code states it. -/
theorem World.withdraw_iff {w : World} {sender : Address} {p k : ID} {amount : U64}
    {pool : ValidatorPool} (h : w.MayWithdraw sender p k amount pool) :
    Succeeds (w.call sender (.validator (.withdrawStake p k amount))) ↔
      (0 < pool.activeVouches → w.config.minValidatorStake ≤ pool.stake - amount.val) := by
  -- the floor is the one guard that is not among the assumptions
  constructor
  · rintro ⟨w', hcall⟩
    have hstep : w.validatorCall sender (.withdrawStake p k amount) = .ok w' := hcall
    cases World.validatorCall_eq_ok.mp hstep with
    | withdrawStake hpool _ _ guards =>
      obtain rfl := Option.some.inj (hpool.symm.trans h.found)
      exact guards.floor
  · intro hfloor
    obtain ⟨cap, hcap, rfl⟩ := h.cap
    have hid : cap.poolId = pool.id := (Store.key_of_get? h.found).symm
    have hrun := withdrawStake_eq_ok.mpr
      ⟨⟨h.version, hid, h.active, h.stake, h.locked, hfloor⟩, rfl⟩
    exact ⟨_, World.validatorCall_eq_ok.mpr (.withdrawStake h.found h.own hcap
      ⟨h.version, hid, h.active, h.stake, h.locked, hfloor⟩ hrun)⟩

/-- In every run that vouches only with coverage and upholds no challenge of a live vouch. -/
theorem vouches_counted {w : World} {L : ID → VouchStage}
    (h : w.Traced vouchHistory World.KeepsFaith L) : w.CountsVouches L := by
  have hw := h.reachable
  have hcounted := h.counted
  -- along a run that keeps faith no stage is slashed and every live one is covered
  have hkept : ∀ asset ∈ w.assets, (L asset.id).Kept asset := by
    have hboth := h.preserves (P := fun w L => w.Counted L ∧ ∀ asset ∈ w.assets,
      (L asset.id).Kept asset) (fun admin => ⟨.genesis admin, by simp [World.genesis]⟩)
      (fun hw ⟨hc, hk⟩ hok hcall hL => hL ▸ ⟨hc.call hw hcall, hc.kept hw hk hok hcall⟩)
      fun ⟨hc, hk⟩ _ => ⟨⟨hc.unlisted, hc.fits, hc.count⟩, hk⟩
    exact hboth.2
  have hcount : ∀ pool ∈ w.pools, pool.activeVouches = w.liveVouches L pool.id := by
    intro pool hpool
    rw [hcounted.count pool hpool]
    refine Store.sum_congr fun asset hasset => ?_
    -- without slashed stages a pool counts its live vouches only
    have hno := (hkept asset hasset).unslashed
    simp only [Asset.counted, ite_and]
    cases hs : L asset.id <;> simp_all [VouchStage.counted]
  refine ⟨hcount, ?_, ?_⟩
  · intro asset hasset hlive hstate
    have hfits := hcounted.fits asset hasset
    have hclosed := hstate.resolve_left (hfits.failed hlive)
    have hsome : asset.validatorPoolId ≠ none := fun hnone => by
      have hstage := hfits.unvouched.mpr hnone
      rw [hlive] at hstage
      simp at hstage
    obtain ⟨p, hp⟩ := Option.ne_none_iff_exists'.mp hsome
    refine ⟨.asset (.releaseVouchCoverage asset.id p), ?_, ?_⟩
    · simp [World.vouchAfter]
    · exact hw.release hasset hp hclosed ((hkept asset hasset).covered hlive)
  · intro sender p k amount pool hmay
    obtain rfl : pool.id = p := Store.key_of_get? hmay.found
    rw [World.withdraw_iff hmay, hcount pool (Store.mem_of_get? hmay.found)]

/-- The run of the actions from genesis, with the stages of its vouches. -/
def vouchRun (ok : World → (ID → VouchStage) → Call → Bool) (actions : List Action) :
    Except Abort (World × (ID → VouchStage)) :=
  History.run (fun _ => .unvouched) World.vouchesAfter ok actions

/-- A run that is checked call by call is traced. -/
theorem World.Traced.of_vouchRun {Q : World → (ID → VouchStage) → Call → Prop}
    {ok : World → (ID → VouchStage) → Call → Bool} (hQ : ∀ w L c, ok w L c = true → Q w L c)
    {actions : List Action} {s : World × (ID → VouchStage)} (h : vouchRun ok actions = .ok s) :
    s.1.Traced vouchHistory Q s.2 :=
  .of_run rfl (fun _ _ _ => rfl) hQ h

namespace Sample

/-- No vouch without coverage, and no verdict. -/
def faithful (w : World) (_ : ID → VouchStage) : Call → Bool
  | .asset (.vouchAssetLegals a _ _ _) =>
    (w.assets.get? a).all fun asset => 0 < asset.coverageFor w.config
  | .dispute (.resolveDispute ..) => false
  | _ => true

/-- The term asset is repaid and closed with its vouch live. -/
def repaid : List Action := term ++ [.transaction 2 [repayment]] ++ closing

/-- A term asset so small that its coverage rounds down to nothing, repaid and closed. -/
def tiny : List Action :=
  (operational 4 0).set 2 (.transaction 2 [.asset (.createTermAsset (listing 4) 4 0)]) ++
    [.transaction 2 [.asset (.depositRevenue 4 8 100)]] ++ closing

end Sample

/-- The vouch of the repaid asset still counts, and can be ended. -/
theorem vouches_counted_repaid : ∃ (w : World) (L : ID → VouchStage),
    w.Traced vouchHistory World.KeepsFaith L ∧ L 4 = .live ∧ w.liveVouches L 2 = 1 ∧
    w.CountsVouches L := by
  have hrun : returns (vouchRun Sample.faithful Sample.repaid) (fun s =>
      s.2 4 = .live && s.1.liveVouches s.2 2 = 1) = true := by
    decide +kernel
  obtain ⟨⟨w, L⟩, h, hq⟩ := returns_iff.mp hrun
  simp only [Bool.and_eq_true, decide_eq_true_eq] at hq
  have htraced : w.Traced vouchHistory World.KeepsFaith L := by
    refine World.Traced.of_vouchRun (fun w L c hok => ?_) h
    unfold World.KeepsFaith
    split
    · next a _ _ _ =>
      intro asset hasset
      simpa [Sample.faithful, hasset] using hok
    · simp [Sample.faithful] at hok
    · trivial
  exact ⟨w, L, htraced, hq.1, hq.2, vouches_counted htraced⟩

/-- An UPHELD verdict leaves the counter at one with no live vouch; and the live vouch of a small
    asset survives its close, whatever is called. -/
theorem vouches_miscounted :
    (∃ (w : World) (L : ID → VouchStage) (pool : ValidatorPool),
      w.Traced vouchHistory (fun _ _ _ => True) L ∧ pool ∈ w.pools ∧
      pool.activeVouches = 1 ∧ w.liveVouches L pool.id = 0) ∧
    ∃ (w : World) (L : ID → VouchStage) (asset : Asset),
      w.Traced vouchHistory (fun _ _ _ => True) L ∧ asset ∈ w.assets ∧
      L asset.id = .live ∧ asset.state = .closed ∧
      ∀ sender c, Succeeds (w.call sender c) → w.vouchAfter asset.id (L asset.id) c = .live := by
  -- an upheld verdict leaves the counter at one, and a tiny goal leaves a closed asset without
  -- coverage
  constructor
  · have hrun : returns (vouchRun (fun _ _ _ => true)
        (Sample.executing 1000000 100000 ++ Sample.court ++ [.transaction 3 [Sample.challenge]] ++
          Sample.voting ++ [.transaction 3 [Sample.resolution]])) (fun s =>
        (s.1.pools.get? 2).any fun pool => pool.activeVouches = 1 ∧
          s.1.liveVouches s.2 pool.id = 0) = true := by
      decide +kernel
    obtain ⟨⟨w, L⟩, h, hq⟩ := returns_iff.mp hrun
    simp only [Option.any_eq_true, decide_eq_true_eq] at hq
    obtain ⟨pool, hpool, hcount, hlive⟩ := hq
    exact ⟨w, L, pool, World.Traced.of_vouchRun (fun _ _ _ _ => trivial) h, Store.mem_of_get? hpool,
      hcount, hlive⟩
  · have hrun : returns (vouchRun (fun _ _ _ => true) Sample.tiny) (fun s =>
        s.1.disputes.entries = [] && (s.1.assets.get? 4).any fun asset =>
          s.2 asset.id = .live ∧ asset.state = .closed ∧ asset.coverageLocked = 0) = true := by
      decide +kernel
    obtain ⟨⟨w, L⟩, h, hq⟩ := returns_iff.mp hrun
    simp only [Bool.and_eq_true, Option.any_eq_true, decide_eq_true_eq] at hq
    obtain ⟨hnone, asset, hasset, hlive, hclosed, hzero⟩ := hq
    have hmem := Store.mem_of_get? hasset
    have hsame : ∀ {a x}, asset.id = a → w.assets.get? a = some x → x = asset := by
      rintro _ x rfl hx
      exact Option.some.inj (hx.symm.trans (Store.get?_key hmem))
    refine ⟨w, L, asset, World.Traced.of_vouchRun (fun _ _ _ _ => trivial) h, hmem, hlive,
      hclosed, ?_⟩
    rintro sender c ⟨w', hcall⟩
    rw [hlive]
    unfold World.vouchAfter
    -- no call can end the stage: an abort asks for FUNDING, a release for coverage, and there is no
    -- dispute
    split
    · exact ite_self _
    · refine if_neg fun hid => ?_
      cases World.callAsset_eq_ok.mp hcall with
      | abortFailedRaise hx _ guards =>
        obtain rfl := hsame hid.symm hx
        rw [guards.state] at hclosed
        simp at hclosed
    · refine if_neg fun hid => ?_
      cases World.callAsset_eq_ok.mp hcall with
      | releaseVouchCoverage hx _ guards =>
        obtain rfl := hsame hid.symm hx
        exact absurd guards.covered (by omega)
    · have hgone : ∀ d, w.disputes.get? d = none := by
        intro d
        simp [Store.get?, hnone]
      simp [hgone]
    · rfl

end Gally

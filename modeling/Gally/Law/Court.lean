import Gally.Chain.Coverage
import Gally.Chain.Path
import Gally.Chain.Touch
import Gally.Law.Lifecycle

/-!
# What disputes say about pools and assets

An OPEN dispute freezes the pool it targets and flags its asset, at most one is open
against a pool, and a pool that is FROZEN or SLASHED is so because of a dispute that is
OPEN or UPHELD. Calls outside the court leave all of this alone (`World.Quiet`).

## Key results

- `Reachable.tried`
- `Reachable.flagged`: an asset in operation that is flagged has an OPEN dispute
- `World.Path.upheld`: an UPHELD dispute stays UPHELD
-/

namespace Gally

open Checked

/-- The states after the tranches, one way or another. -/
def AssetState.isSettled : AssetState → Bool
  | .operational | .compensating | .closed => true
  | .pendingVouch | .funding | .failed | .cancelled | .executing => false

/-- A settled asset stays settled. -/
theorem AssetState.Next.isSettled {s s' : AssetState} (h : s.Next s') (hs : s.isSettled = true) :
    s'.isSettled = true := by
  cases h <;> simp [AssetState.isSettled] at hs ⊢

/-- Disputes, pools and assets tell the same story. -/
structure World.Tried (w : World) : Prop where
  frozen : ∀ d ∈ w.disputes, d.status = .opened →
    ∃ pool, w.pools.get? d.targetPoolId = some pool ∧ pool.status = .frozen
  disputed : ∀ d ∈ w.disputes, d.status = .opened →
    ∃ asset, w.assets.get? d.assetId = some asset ∧ asset.disputed = true
  unique : ∀ d ∈ w.disputes, ∀ d' ∈ w.disputes, d.status = .opened → d'.status = .opened →
    d.targetPoolId = d'.targetPoolId → d.id = d'.id
  opened : ∀ pool ∈ w.pools, pool.status = .frozen →
    ∃ d ∈ w.disputes, d.status = .opened ∧ d.targetPoolId = pool.id
  upheld : ∀ pool ∈ w.pools, pool.status = .slashed →
    ∃ d ∈ w.disputes, d.status = .upheld ∧ d.targetPoolId = pool.id
  slashed : ∀ d ∈ w.disputes, d.status = .upheld →
    ∃ pool, w.pools.get? d.targetPoolId = some pool ∧ pool.status = .slashed
  settled : ∀ d ∈ w.disputes, d.status = .upheld →
    ∃ asset, w.assets.get? d.assetId = some asset ∧ asset.state.isSettled = true

/-! ## Calls outside the court -/

/-- The two disputes are the same case: only votes and rewards differ. -/
structure Dispute.SameCase (d d' : Dispute) : Prop where
  id : d'.id = d.id
  assetId : d'.assetId = d.assetId
  target : d'.targetPoolId = d.targetPoolId
  status : d'.status = d.status

theorem Dispute.SameCase.refl (d : Dispute) : d.SameCase d := ⟨rfl, rfl, rfl, rfl⟩

/-- The asset is as disputed as before. -/
def Asset.SameFlag (asset asset' : Asset) : Prop := asset'.disputed = asset.disputed

theorem Asset.SameFlag.refl (asset : Asset) : asset.SameFlag asset := rfl

/-- The pool has the same status. -/
def ValidatorPool.SameStatus (pool pool' : ValidatorPool) : Prop := pool'.status = pool.status

theorem ValidatorPool.SameStatus.refl (pool : ValidatorPool) : pool.SameStatus pool := rfl

/-- Nothing the court decides on changed. -/
structure World.Quiet (w w' : World) : Prop where
  assets : w.assets.Keeps Asset.SameFlag w'.assets
  pools : w.pools.Keeps ValidatorPool.SameStatus w'.pools
  register : ∀ pool' ∈ w'.pools, pool'.status = .active ∨
    ∃ pool ∈ w.pools, pool.id = pool'.id ∧ pool.status = pool'.status
  disputes : w.disputes.Keeps Dispute.SameCase w'.disputes
  cases : ∀ d' ∈ w'.disputes, ∃ d ∈ w.disputes, d.SameCase d'

namespace World.Quiet

variable {w w' : World} {sender : Address}

/-- Nothing changed. -/
theorem refl (w : World) : w.Quiet w where
  assets := .refl .refl _
  pools := .refl .refl _
  register pool hpool := Or.inr ⟨pool, hpool, rfl, rfl⟩
  disputes := .refl .refl _
  cases d hd := ⟨d, hd, .refl d⟩

/-- A call that changes one asset, but not its flag, is quiet. -/
theorem ofAsset {a : ID} {asset asset' : Asset} (hasset : w.assets.get? a = some asset)
    (hassets : w'.assets = w.assets.put asset') (hpools : w'.pools = w.pools)
    (hdisputes : w'.disputes = w.disputes) (hid : asset'.id = asset.id)
    (hd : asset'.disputed = asset.disputed) : w.Quiet w' where
  assets := hassets ▸ .replace .refl asset' hasset hid hd
  pools := hpools ▸ .refl .refl _
  register pool hpool := Or.inr ⟨pool, hpools ▸ hpool, rfl, rfl⟩
  disputes := hdisputes ▸ .refl .refl _
  cases d hd := ⟨d, hdisputes ▸ hd, .refl d⟩

/-- A call that changes one pool, but not its status, is quiet. -/
theorem ofPool {p : ID} {pool pool' : ValidatorPool} (hpool : w.pools.get? p = some pool)
    (hassets : w.assets.Keeps Asset.SameFlag w'.assets)
    (hpools : w'.pools = w.pools.put pool') (hdisputes : w'.disputes = w.disputes)
    (hid : pool'.id = pool.id) (hstatus : pool'.status = pool.status) : w.Quiet w' where
  assets := hassets
  pools := hpools ▸ .replace .refl pool' hpool hid hstatus
  register := by
    rw [hpools]
    refine Store.forall_put (Or.inr ⟨pool, Store.mem_of_get? hpool, hid.symm, hstatus.symm⟩) ?_
    exact fun x hx => Or.inr ⟨x, hx, rfl, rfl⟩
  disputes := hdisputes ▸ .refl .refl _
  cases d hd := ⟨d, hdisputes ▸ hd, .refl d⟩

/-- A new asset has no flag and no case. -/
theorem listed (hf : w.Fresh) {asset : Asset} {cap : EntityCap} {collateral : ℕ}
    {events : List Event}
    (h : asset.CreatedBy cap sender collateral w.clockMs w.nextId (w.nextId + 1)) :
    w.Quiet (w.listed sender collateral asset cap events) :=
  { refl w with assets := .fresh .refl asset (hf.unlisted h) }

/-- The asset module's calls are quiet. -/
theorem assetStep (hf : w.Fresh) {c : AssetCall} (h : AssetStep w sender c w') : w.Quiet w' := by
  cases h with
  | createAsset _ created => exact listed hf created
  | createTermAsset _ created => exact listed hf created
  | vouchAssetLegals hasset hpool =>
    exact ofPool hpool (.replace .refl _ hasset rfl rfl) rfl rfl rfl rfl
  | abortFailedRaise hasset hpool =>
    exact ofPool hpool (.replace .refl _ hasset rfl rfl) rfl rfl rfl rfl
  | releaseVouchCoverage hasset hpool =>
    exact ofPool hpool (.replace .refl _ hasset rfl rfl) rfl rfl rfl rfl
  | claimShares => exact { refl w with }
  | depositRevenue => exact { refl w with }
  | _ hasset => exact ofAsset hasset rfl rfl rfl rfl rfl

/-- The validator module's calls are quiet. -/
theorem validatorStep (hf : w.Fresh) {c : ValidatorCall} (h : ValidatorStep w sender c w') :
    w.Quiet w' := by
  have hassets := Store.Keeps.refl Asset.SameFlag.refl w.assets
  cases h with
  | registerValidator =>
    -- a pool that registers is a new one
    have hfresh := hf.pools.get?_eq_none (Nat.lt_irrefl w.nextId)
    exact { refl w with
      pools := .fresh .refl _ hfresh
      register := Store.forall_put (Or.inl rfl) (refl w).register }
  | addStake hpool => exact ofPool hpool hassets rfl rfl rfl rfl
  | withdrawStake hpool => exact ofPool hpool hassets rfl rfl rfl rfl

/-- A dispute is replaced by one of the same case. -/
theorem ofDispute {d : ID} {dispute dispute' : Dispute} (hd : w.disputes.get? d = some dispute)
    (hassets : w'.assets = w.assets) (hpools : w'.pools = w.pools)
    (hdisputes : w'.disputes = w.disputes.put dispute') (hsame : dispute.SameCase dispute') :
    w.Quiet w' where
  assets := hassets ▸ .refl .refl _
  pools := hpools ▸ .refl .refl _
  register pool hpool := Or.inr ⟨pool, hpools ▸ hpool, rfl, rfl⟩
  disputes := hdisputes ▸ .replace .refl dispute' hd hsame.id hsame
  cases := by
    rw [hdisputes]
    exact Store.forall_put ⟨dispute, Store.mem_of_get? hd, hsame⟩ fun x hx => ⟨x, hx, .refl x⟩

end World.Quiet

/-- Every call but the opening and the resolution of a dispute is quiet. -/
theorem World.call_quiet {w w' : World} {sender : Address} (hf : w.Fresh) {c : Call}
    (h : w.call sender c = .ok w')
    (hopen : ∀ a p g bond evidence reason,
      c ≠ .dispute (.initializeDispute a p g bond evidence reason))
    (hresolve : ∀ d p a g, c ≠ .dispute (.resolveDispute d p a g)) : w.Quiet w' := by
  -- only opening and resolving a dispute touch a flag, a status or a verdict
  cases c with
  | protocol c =>
    obtain ⟨-, _, _, -, rfl⟩ := World.protocolCall_eq_ok.mp h
    exact { Quiet.refl w with }
  | validator c => exact .validatorStep hf (World.validatorCall_eq_ok.mp h)
  | asset c => exact .assetStep hf (World.assetCall_eq_ok.mp h)
  | accumulator c =>
    cases World.accumulatorCall_eq_ok.mp h <;> exact { Quiet.refl w with }
  | dispute c =>
    cases World.disputeCall_eq_ok.mp h with
    | initializeDispute => exact absurd rfl (hopen _ _ _ _ _ _)
    | voteOnDispute hdispute => exact .ofDispute hdispute rfl rfl rfl ⟨rfl, rfl, rfl, rfl⟩
    | resolveDispute => exact absurd rfl (hresolve _ _ _ _)
    | claimJurorReward hdispute => exact .ofDispute hdispute rfl rfl rfl ⟨rfl, rfl, rfl, rfl⟩
  | framework c =>
    cases World.frameworkCall_eq_ok.mp h <;> exact { Quiet.refl w with }

/-- A settled asset stays settled. -/
theorem World.call_settled {w w' : World} (hw : Reachable w) {sender : Address} {c : Call}
    (h : w.call sender c = .ok w') {a : ID} {asset : Asset} (hasset : w.assets.get? a = some asset)
    (hs : asset.state.isSettled = true) :
    ∃ asset', w'.assets.get? a = some asset' ∧ asset'.state.isSettled = true := by
  obtain ⟨asset', hasset', hc⟩ := World.call_custody hw h a asset hasset
  refine ⟨asset', hasset', ?_⟩
  rcases hc.next with hsame | hnext
  · rw [hsame, hs]
  · exact hnext.isSettled hs

/-! ## Every call -/

namespace World.Tried

variable {w w' : World} {sender : Address}

/-- No dispute is there at first. -/
theorem genesis (admin : Address) : (World.genesis admin).Tried where
  frozen := by simp [World.genesis]
  disputed := by simp [World.genesis]
  unique := by simp [World.genesis]
  opened := by simp [World.genesis]
  upheld := by simp [World.genesis]
  slashed := by simp [World.genesis]
  settled := by simp [World.genesis]

/-- A dispute of the same case is still there. -/
theorem still (hq : w.Quiet w') {s : DisputeStatus} {p : ID}
    (h : ∃ d ∈ w.disputes, d.status = s ∧ d.targetPoolId = p) :
    ∃ d ∈ w'.disputes, d.status = s ∧ d.targetPoolId = p := by
  obtain ⟨d, hd, hstatus, htarget⟩ := h
  obtain ⟨d', hd', hsame⟩ := hq.disputes _ d (Store.get?_key hd)
  exact ⟨d', Store.mem_of_get? hd', hsame.status.trans hstatus, hsame.target.trans htarget⟩

/-- A quiet call keeps the cases tried, if upheld cases stay with settled assets. -/
theorem quiet (ht : w.Tried) (hq : w.Quiet w')
    (hsettled : ∀ d' ∈ w'.disputes, d'.status = .upheld →
      ∃ asset, w'.assets.get? d'.assetId = some asset ∧ asset.state.isSettled = true) :
    w'.Tried where
  frozen d' hd' hopen := by
    obtain ⟨d, hd, hsame⟩ := hq.cases d' hd'
    obtain ⟨pool, hpool, hstatus⟩ := ht.frozen d hd (hsame.status.symm.trans hopen)
    obtain ⟨pool', hpool', hsame'⟩ := hq.pools _ pool hpool
    exact ⟨pool', hsame.target ▸ hpool', hsame'.trans hstatus⟩
  disputed d' hd' hopen := by
    obtain ⟨d, hd, hsame⟩ := hq.cases d' hd'
    obtain ⟨asset, hasset, hflag⟩ := ht.disputed d hd (hsame.status.symm.trans hopen)
    obtain ⟨asset', hasset', hsame'⟩ := hq.assets _ asset hasset
    exact ⟨asset', hsame.assetId ▸ hasset', hsame'.trans hflag⟩
  unique d' hd' e' he' hopen hopen' htarget := by
    obtain ⟨d, hd, hsame⟩ := hq.cases d' hd'
    obtain ⟨e, he, hsame'⟩ := hq.cases e' he'
    rw [hsame.id, hsame'.id]
    refine ht.unique d hd e he (hsame.status.symm.trans hopen) (hsame'.status.symm.trans hopen') ?_
    rw [← hsame.target, ← hsame'.target, htarget]
  opened pool' hpool' hfrozen := by
    -- a pool is new, hence ACTIVE, or kept its status
    rcases hq.register pool' hpool' with hactive | ⟨pool, hpool, hid, hstatus⟩
    · rw [hactive] at hfrozen
      simp at hfrozen
    · exact hid ▸ still hq (ht.opened pool hpool (hstatus.trans hfrozen))
  upheld pool' hpool' hslashed := by
    rcases hq.register pool' hpool' with hactive | ⟨pool, hpool, hid, hstatus⟩
    · rw [hactive] at hslashed
      simp at hslashed
    · exact hid ▸ still hq (ht.upheld pool hpool (hstatus.trans hslashed))
  slashed d' hd' hupheld := by
    obtain ⟨d, hd, hsame⟩ := hq.cases d' hd'
    obtain ⟨pool, hpool, hstatus⟩ := ht.slashed d hd (hsame.status.symm.trans hupheld)
    obtain ⟨pool', hpool', hsame'⟩ := hq.pools _ pool hpool
    exact ⟨pool', hsame.target ▸ hpool', hsame'.trans hstatus⟩
  settled := hsettled

/-- A pool with a status of its own is the target of no dispute of another one. -/
theorem target_ne (ht : w.Tried) {p : ID} {pool : ValidatorPool}
    (hpool : w.pools.get? p = some pool) {d : Dispute} (hd : d ∈ w.disputes)
    (hno : d.status = .opened ∧ pool.status ≠ .frozen ∨
      d.status = .upheld ∧ pool.status ≠ .slashed) : d.targetPoolId ≠ pool.id := by
  intro htarget
  have hself : w.pools.get? pool.id = some pool := Store.get?_key (Store.mem_of_get? hpool)
  -- the target of an open dispute is frozen, and that of an upheld one is slashed
  rcases hno with ⟨hopen, hne⟩ | ⟨hupheld, hne⟩
  · obtain ⟨x, hx, hstatus⟩ := ht.frozen d hd hopen
    rw [htarget, hself] at hx
    exact hne (Option.some.inj hx ▸ hstatus)
  · obtain ⟨x, hx, hstatus⟩ := ht.slashed d hd hupheld
    rw [htarget, hself] at hx
    exact hne (Option.some.inj hx ▸ hstatus)

/-- OPEN disputes about one asset are one: both target the pool that vouched for it. -/
theorem one_of_asset (ht : w.Tried) (hc : w.Covered) {x y : Dispute} (hx : x ∈ w.disputes)
    (hy : y ∈ w.disputes) (hopen : x.status = .opened) (hopen' : y.status = .opened)
    (ha : x.assetId = y.assetId) : x.id = y.id := by
  obtain ⟨asset, hasset, hvouch⟩ := hc.disputes x hx
  obtain ⟨asset', hasset', hvouch'⟩ := hc.disputes y hy
  rw [ha, hasset'] at hasset
  obtain rfl := Option.some.inj hasset
  exact ht.unique x hx y hy hopen hopen' (Option.some.inj (hvouch.symm.trans hvouch'))

/-- Opening a dispute: the pool was ACTIVE, so no other dispute is open against it. -/
theorem challenge (ht : w.Tried) (hf : w.Fresh) {a p : ID} {asset : Asset} {pool : ValidatorPool}
    {d : Dispute} (hasset : w.assets.get? a = some asset) (hpool : w.pools.get? p = some pool)
    (hactive : pool.status = .active) (hid : d.id = w.nextId) (hopen : d.status = .opened)
    (hassetId : d.assetId = asset.id) (htarget : d.targetPoolId = pool.id) :
    World.Tried { w with
      assets := w.assets.put (setDisputed asset true)
      pools := w.pools.put (pool.withStatus .frozen)
      disputes := w.disputes.put d } := by
  have hfresh : w.disputes.get? (Keyed.key d) = none := by
    rw [show Keyed.key d = w.nextId from hid]
    exact hf.disputes.get?_eq_none (Nat.lt_irrefl _)
  have hpool' : (w.pools.put (pool.withStatus .frozen)).get? d.targetPoolId =
      some (pool.withStatus .frozen) := by
    rw [htarget]
    exact Store.get?_put_self w.pools (pool.withStatus .frozen)
  have hasset' : (w.assets.put (setDisputed asset true)).get? d.assetId =
      some (setDisputed asset true) := by
    rw [hassetId]
    exact Store.get?_put_self w.assets (setDisputed asset true)
  -- this pool was ACTIVE, so the other cases are about other pools
  have hother : ∀ x ∈ w.disputes, x.status = .opened ∨ x.status = .upheld →
      ∀ y, w.pools.get? x.targetPoolId = some y →
        (w.pools.put (pool.withStatus .frozen)).get? x.targetPoolId = some y := by
    intro x hx hstatus y hy
    have hne : x.targetPoolId ≠ pool.id := by
      refine ht.target_ne hpool hx (hstatus.imp (⟨·, ?_⟩) (⟨·, ?_⟩)) <;> simp [hactive]
    exact (Store.get?_put_ne (show Keyed.key (pool.withStatus .frozen) ≠ _ from hne.symm)).trans hy
  -- setting a flag takes none away
  have hflag : ∀ b x, w.assets.get? b = some x → x.disputed = true →
      ∃ x', (w.assets.put (setDisputed asset true)).get? b = some x' ∧ x'.disputed = true := by
    intro b x hx hdisputed
    rw [Store.get?_put]
    split
    · exact ⟨_, rfl, rfl⟩
    · exact ⟨x, hx, hdisputed⟩
  -- the new dispute overwrites none
  have hold : ∀ {s : DisputeStatus} {q : ID},
      (∃ x ∈ w.disputes, x.status = s ∧ x.targetPoolId = q) →
      ∃ x ∈ w.disputes.put d, x.status = s ∧ x.targetPoolId = q := by
    rintro s q ⟨x, hx, hx'⟩
    exact ⟨x, Store.mem_put.mpr (Or.inr ⟨hx, Store.get?_eq_none.mp hfresh x hx⟩), hx'⟩
  have hmem : d ∈ w.disputes.put d := Store.mem_put.mpr (Or.inl rfl)
  exact {
    frozen := by
      refine Store.forall_put (fun _ => ⟨_, hpool', rfl⟩) fun x hx hstatus => ?_
      obtain ⟨y, hy, hfrozen⟩ := ht.frozen x hx hstatus
      exact ⟨y, hother x hx (Or.inl hstatus) y hy, hfrozen⟩
    disputed := by
      refine Store.forall_put (fun _ => ⟨_, hasset', rfl⟩) fun x hx hstatus => ?_
      obtain ⟨y, hy, hdisputed⟩ := ht.disputed x hx hstatus
      exact hflag _ y hy hdisputed
    unique := by
      have hne : ∀ x ∈ w.disputes, x.status = .opened → x.targetPoolId ≠ d.targetPoolId := by
        intro x hx hstatus
        rw [htarget]
        exact ht.target_ne hpool hx (Or.inl ⟨hstatus, by simp [hactive]⟩)
      refine Store.forall_put ?_ fun x hx => ?_
      · refine Store.forall_put (fun _ _ _ => rfl) fun y hy _ hstatus hsame => ?_
        exact absurd hsame.symm (hne y hy hstatus)
      · refine Store.forall_put (fun hstatus _ hsame => ?_) fun y hy => ht.unique x hx y hy
        exact absurd hsame (hne x hx hstatus)
    opened := Store.forall_put (fun _ => ⟨d, hmem, hopen, htarget⟩)
      fun x hx hstatus => hold (ht.opened x hx hstatus)
    upheld := Store.forall_put (fun hno => absurd hno (by simp [ValidatorPool.withStatus]))
      fun x hx hstatus => hold (ht.upheld x hx hstatus)
    slashed := by
      refine Store.forall_put (fun hno => absurd hno (by simp [hopen])) fun x hx hstatus => ?_
      obtain ⟨y, hy, hslashed⟩ := ht.slashed x hx hstatus
      exact ⟨y, hother x hx (Or.inr hstatus) y hy, hslashed⟩
    settled := by
      refine Store.forall_put (fun hno => absurd hno (by simp [hopen])) fun x hx hstatus => ?_
      obtain ⟨y, hy, hsettled⟩ := ht.settled x hx hstatus
      simp only [Store.get?_put]
      split
      · next hkey =>
        refine ⟨_, rfl, ?_⟩
        have hsame : w.assets.get? x.assetId = some asset :=
          hkey ▸ Store.get?_key (Store.mem_of_get? hasset)
        obtain rfl := Option.some.inj (hy.symm.trans hsame)
        exact hsettled
      · exact ⟨y, hy, hsettled⟩ }

/-- What a verdict makes of the pool, the dispute and the asset. -/
theorem verdict_statuses {dispute : Dispute} {pool : ValidatorPool} {asset : Asset}
    {acc : GlobalYieldAccumulator} {v : Verdict}
    (h : Decides dispute pool asset acc w.config w.clockMs v)
    (hstate : asset.state.isFinalized = true) :
    v.dispute.status = .upheld ∧ v.pool.status = .slashed ∧ v.asset.state.isSettled = true ∨
      v.dispute.status ≠ .opened ∧ v.dispute.status ≠ .upheld ∧ v.pool.status = .active := by
  -- only the upheld verdict settles the asset, and it settles every asset it is about
  cases h with
  | expired => exact Or.inr ⟨by simp [expiredVerdict], by simp [expiredVerdict], rfl⟩
  | rejected => exact Or.inr ⟨by simp [rejectedVerdict], by simp [rejectedVerdict], rfl⟩
  | upheld =>
    refine Or.inl ⟨rfl, rfl, ?_⟩
    simp only [upheldVerdict, Asset.upheld]
    split
    · rfl
    · next hno =>
      show asset.state.isSettled = true
      cases hs : asset.state <;>
        simp_all [AssetState.isFinalized, AssetState.isSettled]

/-- Resolving a dispute: it was the only open one against its pool and about its asset. -/
theorem resolve (ht : w.Tried) (hc : w.Covered) {d p : ID} {dispute : Dispute}
    {pool : ValidatorPool} {asset : Asset} {acc : GlobalYieldAccumulator} {v : Verdict}
    (hdispute : w.disputes.get? d = some dispute) (hpool : w.pools.get? p = some pool)
    (guards : ResolveGuards dispute pool asset acc w.config w.clockMs)
    (decides : Decides dispute pool asset acc w.config w.clockMs v)
    (hstate : asset.state.isFinalized = true) (hassets : w'.assets = w.assets.put v.asset)
    (hpools : w'.pools = w.pools.put v.pool) (hdisputes : w'.disputes = w.disputes.put v.dispute)
    (hsettled : ∀ b x, w.assets.get? b = some x → x.state.isSettled = true →
      ∃ x', w'.assets.get? b = some x' ∧ x'.state.isSettled = true) : w'.Tried := by
  have hkeeps := decides.keeps
  have hmem := Store.mem_of_get? hdispute
  have hself := guards.pool_recorded hpool
  have hfrozen : pool.status = .frozen := by
    obtain ⟨x, hx, hstatus⟩ := ht.frozen dispute hmem guards.opened
    exact Option.some.inj (hx.symm.trans hself) ▸ hstatus
  have hnew := verdict_statuses decides hstate
  -- another open dispute has another target and is about another asset
  have htarget : ∀ x ∈ w.disputes, Keyed.key x ≠ Keyed.key v.dispute → x.status = .opened →
      x.targetPoolId ≠ pool.id := by
    intro x hx hkey hopen hsame
    refine hkey ((?_ : x.id = dispute.id).trans hkeeps.disputeId.symm)
    exact ht.unique x hx dispute hmem hopen guards.opened (hsame.trans guards.pool)
  have hother : ∀ x ∈ w.disputes, Keyed.key x ≠ Keyed.key v.dispute → x.status = .opened →
      x.assetId ≠ asset.id := by
    intro x hx hkey hopen hsame
    have hid := ht.one_of_asset hc hx hmem hopen guards.opened (hsame.trans guards.asset)
    exact hkey (hid.trans hkeeps.disputeId.symm)
  -- pools and assets other than the ones of the case stay filed
  have hpools' : ∀ q y, q ≠ pool.id → w.pools.get? q = some y → w'.pools.get? q = some y := by
    intro q y hq hy
    rw [hpools]
    exact (Store.get?_put_ne fun hk => hq (hk.symm.trans hkeeps.poolId)).trans hy
  have hassets' : ∀ b y, b ≠ asset.id → w.assets.get? b = some y →
      w'.assets.get? b = some y := by
    intro b y hb hy
    rw [hassets]
    exact (Store.get?_put_ne fun hk => hb (hk.symm.trans hkeeps.assetId)).trans hy
  have hnotOpen : v.dispute.status ≠ .opened := by
    rcases hnew with ⟨hst, -⟩ | ⟨hst, -⟩
    · simp [hst]
    · exact hst
  -- what another dispute says stays said
  have hstill : ∀ {s : DisputeStatus} {q : ID}, q ≠ pool.id →
      (∃ x ∈ w.disputes, x.status = s ∧ x.targetPoolId = q) →
      ∃ x ∈ w'.disputes, x.status = s ∧ x.targetPoolId = q := by
    intro s q hq ⟨x, hx, hst, hxq⟩
    refine ⟨x, ?_, hst, hxq⟩
    rw [hdisputes]
    refine Store.mem_put.mpr (Or.inr ⟨hx, fun hk => hq ?_⟩)
    obtain rfl : x = dispute := Store.eq_of_key_eq hx hmem (hk.trans hkeeps.disputeId)
    rw [← hxq, guards.pool]
  have hvself : w'.pools.get? v.dispute.targetPoolId = some v.pool := by
    rw [hpools, hkeeps.target, ← guards.pool, ← hkeeps.poolId]
    exact Store.get?_put_self w.pools v.pool
  exact {
    frozen := by
      rw [hdisputes]
      intro x hx hopen
      -- the resolved dispute is no longer OPEN, the others are not concerned
      rcases Store.mem_put.mp hx with rfl | ⟨hx, hkey⟩
      · exact absurd hopen hnotOpen
      · obtain ⟨y, hy, hst⟩ := ht.frozen x hx hopen
        exact ⟨y, hpools' _ y (htarget x hx hkey hopen) hy, hst⟩
    disputed := by
      rw [hdisputes]
      intro x hx hopen
      rcases Store.mem_put.mp hx with rfl | ⟨hx, hkey⟩
      · exact absurd hopen hnotOpen
      · obtain ⟨y, hy, hst⟩ := ht.disputed x hx hopen
        exact ⟨y, hassets' _ y (hother x hx hkey hopen) hy, hst⟩
    unique := by
      rw [hdisputes]
      intro x hx y hy hopen hopen'
      rcases Store.mem_put.mp hx with rfl | ⟨hx, -⟩
      · exact absurd hopen hnotOpen
      rcases Store.mem_put.mp hy with rfl | ⟨hy, -⟩
      · exact absurd hopen' hnotOpen
      exact ht.unique x hx y hy hopen hopen'
    opened := by
      rw [hpools]
      intro x hx hst
      rcases Store.mem_put.mp hx with rfl | ⟨hx, hkey⟩
      -- the judged pool is ACTIVE or SLASHED now, no longer FROZEN
      · rcases hnew with ⟨-, hslashed, -⟩ | ⟨-, -, hactive⟩
        · simp [hslashed] at hst
        · simp [hactive] at hst
      · exact hstill (fun hid => hkey (hid.trans hkeeps.poolId.symm)) (ht.opened x hx hst)
    upheld := by
      rw [hpools]
      intro x hx hst
      rcases Store.mem_put.mp hx with rfl | ⟨hx, hkey⟩
      · rcases hnew with ⟨hupheld, -⟩ | ⟨-, -, hactive⟩
        · refine ⟨v.dispute, hdisputes ▸ Store.mem_put.mpr (Or.inl rfl), hupheld, ?_⟩
          rw [hkeeps.target, hkeeps.poolId, guards.pool]
        · simp [hactive] at hst
      · exact hstill (fun hid => hkey (hid.trans hkeeps.poolId.symm)) (ht.upheld x hx hst)
    slashed := by
      rw [hdisputes]
      intro x hx hupheld
      rcases Store.mem_put.mp hx with rfl | ⟨hx, -⟩
      · rcases hnew with ⟨-, hslashed, -⟩ | ⟨-, hno, -⟩
        · exact ⟨v.pool, hvself, hslashed⟩
        · exact absurd hupheld hno
      · obtain ⟨y, hy, hst⟩ := ht.slashed x hx hupheld
        refine ⟨y, hpools' _ y (fun hid => ?_) hy, hst⟩
        rw [hid, guards.pool, hself] at hy
        -- the judged pool was FROZEN, so no earlier verdict had slashed it
        rw [← Option.some.inj hy, hfrozen] at hst
        simp at hst
    settled := by
      rw [hdisputes]
      intro x hx hupheld
      rcases Store.mem_put.mp hx with rfl | ⟨hx, -⟩
      · rcases hnew with ⟨-, -, hst⟩ | ⟨-, hno, -⟩
        · refine ⟨v.asset, ?_, hst⟩
          rw [hassets, hkeeps.disputeAsset, ← guards.asset, ← hkeeps.assetId]
          exact Store.get?_put_self w.assets v.asset
        · exact absurd hupheld hno
      · obtain ⟨y, hy, hst⟩ := ht.settled x hx hupheld
        exact hsettled _ y hy hst }

/-- The asset of a dispute that is being resolved is past its raise. -/
theorem finalized_of_dispute (hl : w.Linked) {d a g : ID} {dispute : Dispute}
    {pool : ValidatorPool} {asset : Asset} {acc : GlobalYieldAccumulator}
    (hdispute : w.disputes.get? d = some dispute) (hasset : w.assets.get? a = some asset)
    (hacc : w.accumulators.get? g = some acc)
    (guards : ResolveGuards dispute pool asset acc w.config w.clockMs) :
    asset.state.isFinalized = true := by
  have hg := hl.accumulatorId hasset hacc (hl.disputed hdispute hacc guards)
  rw [← hl.staged hasset, hg, Option.isSome_some]

/-- One call keeps the cases tried. -/
theorem call (ht : w.Tried) (hw : Reachable w) {c : Call} (h : w.call sender c = .ok w') :
    w'.Tried := by
  have hf := hw.fresh
  -- an upheld verdict is about a settled asset, and stays so
  have hsettled : ∀ b x, w.assets.get? b = some x → x.state.isSettled = true →
      ∃ x', w'.assets.get? b = some x' ∧ x'.state.isSettled = true :=
    fun _ _ hx hs => World.call_settled hw h hx hs
  -- only opening and resolving a dispute change flags and statuses
  by_cases hcourt : (∃ a p g bond evidence reason,
      c = .dispute (.initializeDispute a p g bond evidence reason)) ∨
      ∃ d p a g, c = .dispute (.resolveDispute d p a g)
  · rcases hcourt with ⟨a, p, g, bond, evidence, reason, rfl⟩ | ⟨d, p, a, g, rfl⟩
    · cases World.callDispute_eq_ok.mp h with
      | initializeDispute hasset hpool _ _ guards =>
        exact { ht.challenge hf hasset hpool guards.active rfl rfl rfl rfl with }
    · cases World.callDispute_eq_ok.mp h with
      | resolveDispute hdispute hpool hasset hacc guards decides =>
        exact ht.resolve hw.covered hdispute hpool guards decides
          (finalized_of_dispute hw.linked hdispute hasset hacc guards) rfl rfl rfl hsettled
  · rw [not_or] at hcourt
    have hq := World.call_quiet hf h (fun a p g b e r hc => hcourt.1 ⟨a, p, g, b, e, r, hc⟩)
      fun d p a g hc => hcourt.2 ⟨d, p, a, g, hc⟩
    refine ht.quiet hq fun d' hd' hupheld => ?_
    obtain ⟨d, hd, hsame⟩ := hq.cases d' hd'
    obtain ⟨asset, hasset, hs⟩ := ht.settled d hd (hsame.status.symm.trans hupheld)
    exact hsame.assetId ▸ hsettled _ asset hasset hs

end World.Tried

/-- In every reachable world the cases are tried. -/
theorem Reachable.tried {w : World} (hw : Reachable w) : w.Tried :=
  hw.induct .genesis (fun hw ht h => ht.call hw h) fun _ ht _ => { ht with }

/-! ## The flag of an asset -/

/-- A flagged asset has an OPEN dispute, unless a verdict or a close came first. -/
def World.Flagged (w : World) : Prop := ∀ a asset, w.assets.get? a = some asset →
  asset.disputed = true → asset.state = .compensating ∨ asset.state = .closed ∨
    ∃ d dispute, w.disputes.get? d = some dispute ∧ dispute.status = .opened ∧
      dispute.assetId = a

/-- Behind a verdict or a close there is no way back. -/
theorem World.call_over {w w' : World} {sender : Address} (hw : Reachable w) {c : Call}
    (h : w.call sender c = .ok w') {a : ID} {asset asset' : Asset}
    (hasset : w.assets.get? a = some asset) (hasset' : w'.assets.get? a = some asset')
    (hs : asset.state = .compensating ∨ asset.state = .closed) :
    asset'.state = .compensating ∨ asset'.state = .closed := by
  obtain ⟨x, hx, hc⟩ := World.call_custody hw h a asset hasset
  obtain rfl := Option.some.inj (hx.symm.trans hasset')
  rcases hc.next with hsame | hnext
  · rwa [hsame]
  · generalize x.state = s at hnext ⊢
    rcases hs with hs | hs <;> rw [hs] at hnext <;> cases hnext
    exact Or.inr rfl

/-- One call keeps the flags to the open disputes. -/
theorem World.Flagged.call {w w' : World} {sender : Address} (hp : w.Flagged) (hw : Reachable w)
    {c : Call} (h : w.call sender c = .ok w') : w'.Flagged := by
  intro a asset' hasset' hflag
  rcases World.call_assets h hasset' with hold | ⟨-, -, _, -, hlisted⟩
  case inr => simp [hlisted.disputed] at hflag
  obtain ⟨asset, hasset⟩ := Option.isSome_iff_exists.mp hold
  -- an unchanged asset is flagged for the same reason as before
  have hsame : asset'.disputed = asset.disputed → (∀ d dispute,
      w.disputes.get? d = some dispute → dispute.status = .opened → dispute.assetId = a →
      ∃ dispute', w'.disputes.get? d = some dispute' ∧ dispute.SameCase dispute') →
      asset'.state = .compensating ∨ asset'.state = .closed ∨
      ∃ d dispute, w'.disputes.get? d = some dispute ∧ dispute.status = .opened ∧
        dispute.assetId = a := by
    intro hkept hstill
    have hover := World.call_over hw h hasset hasset'
    rcases hp a asset hasset (hkept ▸ hflag) with hs | hs | ⟨d, dispute, hd, hopen, ha⟩
    · exact (hover (Or.inl hs)).imp_right Or.inl
    · exact (hover (Or.inr hs)).imp_right Or.inl
    · obtain ⟨dispute', hd', hcase⟩ := hstill d dispute hd hopen ha
      exact Or.inr (Or.inr ⟨d, dispute', hd', hcase.status.trans hopen, hcase.assetId.trans ha⟩)
  by_cases hcourt : (∃ a p g bond evidence reason,
      c = .dispute (.initializeDispute a p g bond evidence reason)) ∨
      ∃ d p a g, c = .dispute (.resolveDispute d p a g)
  -- opening flags one asset, resolving unflags the one judged
  · rcases hcourt with ⟨b, p, g, bond, evidence, reason, rfl⟩ | ⟨d, p, b, g, rfl⟩
    · cases World.callDispute_eq_ok.mp h with
      | @initializeDispute _ _ _ _ _ _ x pool acc _ hx =>
        -- the new dispute is the reason for the flag it sets
        by_cases hb : x.id = a
        · exact Or.inr (Or.inr ⟨w.nextId, _, Store.get?_put_self _ (Dispute.opening x pool acc
            w.config bond.val evidence reason w.clockMs sender w.nextId), rfl, hb⟩)
        · have hkeep : asset' = asset := by
            have hne := Store.get?_put_ne (s := w.assets)
              (show Keyed.key (setDisputed x true) ≠ a from hb)
            exact Option.some.inj (hasset'.symm.trans (hne.trans hasset))
          refine hsame (hkeep ▸ rfl) fun d dispute hd _ _ => ⟨dispute, ?_, .refl dispute⟩
          have hlt := hw.fresh.disputes.get?_lt hd
          exact (Store.get?_put_ne (Nat.ne_of_gt hlt)).trans hd
    · cases World.callDispute_eq_ok.mp h with
      | @resolveDispute _ _ _ _ dispute pool x acc v hdispute hpool hx hacc guards decides =>
        have hkeeps := decides.keeps
        -- a verdict takes the flag off, or leaves it on a seized asset
        by_cases hb : x.id = a
        · have hv : asset' = v.asset := by
            have hself : (w.assets.put v.asset).get? a = some v.asset := by
              rw [← hb, ← hkeeps.assetId]
              exact Store.get?_put_self w.assets v.asset
            exact Option.some.inj (hasset'.symm.trans hself)
          rw [hv] at hflag ⊢
          cases decides with
          | expired => simp [expiredVerdict, setDisputed] at hflag
          | rejected => simp [rejectedVerdict, setDisputed] at hflag
          | upheld =>
            simp only [upheldVerdict, Asset.upheld] at hflag ⊢
            split at hflag
            · next hstate => exact Or.inl (by rw [if_pos hstate]; rfl)
            · simp [setDisputed] at hflag
        · have hkeep : asset' = asset := by
            have hne := Store.get?_put_ne (s := w.assets)
              (show v.asset.id ≠ a from hkeeps.assetId ▸ hb)
            exact Option.some.inj (hasset'.symm.trans (hne.trans hasset))
          refine hsame (hkeep ▸ rfl) fun e other he _ ha => ⟨other, ?_, .refl other⟩
          -- the dispute behind the flag is about `a`, so it is not the resolved one
          have hne : Keyed.key v.dispute ≠ e := by
            intro hk
            have hd : dispute.id = e := hkeeps.disputeId.symm.trans hk
            have hself : w.disputes.get? dispute.id = some dispute :=
              Store.get?_key (Store.mem_of_get? hdispute)
            obtain rfl : dispute = other := Option.some.inj (hself.symm.trans (hd ▸ he))
            exact hb (guards.asset.trans ha)
          exact (Store.get?_put_ne hne).trans he
  · rw [not_or] at hcourt
    have hq := World.call_quiet hw.fresh h
      (fun a p g b e r hc => hcourt.1 ⟨a, p, g, b, e, r, hc⟩)
      fun d p a g hc => hcourt.2 ⟨d, p, a, g, hc⟩
    obtain ⟨x, hx, hflag'⟩ := hq.assets a asset hasset
    obtain rfl := Option.some.inj (hx.symm.trans hasset')
    exact hsame hflag' fun d dispute hd _ _ => hq.disputes d dispute hd

/-- In every reachable world a flagged asset has an open dispute. -/
theorem Reachable.flagged {w : World} (hw : Reachable w) : w.Flagged :=
  hw.induct (fun _ _ _ hasset => by simp [World.genesis] at hasset)
    (fun hw hp h => hp.call hw h) fun _ hp _ => hp

/-- An asset in operation is flagged exactly while a dispute about it is OPEN. -/
theorem Reachable.disputed_iff {w : World} (hw : Reachable w) {a : ID} {asset : Asset}
    (hasset : w.assets.get? a = some asset)
    (hstate : asset.state = .executing ∨ asset.state = .operational) :
    asset.disputed = true ↔ ∃ d dispute, w.disputes.get? d = some dispute ∧
      dispute.status = .opened ∧ dispute.assetId = a := by
  constructor
  · intro hflag
    -- a flag is left behind only by an upheld dispute, whose asset is settled
    rcases hw.flagged a asset hasset hflag with hs | hs | hopen
    · rcases hstate with h | h <;> simp [h] at hs
    · rcases hstate with h | h <;> simp [h] at hs
    · exact hopen
  · intro ⟨d, dispute, hd, hopen, ha⟩
    obtain ⟨x, hx, hflag⟩ := hw.tried.disputed dispute (Store.mem_of_get? hd) hopen
    rw [ha, hasset] at hx
    exact Option.some.inj hx ▸ hflag

/-! ## UPHELD is final -/

/-- An UPHELD dispute stays UPHELD. -/
theorem World.Path.upheld {Q : CallRule} {w w' : World} (hw : Reachable w) (h : w.Path Q w')
    {d : ID} {dispute : Dispute} (hdispute : w.disputes.get? d = some dispute)
    (hupheld : dispute.status = .upheld) :
    ∃ dispute', w'.disputes.get? d = some dispute' ∧ dispute'.status = .upheld ∧
      dispute'.targetPoolId = dispute.targetPoolId := by
  refine h.preserves (P := fun u => ∃ x, u.disputes.get? d = some x ∧ x.status = .upheld ∧
    x.targetPoolId = dispute.targetPoolId) hw ⟨dispute, hdispute, hupheld, rfl⟩ ?_ fun _ hP _ => hP
  -- nothing is done to a dispute that is no longer open, but for the rewards of a rejected one
  intro u sender c u' hu hP _ hcall
  obtain ⟨x, hx, hstatus, htarget⟩ := hP
  obtain ⟨x', hx', hhear⟩ := World.call_hearing hu.fresh hcall d x hx
  refine ⟨x', hx', ?_⟩
  cases hhear with
  | keep => exact ⟨hstatus, htarget⟩
  | vote _ guards => exact absurd guards.opened (by simp [hstatus])
  | verdict _ _ _ guards => exact absurd guards.opened (by simp [hstatus])
  | reward rejected => simp [hstatus] at rejected

/-! ## While a dispute is OPEN -/

/-- Nobody contests the coverage of `a`: no dispute about it is OPEN. -/
def World.Uncontested (w : World) (a : ID) : Prop :=
  ∀ d dispute, w.disputes.get? d = some dispute → dispute.assetId = a → dispute.status ≠ .opened

/-- Parties, asset and bond of the dispute are as they were. -/
structure Dispute.SameCharge (d d' : Dispute) : Prop where
  assetId : d'.assetId = d.assetId
  target : d'.targetPoolId = d.targetPoolId
  accumulator : d'.accumulatorId = d.accumulatorId
  challenger : d'.challenger = d.challenger
  bond : d'.bond = d.bond

theorem Dispute.SameCharge.refl (d : Dispute) : d.SameCharge d := ⟨rfl, rfl, rfl, rfl, rfl⟩

theorem Dispute.SameCharge.trans {d d' d'' : Dispute} (h : d.SameCharge d')
    (h' : d'.SameCharge d'') : d.SameCharge d'' :=
  ⟨h'.assetId.trans h.assetId, h'.target.trans h.target, h'.accumulator.trans h.accumulator,
    h'.challenger.trans h.challenger, h'.bond.trans h.bond⟩

/-- A verdict ends the dispute. -/
theorem Decides.not_opened {dispute : Dispute} {pool : ValidatorPool} {asset : Asset}
    {acc : GlobalYieldAccumulator} {config : ProtocolConfig} {now : ℕ} {v : Verdict}
    (h : Decides dispute pool asset acc config now v) : v.dispute.status ≠ .opened := by
  cases h with
  | expired => simp [expiredVerdict]
  | upheld => simp [upheldVerdict]
  | rejected => simp [rejectedVerdict]

/-- A dispute that is OPEN after a call was OPEN before, on the same charge. -/
theorem World.call_charge {w w' : World} {sender : Address} (hf : w.Fresh) {c : Call}
    (h : w.call sender c = .ok w') {d : ID} {dispute : Dispute}
    (hdispute : w.disputes.get? d = some dispute) :
    ∃ dispute', w'.disputes.get? d = some dispute' ∧
      (dispute'.status = .opened → dispute.status = .opened ∧ dispute.SameCharge dispute') := by
  obtain ⟨dispute', hdispute', hhear⟩ := World.call_hearing hf h d dispute hdispute
  refine ⟨dispute', hdispute', fun hopen => ?_⟩
  -- the charge is written at the opening; a vote only adds to the tally
  cases hhear with
  | keep => exact ⟨hopen, .refl dispute⟩
  | vote _ guards => exact ⟨guards.opened, ⟨rfl, rfl, rfl, rfl, rfl⟩⟩
  | verdict _ _ _ _ decides => exact absurd hopen decides.not_opened
  | reward rejected =>
    have hstatus : dispute.status = .opened := hopen
    rw [rejected] at hstatus
    simp at hstatus

/-- A dispute that was resolved is not OPEN. -/
theorem World.call_resolved {w w' : World} {sender : Address} {d p a g : ID}
    (h : w.call sender (.dispute (.resolveDispute d p a g)) = .ok w') :
    ∃ dispute', w'.disputes.get? d = some dispute' ∧ dispute'.status ≠ .opened := by
  cases World.callDispute_eq_ok.mp h with
  | resolveDispute hdispute _ _ _ _ decides =>
    exact ⟨_, Store.get?_replace _ hdispute decides.keeps.disputeId, decides.not_opened⟩

/-- The asset of a dispute is past its raise. -/
theorem Reachable.finalized_of_dispute {w : World} (hw : Reachable w) {d : ID} {dispute : Dispute}
    (hdispute : w.disputes.get? d = some dispute) {asset : Asset}
    (hasset : w.assets.get? dispute.assetId = some asset) : asset.state.isFinalized = true := by
  obtain ⟨acc, hacc, ha⟩ := hw.linked.disputes dispute (Store.mem_of_get? hdispute)
  have hid : asset.id = dispute.assetId := Store.key_of_get? hasset
  rw [← hw.linked.staged hasset, hw.linked.accumulatorId hasset hacc (ha.trans hid.symm),
    Option.isSome_some]

/-- While a dispute stays OPEN no other verdict is given about its asset. -/
theorem Reachable.no_other_verdict {w w' : World} (hw : Reachable w) {sender : Address}
    {d e p a g : ID} (h : w.call sender (.dispute (.resolveDispute e p a g)) = .ok w')
    {dispute dispute' : Dispute} (hdispute : w.disputes.get? d = some dispute)
    (hopen : dispute.status = .opened) (hdispute' : w'.disputes.get? d = some dispute')
    (hopen' : dispute'.status = .opened) : dispute.assetId ≠ a := by
  intro ha
  cases World.callDispute_eq_ok.mp h with
  | @resolveDispute _ _ _ _ other pool asset acc v hother hpool hasset hacc guards decides =>
    -- both are about the asset, so they are the same dispute
    have hid : a = other.assetId := (Store.key_of_get? hasset).symm.trans guards.asset
    have hsame := hw.tried.one_of_asset hw.covered (Store.mem_of_get? hdispute)
      (Store.mem_of_get? hother) hopen guards.opened (ha.trans hid)
    have hde : d = e := by
      rw [← show dispute.id = d from Store.key_of_get? hdispute, hsame]
      exact Store.key_of_get? hother
    subst hde
    obtain ⟨z, hz, hno⟩ := World.call_resolved h
    exact hno (Option.some.inj (hz.symm.trans hdispute') ▸ hopen')

/-- Along a path a dispute that is still OPEN is on the same charge. -/
theorem World.Path.charge {Q : CallRule} {w w' : World} (hw : Reachable w) (h : w.Path Q w')
    {d : ID} {dispute : Dispute} (hdispute : w.disputes.get? d = some dispute) :
    ∃ dispute', w'.disputes.get? d = some dispute' ∧
      (dispute'.status = .opened → dispute.status = .opened ∧ dispute.SameCharge dispute') := by
  refine h.preserves (P := fun u => ∃ x, u.disputes.get? d = some x ∧
    (x.status = .opened → dispute.status = .opened ∧ dispute.SameCharge x)) hw
    ⟨dispute, hdispute, fun hopen => ⟨hopen, .refl dispute⟩⟩ ?_ fun _ hP _ => hP
  intro u sender c u' hu hP _ hcall
  obtain ⟨x, hx, hsame⟩ := hP
  obtain ⟨x', hx', hkept⟩ := World.call_charge hu.fresh hcall hx
  refine ⟨x', hx', fun hopen => ?_⟩
  -- open after the call means open before it, so the hypothesis applies
  obtain ⟨hopen', hcharge⟩ := hkept hopen
  exact ⟨(hsame hopen').1, (hsame hopen').2.trans hcharge⟩

end Gally

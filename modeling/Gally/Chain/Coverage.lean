import Gally.Chain.Custody

/-!
# Stake behind the vouches

A pool locks exactly the coverage recorded on the assets it vouches for, and its counter
of active vouches covers every raise it still has to end and every coverage it still has
to release. Disputes name the pool that vouched for their asset.

## Key results

- `Reachable.covered`, `Reachable.withinCaps`
-/

namespace Gally

open Checked

/-! ## The configuration -/

/-- A setter keeps the configuration within its caps. -/
theorem ProtocolConfig.WithinCaps.run {config config' : ProtocolConfig} (h : config.WithinCaps)
    {c : ProtocolCall} {events : List Event} (hrun : c.run config = .ok (config', events)) :
    config'.WithinCaps := by
  cases c with
  | adminSetFeeBps n =>
    obtain ⟨-, hvalid, heq⟩ := setParam_eq_ok.mp hrun
    obtain ⟨rfl, -⟩ := Prod.mk.inj heq
    -- the setter checked the new value against its cap
    exact { h with fee := hvalid }
  | adminSetTreasury =>
    simp only [ProtocolCall.run, adminSetTreasury, seq_eq_ok, return_eq_ok, Prod.mk.injEq] at hrun
    obtain ⟨-, -, rfl, -⟩ := hrun
    exact { h with }
  | adminSetMinValidatorStake n =>
    obtain ⟨-, -, heq⟩ := setParam_eq_ok.mp hrun
    obtain ⟨rfl, -⟩ := Prod.mk.inj heq
    exact { h with }
  | adminSetVouchCoverageBps n =>
    obtain ⟨-, hvalid, heq⟩ := setParam_eq_ok.mp hrun
    obtain ⟨rfl, -⟩ := Prod.mk.inj heq
    exact { h with coverage := hvalid.2 }
  | adminSetEntityCollateralBps n =>
    obtain ⟨-, hvalid, heq⟩ := setParam_eq_ok.mp hrun
    obtain ⟨rfl, -⟩ := Prod.mk.inj heq
    exact { h with collateral := hvalid.2 }
  | adminSetVouchTimeoutMs n =>
    obtain ⟨-, -, heq⟩ := setParam_eq_ok.mp hrun
    obtain ⟨rfl, -⟩ := Prod.mk.inj heq
    exact { h with }
  | adminSetMinWrapDurationMs n =>
    obtain ⟨-, -, heq⟩ := setParam_eq_ok.mp hrun
    obtain ⟨rfl, -⟩ := Prod.mk.inj heq
    exact { h with }
  | adminSetDisputeParams new =>
    simp only [ProtocolCall.run, adminSetDisputeParams, seq_eq_ok, ensure_eq_ok, return_eq_ok,
      Prod.mk.injEq] at hrun
    obtain ⟨-, -, -, -, -, hquorum, -, hthreshold, -, -, -, hbounty, -, -, -, -, rfl, -⟩ := hrun
    -- seven values are checked, of which three have a cap to keep
    exact { h with
      quorum := hquorum
      threshold := hthreshold.1
      bounty := hbounty }
  | adminEmergencyStop =>
    simp only [ProtocolCall.run, adminEmergencyStop, seq_eq_ok, return_eq_ok,
      Prod.mk.injEq] at hrun
    obtain ⟨-, -, rfl, -⟩ := hrun
    exact { h with }
  | adminResume =>
    simp only [ProtocolCall.run, adminResume, seq_eq_ok, return_eq_ok, Prod.mk.injEq] at hrun
    obtain ⟨-, -, rfl, -⟩ := hrun
    exact { h with }

/-- The parameters of disputes that are read at settlement are the same. -/
structure ProtocolConfig.SameParams (config config' : ProtocolConfig) : Prop where
  window : config'.disputeWindowMs = config.disputeWindowMs
  grace : config'.compensationGraceMs = config.compensationGraceMs
  juryMinStake : config'.juryMinStake = config.juryMinStake

/-- They are the ones in `new`, which were checked to be positive. -/
structure DisputeParams.SetIn (new : DisputeParams) (config : ProtocolConfig) : Prop where
  window : config.disputeWindowMs = new.disputeWindowMs.val
  grace : config.compensationGraceMs = new.compensationGraceMs.val
  juryMinStake : config.juryMinStake = new.juryMinStake.val
  positive : 0 < new.juryMinStake.val

/-- Only `adminSetDisputeParams` sets them. -/
theorem ProtocolConfig.run_params {config config' : ProtocolConfig} {c : ProtocolCall}
    {events : List Event} (hrun : c.run config = .ok (config', events)) :
    config.SameParams config' ∨ ∃ new, c = .adminSetDisputeParams new ∧ new.SetIn config' := by
  -- only the dispute parameters set a field that this relation looks at
  cases c with
  | adminSetDisputeParams new =>
    simp only [ProtocolCall.run, adminSetDisputeParams, seq_eq_ok, ensure_eq_ok, return_eq_ok,
      Prod.mk.injEq] at hrun
    obtain ⟨-, -, -, -, -, -, -, -, -, hpos, -, -, -, -, -, -, rfl, -⟩ := hrun
    exact Or.inr ⟨new, rfl, rfl, rfl, rfl, hpos⟩
  | adminSetTreasury =>
    simp only [ProtocolCall.run, adminSetTreasury, seq_eq_ok, return_eq_ok, Prod.mk.injEq] at hrun
    obtain ⟨-, -, rfl, -⟩ := hrun
    exact Or.inl ⟨rfl, rfl, rfl⟩
  | adminEmergencyStop =>
    simp only [ProtocolCall.run, adminEmergencyStop, seq_eq_ok, return_eq_ok,
      Prod.mk.injEq] at hrun
    obtain ⟨-, -, rfl, -⟩ := hrun
    exact Or.inl ⟨rfl, rfl, rfl⟩
  | adminResume =>
    simp only [ProtocolCall.run, adminResume, seq_eq_ok, return_eq_ok, Prod.mk.injEq] at hrun
    obtain ⟨-, -, rfl, -⟩ := hrun
    exact Or.inl ⟨rfl, rfl, rfl⟩
  -- all other setters go through `set_param` and change a field of their own
  | _ =>
    obtain ⟨-, -, heq⟩ := setParam_eq_ok.mp hrun
    obtain ⟨rfl, -⟩ := Prod.mk.inj heq
    exact Or.inl ⟨rfl, rfl, rfl⟩

/-- Only governance writes the configuration. -/
theorem World.call_config {w w' : World} {sender : Address} {c : Call}
    (h : w.call sender c = .ok w') : w'.config = w.config ∨
      ∃ p events, c = .protocol p ∧ p.run w.config = .ok (w'.config, events) := by
  -- the protocol calls run on the configuration, all others leave it alone
  cases c with
  | protocol c =>
    obtain ⟨-, config, events, hrun, rfl⟩ := World.protocolCall_eq_ok.mp h
    exact Or.inr ⟨c, events, rfl, hrun⟩
  | validator c => cases World.validatorCall_eq_ok.mp h <;> exact Or.inl rfl
  | asset c => cases World.assetCall_eq_ok.mp h <;> exact Or.inl rfl
  | accumulator c => cases World.accumulatorCall_eq_ok.mp h <;> exact Or.inl rfl
  | dispute c => cases World.disputeCall_eq_ok.mp h <;> exact Or.inl rfl
  | framework c => cases World.frameworkCall_eq_ok.mp h <;> exact Or.inl rfl

/-- The configuration of a reachable world is within the caps. -/
theorem Reachable.withinCaps {w : World} (hw : Reachable w) : w.config.WithinCaps := by
  refine hw.induct (P := fun w => w.config.WithinCaps) ?_ ?_ fun _ h _ => h
  · intro admin
    exact ProtocolConfig.init_withinCaps 0 admin
  · intro w sender c w' _ hw h
    rcases World.call_config h with hsame | ⟨_, _, _, hrun⟩
    · exact hsame ▸ hw
    · exact hw.run hrun

/-- A juror always needs some stake. -/
theorem Reachable.juryMinStake_pos {w : World} (hw : Reachable w) : 0 < w.config.juryMinStake := by
  refine hw.induct (P := fun w => 0 < w.config.juryMinStake) ?_ ?_ fun _ h _ => h
  · intro admin
    simp [World.genesis, ProtocolConfig.init]
  · intro w sender c w' _ hpos h
    rcases World.call_config h with hsame | ⟨_, _, _, hrun⟩
    · exact hsame ▸ hpos
    · rcases ProtocolConfig.run_params hrun with hsame | ⟨new, -, hnew⟩
      · exact hsame.juryMinStake ▸ hpos
      · exact hnew.juryMinStake ▸ hnew.positive

/-! ## Coverage -/

/-- The stake pool `p` has locked for an asset. -/
def Asset.coverageIn (p : ID) (asset : Asset) : ℕ :=
  if asset.validatorPoolId = some p then asset.coverageLocked else 0

/-- Whether pool `p` still has a vouch for the asset to end. -/
def Asset.vouchIn (p : ID) (asset : Asset) : ℕ :=
  if asset.validatorPoolId = some p ∧ (asset.state = .funding ∨ 0 < asset.coverageLocked)
    then 1 else 0

/-- The stake of the pool backs its vouches. -/
structure ValidatorPool.Backs (pool : ValidatorPool) (assets : Store Asset) : Prop where
  locked : pool.locked = assets.sum (Asset.coverageIn pool.id)
  vouches : assets.sum (Asset.vouchIn pool.id) ≤ pool.activeVouches
  stake : pool.locked ≤ pool.stake

/-- Vouches, pools and disputes agree. -/
structure World.Covered (w : World) : Prop where
  unvouched : ∀ asset ∈ w.assets, asset.state = .pendingVouch →
    asset.validatorPoolId = none ∧ asset.coverageLocked = 0
  pool : ∀ asset ∈ w.assets, ∀ p, asset.validatorPoolId = some p →
    ∃ pool, w.pools.get? p = some pool
  backs : ∀ pool ∈ w.pools, pool.Backs w.assets
  disputes : ∀ dispute ∈ w.disputes, ∃ asset, w.assets.get? dispute.assetId = some asset ∧
    asset.validatorPoolId = some dispute.targetPoolId

/-- The asset is vouched for as before. -/
structure Asset.KeepsVouch (asset asset' : Asset) : Prop where
  id : asset'.id = asset.id
  pool : asset'.validatorPoolId = asset.validatorPoolId
  coverage : asset'.coverageLocked = asset.coverageLocked
  pending : asset'.state = .pendingVouch → asset.state = .pendingVouch
  funding : asset'.state = .funding → asset.state = .funding

namespace Asset.KeepsVouch

variable {asset asset' : Asset}

/-- The coverage in a pool is unchanged. -/
theorem coverageIn (h : asset.KeepsVouch asset') (p : ID) :
    asset'.coverageIn p = asset.coverageIn p := by
  simp only [Asset.coverageIn, h.pool, h.coverage]

/-- The vouch of a pool is not a new one. -/
theorem vouchIn (h : asset.KeepsVouch asset') (p : ID) : asset'.vouchIn p ≤ asset.vouchIn p := by
  have hfunding := h.funding
  simp only [Asset.vouchIn, h.pool, h.coverage]
  split
  · next hold =>
    rw [if_pos ⟨hold.1, hold.2.imp_left hfunding⟩]
  · exact Nat.zero_le _

/-- A change of state only. -/
theorem of_state (hid : asset'.id = asset.id)
    (hpool : asset'.validatorPoolId = asset.validatorPoolId)
    (hcoverage : asset'.coverageLocked = asset.coverageLocked)
    (hstate : asset'.state = asset.state ∨
      asset'.state ≠ .pendingVouch ∧ asset'.state ≠ .funding) : asset.KeepsVouch asset' where
  id := hid
  pool := hpool
  coverage := hcoverage
  -- a state that is neither PENDING_VOUCH nor FUNDING leaves no pending promise
  pending h := by
    rcases hstate with hsame | hno
    · exact hsame ▸ h
    · exact absurd h hno.1
  funding h := by
    rcases hstate with hsame | hno
    · exact hsame ▸ h
    · exact absurd h hno.2

end Asset.KeepsVouch

/-- A step that changes an asset together with the pool that vouches for it. -/
structure VouchStep (asset asset' : Asset) (pool pool' : ValidatorPool) : Prop where
  assetId : asset'.id = asset.id
  poolId : pool'.id = pool.id
  before : asset.state = .pendingVouch ∨ asset.validatorPoolId = some pool.id
  after : asset'.validatorPoolId = some pool.id
  vouched : asset'.state ≠ .pendingVouch
  locked : pool'.locked + asset.coverageLocked = pool.locked + asset'.coverageLocked
  vouches : pool.activeVouches + asset'.vouchIn pool.id ≤
    pool'.activeVouches + asset.vouchIn pool.id
  stake : pool.locked ≤ pool.stake → pool'.locked ≤ pool'.stake

namespace World.Covered

variable {w w' : World} {sender : Address}

/-- Nothing is covered in the first world. -/
theorem genesis (admin : Address) : (World.genesis admin).Covered where
  unvouched := by simp [World.genesis]
  pool := by simp [World.genesis]
  backs := by simp [World.genesis]
  disputes := by simp [World.genesis]

/-- The asset a dispute is about, after one asset was replaced by one with the same
    vouching pool. -/
theorem disputes_put (hc : w.Covered) {a : ID} {asset : Asset} (asset' : Asset)
    (hasset : w.assets.get? a = some asset) (hid : asset'.id = asset.id)
    (hpool : asset.state = .pendingVouch ∨ asset'.validatorPoolId = asset.validatorPoolId) :
    ∀ dispute ∈ w.disputes, ∃ x, (w.assets.put asset').get? dispute.assetId = some x ∧
      x.validatorPoolId = some dispute.targetPoolId := by
  intro dispute hd
  obtain ⟨x, hx, hvouch⟩ := hc.disputes dispute hd
  rw [Store.get?_put]
  split
  -- the accused asset is the one that was replaced, or another one
  · next hkey =>
    obtain rfl : a = dispute.assetId := (Store.key_of_get? hasset).symm.trans (hid.symm.trans hkey)
    obtain rfl : x = asset := Option.some.inj (hx.symm.trans hasset)
    refine ⟨asset', rfl, ?_⟩
    -- a pending asset has no pool, so no dispute can have accused it
    rcases hpool with hpending | hsame
    · rw [(hc.unvouched x (Store.mem_of_get? hasset) hpending).1] at hvouch
      simp at hvouch
    · exact hsame.trans hvouch
  · exact ⟨x, hx, hvouch⟩

/-- A call that replaces an asset without touching its vouch. -/
theorem ofAsset (hc : w.Covered) {a : ID} {asset asset' : Asset}
    (hasset : w.assets.get? a = some asset) (hassets : w'.assets = w.assets.put asset')
    (hpools : w'.pools = w.pools) (hdisputes : w'.disputes = w.disputes)
    (hkeeps : asset.KeepsVouch asset') : w'.Covered where
  unvouched := by
    rw [hassets]
    -- an asset that is still pending was pending before
    refine Store.forall_put (fun hpending => ?_) hc.unvouched
    rw [hkeeps.pool, hkeeps.coverage]
    exact hc.unvouched asset (Store.mem_of_get? hasset) (hkeeps.pending hpending)
  pool := by
    rw [hassets, hpools]
    refine Store.forall_put (fun p hp => ?_) hc.pool
    exact hc.pool asset (Store.mem_of_get? hasset) p (hkeeps.pool ▸ hp)
  backs := by
    rw [hassets, hpools]
    intro pool hpool
    have hb := hc.backs pool hpool
    -- the sums over all assets change by nothing, or lose one vouch
    have hlocked := Store.sum_replace asset' hasset hkeeps.id (Asset.coverageIn pool.id)
    have hvouches := Store.sum_replace asset' hasset hkeeps.id (Asset.vouchIn pool.id)
    have hsame := hkeeps.coverageIn pool.id
    have hless := hkeeps.vouchIn pool.id
    have hold := hb.locked
    have hcount := hb.vouches
    exact ⟨by omega, by omega, hb.stake⟩
  disputes := by
    rw [hassets, hdisputes]
    exact hc.disputes_put asset' hasset hkeeps.id (Or.inr hkeeps.pool)

/-- A call that replaces a pool without touching its vouches. -/
theorem ofPool (hc : w.Covered) {p : ID} {pool pool' : ValidatorPool}
    (hpool : w.pools.get? p = some pool) (hpools : w'.pools = w.pools.put pool')
    (hassets : w'.assets = w.assets) (hdisputes : w'.disputes = w.disputes)
    (hid : pool'.id = pool.id) (hlocked : pool'.locked = pool.locked)
    (hvouches : pool'.activeVouches = pool.activeVouches) (hstake : pool'.locked ≤ pool'.stake) :
    w'.Covered where
  unvouched := hassets ▸ hc.unvouched
  -- the pool that was replaced is still there under its ID
  pool := by
    rw [hassets, hpools]
    intro asset hasset q hq
    obtain ⟨x, hx⟩ := hc.pool asset hasset q hq
    rw [Store.get?_put]
    split
    · exact ⟨pool', rfl⟩
    · exact ⟨x, hx⟩
  backs := by
    rw [hassets, hpools]
    have hb := hc.backs pool (Store.mem_of_get? hpool)
    refine Store.forall_put ⟨?_, ?_, hstake⟩ hc.backs
    · rw [hlocked, hid, hb.locked]
    · rw [hvouches, hid]
      exact hb.vouches
  disputes := by
    rw [hassets, hdisputes]
    exact hc.disputes

/-- What is vouched for is not a new listing. -/
theorem not_pending (hc : w.Covered) {a p : ID} {asset : Asset}
    (hasset : w.assets.get? a = some asset) (hp : asset.validatorPoolId = some p) :
    asset.state ≠ .pendingVouch := by
  intro hpending
  rw [(hc.unvouched asset (Store.mem_of_get? hasset) hpending).1] at hp
  simp at hp

/-- The coverage of one asset is part of what its pool locks. -/
theorem coverage_le (hc : w.Covered) {a p : ID} {asset : Asset} {pool : ValidatorPool}
    (hasset : w.assets.get? a = some asset) (hpool : w.pools.get? p = some pool)
    (hvouch : asset.validatorPoolId = some pool.id) : asset.coverageLocked ≤ pool.locked := by
  have hle := Store.le_sum (Store.mem_of_get? hasset) (Asset.coverageIn pool.id)
  rw [← (hc.backs pool (Store.mem_of_get? hpool)).locked, Asset.coverageIn, if_pos hvouch] at hle
  exact hle

/-- Replacing an asset and its pool. -/
theorem putBoth (hc : w.Covered) {a p : ID} {asset asset' : Asset} {pool pool' : ValidatorPool}
    (hasset : w.assets.get? a = some asset) (hpool : w.pools.get? p = some pool)
    (h : VouchStep asset asset' pool pool') :
    World.Covered { w with assets := w.assets.put asset', pools := w.pools.put pool' } where
  unvouched := Store.forall_put (fun hpending => absurd hpending h.vouched) hc.unvouched
  pool := by
    have hpools : ∀ q x, w.pools.get? q = some x → ∃ x', (w.pools.put pool').get? q = some x' := by
      intro q x hx
      rw [Store.get?_put]
      split
      · exact ⟨pool', rfl⟩
      · exact ⟨x, hx⟩
    refine Store.forall_put (fun q hq => ?_) fun x hx q hq => ?_
    · rw [h.after, Option.some.injEq] at hq
      refine hpools q pool ?_
      rw [← hq]
      exact Store.get?_key (Store.mem_of_get? hpool)
    · obtain ⟨y, hy⟩ := hc.pool x hx q hq
      exact hpools q y hy
  backs := by
    have hsum : ∀ q, asset.coverageIn q + (w.assets.put asset').sum (Asset.coverageIn q) =
        asset'.coverageIn q + w.assets.sum (Asset.coverageIn q) := fun q =>
      Store.sum_replace asset' hasset h.assetId (Asset.coverageIn q)
    have hcount : ∀ q, asset.vouchIn q + (w.assets.put asset').sum (Asset.vouchIn q) =
        asset'.vouchIn q + w.assets.sum (Asset.vouchIn q) := fun q =>
      Store.sum_replace asset' hasset h.assetId (Asset.vouchIn q)
    -- before the vouch the asset counts nowhere
    have hbefore : ∀ q, q ≠ pool.id → asset.coverageIn q = 0 ∧ asset.vouchIn q = 0 := by
      intro q hq
      have hne : asset.validatorPoolId ≠ some q := by
        rcases h.before with hpending | hvouch
        · rw [(hc.unvouched asset (Store.mem_of_get? hasset) hpending).1]
          simp
        · rw [hvouch]
          simpa using hq.symm
      exact ⟨if_neg hne, if_neg fun hv => hne hv.1⟩
    -- and afterwards only in its own pool
    have hafter : ∀ q, q ≠ pool.id → asset'.coverageIn q = 0 ∧ asset'.vouchIn q = 0 := by
      intro q hq
      have hne : asset'.validatorPoolId ≠ some q := by
        rw [h.after]
        simpa using hq.symm
      exact ⟨if_neg hne, if_neg fun hv => hne hv.1⟩
    intro x hx
    -- the pool of the vouch, and every other one
    rcases Store.mem_put.mp hx with rfl | ⟨hx, hkey⟩
    · have hb := hc.backs pool (Store.mem_of_get? hpool)
      have hlocked := h.locked
      have hvouches := h.vouches
      have hold := hb.locked
      have hless := hb.vouches
      have hsum := hsum pool.id
      have hcount := hcount pool.id
      have hnow : asset'.coverageIn pool.id = asset'.coverageLocked := if_pos h.after
      -- a pending asset locks no coverage, so both sides are zero
      have hthen : asset.coverageIn pool.id = asset.coverageLocked := by
        rcases h.before with hpending | hvouch
        · have hzero := hc.unvouched asset (Store.mem_of_get? hasset) hpending
          rw [Asset.coverageIn, hzero.1, hzero.2]
          simp
        · exact if_pos hvouch
      refine ⟨?_, ?_, h.stake hb.stake⟩
      · rw [h.poolId]
        simp only
        omega
      · rw [h.poolId]
        simp only
        omega
    · have hne : x.id ≠ pool.id := fun hid => hkey (hid.trans h.poolId.symm)
      have hb := hc.backs x hx
      have hold := hb.locked
      have hless := hb.vouches
      have hsum := hsum x.id
      have hcount := hcount x.id
      have hthen := hbefore x.id hne
      have hnow := hafter x.id hne
      exact ⟨by simp only; omega, by simp only; omega, hb.stake⟩
  disputes := by
    refine hc.disputes_put asset' hasset h.assetId ?_
    exact h.before.imp_right fun hvouch => h.after.trans hvouch.symm

/-- Validator calls keep the coverage right. -/
theorem validatorStep (hc : w.Covered) (hf : w.Fresh) {c : ValidatorCall}
    (h : ValidatorStep w sender c w') : w'.Covered := by
  cases h with
  | @registerValidator stake name =>
    -- no asset names a pool that is registered only now
    have hfresh : ∀ asset ∈ w.assets, asset.validatorPoolId ≠ some w.nextId := by
      intro asset hasset hp
      obtain ⟨pool, hpool⟩ := hc.pool asset hasset _ hp
      exact Nat.lt_irrefl _ (hf.pools.get?_lt hpool)
    exact { hc with
      pool := by
        intro asset hasset p hp
        obtain ⟨pool, hpool⟩ := hc.pool asset hasset p hp
        exact ⟨pool, (Store.get?_put_ne (Nat.ne_of_gt (hf.pools.get?_lt hpool))).trans hpool⟩
      backs := by
        refine Store.forall_put ⟨?_, ?_, Nat.zero_le _⟩ hc.backs
        · exact (Store.sum_eq_zero fun asset hasset => if_neg (hfresh asset hasset)).symm
        · refine Nat.le_of_eq (Store.sum_eq_zero fun asset hasset => ?_)
          exact if_neg fun hv => hfresh asset hasset hv.1 }
  | addStake hpool =>
    have hb := hc.backs _ (Store.mem_of_get? hpool)
    exact hc.ofPool hpool rfl rfl rfl rfl rfl rfl (Nat.le_trans hb.stake (Nat.le_add_right _ _))
  | withdrawStake hpool _ _ guards =>
    exact hc.ofPool hpool rfl rfl rfl rfl rfl rfl guards.locked

/-- A listing keeps the coverage right: the new asset has none. -/
theorem listed (hc : w.Covered) (hf : w.Fresh) {asset : Asset} {cap : EntityCap} {collateral : ℕ}
    {events : List Event}
    (h : asset.CreatedBy cap sender collateral w.clockMs w.nextId (w.nextId + 1)) :
    (w.listed sender collateral asset cap events).Covered where
  unvouched := Store.forall_put (fun _ => ⟨h.listed.pool, h.listed.coverage⟩) hc.unvouched
  pool := by
    refine Store.forall_put (fun p hp => ?_) hc.pool
    rw [h.listed.pool] at hp
    simp at hp
  backs pool hpool := by
    have hb := hc.backs pool hpool
    have hlocked := Store.sum_put_of_fresh (hf.unlisted h) (Asset.coverageIn pool.id)
    have hvouches := Store.sum_put_of_fresh (hf.unlisted h) (Asset.vouchIn pool.id)
    -- the new asset names no pool, so it adds nothing to any sum
    have hzero : asset.coverageIn pool.id = 0 := if_neg (by simp [h.listed.pool])
    have hnone : asset.vouchIn pool.id = 0 := if_neg (by simp [h.listed.pool])
    refine ⟨?_, ?_, hb.stake⟩
    · simp only [World.listed]
      rw [hlocked, hzero, Nat.zero_add, hb.locked]
    · simp only [World.listed]
      rw [hvouches, hnone, Nat.zero_add]
      exact hb.vouches
  disputes dispute hd := by
    obtain ⟨x, hx, hvouch⟩ := hc.disputes dispute hd
    refine ⟨x, (Store.get?_put_ne ?_).trans hx, hvouch⟩
    intro hkey
    have hnone := hf.unlisted h
    rw [hkey, hx] at hnone
    simp at hnone

/-- Asset calls keep the coverage right. -/
theorem assetStep (hc : w.Covered) (hf : w.Fresh) {c : AssetCall} (h : AssetStep w sender c w') :
    w'.Covered := by
  cases h with
  | createAsset _ created => exact hc.listed hf created
  | createTermAsset _ created => exact hc.listed hf created
  | cancelUnvouchedByEntity hasset =>
    exact hc.ofAsset hasset rfl rfl rfl (.of_state rfl rfl rfl (Or.inr (by simp [Asset.cancelled])))
  | cancelUnvouchedTimeout hasset =>
    exact hc.ofAsset hasset rfl rfl rfl (.of_state rfl rfl rfl (Or.inr (by simp [Asset.cancelled])))
  | @vouchAssetLegals _ _ _ docs asset pool _ _ hasset hpool _ _ guards =>
    have hzero := hc.unvouched asset (Store.mem_of_get? hasset) guards.state
    have hvouch : VouchStep asset (asset.vouched pool.id (asset.coverageFor w.config) docs) pool
        (pool.afterLock (asset.coverageFor w.config)) :=
      { assetId := rfl
        poolId := rfl
        before := Or.inl guards.state
        after := rfl
        vouched := by simp [Asset.vouched]
        locked := by
          rw [hzero.2]
          rfl
        vouches := by
          -- the raise makes the vouch count, whatever the coverage
          have hone : (asset.vouched pool.id (asset.coverageFor w.config) docs).vouchIn pool.id =
            1 := if_pos ⟨rfl, Or.inl rfl⟩
          simp only [hone, ValidatorPool.afterLock]
          omega
        stake := fun hle => by
          have hfree := guards.free
          simp only [ValidatorPool.afterLock]
          omega }
    have h := hc.putBoth hasset hpool hvouch
    exact { h with }
  | contributeCapital hasset =>
    exact hc.ofAsset hasset rfl rfl rfl (.of_state rfl rfl rfl (Or.inl rfl))
  | finalizeSuccessfulRaise hasset =>
    exact hc.ofAsset hasset rfl rfl rfl (.of_state rfl rfl rfl (Or.inr (by simp [Asset.finalized])))
  | @abortFailedRaise _ _ asset pool _ hasset hpool guards =>
    have hvouch : VouchStep asset asset.failed pool (pool.afterRelease asset.coverageLocked) :=
      { assetId := rfl
        poolId := rfl
        before := Or.inr guards.vouching
        after := guards.vouching
        vouched := by simp [Asset.failed]
        locked := Nat.sub_add_cancel guards.locked
        vouches := by
          -- the vouch of the raise ends with it
          have hone : asset.vouchIn pool.id = 1 := if_pos ⟨guards.vouching, Or.inl guards.state⟩
          have hnone : asset.failed.vouchIn pool.id = 0 := if_neg (by simp [Asset.failed])
          have hpos := guards.vouches
          simp only [hone, hnone, ValidatorPool.afterRelease]
          omega
        stake := fun hle => Nat.le_trans (Nat.sub_le _ _) hle }
    have h := hc.putBoth hasset hpool hvouch
    exact { h with }
  | refundContribution hasset =>
    exact hc.ofAsset hasset rfl rfl rfl (.of_state rfl rfl rfl (Or.inl rfl))
  | claimShares => exact { hc with }
  | submitMilestoneProof hasset =>
    exact hc.ofAsset hasset rfl rfl rfl (.of_state rfl rfl rfl (Or.inl rfl))
  | approveMilestone hasset =>
    exact hc.ofAsset hasset rfl rfl rfl (.of_state rfl rfl rfl (Or.inl rfl))
  | @releaseFundingTranche _ _ _ asset _ t _ hasset =>
    refine hc.ofAsset hasset rfl rfl rfl (.of_state rfl rfl rfl ?_)
    -- the last tranche changes the state, the others do not
    by_cases hlast : asset.nextTranche + 1 = asset.tranches.length
    · exact Or.inr (by simp [Asset.afterTranche, hlast])
    · exact Or.inl (if_neg hlast)
  | @releaseVouchCoverage _ _ asset pool hasset hpool guards =>
    have hpending := hc.not_pending hasset guards.vouching
    have hvouch : VouchStep asset (clearCoverage asset) pool
        (pool.afterRelease asset.coverageLocked) :=
      { assetId := rfl
        poolId := rfl
        before := Or.inr guards.vouching
        after := guards.vouching
        vouched := hpending
        locked := Nat.sub_add_cancel guards.locked
        vouches := by
          -- the vouch counted for its coverage, which is now gone
          have hone : asset.vouchIn pool.id = 1 := if_pos ⟨guards.vouching, Or.inr guards.covered⟩
          have hnone : (clearCoverage asset).vouchIn pool.id = 0 := by
            refine if_neg ?_
            rcases guards.state with hst | hst <;> simp [clearCoverage, hst]
          have hpos := guards.vouches
          simp only [hone, hnone, ValidatorPool.afterRelease]
          omega
        stake := fun hle => Nat.le_trans (Nat.sub_le _ _) hle }
    have h := hc.putBoth hasset hpool hvouch
    exact { h with }
  | flagDefault hasset =>
    exact hc.ofAsset hasset rfl rfl rfl (.of_state rfl rfl rfl (Or.inr (by simp [Asset.seized])))
  | depositRevenue => exact { hc with }
  | closeAtReturnTarget hasset =>
    exact hc.ofAsset hasset rfl rfl rfl (.of_state rfl rfl rfl (Or.inr (by simp [Asset.closed])))
  | closeAfterCompensation hasset =>
    exact hc.ofAsset hasset rfl rfl rfl (.of_state rfl rfl rfl (Or.inr (by simp [Asset.closed])))
  | closeWindDown hasset =>
    exact hc.ofAsset hasset rfl rfl rfl (.of_state rfl rfl rfl (Or.inr (by simp [Asset.closed])))

/-- A verdict as a step of the vouch it is about. -/
theorem verdict (hc : w.Covered) {a p : ID} {dispute : Dispute} {asset : Asset}
    {pool : ValidatorPool} {acc : GlobalYieldAccumulator} {v : Verdict}
    (hasset : w.assets.get? a = some asset) (hpool : w.pools.get? p = some pool)
    (hvouch : asset.validatorPoolId = some pool.id)
    (h : Decides dispute pool asset acc w.config w.clockMs v) :
    VouchStep asset v.asset pool v.pool := by
  have hpending := hc.not_pending hasset hvouch
  have hkeeps := h.keeps
  have hcovered := hc.coverage_le hasset hpool hvouch
  cases h with
  | expired =>
    exact ⟨rfl, rfl, Or.inr hvouch, hvouch, hpending, rfl, Nat.le_refl _, id⟩
  | rejected =>
    exact ⟨rfl, rfl, Or.inr hvouch, hvouch, hpending, rfl, Nat.le_refl _,
      fun hle => Nat.le_trans hle (Nat.le_add_right _ _)⟩
  | upheld _ _ guards =>
    have hcleared : asset.upheld.coverageLocked = 0 := by
      unfold Asset.upheld
      split <;> rfl
    -- an EXECUTING asset is seized, any other keeps its state
    have hstate : asset.upheld.state = asset.state ∨ asset.upheld.state = .compensating := by
      unfold Asset.upheld
      split
      · exact Or.inr rfl
      · exact Or.inl rfl
    exact {
      assetId := hkeeps.assetId
      poolId := rfl
      before := Or.inr hvouch
      after := hkeeps.vouching.trans hvouch
      vouched := by
        simp only [upheldVerdict]
        rcases hstate with hst | hst <;> rw [hst]
        · exact hpending
        · simp
      locked := by
        simp only [upheldVerdict, ValidatorPool.slashed, hcleared]
        exact Nat.sub_add_cancel hcovered
      vouches := by
        -- `slash` does not count the vouch down, so the bound has to be one-sided
        have hless : asset.upheld.vouchIn pool.id ≤ asset.vouchIn pool.id := by
          simp only [Asset.vouchIn, hcleared]
          split
          · next hv =>
            have hfunding : asset.state = .funding := by
              rcases hstate with hst | hst
              · exact hst ▸ hv.2.resolve_right (Nat.lt_irrefl 0)
              · have hno := hv.2.resolve_right (Nat.lt_irrefl 0)
                rw [hst] at hno
                simp at hno
            rw [if_pos ⟨hvouch, Or.inl hfunding⟩]
          · exact Nat.zero_le _
        exact Nat.add_le_add_left hless _
      stake := by
        intro hle
        simp only [upheldVerdict, ValidatorPool.slashed]
        omega }

/-- The asset of a resolution is vouched for by the pool at hand. -/
theorem accused (hc : w.Covered) {d a : ID} {dispute : Dispute} {pool : ValidatorPool}
    {asset : Asset} {acc : GlobalYieldAccumulator} {config : ProtocolConfig} {now : ℕ}
    (hdispute : w.disputes.get? d = some dispute) (hasset : w.assets.get? a = some asset)
    (guards : ResolveGuards dispute pool asset acc config now) :
    asset.validatorPoolId = some pool.id := by
  obtain ⟨x, hx, hvouch⟩ := hc.disputes dispute (Store.mem_of_get? hdispute)
  obtain rfl : x = asset := Option.some.inj (hx.symm.trans (guards.asset_recorded hasset))
  rw [hvouch, guards.pool]

/-- Dispute calls keep the coverage right. -/
theorem disputeStep (hc : w.Covered) {c : DisputeCall} (h : DisputeStep w sender c w') :
    w'.Covered := by
  cases h with
  | @initializeDispute _ _ _ _ _ _ asset pool acc _ hasset hpool hacc _ guards =>
    -- opening a dispute marks the asset and freezes the pool, without a change of coverage
    have hpending := hc.not_pending hasset guards.vouching
    have hvouch : VouchStep asset (setDisputed asset true) pool (pool.withStatus .frozen) :=
      ⟨rfl, rfl, Or.inr guards.vouching, guards.vouching, hpending, rfl, Nat.le_refl _, id⟩
    have h := hc.putBoth hasset hpool hvouch
    have hself := Store.get?_put_self w.assets (setDisputed asset true)
    exact { h with
      disputes := Store.forall_put ⟨setDisputed asset true, hself, guards.vouching⟩ h.disputes }
  | @voteOnDispute _ _ _ _ dispute _ _ _ hdispute =>
    exact { hc with
      disputes := Store.forall_put (hc.disputes dispute (Store.mem_of_get? hdispute)) hc.disputes }
  | @resolveDispute _ _ _ _ dispute pool asset acc v hdispute hpool hasset _ guards decides =>
    -- a verdict takes exactly the coverage of the accused asset out of its pool
    have hvouch := hc.accused hdispute hasset guards
    have h := hc.putBoth hasset hpool (hc.verdict hasset hpool hvouch decides)
    have hold := h.disputes dispute (Store.mem_of_get? hdispute)
    rw [← decides.keeps.disputeAsset, ← decides.keeps.target] at hold
    exact { h with disputes := Store.forall_put hold h.disputes }
  | @claimJurorReward _ _ _ dispute _ _ _ hdispute =>
    exact { hc with
      disputes := Store.forall_put (hc.disputes dispute (Store.mem_of_get? hdispute)) hc.disputes }

/-- Every call keeps the coverage right. -/
theorem call (hc : w.Covered) (hf : w.Fresh) {c : Call} (h : w.call sender c = .ok w') :
    w'.Covered := by
  cases c with
  | protocol c =>
    obtain ⟨-, _, _, -, rfl⟩ := World.protocolCall_eq_ok.mp h
    exact { hc with }
  | validator c => exact hc.validatorStep hf (World.validatorCall_eq_ok.mp h)
  | asset c => exact hc.assetStep hf (World.assetCall_eq_ok.mp h)
  | accumulator c => cases World.accumulatorCall_eq_ok.mp h <;> exact { hc with }
  | dispute c => exact hc.disputeStep (World.disputeCall_eq_ok.mp h)
  | framework c => cases World.frameworkCall_eq_ok.mp h <;> exact { hc with }

end World.Covered

/-- The coverage is right in every reachable world. -/
theorem Reachable.covered {w : World} (hw : Reachable w) : w.Covered :=
  hw.induct .genesis (fun hw hc h => hc.call hw.fresh h) fun _ hc _ => { hc with }

end Gally

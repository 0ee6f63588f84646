import Gally.Law.Court
import Gally.Law.Raise

/-!
# What a frozen pool still lets through, and what it shields

A dispute freezes the pool and halts the one asset it is about. The other assets of the
pool are affected in two ways: tranches the pool approved before are released as if nothing
had happened, and nobody can contest the coverage the pool has locked for them, because a
dispute needs an ACTIVE pool. After an UPHELD verdict this is so for good.

## Key results

- `release_pool_active`: when the pool behind a release is ACTIVE
- `coverage_contestable`: when the coverage of an asset can be contested
-/

namespace Gally

open Checked

/-! ## Who approved -/

/-- An approval was given by the operator of the vouching pool. -/
def World.Approved (w : World) : Prop := ∀ a asset, w.assets.get? a = some asset →
  ∀ t ∈ asset.tranches, ∀ s, t.approvedBy = some s →
    ∃ p pool, asset.validatorPoolId = some p ∧ w.pools.get? p = some pool ∧ pool.validator = s

/-- No verdict changes a tranche. -/
theorem Decides.tranches {dispute : Dispute} {pool : ValidatorPool} {asset : Asset}
    {acc : GlobalYieldAccumulator} {config : ProtocolConfig} {now : ℕ} {v : Verdict}
    (h : Decides dispute pool asset acc config now v) : v.asset.tranches = asset.tranches := by
  cases h with
  | expired => rfl
  | rejected => rfl
  | upheld =>
    simp only [upheldVerdict, Asset.upheld]
    split <;> rfl

/-- The approvals of a touched asset: those it had, or one the operator just gave. -/
theorem Asset.Touch.approvals {w : World} {sender : Address} {asset asset' : Asset} {c : Call}
    (hw : Reachable w) (h : asset.Touch w sender c asset') {t : Tranche}
    (ht : t ∈ asset'.tranches) {s : Address} (hs : t.approvedBy = some s) :
    (∃ t ∈ asset.tranches, t.approvedBy = some s) ∧
      (asset.state = .pendingVouch ∨ asset'.validatorPoolId = asset.validatorPoolId) ∨
    ∃ p pool, asset'.validatorPoolId = some p ∧ w.pools.get? p = some pool ∧
      pool.validator = s := by
  -- a tranche that is replaced without a new approval approves nothing new
  have hset : ∀ {i : ℕ} {old new : Tranche}, t ∈ asset.tranches.set i new →
      asset.tranches[i]? = some old → new.approvedBy = old.approvedBy →
      ∃ t ∈ asset.tranches, t.approvedBy = some s := by
    intro i old new hmem hold hsame
    rcases List.mem_or_eq_of_mem_set hmem with hmem | rfl
    · exact ⟨t, hmem, hs⟩
    · exact ⟨old, List.mem_of_getElem? hold, hsame ▸ hs⟩
  cases h with
  | vouch _ guards => exact Or.inl ⟨⟨t, ht, hs⟩, Or.inl guards.state⟩
  | prove _ _ guards => exact Or.inl ⟨hset ht guards.tranche rfl, Or.inr rfl⟩
  | @release c i cap old _ _ guards =>
    have hold : asset.tranches[asset.nextTranche]? = some old := guards.next ▸ guards.tranche
    exact Or.inl ⟨hset ht hold rfl, Or.inr rfl⟩
  | @approve p c i pool cap old hpool own hcap guards =>
    rcases List.mem_or_eq_of_mem_set ht with hmem | rfl
    · exact Or.inl ⟨⟨t, hmem, hs⟩, Or.inr rfl⟩
    -- the approval that was just given is the operator's own
    · have hsender := hw.validator_of_cap own hcap hpool guards.cap
      obtain rfl := Store.key_of_get? hpool
      exact Or.inr ⟨pool.id, pool, guards.vouching, hpool, hsender.symm.trans (Option.some.inj hs)⟩
  | verdict _ _ _ _ decides =>
    exact Or.inl ⟨⟨t, decides.tranches ▸ ht, hs⟩, Or.inr decides.keeps.vouching⟩
  | _ => exact Or.inl ⟨⟨t, ht, hs⟩, Or.inr rfl⟩

/-- One call keeps every approval one of the vouching pool's operator. -/
theorem World.Approved.call {w w' : World} {sender : Address} (hp : w.Approved)
    (hw : Reachable w) {c : Call} (h : w.call sender c = .ok w') : w'.Approved := by
  intro a asset' hasset' t ht s hs
  rcases World.call_assets h hasset' with hold | ⟨-, -, _, -, hlisted⟩
  case inr => simp [(hlisted.fresh t ht).unapproved] at hs
  obtain ⟨asset, hasset⟩ := Option.isSome_iff_exists.mp hold
  obtain ⟨x, hx, htouch⟩ := World.call_touch hw.fresh h a asset hasset
  obtain rfl := Option.some.inj (hx.symm.trans hasset')
  -- the operator of a pool never changes
  have hpools : ∀ {p : ID} {pool : ValidatorPool}, w.pools.get? p = some pool →
      pool.validator = s → ∃ pool', w'.pools.get? p = some pool' ∧ pool'.validator = s := by
    intro p pool hpool hv
    obtain ⟨pool', hpool', hsame⟩ := World.call_pools hw.fresh h p pool hpool
    exact ⟨pool', hpool', hsame.trans hv⟩
  rcases htouch.approvals hw ht hs with ⟨⟨t₀, ht₀, hs₀⟩, hkept⟩ | ⟨p, pool, hv, hpool, hval⟩
  · obtain ⟨p, pool, hv, hpool, hval⟩ := hp a asset hasset t₀ ht₀ s hs₀
    rcases hkept with hpending | hsame
    -- a pending listing has no pool that could have approved
    · exact absurd hpending (hw.covered.not_pending hasset hv)
    · obtain ⟨pool', hpool', hval'⟩ := hpools hpool hval
      exact ⟨p, pool', hsame.trans hv, hpool', hval'⟩
  · obtain ⟨pool', hpool', hval'⟩ := hpools hpool hval
    exact ⟨p, pool', hv, hpool', hval'⟩

/-- In every reachable world the approvals are those of the vouching pools' operators. -/
theorem Reachable.approved {w : World} (hw : Reachable w) : w.Approved :=
  hw.induct (fun _ _ _ hasset => by simp [World.genesis] at hasset)
    (fun hw hp h => hp.call hw h) fun _ hp _ => hp

/-! ## Releases -/

/-- A verdict or an open dispute about another asset of pool `p` than `a`. -/
def World.ContestedElsewhere (w : World) (a p : ID) : Prop := ∃ d ∈ w.disputes,
  (d.status = .opened ∨ d.status = .upheld) ∧ d.targetPoolId = p ∧ d.assetId ≠ a

/-- A pool is ACTIVE exactly when no dispute against it is OPEN or UPHELD. -/
theorem Reachable.active_iff {w : World} (hw : Reachable w) {p : ID} {pool : ValidatorPool}
    (hpool : w.pools.get? p = some pool) : pool.status = .active ↔
      ∀ d ∈ w.disputes, d.targetPoolId = p → d.status ≠ .opened ∧ d.status ≠ .upheld := by
  have ht := hw.tried
  have hid : pool.id = p := Store.key_of_get? hpool
  constructor
  · intro hactive d hd htarget
    refine ⟨fun hopen => ?_, fun hupheld => ?_⟩
    · obtain ⟨x, hx, hst⟩ := ht.frozen d hd hopen
      rw [htarget, hpool] at hx
      rw [← Option.some.inj hx, hactive] at hst
      simp at hst
    · obtain ⟨x, hx, hst⟩ := ht.slashed d hd hupheld
      rw [htarget, hpool] at hx
      rw [← Option.some.inj hx, hactive] at hst
      simp at hst
  · intro hnone
    have hmem := Store.mem_of_get? hpool
    -- a FROZEN pool has its open dispute, a SLASHED one its verdict
    cases hst : pool.status with
    | active => rfl
    | frozen =>
      obtain ⟨d, hd, hopen, htarget⟩ := ht.opened pool hmem hst
      exact absurd hopen (hnone d hd (htarget.trans hid)).1
    | slashed =>
      obtain ⟨d, hd, hupheld, htarget⟩ := ht.upheld pool hmem hst
      exact absurd hupheld (hnone d hd (htarget.trans hid)).2

/-- A release goes to the tranche of an EXECUTING asset; the pool behind its approval is
    ACTIVE at that moment exactly when no dispute about another asset of the pool is OPEN or
    UPHELD. -/
theorem release_pool_active {w w' : World} (hw : Reachable w) {sender : Address} {a c : ID}
    {i : U64} (h : w.call sender (.asset (.releaseFundingTranche a c i)) = .ok w') :
    ∃ asset t p pool, w.assets.get? a = some asset ∧ asset.tranches[i.val]? = some t ∧
      asset.validatorPoolId = some p ∧ w.pools.get? p = some pool ∧
      t.approvedBy = some pool.validator ∧
      (pool.status = .active ↔ ¬ w.ContestedElsewhere a p) := by
  cases World.callAsset_eq_ok.mp h with
  | @releaseFundingTranche _ _ _ asset cap t _ hasset own hcap guards =>
    obtain ⟨s, hs⟩ := Option.ne_none_iff_exists'.mp guards.approved
    obtain ⟨p, pool, hv, hpool, rfl⟩ :=
      hw.approved a asset hasset t (List.mem_of_getElem? guards.tranche) s hs
    refine ⟨asset, t, p, pool, hasset, guards.tranche, hv, hpool, hs, ?_⟩
    rw [hw.active_iff hpool]
    constructor
    · rintro hnone ⟨d, hd, hstatus, htarget, -⟩
      exact hstatus.elim (hnone d hd htarget).1 (hnone d hd htarget).2
    · intro hno d hd htarget
      -- a dispute about the asset itself would have halted the release
      have hother : d.assetId = a → d.status ≠ .opened ∧ d.status ≠ .upheld := by
        intro ha
        refine ⟨fun hopen => ?_, fun hupheld => ?_⟩
        · obtain ⟨x, hx, hflag⟩ := hw.tried.disputed d hd hopen
          rw [ha, hasset] at hx
          rw [← Option.some.inj hx, guards.undisputed] at hflag
          simp at hflag
        · obtain ⟨x, hx, hsettled⟩ := hw.tried.settled d hd hupheld
          rw [ha, hasset] at hx
          rw [← Option.some.inj hx, guards.state] at hsettled
          simp [AssetState.isSettled] at hsettled
      by_cases ha : d.assetId = a
      · exact hother ha
      · exact ⟨fun hopen => hno ⟨d, hd, Or.inl hopen, htarget, ha⟩,
          fun hupheld => hno ⟨d, hd, Or.inr hupheld, htarget, ha⟩⟩

namespace Sample

/-- A second asset 9 of the same entity and the same pool, with accumulator 13. -/
def sibling : List Action :=
  approved 1000000 100000 ++
  [.transaction 2 [.asset (.createAsset (listing 1000000) 100000)],
   .transaction 1 [.asset (.vouchAssetLegals 9 2 3 [evidence])],
   .transaction 3 [.asset (.contributeCapital 9 1000000)],
   .transaction 2 [.framework (.publishToken 6)],
   .transaction 2 [.asset (.finalizeSuccessfulRaise 9 12)]]

/-- Somebody opens dispute 14 about the second asset. -/
def contested : List Action :=
  sibling ++ [.transaction 3 [.dispute (.initializeDispute 9 2 13 1000000000 evidence [])]]

end Sample

/-- Nothing is contested: the pool behind the release is ACTIVE. -/
theorem release_pool_active_sibling : ∃ w w' p pool,
    (World.genesis 0).run Sample.sibling = .ok w ∧
    w.call 2 (.asset (.releaseFundingTranche 4 5 0)) = .ok w' ∧
    w.pools.get? p = some pool ∧ pool.status = .active := by
  have hrun : returns ((World.genesis 0).run Sample.sibling) (fun w =>
      w.disputes.entries = [] && returns (w.call 2 (.asset (.releaseFundingTranche 4 5 0)))
        fun _ => true) = true := by
    decide +kernel
  obtain ⟨w, hw, hq⟩ := returns_iff.mp hrun
  rw [Bool.and_eq_true, decide_eq_true_eq] at hq
  obtain ⟨w', hcall, -⟩ := returns_iff.mp hq.2
  obtain ⟨_, _, p, pool, -, -, -, hpool, -, hactive⟩ := release_pool_active ⟨0, _, hw⟩ hcall
  refine ⟨w, w', p, pool, hw, hcall, hpool, hactive.mpr ?_⟩
  rintro ⟨d, hd, -⟩
  rw [Store.mem_def, hq.1] at hd
  simp at hd

/-- The pool is FROZEN by the dispute about asset 9, and its tranche of asset 4 goes out. -/
theorem frozen_pool_releases : ∃ w w' pool,
    (World.genesis 0).run Sample.contested = .ok w ∧
    w.call 2 (.asset (.releaseFundingTranche 4 5 0)) = .ok w' ∧
    w.pools.get? 2 = some pool ∧ pool.status = .frozen ∧
    (w.assets.get? 4).bind Asset.validatorPoolId = some 2 := by
  have hrun : returns ((World.genesis 0).run Sample.contested) (fun w =>
      (w.pools.get? 2).any (fun pool => pool.status = .frozen) &&
      (w.assets.get? 4).bind Asset.validatorPoolId = some 2 &&
      returns (w.call 2 (.asset (.releaseFundingTranche 4 5 0))) fun _ => true) = true := by
    decide +kernel
  obtain ⟨w, hw, hq⟩ := returns_iff.mp hrun
  simp only [Bool.and_eq_true, decide_eq_true_eq] at hq
  obtain ⟨⟨hany, hvouch⟩, hcall⟩ := hq
  obtain ⟨pool, hpool, hst⟩ := (Option.any_eq_true _ _).mp hany
  obtain ⟨w', hcall, -⟩ := returns_iff.mp hcall
  exact ⟨w, w', pool, hw, hcall, hpool, of_decide_eq_true hst, hvouch⟩

/-! ## Challenges -/

/-- The vouching pool of an asset never changes. -/
theorem World.call_vouching {w w' : World} {sender : Address} (hw : Reachable w) {c : Call}
    (h : w.call sender c = .ok w') {a p : ID} {asset : Asset}
    (hasset : w.assets.get? a = some asset) (hv : asset.validatorPoolId = some p) :
    ∃ asset', w'.assets.get? a = some asset' ∧ asset'.validatorPoolId = some p := by
  obtain ⟨asset', hasset', htouch⟩ := World.call_touch hw.fresh h a asset hasset
  refine ⟨asset', hasset', ?_⟩
  cases htouch with
  | vouch _ guards => exact absurd guards.state (hw.covered.not_pending hasset hv)
  | verdict _ _ _ _ decides => exact decides.keeps.vouching.trans hv
  | _ => exact hv

/-- Along any path an asset keeps the pool that vouches for it. -/
theorem World.Path.vouching {Q : CallRule} {w w' : World} (hw : Reachable w) (h : w.Path Q w')
    {a p : ID} {asset : Asset} (hasset : w.assets.get? a = some asset)
    (hv : asset.validatorPoolId = some p) :
    ∃ asset', w'.assets.get? a = some asset' ∧ asset'.validatorPoolId = some p := by
  refine h.preserves (P := fun u => ∃ x, u.assets.get? a = some x ∧ x.validatorPoolId = some p) hw
    ⟨asset, hasset, hv⟩ ?_ fun _ hP _ => hP
  intro u sender c u' hu hP _ hcall
  obtain ⟨x, hx, hxv⟩ := hP
  exact World.call_vouching hu hcall hx hxv

/-- Once a dispute against a pool was UPHELD, no asset of the pool is ever disputed again. -/
theorem Reachable.shielded {w w' : World} (hw : Reachable w) {a p : ID} {asset : Asset}
    (hasset : w.assets.get? a = some asset) (hv : asset.validatorPoolId = some p)
    {d : Dispute} (hd : d ∈ w.disputes) (hupheld : d.status = .upheld)
    (htarget : d.targetPoolId = p)
    {actions : List Action} (h : w.run actions = .ok w') : w'.Uncontested a := by
  have hpath := World.Path.of_run h
  have hw' := hw.run h
  intro e dispute he ha hopen
  obtain ⟨asset', hasset', hv'⟩ := hpath.vouching hw hasset hv
  obtain ⟨d', hd', hupheld', htarget'⟩ := hpath.upheld hw (Store.get?_key hd) hupheld
  obtain ⟨x, hx, hxv⟩ := hw'.covered.disputes dispute (Store.mem_of_get? he)
  rw [ha, hasset'] at hx
  obtain rfl := Option.some.inj hx
  have hsame : dispute.targetPoolId = d'.targetPoolId := by
    rw [htarget', htarget]
    exact Option.some.inj (hxv.symm.trans hv')
  -- the pool would be FROZEN by one dispute and SLASHED by the other
  obtain ⟨pool, hpool, hfrozen⟩ := hw'.tried.frozen dispute (Store.mem_of_get? he) hopen
  obtain ⟨pool', hpool', hslashed⟩ := hw'.tried.slashed d' (Store.mem_of_get? hd') hupheld'
  rw [← hsame, hpool] at hpool'
  rw [Option.some.inj hpool', hslashed] at hfrozen
  simp at hfrozen

/-- A covered and undisputed asset in operation can be challenged while its pool is ACTIVE. -/
theorem Reachable.challengeable {w : World} (hw : Reachable w) {a p g : ID} {asset : Asset}
    {pool : ValidatorPool} (hasset : w.assets.get? a = some asset)
    (hg : asset.accumulatorId = some g) (hpool : w.pools.get? p = some pool)
    (hp : asset.validatorPoolId = some p)
    (hstate : asset.state = .executing ∨ asset.state = .operational)
    (hcovered : 0 < asset.coverageLocked) (hflag : asset.disputed = false)
    (hactive : pool.status = .active) (hwindow : w.clockMs + w.config.disputeWindowMs ≤ maxU64) :
    ∃ acc, w.accumulators.get? g = some acc ∧ ∀ bond reason, bond = w.config.challengerBond →
      reason.length ≤ maxReasonBytes →
      InitializeGuards asset pool acc w.config bond reason w.clockMs := by
  obtain ⟨acc, hacc, ha⟩ := hw.linked.acc hasset hg
  refine ⟨acc, hacc, fun bond reason hbond hreason => ?_⟩
  -- the asset, its accumulator and its pool belong together, and the rest is assumed
  exact {
    version := hw.withinCaps.version
    state := hstate
    covered := hcovered
    undisputed := hflag
    reason := hreason
    vouching := by rw [hp, ← show pool.id = p from Store.key_of_get? hpool]
    linked := ha.trans (Store.key_of_get? hasset).symm
    bond := hbond
    deadline := hwindow
    active := hactive }

/-- The coverage of an asset in operation that nobody contests can be contested, by anyone who
    holds the bond, exactly when no dispute against the vouching pool is OPEN or UPHELD and
    the voting window still fits a `u64`. An UPHELD one shields the asset for good. -/
theorem coverage_contestable {w : World} (hw : Reachable w) {a : ID} {asset : Asset}
    (hasset : w.assets.get? a = some asset)
    (hstate : asset.state = .executing ∨ asset.state = .operational)
    (hcovered : 0 < asset.coverageLocked) (hnone : w.Uncontested a) :
    ∃ p g, asset.validatorPoolId = some p ∧ asset.accumulatorId = some g ∧
      (∀ (sender : Address) (bond : U64) (evidence : WalrusRef) (reason : Bytes),
        bond.val = w.config.challengerBond → bond.val ≤ w.wallets.balance sender →
        reason.length ≤ maxReasonBytes →
        (Succeeds (w.call sender (.dispute (.initializeDispute a p g bond evidence reason))) ↔
          (∀ d ∈ w.disputes, d.targetPoolId = p → d.status ≠ .opened ∧ d.status ≠ .upheld) ∧
          w.clockMs + w.config.disputeWindowMs ≤ maxU64)) ∧
      ((∃ d ∈ w.disputes, d.status = .upheld ∧ d.targetPoolId = p) →
        ∀ actions w', w.run actions = .ok w' → w'.Uncontested a) := by
  obtain ⟨p, pool, hp, hpool⟩ := hw.pool_of_asset hasset
    (by rcases hstate with h | h <;> simp [h]) (by rcases hstate with h | h <;> simp [h])
  obtain ⟨g, _, hg, -⟩ := hw.accumulator_of_asset hasset
    (by rcases hstate with h | h <;> rw [h] <;> rfl)
  -- nothing contests the asset, so it is not flagged
  have hflag : asset.disputed = false := by
    by_contra hdisputed
    obtain ⟨d, dispute, hd, hopen, hda⟩ :=
      (hw.disputed_iff hasset hstate).mp (Bool.not_eq_false _ ▸ hdisputed)
    exact hnone d dispute hd hda hopen
  refine ⟨p, g, hp, hg, fun sender bond evidence reason hbond hfunds hreason => ?_, ?_⟩
  -- the pool is active exactly when no dispute against it is open or upheld
  · rw [← hw.active_iff hpool]
    constructor
    · intro ⟨w', h⟩
      cases World.callDispute_eq_ok.mp h with
      | initializeDispute _ hpool' _ _ guards =>
        obtain rfl := Option.some.inj (hpool'.symm.trans hpool)
        exact ⟨guards.active, guards.deadline⟩
    · intro ⟨hactive, hwindow⟩
      obtain ⟨acc, hacc, hguards⟩ :=
        hw.challengeable hasset hg hpool hp hstate hcovered hflag hactive hwindow
      have guards := hguards bond.val reason hbond hreason
      exact ⟨_, World.callDispute_eq_ok.mpr (.initializeDispute hasset hpool hacc hfunds guards
        (initializeDispute_eq_ok.mpr ⟨guards, rfl⟩))⟩
  · intro ⟨d, hd, hupheld, htarget⟩ actions w' hrun
    exact hw.shielded hasset hp hd hupheld htarget hrun

/-- With no dispute anywhere the coverage of asset 4 is open to a challenge. -/
theorem coverage_contestable_sibling : ∃ w p g,
    (World.genesis 0).run Sample.sibling = .ok w ∧
    Succeeds (w.call 3 (.dispute
      (.initializeDispute 4 p g 1000000000 Sample.evidence []))) := by
  have hrun : returns ((World.genesis 0).run Sample.sibling) (fun w =>
      (w.assets.get? 4).any (fun asset => asset.state = .executing ∧ 0 < asset.coverageLocked) &&
      w.disputes.entries = [] && w.config.challengerBond = 1000000000 &&
      decide (1000000000 ≤ w.wallets.balance 3 ∧
        w.clockMs + w.config.disputeWindowMs ≤ 604800000)) = true := by
    decide +kernel
  obtain ⟨w, hw, hq⟩ := returns_iff.mp hrun
  simp only [Bool.and_eq_true, decide_eq_true_eq] at hq
  obtain ⟨⟨⟨hany, hempty⟩, hbond⟩, hfunds, hclock⟩ := hq
  obtain ⟨asset, hasset, hq⟩ := (Option.any_eq_true _ _).mp hany
  obtain ⟨hstate, hcovered⟩ := of_decide_eq_true hq
  -- the run has no dispute at all
  have hnone : ∀ d, d ∉ w.disputes := by
    intro d hd
    rw [Store.mem_def, hempty] at hd
    simp at hd
  obtain ⟨p, g, -, -, hopen, -⟩ := coverage_contestable ⟨0, _, hw⟩ hasset (Or.inl hstate) hcovered
    fun d dispute hd => absurd (Store.mem_of_get? hd) (hnone dispute)
  refine ⟨w, p, g, hw, (hopen 3 1000000000 Sample.evidence [] hbond.symm hfunds
    (Nat.zero_le _)).mpr ⟨fun d hd => absurd hd (hnone d), ?_⟩⟩
  simp only [maxU64]
  omega

/-- The dispute about asset 9 shields the coverage of asset 4 from everybody. -/
theorem frozen_pool_shields : ∃ w asset acc,
    (World.genesis 0).run Sample.contested = .ok w ∧ w.assets.get? 4 = some asset ∧
    asset.state = .executing ∧ asset.coverageLocked = 200000 ∧ asset.disputed = false ∧
    asset.validatorPoolId = some 2 ∧ w.accumulators.get? 8 = some acc ∧
    w.config.challengerBond = 1000000000 ∧ 1000000000 ≤ w.wallets.balance 3 ∧
    ¬ Succeeds (w.call 3 (.dispute
      (.initializeDispute 4 2 8 1000000000 Sample.evidence []))) := by
  have hrun : returns ((World.genesis 0).run Sample.contested) (fun w =>
      (w.assets.get? 4).any (fun asset => asset.state = .executing ∧
        asset.coverageLocked = 200000 ∧ asset.disputed = false ∧
        asset.validatorPoolId = some 2) &&
      (w.accumulators.get? 8).isSome &&
      decide (w.config.challengerBond = 1000000000 ∧ 1000000000 ≤ w.wallets.balance 3) &&
      (w.pools.get? 2).any (fun pool => pool.status = .frozen)) = true := by
    decide +kernel
  obtain ⟨w, hw, hq⟩ := returns_iff.mp hrun
  simp only [Bool.and_eq_true, decide_eq_true_eq] at hq
  obtain ⟨⟨⟨hany, hsome⟩, hbond, hfunds⟩, hpools⟩ := hq
  obtain ⟨asset, hasset, hq⟩ := (Option.any_eq_true _ _).mp hany
  obtain ⟨hstate, hcoverage, hflag, hvouch⟩ := of_decide_eq_true hq
  obtain ⟨acc, hacc⟩ := Option.isSome_iff_exists.mp hsome
  obtain ⟨pool, hpool, hfrozen⟩ := (Option.any_eq_true _ _).mp hpools
  refine ⟨w, asset, acc, hw, hasset, hstate, hcoverage, hflag, hvouch, hacc, hbond, hfunds, ?_⟩
  -- the sibling's dispute has frozen the pool, which the challenge asks to be active
  rintro ⟨w', h⟩
  cases World.callDispute_eq_ok.mp h with
  | initializeDispute _ hpool' _ _ guards =>
    obtain rfl := Option.some.inj (hpool'.symm.trans hpool)
    exact absurd guards.active (by simp [of_decide_eq_true hfrozen])

end Gally

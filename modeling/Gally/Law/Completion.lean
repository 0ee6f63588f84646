import Gally.Law.Docket
import Gally.Law.Interval

/-!
# Raises that complete

While the protocol runs and the vouching pool is ACTIVE nothing stands between a raise and its
completion but the three parties of it. The entity and its validator bring an EXECUTING asset to
its last tranche, three transactions a tranche, and together with one investor who has what is
missing of the goal they complete a raise that is in time. The whole escrow ends with the entity.

## Key results

- `executing_completes`: an EXECUTING asset can be completed
- `raise_completes`: a raise in time can be completed
-/

namespace Gally

open Checked

/-- The action is a transaction of one of `signers`. -/
def Action.SignedBy (signers : List Address) : Action → Prop
  | .transaction sender _ => sender ∈ signers
  | .tick _ => False

/-- How many of the three calls about a tranche are made while it is unreleased. -/
def Tranche.progress (t : Tranche) : ℕ :=
  if t.approvedBy.isSome then 2 else if t.proof.isSome then 1 else 0

/-- A tranche has two steps before its release. -/
theorem Tranche.progress_le (t : Tranche) : t.progress ≤ 2 := by
  unfold progress
  split
  · exact Nat.le_refl 2
  · split <;> omega

/-- Without an approval one step is done at most. -/
theorem Tranche.progress_unapproved {t : Tranche} (h : t.approvedBy = none) : t.progress ≤ 1 := by
  simp only [progress, h, Option.isSome_none, Bool.false_eq_true, if_false]
  split <;> omega

namespace Asset

/-- The calls that are left until the last tranche is out. -/
def callsLeft (asset : Asset) : ℕ :=
  3 * (asset.tranches.length - asset.nextTranche) -
    asset.tranches[asset.nextTranche]?.elim 0 Tranche.progress

variable {asset : Asset} {t t' : Tranche}

/-- Three calls a tranche at most. -/
theorem callsLeft_le (asset : Asset) :
    asset.callsLeft ≤ 3 * (asset.tranches.length - asset.nextTranche) :=
  Nat.sub_le ..

/-- A call about the next tranche is one call less to make. -/
theorem callsLeft_withTranche (ht : asset.tranches[asset.nextTranche]? = some t)
    (hprogress : t.progress < t'.progress) :
    (asset.withTranche asset.nextTranche t').callsLeft < asset.callsLeft := by
  have hlt := (List.getElem?_eq_some_iff.mp ht).1
  have hle := t'.progress_le
  simp only [callsLeft, withTranche, List.length_set, List.getElem?_set_self hlt, ht,
    Option.elim_some]
  omega

/-- The release of a tranche leaves fewer calls. -/
theorem callsLeft_afterTranche (ht : asset.tranches[asset.nextTranche]? = some t) :
    (asset.afterTranche t).callsLeft < asset.callsLeft := by
  have hlt := (List.getElem?_eq_some_iff.mp ht).1
  have hle := t.progress_le
  have hafter := (asset.afterTranche t).callsLeft_le
  simp only [callsLeft, afterTranche, List.length_set, ht, Option.elim_some] at hafter ⊢
  omega

end Asset

/-! ## From EXECUTING to OPERATIONAL -/

/-- An asset whose vouching pool is ACTIVE is not challenged. -/
theorem Reachable.undisputed {w : World} (hw : Reachable w) {a : ID} {asset : Asset}
    {pool : ValidatorPool} (hasset : w.assets.get? a = some asset)
    (hpool : w.pools.get? pool.id = some pool) (hactive : pool.status = .active)
    (hvouching : asset.validatorPoolId = some pool.id)
    (hstate : asset.state = .executing ∨ asset.state = .operational) : asset.disputed = false := by
  by_contra hflag
  obtain ⟨d, dispute, hd, hopen, ha⟩ :=
    (hw.disputed_iff hasset hstate).mp (Bool.not_eq_false _ ▸ hflag)
  have hmem := Store.mem_of_get? hd
  obtain ⟨x, hx, htarget, -⟩ := hw.parties hmem
  rw [ha, hasset] at hx
  obtain rfl := Option.some.inj hx
  obtain ⟨y, hy, hfrozen⟩ := hw.tried.frozen dispute hmem hopen
  rw [Option.some.inj (htarget.symm.trans hvouching), hpool] at hy
  obtain rfl := Option.some.inj hy
  rw [hactive] at hfrozen
  cases hfrozen

/-- The ACTIVE `pool` vouches for asset `a` at time `clock`, and its escrow and the entity `e` have
    `total` between them. -/
structure World.Underway (w : World) (a : ID) (pool : ValidatorPool) (e : Address)
    (clock total : ℕ) (asset : Asset) : Prop where
  reachable : Reachable w
  unpaused : w.config.paused = false
  clock : w.clockMs = clock
  hpool : w.pools.get? pool.id = some pool
  active : pool.status = .active
  hasset : w.assets.get? a = some asset
  vouching : asset.validatorPoolId = some pool.id
  entity : asset.entity = e
  funds : asset.escrow + w.wallets.balance e = total

namespace World.Underway

variable {w : World} {a : ID} {pool : ValidatorPool} {e : Address} {clock total : ℕ} {asset : Asset}

/-- The next tranche and its number. -/
theorem tranche (h : w.Underway a pool e clock total asset) (hstate : asset.state = .executing) :
    ∃ (i : U64) (t : Tranche), i.val = asset.nextTranche ∧
      asset.tranches[asset.nextTranche]? = some t := by
  obtain ⟨t, ht, -⟩ := (h.reachable.custodied h.hasset).next hstate
  rw [ofOption_eq_ok] at ht
  have hlt := (List.getElem?_eq_some_iff.mp ht).1
  have hcount := (h.reachable.sound h.hasset).scheduled.count
  simp only [World.site] at hcount
  have hfits : asset.nextTranche < 2 ^ 64 := by
    unfold maxU64 at hcount
    omega
  exact ⟨⟨asset.nextTranche, hfits⟩, t, rfl, ht⟩

/-- The entity proves the next tranche. -/
theorem proves (h : w.Underway a pool e clock total asset) (hstate : asset.state = .executing)
    {i : U64} {t : Tranche} (hi : i.val = asset.nextTranche)
    (ht : asset.tranches[asset.nextTranche]? = some t) (hproof : t.proof = none) (doc : WalrusRef) :
    ∃ c w', w.call e (.asset (.submitMilestoneProof a c i doc)) = .ok w' ∧
      w'.Underway a pool e clock total
        (asset.withTranche asset.nextTranche { t with proof := some doc }) := by
  have hw := h.reachable
  obtain ⟨c, cap, hcap, hbelongs, hown⟩ := hw.entityCap h.hasset
  -- the entity holds the capability of its asset, whatever happened to it
  have guards : ProofGuards asset cap w.config i.val t := {
    version := hw.withinCaps.version, unpaused := h.unpaused, state := hstate, cap := hbelongs
    next := hi, tranche := hi ▸ ht, unproved := hproof }
  have hstep : AssetStep w e (.submitMilestoneProof a c i doc) _ :=
    .submitMilestoneProof h.hasset (hown.trans h.entity) hcap guards
      (submitMilestoneProof_eq_ok.mpr ⟨t, guards, rfl⟩)
  have hcall := World.callAsset_eq_ok.mpr hstep
  refine ⟨c, _, hcall, ?_⟩
  exact { h with
    reachable := hw.call hcall
    hasset := by
      rw [hi]
      exact Store.get?_replace _ h.hasset rfl }

/-- The validator approves it. -/
theorem approves (h : w.Underway a pool e clock total asset) (hstate : asset.state = .executing)
    {i : U64} {t : Tranche} (hi : i.val = asset.nextTranche)
    (ht : asset.tranches[asset.nextTranche]? = some t) (hproof : t.proof ≠ none)
    (happroved : t.approvedBy = none) :
    ∃ c w', w.call pool.validator (.asset (.approveMilestone a pool.id c i)) = .ok w' ∧
      w'.Underway a pool e clock total
        (asset.withTranche asset.nextTranche { t with approvedBy := some pool.validator }) := by
  have hw := h.reachable
  obtain ⟨c, cap, hcap, hbelongs, hown⟩ := hw.validatorCap h.hpool
  have guards : ApproveGuards asset pool cap w.config i.val t := {
    version := hw.withinCaps.version, unpaused := h.unpaused, state := hstate
    -- an active pool has no open dispute, so its assets are not flagged
    undisputed := hw.undisputed h.hasset h.hpool h.active h.vouching (Or.inl hstate)
    cap := hbelongs, vouching := h.vouching, active := h.active
    next := hi, tranche := hi ▸ ht, proved := hproof, unapproved := happroved }
  have hstep : AssetStep w pool.validator (.approveMilestone a pool.id c i) _ :=
    .approveMilestone h.hasset h.hpool hown hcap guards
      (approveMilestone_eq_ok.mpr ⟨t, guards, rfl⟩)
  have hcall := World.callAsset_eq_ok.mpr hstep
  refine ⟨c, _, hcall, ?_⟩
  exact { h with
    reachable := hw.call hcall
    hasset := by
      rw [hi]
      exact Store.get?_replace _ h.hasset rfl }

/-- The entity withdraws it. -/
theorem releases (h : w.Underway a pool e clock total asset) (hstate : asset.state = .executing)
    {i : U64} {t : Tranche} (hi : i.val = asset.nextTranche)
    (ht : asset.tranches[asset.nextTranche]? = some t) (happroved : t.approvedBy ≠ none) :
    ∃ c w', w.call e (.asset (.releaseFundingTranche a c i)) = .ok w' ∧
      w'.Underway a pool e clock total (asset.afterTranche t) := by
  have hw := h.reachable
  have hundisputed := hw.undisputed h.hasset h.hpool h.active h.vouching (Or.inl hstate)
  obtain ⟨-, hfunded⟩ := hw.next_funded h.hasset hstate ht
  -- the escrow holds the tranche, so the release pays the entity
  obtain ⟨c, w', hcall, -⟩ :=
    hw.withdraws h.hasset h.unpaused hstate hundisputed hi (hi ▸ ht) happroved
  rw [h.entity] at hcall
  refine ⟨c, w', hcall, ?_⟩
  have hreachable := hw.call hcall
  cases World.callAsset_eq_ok.mp hcall with
  | @releaseFundingTranche _ _ _ x cap t' events hx own hcap guards =>
    obtain rfl := Option.some.inj (h.hasset.symm.trans hx)
    obtain rfl := Option.some.inj (ht.symm.trans (hi ▸ guards.tranche))
    exact { h with
      reachable := hreachable
      hasset := Store.get?_replace _ h.hasset rfl
      funds := by
        have hfunds := h.funds
        simp only [Asset.afterTranche, Wallets.balance_credit, if_true]
        omega }

/-- Until the asset is OPERATIONAL the entity or the validator has a call to make. -/
theorem next (h : w.Underway a pool e clock total asset) (hstate : asset.state = .executing) :
    ∃ action w' asset', action.SignedBy [e, pool.validator] ∧ w.step action = .ok w' ∧
      w'.Underway a pool e clock total asset' ∧ asset'.callsLeft < asset.callsLeft ∧
      (asset'.state = .executing ∨ asset'.state = .operational) := by
  obtain ⟨i, t, hi, ht⟩ := h.tranche hstate
  by_cases happroved : t.approvedBy = none
  -- the next call is the first of the three that the tranche still lacks
  · by_cases hproof : t.proof = none
    · obtain ⟨c, w', hcall, h'⟩ := h.proves hstate hi ht hproof ⟨[], List.replicate 32 0, e⟩
      refine ⟨_, w', _, List.mem_cons_self, World.step_call hcall, h', ?_, Or.inl hstate⟩
      exact Asset.callsLeft_withTranche ht (by simp [Tranche.progress, happroved, hproof])
    · obtain ⟨c, w', hcall, h'⟩ := h.approves hstate hi ht hproof happroved
      refine ⟨_, w', _, List.mem_cons_of_mem _ List.mem_cons_self, World.step_call hcall, h', ?_,
        Or.inl hstate⟩
      exact Asset.callsLeft_withTranche ht
        (Nat.lt_succ_of_le (Tranche.progress_unapproved happroved))
  · obtain ⟨c, w', hcall, h'⟩ := h.releases hstate hi ht happroved
    refine ⟨_, w', _, List.mem_cons_self, World.step_call hcall, h',
      Asset.callsLeft_afterTranche ht, ?_⟩
    unfold Asset.afterTranche
    dsimp only
    split
    · exact Or.inr rfl
    · exact Or.inl hstate

/-- They complete the asset, with the calls that are left. -/
theorem completes (h : w.Underway a pool e clock total asset) (hstate : asset.state = .executing) :
    ∃ actions w' asset', w.run actions = .ok w' ∧
      (∀ action ∈ actions, action.SignedBy [e, pool.validator]) ∧
      actions.length ≤ asset.callsLeft ∧
      w'.Underway a pool e clock total asset' ∧ asset'.state = .operational := by
  -- the variant is the number of calls that are left
  let Left (v : World) (n : ℕ) : Prop :=
    ∃ x, v.Underway a pool e clock total x ∧ x.callsLeft = n ∧
      (x.state = .executing ∨ x.state = .operational)
  let Done (v : World) : Prop :=
    ∃ x, v.Underway a pool e clock total x ∧ x.state = .operational
  have progress : ∀ v n, Left v n → Done v ∨ ∃ action v' m, action.SignedBy [e, pool.validator] ∧
      v.step action = .ok v' ∧ Left v' m ∧ m < n := by
    intro v n ⟨x, hx, hn, hstate⟩
    rcases hstate with hstate | hstate
    · obtain ⟨action, v', x', hsigned, hstep, hx', hlt, hstate'⟩ := hx.next hstate
      exact Or.inr ⟨action, v', x'.callsLeft, hsigned, hstep, ⟨x', hx', rfl, hstate'⟩, hn ▸ hlt⟩
    · exact Or.inl ⟨x, hx, hstate⟩
  obtain ⟨actions, w', hrun, ⟨asset', h', hstate'⟩, hsigned, hlength⟩ :=
    Run.exec_variant_by progress ⟨asset, h, rfl, Or.inl hstate⟩
  exact ⟨actions, w', asset', hrun, hsigned, hlength, h', hstate'⟩

end World.Underway

/-! ## From FUNDING to EXECUTING -/

namespace World.Underway

variable {w : World} {a : ID} {pool : ValidatorPool} {e : Address} {clock total : ℕ} {asset : Asset}

/-- With a token published the entity finalizes the raise. -/
theorem finalizes (h : w.Underway a pool e clock total asset) (hstate : asset.state = .funding)
    (htime : clock ≤ asset.fundingDeadlineMs) (hmet : asset.raised = asset.fundingGoal)
    {token : TypeTag} (hown : w.owner .treasuryCap token = e)
    (hcap : w.treasuryCaps.get? token = some ⟨token, 0⟩)
    (hmeta : w.metadata.get? token = some ⟨token, 6⟩) : ∃ v g,
    w.call e (.asset (.finalizeSuccessfulRaise a token)) = .ok v ∧
      v.Underway a pool e clock total (asset.finalized g) := by
  have guards : FinalizeGuards asset w.config ⟨token, 0⟩ ⟨token, 6⟩ w.clockMs := {
    version := h.reachable.withinCaps.version, state := hstate, met := hmet
    inTime := h.clock.symm ▸ htime, decimals := rfl, virgin := rfl }
  have hstep : AssetStep w e (.finalizeSuccessfulRaise a token) _ :=
    .finalizeSuccessfulRaise h.hasset hown hcap hmeta guards
      (finalizeSuccessfulRaise_eq_ok.mpr ⟨guards, rfl⟩)
  have hcall := World.callAsset_eq_ok.mpr hstep
  refine ⟨_, w.nextId, hcall, ?_⟩
  exact { h with
    reachable := h.reachable.call hcall
    hasset := Store.get?_replace _ h.hasset rfl }

end World.Underway

/-! ## Completion -/

/-- Whatever happened before, an EXECUTING asset under an ACTIVE pool can be completed by the
    entity and the validator alone, without waiting, in three transactions a tranche that is left.
    The entity then has all that was in escrow. -/
theorem executing_completes {w : World} (hw : Reachable w) {a : ID} {asset : Asset}
    {pool : ValidatorPool} (hasset : w.assets.get? a = some asset)
    (hpool : w.pools.get? pool.id = some pool) (hpaused : w.config.paused = false)
    (hstate : asset.state = .executing) (hvouching : asset.validatorPoolId = some pool.id)
    (hactive : pool.status = .active) :
    ∃ actions w' asset', w.run actions = .ok w' ∧
      (∀ action ∈ actions, action.SignedBy [asset.entity, pool.validator]) ∧
      actions.length ≤ 3 * (asset.tranches.length - asset.nextTranche) ∧
      w'.assets.get? a = some asset' ∧ asset'.state = .operational ∧ asset'.escrow = 0 ∧
      w'.wallets.balance asset.entity = w.wallets.balance asset.entity + asset.escrow := by
  have h : w.Underway a pool asset.entity w.clockMs
      (asset.escrow + w.wallets.balance asset.entity) asset := {
    reachable := hw, unpaused := hpaused, clock := rfl, hpool := hpool, active := hactive
    hasset := hasset, vouching := hvouching, entity := rfl, funds := rfl }
  obtain ⟨actions, w', asset', hrun, hsigned, hlength, h', hstate'⟩ := h.completes hstate
  have hescrow := (h'.reachable.custodied h'.hasset).released (Or.inl hstate')
  have hfunds := h'.funds
  exact ⟨actions, w', asset', hrun, hsigned, hlength.trans asset.callsLeft_le, h'.hasset, hstate',
    hescrow, by omega⟩

/-- The sample raise is executing: its one tranche is three transactions away. -/
theorem executing_completes_executing : ∃ w actions w' asset', (World.genesis 0).run
      (Sample.executing 1000000 100000) = .ok w ∧ w.run actions = .ok w' ∧ actions.length ≤ 3 ∧
      w'.assets.get? 4 = some asset' ∧ asset'.state = .operational ∧
      w'.wallets.balance 2 = w.wallets.balance 2 + 1000000 := by
  have hrun : returns ((World.genesis 0).run (Sample.executing 1000000 100000)) (fun w =>
      w.config.paused = false ∧
      (w.assets.get? 4).any (fun asset => asset.state = .executing ∧ asset.entity = 2 ∧
        asset.validatorPoolId = some 2 ∧ asset.escrow = 1000000 ∧ asset.nextTranche = 0 ∧
        asset.tranches.length = 1) = true ∧
      (w.pools.get? 2).any (·.status = .active) = true) = true := by
    decide +kernel
  obtain ⟨w, hw, hq⟩ := returns_iff.mp hrun
  obtain ⟨hpaused, hasset, hpool⟩ := of_decide_eq_true hq
  obtain ⟨asset, hasset, hq⟩ := (Option.any_eq_true _ _).mp hasset
  obtain ⟨hstate, hentity, hvouching, hescrow, hnext, hlength⟩ := of_decide_eq_true hq
  obtain ⟨pool, hpool, hactive⟩ := (Option.any_eq_true _ _).mp hpool
  -- the pool of the run is the one that vouches
  have hid : pool.id = 2 := Store.key_of_get? hpool
  obtain ⟨actions, w', asset', hactions, -, hle, hasset', hstate', -, hbalance⟩ :=
    executing_completes ⟨0, _, hw⟩ hasset (hid.symm ▸ hpool) hpaused hstate (hid.symm ▸ hvouching)
      (of_decide_eq_true hactive)
  rw [hentity, hescrow] at hbalance
  exact ⟨w, actions, w', asset', hw, hactions, by omega, hasset', hstate', hbalance⟩

end Gally

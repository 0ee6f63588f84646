import Gally.Chain.Path
import Gally.Chain.Touch
import Gally.Law.Grace
import Gally.Law.Trial

/-!
# The way out without the counterparty

When the deadline of the next tranche of an EXECUTING asset has passed, anybody can flag the
default, unless the tranche is approved: then its escrow waits for the entity. No sequence of
permissionless calls moves it, for a dispute without votes expires.

## Key results

- `escrow_rescued`: when permissionless calls move the escrow out of an overdue asset
-/

namespace Gally

open Checked

/-! ## Permissionless calls -/

/-- The calls that need neither a capability of the package nor a juror. -/
def Call.isPermissionless : Call → Bool
  | .protocol _ => false
  | .validator (.withdrawStake ..) => false
  | .asset (.cancelUnvouchedByEntity ..) | .asset (.vouchAssetLegals ..)
  | .asset (.submitMilestoneProof ..) | .asset (.approveMilestone ..)
  | .asset (.releaseFundingTranche ..) | .asset (.closeWindDown ..) => false
  | .accumulator (.adminSweepDust _) => false
  | .dispute (.voteOnDispute ..) | .dispute (.claimJurorReward ..) => false
  | _ => true

/-- Only permissionless calls are made. -/
def CallRule.permissionless : CallRule := fun _ _ c => c.isPermissionless = true

/-- Permissionless calls leave the configuration alone. -/
theorem World.call_sameConfig {w w' : World} {sender : Address} {c : Call}
    (hrule : CallRule.permissionless w sender c) (h : w.call sender c = .ok w') :
    w'.config = w.config := by
  rcases World.call_config h with hsame | ⟨p, _, rfl, -⟩
  · exact hsame
  · simp [CallRule.permissionless, Call.isPermissionless] at hrule

/-- Nobody voted in the OPEN disputes about `a`. -/
def World.Unvoted (w : World) (a : ID) : Prop := ∀ d dispute, w.disputes.get? d = some dispute →
  dispute.assetId = a → dispute.status = .opened → dispute.totalVotes = 0

/-- Without votes cast, a dispute about `a` has none. -/
theorem World.Unvoted.call {w w' : World} {a : ID} (h : w.Unvoted a) (hf : w.Fresh)
    {sender : Address} {c : Call} (hrule : CallRule.permissionless w sender c)
    (hcall : w.call sender c = .ok w') : w'.Unvoted a := by
  intro d dispute' hd' ha hopen
  rcases World.call_disputes hf hcall hd' with ⟨_, hd, hhear⟩ | ⟨rfl, _, _, _, _, _, _, rfl⟩
  · cases hhear with
    | keep => exact h d _ hd ha hopen
    | vote => simp [CallRule.permissionless, Call.isPermissionless] at hrule
    | verdict _ _ _ _ decides => exact absurd hopen decides.not_opened
    | reward => simp [CallRule.permissionless, Call.isPermissionless] at hrule
  · obtain ⟨_, _, _, x, -, -, -, -, -, hx, hopening, -⟩ := World.opening_eq hcall
    rw [Option.some.inj (hd'.symm.trans hx), hopening]
    rfl

/-! ## Escrow that stays -/

/-- No default of the asset can be flagged from time `now` on, under the grace `grace`. -/
def Asset.Unflaggable (asset : Asset) (now grace : ℕ) : Prop := ∀ t,
  asset.tranches[asset.nextTranche]? = some t → t.approvedBy ≠ none ∨ maxU64 < now + grace

/-- The asset is EXECUTING with the escrow and the schedule it had. -/
structure Asset.Waits (asset asset' : Asset) : Prop where
  state : asset'.state = .executing
  escrow : asset'.escrow = asset.escrow
  tranches : asset'.tranches = asset.tranches
  nextTranche : asset'.nextTranche = asset.nextTranche

/-- A permissionless call leaves the escrow of an EXECUTING asset in place, if no default can be
    flagged and nobody voted. -/
theorem Reachable.waits {w w' : World} (hw : Reachable w) {sender : Address} {c : Call}
    (hrule : CallRule.permissionless w sender c) (h : w.call sender c = .ok w') {a : ID}
    {asset : Asset} (hasset : w.assets.get? a = some asset) (hstate : asset.state = .executing)
    (hno : asset.Unflaggable w.clockMs w.config.compensationGraceMs) (hvotes : w.Unvoted a) :
    ∃ asset', w'.assets.get? a = some asset' ∧ asset.Waits asset' := by
  obtain ⟨asset', hasset', htouch⟩ := World.call_touch hw.fresh h a asset hasset
  refine ⟨asset', hasset', ?_⟩
  cases htouch.executing hstate with
  | keep => exact ⟨hstate, rfl, rfl, rfl⟩
  | challenge => exact ⟨hstate, rfl, rfl, rfl⟩
  | verdict hdispute _ _ guards decides =>
    -- no quorum without a vote
    have hzero := hvotes _ _ hdispute (guards.asset.symm.trans (Store.key_of_get? hasset))
      guards.opened
    have hquorum := hw.withinCaps.quorum
    cases decides with
    | expired => exact ⟨hstate, rfl, rfl, rfl⟩
    | upheld quorum => omega
    | rejected quorum => omega
  | default _ guards =>
    rcases hno _ guards.tranche with happroved | hlate
    · exact absurd guards.unapproved happroved
    · exact absurd guards.unlock (Nat.not_le.mpr hlate)
  | _ => simp [CallRule.permissionless, Call.isPermissionless] at hrule

/-- So does a whole path. -/
theorem World.Path.waits {w w' : World} (h : w.Path .permissionless w') (hw : Reachable w) {a : ID}
    {asset : Asset} (hasset : w.assets.get? a = some asset) (hstate : asset.state = .executing)
    (hno : asset.Unflaggable w.clockMs w.config.compensationGraceMs) (hvotes : w.Unvoted a) :
    ∃ asset', w'.assets.get? a = some asset' ∧ asset.Waits asset' := by
  suffices hinv : (∃ x, w'.assets.get? a = some x ∧ asset.Waits x) ∧ w'.Unvoted a ∧
      w'.config = w.config ∧ w.clockMs ≤ w'.clockMs from hinv.1
  refine h.preserves (P := fun u => (∃ x, u.assets.get? a = some x ∧ asset.Waits x) ∧
    u.Unvoted a ∧ u.config = w.config ∧ w.clockMs ≤ u.clockMs) hw
    ⟨⟨asset, hasset, hstate, rfl, rfl, rfl⟩, hvotes, rfl, Nat.le_refl _⟩ ?_ ?_
  · intro u sender c u' hu hP hrule hcall
    obtain ⟨⟨x, hx, hwaits⟩, hvotes, hconfig, hclock⟩ := hP
    -- a window that ends too late ends later still as time passes
    have hno' : x.Unflaggable u.clockMs u.config.compensationGraceMs := by
      intro t ht
      rw [hwaits.tranches, hwaits.nextTranche] at ht
      refine (hno t ht).imp_right fun hlate => ?_
      rw [hconfig]
      omega
    obtain ⟨x', hx', hwaits'⟩ := hu.waits hrule hcall hx hwaits.state hno' hvotes
    refine ⟨⟨x', hx', hwaits'.state, hwaits'.escrow.trans hwaits.escrow,
      hwaits'.tranches.trans hwaits.tranches, hwaits'.nextTranche.trans hwaits.nextTranche⟩,
      hvotes.call hu.fresh hrule hcall, (World.call_sameConfig hrule hcall).trans hconfig, ?_⟩
    rw [World.call_clock hcall]
    exact hclock
  · intro u now _ hP hle
    exact ⟨hP.1, hP.2.1, hP.2.2.1, Nat.le_trans hP.2.2.2 hle⟩

/-! ## The default -/

/-- The next tranche is unapproved and its deadline has passed. -/
def Asset.InDefault (asset : Asset) (now : ℕ) : Prop :=
  ∃ t, asset.tranches[asset.nextTranche]? = some t ∧ t.approvedBy = none ∧ t.deadlineMs < now

/-- In `w'` the escrow that asset `a` had in `w` is in the compensation pool. -/
def World.Rescued (w w' : World) (a : ID) : Prop := ∃ asset asset' g acc acc',
  w.assets.get? a = some asset ∧ w'.assets.get? a = some asset' ∧ asset'.escrow = 0 ∧
  asset.accumulatorId = some g ∧ w.accumulators.get? g = some acc ∧
  w'.accumulators.get? g = some acc' ∧ acc.compensationPool + asset.escrow ≤ acc'.compensationPool

/-- Anybody flags the default of an unapproved tranche. -/
theorem Reachable.flags {w : World} (hw : Reachable w) {a : ID} {asset : Asset}
    (hasset : w.assets.get? a = some asset) (hstate : asset.state = .executing) {t : Tranche}
    (ht : asset.tranches[asset.nextTranche]? = some t) (hmissed : t.deadlineMs < w.clockMs)
    (hunapproved : t.approvedBy = none)
    (hunlock : w.clockMs + w.config.compensationGraceMs ≤ maxU64) :
    ∃ g, ∀ sender, ∃ w', w.call sender (.asset (.flagDefault a g)) = .ok w' ∧ w.Rescued w' a := by
  obtain ⟨g, acc, hg, hacc, hlinked⟩ := hw.accumulator_of_asset hasset (hstate ▸ rfl)
  -- escrow, collateral and pool fit in a `u64` together
  have hfunds := hw.assetFunds_le hasset hacc
  unfold Asset.funds GlobalYieldAccumulator.funds at hfunds
  have hguards : DefaultGuards asset acc w.config w.clockMs t := {
    version := hw.withinCaps.version
    state := hstate
    linked := hlinked
    tranche := ht
    missed := hmissed
    unapproved := hunapproved
    seized := by omega
    unlock := hunlock
    pool := by omega }
  refine ⟨g, fun sender => ?_⟩
  have hstep : AssetStep w sender _ _ := .flagDefault hasset hacc hguards
    (flagDefault_eq_ok.mpr ⟨t, hguards, rfl⟩)
  refine ⟨_, World.callAsset_eq_ok.mpr hstep, asset, asset.seized, g, acc, _, hasset,
    Store.get?_replace asset.seized hasset rfl, rfl, hg, hacc,
    Store.get?_replace (acc.compensated _ _) hacc rfl, ?_⟩
  simp only [GlobalYieldAccumulator.compensated]
  omega

/-- After the deadline of the next tranche of an EXECUTING asset, about which no dispute is OPEN,
    permissionless calls move its escrow into the compensation pool exactly if the tranche is
    unapproved and the grace window ends within the range of the clock. One call by anybody does
    it, paused or not. -/
theorem escrow_rescued {w : World} (hw : Reachable w) {a : ID} {asset : Asset}
    (hasset : w.assets.get? a = some asset) (hstate : asset.state = .executing)
    (hopen : w.Uncontested a) {t : Tranche} (ht : asset.tranches[asset.nextTranche]? = some t)
    (hmissed : t.deadlineMs < w.clockMs) :
    (∃ w', w.Path .permissionless w' ∧ w.Rescued w' a) ↔
      t.approvedBy = none ∧ w.clockMs + w.config.compensationGraceMs ≤ maxU64 := by
  constructor
  · intro ⟨w', hpath, x, asset', _, _, _, _, hasset', hescrow, _⟩
    by_contra hno
    have hflag : asset.Unflaggable w.clockMs w.config.compensationGraceMs := by
      intro t' ht'
      obtain rfl := Option.some.inj (ht.symm.trans ht')
      by_cases happroved : t.approvedBy = none
      · exact Or.inr (Nat.lt_of_not_le fun hle => hno ⟨happroved, hle⟩)
      · exact Or.inl happroved
    have hvotes : w.Unvoted a := fun d x hd ha hstatus => absurd hstatus (hopen d x hd ha)
    obtain ⟨y, hy, hwaits⟩ := hpath.waits hw hasset hstate hflag hvotes
    obtain rfl := Option.some.inj (hy.symm.trans hasset')
    -- the escrow is still there and not empty
    have hpos := hw.escrow_pos hasset hstate
    rw [← hwaits.escrow, hescrow] at hpos
    exact Nat.lt_irrefl _ hpos
  · intro ⟨hunapproved, hunlock⟩
    obtain ⟨g, hflag⟩ := hw.flags hasset hstate ht hmissed hunapproved hunlock
    obtain ⟨w', hcall, hrescued⟩ := hflag 0
    have hrule : CallRule.permissionless w 0 (.asset (.flagDefault a g)) := rfl
    exact ⟨w', .call hrule hcall, hrescued⟩

/-- The only tranche is neither proved nor approved when its deadline passes. -/
theorem escrow_rescued_executing : ∃ w w', (World.genesis 0).run
      (Sample.executing 1000000 100000 ++ [.tick 2001]) = .ok w ∧ w.Rescued w' 4 := by
  have hrun : returns ((World.genesis 0).run (Sample.executing 1000000 100000 ++ [.tick 2001]))
      (fun w => w.disputes.entries = [] && 2000 < w.clockMs &&
        w.clockMs + w.config.compensationGraceMs ≤ maxU64 && (w.assets.get? 4).any fun asset =>
          asset.state = .executing ∧
          asset.tranches[asset.nextTranche]? = some ⟨1000000, [], 2000, false, none, none⟩) =
      true := by
    decide +kernel
  obtain ⟨w, hw, hq⟩ := returns_iff.mp hrun
  simp only [Bool.and_eq_true, Option.any_eq_true, decide_eq_true_eq] at hq
  obtain ⟨⟨⟨hnone, hmissed⟩, hunlock⟩, asset, hasset, hstate, ht⟩ := hq
  have hdisputes : w.disputes = ∅ := Store.ext hnone
  have hopen : w.Uncontested 4 := by
    intro d dispute hd
    simp [hdisputes] at hd
  obtain ⟨w', -, hrescued⟩ := (escrow_rescued ⟨0, _, hw⟩ hasset hstate hopen ht hmissed).mpr
    ⟨rfl, hunlock⟩
  exact ⟨w, w', hw, hrescued⟩

/-- The only tranche was approved, and the entity does not pull: no sequence of permissionless
    calls moves the escrow. -/
theorem approved_escrow_stranded : ∃ w asset, (World.genesis 0).run
      (Sample.approved 1000000 100000 ++ [.tick 2001]) = .ok w ∧ w.assets.get? 4 = some asset ∧
    asset.state = .executing ∧ asset.escrow = 1000000 ∧ w.disputes = ∅ ∧
    (∃ t, asset.tranches[asset.nextTranche]? = some t ∧ t.deadlineMs < w.clockMs) ∧
    ∀ w', w.Path .permissionless w' →
      ∃ asset', w'.assets.get? 4 = some asset' ∧ asset'.escrow = 1000000 := by
  have hrun : returns ((World.genesis 0).run (Sample.approved 1000000 100000 ++ [.tick 2001]))
      (fun w => w.disputes.entries = [] && 2000 < w.clockMs &&
        (w.assets.get? 4).any fun asset => asset.state = .executing ∧ asset.escrow = 1000000 ∧
          asset.tranches[asset.nextTranche]? =
            some ⟨1000000, [], 2000, false, some Sample.evidence, some 1⟩) = true := by
    decide +kernel
  obtain ⟨w, hw, hq⟩ := returns_iff.mp hrun
  simp only [Bool.and_eq_true, Option.any_eq_true, decide_eq_true_eq] at hq
  obtain ⟨⟨hnone, hmissed⟩, asset, hasset, hstate, hescrow, ht⟩ := hq
  have hdisputes : w.disputes = ∅ := Store.ext hnone
  refine ⟨w, asset, hw, hasset, hstate, hescrow, hdisputes, ⟨_, ht, hmissed⟩, ?_⟩
  intro w' hpath
  have hflag : asset.Unflaggable w.clockMs w.config.compensationGraceMs := by
    intro t' ht'
    obtain rfl := Option.some.inj (ht.symm.trans ht')
    exact Or.inl (by simp)
  have hvotes : w.Unvoted 4 := by
    intro d dispute hd
    simp [hdisputes] at hd
  obtain ⟨asset', hasset', hwaits⟩ := hpath.waits ⟨0, _, hw⟩ hasset hstate hflag hvotes
  exact ⟨asset', hasset', hwaits.escrow.trans hescrow⟩

end Gally

import Gally.Law.Backing
import Gally.Law.Freeze

/-!
# Between the opening of a dispute and its verdict

What the coverage goes through while a dispute about its asset is OPEN. A door is left
ajar: `release_vouch_coverage` does not ask for the flag of the asset, so the coverage at
stake can leave before the verdict.

## Key results

- `upheld_slashes_coverage`: an UPHELD verdict slashes what was locked at the opening, on
  runs that release no contested coverage
-/

namespace Gally

open Checked

/-! ## The coverage at stake -/

/-- Coverage is released only of assets nobody contests. -/
def CallRule.coverageHeld : CallRule := fun w _ c =>
  ∀ a p, c = .asset (.releaseVouchCoverage a p) → w.Uncontested a

/-- Under this rule the coverage of an asset stays while a dispute about it stays OPEN. -/
theorem Reachable.coverage_held {w w' : World} (hw : Reachable w) {sender : Address} {c : Call}
    (hrule : CallRule.coverageHeld w sender c) (h : w.call sender c = .ok w') {d : ID}
    {dispute dispute' : Dispute} (hdispute : w.disputes.get? d = some dispute)
    (hopen : dispute.status = .opened) (hdispute' : w'.disputes.get? d = some dispute')
    (hopen' : dispute'.status = .opened) {asset : Asset}
    (hasset : w.assets.get? dispute.assetId = some asset) :
    ∃ asset', w'.assets.get? dispute.assetId = some asset' ∧
      asset'.coverageLocked = asset.coverageLocked := by
  obtain ⟨asset', hasset', htouch⟩ := World.call_touch hw.fresh h _ asset hasset
  have hfinal := hw.finalized_of_dispute hdispute hasset
  have hid : asset.id = dispute.assetId := Store.key_of_get? hasset
  refine ⟨asset', hasset', ?_⟩
  cases htouch with
  | vouch _ guards => simp [guards.state, AssetState.isFinalized] at hfinal
  | abort _ guards => simp [guards.state, AssetState.isFinalized] at hfinal
  | uncover => exact absurd hopen (hrule asset.id _ rfl d dispute hdispute hid.symm)
  | verdict => exact absurd hid.symm (hw.no_other_verdict h hdispute hopen hdispute' hopen')
  | _ => rfl

/-- The opening files the dispute, and flags the asset. -/
theorem World.opening_eq {w w' : World} {sender : Address} {a p g : ID} {bond : U64}
    {evidence : WalrusRef} {reason : Bytes}
    (h : w.call sender (.dispute (.initializeDispute a p g bond evidence reason)) = .ok w') :
    ∃ asset pool acc dispute, w.assets.get? a = some asset ∧ w.pools.get? p = some pool ∧
      w.accumulators.get? g = some acc ∧
      InitializeGuards asset pool acc w.config bond.val reason w.clockMs ∧
      w'.assets.get? a = some (setDisputed asset true) ∧
      w'.disputes.get? w.nextId = some dispute ∧
      dispute =
        .opening asset pool acc w.config bond.val evidence reason w.clockMs sender w.nextId ∧
      dispute.assetId = a ∧ dispute.targetPoolId = p ∧ dispute.accumulatorId = g ∧
      w'.clockMs = w.clockMs := by
  cases World.callDispute_eq_ok.mp h with
  | @initializeDispute _ _ _ _ _ _ asset pool acc _ hasset hpool hacc _ guards =>
    exact ⟨asset, pool, acc, _, hasset, hpool, hacc, guards,
      Store.get?_replace (setDisputed asset true) hasset rfl, Store.get?_put_self _ (Dispute.opening
        asset pool acc w.config bond.val evidence reason w.clockMs sender w.nextId), rfl,
      Store.key_of_get? hasset, Store.key_of_get? hpool, Store.key_of_get? hacc, rfl⟩

/-- The effect of an UPHELD verdict over `coverage` for `challenger`. -/
structure World.Slashes (w w' : World) (a p g : ID) (challenger : Address)
    (bond coverage : ℕ) : Prop where
  asset : ∃ asset asset', w.assets.get? a = some asset ∧ w'.assets.get? a = some asset' ∧
    asset.coverageLocked = coverage ∧ asset'.coverageLocked = 0
  pool : ∃ pool pool', w.pools.get? p = some pool ∧ w'.pools.get? p = some pool' ∧
    pool'.stake + coverage = pool.stake ∧ pool'.locked + coverage = pool.locked ∧
    pool'.status = .slashed
  paid : w'.wallets.balance challenger =
    w.wallets.balance challenger + (w.config.bounty coverage + bond)
  compensated : ∃ asset acc acc', w.assets.get? a = some asset ∧
    w.accumulators.get? g = some acc ∧ w'.accumulators.get? g = some acc' ∧
    w.config.bounty coverage ≤ coverage ∧
    acc'.compensationPool =
      acc.compensationPool + (coverage - w.config.bounty coverage + asset.seizable)

/-- What a resolution that ends UPHELD does with the dispute it finds. -/
theorem Reachable.slashes {w w' : World} (hw : Reachable w) {sender : Address} {d p a g : ID}
    (h : w.call sender (.dispute (.resolveDispute d p a g)) = .ok w') {dispute dispute' : Dispute}
    (hdispute : w.disputes.get? d = some dispute) (hdispute' : w'.disputes.get? d = some dispute')
    (hupheld : dispute'.status = .upheld) {asset : Asset}
    (hasset : w.assets.get? dispute.assetId = some asset) :
    w.Slashes w' dispute.assetId dispute.targetPoolId dispute.accumulatorId dispute.challenger
      dispute.bond asset.coverageLocked := by
  cases World.callDispute_eq_ok.mp h with
  | @resolveDispute _ _ _ _ x pool y acc v hx hpool hy hacc guards decides =>
    obtain rfl := Option.some.inj (hx.symm.trans hdispute)
    have hself := guards.asset_recorded hy
    obtain rfl := Option.some.inj (hself.symm.trans hasset)
    have hv := Store.get?_replace v.dispute hx decides.keeps.disputeId
    obtain rfl := Option.some.inj (hv.symm.trans hdispute')
    -- only the guilty verdict writes UPHELD
    cases decides with
    | expired => simp [expiredVerdict] at hupheld
    | rejected => simp [rejectedVerdict] at hupheld
    | upheld _ _ uphold =>
      have hpool' := guards.pool_recorded hpool
      have hacc' := guards.acc_recorded hacc
      have hcoverage : y.upheld.coverageLocked = 0 := by
        unfold Asset.upheld
        split <;> rfl
      have hid : y.upheld.id = y.id := by
        unfold Asset.upheld
        split <;> rfl
      -- the coverage is part of what the pool has locked, so the clamp does nothing
      have hlocked := hw.covered.disputed_le hx hpool hy guards.pool guards.asset
      have hstake := uphold.stake
      exact {
        asset := ⟨y, y.upheld, hself, Store.get?_replace y.upheld hself hid, rfl, hcoverage⟩
        pool := ⟨pool, pool.slashed y.coverageLocked, hpool',
          Store.get?_replace (pool.slashed y.coverageLocked) hpool' rfl,
          by simp only [ValidatorPool.slashed]; omega, by simp only [ValidatorPool.slashed]; omega,
          rfl⟩
        paid := World.balance_credit_self ..
        compensated := ⟨y, acc, _, hself, hacc', Store.get?_replace (acc.compensated _ _) hacc' rfl,
          uphold.bounty, rfl⟩ }

/-- An UPHELD verdict slashes exactly the coverage that was locked when the dispute was opened,
    pays bounty and bond to the challenger and compensates with the rest, on every run in
    which no contested coverage was released in between. -/
theorem upheld_slashes_coverage {w₀ w₁ w₂ w₃ : World} (hw : Reachable w₀) {s s' : Address}
    {a p g p' a' g' : ID} {bond : U64} {evidence : WalrusRef} {reason : Bytes}
    (hopen : w₀.call s (.dispute (.initializeDispute a p g bond evidence reason)) = .ok w₁)
    (hpath : w₁.Path .coverageHeld w₂)
    (hresolve : w₂.call s' (.dispute (.resolveDispute w₀.nextId p' a' g')) = .ok w₃)
    (hupheld : ∃ dispute, w₃.disputes.get? w₀.nextId = some dispute ∧ dispute.status = .upheld) :
    ∃ asset, w₀.assets.get? a = some asset ∧ 0 < asset.coverageLocked ∧
      w₂.Slashes w₃ a p g s bond.val asset.coverageLocked := by
  obtain ⟨asset, pool, acc, dispute, hasset, -, -, guards, hflagged, hdispute, hopening, ha, hp, hg,
    -⟩ := World.opening_eq hopen
  obtain ⟨final, hfinal, hupheld⟩ := hupheld
  have hw₁ := hw.call hopen
  have hw₂ := hpath.reachable hw₁
  -- while the dispute is OPEN it is on the same charge, and the coverage is there
  have hinv : ∃ x, w₂.disputes.get? w₀.nextId = some x ∧ (x.status = .opened →
      dispute.SameCharge x ∧ ∃ y, w₂.assets.get? a = some y ∧
        y.coverageLocked = asset.coverageLocked) := by
    refine hpath.preserves (P := fun u => ∃ x, u.disputes.get? w₀.nextId = some x ∧
      (x.status = .opened → dispute.SameCharge x ∧ ∃ y, u.assets.get? a = some y ∧
        y.coverageLocked = asset.coverageLocked)) hw₁
      ⟨dispute, hdispute, fun _ => ⟨.refl dispute, _, hflagged, rfl⟩⟩ ?_ fun _ hP _ => hP
    intro u sender c u' hu hP hrule hcall
    obtain ⟨x, hx, hx'⟩ := hP
    obtain ⟨z, hz, hkept⟩ := World.call_charge hu.fresh hcall hx
    refine ⟨z, hz, fun hopen => ?_⟩
    obtain ⟨hopen', hcharge⟩ := hkept hopen
    obtain ⟨hsame, y, hy, hcoverage⟩ := hx' hopen'
    have hxa : x.assetId = a := hsame.assetId.trans ha
    obtain ⟨y', hy', hheld⟩ := hu.coverage_held hrule hcall hx hopen' hz hopen (hxa ▸ hy)
    exact ⟨hsame.trans hcharge, y', hxa ▸ hy', hheld.trans hcoverage⟩
  obtain ⟨x, hx, hx'⟩ := hinv
  -- `resolve_dispute` asks for an OPEN dispute
  have hstill : x.status = .opened := by
    cases World.callDispute_eq_ok.mp hresolve with
    | resolveDispute hd _ _ _ guards =>
      exact Option.some.inj (hd.symm.trans hx) ▸ guards.opened
  obtain ⟨hsame, y, hy, hcoverage⟩ := hx' hstill
  have hy' : w₂.assets.get? x.assetId = some y := (hsame.assetId.trans ha).symm ▸ hy
  have hslash := hw₂.slashes hresolve hx hfinal hupheld hy'
  rw [hsame.assetId, hsame.target, hsame.accumulator, hsame.challenger, hsame.bond, ha, hp, hg,
    hcoverage] at hslash
  refine ⟨asset, hasset, guards.covered, ?_⟩
  rw [hopening] at hslash
  exact hslash

namespace Sample

/-- The jury is one pool, number 9 of address 4 with capability 10. -/
def court : List Action :=
  [.transaction 0 [.framework (.mintUsdc 4 10000000000), .protocol (.adminSetDisputeParams
    ⟨1000000000, 1, 6667, 10000000000, 1000, 604800000, 604800000⟩)],
   .transaction 4 [.validator (.registerValidator 10000000000 [])]]

/-- Address 3 opens dispute 11 about asset 4. -/
def challenge : Call := .dispute (.initializeDispute 4 2 8 1000000000 evidence [])

/-- Pool 9 votes, and the window passes. -/
def voting : List Action :=
  [.transaction 4 [.dispute (.voteOnDispute 11 9 10 true)], .tick 604800000]

def resolution : Call := .dispute (.resolveDispute 11 2 4 8)

/-- The challenge, what happens until its resolution, and the resolution. -/
def trial (before between : List Action) (check : World → World → World → World → Bool) : Bool :=
  returns ((World.genesis 0).run before) fun w₀ => returns (w₀.call 3 challenge) fun w₁ =>
    returns (w₁.run between) fun w₂ => returns (w₂.call 3 resolution) fun w₃ => check w₀ w₁ w₂ w₃

/-- What the check of a trial evaluates. -/
theorem trial_iff {before between : List Action} {check : World → World → World → World → Bool} :
    trial before between check = true ↔ ∃ w₀ w₁ w₂ w₃, (World.genesis 0).run before = .ok w₀ ∧
      w₀.call 3 challenge = .ok w₁ ∧ w₁.run between = .ok w₂ ∧ w₂.call 3 resolution = .ok w₃ ∧
      check w₀ w₁ w₂ w₃ = true := by
  simp only [trial, returns_iff]
  constructor
  · intro ⟨w₀, h₀, w₁, h₁, w₂, h₂, w₃, h₃, hq⟩
    exact ⟨w₀, w₁, w₂, w₃, h₀, h₁, h₂, h₃, hq⟩
  · intro ⟨w₀, w₁, w₂, w₃, h₀, h₁, h₂, h₃, hq⟩
    exact ⟨w₀, h₀, w₁, h₁, w₂, h₂, w₃, h₃, hq⟩

/-- The status of dispute 11. -/
def verdictIs (w : World) (status : DisputeStatus) : Bool :=
  (w.disputes.get? 11).any (·.status = status)

end Sample

/-- The challenge of an executing project is upheld. -/
theorem upheld_slashes_coverage_executing : ∃ (w₀ w₂ w₃ : World) (asset : Asset),
    (World.genesis 0).run (Sample.executing 1000000 100000 ++ Sample.court) = .ok w₀ ∧
    w₀.assets.get? 4 = some asset ∧ w₂.Slashes w₃ 4 2 8 3 1000000000 asset.coverageLocked := by
  have hrun : Sample.trial (Sample.executing 1000000 100000 ++ Sample.court) Sample.voting
      (fun w₀ _ _ w₃ => w₀.nextId = 11 && Sample.verdictIs w₃ .upheld) = true := by
    decide +kernel
  obtain ⟨w₀, w₁, w₂, w₃, h₀, h₁, h₂, h₃, hq⟩ := Sample.trial_iff.mp hrun
  rw [Bool.and_eq_true, decide_eq_true_eq] at hq
  obtain ⟨hnext, hany⟩ := hq
  obtain ⟨dispute, hd, hupheld⟩ := (Option.any_eq_true _ _).mp hany
  -- no call of the ballot releases coverage
  have hpath : w₁.Path .coverageHeld w₂ :=
    World.Path.of_run_rule (by simp [Sample.voting, Action.Obeys, CallRule.coverageHeld]) h₂
  have hresolve : w₂.call 3 (.dispute (.resolveDispute w₀.nextId 2 4 8)) = .ok w₃ := by
    rw [hnext]
    exact h₃
  obtain ⟨asset, hasset, -, hslash⟩ := upheld_slashes_coverage ⟨0, _, h₀⟩ h₁ hpath hresolve
    ⟨dispute, hnext.symm ▸ hd, of_decide_eq_true hupheld⟩
  exact ⟨w₀, w₂, w₃, asset, h₀, hasset, hslash⟩

/-- The asset becomes operational before the challenge, and anybody releases the coverage before
    the verdict: it is UPHELD and slashes nothing. -/
theorem uncovered_verdict_slashes_nothing : ∃ w₀ w₁ w₂ w₃ asset pool pool' acc,
    (World.genesis 0).run (Sample.operational 1000000 100000 ++ Sample.court) = .ok w₀ ∧
    w₀.call 3 Sample.challenge = .ok w₁ ∧
    w₁.run (.transaction 3 [.asset (.releaseVouchCoverage 4 2)] :: Sample.voting) = .ok w₂ ∧
    w₂.call 3 Sample.resolution = .ok w₃ ∧ Sample.verdictIs w₃ .upheld = true ∧
    w₀.assets.get? 4 = some asset ∧ asset.coverageLocked = 200000 ∧
    w₂.pools.get? 2 = some pool ∧ w₃.pools.get? 2 = some pool' ∧ pool'.stake = pool.stake ∧
    w₃.accumulators.get? 8 = some acc ∧ acc.compensationPool = 0 := by
  have hrun : Sample.trial (Sample.operational 1000000 100000 ++ Sample.court)
      (.transaction 3 [.asset (.releaseVouchCoverage 4 2)] :: Sample.voting)
      (fun w₀ _ w₂ w₃ => Sample.verdictIs w₃ .upheld &&
        (w₀.assets.get? 4).any (·.coverageLocked = 200000) &&
        (w₂.pools.get? 2).any (·.stake = 20000000000) &&
        (w₃.pools.get? 2).any (·.stake = 20000000000) &&
        (w₃.accumulators.get? 8).any (·.compensationPool = 0)) = true := by
    decide +kernel
  obtain ⟨w₀, w₁, w₂, w₃, h₀, h₁, h₂, h₃, hq⟩ := Sample.trial_iff.mp hrun
  simp only [Bool.and_eq_true, Option.any_eq_true, decide_eq_true_eq] at hq
  obtain ⟨⟨⟨⟨hverdict, asset, hasset, hcoverage⟩, pool, hpool, hstake⟩, pool', hpool', hstake'⟩,
    acc, hacc, hcomp⟩ := hq
  exact ⟨w₀, w₁, w₂, w₃, asset, pool, pool', acc, h₀, h₁, h₂, h₃, hverdict, hasset, hcoverage,
    hpool, hpool', hstake'.trans hstake.symm, hacc, hcomp⟩

end Gally

import Gally.Chain.Coverage
import Gally.Law.Lifecycle

/-!
# The ways out of a raise

After the funding deadline only the abort is left, and it asks for a raise below its goal.
A raise that met its goal and was not finalized in time is stranded: the deadline closes
the finalization, the goal closes the abort, and its escrow stays where it is.

## Key results

- `expired_raise_ends`: a raise past its deadline has a way out exactly when it is short
  of its goal
- `met_raise_stranded`: a run that strands one
-/

namespace Gally

open Checked

/-! ## The vouching pool -/

/-- Past the listing an asset has a vouching pool. -/
def Site.Vouched (s : Site) : Prop :=
  s.asset.validatorPoolId = none → s.asset.state = .pendingVouch ∨ s.asset.state = .cancelled

/-- A step keeps a site vouched for, once its raise has begun. -/
theorem Site.Vouched.step {s s' : Site} (h : s.Vouched) (hs : Site.Step s s') : s'.Vouched := by
  -- a state that follows the vouch rules out that there was none
  have hno : ∀ {state : AssetState}, s.asset.state = state → state ≠ .pendingVouch →
      state ≠ .cancelled → s.asset.validatorPoolId ≠ none := by
    rintro _ rfl h1 h2 hnone
    exact (h hnone).elim h1 h2
  intro hnone
  cases hs with
  | cancel => exact Or.inr rfl
  | vouch => simp [Asset.vouched] at hnone
  | finalize guards => exact absurd hnone (hno guards.state (by simp) (by simp))
  | abort guards => exact absurd hnone (hno guards.state (by simp) (by simp))
  | release guards => exact absurd hnone (hno guards.state (by simp) (by simp))
  | default _ guards => exact absurd hnone (hno guards.state (by simp) (by simp))
  | close _ guards =>
    cases guards with
    | returnTarget state => exact absurd hnone (hno state (by simp) (by simp))
    | compensation state => exact absurd hnone (hno state (by simp) (by simp))
    | windDown state => exact absurd hnone (hno state (by simp) (by simp))
  | uphold =>
    simp only [Asset.upheld] at hnone ⊢
    split at hnone
    · next state => exact absurd hnone (hno state (by simp) (by simp))
    · next state =>
      rw [if_neg state]
      exact h hnone
  | _ => exact h hnone

/-- Past the listing there is a vouching pool. -/
theorem Reachable.pool_of_asset {w : World} (hw : Reachable w) {a : ID} {asset : Asset}
    (hasset : w.assets.get? a = some asset) (hpending : asset.state ≠ .pendingVouch)
    (hcancelled : asset.state ≠ .cancelled) :
    ∃ p pool, asset.validatorPoolId = some p ∧ w.pools.get? p = some pool := by
  have hvouched := hw.site_induct (P := Site.Vouched) (fun _ h _ => Or.inl h.state)
    (fun h hs => h.step hs) hasset
  cases hp : asset.validatorPoolId with
  | none => exact ((hvouched hp).elim hpending hcancelled).elim
  | some p =>
    obtain ⟨pool, hpool⟩ := hw.covered.pool asset (Store.mem_of_get? hasset) p hp
    exact ⟨p, pool, rfl, hpool⟩

/-- A raise has a vouching pool. -/
theorem Reachable.vouchingPool {w : World} (hw : Reachable w) {a : ID} {asset : Asset}
    (hasset : w.assets.get? a = some asset) (hstate : asset.state = .funding) :
    ∃ p pool, asset.validatorPoolId = some p ∧ w.pools.get? p = some pool :=
  hw.pool_of_asset hasset (by simp [hstate]) (by simp [hstate])

/-! ## Finalizing and aborting -/

section Late

variable {w : World} {a : ID} {asset : Asset}

/-- A raise past its deadline cannot be finalized. -/
theorem World.finalize_late (hasset : w.assets.get? a = some asset)
    (hlate : asset.fundingDeadlineMs < w.clockMs) (sender : Address) (token : TypeTag) :
    ¬ Succeeds (w.call sender (.asset (.finalizeSuccessfulRaise a token))) := by
  intro ⟨w', h⟩
  cases World.callAsset_eq_ok.mp h with
  | finalizeSuccessfulRaise hx _ _ _ guards =>
    obtain rfl := Option.some.inj (hx.symm.trans hasset)
    exact Nat.not_lt.mpr guards.inTime hlate

/-- A raise that met its goal cannot be aborted. -/
theorem World.abort_met (hasset : w.assets.get? a = some asset)
    (hmet : asset.fundingGoal ≤ asset.raised) (sender : Address) (p : ID) :
    ¬ Succeeds (w.call sender (.asset (.abortFailedRaise a p))) := by
  intro ⟨w', h⟩
  cases World.callAsset_eq_ok.mp h with
  | abortFailedRaise hx _ guards =>
    obtain rfl := Option.some.inj (hx.symm.trans hasset)
    exact Nat.not_lt.mpr hmet guards.unmet

/-- A raise past its deadline and short of its goal can be aborted by anyone. -/
theorem Reachable.abortGuards (hw : Reachable w) (hasset : w.assets.get? a = some asset)
    (hstate : asset.state = .funding) (hlate : asset.fundingDeadlineMs < w.clockMs)
    (hshort : asset.raised < asset.fundingGoal) {p : ID} {pool : ValidatorPool}
    (hp : asset.validatorPoolId = some p) (hpool : w.pools.get? p = some pool) :
    AbortGuards asset pool w.config w.clockMs := by
  have hc := hw.covered
  have hvouch : asset.validatorPoolId = some pool.id := by
    rw [hp, ← show pool.id = p from Store.key_of_get? hpool]
  -- this raise is one of the vouches its pool counts
  have hone : asset.vouchIn pool.id = 1 := if_pos ⟨hvouch, Or.inl hstate⟩
  have hle := Store.le_sum (Store.mem_of_get? hasset) (Asset.vouchIn pool.id)
  have hcount := (hc.backs pool (Store.mem_of_get? hpool)).vouches
  exact {
    version := hw.withinCaps.version
    state := hstate
    expired := hlate
    unmet := hshort
    vouching := hvouch
    locked := hc.coverage_le hasset hpool hvouch
    vouches := by omega }

/-- A raise past its deadline can be aborted exactly when it is short of its goal. -/
theorem Reachable.abort_iff (hw : Reachable w) (hasset : w.assets.get? a = some asset)
    (hstate : asset.state = .funding) (hlate : asset.fundingDeadlineMs < w.clockMs) {p : ID}
    (hp : asset.validatorPoolId = some p) (sender : Address) :
    Succeeds (w.call sender (.asset (.abortFailedRaise a p))) ↔
      asset.raised < asset.fundingGoal := by
  constructor
  · intro h
    by_contra hmet
    exact World.abort_met hasset (Nat.not_lt.mp hmet) sender p h
  · intro hshort
    obtain ⟨pool, hpool⟩ := hw.covered.pool asset (Store.mem_of_get? hasset) p hp
    have guards := hw.abortGuards hasset hstate hlate hshort hp hpool
    exact ⟨_, World.callAsset_eq_ok.mpr
      (.abortFailedRaise hasset hpool guards (abortFailedRaise_eq_ok.mpr ⟨guards, rfl⟩))⟩

/-- The holder of a receipt of a failed raise gets the principal back. -/
theorem Reachable.refund (hw : Reachable w) (hasset : w.assets.get? a = some asset)
    (hstate : asset.state = .failed) {r : ID} {receipt : ContributionReceipt}
    (hreceipt : w.receipts.get? r = some receipt) (ha : receipt.assetId = asset.id) :
    ∃ w', w.call (w.owner .soulbound r) (.asset (.refundContribution a r)) = .ok w' ∧
      w'.receipts = w.receipts.delete r := by
  obtain ⟨⟨_, hraised⟩, ⟨_, hescrow⟩⟩ := (hw.custodied hasset).refund hstate r receipt hreceipt ha
  have guards : RefundGuards asset w.config receipt :=
    ⟨hw.withinCaps.version, hstate, ha, (sub_eq_ok.mp hraised).1, (takeOut_eq_ok.mp hescrow).1⟩
  exact ⟨_, World.callAsset_eq_ok.mpr
    (.refundContribution hasset rfl hreceipt guards (refundContribution_eq_ok.mpr ⟨guards, rfl⟩)),
    rfl⟩

/-- A receipt of a raise that can be aborted can be refunded after the abort. -/
theorem Reachable.refundable (hw : Reachable w) (hasset : w.assets.get? a = some asset)
    (hstate : asset.state = .funding) (hlate : asset.fundingDeadlineMs < w.clockMs)
    (hshort : asset.raised < asset.fundingGoal) {r : ID} {receipt : ContributionReceipt}
    (hreceipt : w.receipts.get? r = some receipt) (ha : receipt.assetId = asset.id) :
    ∃ actions w', w.run actions = .ok w' ∧ w'.receipts.get? r = none := by
  obtain ⟨p, pool, hp, hpool⟩ := hw.vouchingPool hasset hstate
  have guards := hw.abortGuards hasset hstate hlate hshort hp hpool
  have hcall := World.callAsset_eq_ok.mpr (@AssetStep.abortFailedRaise w 0 a p asset pool _
    hasset hpool guards (abortFailedRaise_eq_ok.mpr ⟨guards, rfl⟩))
  -- after the abort the asset is FAILED, and the refund goes through
  have hself := Store.get?_replace asset.failed hasset rfl
  obtain ⟨w', hrefund, hdeleted⟩ := Reachable.refund
    (hw.call (c := .asset (.abortFailedRaise a p)) hcall) hself rfl hreceipt ha
  refine ⟨[.transaction 0 [.asset (.abortFailedRaise a p)],
    .transaction (w.owner .soulbound r) [.asset (.refundContribution a r)]], w',
    World.run_call hcall (World.run_call hrefund w'.run_nil), ?_⟩
  rw [hdeleted]
  simp [Store.get?_delete]

end Late

/-! ## The law of the raise -/

/-- A way out of the raise of asset `a`, for the holder of the cap of `token` or for
    everybody, and with it a way out for every receipt. -/
def World.RaiseEnds (w : World) (a p : ID) (token : TypeTag) : Prop :=
  (Succeeds (w.call (w.owner .treasuryCap token) (.asset (.finalizeSuccessfulRaise a token))) ∨
    ∀ sender, Succeeds (w.call sender (.asset (.abortFailedRaise a p)))) ∧
  ∀ r receipt, w.receipts.get? r = some receipt → receipt.assetId = a →
    ∃ actions w', w.run actions = .ok w' ∧ w'.receipts.get? r = none

/-- After its deadline a raise has a way out, whatever cap is at hand and given its vouching
    pool, exactly when it is short of its goal. -/
theorem expired_raise_ends {w : World} (hw : Reachable w) {a : ID} {asset : Asset}
    (hasset : w.assets.get? a = some asset) (hstate : asset.state = .funding)
    (hlate : asset.fundingDeadlineMs < w.clockMs) (token : TypeTag) :
    ∃ p pool, asset.validatorPoolId = some p ∧ w.pools.get? p = some pool ∧
      (w.RaiseEnds a p token ↔ asset.raised < asset.fundingGoal) := by
  obtain ⟨p, pool, hp, hpool⟩ := hw.vouchingPool hasset hstate
  refine ⟨p, pool, hp, hpool, ?_, ?_⟩
  · rintro ⟨hfinalize | habort, -⟩
    · exact absurd hfinalize (World.finalize_late hasset hlate _ token)
    · exact (hw.abort_iff hasset hstate hlate hp 0).mp (habort 0)
  · intro hshort
    refine ⟨Or.inr fun sender => (hw.abort_iff hasset hstate hlate hp sender).mpr hshort, ?_⟩
    intro r receipt hreceipt ha
    have ha' : receipt.assetId = asset.id := ha.trans (Store.key_of_get? hasset).symm
    exact hw.refundable hasset hstate hlate hshort hreceipt ha'

namespace Sample

/-- The raise got `raised` units and a token was published, and the deadline passed. -/
def expired (raised : U64) : List Action :=
  vouched 1000000 100000 ++
  [.transaction 3 [.asset (.contributeCapital 4 raised)],
   .transaction 2 [.framework (.publishToken 6)], .tick 1001]

/-- What the two runs below have in common. -/
def isExpired (w : World) (raised : ℕ) : Bool :=
  (w.assets.get? 4).any (fun asset => asset.state = .funding ∧ asset.raised = raised ∧
    asset.fundingGoal = 1000000 ∧ asset.fundingDeadlineMs < w.clockMs) &&
  w.treasuryCaps.get? 7 = some ⟨7, 0⟩ && w.metadata.get? 7 = some ⟨7, 6⟩

end Sample

/-- A raise one unit short of its goal. -/
theorem expired_raise_ends_short : ∃ w p, (World.genesis 0).run (Sample.expired 999999) = .ok w ∧
    w.RaiseEnds 4 p 7 := by
  have hrun : returns ((World.genesis 0).run (Sample.expired 999999))
      (Sample.isExpired · 999999) = true := by
    decide +kernel
  obtain ⟨w, hw, hq⟩ := returns_iff.mp hrun
  simp only [Sample.isExpired, Bool.and_eq_true, decide_eq_true_eq] at hq
  obtain ⟨⟨hany, -⟩, -⟩ := hq
  obtain ⟨asset, hasset, hq⟩ := (Option.any_eq_true _ _).mp hany
  obtain ⟨hstate, hraised, hgoal, hlate⟩ := of_decide_eq_true hq
  obtain ⟨p, -, -, -, hends⟩ := expired_raise_ends ⟨0, _, hw⟩ hasset hstate hlate 7
  exact ⟨w, p, hw, hends.mpr (by omega)⟩

/-- A raise that met its goal and was not finalized by its deadline: with a virgin cap of
    six decimals at hand, neither way out is open to anybody. -/
theorem met_raise_stranded : ∃ w asset, (World.genesis 0).run (Sample.expired 1000000) = .ok w ∧
    w.assets.get? 4 = some asset ∧ asset.state = .funding ∧
    asset.fundingDeadlineMs < w.clockMs ∧ asset.validatorPoolId = some 2 ∧
    w.treasuryCaps.get? 7 = some ⟨7, 0⟩ ∧ w.metadata.get? 7 = some ⟨7, 6⟩ ∧
    ∀ sender, ¬ Succeeds (w.call sender (.asset (.finalizeSuccessfulRaise 4 7))) ∧
      ¬ Succeeds (w.call sender (.asset (.abortFailedRaise 4 2))) := by
  have hrun : returns ((World.genesis 0).run (Sample.expired 1000000)) (fun w =>
      Sample.isExpired w 1000000 &&
      (w.assets.get? 4).any (·.validatorPoolId = some 2)) = true := by
    decide +kernel
  obtain ⟨w, hw, hq⟩ := returns_iff.mp hrun
  simp only [Sample.isExpired, Bool.and_eq_true, decide_eq_true_eq] at hq
  obtain ⟨⟨⟨hany, hcap⟩, hmeta⟩, hpool⟩ := hq
  obtain ⟨asset, hasset, hq⟩ := (Option.any_eq_true _ _).mp hany
  obtain ⟨hstate, hraised, hgoal, hlate⟩ := of_decide_eq_true hq
  rw [hasset, Option.any_some, decide_eq_true_eq] at hpool
  -- too late to finalize, and with its goal met nothing to abort
  refine ⟨w, asset, hw, hasset, hstate, hlate, hpool, hcap, hmeta, fun sender => ⟨?_, ?_⟩⟩
  · exact World.finalize_late hasset hlate sender 7
  · exact World.abort_met hasset (by omega) sender 2

end Gally

import Gally.Chain.Titles
import Gally.Chain.Treasury
import Gally.Law.Yield
import Mathlib.Logic.Relation

/-!
# Custody follows the lifecycle

Which transitions an asset makes, what it holds in each state, and where the collateral of
the entity goes. The state is described by `World.Custodied`, one call by `Custody`; from
the law of one call follows that of a run.

## Key results

- `custody_follows_lifecycle`: both hold in every reachable state, and over every run
-/

namespace Gally

open Checked

/-! ## The lifecycle -/

/-- The transitions of an asset. -/
inductive AssetState.Next : AssetState → AssetState → Prop where
  | vouch : Next .pendingVouch .funding
  | cancel : Next .pendingVouch .cancelled
  | finalize : Next .funding .executing
  | abort : Next .funding .failed
  | operate : Next .executing .operational
  | seize : Next .executing .compensating
  | close : Next .operational .closed
  | settle : Next .compensating .closed

/-- The states before the collateral has left. -/
def AssetState.holdsCollateral : AssetState → Bool
  | .pendingVouch | .funding | .executing | .operational => true
  | .failed | .cancelled | .compensating | .closed => false

/-- Collateral that has left does not come back. -/
theorem AssetState.Next.holdsCollateral {s s' : AssetState} (h : s.Next s')
    (hs : s.holdsCollateral = false) : s'.holdsCollateral = false := by
  cases h <;> simp [AssetState.holdsCollateral] at hs ⊢

/-! ## What an asset holds -/

/-- Escrow and collateral of an asset of the world, state by state, and what relies on
    them. -/
structure World.Custodied (w : World) (asset : Asset) : Prop where
  idle : asset.state = .pendingVouch ∨ asset.state = .cancelled → asset.escrow = 0
  raising : asset.state = .funding ∨ asset.state = .failed →
    asset.escrow = asset.raised ∧ asset.raised = (w.site asset).receiptUnits ∧
      asset.raised ≤ asset.fundingGoal
  executing : asset.state = .executing → asset.escrow = asset.unreleased ∧
    ∀ i t, asset.tranches[i]? = some t → (t.released = false ↔ asset.nextTranche ≤ i)
  released : asset.state = .operational ∨ asset.state = .compensating ∨ asset.state = .closed →
    asset.escrow = 0
  gone : asset.state.holdsCollateral = false → asset.entityCollateral = 0
  closed : ∀ g acc, w.accumulators.get? g = some acc → acc.assetId = asset.id →
    (acc.closed = true ↔ asset.state = .closed)
  refund : asset.state = .failed → ∀ r receipt, w.receipts.get? r = some receipt →
    receipt.assetId = asset.id → Succeeds (sub asset.raised receipt.amount) ∧
      Succeeds (takeOut asset.escrow receipt.amount)
  next : asset.state = .executing → ∃ t,
    ofOption Abort.outOfBounds asset.tranches[asset.nextTranche]? = .ok t ∧
      Succeeds (takeOut asset.escrow t.amount)

/-- The escrow and the collateral of every asset of a reachable world follow its state. -/
theorem Reachable.custodied {w : World} (hw : Reachable w) {a : ID} {asset : Asset}
    (hasset : w.assets.get? a = some asset) : w.Custodied asset := by
  have hs := hw.sound hasset
  have hstage := hs.stage
  have hscheduled := hs.scheduled
  have hsame : (w.site asset).asset = asset := rfl
  simp only [Site.Stage, hsame] at hstage
  exact {
    idle := by
      rintro (hst | hst) <;> simp only [hst] at hstage <;> exact hstage.1
    raising := by
      rintro (hst | hst) <;> simp only [hst] at hstage <;>
        exact ⟨hstage.1, hstage.2.1, hstage.2.2.1⟩
    executing := by
      intro hst
      simp only [hst] at hstage
      refine ⟨hstage.1, fun i t ht => ?_⟩
      have hreleased := hscheduled.released i t ht
      rw [← Bool.not_eq_true, hreleased, Nat.not_lt]
      exact Iff.rfl
    released := by
      rintro (hst | hst | hst) <;> simp only [hst] at hstage <;> exact hstage.1
    gone := by
      intro hgone
      cases hst : asset.state with
      | failed =>
        simp only [hst] at hstage
        exact hstage.2.2.2
      | cancelled =>
        simp only [hst] at hstage
        exact hstage.2
      | compensating =>
        simp only [hst] at hstage
        exact hstage.2
      | closed =>
        simp only [hst] at hstage
        exact hstage.2
      | _ => simp [hst, AssetState.holdsCollateral] at hgone
    closed := by
      intro g acc hacc ha
      have hg := hw.linked.accumulatorId hasset hacc ha
      exact (hs.tied _ (World.site_engine hg hacc)).closed
    refund := by
      intro hst r receipt hreceipt ha
      simp only [hst] at hstage
      have hmem : receipt ∈ (w.site asset).receipts :=
        Store.mem_group.mpr ⟨Store.mem_of_get? hreceipt, ha⟩
      -- the receipts add up to what is raised, and that is the escrow
      have hle : receipt.amount ≤ (w.site asset).receiptUnits :=
        Store.le_sum hmem ContributionReceipt.amount
      have hraised : receipt.amount ≤ asset.raised := hstage.2.1 ▸ hle
      exact ⟨⟨_, sub_eq_ok.mpr ⟨hraised, rfl⟩⟩,
        ⟨_, takeOut_eq_ok.mpr ⟨hstage.1 ▸ hraised, rfl⟩⟩⟩
    next := by
      intro hst
      simp only [hst] at hstage
      obtain ⟨hescrow, hlt⟩ := hstage
      have ht := List.getElem?_eq_getElem hlt
      refine ⟨_, ofOption_eq_ok.mpr ht, _, takeOut_eq_ok.mpr ⟨?_, rfl⟩⟩
      -- the tranche is part of what is unreleased
      rw [hescrow, Asset.unreleased, trancheTotal_drop ht]
      exact Nat.le_add_right _ _ }

/-! ## What a call does -/

/-- What happened to the collateral of an asset: nothing; it went back to the entity; or
    it went, with the escrow, to the compensation pool. -/
inductive Custody (w w' : World) (asset asset' : Asset) : Prop where
  | kept (state : asset'.state = asset.state ∨ asset.state.Next asset'.state ∧
        asset'.state.holdsCollateral = asset.state.holdsCollateral)
      (collateral : asset'.entityCollateral = asset.entityCollateral)
  | returned (edge : asset.state.Next asset'.state)
      (state : asset'.state = .cancelled ∨ asset'.state = .failed ∨
        asset.state = .operational ∧ asset'.state = .closed)
      (empty : asset'.entityCollateral = 0)
      (paid : w'.wallets.balance asset.entity =
        w.wallets.balance asset.entity + asset.entityCollateral)
  | seized (before : asset.state = .executing) (after : asset'.state = .compensating)
      (empty : asset'.entityCollateral = 0)
      (paid : ∃ g acc acc', asset.accumulatorId = some g ∧ w.accumulators.get? g = some acc ∧
        w'.accumulators.get? g = some acc' ∧
        acc.compensationPool + (asset.entityCollateral + asset.escrow) ≤ acc'.compensationPool)

namespace Custody

variable {w w' : World} {asset asset' : Asset}

theorem refl (w w' : World) (asset : Asset) : Custody w w' asset asset :=
  .kept (Or.inl rfl) rfl

/-- A call that touches neither the state nor the collateral. -/
theorem same (hstate : asset'.state = asset.state)
    (hcollateral : asset'.entityCollateral = asset.entityCollateral) :
    Custody w w' asset asset' :=
  .kept (Or.inl hstate) hcollateral

/-- A transition that leaves the collateral where it is. -/
theorem edge {s s' : AssetState} (hs : asset.state = s) (hs' : asset'.state = s')
    (h : s.Next s') (hholds : s'.holdsCollateral = s.holdsCollateral)
    (hcollateral : asset'.entityCollateral = asset.entityCollateral) :
    Custody w w' asset asset' := by
  subst hs hs'
  exact .kept (Or.inr ⟨h, hholds⟩) hcollateral

/-- The asset moves along the lifecycle or stays. -/
theorem next (h : Custody w w' asset asset') :
    asset'.state = asset.state ∨ asset.state.Next asset'.state := by
  cases h with
  | kept state => exact state.imp_right And.left
  | returned edge => exact Or.inr edge
  | seized before after => exact Or.inr (before ▸ after ▸ .seize)

/-- The collateral is untouched while the asset holds it, and gone after that. -/
theorem collateral (h : Custody w w' asset asset')
    (hgone : asset.state.holdsCollateral = false → asset.entityCollateral = 0) :
    asset'.entityCollateral =
      if asset'.state.holdsCollateral then asset.entityCollateral else 0 := by
  -- where the state keeps holding the collateral or keeps not holding it, nothing moves
  have hstays : asset'.state.holdsCollateral = asset.state.holdsCollateral →
      asset'.entityCollateral = asset.entityCollateral →
      asset'.entityCollateral =
        if asset'.state.holdsCollateral then asset.entityCollateral else 0 := by
    intro hsame hkept
    rw [hsame, hkept]
    split
    · rfl
    · next hno => exact hgone (Bool.not_eq_true _ ▸ hno)
  cases h with
  | kept state hkept =>
    rcases state with hsame | ⟨-, hsame⟩
    · exact hstays (congrArg _ hsame) hkept
    · exact hstays hsame hkept
  | returned _ state empty =>
    have hno : asset'.state.holdsCollateral = false := by
      rcases state with hst | hst | ⟨-, hst⟩ <;> rw [hst] <;> rfl
    rw [empty, hno, if_neg Bool.false_ne_true]
  | seized _ after empty => rw [empty, after, AssetState.holdsCollateral, if_neg Bool.false_ne_true]

end Custody

/-! ## Every call -/

namespace World

variable {w w' : World} {sender : Address}

theorem balance_credit_self (ws : Wallets) (a : Address) (v : ℕ) :
    (ws.credit a v).balance a = ws.balance a + v := by
  rw [Wallets.balance_credit, if_pos rfl]

/-- The payment of a close is the collateral. -/
theorem balance_closeTransfers (ws : Wallets) (asset : Asset) :
    (ws.pay asset.closeTransfers).balance asset.entity =
      ws.balance asset.entity + asset.entityCollateral := by
  unfold Asset.closeTransfers
  split
  · exact balance_credit_self ws asset.entity asset.entityCollateral
  · next hzero =>
    rw [show asset.entityCollateral = 0 by omega]
    rfl

/-- Funds that entered the compensation pool of the asset's accumulator. -/
theorem custody_seized (hl : w.Linked) {a g : ID} {asset : Asset} {acc : GlobalYieldAccumulator}
    {asset' : Asset} {funds unlockMs : ℕ} (hasset : w.assets.get? a = some asset)
    (hacc : w.accumulators.get? g = some acc) (linked : acc.assetId = asset.id)
    (before : asset.state = .executing) (after : asset'.state = .compensating)
    (empty : asset'.entityCollateral = 0) (hfunds : asset.entityCollateral + asset.escrow ≤ funds)
    (haccs : w'.accumulators = w.accumulators.put (acc.compensated funds unlockMs)) :
    Custody w w' asset asset' := by
  have hkey : (acc.compensated funds unlockMs).id = g := Store.key_of_get? hacc
  refine .seized before after empty ⟨g, acc, acc.compensated funds unlockMs,
    hl.accumulatorId hasset hacc linked, hacc, ?_, Nat.add_le_add_left hfunds _⟩
  rw [haccs, ← hkey]
  exact Store.get?_put_self _ (acc.compensated funds unlockMs)

/-- A close returns the collateral. -/
theorem close_custody {a : ID} {asset : Asset} {acc : GlobalYieldAccumulator}
    {reason : CloseReason} {events : List Event} (hw : Reachable w)
    (hasset : w.assets.get? a = some asset) (guards : CloseGuards asset acc reason) :
    Custody w (w.closing asset acc events) asset asset.closed := by
  have hreturned : asset.state = .operational →
      Custody w (w.closing asset acc events) asset asset.closed := by
    intro hstate
    refine .returned (hstate ▸ .close) (Or.inr (Or.inr ⟨hstate, rfl⟩)) rfl ?_
    exact balance_closeTransfers w.wallets asset
  cases guards with
  | returnTarget state => exact hreturned state
  | windDown state => exact hreturned state
  | compensation state =>
    have hgone := (hw.custodied hasset).gone (state ▸ rfl)
    exact .edge state rfl .settle rfl hgone.symm

/-- The asset module's calls move the collateral by the state. -/
theorem asset_custody (hw : Reachable w) {c : AssetCall} (h : AssetStep w sender c w') :
    w.assets.Keeps (Custody w w') w'.assets := by
  have hr := Custody.refl w w'
  have hf := hw.fresh
  have hl := hw.linked
  cases h with
  | createAsset _ created => exact .fresh hr _ (hf.unlisted created)
  | createTermAsset _ created => exact .fresh hr _ (hf.unlisted created)
  | cancelUnvouchedByEntity hasset own hcap belongs state =>
    refine .replace hr _ hasset rfl (.returned (state ▸ .cancel) (Or.inl rfl) rfl ?_)
    -- the cap cannot change hands, so the sender is the entity
    obtain rfl := hw.entity_of_cap own hcap hasset belongs
    exact balance_credit_self ..
  | cancelUnvouchedTimeout hasset state =>
    refine .replace hr _ hasset rfl (.returned (state ▸ .cancel) (Or.inl rfl) rfl ?_)
    exact balance_credit_self ..
  | vouchAssetLegals hasset _ _ _ guards =>
    exact .replace hr _ hasset rfl (.edge guards.state rfl .vouch rfl rfl)
  | contributeCapital hasset => exact .replace hr _ hasset rfl (.same rfl rfl)
  | finalizeSuccessfulRaise hasset _ _ _ guards =>
    exact .replace hr _ hasset rfl (.edge guards.state rfl .finalize rfl rfl)
  | abortFailedRaise hasset _ guards =>
    refine .replace hr _ hasset rfl
      (.returned (guards.state ▸ .abort) (Or.inr (Or.inl rfl)) rfl ?_)
    exact balance_credit_self ..
  | refundContribution hasset => exact .replace hr _ hasset rfl (.same rfl rfl)
  | claimShares => exact .refl hr _
  | submitMilestoneProof hasset => exact .replace hr _ hasset rfl (.same rfl rfl)
  | approveMilestone hasset => exact .replace hr _ hasset rfl (.same rfl rfl)
  | @releaseFundingTranche _ _ _ asset _ t _ hasset _ _ guards =>
    refine .replace hr _ hasset rfl ?_
    -- only the last tranche is an edge of the lifecycle
    by_cases hlast : asset.nextTranche + 1 = asset.tranches.length
    · exact .edge guards.state (if_pos hlast) .operate rfl rfl
    · exact .same (if_neg hlast) rfl
  | releaseVouchCoverage hasset => exact .replace hr _ hasset rfl (.same rfl rfl)
  | flagDefault hasset hacc guards =>
    exact .replace hr _ hasset rfl (custody_seized hl hasset hacc guards.linked guards.state rfl rfl
      (Nat.le_refl _) rfl)
  | depositRevenue => exact .refl hr _
  | closeAtReturnTarget hasset _ guards =>
    exact .replace hr _ hasset rfl (close_custody hw hasset guards)
  | closeAfterCompensation hasset _ guards =>
    exact .replace hr _ hasset rfl (close_custody hw hasset guards)
  | closeWindDown hasset _ _ _ _ _ guards =>
    exact .replace hr _ hasset rfl (close_custody hw hasset guards)

/-- Every call moves the collateral by the state. -/
theorem call_custody (hw : Reachable w) {c : Call} (h : w.call sender c = .ok w') :
    w.assets.Keeps (Custody w w') w'.assets := by
  have hr := Custody.refl w w'
  cases c with
  | protocol c =>
    obtain ⟨-, _, _, -, rfl⟩ := World.protocolCall_eq_ok.mp h
    exact .refl hr _
  | validator c => cases World.validatorCall_eq_ok.mp h <;> exact .refl hr _
  | asset c => exact asset_custody hw (World.assetCall_eq_ok.mp h)
  | accumulator c => cases World.accumulatorCall_eq_ok.mp h <;> exact .refl hr _
  | dispute c =>
    cases World.disputeCall_eq_ok.mp h with
    | initializeDispute hasset => exact .replace hr _ hasset rfl (.same rfl rfl)
    | @resolveDispute _ _ _ _ dispute pool asset acc v hdispute _ hasset hacc guards decides =>
      refine .replace hr _ hasset decides.keeps.assetId ?_
      cases decides with
      | expired => exact .same rfl rfl
      | rejected => exact .same rfl rfl
      | upheld =>
        have hlinked := hw.linked.disputed hdispute hacc guards
        -- the collateral is seized with the escrow, or the asset keeps running
        by_cases hstate : asset.state = .executing
        · have hup : asset.upheld = (clearCoverage asset).seized := if_pos hstate
          have hseizable : asset.seizable = asset.entityCollateral + asset.escrow := if_pos hstate
          exact custody_seized hw.linked hasset hacc hlinked hstate (congrArg _ hup)
            (congrArg _ hup) (hseizable ▸ Nat.le_add_left _ _) rfl
        · have hup : asset.upheld = setDisputed (clearCoverage asset) false := if_neg hstate
          refine .same ?_ ?_
          · exact show asset.upheld.state = asset.state from hup ▸ rfl
          · exact show asset.upheld.entityCollateral = asset.entityCollateral from hup ▸ rfl
    | _ => exact .refl hr _
  | framework c => cases World.frameworkCall_eq_ok.mp h <;> exact .refl hr _

end World

/-! ## Every run -/

/-- What a run did to an asset: it moved along the lifecycle, and the collateral is all
    there or has left. -/
structure Asset.MovedTo (asset asset' : Asset) : Prop where
  path : Relation.ReflTransGen AssetState.Next asset.state asset'.state
  collateral : asset'.entityCollateral =
    if asset'.state.holdsCollateral then asset.entityCollateral else 0

/-- An asset has moved to itself. -/
theorem Asset.MovedTo.refl {asset : Asset}
    (hgone : asset.state.holdsCollateral = false → asset.entityCollateral = 0) :
    asset.MovedTo asset where
  path := .refl
  collateral := by
    split
    · rfl
    · next hno => exact hgone (Bool.not_eq_true _ ▸ hno)

/-- What moved, moved further by one call. -/
theorem Asset.MovedTo.custody {w w' : World} {asset asset' asset'' : Asset}
    (h : asset.MovedTo asset')
    (hgone : asset'.state.holdsCollateral = false → asset'.entityCollateral = 0)
    (hc : Custody w w' asset' asset'') : asset.MovedTo asset'' where
  path := by
    rcases hc.next with heq | hnext
    · exact heq ▸ h.path
    · exact h.path.tail hnext
  collateral := by
    rw [hc.collateral hgone]
    split
    · next hholds =>
      -- what holds the collateral now has held it before
      have hbefore : asset'.state.holdsCollateral = true := by
        by_contra hno
        have hno : asset'.state.holdsCollateral = false := Bool.not_eq_true _ ▸ hno
        rcases hc.next with heq | hnext
        · rw [heq, hno] at hholds
          exact Bool.false_ne_true hholds
        · rw [hnext.holdsCollateral hno] at hholds
          exact Bool.false_ne_true hholds
      rw [h.collateral, if_pos hbefore]
    · rfl

/-- Along every run an asset has moved by the transitions, with its collateral. -/
theorem Reachable.movedTo {w w' : World} (hw : Reachable w) {actions : List Action}
    (h : w.run actions = .ok w') {a : ID} {asset : Asset} (hasset : w.assets.get? a = some asset) :
    ∃ asset', w'.assets.get? a = some asset' ∧ asset.MovedTo asset' := by
  refine Reachable.run_induct
    (P := fun u => ∃ asset', u.assets.get? a = some asset' ∧ asset.MovedTo asset')
    ?_ (fun _ hP _ => hP) hw ⟨asset, hasset, .refl (hw.custodied hasset).gone⟩ h
  intro u sender c u' hu ⟨asset', hasset', hmoved⟩ hcall
  obtain ⟨asset'', hasset'', hc⟩ := World.call_custody hu hcall a asset' hasset'
  exact ⟨asset'', hasset'', hmoved.custody (hu.custodied hasset').gone hc⟩

/-- Escrow and collateral follow the lifecycle: what every asset of a reachable state
    holds, how a call moves its collateral, how a run does, and how an asset begins. -/
theorem custody_follows_lifecycle :
    (∀ (w : World) (a : ID) (asset : Asset), Reachable w → w.assets.get? a = some asset →
      w.Custodied asset) ∧
    (∀ (w : World) (sender : Address) (c : Call) (w' : World), Reachable w →
      w.call sender c = .ok w' → w.assets.Keeps (Custody w w') w'.assets) ∧
    (∀ (w : World) (actions : List Action) (w' : World), Reachable w →
      w.run actions = .ok w' → w.assets.Keeps Asset.MovedTo w'.assets) ∧
    ∀ (w : World) (sender : Address) (c : Call) (w' : World) (a : ID) (asset' : Asset),
      w.call sender c = .ok w' → w.assets.get? a = none → w'.assets.get? a = some asset' →
      asset'.state = .pendingVouch := by
  refine ⟨fun w a asset hw hasset => hw.custodied hasset,
    fun w sender c w' hw h => World.call_custody hw h,
    fun w actions w' hw h a asset hasset => hw.movedTo h hasset, ?_⟩
  intro w sender c w' a asset' h hnone hasset'
  rcases World.call_assets h hasset' with hold | ⟨-, -, _, -, hlisted⟩
  · rw [hnone] at hold
    simp at hold
  · exact hlisted.state

/-- The project becomes operational with its last release. -/
theorem custody_follows_lifecycle_released : ∃ w w' asset,
    (World.genesis 0).run (Sample.approved 1000000 100000) = .ok w ∧
    w.call 2 (.asset (.releaseFundingTranche 4 5 0)) = .ok w' ∧
    w.assets.get? 4 = some asset ∧ asset.state = .executing ∧ w.Custodied asset ∧
    w.assets.Keeps (Custody w w') w'.assets := by
  have hrun : returns ((World.genesis 0).run (Sample.approved 1000000 100000)) (fun w =>
      returns (w.call 2 (.asset (.releaseFundingTranche 4 5 0))) (fun _ => true) &&
      (w.assets.get? 4).any fun asset => asset.state = .executing) = true := by
    decide +kernel
  obtain ⟨w, hw, hq⟩ := returns_iff.mp hrun
  rw [Bool.and_eq_true] at hq
  obtain ⟨w', hw', -⟩ := returns_iff.mp hq.1
  obtain ⟨asset, hasset, hstate⟩ := (Option.any_eq_true _ _).mp hq.2
  have hreach : Reachable w := ⟨0, _, hw⟩
  exact ⟨w, w', asset, hw, hw', hasset, of_decide_eq_true hstate,
    custody_follows_lifecycle.1 w 4 asset hreach hasset,
    custody_follows_lifecycle.2.1 w 2 _ w' hreach hw'⟩

end Gally

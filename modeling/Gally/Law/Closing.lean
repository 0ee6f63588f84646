import Gally.Chain.Coverage
import Gally.Chain.Path
import Gally.Chain.Titles
import Gally.Chain.Touch
import Gally.Law.Exits
import Gally.Law.Lifecycle

/-!
# How an OPERATIONAL asset ends

An OPERATIONAL asset leaves its state only by a close: at the return target of its term, or
by a wind-down. The wind-down takes the `AdminCap` and the `EntityCap` in one call, and a
transaction is signed by one address that can use its own capabilities only. Neither can be
transferred, so the wind-down is for assets whose entity is the admin.

## Key results

- `operational_closes`: when an OPERATIONAL asset can reach CLOSED
-/

namespace Gally

open Checked

/-! ## Closed and repaid -/

/-- The asset is CLOSED, and the deeds of its accumulator can be redeemed. -/
def World.Ended (w : World) (a : ID) : Prop := ∃ asset g acc, w.assets.get? a = some asset ∧
  asset.state = .closed ∧ asset.accumulatorId = some g ∧ w.accumulators.get? g = some acc ∧
  acc.closed = true ∧ w.ExitsOpen g acc

/-- The asset is OPERATIONAL, and its investors got the return target. -/
def World.Repaid (w : World) (a : ID) : Prop := ∃ asset g acc, w.assets.get? a = some asset ∧
  asset.state = .operational ∧ w.accumulators.get? g = some acc ∧ acc.assetId = a ∧
  asset.returnTarget ≤ acc.lifetimeInvestorRevenue

/-- Some run of transactions leads to a world with `P`. -/
def World.Can (w : World) (P : World → Prop) : Prop := ∃ actions w', w.run actions = .ok w' ∧ P w'

/-- A CLOSED asset has a closed accumulator, and its deeds can be redeemed. -/
theorem Reachable.ended {w : World} (hw : Reachable w) {a : ID} {asset : Asset}
    (hasset : w.assets.get? a = some asset) (hstate : asset.state = .closed) : w.Ended a := by
  obtain ⟨g, acc, hg, hacc, -⟩ := hw.accumulator_of_asset hasset (hstate ▸ rfl)
  have htied := (hw.sound hasset).tied _ (World.site_engine hg hacc)
  exact ⟨asset, g, acc, hasset, hstate, hg, hacc, htied.closed.mpr hstate, hw.exitsOpen hacc⟩

/-! ## The only ways out -/

/-- A call on an OPERATIONAL asset keeps who may end it, or ends it. -/
theorem Reachable.call_operational {w w' : World} (hw : Reachable w) {sender : Address} {c : Call}
    (h : w.call sender c = .ok w') {a : ID} {asset : Asset} (hasset : w.assets.get? a = some asset)
    (hstate : asset.state = .operational) :
    (∃ asset', w'.assets.get? a = some asset' ∧ asset'.state = .operational ∧
      asset'.entity = asset.entity ∧ asset'.isTermFinancing = asset.isTermFinancing) ∨
    asset.entity = w.admin ∨ asset.isTermFinancing = true ∧ w.Repaid a := by
  have hid : asset.id = a := Store.key_of_get? hasset
  -- the calls of the other states are out of the question
  have hother : ∀ {s : AssetState}, asset.state = s → s ≠ .operational → False := by
    intro s hs hne
    exact hne (hs.symm.trans hstate)
  obtain ⟨asset', hasset', htouch⟩ := World.call_touch hw.fresh h a asset hasset
  cases htouch with
  | closeAtReturnTarget hacc guards =>
    cases guards with
    | returnTarget state linked isTerm reached =>
      exact Or.inr (Or.inr ⟨isTerm, asset, _, _, hasset, hstate, hacc, linked.trans hid, reached⟩)
  | closeWindDown _ own hcap belongs admin =>
    -- both capabilities in one hand, and neither changes hands
    exact Or.inr (Or.inl ((hw.entity_of_cap own hcap hasset belongs).symm.trans admin.symm))
  | closeAfterCompensation _ guards =>
    cases guards with
    | compensation state => exact (hother state (by simp)).elim
  | cancelByEntity state => exact (hother state (by simp)).elim
  | cancelTimeout state => exact (hother state (by simp)).elim
  | vouch _ guards => exact (hother guards.state (by simp)).elim
  | contribute guards => exact (hother guards.state (by simp)).elim
  | finalize guards => exact (hother guards.state (by simp)).elim
  | abort _ guards => exact (hother guards.state (by simp)).elim
  | refund guards => exact (hother guards.state (by simp)).elim
  | prove _ _ guards => exact (hother guards.state (by simp)).elim
  | approve _ _ _ guards => exact (hother guards.state (by simp)).elim
  | release _ _ guards => exact (hother guards.state (by simp)).elim
  | default _ guards => exact (hother guards.state (by simp)).elim
  | verdict _ _ _ _ decides =>
    refine Or.inl ⟨_, hasset', ?_⟩
    cases decides with
    | expired => exact ⟨hstate, rfl, rfl⟩
    | rejected => exact ⟨hstate, rfl, rfl⟩
    | upheld =>
      -- an upheld verdict does not end an OPERATIONAL asset
      have hup : asset.upheld = setDisputed (clearCoverage asset) false :=
        if_neg (by simp [hstate])
      simp only [upheldVerdict, hup]
      exact ⟨hstate, rfl, rfl⟩
  | _ => exact Or.inl ⟨_, hasset', hstate, rfl, rfl⟩

/-- A run that ends the asset passes through a world in which somebody may do that. -/
theorem Reachable.ends_only {w : World} (hw : Reachable w) {a : ID} {asset : Asset}
    (hasset : w.assets.get? a = some asset) (hstate : asset.state = .operational)
    (hends : w.Can (World.Ended · a)) : asset.entity = w.admin ∨
      asset.isTermFinancing = true ∧ w.Can (World.Repaid · a) := by
  obtain ⟨actions, w', hrun, x, _, _, hx, hclosed, -⟩ := hends
  -- as long as nobody may, the asset is OPERATIONAL
  have hinv : w.Path .any w' ∧ w'.admin = w.admin ∧ ((∃ y, w'.assets.get? a = some y ∧
      y.state = .operational ∧ y.entity = asset.entity ∧
      y.isTermFinancing = asset.isTermFinancing) ∨
      asset.entity = w.admin ∨ asset.isTermFinancing = true ∧ w.Can (World.Repaid · a)) := by
    refine (World.Path.of_run hrun).preserves (P := fun u => w.Path .any u ∧ u.admin = w.admin ∧
      ((∃ y, u.assets.get? a = some y ∧ y.state = .operational ∧ y.entity = asset.entity ∧
        y.isTermFinancing = asset.isTermFinancing) ∨
      asset.entity = w.admin ∨ asset.isTermFinancing = true ∧ w.Can (World.Repaid · a))) hw
      ⟨.refl w, rfl, Or.inl ⟨asset, hasset, hstate, rfl, rfl⟩⟩ ?_ ?_
    · intro u sender c u' hu hP _ hcall
      obtain ⟨hpath, hadmin, hP⟩ := hP
      refine ⟨hpath.trans (.call trivial hcall), (hu.call_admin hcall).trans hadmin, ?_⟩
      rcases hP with ⟨y, hy, hys, hentity, hterm⟩ | hdone
      · rcases hu.call_operational hcall hy hys with
          ⟨y', hy', hys', hentity', hterm'⟩ | howner | ⟨hisTerm, hrepaid⟩
        · exact Or.inl ⟨y', hy', hys', hentity'.trans hentity, hterm'.trans hterm⟩
        · exact Or.inr (Or.inl (hentity.symm.trans (howner.trans hadmin)))
        · obtain ⟨prior, hprior⟩ := hpath.run
          exact Or.inr (Or.inr ⟨hterm.symm.trans hisTerm, prior, u, hprior, hrepaid⟩)
      · exact Or.inr hdone
    · intro u now _ hP hle
      exact ⟨hP.1.trans (.tick hle), hP.2⟩
  obtain ⟨-, -, hstill | hdone⟩ := hinv
  · obtain ⟨y, hy, hys, -⟩ := hstill
    rw [Option.some.inj (hx.symm.trans hy), hys] at hclosed
    simp at hclosed
  · exact hdone

/-! ## Who may, can -/

/-- The admin closes an asset of its own. -/
theorem Reachable.winds_down {w : World} (hw : Reachable w) {a : ID} {asset : Asset}
    (hasset : w.assets.get? a = some asset) (hstate : asset.state = .operational)
    (hadmin : asset.entity = w.admin) : w.Can (World.Ended · a) := by
  obtain ⟨g, acc, hg, hacc, hlinked⟩ := hw.accumulator_of_asset hasset (hstate ▸ rfl)
  obtain ⟨c, cap, hcap, hbelongs, hown⟩ := hw.entityCap hasset
  have hguards : CloseGuards asset acc .windDown := .windDown hstate hlinked
  have hcall := World.callAsset_eq_ok.mpr (.closeWindDown hasset hacc hadmin.symm hown hcap hbelongs
    hguards (closeWindDown_eq_ok.mpr ⟨hw.withinCaps.version, hbelongs, hguards, rfl⟩))
  have hasset' : (w.assets.put asset.closed).get? a = some asset.closed :=
    Store.get?_replace asset.closed hasset rfl
  exact ⟨_, _, World.run_call hcall (World.run_nil _), (hw.call hcall).ended hasset' rfl⟩

/-- Anybody closes a term that was repaid. -/
theorem Reachable.closes_term {w : World} (hw : Reachable w) {a : ID} {asset : Asset}
    (hasset : w.assets.get? a = some asset) (hterm : asset.isTermFinancing = true)
    (hrepaid : w.Repaid a) : w.Can (World.Ended · a) := by
  obtain ⟨x, g, acc, hx, hstate, hacc, ha, hreached⟩ := hrepaid
  obtain rfl := Option.some.inj (hx.symm.trans hasset)
  have hlinked : acc.assetId = x.id := ha.trans (Store.key_of_get? hasset).symm
  have hguards : CloseGuards x acc .returnTarget := .returnTarget hstate hlinked hterm hreached
  have hstep : AssetStep w 0 _ _ := .closeAtReturnTarget hasset hacc hguards
    (closeAtReturnTarget_eq_ok.mpr ⟨hw.withinCaps.version, hguards, rfl⟩)
  have hcall := World.callAsset_eq_ok.mpr hstep
  have hasset' : (w.assets.put x.closed).get? a = some x.closed :=
    Store.get?_replace x.closed hasset rfl
  exact ⟨_, _, World.run_call hcall (World.run_nil _), (hw.call hcall).ended hasset' rfl⟩

/-! ## Repaying a term -/

/-- The split of the revenue is at most all of it. -/
theorem Reachable.split_le {w : World} (hw : Reachable w) {a : ID} {asset : Asset}
    (hasset : w.assets.get? a = some asset) : asset.revenueSplitBps ≤ bpsDenominator := by
  refine hw.site_induct (P := fun s => s.asset.revenueSplitBps ≤ bpsDenominator)
    (fun _ hlisted => hlisted.split) ?_ hasset
  intro s s' hs hstep
  cases hstep with
  | uphold =>
    simp only [Asset.upheld]
    split <;> exact hs
  | _ => exact hs

/-- One deposit of `payment` brings the asset to its return target, and that much USDC can
    be had: it can still be issued, or somebody holds it. The pause is not asked about. -/
structure World.RepaidBy (w : World) (asset : Asset) (acc : GlobalYieldAccumulator)
    (payment : U64) : Prop where
  positive : 0 < payment.val
  available : payment.val < maxU64 - w.usdcSupply ∨ ∃ a, payment.val ≤ w.wallets.balance a
  lifetime : acc.lifetimeInvestorRevenue + asset.investorPortion w.config payment.val ≤ maxU64
  reaches : asset.returnTarget ≤
    acc.lifetimeInvestorRevenue + asset.investorPortion w.config payment.val
  room : acc.SweepRoom

/-- Nothing stands in the way of depositing the repayment. -/
theorem Reachable.deposited {w : World} (hw : Reachable w) {g : ID} {acc : GlobalYieldAccumulator}
    (hacc : w.accumulators.get? g = some acc) {asset : Asset} {sender : Address} {payment : U64}
    (h : w.RepaidBy asset acc payment) (hpaid : payment.val ≤ w.wallets.balance sender)
    (hle : asset.investorPortion w.config payment.val ≤ payment.val) :
    ∃ acc', Deposited acc (asset.investorPortion w.config payment.val) acc' := by
  -- the payment is part of the supply, like what the pools hold
  have hfunds := hw.accFunds_balance_le hacc sender
  unfold GlobalYieldAccumulator.funds at hfunds
  have hsupply : acc.totalWrappedShares ≤ acc.totalMintedShares :=
    (hw.replay hacc).sound.1.supply
  by_cases hzero : acc.unwrapped = 0
  · exact ⟨_, h.lifetime, hsupply, Or.inl ⟨hzero, by
      simp only [GlobalYieldAccumulator.counted]
      omega, rfl⟩⟩
  · -- the index stays below its ceiling
    obtain ⟨owner, howner, hg, -⟩ := hw.tied hacc
    have hceiling := (hw.bounded howner).potential _ (World.site_engine hg hacc)
    have hsame : (w.engine acc).acc = acc := rfl
    rw [hsame] at hceiling
    simp only [GlobalYieldAccumulator.potential, Nat.mul_add] at hceiling
    have hincrement := acc.increment_le (asset.investorPortion w.config payment.val)
    have hscaled := Nat.mul_le_mul_left scale h.lifetime
    have hbound := scale_mul_maxU64_le
    rw [Nat.mul_left_comm scale 4 maxU64] at hbound
    rw [Nat.mul_left_comm scale 3 maxU64] at hceiling
    rw [Nat.mul_add] at hscaled
    refine ⟨_, h.lifetime, hsupply, Or.inr ⟨hzero, {
      supply := hsupply
      product := by omega
      unwrapped := hzero
      index := by
        simp only [GlobalYieldAccumulator.increment, GlobalYieldAccumulator.counted,
          GlobalYieldAccumulator.unwrapped] at hincrement ⊢
        omega
      dust := h.room.resolve_left hzero
      pool := by
        simp only [GlobalYieldAccumulator.counted]
        omega }, rfl⟩⟩

/-- With the pause off, who holds the payment repays with one deposit. -/
theorem Reachable.repays {w : World} (hw : Reachable w) {a g : ID} {asset : Asset}
    (hasset : w.assets.get? a = some asset) (hstate : asset.state = .operational)
    {acc : GlobalYieldAccumulator} (hacc : w.accumulators.get? g = some acc)
    (hlinked : acc.assetId = asset.id) {sender : Address} {payment : U64}
    (hunpaused : w.config.paused = false) (hfunds : payment.val ≤ w.wallets.balance sender)
    (h : w.RepaidBy asset acc payment) : w.Can (World.Repaid · a) := by
  -- fee and portion are fractions of the payment, so no subtraction aborts
  have hfee : w.config.fee payment.val ≤ payment.val := by
    refine mulBps_le (Nat.le_trans hw.withinCaps.fee ?_)
    decide
  have hportion : asset.investorPortion w.config payment.val ≤
      payment.val - w.config.fee payment.val := mulBps_le (hw.split_le hasset)
  have hle := Nat.le_trans hportion (Nat.sub_le _ _)
  have hguards : DepositGuards asset acc w.config payment.val := {
    version := hw.withinCaps.version
    unpaused := hunpaused
    state := hstate
    linked := hlinked
    positive := h.positive
    feeFits := Nat.le_trans hfee (U64.val_le payment)
    fee := hfee
    portionFits := Nat.le_trans hle (U64.val_le payment)
    portion := hportion }
  obtain ⟨acc', hdeposited⟩ := hw.deposited hacc h hfunds hle
  have hcall := World.callAsset_eq_ok.mpr (.depositRevenue hasset hacc hfunds hguards hdeposited
    (depositRevenue_eq_ok.mpr ⟨hguards, acc', hdeposited, rfl⟩))
  have hframe := hdeposited.routed.frame
  have hlifetime : acc'.lifetimeInvestorRevenue =
      acc.lifetimeInvestorRevenue + asset.investorPortion w.config payment.val := by
    rcases hdeposited.routed with ⟨-, -, rfl⟩ | ⟨-, -, rfl⟩ <;> rfl
  have ha : acc'.assetId = a := hframe.assetId.trans (hlinked.trans (Store.key_of_get? hasset))
  exact ⟨_, _, World.run_call hcall (World.run_nil _), asset, g, acc', hasset, hstate,
    Store.get?_replace acc' hacc hframe.id, ha, hlifetime ▸ h.reaches⟩

/-- What can be reached after a call can be reached. -/
theorem World.Can.of_call {w w' : World} {P : World → Prop} {sender : Address} {c : Call}
    (h : w.call sender c = .ok w') (hcan : w'.Can P) : w.Can P := by
  obtain ⟨actions, u, hrun, hu⟩ := hcan
  exact ⟨_, u, World.run_call h hrun, hu⟩

/-- The admin lifts the pause. -/
theorem Reachable.resumes {w : World} (hw : Reachable w) :
    w.call w.admin (.protocol .adminResume) = .ok { w with
      config := { w.config with paused := false }
      events := w.events ++ [.protocolResumed w.config.id] } := by
  refine World.protocolCall_eq_ok.mpr ⟨rfl, _, _, ?_, rfl⟩
  simp only [ProtocolCall.run, adminResume, seq_eq_ok, assertVersion_eq_ok, return_eq_ok]
  exact ⟨(), hw.withinCaps.version, trivial⟩

/-- The admin and a holder of the payment repay. -/
theorem Reachable.repays_resumed {w : World} (hw : Reachable w) {a g : ID} {asset : Asset}
    (hasset : w.assets.get? a = some asset) (hstate : asset.state = .operational)
    {acc : GlobalYieldAccumulator} (hacc : w.accumulators.get? g = some acc)
    (hlinked : acc.assetId = asset.id) {sender : Address} {payment : U64}
    (hfunds : payment.val ≤ w.wallets.balance sender) (h : w.RepaidBy asset acc payment) :
    w.Can (World.Repaid · a) :=
  .of_call hw.resumes ((hw.call hw.resumes).repays hasset hstate hacc hlinked rfl hfunds { h with })

/-- The admin, the issuer of USDC and a depositor repay. -/
theorem Reachable.repayable {w : World} (hw : Reachable w) {a g : ID} {asset : Asset}
    (hasset : w.assets.get? a = some asset) (hstate : asset.state = .operational)
    {acc : GlobalYieldAccumulator} (hacc : w.accumulators.get? g = some acc)
    (hlinked : acc.assetId = asset.id) {payment : U64} (h : w.RepaidBy asset acc payment) :
    w.Can (World.Repaid · a) := by
  rcases h.available with hsupply | ⟨sender, hfunds⟩
  · -- the dollars are issued to the one who deposits them
    have hmint := World.callFramework_eq_ok.mpr
      (.mintUsdc hsupply : FrameworkStep w 0 (.mintUsdc 0 payment) _)
    have hfunds : payment.val ≤ Wallets.balance (w.wallets.credit 0 payment.val) 0 := by
      rw [Wallets.balance_credit, if_pos rfl]
      omega
    exact .of_call hmint ((hw.call hmint).repays_resumed hasset hstate hacc hlinked hfunds
      { h with available := Or.inr ⟨0, hfunds⟩ })
  · exact hw.repays_resumed hasset hstate hacc hlinked hfunds h

/-! ## Who can close -/

/-- Whether an asset has a term is settled when it is listed. -/
theorem Site.Step.isTermFinancing {s s' : Site} (h : Site.Step s s') :
    s'.asset.isTermFinancing = s.asset.isTermFinancing := by
  cases h with
  | uphold =>
    simp only [Asset.upheld]
    split <;> rfl
  | _ => rfl

/-- Along any path an asset keeps its kind of financing. -/
theorem World.Path.isTermFinancing {Q : CallRule} {w w' : World} (hw : Reachable w)
    (h : w.Path Q w') {a : ID} {asset : Asset} (hasset : w.assets.get? a = some asset) :
    ∃ asset', w'.assets.get? a = some asset' ∧
      asset'.isTermFinancing = asset.isTermFinancing := by
  refine h.preserves (P := fun u => ∃ x, u.assets.get? a = some x ∧
    x.isTermFinancing = asset.isTermFinancing) hw ⟨asset, hasset, rfl⟩ ?_ fun _ hP _ => hP
  intro u sender c u' hu hP _ hcall
  obtain ⟨x, hx, hterm⟩ := hP
  obtain ⟨x', hx', hstep⟩ := World.call_sites hu hcall a x hx
  refine ⟨x', hx', ?_⟩
  rcases hstep with heq | hstep
  · rw [show x' = x from congrArg Site.asset heq, hterm]
  · exact hstep.isTermFinancing.trans hterm

/-- An OPERATIONAL asset can reach CLOSED, with its deeds redeemable, exactly if its entity is
    the admin, or it has a term and its investors can still get the return target. One
    deposit of enough is enough for that. -/
theorem operational_closes {w : World} (hw : Reachable w) {a : ID} {asset : Asset}
    (hasset : w.assets.get? a = some asset) (hstate : asset.state = .operational) :
    (w.Can (World.Ended · a) ↔ asset.entity = w.admin ∨
      asset.isTermFinancing = true ∧ w.Can (World.Repaid · a)) ∧
    ∀ g acc, asset.accumulatorId = some g → w.accumulators.get? g = some acc →
      ∀ payment, w.RepaidBy asset acc payment → w.Can (World.Repaid · a) := by
  refine ⟨⟨hw.ends_only hasset hstate, ?_⟩, ?_⟩
  · rintro (hadmin | ⟨hterm, actions, u, hrun, hrepaid⟩)
    · exact hw.winds_down hasset hstate hadmin
    · obtain ⟨x, hx, hsame⟩ := (World.Path.of_run hrun).isTermFinancing hw hasset
      obtain ⟨more, u', hmore, hended⟩ :=
        (hw.run hrun).closes_term hx (hsame.trans hterm) hrepaid
      exact ⟨_, u', Run.exec_append_eq_ok.mpr ⟨u, hrun, hmore⟩, hended⟩
  · intro g acc hg hacc payment h
    obtain ⟨x, hx, ha⟩ := hw.linked.acc hasset hg
    obtain rfl := Option.some.inj (hx.symm.trans hacc)
    exact hw.repayable hasset hstate hacc (ha.trans (Store.key_of_get? hasset).symm) h

/-- The package is published by the entity itself. -/
theorem operational_closes_own : ∃ w asset,
    (World.genesis 2).run (Sample.operational 1000000 100000) = .ok w ∧
    w.assets.get? 4 = some asset ∧ asset.state = .operational ∧ w.Can (World.Ended · 4) := by
  have hrun : returns ((World.genesis 2).run (Sample.operational 1000000 100000)) (fun w =>
      (w.assets.get? 4).any fun asset => asset.state = .operational ∧
        asset.entity = w.owner .soulbound w.adminCap.id) = true := by
    decide +kernel
  obtain ⟨w, hw, hq⟩ := returns_iff.mp hrun
  obtain ⟨asset, hasset, hq⟩ := (Option.any_eq_true _ _).mp hq
  obtain ⟨hstate, hadmin⟩ := of_decide_eq_true hq
  exact ⟨w, asset, hw, hasset, hstate,
    (operational_closes ⟨2, _, hw⟩ hasset hstate).1.mpr (Or.inl hadmin)⟩

/-- An open-ended asset of an entity that is not the admin is OPERATIONAL for good. -/
theorem open_ended_never_closes : ∃ w asset,
    (World.genesis 0).run (Sample.operational 1000000 100000) = .ok w ∧
    w.assets.get? 4 = some asset ∧ asset.state = .operational ∧ asset.entity = 2 ∧ w.admin = 0 ∧
    ¬ ∃ actions w' asset', w.run actions = .ok w' ∧ w'.assets.get? 4 = some asset' ∧
      asset'.state = .closed := by
  have hrun : returns ((World.genesis 0).run (Sample.operational 1000000 100000)) (fun w =>
      w.owner .soulbound w.adminCap.id = 0 &&
      (w.assets.get? 4).any fun asset => asset.state = .operational ∧ asset.entity = 2 ∧
        asset.isTermFinancing = false) = true := by
    decide +kernel
  obtain ⟨w, hw, hq⟩ := returns_iff.mp hrun
  rw [Bool.and_eq_true, decide_eq_true_eq] at hq
  obtain ⟨hadmin, hany⟩ := hq
  obtain ⟨asset, hasset, hq⟩ := (Option.any_eq_true _ _).mp hany
  obtain ⟨hstate, hentity, hterm⟩ := of_decide_eq_true hq
  have hreach : Reachable w := ⟨0, _, hw⟩
  refine ⟨w, asset, hw, hasset, hstate, hentity, hadmin, ?_⟩
  intro ⟨actions, w', asset', hactions, hasset', hclosed⟩
  have hended := (hreach.run hactions).ended hasset' hclosed
  -- the two soulbound capabilities belong to different addresses, and the asset has no term
  rcases hreach.ends_only hasset hstate ⟨actions, w', hactions, hended⟩ with howner | ⟨hisTerm, -⟩
  · rw [hentity, World.admin, hadmin] at howner
    simp at howner
  · simp [hterm] at hisTerm

end Gally

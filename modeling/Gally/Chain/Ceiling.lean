import Gally.Chain.Custody
import Gally.Chain.Treasury

/-!
# The index has a ceiling

An index advance adds at most the scaled funds to the index, and funds are distributed
once. What an accumulator has distributed or parked is therefore bounded by its lifetime
revenue and by the three amounts an asset can lose to it, each of which fits in a `u64`:
escrow, collateral and coverage (`Site.Bounded`).

## Key results

- `Site.Bounded.step`, `Reachable.bounded`
- `Reachable.advance`: distributing what is parked never overflows
-/

namespace Gally

open Checked

/-- What the asset can still lose to its compensation pool. -/
def Asset.forfeit (asset : Asset) : ℕ :=
  asset.escrow + asset.entityCollateral + asset.coverageLocked

/-- The bounds a site keeps. -/
structure Site.Bounded (s : Site) : Prop where
  collateral : s.asset.entityCollateral ≤ maxU64
  coverage : s.asset.coverageLocked ≤ maxU64
  lifetime : ∀ e, s.engine = some e → e.acc.lifetimeInvestorRevenue ≤ maxU64
  potential : ∀ e, s.engine = some e → e.acc.potential + scale * s.asset.forfeit ≤
    scale * (e.acc.lifetimeInvestorRevenue + 3 * maxU64)

namespace Site.Bounded

variable {s s' : Site} {e : Engine}

/-- Replacing the asset of a site that has no engine. -/
theorem of_raising (hs : s.Sound) (hst : s.asset.state.isFinalized = false)
    (hengine : s'.engine = s.engine) (hcollateral : s'.asset.entityCollateral ≤ maxU64)
    (hcoverage : s'.asset.coverageLocked ≤ maxU64) : s'.Bounded where
  collateral := hcollateral
  coverage := hcoverage
  lifetime e he := by simp [hengine, hs.no_engine hst] at he
  potential e he := by simp [hengine, hs.no_engine hst] at he

/-- Replacing the asset of a site by one that has no more to lose. -/
theorem of_asset (hb : s.Bounded) {asset' : Asset}
    (hcollateral : asset'.entityCollateral ≤ s.asset.entityCollateral)
    (hcoverage : asset'.coverageLocked ≤ s.asset.coverageLocked)
    (hescrow : asset'.escrow ≤ s.asset.escrow) : Bounded { s with asset := asset' } where
  collateral := Nat.le_trans hcollateral hb.collateral
  coverage := Nat.le_trans hcoverage hb.coverage
  lifetime := hb.lifetime
  potential e he := by
    -- less collateral and escrow means less to forfeit
    have hle : asset'.forfeit ≤ s.asset.forfeit := by
      unfold Asset.forfeit
      omega
    have hscaled := Nat.mul_le_mul_left scale hle
    have hold := hb.potential e he
    simp only
    omega

/-- Moving what the asset loses into the compensation pool. -/
theorem compensate (hb : s.Bounded) (he : s.engine = some e) {asset' : Asset} {funds unlockMs : ℕ}
    (hcollateral : asset'.entityCollateral ≤ s.asset.entityCollateral)
    (hcoverage : asset'.coverageLocked ≤ s.asset.coverageLocked)
    (hfunds : asset'.forfeit + funds ≤ s.asset.forfeit) :
    Bounded { s with
      asset := asset'
      engine := some { e with acc := e.acc.compensated funds unlockMs } } where
  collateral := Nat.le_trans hcollateral hb.collateral
  coverage := Nat.le_trans hcoverage hb.coverage
  lifetime := by
    intro e' heq
    obtain rfl := Option.some.inj heq
    exact hb.lifetime e he
  potential := by
    intro e' heq
    obtain rfl := Option.some.inj heq
    -- the funds move from what could be forfeited to what is in the pools
    have hscaled := Nat.mul_le_mul_left scale hfunds
    have hold := hb.potential e he
    simp only [GlobalYieldAccumulator.potential, GlobalYieldAccumulator.compensated,
      Nat.mul_add] at hscaled hold ⊢
    omega

/-- At the finalization nothing is distributed yet. -/
theorem finalize (hb : s.Bounded) (hs : s.Sound) {config : ProtocolConfig} {cap : TreasuryCap}
    {metadata : CoinMetadata} {now : ℕ} {accId : ID}
    (guards : FinalizeGuards s.asset config cap metadata now)
    (acc : e.acc = s.asset.newAccumulator cap accId) :
    Bounded { s with asset := s.asset.finalized accId, engine := some e } where
  collateral := hb.collateral
  coverage := hb.coverage
  lifetime := by
    intro e' heq
    obtain rfl := Option.some.inj heq
    rw [acc]
    exact Nat.zero_le _
  potential := by
    intro e' heq
    obtain rfl := Option.some.inj heq
    have hstage := hs.stage
    simp only [Stage, guards.state] at hstage
    -- escrow, collateral and coverage fit in a `u64` each
    have hescrow : s.asset.escrow ≤ maxU64 := by
      rw [hstage.1, guards.met]
      exact hs.scheduled.goalFits
    have hcollateral := hb.collateral
    have hcoverage := hb.coverage
    have hle : (s.asset.finalized accId).forfeit ≤ 3 * maxU64 := by
      simp only [Asset.forfeit, Asset.finalized]
      omega
    have hscaled := Nat.mul_le_mul_left scale hle
    rw [acc]
    simp only [GlobalYieldAccumulator.potential, Asset.newAccumulator, Nat.add_zero, Nat.mul_zero,
      Nat.zero_add]
    exact hscaled

/-- An upheld dispute keeps the bounds. -/
theorem uphold (hb : s.Bounded) (he : s.engine = some e) {dispute : Dispute}
    {pool : ValidatorPool} {config : ProtocolConfig} {now unlockMs : ℕ}
    (guards : UpholdGuards dispute pool s.asset e.acc config now) :
    Bounded { s with
      asset := s.asset.upheld
      engine := some { e with
        acc := e.acc.compensated
          (s.asset.coverageLocked - config.bounty s.asset.coverageLocked + s.asset.seizable)
          unlockMs } } := by
  have hbounty := guards.bounty
  -- what is forfeited beyond the coverage depends on the state
  by_cases state : s.asset.state = .executing
  · have hup : s.asset.upheld = (clearCoverage s.asset).seized := if_pos state
    have hseize : s.asset.seizable = s.asset.entityCollateral + s.asset.escrow := if_pos state
    rw [hup, hseize]
    refine hb.compensate he (Nat.zero_le _) (Nat.zero_le _) ?_
    simp only [Asset.forfeit, Asset.seized, clearCoverage]
    omega
  · have hup : s.asset.upheld = setDisputed (clearCoverage s.asset) false := if_neg state
    have hseize : s.asset.seizable = 0 := if_neg state
    rw [hup, hseize]
    refine hb.compensate he (Nat.le_refl _) (Nat.zero_le _) ?_
    simp only [Asset.forfeit, setDisputed, clearCoverage]
    omega

/-- Every step of a sound site keeps the bounds. -/
theorem step (hb : s.Bounded) (hs : s.Sound) (h : Site.Step s s') : s'.Bounded := by
  cases h with
  | cancel state => exact of_raising hs (state ▸ rfl) rfl (Nat.zero_le _) hb.coverage
  | vouch guards => exact of_raising hs (guards.state ▸ rfl) rfl hb.collateral guards.fits
  | contribute guards => exact of_raising hs (guards.state ▸ rfl) rfl hb.collateral hb.coverage
  | finalize guards acc => exact hb.finalize hs guards acc
  | abort guards => exact of_raising hs (guards.state ▸ rfl) rfl (Nat.zero_le _) (Nat.zero_le _)
  | refund _ guards => exact of_raising hs (guards.state ▸ rfl) rfl hb.collateral hb.coverage
  | prove => exact hb.of_asset (Nat.le_refl _) (Nat.le_refl _) (Nat.le_refl _)
  | approve => exact hb.of_asset (Nat.le_refl _) (Nat.le_refl _) (Nat.le_refl _)
  | release => exact hb.of_asset (Nat.le_refl _) (Nat.le_refl _) (Nat.sub_le _ _)
  | uncover => exact hb.of_asset (Nat.le_refl _) (Nat.zero_le _) (Nat.le_refl _)
  | challenge => exact hb.of_asset (Nat.le_refl _) (Nat.le_refl _) (Nat.le_refl _)
  | acquit => exact hb.of_asset (Nat.le_refl _) (Nat.le_refl _) (Nat.le_refl _)
  | uphold he guards => exact hb.uphold he guards
  | default he =>
    refine hb.compensate he (Nat.zero_le _) (Nat.le_refl _) ?_
    simp only [Asset.forfeit, Asset.seized]
    omega
  | @close e _ he =>
    have hparked : Bounded { s with asset := s.asset.closed } :=
      hb.of_asset (Nat.zero_le _) (Nat.le_refl _) (Nat.le_refl _)
    exact { hparked with
      lifetime := by
        intro e' heq
        obtain rfl := Option.some.inj heq
        exact hb.lifetime e he
      potential := by
        intro e' heq
        obtain rfl := Option.some.inj heq
        exact hparked.potential e he }
  | @exchange e e' _ _ he hop run =>
    have hex := Engine.apply_exchanged hop run
    exact { hb with
      lifetime := by
        intro e'' heq
        obtain rfl := Option.some.inj heq
        exact hex.fits (hb.lifetime e he)
      potential := by
        intro e'' heq
        obtain rfl := Option.some.inj heq
        have hold := hb.potential e he
        -- the potential rises by what enters the lifetime counter at most
        have hraise := hex.potential
        simp only [Nat.mul_add] at hold ⊢
        omega }

end Site.Bounded

/-- A fresh asset is within the bounds. -/
theorem Site.Bounded.listed {asset : Asset} {collateral : ℕ} (hfits : collateral ≤ maxU64)
    (h : asset.Listed collateral) : Site.Bounded ⟨asset, ∅, none⟩ where
  collateral := h.collateral ▸ hfits
  coverage := h.coverage ▸ Nat.zero_le _
  lifetime := by simp
  potential := by simp

/-- Every asset of a reachable world is within the bounds. -/
theorem Reachable.bounded {w : World} (hw : Reachable w) {a : ID} {asset : Asset}
    (hasset : w.assets.get? a = some asset) : (w.site asset).Bounded :=
  (hw.site_induct (P := fun s => s.Sound ∧ s.Bounded)
    (fun hfits h => ⟨.listed h, .listed hfits h⟩)
    (fun h hs => ⟨h.1.step hs, h.2.step h.1 hs⟩) hasset).2

/-- Distributing what an accumulator has parked never overflows, except in the counter of
    the dust bound. -/
theorem Reachable.advance {w : World} (hw : Reachable w) {g : ID} {acc : GlobalYieldAccumulator}
    (hacc : w.accumulators.get? g = some acc) {funds : ℕ}
    (hfunds : funds ≤ acc.rolloverReserve + acc.compensationPool) :
    scale * funds ≤ maxU128 ∧ acc.cumulativeYieldIndex + scale * funds ≤ maxU128 ∧
      acc.rewardPool + funds ≤ maxU64 := by
  obtain ⟨asset, hasset, hg, -, -⟩ := hw.tied hacc
  have hb := hw.bounded hasset
  have hengine := World.site_engine hg hacc
  have hlifetime := hb.lifetime _ hengine
  -- index, reserve and parked funds stay under a quarter of what a `u128` counts
  have hpotential := hb.potential _ hengine
  have hpools := hw.accFunds_le hacc
  have hbound := scale_mul_maxU64_le
  have hscaled := Nat.mul_le_mul_left scale hfunds
  have hceiling : scale * (acc.lifetimeInvestorRevenue + 3 * maxU64) ≤ scale * (4 * maxU64) := by
    refine Nat.mul_le_mul_left scale ?_
    have : (w.engine acc).acc.lifetimeInvestorRevenue = acc.lifetimeInvestorRevenue := rfl
    omega
  have hsame : (w.engine acc).acc = acc := rfl
  rw [hsame] at hpotential
  simp only [GlobalYieldAccumulator.potential] at hpotential
  simp only [GlobalYieldAccumulator.funds] at hpools
  omega

end Gally

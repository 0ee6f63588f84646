import Gally.Engine.Moves
import Gally.Chain.Site

/-!
# What exchanges leave alone

The operations that holders, depositors and sweepers run on an engine keep its
identity and its closed flag. `GlobalYieldAccumulator.potential` counts the index
together with the funds that can still enter it, scaled; an exchange raises it only
by new revenue, so the index stays bounded by what was ever paid in.
-/

namespace Gally

open Checked

/-- The index, and what the parked funds could still add to it. -/
def GlobalYieldAccumulator.potential (acc : GlobalYieldAccumulator) : ℕ :=
  acc.cumulativeYieldIndex + scale * (acc.rolloverReserve + acc.compensationPool)

/-- The increment of an advance is at most the scaled funds. -/
theorem GlobalYieldAccumulator.increment_le (acc : GlobalYieldAccumulator) (funds : ℕ) :
    acc.increment funds ≤ scale * funds :=
  Nat.div_le_self _ _

/-- An advance raises the potential by at most the scaled funds. -/
theorem GlobalYieldAccumulator.potential_afterAdvance (acc : GlobalYieldAccumulator) (funds : ℕ) :
    (acc.afterAdvance funds).potential ≤ acc.potential + scale * funds := by
  have := acc.increment_le funds
  simp only [potential, afterAdvance]
  omega

/-- Taking the reserve out and advancing by it. -/
theorem GlobalYieldAccumulator.potential_swept (acc : GlobalYieldAccumulator) :
    (acc.drained.afterAdvance acc.rolloverReserve).potential ≤ acc.potential := by
  have hinc := acc.drained.increment_le acc.rolloverReserve
  simp only [potential, afterAdvance, drained, Nat.mul_add, Nat.mul_zero] at hinc ⊢
  omega

/-- What the exchanges keep, and how far they can raise the potential. -/
structure GlobalYieldAccumulator.Exchanged (acc acc' : GlobalYieldAccumulator) : Prop where
  id : acc'.id = acc.id
  assetId : acc'.assetId = acc.assetId
  closed : acc'.closed = acc.closed
  token : acc'.treasuryCap.token = acc.treasuryCap.token
  lifetime : acc.lifetimeInvestorRevenue ≤ acc'.lifetimeInvestorRevenue
  fits : acc.lifetimeInvestorRevenue ≤ maxU64 → acc'.lifetimeInvestorRevenue ≤ maxU64
  potential : acc'.potential + scale * acc.lifetimeInvestorRevenue ≤
    acc.potential + scale * acc'.lifetimeInvestorRevenue

namespace GlobalYieldAccumulator.Exchanged

variable {acc acc' acc'' : GlobalYieldAccumulator}

theorem refl (acc : GlobalYieldAccumulator) : acc.Exchanged acc :=
  ⟨rfl, rfl, rfl, rfl, Nat.le_refl _, fun h => h, Nat.le_refl _⟩

/-- Two exchanges make one. -/
theorem trans (h : acc.Exchanged acc') (h' : acc'.Exchanged acc'') : acc.Exchanged acc'' where
  id := h'.id.trans h.id
  assetId := h'.assetId.trans h.assetId
  closed := h'.closed.trans h.closed
  token := h'.token.trans h.token
  lifetime := Nat.le_trans h.lifetime h'.lifetime
  fits := fun hl => h'.fits (h.fits hl)
  potential := by
    -- the funds that can still reach the index are counted on both sides
    have := h.potential
    have := h'.potential
    omega

/-- An update that keeps the revenue counter and does not raise the potential. -/
theorem of_le (hid : acc'.id = acc.id) (ha : acc'.assetId = acc.assetId)
    (hc : acc'.closed = acc.closed) (ht : acc'.treasuryCap.token = acc.treasuryCap.token)
    (hl : acc'.lifetimeInvestorRevenue = acc.lifetimeInvestorRevenue)
    (hp : acc'.potential ≤ acc.potential) : acc.Exchanged acc' :=
  ⟨hid, ha, hc, ht, Nat.le_of_eq hl.symm, fun h => hl ▸ h, hl ▸ Nat.add_le_add_right hp _⟩

/-- A sweep of the reserve is an exchange. -/
theorem swept (acc : GlobalYieldAccumulator) :
    acc.Exchanged (acc.drained.afterAdvance acc.rolloverReserve) :=
  of_le rfl rfl rfl rfl rfl acc.potential_swept

/-- So is the sweep after an unwrap. -/
theorem autoSwept {events : List Event} (h : AutoSwept acc acc' events) : acc.Exchanged acc' := by
  rcases h with ⟨-, h⟩ | ⟨-, rfl, -⟩
  · obtain ⟨-, rfl, -⟩ := sweepRolloverInternal_eq_ok.mp h
    exact swept acc
  · exact refl acc'

/-- Routing funds raises the potential by at most these funds. -/
theorem potential_routed {funds : ℕ} (h : Routed acc funds acc') :
    acc'.potential ≤ acc.potential + scale * funds := by
  rcases h with ⟨-, -, rfl⟩ | ⟨-, -, rfl⟩
  · simp only [GlobalYieldAccumulator.potential, Nat.mul_add]
    omega
  · exact acc.potential_afterAdvance funds

/-- Routing leaves the closed flag and the lifetime revenue alone. -/
theorem routed {funds : ℕ} (h : Routed acc funds acc') :
    acc'.closed = acc.closed ∧ acc'.lifetimeInvestorRevenue = acc.lifetimeInvestorRevenue := by
  rcases h with ⟨-, -, rfl⟩ | ⟨-, -, rfl⟩ <;> exact ⟨rfl, rfl⟩

/-- A deposit of revenue is an exchange. -/
theorem revenue {funds index : ℕ} (h : addRevenue acc funds = .ok (acc', index)) :
    acc.Exchanged acc' := by
  obtain ⟨hfits, -, hr, -⟩ := addRevenue_eq_ok.mp h
  obtain ⟨hclosed, hlife⟩ := routed hr
  have hpot := potential_routed hr
  simp only [GlobalYieldAccumulator.potential] at hpot
  refine ⟨hr.frame.id, hr.frame.assetId, hclosed, congrArg TreasuryCap.token hr.frame.cap, ?_,
    fun _ => hlife ▸ hfits, ?_⟩
  -- the revenue counts for the lifetime, and for the potential at most its scaled amount
  · rw [hlife]
    exact Nat.le_add_right _ _
  · simp only [hlife, GlobalYieldAccumulator.potential, Nat.mul_add] at hpot ⊢
    omega

/-- A sweep of compensation is an exchange. -/
theorem compensation {now : ℕ} {events : List Event}
    (h : sweepCompensation acc now = .ok (acc', events)) : acc.Exchanged acc' := by
  obtain ⟨-, -, -, ⟨r, hr, rfl⟩, -⟩ := sweepCompensation_eq_ok.mp h
  obtain ⟨hclosed, hlife⟩ := routed hr
  have hpot := potential_routed hr
  refine of_le hr.frame.id hr.frame.assetId hclosed (congrArg TreasuryCap.token hr.frame.cap)
    hlife ?_
  -- the funds only move from one term of the potential to another
  simp only [GlobalYieldAccumulator.potential, Nat.mul_add, Nat.mul_zero] at hpot ⊢
  omega

end GlobalYieldAccumulator.Exchanged

namespace Engine

variable {e e' : Engine} {payouts : List Payout}

/-- Every exchange keeps the identity of the engine and bounds its potential. -/
theorem apply_exchanged {op : EngineOp} (hop : op.isExchange = true)
    (h : e.apply op = .ok (e', payouts)) : e.acc.Exchanged e'.acc := by
  -- a claim, a wrap or a redemption moves units and money, never the potential
  have hsame : ∀ {acc : GlobalYieldAccumulator}, acc.id = e.acc.id →
      acc.assetId = e.acc.assetId → acc.closed = e.acc.closed →
      acc.treasuryCap.token = e.acc.treasuryCap.token →
      acc.lifetimeInvestorRevenue = e.acc.lifetimeInvestorRevenue →
      acc.potential = e.acc.potential → e.acc.Exchanged acc :=
    fun hid ha hc ht hl hp => .of_le hid ha hc ht hl (Nat.le_of_eq hp)
  cases Engine.apply_eq_ok.mp h with
  | claimShares => exact .refl _
  | addRevenue deposited =>
    exact .revenue (addRevenue_eq_ok.mpr
      ⟨deposited.lifetime, deposited.supply, deposited.routed, rfl⟩)
  | addToCompensationPool => cases hop
  | markClosed => cases hop
  | claimRewards => exact hsame rfl rfl rfl rfl rfl rfl
  | splitShare => exact .refl _
  | mergeShares => exact hsame rfl rfl rfl rfl rfl rfl
  | wrapShares => exact hsame rfl rfl rfl rfl rfl rfl
  | @unwrapCoins _ _ _ _ coin _ _ _ _ _ sweep =>
    -- the coin is burned first, then the reserve may be swept
    have hburn : e.acc.Exchanged (e.acc.afterBurn coin.value) := hsame rfl rfl rfl rfl rfl rfl
    exact hburn.trans (.autoSwept sweep)
  | redeemShare => exact hsame rfl rfl rfl rfl rfl rfl
  | sweepRollover => exact .swept _
  | sweepCompensation due positive supply route =>
    exact .compensation (sweepCompensation_eq_ok.mpr
      ⟨due, positive, supply, ⟨_, route, rfl⟩, rfl⟩)
  | adminSweepDust =>
    refine .of_le rfl rfl rfl rfl rfl ?_
    -- the dust leaves pools that count for the potential
    simp only [GlobalYieldAccumulator.potential, GlobalYieldAccumulator.afterDust, Nat.mul_add]
    omega
  | zeroCoin => exact .refl _
  | destroyZero => exact .refl _
  | splitCoin => exact .refl _
  | joinCoins => exact .refl _

end Engine

end Gally

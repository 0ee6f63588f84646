import Gally.Engine.Solvency

/-!
# The other side of solvency

What the reward pool holds beyond the entitlements is dust, which the floors leave and
`dustBound` counts, and the yield of units that were in the denominator of an advance
without a deed that could earn it. Such units are in unconverted receipts.

## Key results

- `Slack.moves`: the bound after a sequence of moves, with the yield forgone in it
-/

namespace Gally

open Checked

namespace Engine

/-- Beyond the entitlements and the dust the pool holds at most `forgone`, scaled. -/
def Slack (e : Engine) (forgone : ℕ) : Prop :=
  scale * e.acc.rewardPool ≤ e.owed + scale * e.acc.dustBound + forgone

/-- The scaled yield that unconverted receipts forgo when `e` becomes `e'`. -/
def forgoes (e e' : Engine) : ℕ :=
  (e'.acc.cumulativeYieldIndex - e.acc.cumulativeYieldIndex) * e.receiptUnits

variable {e e' : Engine} {h : List Record} {forgone : ℕ}

/-- A larger forgone amount leaves the slack. -/
theorem Slack.mono (hs : e.Slack forgone) {more : ℕ} (hle : forgone ≤ more) : e.Slack more :=
  Nat.le_trans hs (Nat.add_le_add_left hle _)

/-- A claim pays all but less than one unit of the entitlement, and that one is counted. -/
theorem entitlement_le_paid (acc : GlobalYieldAccumulator) (share : GallyShare) :
    acc.entitlement share ≤ scale * acc.payout share + scale * acc.claimDust share := by
  unfold GlobalYieldAccumulator.claimDust
  -- the floor of the payout loses less than one scaled unit, which the claim counts as dust
  split
  · have hrest := Nat.lt_mul_div_succ (acc.entitlement share) scale_pos
    rw [Nat.mul_one]
    rw [Nat.mul_add, Nat.mul_one] at hrest
    exact Nat.le_of_lt hrest
  · next hsettled =>
    have hzero : acc.entitlement share = 0 :=
      LazyIndex.accrued_eq_zero _ _ (Nat.le_of_not_lt hsettled)
    rw [hzero]
    exact Nat.zero_le _

/-- The dust counted for an advance covers what its floor holds back. -/
theorem scale_mul_le_advance (acc : GlobalYieldAccumulator) {funds : ℕ} (hu : acc.unwrapped ≠ 0) :
    scale * funds ≤ acc.increment funds * acc.unwrapped + scale * (acc.unwrapped / scale + 1) := by
  have hfloor := @LazyIndex.scale_mul_lt_increment scale funds _ (Nat.pos_of_ne_zero hu)
  have hdust := Nat.lt_mul_div_succ acc.unwrapped scale_pos
  rw [increment_eq]
  omega

/-- Every move keeps the bound, up to what receipts forgo in it. -/
theorem Slack.move (hb : e.Balanced) (hs : e.Slack forgone) (m : Move e h e') :
    e'.Slack (forgone + e.forgoes e') := by
  unfold Slack at hs ⊢
  cases hb.accrual m with
  | same owed pool dust =>
    rw [owed, pool, dust]
    omega
  | @payment share owed acc =>
    have hpaid := entitlement_le_paid e.acc share
    simp only [acc, GlobalYieldAccumulator.afterClaim, Nat.mul_sub, Nat.mul_add]
    omega
  | @advance funds unwrapped acc owed =>
    have hadvance := @scale_mul_le_advance e.acc funds unwrapped
    -- the denominator counts deeds and receipts
    have hunits : e.acc.unwrapped = e.deedUnits + e.receiptUnits := by
      have := hb.units
      simp only [GlobalYieldAccumulator.unwrapped]
      omega
    have hforgoes : e.forgoes e' = e.acc.increment funds * e.receiptUnits := by
      simp only [forgoes, acc, GlobalYieldAccumulator.afterAdvance, Nat.add_sub_cancel_left]
    have hpool : e'.acc.rewardPool = e.acc.rewardPool + funds := by rw [acc]; rfl
    have hdust : e'.acc.dustBound = e.acc.dustBound + (e.acc.unwrapped / scale + 1) := by
      rw [acc]; rfl
    rw [owed, hforgoes, hpool, hdust, Nat.mul_add, Nat.mul_add]
    rw [hunits, Nat.mul_add, ← hunits] at hadvance
    omega
  | sweep owed acc =>
    rw [acc]
    exact Nat.zero_le _

/-- Receipts are never made, and the index never falls. -/
theorem Balanced.move_mono (hb : e.Balanced) (m : Move e h e') :
    e'.receiptUnits ≤ e.receiptUnits ∧
      e.acc.cumulativeYieldIndex ≤ e'.acc.cumulativeYieldIndex := by
  constructor
  -- only the conversion of a receipt changes the receipts, and only downwards
  · cases m with
    | convert mem =>
      have hdel := Store.sum_delete_of_get? mem ContributionReceipt.amount
      simp only [receiptUnits]
      omega
    | _ => exact Nat.le_refl _
  · cases hb.accrual m with
    | same _ _ _ index => exact Nat.le_of_eq index.symm
    | payment _ acc => exact acc ▸ Nat.le_refl _
    | advance _ acc => exact acc ▸ Nat.le_add_right _ _
    | sweep _ acc => exact acc ▸ Nat.le_refl _

/-- What is forgone on the way is at most what the first receipts forgo over the whole way. -/
theorem forgoes_trans {e₁ e₂ e₃ : Engine}
    (h₁₂ : e₁.acc.cumulativeYieldIndex ≤ e₂.acc.cumulativeYieldIndex)
    (h₂₃ : e₂.acc.cumulativeYieldIndex ≤ e₃.acc.cumulativeYieldIndex)
    (hreceipts : e₂.receiptUnits ≤ e₁.receiptUnits) :
    e₁.forgoes e₂ + e₂.forgoes e₃ ≤ e₁.forgoes e₃ := by
  -- the receipts at the start of the second part are fewer than at the start of the first
  calc e₁.forgoes e₂ + e₂.forgoes e₃
    _ ≤ e₁.forgoes e₂ + (e₃.acc.cumulativeYieldIndex - e₂.acc.cumulativeYieldIndex) *
        e₁.receiptUnits := Nat.add_le_add_left (Nat.mul_le_mul_left _ hreceipts) _
    _ = (e₂.acc.cumulativeYieldIndex - e₁.acc.cumulativeYieldIndex +
        (e₃.acc.cumulativeYieldIndex - e₂.acc.cumulativeYieldIndex)) * e₁.receiptUnits :=
      (Nat.add_mul ..).symm
    _ = e₁.forgoes e₃ := by
      have hsum : e₂.acc.cumulativeYieldIndex - e₁.acc.cumulativeYieldIndex +
          (e₃.acc.cumulativeYieldIndex - e₂.acc.cumulativeYieldIndex) =
          e₃.acc.cumulativeYieldIndex - e₁.acc.cumulativeYieldIndex := by omega
      rw [hsum, forgoes]

/-- A sequence of moves keeps the bound. -/
theorem Slack.moves (hb : e.Balanced) (hs : e.Slack forgone) (ms : Moves e h e') :
    e'.Slack (forgone + e.forgoes e') := by
  suffices hall : e'.Balanced ∧ e'.receiptUnits ≤ e.receiptUnits ∧
      e.acc.cumulativeYieldIndex ≤ e'.acc.cumulativeYieldIndex ∧
      e'.Slack (forgone + e.forgoes e') from hall.2.2.2
  -- the bound needs the balance and both monotone quantities, so they run along
  induction ms with
  | refl => exact ⟨hb, Nat.le_refl _, Nat.le_refl _, hs.mono (Nat.le_add_right _ _)⟩
  | @tail e₂ e₃ _ _ _ last ih =>
    obtain ⟨hb₂, hreceipts, hindex, hslack⟩ := ih
    obtain ⟨hreceipts', hindex'⟩ := hb₂.move_mono last
    refine ⟨hb₂.move last, Nat.le_trans hreceipts' hreceipts, Nat.le_trans hindex hindex', ?_⟩
    refine (hslack.move hb₂ last).mono ?_
    have htrans := forgoes_trans hindex hindex' hreceipts
    omega

end Engine

end Gally

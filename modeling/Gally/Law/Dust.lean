import Gally.Chain.Titles
import Gally.Law.Books
import Gally.Law.Claimants

/-!
# The terminal dust sweep

When the last unit of a closed accumulator is redeemed, what is left in its pools is for the
admin, if it is within the dust bound. The bound counts what floors leave. It does not count
the yield forgone by receipts that were converted after an advance, nor restitution that was
swept into the reserve when no unit was left; either blocks the sweep for good.

## Key results

- `terminal_dust`: the sweep succeeds, on runs where neither happened
-/

namespace Gally

open Checked

/-! ## Runs that leave only dust -/

/-- Accumulator `g` gets revenue and compensation only when all receipts are converted, and
    compensation only while a unit is minted. -/
def CallRule.converted (g : ID) : CallRule := fun w _ c => ∀ acc, w.accumulators.get? g = some acc →
  ((∃ a payment, c = .asset (.depositRevenue a g payment)) → (w.engine acc).receiptUnits = 0) ∧
  (c = .accumulator (.sweepCompensation g) →
    (w.engine acc).receiptUnits = 0 ∧ 0 < acc.totalMintedShares)

/-- Unconverted receipts are among the units that earn. -/
theorem Reachable.receiptUnits_le {w : World} (hw : Reachable w) {g : ID}
    {acc : GlobalYieldAccumulator} (hacc : w.accumulators.get? g = some acc) :
    (w.engine acc).receiptUnits ≤ acc.unwrapped := by
  have hunits := (hw.replay hacc).sound.1.units
  have hsame : (w.engine acc).acc = acc := rfl
  rw [hsame] at hunits
  simp only [GlobalYieldAccumulator.unwrapped]
  omega

/-- Under the rule no receipt forgoes anything. -/
theorem Reachable.forgoes_nothing {w : World} (hw : Reachable w) {sender : Address} {c : Call}
    {g : ID} (hrule : CallRule.converted g w sender c) {acc acc' : GlobalYieldAccumulator}
    (hacc : w.accumulators.get? g = some acc) (hp : acc.Parked) (h : acc.Touch w sender c acc') :
    acc'.cumulativeYieldIndex = acc.cumulativeYieldIndex ∨ (w.engine acc).receiptUnits = 0 := by
  have hid : acc.id = g := Store.key_of_get? hacc
  have hreceipts := hw.receiptUnits_le hacc
  subst hid
  cases h with
  | @unwrap _ coin _ _ _ _ _ sweep =>
    rcases sweep with ⟨⟨hreserve, -⟩, -⟩ | ⟨-, rfl, -⟩
    · -- what was parked, was parked when nothing earned
      have hzero := (hp hreserve).1
      exact Or.inr (by omega)
    · exact Or.inl rfl
  | sweepRollover positive guards => exact absurd (hp positive).1 guards.unwrapped
  | sweepCompensation => exact Or.inr ((hrule acc hacc).2 rfl).1
  | deposit => exact Or.inr ((hrule acc hacc).1 ⟨_, _, rfl⟩)
  | _ => exact Or.inl rfl

/-- On such runs nothing is forgone, and what is parked has a claimant. -/
theorem World.Path.dusty {admin : Address} {g : ID} {w : World}
    (h : (World.genesis admin).Path (.converted g) w) :
    (∃ b, w.Bookkept g b ∧ b.forgone = 0) ∧
      ∀ acc, w.accumulators.get? g = some acc → acc.Parked := by
  refine h.preserves (P := fun u => (∃ b, u.Bookkept g b ∧ b.forgone = 0) ∧
    ∀ acc, u.accumulators.get? g = some acc → acc.Parked) ⟨admin, [], World.run_nil _⟩ ?_ ?_ ?_
  · exact ⟨⟨_, .genesis admin, rfl⟩, fun acc hacc => by simp [World.genesis] at hacc⟩
  · intro u sender c u' hu hP hrule hcall
    obtain ⟨⟨b, hb, hforgone⟩, hparked⟩ := hP
    refine ⟨⟨_, hb.call hcall, ?_⟩, fun acc' hacc' => ?_⟩
    · rw [Book.add, hforgone, Nat.zero_add]
      -- the book of an accumulator that does not exist stays blank
      cases hacc : u.accumulators.get? g with
      | none =>
        simp only [World.posts, hacc]
        rfl
      | some acc =>
        obtain ⟨acc', hacc', htouch⟩ := World.call_touchAcc hu.fresh hcall g acc hacc
        simp only [World.posts, hacc, hacc', Engine.forgoes]
        rcases hu.forgoes_nothing hrule hacc (hparked acc hacc) htouch with hindex | hzero
        · rw [show (u'.engine acc').acc = acc' from rfl, show (u.engine acc).acc = acc from rfl,
            hindex, Nat.sub_self, Nat.zero_mul]
        · rw [hzero, Nat.mul_zero]
    · rcases World.call_accumulators hu.fresh hcall hacc' with
        ⟨acc, hacc, htouch⟩ | ⟨_, _, _, -, -, rfl⟩
      · exact hu.parks hacc htouch (fun hc => ((hrule acc hacc).2 hc).2) (hparked acc hacc)
      · exact fun hreserve => absurd hreserve (Nat.lt_irrefl 0)
  · intro u now _ hP hle
    obtain ⟨⟨b, hb, hforgone⟩, hparked⟩ := hP
    exact ⟨⟨b, hb.tick hle, hforgone⟩, hparked⟩

/-! ## The sweep -/

/-- On runs that give the accumulator revenue and compensation only when its receipts are
    converted, and compensation only while it has a unit, the terminal sweep takes what is left:
    nothing is owed to deeds, and the residue is within the dust bound. -/
theorem terminal_dust {admin : Address} {g : ID} {w : World}
    (h : (World.genesis admin).Path (.converted g) w) {acc : GlobalYieldAccumulator}
    (hacc : w.accumulators.get? g = some acc) (hclosed : acc.closed = true)
    (hminted : acc.totalMintedShares = 0) (hwrapped : acc.totalWrappedShares = 0) :
    (w.engine acc).owed = 0 ∧ acc.rewardPool + acc.rolloverReserve ≤ acc.dustBound ∧
      Succeeds (w.call w.admin (.accumulator (.adminSweepDust g))) := by
  have hw : Reachable w := h.reachable ⟨admin, [], World.run_nil _⟩
  obtain ⟨⟨b, hb, hforgone⟩, hparked⟩ := h.dusty
  have hslack := (hb.balances acc hacc).slack
  -- no unit is left, so none is owed anything and none waits for the reserve
  have hunits := (hw.replay hacc).sound.1.units
  have hsame : (w.engine acc).acc = acc := rfl
  rw [hsame, hminted, hwrapped] at hunits
  have howed : (w.engine acc).owed = 0 := Engine.owed_eq_zero (by omega)
  have hreserve : acc.rolloverReserve = 0 := by
    refine Nat.eq_zero_of_not_pos fun hpos => ?_
    have hone := (hparked acc hacc hpos).2
    omega
  -- the slack bounds the pool by the dust alone
  rw [Engine.Slack, howed, hforgone, Nat.zero_add, Nat.add_zero] at hslack
  have hpool : acc.rewardPool ≤ acc.dustBound := Nat.le_of_mul_le_mul_left hslack scale_pos
  have hresidue : acc.rewardPool + acc.rolloverReserve ≤ acc.dustBound := by omega
  have hfunds := hw.accFunds_le hacc
  unfold GlobalYieldAccumulator.funds at hfunds
  have hguards : DustGuards acc w.config := {
    version := hw.withinCaps.version
    closed := hclosed
    minted := hminted
    wrapped := hwrapped
    fits := by
      unfold GlobalYieldAccumulator.residue
      omega
    bound := hresidue }
  have hstep : AccumulatorStep w w.admin _ _ := .adminSweepDust rfl hacc hguards
    (adminSweepDust_eq_ok.mpr ⟨hguards, rfl⟩)
  exact ⟨howed, hresidue, _, World.callAccumulator_eq_ok.mpr hstep⟩

/-- A call that gives no accumulator revenue or compensation. -/
def Call.feedsNothing : Call → Bool
  | .asset (.depositRevenue ..) | .accumulator (.sweepCompensation _) => false
  | _ => true

/-- A run that feeds nothing obeys the rule. -/
theorem World.Path.of_run_unfed {g : ID} {w u : World} {actions : List Action}
    (hall : actions.all (Action.all Call.feedsNothing) = true) (h : w.run actions = .ok u) :
    w.Path (.converted g) u := by
  refine .of_run_all (fun c hc v sender acc _ => ?_) hall h
  constructor
  · rintro ⟨_, _, rfl⟩
    simp [Call.feedsNothing] at hc
  · rintro rfl
    simp [Call.feedsNothing] at hc

namespace Sample

/-- The only investor of the term asset converts its receipt into deed 9. -/
def conversion : List Action := [.transaction 3 [.asset (.claimShares 4 8 6)]]

/-- It closes the repaid asset and exits. -/
def exit : List Action :=
  [.transaction 3 [.asset (.closeAtReturnTarget 4 8), .accumulator (.redeemShare 8 9)]]

end Sample

/-- The revenue comes after the conversion. -/
theorem terminal_dust_term : ∃ w, Reachable w ∧ w.accumulators.get? 8 ≠ none ∧
    Succeeds (w.call w.admin (.accumulator (.adminSweepDust 8))) := by
  have hrun : returns ((World.genesis 0).run (Sample.term ++ Sample.conversion)) (fun w₀ =>
      returns (w₀.call 2 Sample.repayment) fun w₁ => returns (w₁.run Sample.exit) fun w =>
        (w₀.accumulators.get? 8).any (fun acc => (w₀.engine acc).receiptUnits = 0) &&
        (w.accumulators.get? 8).any fun acc => acc.closed = true ∧ acc.totalMintedShares = 0 ∧
          acc.totalWrappedShares = 0) = true := by
    decide +kernel
  obtain ⟨w₀, h₀, hq⟩ := returns_iff.mp hrun
  obtain ⟨w₁, h₁, hq⟩ := returns_iff.mp hq
  obtain ⟨w, hexit, hq⟩ := returns_iff.mp hq
  simp only [Bool.and_eq_true, Option.any_eq_true, decide_eq_true_eq] at hq
  obtain ⟨⟨acc₀, hacc₀, hconverted⟩, acc, hacc, hclosed, hminted, hwrapped⟩ := hq
  have hrule : CallRule.converted 8 w₀ 2 Sample.repayment := by
    intro x hx
    obtain rfl := Option.some.inj (hx.symm.trans hacc₀)
    exact ⟨fun _ => hconverted, fun hc => by simp [Sample.repayment] at hc⟩
  have hpath : (World.genesis 0).Path (.converted 8) w :=
    ((World.Path.of_run_unfed (by decide) h₀).trans (.call hrule h₁)).trans
      (.of_run_unfed (by decide) hexit)
  have hreach : Reachable w := hpath.reachable ⟨0, [], World.run_nil _⟩
  exact ⟨w, hreach, by simp [hacc], (terminal_dust hpath hacc hclosed hminted hwrapped).2.2⟩

/-- The revenue comes before the conversion: all of it stays in the pool, and no sweep takes
    it. -/
theorem late_conversion_blocks_sweep : ∃ w acc, (World.genesis 0).run
      (Sample.term ++ [.transaction 2 [Sample.repayment]] ++ Sample.conversion ++ Sample.exit) =
      .ok w ∧ w.accumulators.get? 8 = some acc ∧
    acc.closed = true ∧ acc.totalMintedShares = 0 ∧ acc.totalWrappedShares = 0 ∧
    acc.compensationPool = 0 ∧ acc.rewardPool + acc.rolloverReserve = 1485000 ∧
    acc.dustBound = 1 ∧
    ∀ sender, ¬ Succeeds (w.call sender (.accumulator (.adminSweepDust 8))) := by
  have hrun : returns ((World.genesis 0).run
      (Sample.term ++ [.transaction 2 [Sample.repayment]] ++ Sample.conversion ++ Sample.exit))
      (fun w => (w.accumulators.get? 8).any fun acc => acc.closed = true ∧
        acc.totalMintedShares = 0 ∧ acc.totalWrappedShares = 0 ∧ acc.compensationPool = 0 ∧
        acc.rewardPool + acc.rolloverReserve = 1485000 ∧ acc.dustBound = 1) = true := by
    decide +kernel
  obtain ⟨w, hw, hq⟩ := returns_iff.mp hrun
  obtain ⟨acc, hacc, hq⟩ := (Option.any_eq_true _ _).mp hq
  obtain ⟨hclosed, hminted, hwrapped, hpool, hresidue, hdust⟩ := of_decide_eq_true hq
  refine ⟨w, acc, hw, hacc, hclosed, hminted, hwrapped, hpool, hresidue, hdust, fun sender => ?_⟩
  intro ⟨w', h⟩
  cases World.callAccumulator_eq_ok.mp h with
  | adminSweepDust _ hx guards =>
    obtain rfl := Option.some.inj (hx.symm.trans hacc)
    have hbound := guards.bound
    unfold GlobalYieldAccumulator.residue at hbound
    omega

end Gally

import Gally.Explorer.Live
import Gally.Explorer.Ptb

/-!
# The keeper view of the explorer (`lib/mock/cranks.ts`)

Which of the permissionless calls are offered for an asset, an accumulator or a dispute. Texts
that are only displayed are left out.
-/

namespace Gally.Explorer

/-- `Date.parse("2026-06-14T12:00:00Z")` -/
def fixedNow : ℤ := 1781438400000

structure CrankOp where
  crank : CrankKind
  /-- the subject -/
  targetId : String
  /-- The precondition is met. -/
  eligible : Bool
  /-- when a call that waits for a time unlocks -/
  availableAtMs : Option ℤ
  deriving DecidableEq, Repr

/-- Minted deeds that are not wrapped. -/
def unwrappedSupply (a : Asset) : ℚ :=
  a.accumulator.elim 0 fun acc => max 0 (acc.totalMintedShares - acc.totalWrappedShares)

/-- `flag_default` while EXECUTING, `abort_failed_raise` while FUNDING. -/
def cranksForAsset (a : Asset) : List CrankOp :=
  let flag := if a.state = .executing then
      (a.tranches.find? fun t => !t.released).toList.map fun t =>
        { crank := .flagDefault, targetId := a.id
          eligible := t.deadlineMs < fixedNow ∧ ¬ t.approvedBy.any (· ≠ "")
          availableAtMs := some t.deadlineMs }
    else []
  let abort := if a.state = .funding then
      [{ crank := .abortFailedRaise, targetId := a.id
         eligible := a.fundingDeadlineMs < fixedNow ∧ a.raised < a.fundingGoal
         availableAtMs := some a.fundingDeadlineMs }]
    else []
  flag ++ abort

/-- `sweep_rollover` and `sweep_compensation`. -/
def cranksForAccumulator (a : Asset) : List CrankOp :=
  a.accumulator.elim [] fun acc =>
    let rollover := if 0 < acc.rolloverReserve then
        [{ crank := .sweepRollover, targetId := acc.id
           eligible := 0 < unwrappedSupply a
           availableAtMs := none }]
      else []
    let compensation := if 0 < acc.compensationPool then
        acc.compensationUnlockMs.toList.map fun unlock =>
          { crank := .sweepCompensation, targetId := acc.id
            eligible := unlock ≤ fixedNow
            availableAtMs := some unlock }
      else []
    rollover ++ compensation

/-- `resolve_dispute` -/
def cranksForDispute (d : Dispute) : List CrankOp :=
  if d.status = .opened then
    [{ crank := .resolveDispute, targetId := d.id
       eligible := d.votingDeadlineMs ≤ fixedNow
       availableAtMs := some d.votingDeadlineMs }]
  else []

/-- The call is offered as one that can be made. -/
def Offers (ops : List CrankOp) (crank : CrankKind) : Prop :=
  ∃ op ∈ ops, op.crank = crank ∧ op.eligible = true

end Gally.Explorer

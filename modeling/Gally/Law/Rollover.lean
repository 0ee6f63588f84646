import Gally.Chain.Touch
import Gally.Law.Exits

/-!
# Parked revenue

An inflow that finds no unwrapped unit is parked in the rollover reserve. The reserve is empty
whenever some unit is unwrapped, so what comes in later is either parked behind it or finds it
empty, and the unwrap that ends the wait distributes all of it.

## Key results

- `Reachable.idle`: revenue is parked only while nothing is unwrapped
- `rollover_first`: nothing overtakes parked revenue, and the first unwrap gets it
-/

namespace Gally

open Checked

/-! ## The reserve and the unwrapped supply -/

/-- Revenue is parked only while nothing is unwrapped. -/
def GlobalYieldAccumulator.Idle (acc : GlobalYieldAccumulator) : Prop :=
  0 < acc.rolloverReserve → acc.unwrapped = 0

/-- Routed revenue goes to the reserve only when nothing is unwrapped. -/
theorem Routed.idle {acc acc' : GlobalYieldAccumulator} {funds : ℕ} (h : Routed acc funds acc')
    (hi : acc.Idle) : acc'.Idle := by
  rcases h with ⟨hzero, -, rfl⟩ | ⟨-, -, rfl⟩
  · exact fun _ => hzero
  · exact hi

/-- An unwrap leaves nothing in the reserve that it could sweep. -/
theorem AutoSwept.idle {acc acc' : GlobalYieldAccumulator} {events : List Event}
    (h : AutoSwept acc acc' events) : acc'.Idle := by
  intro hreserve
  rcases h with ⟨-, h⟩ | ⟨hno, rfl, -⟩
  · obtain ⟨-, rfl, -⟩ := sweepRolloverInternal_eq_ok.mp h
    exact absurd hreserve (Nat.lt_irrefl 0)
  · exact Nat.eq_zero_of_not_pos fun hpos => hno ⟨hreserve, hpos⟩

/-- No call leaves a reserve beside unwrapped units. -/
theorem GlobalYieldAccumulator.Touch.idle {w : World} {sender : Address} {c : Call}
    {acc acc' : GlobalYieldAccumulator} (h : acc.Touch w sender c acc') (hi : acc.Idle) :
    acc'.Idle := by
  cases h with
  -- wrapping and redeeming take units out of the unwrapped supply
  | wrap =>
    intro hreserve
    have hzero := hi hreserve
    simp only [GlobalYieldAccumulator.unwrapped, GlobalYieldAccumulator.afterWrap,
      GlobalYieldAccumulator.afterClaim] at hzero ⊢
    omega
  | redeem =>
    intro hreserve
    have hzero := hi hreserve
    simp only [GlobalYieldAccumulator.unwrapped, GlobalYieldAccumulator.afterRedeem,
      GlobalYieldAccumulator.afterClaim] at hzero ⊢
    omega
  | unwrap _ _ _ sweep => exact sweep.idle
  | sweepRollover => exact fun hreserve => absurd hreserve (Nat.lt_irrefl 0)
  | sweepDust => exact fun hreserve => absurd hreserve (Nat.lt_irrefl 0)
  | sweepCompensation _ _ route =>
    have hrouted := route.idle hi
    exact hrouted
  | deposit _ _ deposited => exact deposited.routed.idle hi
  | _ => exact hi

/-- In every reachable world a reserve implies that nothing is unwrapped. -/
theorem Reachable.idle {w : World} (hw : Reachable w) {g : ID} {acc : GlobalYieldAccumulator}
    (hacc : w.accumulators.get? g = some acc) : acc.Idle := by
  refine hw.induct (P := fun w => ∀ g acc, w.accumulators.get? g = some acc → acc.Idle) ?_ ?_
    (fun _ hP _ => hP) g acc hacc
  · intro _ g acc hacc
    simp [World.genesis] at hacc
  · intro w sender c w' hw hP hcall g acc' hacc'
    rcases World.call_accumulators hw.fresh hcall hacc' with
      ⟨acc, hacc, htouch⟩ | ⟨_, _, _, -, -, rfl⟩
    · exact htouch.idle (hP g acc hacc)
    · exact fun hreserve => absurd hreserve (Nat.lt_irrefl 0)

/-! ## Behind parked revenue -/

/-- An inflow is parked, and nothing of it is distributed. -/
structure GlobalYieldAccumulator.Parks (acc : GlobalYieldAccumulator) (funds : ℕ)
    (acc' : GlobalYieldAccumulator) : Prop where
  index : acc'.cumulativeYieldIndex = acc.cumulativeYieldIndex
  pool : acc'.rewardPool = acc.rewardPool
  reserve : acc'.rolloverReserve = acc.rolloverReserve + funds

/-- Revenue that is routed while nothing is unwrapped is parked in the reserve. -/
theorem Routed.parks_idle {acc acc' : GlobalYieldAccumulator} {funds : ℕ}
    (h : Routed acc funds acc') (hzero : acc.unwrapped = 0) : acc.Parks funds acc' := by
  rcases h with ⟨-, -, rfl⟩ | ⟨hno, -, -⟩
  · exact ⟨rfl, rfl, rfl⟩
  · exact absurd hzero hno

/-- The unwrap distributes the whole reserve to `fresh`: it holds all units that earn, the reward
    pool takes the reserve, and the index grows by what the units of `fresh` get of it, down to
    less than one scaled unit each. -/
structure GlobalYieldAccumulator.Distributes (acc : GlobalYieldAccumulator) (fresh : GallyShare)
    (acc' : GlobalYieldAccumulator) : Prop where
  reserve : acc'.rolloverReserve = 0
  pool : acc'.rewardPool = acc.rewardPool + acc.rolloverReserve
  unwrapped : acc'.unwrapped = fresh.shareCount
  snapshot : fresh.yieldClaimedIndex = acc.cumulativeYieldIndex
  atMost : acc'.entitlement fresh ≤ scale * acc.rolloverReserve
  atLeast : scale * acc.rolloverReserve < acc'.entitlement fresh + fresh.shareCount

/-- An unwrap of `amount` units out of a fully wrapped state. -/
theorem AutoSwept.distributes {acc acc' : GlobalYieldAccumulator} {swept : List Event}
    {amount : ℕ} (h : AutoSwept (acc.afterBurn amount) acc' swept)
    (hle : acc.totalWrappedShares ≤ acc.totalMintedShares) (hpos : 0 < amount)
    (hamount : amount ≤ acc.totalWrappedShares) (hzero : acc.unwrapped = 0) (newId now : ℕ) :
    acc.Distributes (acc.freshShare newId amount now) acc' := by
  have hunwrapped : (acc.afterBurn amount).unwrapped = amount := by
    simp only [GlobalYieldAccumulator.unwrapped, GlobalYieldAccumulator.afterBurn] at hzero ⊢
    omega
  rcases h with ⟨-, h⟩ | ⟨hno, rfl, -⟩
  · obtain ⟨-, rfl, -⟩ := sweepRolloverInternal_eq_ok.mp h
    -- the floor of the advance
    have hentitlement : ((acc.afterBurn amount).drained.afterAdvance
        acc.rolloverReserve).entitlement (acc.freshShare newId amount now) =
        scale * acc.rolloverReserve / amount * amount := by
      show (acc.cumulativeYieldIndex + (acc.afterBurn amount).drained.increment
        acc.rolloverReserve - acc.cumulativeYieldIndex) * amount = _
      rw [Nat.add_sub_cancel_left, drained_increment, GlobalYieldAccumulator.increment, hunwrapped]
    exact {
      reserve := rfl
      pool := rfl
      unwrapped := hunwrapped
      snapshot := rfl
      atMost := hentitlement.symm ▸ Nat.div_mul_le_self _ _
      atLeast := by
        have hfloor := Nat.lt_div_mul_add hpos (a := scale * acc.rolloverReserve)
        exact hentitlement.symm ▸ hfloor }
  · -- nothing was parked
    have hnone : acc.rolloverReserve = 0 :=
      Nat.eq_zero_of_not_pos fun hreserve => hno ⟨hreserve, hunwrapped.symm ▸ hpos⟩
    have hentitlement : (acc.afterBurn amount).entitlement
        (acc.freshShare newId amount now) = 0 := by
      simp [GlobalYieldAccumulator.entitlement, GlobalYieldAccumulator.afterBurn,
        GlobalYieldAccumulator.freshShare]
    exact {
      reserve := hnone
      pool := by rw [hnone]; rfl
      unwrapped := hunwrapped
      snapshot := rfl
      atMost := by omega
      atLeast := by
        rw [hnone, Nat.mul_zero]
        exact Nat.add_pos_right _ hpos }

/-- Nothing overtakes parked revenue, and the first unwrap distributes it to its own units. -/
structure World.ParksInOrder (w : World) (g : ID) (acc : GlobalYieldAccumulator) : Prop where
  idle : 0 < acc.rolloverReserve → unwrappedSupply acc = .ok 0
  deposit : 0 < acc.rolloverReserve → ∀ sender a payment asset w' acc',
    w.call sender (.asset (.depositRevenue a g payment)) = .ok w' →
    w.assets.get? a = some asset → w'.accumulators.get? g = some acc' →
    acc.Parks (asset.investorPortion w.config payment.val) acc'
  compensation : 0 < acc.rolloverReserve → ∀ sender w' acc',
    w.call sender (.accumulator (.sweepCompensation g)) = .ok w' →
    w'.accumulators.get? g = some acc' → acc.Parks acc.compensationPool acc'
  /-- the units of `fresh` are all that earn: every other deed and receipt is empty -/
  unwrap : acc.unwrapped = 0 → ∀ sender k coin w', w.coins.get? k = some coin →
    w.call sender (.accumulator (.unwrapCoins g k)) = .ok w' →
    ∃ acc' fresh, w'.accumulators.get? g = some acc' ∧ w'.shares.get? w.nextId = some fresh ∧
      fresh.assetId = acc.assetId ∧ fresh.shareCount = coin.value ∧
      acc.Distributes fresh acc' ∧
      (∀ share ∈ w'.shares, share.assetId = acc.assetId → share ≠ fresh → share.shareCount = 0) ∧
      ∀ receipt ∈ w'.receipts, receipt.assetId = acc.assetId → receipt.amount = 0

/-- In every reachable world parked revenue comes first: with a reserve nothing is unwrapped and
    further revenue is parked too, and the first unwrap distributes all of it to its own units. -/
theorem rollover_first {w : World} (hw : Reachable w) {g : ID} {acc : GlobalYieldAccumulator}
    (hacc : w.accumulators.get? g = some acc) : w.ParksInOrder g acc := by
  have hidle := hw.idle hacc
  have hbalanced := (hw.replay hacc).sound.1
  have hsupply : acc.totalWrappedShares ≤ acc.totalMintedShares := hbalanced.supply
  refine ⟨?_, ?_, ?_, ?_⟩
  · intro hreserve
    exact unwrappedSupply_eq_ok.mpr ⟨hsupply, hidle hreserve⟩
  · intro hreserve sender a payment asset w' acc' hcall hasset hacc'
    cases World.callAsset_eq_ok.mp hcall with
    | depositRevenue hx hy _ _ deposited =>
      obtain rfl := Option.some.inj (hx.symm.trans hasset)
      obtain rfl := Option.some.inj (hy.symm.trans hacc)
      have hnew := Store.get?_replace _ hy deposited.routed.frame.id
      obtain rfl := Option.some.inj (hnew.symm.trans hacc')
      have hparks := deposited.routed.parks_idle (hidle hreserve)
      exact ⟨hparks.index, hparks.pool, hparks.reserve⟩
  · intro hreserve sender w' acc' hcall hacc'
    cases World.callAccumulator_eq_ok.mp hcall with
    | @sweepCompensation _ _ routed _ hy _ _ route =>
      obtain rfl := Option.some.inj (hy.symm.trans hacc)
      have hnew := Store.get?_replace { routed with wrappingFrozen := false } hy route.frame.id
      obtain rfl := Option.some.inj (hnew.symm.trans hacc')
      have hparks := route.parks_idle (hidle hreserve)
      exact ⟨hparks.index, hparks.pool, hparks.reserve⟩
  · intro hzero sender k coin w' hcoin hcall
    have hw' := hw.call hcall
    cases World.callAccumulator_eq_ok.mp hcall with
    | @unwrapCoins _ _ acc acc' coin _ _ hy _ hk _ guards sweep =>
      obtain rfl := Option.some.inj (hy.symm.trans hacc)
      obtain rfl := Option.some.inj (hk.symm.trans hcoin)
      have hnew := Store.get?_replace acc' hy sweep.frame.id
      have hunits := (hw'.replay hnew).sound.1
      have hdistributes := sweep.distributes hsupply guards.positive guards.wrapped hzero w.nextId
        w.clockMs
      have hfresh : (w.shares.put (acc.freshShare w.nextId coin.value w.clockMs)).get? w.nextId =
          some (acc.freshShare w.nextId coin.value w.clockMs) := Store.get?_put_self _ _
      have hid : acc'.assetId = acc.assetId := sweep.frame.assetId
      have hmem : acc.freshShare w.nextId coin.value w.clockMs ∈
          w.shares.put (acc.freshShare w.nextId coin.value w.clockMs) := Store.mem_of_get? hfresh
      have hmem' := Store.mem_group (f := GallyShare.assetId).mpr ⟨hmem, hid.symm⟩
      -- all units that earn, of deeds and of receipts, are those of the fresh deed
      have hearning : acc'.totalMintedShares - acc'.totalWrappedShares = coin.value :=
        hdistributes.unwrapped
      have hsum := hunits.units
      refine ⟨acc', _, hnew, hfresh, rfl, rfl, hdistributes, ?_, ?_⟩
      · intro share hshare hbelongs hne
        have hother := Store.mem_group (f := GallyShare.assetId).mpr
          ⟨hshare, hbelongs.trans hid.symm⟩
        have hle := Store.add_le_sum hmem' hother hne.symm GallyShare.shareCount
        simp only [Engine.deedUnits, World.engine, GlobalYieldAccumulator.freshShare] at hle hsum
        omega
      · intro receipt hreceipt hbelongs
        have hother := Store.mem_group (f := ContributionReceipt.assetId).mpr
          ⟨hreceipt, hbelongs.trans hid.symm⟩
        have hle := Store.le_sum hother ContributionReceipt.amount
        have hdeed := Store.le_sum hmem' GallyShare.shareCount
        simp only [Engine.deedUnits, Engine.receiptUnits, World.engine,
          GlobalYieldAccumulator.freshShare] at hle hdeed hsum
        omega

/-- The only deed is wrapped, and the entity deposits revenue. -/
def Sample.parked : List Action :=
  operational 1000000 100000 ++
  [.transaction 3 [.asset (.claimShares 4 8 6)], .tick 3600000,
   .transaction 3 [.accumulator (.wrapShares 8 9)],
   .transaction 2 [.asset (.depositRevenue 4 8 1000)]]

/-- Revenue is parked while everything is wrapped. -/
theorem rollover_first_parked : ∃ w acc, (World.genesis 0).run Sample.parked = .ok w ∧
    w.accumulators.get? 8 = some acc ∧ acc.rolloverReserve = 495 ∧ w.ParksInOrder 8 acc := by
  have hrun : returns ((World.genesis 0).run Sample.parked) (fun w =>
      (w.accumulators.get? 8).any fun acc => acc.rolloverReserve = 495) = true := by
    decide +kernel
  obtain ⟨w, hw, hq⟩ := returns_iff.mp hrun
  obtain ⟨acc, hacc, hq⟩ := (Option.any_eq_true _ _).mp hq
  exact ⟨w, acc, hw, hacc, of_decide_eq_true hq, rollover_first ⟨0, _, hw⟩ hacc⟩

end Gally

import Gally.Chain.Path
import Gally.Chain.Touch
import Gally.Law.Grace
import Gally.Law.Rollover
import Gally.Law.Trial

/-!
# Who can claim what is set aside

Restitution and parked revenue are set aside for the holders of the minted units, so they need
one. The units of an asset are redeemed once it is closed, and a close for the return target or
for a wind-down asks neither for an empty compensation pool nor for the end of a dispute. When
every close finds both, what is set aside always has a claimant.

## Key results

- `restitution_has_claimants`: it has, on runs whose closes leave nothing open
-/

namespace Gally

open Checked

/-! ## Minted units -/

/-- No deed has more units than earn. -/
theorem Reachable.deed_le {w : World} (hw : Reachable w) {g s : ID} {acc : GlobalYieldAccumulator}
    {share : GallyShare} (hacc : w.accumulators.get? g = some acc)
    (hshare : w.shares.get? s = some share) (hasset : share.assetId = acc.assetId) :
    share.shareCount ≤ acc.unwrapped := by
  have hbalanced := (hw.replay hacc).sound.1
  have hmem : share ∈ (w.engine acc).shares :=
    Store.mem_group.mpr ⟨Store.mem_of_get? hshare, hasset⟩
  exact Nat.le_trans (Store.le_sum hmem GallyShare.shareCount) hbalanced.deedUnits_le

/-- An accumulator that is not closed has minted units. -/
theorem Reachable.minted_pos {w : World} (hw : Reachable w) : ∀ g acc,
    w.accumulators.get? g = some acc → acc.closed = false → 0 < acc.totalMintedShares := by
  refine hw.induct (P := fun w => ∀ g acc, w.accumulators.get? g = some acc →
    acc.closed = false → 0 < acc.totalMintedShares) ?_ ?_ fun _ hP _ => hP
  · intro _ g acc hacc
    simp [World.genesis] at hacc
  · intro w sender c w' hw hP hcall g acc' hacc' hopen
    rcases World.call_accumulators hw.fresh hcall hacc' with
      ⟨acc, hacc, htouch⟩ | ⟨a, asset, cap, hasset, -, rfl⟩
    · have hold := hP g acc hacc
      cases htouch with
      | redeem _ guards =>
        -- units are redeemed only once the accumulator is closed
        have hstill : acc.closed = false := hopen
        simp [guards.closed] at hstill
      | unwrap _ _ _ sweep => exact sweep.frame.minted ▸ hold (sweep.closed ▸ hopen)
      | sweepCompensation _ _ route =>
        have hminted := route.frame.minted
        exact hminted ▸ hold (route.closed ▸ hopen)
      | deposit _ _ deposited =>
        have hminted := deposited.routed.frame.minted
        exact hminted ▸ hold (deposited.routed.closed ▸ hopen)
      | close => simp [markClosed] at hopen
      | _ => exact hold hopen
    -- a new accumulator counts the whole goal
    · exact (hw.sound hasset).scheduled.goal

/-! ## Parked revenue -/

/-- Revenue is parked only while every unit is wrapped, and there are units. -/
def GlobalYieldAccumulator.Parked (acc : GlobalYieldAccumulator) : Prop :=
  0 < acc.rolloverReserve → acc.unwrapped = 0 ∧ 0 < acc.totalMintedShares

/-- An auto-sweep parks nothing. -/
theorem AutoSwept.reserve_le {acc acc' : GlobalYieldAccumulator} {events : List Event}
    (h : AutoSwept acc acc' events) : acc'.rolloverReserve ≤ acc.rolloverReserve := by
  rcases h with ⟨-, h⟩ | ⟨-, rfl, -⟩
  · obtain ⟨-, rfl, -⟩ := sweepRolloverInternal_eq_ok.mp h
    exact Nat.zero_le _
  · exact Nat.le_refl _

/-- Revenue stays parked, unless compensation is swept when no unit is left. -/
theorem Reachable.parks {w : World} (hw : Reachable w) {sender : Address} {c : Call} {g : ID}
    {acc acc' : GlobalYieldAccumulator} (hacc : w.accumulators.get? g = some acc)
    (h : acc.Touch w sender c acc')
    (hsweep : c = .accumulator (.sweepCompensation g) → 0 < acc.totalMintedShares)
    (hp : acc.Parked) : acc'.Parked := by
  intro hreserve
  have hid : acc.id = g := Store.key_of_get? hacc
  refine ⟨h.idle (hw.idle hacc) hreserve, ?_⟩
  cases h with
  | unwrap _ _ _ sweep =>
    have hminted : acc'.totalMintedShares = acc.totalMintedShares := sweep.frame.minted
    rw [hminted]
    exact (hp (Nat.lt_of_lt_of_le hreserve sweep.reserve_le)).2
  -- with revenue parked all units are wrapped, so no deed has any to redeem
  | redeem hshare guards =>
    obtain ⟨hzero, hminted⟩ := hp hreserve
    have hcount := hw.deed_le hacc hshare guards.claim.asset
    simp only [GlobalYieldAccumulator.afterRedeem]
    omega
  | sweepRollover => exact absurd hreserve (Nat.lt_irrefl 0)
  | sweepCompensation _ _ route =>
    have hminted := route.frame.minted
    exact hminted ▸ hsweep (hid ▸ rfl)
  | sweepDust => exact absurd hreserve (Nat.lt_irrefl 0)
  -- a deposit finds the asset OPERATIONAL, so the accumulator is open
  | deposit hasset guards deposited =>
    have hclosed := (hw.custodied hasset).closed g acc hacc guards.linked
    have hopen : acc.closed = false := by
      rw [← Bool.not_eq_true, hclosed, guards.state]
      simp
    have hminted := deposited.routed.frame.minted
    exact hminted ▸ hw.minted_pos g acc hacc hopen
  | _ => exact (hp hreserve).2

/-! ## Closes that leave nothing open -/

/-- Only a close closes an accumulator. -/
theorem GlobalYieldAccumulator.Touch.closes {w : World} {sender : Address} {c : Call}
    {x x' : GlobalYieldAccumulator} (h : x.Touch w sender c x') (hopen : ¬ x.closed = true)
    (hclosed : x'.closed = true) : ∃ a call reason, c = .asset call ∧
      AssetCall.Closes a x.id call reason ∧ x' = markClosed x := by
  cases h with
  | close _ closes => exact ⟨_, _, _, rfl, closes, rfl⟩
  | unwrap _ _ _ sweep => exact absurd (sweep.closed ▸ hclosed) hopen
  | sweepCompensation _ _ route =>
    have hstill : _ = x.closed := route.closed
    exact absurd (hstill ▸ hclosed) hopen
  | deposit _ _ deposited =>
    have hstill : _ = x.closed := deposited.routed.closed
    exact absurd (hstill ▸ hclosed) hopen
  | _ => exact absurd hclosed hopen

/-- Accumulator `g` is closed only with an empty compensation pool, and when no dispute about its
    asset is OPEN. -/
def CallRule.closesSettled (g : ID) : CallRule := fun w _ c => ∀ a call reason,
  c = .asset call → call.Closes a g reason → ∀ acc, w.accumulators.get? g = some acc →
    acc.compensationPool = 0 ∧ w.Uncontested acc.assetId

/-- An asset that nobody contests is contested by an opening only. -/
theorem World.call_uncontested {w w' : World} {sender : Address} (hf : w.Fresh) {c : Call}
    (h : w.call sender c = .ok w') {a : ID} (hno : w.Uncontested a) : w'.Uncontested a ∨
      ∃ p g bond evidence reason, c = .dispute (.initializeDispute a p g bond evidence reason) := by
  refine or_iff_not_imp_right.mpr fun hother d dispute' hd' ha hopen' => ?_
  rcases World.call_disputes hf h hd' with ⟨dispute, hd, -⟩ | ⟨rfl, _, _, _, _, _, _, rfl⟩
  -- an old dispute that is OPEN was OPEN before
  · obtain ⟨x, hx, hkept⟩ := World.call_charge hf h hd
    obtain rfl := Option.some.inj (hx.symm.trans hd')
    obtain ⟨hopen, hsame⟩ := hkept hopen'
    exact hno d dispute hd (hsame.assetId.symm.trans ha) hopen
  · obtain ⟨_, _, _, x, -, -, -, -, -, hx, -, hx', -⟩ := World.opening_eq h
    obtain rfl := Option.some.inj (hx.symm.trans hd')
    exact hother ⟨_, _, _, _, _, by rw [← ha, hx']⟩

/-- The call closes no asset. -/
def Call.keepsOpen : Call → Bool
  | .asset (.closeAtReturnTarget ..) | .asset (.closeAfterCompensation ..)
  | .asset (.closeWindDown ..) => false
  | _ => true

/-- A run that closes nothing obeys the rule. -/
theorem World.Path.of_run_open {g : ID} {w u : World} {actions : List Action}
    (hall : actions.all (Action.all Call.keepsOpen) = true) (h : w.run actions = .ok u) :
    w.Path (.closesSettled g) u := by
  refine .of_run_all (fun c hc v sender a call reason heq hcloses => ?_) hall h
  subst heq
  cases hcloses <;> simp [Call.keepsOpen] at hc

/-- Nothing will be set aside for a closed accumulator, and what is parked has a claimant. -/
structure World.Settled (w : World) (g : ID) : Prop where
  closed : ∀ acc, w.accumulators.get? g = some acc → acc.closed = true →
    acc.compensationPool = 0 ∧ w.Uncontested acc.assetId
  parked : ∀ acc, w.accumulators.get? g = some acc → acc.Parked

namespace World.Settled

variable {w w' : World} {sender : Address} {g : ID}

theorem genesis (admin : Address) : (World.genesis admin).Settled g where
  closed _ hacc := by simp [World.genesis] at hacc
  parked _ hacc := by simp [World.genesis] at hacc

/-- What waits in the compensation pool has a claimant. -/
theorem minted_pos (hs : w.Settled g) (hw : Reachable w) {acc : GlobalYieldAccumulator}
    (hacc : w.accumulators.get? g = some acc) (hpool : 0 < acc.compensationPool) :
    0 < acc.totalMintedShares := by
  refine hw.minted_pos g acc hacc ?_
  rw [← Bool.not_eq_true]
  intro hclosed
  have hempty := (hs.closed acc hacc hclosed).1
  omega

/-- A closed accumulator gets no compensation. -/
theorem pool_empty (hs : w.Settled g) (hw : Reachable w) {c : Call}
    {acc acc' : GlobalYieldAccumulator}
    (hacc : w.accumulators.get? g = some acc) (hclosed : acc.closed = true)
    (h : acc.Touch w sender c acc') : acc'.compensationPool = 0 := by
  obtain ⟨hpool, hno⟩ := hs.closed acc hacc hclosed
  cases h with
  | unwrap _ _ _ sweep => exact sweep.parked.pool.trans hpool
  | sweepCompensation _ positive => omega
  | deposit _ _ deposited => exact deposited.routed.parked.pool.trans hpool
  | default hasset guards =>
    -- a default is flagged only under execution
    have hstate := ((hw.custodied hasset).closed g acc hacc guards.linked).mp hclosed
    simp [guards.state] at hstate
  | uphold hdispute hasset guards =>
    -- a verdict needs an OPEN dispute, and there is none
    obtain ⟨x, hx, ha⟩ := hw.linked.disputes _ (Store.mem_of_get? hdispute)
    obtain rfl := Option.some.inj (hx.symm.trans (guards.acc_recorded hacc))
    exact absurd guards.opened (hno _ _ hdispute ha.symm)
  | _ => exact hpool

/-- One call keeps the accounts of the closed settled, if it closes settled ones only. -/
theorem call (hs : w.Settled g) (hw : Reachable w) {c : Call}
    (hrule : CallRule.closesSettled g w sender c) (h : w.call sender c = .ok w') :
    w'.Settled g where
  closed acc' hacc' hclosed' := by
    rcases World.call_accumulators hw.fresh h hacc' with ⟨acc, hacc, htouch⟩ | ⟨_, _, _, -, -, rfl⟩
    · have hid : acc.id = g := Store.key_of_get? hacc
      rw [htouch.assetId]
      -- closed before, or by this call
      by_cases hclosed : acc.closed = true
      · refine ⟨hs.pool_empty hw hacc hclosed htouch, ?_⟩
        rcases World.call_uncontested hw.fresh h (hs.closed acc hacc hclosed).2 with
          hno | ⟨_, _, _, _, _, rfl⟩
        · exact hno
        · -- a CLOSED asset is not contested
          obtain ⟨asset, _, _, _, hasset, -, -, guards, -⟩ := World.opening_eq h
          have hstate := ((hw.custodied hasset).closed g acc hacc
            (Store.key_of_get? hasset).symm).mp hclosed
          rcases guards.state with state | state <;> simp [hstate] at state
      · -- this call closes it
        obtain ⟨a, call, reason, rfl, hcloses, rfl⟩ := htouch.closes hclosed hclosed'
        obtain ⟨hpool, hno⟩ := hrule a call reason rfl (hid ▸ hcloses) acc hacc
        refine ⟨hpool, (World.call_uncontested hw.fresh h hno).resolve_right ?_⟩
        intro ⟨_, _, _, _, _, hc⟩
        simp at hc
    · simp [Asset.newAccumulator] at hclosed'
  parked acc' hacc' := by
    rcases World.call_accumulators hw.fresh h hacc' with ⟨acc, hacc, htouch⟩ | ⟨_, _, _, -, -, rfl⟩
    · refine hw.parks hacc htouch (fun hc => ?_) (hs.parked acc hacc)
      subst hc
      cases World.callAccumulator_eq_ok.mp h with
      | sweepCompensation hx _ positive =>
        obtain rfl := Option.some.inj (hx.symm.trans hacc)
        exact hs.minted_pos hw hacc positive
    · exact fun hreserve => absurd hreserve (Nat.lt_irrefl 0)

end World.Settled

/-- On runs that close the accumulator only with an empty compensation pool and an uncontested
    asset, there is a minted unit whenever restitution or parked revenue waits, and whenever a
    dispute about the asset is OPEN. -/
theorem restitution_has_claimants {admin : Address} {g : ID} {w : World}
    (h : (World.genesis admin).Path (.closesSettled g) w) {acc : GlobalYieldAccumulator}
    (hacc : w.accumulators.get? g = some acc) :
    (0 < acc.compensationPool + acc.rolloverReserve → 0 < acc.totalMintedShares) ∧
    (¬ w.Uncontested acc.assetId → 0 < acc.totalMintedShares) := by
  have hw : Reachable w := h.reachable ⟨admin, [], rfl⟩
  have hs : w.Settled g := h.preserves (P := fun w => w.Settled g) ⟨admin, [], rfl⟩
    (.genesis admin) (fun hu hs hrule hcall => hs.call hu hrule hcall) fun _ hs _ => { hs with }
  constructor
  · intro hwaits
    -- restitution waits, or parked revenue does
    by_cases hpool : 0 < acc.compensationPool
    · exact hs.minted_pos hw hacc hpool
    · exact (hs.parked acc hacc (by omega)).2
  · intro hcontested
    refine hw.minted_pos g acc hacc ?_
    rw [← Bool.not_eq_true]
    exact fun hclosed => hcontested (hs.closed acc hacc hclosed).2

/-- After an UPHELD verdict on an asset that is not closed its compensation pool has a claimant. -/
theorem restitution_has_claimants_upheld : ∃ w acc,
    (World.genesis 0).run Sample.restituted = .ok w ∧ w.accumulators.get? 8 = some acc ∧
    0 < acc.compensationPool ∧ 0 < acc.totalMintedShares := by
  have hrun : returns ((World.genesis 0).run Sample.restituted) (fun w =>
      (w.accumulators.get? 8).any fun acc => 0 < acc.compensationPool) = true := by
    decide +kernel
  obtain ⟨w, hw, hq⟩ := returns_iff.mp hrun
  obtain ⟨acc, hacc, hq⟩ := (Option.any_eq_true _ _).mp hq
  have hpool : 0 < acc.compensationPool := of_decide_eq_true hq
  have hpath : (World.genesis 0).Path (.closesSettled 8) w :=
    .of_run_open (by decide) hw
  exact ⟨w, acc, hw, hacc, hpool, (restitution_has_claimants hpath hacc).1 (by omega)⟩

namespace Sample

/-- The project as a term asset. -/
def term : List Action :=
  (operational 1000000 100000).set 2
    (.transaction 2 [.asset (.createTermAsset (listing 1000000) 1000000 100000)])

/-- Revenue beyond the return target. -/
def repayment : Call := .asset (.depositRevenue 4 8 3000000)

/-- The vouch is contested and the verdict is UPHELD. The target was reached, so the only
    investor closes the asset in the grace window and redeems its deed. -/
def redeemedInGrace : List Action :=
  term ++ [.transaction 2 [repayment]] ++ court ++ [.transaction 3 [challenge]] ++ voting ++
  [.transaction 3 [resolution, .asset (.claimShares 4 8 6), .asset (.closeAtReturnTarget 4 8),
    .accumulator (.redeemShare 8 12)]]

end Sample

/-- The last unit is redeemed before the compensation pool is swept. -/
theorem restitution_orphaned : ∃ w acc, (World.genesis 0).run Sample.redeemedInGrace = .ok w ∧
    w.accumulators.get? 8 = some acc ∧ acc.compensationPool = 180000 ∧
    acc.totalMintedShares = 0 := by
  have hrun : returns ((World.genesis 0).run Sample.redeemedInGrace) (fun w =>
      (w.accumulators.get? 8).any fun acc => acc.compensationPool = 180000 ∧
        acc.totalMintedShares = 0) = true := by
    decide +kernel
  obtain ⟨w, hw, hq⟩ := returns_iff.mp hrun
  obtain ⟨acc, hacc, hq⟩ := (Option.any_eq_true _ _).mp hq
  exact ⟨w, acc, hw, hacc, of_decide_eq_true hq⟩

end Gally

import Gally.Law.Exits
import Gally.Law.Trial

/-!
# The grace window

Whatever a default or an UPHELD verdict takes from an asset waits in the compensation pool
of its accumulator. Wrapping is frozen meanwhile, and only a sweep after the unlock time
ends it. A call does one of three things to pool, flag and unlock time
(`GlobalYieldAccumulator.Restitution`).

## Key results

- `freeze_follows_pool`: wrapping is frozen exactly while there is something to sweep, on
  runs that release no contested coverage
- `grace_window`: what holds between an intake and the next sweep
-/

namespace Gally

open Checked

/-! ## Intakes and sweeps -/

/-- Nothing was taken in or swept. -/
structure GlobalYieldAccumulator.SameParked (acc acc' : GlobalYieldAccumulator) : Prop where
  pool : acc'.compensationPool = acc.compensationPool
  frozen : acc'.wrappingFrozen = acc.wrappingFrozen
  unlock : acc'.compensationUnlockMs = acc.compensationUnlockMs

/-- Routing revenue leaves what is parked for compensation as it is. -/
theorem Routed.parked {acc acc' : GlobalYieldAccumulator} {funds : ℕ} (h : Routed acc funds acc') :
    acc.SameParked acc' := by
  rcases h with ⟨-, -, rfl⟩ | ⟨-, -, rfl⟩ <;> exact ⟨rfl, rfl, rfl⟩

/-- An automatic sweep leaves what is parked for compensation as it is. -/
theorem AutoSwept.parked {acc acc' : GlobalYieldAccumulator} {events : List Event}
    (h : AutoSwept acc acc' events) : acc.SameParked acc' := by
  rcases h with ⟨-, h⟩ | ⟨-, rfl, -⟩
  · obtain ⟨-, rfl, -⟩ := sweepRolloverInternal_eq_ok.mp h
    exact ⟨rfl, rfl, rfl⟩
  · exact ⟨rfl, rfl, rfl⟩

/-- What some asset of `w` forfeits at once: by a default, or by an UPHELD verdict. -/
inductive World.Forfeits (w : World) (funds : ℕ) : Prop where
  | default {a : ID} {asset : Asset} (hasset : w.assets.get? a = some asset)
      (state : asset.state = .executing) (eq : funds = asset.entityCollateral + asset.escrow)
  | verdict {d : ID} {dispute : Dispute} {asset : Asset}
      (hdispute : w.disputes.get? d = some dispute)
      (opened : dispute.status = .opened) (hasset : w.assets.get? dispute.assetId = some asset)
      (eq : funds = asset.coverageLocked - w.config.bounty asset.coverageLocked + asset.seizable)

/-- What a call does to the compensation pool, the freeze and the unlock time. -/
inductive GlobalYieldAccumulator.Restitution (w : World) (c : Call)
    (x x' : GlobalYieldAccumulator) : Prop where
  | same (parked : x.SameParked x')
  | intake {funds : ℕ} (forfeits : w.Forfeits funds)
      (fits : w.clockMs + w.config.compensationGraceMs ≤ maxU64)
      (eq : x' = x.compensated funds (w.clockMs + w.config.compensationGraceMs))
  | sweep (call : c = .accumulator (.sweepCompensation x.id))
      (due : x.compensationUnlockMs ≤ w.clockMs) (pool : x'.compensationPool = 0)
      (frozen : x'.wrappingFrozen = false)
      (unlock : x'.compensationUnlockMs = x.compensationUnlockMs)

/-- What a call does to the restitution of an accumulator: nothing, an intake, or the sweep. -/
theorem GlobalYieldAccumulator.Touch.restitution {w : World} {sender : Address} {c : Call}
    {x x' : GlobalYieldAccumulator} (h : x.Touch w sender c x') : x.Restitution w c x' := by
  cases h with
  | unwrap _ _ _ sweep =>
    have hsame := sweep.parked
    exact .same ⟨hsame.pool, hsame.frozen, hsame.unlock⟩
  | deposit _ _ deposited =>
    have hsame := deposited.routed.parked
    exact .same ⟨hsame.pool, hsame.frozen, hsame.unlock⟩
  | sweepCompensation due _ route =>
    have hsame := route.parked
    exact .sweep rfl due hsame.pool rfl hsame.unlock
  | default hasset guards => exact .intake (.default hasset guards.state rfl) guards.unlock rfl
  -- the asset of the verdict is the one the dispute is about
  | uphold hdispute hasset guards _ uphold =>
    have hself : w.assets.get? _ = some _ := Store.get?_key (Store.mem_of_get? hasset)
    exact .intake (.verdict hdispute guards.opened (guards.asset ▸ hself) rfl) uphold.unlock rfl
  | _ => exact .same ⟨rfl, rfl, rfl⟩

/-! ## What is forfeited is something -/

/-- Every tranche of every asset has a positive amount. -/
theorem Reachable.amounts {w : World} (hw : Reachable w) {a : ID} {asset : Asset}
    (hasset : w.assets.get? a = some asset) : ∀ t ∈ asset.tranches, 0 < t.amount := by
  -- a change of one tranche that keeps its amount
  have hset : ∀ {ts : List Tranche} {i : ℕ} {old new : Tranche}, (∀ t ∈ ts, 0 < t.amount) →
      ts[i]? = some old → new.amount = old.amount → ∀ t ∈ ts.set i new, 0 < t.amount := by
    intro ts i old new hts hold hsame t ht
    rcases List.mem_or_eq_of_mem_set ht with hmem | rfl
    · exact hts t hmem
    · exact hsame ▸ hts old (List.mem_of_getElem? hold)
  refine hw.site_induct (P := fun s => ∀ t ∈ s.asset.tranches, 0 < t.amount)
    (fun _ hlisted t ht => (hlisted.fresh t ht).positive) ?_ hasset
  intro s s' hs hstep
  cases hstep with
  | prove guards => exact hset hs guards.tranche rfl
  | approve guards => exact hset hs guards.tranche rfl
  | @release _ _ i t guards =>
    have ht : s.asset.tranches[s.asset.nextTranche]? = some t := guards.next ▸ guards.tranche
    exact hset hs ht rfl
  | uphold =>
    simp only [Asset.upheld]
    split <;> exact hs
  | _ => exact hs

/-- The next tranche of an EXECUTING asset is still in escrow. -/
theorem Reachable.escrow_pos {w : World} (hw : Reachable w) {a : ID} {asset : Asset}
    (hasset : w.assets.get? a = some asset) (hstate : asset.state = .executing) :
    0 < asset.escrow := by
  have hstage := (hw.sound hasset).stage
  have hsite : (w.site asset).asset = asset := rfl
  simp only [Site.Stage, hsite, hstate] at hstage
  obtain ⟨hescrow, hlt⟩ := hstage
  have ht := List.getElem?_eq_getElem hlt
  have hpos := hw.amounts hasset _ (List.getElem_mem hlt)
  rw [hescrow, Asset.unreleased, trancheTotal_drop ht]
  omega

/-- The bounty is at most half of the coverage. -/
theorem ProtocolConfig.WithinCaps.bounty_lt {config : ProtocolConfig} (h : config.WithinCaps)
    {coverage : ℕ} (hpos : 0 < coverage) : config.bounty coverage < coverage := by
  have hbps := h.bounty
  unfold ProtocolConfig.bounty
  refine Nat.div_lt_of_lt_mul ?_
  calc coverage * config.challengerBountyBps
    _ ≤ coverage * maxChallengerBountyBps := Nat.mul_le_mul_left _ hbps
    _ < bpsDenominator * coverage := by
      simp only [maxChallengerBountyBps, bpsDenominator]
      omega

/-! ## The freeze -/

/-- Wrapping is frozen exactly while there is something to sweep, and whoever is contested has
    something to lose. -/
structure World.FreezeKept (w : World) : Prop where
  pool : ∀ g acc, w.accumulators.get? g = some acc →
    (acc.wrappingFrozen = true ↔ 0 < acc.compensationPool)
  unlock : ∀ g acc, w.accumulators.get? g = some acc → acc.compensationUnlockMs ≤ maxU64
  covered : ∀ d dispute, w.disputes.get? d = some dispute → dispute.status = .opened →
    ∃ asset, w.assets.get? dispute.assetId = some asset ∧ 0 < asset.coverageLocked

namespace World.FreezeKept

variable {w w' : World} {sender : Address}

theorem genesis (admin : Address) : (World.genesis admin).FreezeKept where
  pool _ _ hacc := by simp [World.genesis] at hacc
  unlock _ _ hacc := by simp [World.genesis] at hacc
  covered _ _ hdispute := by simp [World.genesis] at hdispute

/-- Nothing that is forfeited is worth nothing. -/
theorem forfeits_pos (hk : w.FreezeKept) (hw : Reachable w) {funds : ℕ} (h : w.Forfeits funds) :
    0 < funds := by
  cases h with
  | default hasset state eq =>
    have hescrow := hw.escrow_pos hasset state
    omega
  | verdict hdispute opened hasset eq =>
    obtain ⟨x, hx, hcovered⟩ := hk.covered _ _ hdispute opened
    obtain rfl := Option.some.inj (hx.symm.trans hasset)
    have hbounty := hw.withinCaps.bounty_lt hcovered
    omega

/-- A dispute that is OPEN after a call that releases no contested coverage has coverage. -/
theorem call_covered (hk : w.FreezeKept) (hw : Reachable w) {c : Call}
    (hrule : CallRule.coverageHeld w sender c) (h : w.call sender c = .ok w') {d : ID}
    {dispute' : Dispute} (hdispute' : w'.disputes.get? d = some dispute')
    (hopen' : dispute'.status = .opened) :
    ∃ asset, w'.assets.get? dispute'.assetId = some asset ∧ 0 < asset.coverageLocked := by
  -- an open dispute was open before with the same charge, or it is opened by this call
  rcases World.call_disputes hw.fresh h hdispute' with ⟨dispute, hdispute, -⟩ | ⟨rfl, hnew⟩
  · obtain ⟨x, hx, hkept⟩ := World.call_charge hw.fresh h hdispute
    obtain rfl := Option.some.inj (hx.symm.trans hdispute')
    obtain ⟨hopen, hsame⟩ := hkept hopen'
    obtain ⟨asset, hasset, hcovered⟩ := hk.covered d dispute hdispute hopen
    obtain ⟨asset', hasset', hheld⟩ :=
      hw.coverage_held hrule h hdispute hopen hdispute' hopen' hasset
    exact ⟨asset', hsame.assetId.symm ▸ hasset', hheld.symm ▸ hcovered⟩
  · obtain ⟨a, p, g, bond, evidence, reason, rfl⟩ := hnew
    obtain ⟨asset, _, _, dispute, -, -, -, guards, hflagged, hdispute, -, ha, -⟩ :=
      World.opening_eq h
    obtain rfl := Option.some.inj (hdispute.symm.trans hdispute')
    exact ⟨setDisputed asset true, ha.symm ▸ hflagged, guards.covered⟩

/-- One call keeps the freeze, if it leaves coverage under a challenge alone. -/
theorem call (hk : w.FreezeKept) (hw : Reachable w) {c : Call}
    (hrule : CallRule.coverageHeld w sender c) (h : w.call sender c = .ok w') :
    w'.FreezeKept where
  pool g acc' hacc' := by
    rcases World.call_accumulators hw.fresh h hacc' with ⟨acc, hacc, htouch⟩ | ⟨_, _, _, -, -, rfl⟩
    · have hold := hk.pool g acc hacc
      cases htouch.restitution with
      | same parked => rw [parked.frozen, parked.pool, hold]
      | intake forfeits fits eq =>
        have hpos := hk.forfeits_pos hw forfeits
        -- what is forfeited is positive, as long as the covered asset keeps its coverage
        simp only [eq, GlobalYieldAccumulator.compensated, true_iff]
        omega
      | sweep _ _ pool frozen => simp [pool, frozen]
    · simp [Asset.newAccumulator]
  unlock g acc' hacc' := by
    rcases World.call_accumulators hw.fresh h hacc' with ⟨acc, hacc, htouch⟩ | ⟨_, _, _, -, -, rfl⟩
    · have hold := hk.unlock g acc hacc
      cases htouch.restitution with
      | same parked => rwa [parked.unlock]
      | intake _ fits eq =>
        rw [eq]
        exact Nat.max_le.mpr ⟨hold, fits⟩
      | sweep _ _ _ _ unlock => rwa [unlock]
    · exact Nat.zero_le _
  covered _ _ hdispute' hopen' := hk.call_covered hw hrule h hdispute' hopen'

end World.FreezeKept

/-- Runs that release no contested coverage keep the freeze in step with the pool. -/
theorem World.Path.freezeKept {admin : Address} {w : World}
    (h : (World.genesis admin).Path .coverageHeld w) : w.FreezeKept :=
  h.preserves ⟨admin, [], rfl⟩ (.genesis admin) (fun hw hk hrule hcall => hk.call hw hrule hcall)
    fun _ hk _ => { hk with }

/-! ## The sweep -/

/-- What is parked is routed, if the dust counter has room. -/
theorem Reachable.routed {w : World} (hw : Reachable w) {g : ID} {acc : GlobalYieldAccumulator}
    (hacc : w.accumulators.get? g = some acc) (hroom : acc.SweepRoom) :
    ∃ routed, Routed { acc with compensationPool := 0 } acc.compensationPool routed := by
  -- with nothing unwrapped the pool goes to the reserve, else through the index
  by_cases hzero : acc.unwrapped = 0
  · have hfunds := hw.accFunds_le hacc
    unfold GlobalYieldAccumulator.funds at hfunds
    exact ⟨_, Or.inl ⟨hzero, by simp only; omega, rfl⟩⟩
  · obtain ⟨hproduct, hindex, hpool⟩ := hw.advance hacc (Nat.le_add_left _ acc.rolloverReserve)
    have hincrement := acc.increment_le acc.compensationPool
    exact ⟨_, Or.inr ⟨hzero, {
      supply := (hw.replay hacc).sound.1.supply
      product := hproduct
      unwrapped := hzero
      index := Nat.le_trans (Nat.add_le_add_left hincrement _) hindex
      dust := hroom.resolve_left hzero
      pool := hpool }, rfl⟩⟩

/-- When something waits in the pool, a sweep succeeds exactly if it is due and the dust counter
    has room. -/
theorem Reachable.sweep_iff {w : World} (hw : Reachable w) {g : ID} {acc : GlobalYieldAccumulator}
    (hacc : w.accumulators.get? g = some acc) (hpool : 0 < acc.compensationPool)
    (sender : Address) : Succeeds (w.call sender (.accumulator (.sweepCompensation g))) ↔
      acc.compensationUnlockMs ≤ w.clockMs ∧ acc.SweepRoom := by
  constructor
  · intro ⟨w', h⟩
    cases World.callAccumulator_eq_ok.mp h with
    | sweepCompensation hacc' due _ route =>
      obtain rfl := Option.some.inj (hacc'.symm.trans hacc)
      refine ⟨due, ?_⟩
      -- an advance adds to the dust bound, the reserve does not
      rcases route with ⟨hzero, -, -⟩ | ⟨-, guards, -⟩
      · exact Or.inl hzero
      · exact Or.inr guards.dust
  · intro ⟨hdue, hroom⟩
    obtain ⟨routed, hrouted⟩ := hw.routed hacc hroom
    have hsupply : acc.totalWrappedShares ≤ acc.totalMintedShares :=
      (hw.replay hacc).sound.1.supply
    exact ⟨_, World.callAccumulator_eq_ok.mpr (.sweepCompensation hacc hdue hpool hrouted
      (sweepCompensation_eq_ok.mpr ⟨hdue, hpool, hsupply, ⟨routed, hrouted, rfl⟩, rfl⟩))⟩

/-- A sweep ends the freeze. -/
theorem World.sweep_thaws {w w' : World} {sender : Address} {g : ID}
    (h : w.call sender (.accumulator (.sweepCompensation g)) = .ok w') :
    ∃ acc', w'.accumulators.get? g = some acc' ∧ acc'.wrappingFrozen = false := by
  cases World.callAccumulator_eq_ok.mp h with
  | sweepCompensation hacc _ _ route =>
    exact ⟨_, Store.get?_replace _ hacc route.frame.id, rfl⟩

/-- On runs that release no contested coverage, wrapping is frozen exactly while the
    compensation pool holds something; and then a sweep succeeds exactly from the unlock time
    on, which a clock can reach, unless the dust counter is full, and ends the freeze. -/
theorem freeze_follows_pool {admin : Address} {w : World}
    (h : (World.genesis admin).Path .coverageHeld w) {g : ID} {acc : GlobalYieldAccumulator}
    (hacc : w.accumulators.get? g = some acc) :
    (acc.wrappingFrozen = true ↔ 0 < acc.compensationPool) ∧
    (acc.wrappingFrozen = true → acc.compensationUnlockMs ≤ maxU64 ∧ ∀ sender,
      (Succeeds (w.call sender (.accumulator (.sweepCompensation g))) ↔
        acc.compensationUnlockMs ≤ w.clockMs ∧ acc.SweepRoom) ∧
      ∀ w', w.call sender (.accumulator (.sweepCompensation g)) = .ok w' →
        ∃ acc', w'.accumulators.get? g = some acc' ∧ acc'.wrappingFrozen = false) := by
  have hk := h.freezeKept
  have hpool := hk.pool g acc hacc
  have hw : Reachable w := h.reachable ⟨admin, [], rfl⟩
  refine ⟨hpool, fun hfrozen => ⟨hk.unlock g acc hacc, fun sender => ?_⟩⟩
  exact ⟨hw.sweep_iff hacc (hpool.mp hfrozen) sender, fun w' => World.sweep_thaws⟩

namespace Sample

/-- The challenge of the executing project is upheld, and the grace window is over. -/
def restituted : List Action :=
  executing 1000000 100000 ++ court ++ [.transaction 3 [challenge]] ++ voting ++
  [.transaction 3 [resolution], .tick 1209600000]

end Sample

/-- The freeze after an UPHELD verdict can be ended. -/
theorem freeze_follows_pool_restituted : ∃ w acc,
    (World.genesis 0).run Sample.restituted = .ok w ∧ w.accumulators.get? 8 = some acc ∧
    acc.wrappingFrozen = true ∧ 0 < acc.compensationPool ∧
    Succeeds (w.call 3 (.accumulator (.sweepCompensation 8))) := by
  have hrun : returns ((World.genesis 0).run Sample.restituted) (fun w =>
      (w.accumulators.get? 8).any fun acc => acc.wrappingFrozen = true ∧
        acc.compensationUnlockMs ≤ w.clockMs ∧
        acc.dustBound + acc.unwrapped / scale + 1 ≤ maxU64) = true := by
    decide +kernel
  obtain ⟨w, hw, hq⟩ := returns_iff.mp hrun
  obtain ⟨acc, hacc, hq⟩ := (Option.any_eq_true _ _).mp hq
  obtain ⟨hfrozen, hdue, hroom⟩ := of_decide_eq_true hq
  -- no call of the run releases coverage, so each of them obeys the rule
  have hpath : (World.genesis 0).Path .coverageHeld w := by
    refine World.Path.of_run_rule ?_ hw
    simp [Sample.restituted, Sample.executing, Sample.vouched, Sample.court, Sample.voting,
      Sample.challenge, Sample.resolution, Action.Obeys, CallRule.coverageHeld]
  obtain ⟨hpool, hsweep⟩ := freeze_follows_pool hpath hacc
  exact ⟨w, acc, hw, hacc, hfrozen, hpool.mp hfrozen,
    ((hsweep hfrozen).2 3).1.mpr ⟨hdue, Or.inr hroom⟩⟩

/-- The coverage is released before the verdict: wrapping is frozen and there is nothing to
    sweep, whatever the time. -/
theorem uncovered_verdict_freezes : ∃ w acc, Reachable w ∧ w.accumulators.get? 8 = some acc ∧
    acc.wrappingFrozen = true ∧ acc.compensationPool = 0 ∧
    ∀ sender now, ¬ Succeeds
      (World.call { w with clockMs := now } sender (.accumulator (.sweepCompensation 8))) := by
  have hrun : Sample.trial (Sample.operational 1000000 100000 ++ Sample.court)
      (.transaction 3 [.asset (.releaseVouchCoverage 4 2)] :: Sample.voting)
      (fun _ _ _ w => (w.accumulators.get? 8).any fun acc => acc.wrappingFrozen = true ∧
        acc.compensationPool = 0) = true := by
    decide +kernel
  obtain ⟨w₀, w₁, w₂, w, h₀, h₁, h₂, h₃, hq⟩ := Sample.trial_iff.mp hrun
  obtain ⟨acc, hacc, hq⟩ := (Option.any_eq_true _ _).mp hq
  -- the coverage was released between the challenge and the verdict, which finds none to slash
  obtain ⟨hfrozen, hpool⟩ := of_decide_eq_true hq
  have hw : Reachable w := ((Reachable.call ⟨0, _, h₀⟩ h₁).run h₂).call h₃
  refine ⟨w, acc, hw, hacc, hfrozen, hpool, fun sender now => ?_⟩
  intro ⟨w', h⟩
  cases World.callAccumulator_eq_ok.mp h with
  | sweepCompensation hacc' _ positive =>
    obtain rfl := Option.some.inj (hacc'.symm.trans hacc)
    omega

/-! ## The window -/

/-- Nobody sweeps the compensation pool of `g`. -/
def CallRule.unswept (g : ID) : CallRule := fun _ _ c => c ≠ .accumulator (.sweepCompensation g)

/-- What was taken in is still there, frozen, and not due before `time`. -/
structure GlobalYieldAccumulator.Holds (acc : GlobalYieldAccumulator) (funds time : ℕ) : Prop where
  pool : funds ≤ acc.compensationPool
  frozen : acc.wrappingFrozen = true
  unlock : time ≤ acc.compensationUnlockMs

/-- Without a sweep a call leaves an intake where it is. -/
theorem World.call_holds {w w' : World} {sender : Address} (hf : w.Fresh) {c : Call}
    (h : w.call sender c = .ok w') {g : ID} (hrule : CallRule.unswept g w sender c)
    {acc : GlobalYieldAccumulator} (hacc : w.accumulators.get? g = some acc) {funds time : ℕ}
    (hholds : acc.Holds funds time) :
    ∃ acc', w'.accumulators.get? g = some acc' ∧ acc'.Holds funds time := by
  obtain ⟨acc', hacc', htouch⟩ := World.call_touchAcc hf h g acc hacc
  obtain rfl := Store.key_of_get? hacc
  refine ⟨acc', hacc', ?_⟩
  obtain ⟨hpool, hfrozen, hunlock⟩ := hholds
  -- only a sweep takes from the pool or lifts the freeze
  cases htouch.restitution with
  | same parked =>
    exact ⟨parked.pool.symm ▸ hpool, parked.frozen.trans hfrozen, parked.unlock.symm ▸ hunlock⟩
  | intake _ _ eq =>
    rw [eq]
    exact ⟨Nat.le_trans hpool (Nat.le_add_right _ _), rfl,
      Nat.le_trans hunlock (Nat.le_max_left _ _)⟩
  | sweep call => exact absurd call hrule

/-- As long as nobody sweeps it, a restitution holds what it holds until its time. -/
theorem World.Path.holds {w w' : World} (hw : Reachable w) {g : ID} (h : w.Path (.unswept g) w')
    {acc : GlobalYieldAccumulator} (hacc : w.accumulators.get? g = some acc) {funds time : ℕ}
    (hholds : acc.Holds funds time) :
    ∃ acc', w'.accumulators.get? g = some acc' ∧ acc'.Holds funds time := by
  refine h.preserves (P := fun u => ∃ x, u.accumulators.get? g = some x ∧ x.Holds funds time) hw
    ⟨acc, hacc, hholds⟩ ?_ fun _ hP _ => hP
  intro u sender c u' hu hP hrule hcall
  obtain ⟨x, hx, hxholds⟩ := hP
  exact World.call_holds hu.fresh hcall hrule hx hxholds

/-- What an intake puts into the pool is not due before its own grace window is over. -/
theorem World.call_intake {w w' : World} {sender : Address} (hf : w.Fresh) {c : Call}
    (h : w.call sender c = .ok w') {g : ID} {acc acc' : GlobalYieldAccumulator}
    (hacc : w.accumulators.get? g = some acc) (hacc' : w'.accumulators.get? g = some acc')
    (hintake : acc.compensationPool < acc'.compensationPool) :
    acc'.Holds acc'.compensationPool (w.clockMs + w.config.compensationGraceMs) := by
  obtain ⟨x, hx, htouch⟩ := World.call_touchAcc hf h g acc hacc
  obtain rfl := Option.some.inj (hx.symm.trans hacc')
  cases htouch.restitution with
  | same parked => exact absurd parked.pool (Nat.ne_of_gt hintake)
  | intake _ _ eq =>
    rw [eq]
    exact ⟨Nat.le_refl _, rfl, Nat.le_max_right _ _⟩
  | sweep _ _ pool =>
    rw [pool] at hintake
    exact absurd hintake (Nat.not_lt_zero _)

/-- Nothing is wrapped with a frozen accumulator. -/
theorem World.frozen_no_wrap {w : World} {g : ID} {acc : GlobalYieldAccumulator}
    (hacc : w.accumulators.get? g = some acc) (hfrozen : acc.wrappingFrozen = true)
    (sender : Address) (s : ID) : ¬ Succeeds (w.call sender (.accumulator (.wrapShares g s))) := by
  intro ⟨w', h⟩
  cases World.callAccumulator_eq_ok.mp h with
  | wrapShares hacc' _ _ guards =>
    obtain rfl := Option.some.inj (hacc'.symm.trans hacc)
    exact absurd guards.unfrozen (by simp [hfrozen])

/-- Between an intake, at a time and under a grace parameter of its own, and the next sweep,
    whatever else happens in between: what was taken in stays in the pool, no sweep succeeds
    before the grace window is over, nothing is wrapped, and every positive coin can be
    unwrapped for which the dust counter has room. -/
theorem grace_window {w₀ w₁ w₂ : World} (hw : Reachable w₀) {s : Address} {c : Call}
    (h : w₀.call s c = .ok w₁) {g : ID} {acc₀ acc₁ : GlobalYieldAccumulator}
    (hacc₀ : w₀.accumulators.get? g = some acc₀) (hacc₁ : w₁.accumulators.get? g = some acc₁)
    (hintake : acc₀.compensationPool < acc₁.compensationPool)
    (hpath : w₁.Path (.unswept g) w₂) :
    ∃ acc₂, w₂.accumulators.get? g = some acc₂ ∧
      acc₁.compensationPool ≤ acc₂.compensationPool ∧
      (∀ sender, Succeeds (w₂.call sender (.accumulator (.sweepCompensation g))) →
        w₀.clockMs + w₀.config.compensationGraceMs ≤ w₂.clockMs) ∧
      (∀ sender k, ¬ Succeeds (w₂.call sender (.accumulator (.wrapShares g k)))) ∧
      ∀ k coin, w₂.coins.get? k = some coin → coin.token = acc₂.treasuryCap.token →
        0 < coin.value → acc₂.dustBound + acc₂.sweepDust coin ≤ maxU64 →
        Succeeds (w₂.call (w₂.owner .coin k) (.accumulator (.unwrapCoins g k))) := by
  have hw₁ := hw.call h
  have hw₂ := hpath.reachable hw₁
  obtain ⟨acc₂, hacc₂, hholds⟩ :=
    hpath.holds hw₁ hacc₁ (World.call_intake hw.fresh h hacc₀ hacc₁ hintake)
  refine ⟨acc₂, hacc₂, hholds.pool, fun sender hsweep => ?_,
    World.frozen_no_wrap hacc₂ hholds.frozen, (hw₂.exitsOpen hacc₂).unwrapCoins⟩
  -- a sweep of a filled pool succeeds only from the unlock time on
  have hpos : 0 < acc₂.compensationPool :=
    Nat.lt_of_lt_of_le (Nat.zero_lt_of_lt hintake) hholds.pool
  exact Nat.le_trans hholds.unlock ((hw₂.sweep_iff hacc₂ hpos sender).mp hsweep).1

/-! ## The witness and the counterexample -/

namespace Sample

/-- The configuration of the court: a quorum of one. -/
def courtConfig : ProtocolConfig := { ProtocolConfig.init 0 0 with juryQuorum := 1 }

/-- The large project once dispute 11 got its vote; the investor holds deed 12 of all units. -/
def trialStart : List Action :=
  operational 3000000000 300000000 ++ court ++
  [.transaction 3 [challenge, .asset (.claimShares 4 8 6)],
   .transaction 4 [.dispute (.voteOnDispute 11 9 10 true)], .tick 10000000]

/-- What the court finds: the project, the frozen pool behind it and one vote for guilty. -/
structure Charged (w : World) : Prop where
  asset : (w.assets.get? 4).any (fun asset => asset.state = .operational ∧ asset.id = 4 ∧
    asset.entity = 2 ∧ asset.revenueSplitBps = 5000 ∧ asset.coverageLocked = 600000000) = true
  pool : (w.pools.get? 2).any (fun pool => pool.id = 2 ∧ pool.status = .frozen ∧
    pool.stake = 20000000000) = true
  dispute : (w.disputes.get? 11).any (fun dispute => dispute.status = .opened ∧
    dispute.votesGuilty = 1 ∧ dispute.votesInnocent = 0 ∧ dispute.votingDeadlineMs = 604800000 ∧
    dispute.targetPoolId = 2 ∧ dispute.assetId = 4 ∧ dispute.accumulatorId = 8 ∧
    dispute.bond = 1000000000) = true
  config : w.config = courtConfig

/-- The large project on trial, with dust bound `d`. -/
structure OnTrial (w : World) (d : ℕ) : Prop where
  reachable : Reachable w
  charged : Charged w
  acc : w.accumulators.get? 8 = some (idleAcc d)
  share : w.shares.get? 12 = some ⟨12, 4, 3000000000, 0, 0⟩
  owner : w.owner .share 12 = 3
  clock : w.clockMs = 10000000
  funds : 100 ≤ w.wallets.balance 2

/-- The trial of the sample is reached by a run. -/
theorem trial_start : ∃ w, OnTrial w 0 := by
  have hrun : returns ((World.genesis 0).run trialStart) (fun w =>
      ((w.assets.get? 4).any fun asset => asset.state = .operational ∧ asset.id = 4 ∧
        asset.entity = 2 ∧ asset.revenueSplitBps = 5000 ∧ asset.coverageLocked = 600000000) ∧
      w.accumulators.get? 8 = some (idleAcc 0) ∧
      w.shares.get? 12 = some ⟨12, 4, 3000000000, 0, 0⟩ ∧ w.owner .share 12 = 3 ∧
      ((w.pools.get? 2).any fun pool => pool.id = 2 ∧ pool.status = .frozen ∧
        pool.stake = 20000000000) ∧
      ((w.disputes.get? 11).any fun dispute => dispute.status = .opened ∧
        dispute.votesGuilty = 1 ∧ dispute.votesInnocent = 0 ∧
        dispute.votingDeadlineMs = 604800000 ∧ dispute.targetPoolId = 2 ∧ dispute.assetId = 4 ∧
        dispute.accumulatorId = 8 ∧ dispute.bond = 1000000000) ∧
      w.config = courtConfig ∧ w.clockMs = 10000000 ∧ 100 ≤ w.wallets.balance 2) = true := by
    decide +kernel
  obtain ⟨w, hw, hq⟩ := returns_iff.mp hrun
  obtain ⟨hasset, hacc, hshare, howner, hpool, hdispute, hconfig, hclock, hfunds⟩ :=
    of_decide_eq_true hq
  exact ⟨w, ⟨0, _, hw⟩, ⟨hasset, hpool, hdispute, hconfig⟩, hacc, hshare, howner, hclock, hfunds⟩

variable {w : World} {d : ℕ}

/-- A charged world is a large one. -/
theorem Charged.large (h : Charged w) : Large w where
  asset := by
    obtain ⟨asset, hasset, hq⟩ := (Option.any_eq_true _ _).mp h.asset
    obtain ⟨hstate, hid, hentity, hsplit, -⟩ := of_decide_eq_true hq
    rw [hasset]
    simp [hstate, hid, hentity, hsplit]
  version := by rw [h.config]; rfl
  unpaused := by rw [h.config]; rfl
  fee := by rw [h.config]; rfl
  cooldown := by rw [h.config]; rfl

/-- Any number of idle deposits can be made during the trial. -/
theorem OnTrial.deposits (h : OnTrial w d) (n : ℕ) (hd : d + 4 * n ≤ maxU64) :
    ∃ w', OnTrial w' (d + 4 * n) := by
  -- each deposit of one unit raises the dust bound by four and comes back to the entity
  induction n with
  | zero => exact ⟨w, h⟩
  | succ n ih =>
    obtain ⟨u, hu⟩ := ih (by omega)
    have hfunds : 1 ≤ u.wallets.balance 2 := Nat.le_trans (by decide) hu.funds
    obtain ⟨wallets, events, hcall, hback⟩ :=
      hu.charged.large.deposit 1 (Or.inl ⟨rfl, rfl⟩) hu.acc rfl
      (idleAcc_deposited (by omega)) hfunds
    rw [Nat.mul_succ, ← Nat.add_assoc]
    exact ⟨_, { hu with
      reachable := hu.reachable.call hcall
      acc := Store.get?_put_self _ (idleAcc (d + 4 * n + 4))
      charged := { hu.charged with }
      funds := by rw [hback rfl]; exact hu.funds }⟩

/-- The accumulator of the large project after the verdict. -/
def compensatedAcc (d : ℕ) : GlobalYieldAccumulator :=
  (wrappedAcc d 49).compensated 540000000 1209600000

/-- The verdict is UPHELD. -/
theorem Charged.uphold (h : Charged w) (hacc : w.accumulators.get? 8 = some (wrappedAcc d 49))
    (hclock : w.clockMs = 604800000) : ∃ w', w.call 3 resolution = .ok w' ∧
      w'.accumulators.get? 8 = some (compensatedAcc d) ∧ w'.coins = w.coins := by
  obtain ⟨asset, hasset, hq⟩ := (Option.any_eq_true _ _).mp h.asset
  obtain ⟨hstate, hid, -, -, hcoverage⟩ := of_decide_eq_true hq
  obtain ⟨pool, hpool, hq⟩ := (Option.any_eq_true _ _).mp h.pool
  obtain ⟨hpid, hfrozen, hstake⟩ := of_decide_eq_true hq
  obtain ⟨dispute, hdispute, hq⟩ := (Option.any_eq_true _ _).mp h.dispute
  obtain ⟨hopen, hguilty, hinnocent, hdue, htarget, hassetId, haccId, hbond⟩ := of_decide_eq_true hq
  -- a tenth of the coverage
  have hbounty : w.config.bounty asset.coverageLocked = 60000000 := by
    rw [h.config, hcoverage]
    rfl
  have hseizable : asset.seizable = 0 := if_neg (by simp [hstate])
  have hvotes : dispute.totalVotes = 1 := by rw [Dispute.totalVotes, hguilty, hinnocent]
  have hunlock : w.clockMs + w.config.compensationGraceMs = 1209600000 := by
    rw [h.config, hclock]
    rfl
  have guards : ResolveGuards dispute pool asset (wrappedAcc d 49) w.config w.clockMs := {
    version := by rw [h.config]; rfl
    opened := hopen
    due := Nat.le_of_eq (hdue.trans hclock.symm)
    pool := hpid.trans htarget.symm
    asset := hid.trans hassetId.symm
    acc := haccId.symm
    votes := by rw [hguilty, hinnocent]; simp [maxU64] }
  have uphold : UpholdGuards dispute pool asset (wrappedAcc d 49) w.config w.clockMs := {
    frozen := hfrozen
    stake := by rw [hcoverage, hstake]; decide
    bountyFits := by rw [hbounty]; simp [maxU64]
    bounty := by rw [hbounty, hcoverage]; decide
    reward := by rw [hbounty, hbond]; simp [maxU64]
    unlock := by rw [hunlock]; simp [maxU64]
    seized := by rw [hseizable]; exact Nat.zero_le _
    funds := by rw [hbounty, hcoverage, hseizable]; simp [maxU64]
    pool := by rw [hbounty, hcoverage, hseizable]; simp [wrappedAcc, idleAcc, maxU64] }
  have decides := Decides.upheld (by rw [h.config, hvotes]; decide)
    (by rw [h.config, hvotes, hguilty]; decide) uphold
  refine ⟨_, World.callDispute_eq_ok.mpr (.resolveDispute hdispute hpool hasset hacc guards decides
    (resolveDispute_eq_ok.mpr ⟨guards, _, decides, rfl⟩)), ?_, rfl⟩
  have hfinal : (upheldVerdict dispute pool asset (wrappedAcc d 49) w.config w.clockMs).acc =
      compensatedAcc d := by
    simp only [upheldVerdict, hbounty, hseizable, hunlock, compensatedAcc]
    rw [hcoverage]
  rw [hfinal]
  exact Store.get?_put_self _ (compensatedAcc d)

/-- Everything is wrapped, a deposit fills the reserve, and time passes until the verdict. -/
theorem OnTrial.reserve (h : OnTrial w d) : ∃ u k, Reachable u ∧ Charged u ∧
    u.clockMs = 604800000 ∧ u.accumulators.get? 8 = some (wrappedAcc d 49) ∧
    u.coins.get? k = some ⟨k, 7, 3000000000⟩ := by
  have hlarge := h.charged.large
  obtain ⟨u, hwrap, hsame, hacc, hcoin, hkept⟩ :=
    hlarge.wrap h.acc h.share h.owner (by rw [h.clock]; decide)
  obtain ⟨wallets, events, hdeposit, -⟩ := (hsame.large hlarge).deposit 100 (Or.inr ⟨rfl, rfl⟩)
    hacc rfl (wrappedAcc_deposited d) (hkept.symm ▸ h.funds)
  -- the clock moves to the deadline; nothing else depends on it
  have hreach := (h.reachable.call hwrap).call hdeposit
  have hle : u.clockMs ≤ (604800000 : U64).val := by rw [hsame.clock, h.clock]; decide
  have hcharged : Charged u := {
    asset := hsame.assets ▸ h.charged.asset
    pool := hsame.pools ▸ h.charged.pool
    dispute := hsame.disputes ▸ h.charged.dispute
    config := hsame.config.trans h.charged.config }
  exact ⟨_, w.nextId, hreach.tick hle, { hcharged with }, rfl,
    Store.get?_put_self _ (wrappedAcc d 49), hcoin⟩

end Sample

/-- The window after an UPHELD verdict. -/
theorem grace_window_restituted : ∃ (w₀ w₂ : World) (acc₂ : GlobalYieldAccumulator), Reachable w₀ ∧
    w₂.accumulators.get? 8 = some acc₂ ∧ 0 < acc₂.compensationPool ∧
    ∀ sender k, ¬ Succeeds (w₂.call sender (.accumulator (.wrapShares 8 k))) := by
  have hrun : Sample.trial (Sample.executing 1000000 100000 ++ Sample.court) Sample.voting
      (fun _ _ w₂ w₃ => (w₂.accumulators.get? 8).any (·.compensationPool = 0) &&
        (w₃.accumulators.get? 8).any (0 < ·.compensationPool)) = true := by
    decide +kernel
  obtain ⟨w₀, w₁, w₂, w₃, h₀, h₁, h₂, h₃, hq⟩ := Sample.trial_iff.mp hrun
  simp only [Bool.and_eq_true, Option.any_eq_true, decide_eq_true_eq] at hq
  obtain ⟨⟨acc, hacc, hzero⟩, acc', hacc', hpos⟩ := hq
  have hw₂ : Reachable w₂ := (Reachable.call ⟨0, _, h₀⟩ h₁).run h₂
  obtain ⟨acc₂, hacc₂, hle, -, hwrap, -⟩ :=
    grace_window hw₂ h₃ hacc hacc' (hzero ▸ hpos) (.refl w₃)
  exact ⟨w₂, w₃, acc₂, hw₂, hacc₂, Nat.lt_of_lt_of_le hpos hle, hwrap⟩

/-- With a dust counter three below its maximum an intake is followed by an unwrap that aborts,
    whoever tries it. -/
theorem grace_unwrap_aborts : ∃ (w₀ w₁ : World) (acc₀ acc₁ : GlobalYieldAccumulator)
    (coin : TokenCoin),
    Reachable w₀ ∧ w₀.call 3 Sample.resolution = .ok w₁ ∧ w₀.accumulators.get? 8 = some acc₀ ∧
    w₁.accumulators.get? 8 = some acc₁ ∧ acc₀.compensationPool < acc₁.compensationPool ∧
    w₁.coins.get? coin.id = some coin ∧ coin.token = acc₁.treasuryCap.token ∧ 0 < coin.value ∧
    ∀ sender, ¬ Succeeds (w₁.call sender (.accumulator (.unwrapCoins 8 coin.id))) := by
  -- as many deposits as bring the dust bound to three below its maximum
  obtain ⟨n, hn⟩ : ∃ n, 0 + 4 * n = maxU64 - 3 := ⟨4611686018427387903, by simp [maxU64]⟩
  obtain ⟨w, hw⟩ := Sample.trial_start
  obtain ⟨v, hv⟩ := hw.deposits n (hn ▸ Nat.sub_le _ _)
  rw [hn] at hv
  obtain ⟨u, k, hreach, hcharged, hclock, hacc, hcoin⟩ := hv.reserve
  obtain ⟨u', hcall, hacc', hcoins⟩ := hcharged.uphold hacc hclock
  have hcoin' : u'.coins.get? k = some ⟨k, 7, 3000000000⟩ := hcoins ▸ hcoin
  refine ⟨u, u', _, _, ⟨k, 7, 3000000000⟩, hreach, hcall, hacc, hacc', by decide, hcoin', rfl,
    show 0 < 3000000000 by decide, ?_⟩
  rintro sender ⟨_, h⟩
  cases World.callAccumulator_eq_ok.mp h with
  | unwrapCoins hacc₁ _ hcoin₁ _ _ hsweep =>
    obtain rfl := Option.some.inj (hacc₁.symm.trans hacc')
    obtain rfl := Option.some.inj (hcoin₁.symm.trans hcoin')
    rcases hsweep with ⟨-, hsweep⟩ | ⟨hidle, -⟩
    · -- the sweep needs room for four
      have hdust := (sweepRolloverInternal_eq_ok.mp hsweep).1.dust
      simp [Sample.compensatedAcc, GlobalYieldAccumulator.compensated, Sample.wrappedAcc,
        Sample.idleAcc, GlobalYieldAccumulator.afterBurn, GlobalYieldAccumulator.unwrapped, scale,
        maxU64] at hdust
    -- the reserve is filled and the coin unwraps, so the sweep is not skipped
    · exact hidle ⟨show 0 < 49 by decide,
        show 0 < 3000000000 - (3000000000 - 3000000000) by decide⟩

end Gally

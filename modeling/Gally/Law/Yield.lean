import Gally.Chain.Custody
import Gally.Engine.Refinement

/-!
# The yield index pays what it owes

Solvency of the lazy index, conservation of the units, and the refinement of the
eager ledger, for every run of an engine and for every accumulator of a reachable
chain. The two levels meet in `Reachable.replay`: the engine of an accumulator is
always the result of a run from the engine its finalization created.

## Key results

- `yield_index_solvent`: entitlements are covered, and all payouts at once are funded
- `units_conserved`: receipts, deeds, coins and the counters agree
- `lazy_index_refines_eager`: the coins the calls return follow the exact rational shares
-/

namespace Gally

open Checked

/-! ## The pool is a balance -/

/-- The reward pool is a `u64`. -/
def Engine.PoolFits (e : Engine) : Prop := e.acc.rewardPool ≤ maxU64

/-- A move of the engine keeps the pool within 64 bits. -/
theorem Engine.PoolFits.move {e e' : Engine} {h : List Record} (hf : e.PoolFits)
    (m : Move e h e') : e'.PoolFits := by
  unfold Engine.PoolFits at hf ⊢
  cases m with
  | rebook hacc => exact hacc.rewardPool ▸ hf
  | settle => exact Nat.le_trans (Nat.sub_le _ _) hf
  | advance guards => exact guards.pool
  | sweepDust => exact Nat.zero_le _
  | _ => exact hf

/-- A new engine has an empty pool. -/
theorem Engine.PoolFits.initial {e : Engine} (hi : e.Initial) : e.PoolFits := by
  obtain ⟨_, _, _, _, hacc⟩ := hi.created
  obtain ⟨-, heq⟩ := newAccumulator_eq_ok.mp hacc
  rw [PoolFits, heq]
  exact Nat.zero_le _

/-! ## Replaying the chain -/

/-- The engine is the result of a run from the state a finalization creates. -/
def Engine.Replays (e : Engine) : Prop := ∃ e₀ ops, Engine.Initial e₀ ∧ e₀.run ops = .ok e

/-- A successful operation keeps an engine replayable. -/
theorem Engine.Replays.apply {e e' : Engine} (h : e.Replays) (op : EngineOp)
    {payouts : List Payout} (hop : e.apply op = .ok (e', payouts)) : e'.Replays := by
  obtain ⟨e₀, ops, hi, hr⟩ := h
  have hstep : e.step op = .ok e' := Engine.step_eq_ok.mpr ⟨payouts, hop⟩
  exact ⟨e₀, ops ++ [op], hi, Run.exec_snoc_eq_ok.mpr ⟨e, hr, hstep⟩⟩

/-- Parking funds is an operation of the engine. -/
theorem Engine.Replays.compensated {e : Engine} (h : e.Replays) {funds unlockMs : ℕ}
    (fits : e.acc.compensationPool + funds ≤ maxU64) :
    Engine.Replays { e with acc := e.acc.compensated funds unlockMs } :=
  h.apply _ (Engine.apply_eq_ok.mpr (.addToCompensationPool fits))

/-- A step of a sound site replays its engine. -/
theorem Site.Step.replays {s s' : Site} (hsound : s'.Sound) (h : Site.Step s s')
    (hr : ∀ e, s.engine = some e → e.Replays) : ∀ e, s'.engine = some e → e.Replays := by
  intro e' he'
  cases h with
  | finalize guards acc receipts shares coins =>
    obtain rfl := Option.some.inj he'
    have ht := hsound.tied _ rfl
    refine ⟨_, [], ?_, Run.exec_nil_eq_ok.mpr rfl⟩
    -- the engine starts here: deeds none, receipts the whole goal
    have hunits := ht.balanced.units
    exact {
      created := ⟨_, _, _, _, newAccumulator_eq_ok.mpr ⟨guards.virgin, acc⟩⟩
      receipts := ht.balanced.receipts
      units := by
        rw [acc] at hunits ⊢
        simpa [Engine.deedUnits, shares, Asset.newAccumulator] using hunits
      shares, coins }
  | uphold he guards =>
    obtain rfl := Option.some.inj he'
    exact (hr _ he).compensated guards.pool
  | default he guards =>
    obtain rfl := Option.some.inj he'
    exact (hr _ he).compensated guards.pool
  | close he =>
    obtain rfl := Option.some.inj he'
    exact (hr _ he).apply .markClosed rfl
  | exchange he _ run =>
    obtain rfl := Option.some.inj he'
    exact (hr _ he).apply _ run
  | _ => exact hr e' he'

/-- The chain replays every engine. -/
theorem Reachable.replay {w : World} (hw : Reachable w) {g : ID} {acc : GlobalYieldAccumulator}
    (hacc : w.accumulators.get? g = some acc) : (w.engine acc).Replays := by
  suffices h : ∀ a asset, w.assets.get? a = some asset →
      ∀ e, (w.site asset).engine = some e → e.Replays by
    obtain ⟨asset, hasset, hg⟩ := hw.linked.asset hacc
    exact h _ asset hasset _ (World.site_engine hg hacc)
  intro a asset hasset
  exact (hw.site_induct (P := fun s => s.Sound ∧ ∀ e, s.engine = some e → e.Replays)
    (fun _ h => ⟨.listed h, by simp⟩)
    (fun h hs => ⟨h.1.step hs, hs.replays (h.1.step hs) h.2⟩) hasset).2

/-- Every engine that a run reaches is balanced and solvent, with a pool of 64 bits. -/
theorem Engine.Replays.sound {e : Engine} (h : e.Replays) :
    e.Balanced ∧ e.Solvent ∧ e.PoolFits := by
  obtain ⟨e₀, ops, hi, hr⟩ := h
  refine run_preserves (P := fun e => e.Balanced ∧ e.Solvent ∧ e.PoolFits)
    (fun hP m => ⟨hP.1.move m, Solvent.move hP.1 hP.2.1 m, hP.2.2.move m⟩) ?_ hr
  exact ⟨.initial hi, .initial hi, .initial hi⟩

/-! ## A project from listing to revenue

The concrete runs of this development are variations of one project. Address 0
publishes the package, address 1 registers pool 2 with capability 3, the entity 2 lists
asset 4 with capability 5, and address 3 invests for receipt 6; the token is 7, the
accumulator 8. -/

namespace Sample

def evidence : WalrusRef := ⟨[], [], 0⟩

def listing (goal : U64) : Listing where
  fundingGoal := goal
  fundingDeadlineMs := 1000
  trancheAmounts := [goal]
  trancheDescriptions := [[]]
  trancheDeadlinesMs := [2000]
  revenueSplitBps := 5000
  name := []
  ticker := []
  category := 0
  location := []
  entityName := []
  metadataBlobId := []
  metadataSha256 := []

/-- USDC for everyone, a validator, and the listing vouched for. -/
def vouched (goal collateral : U64) : List Action :=
  [.transaction 0 [.framework (.mintUsdc 1 20000000000), .framework (.mintUsdc 2 10000000000),
    .framework (.mintUsdc 3 10000000000)],
   .transaction 1 [.validator (.registerValidator 20000000000 [])],
   .transaction 2 [.asset (.createAsset (listing goal) collateral)],
   .transaction 1 [.asset (.vouchAssetLegals 4 2 3 [evidence])]]

/-- The raise is met, the token published, and the raise finalized. -/
def executing (goal collateral : U64) : List Action :=
  vouched goal collateral ++
  [.transaction 3 [.asset (.contributeCapital 4 goal)],
   .transaction 2 [.framework (.publishToken 6)],
   .transaction 2 [.asset (.finalizeSuccessfulRaise 4 7)]]

/-- The only tranche is proved and approved. -/
def approved (goal collateral : U64) : List Action :=
  executing goal collateral ++
  [.transaction 2 [.asset (.submitMilestoneProof 4 5 0 evidence)],
   .transaction 1 [.asset (.approveMilestone 4 2 3 0)]]

/-- The tranche is released: the asset is operational. -/
def operational (goal collateral : U64) : List Action :=
  approved goal collateral ++ [.transaction 2 [.asset (.releaseFundingTranche 4 5 0)]]

/-- The investor holds deed 9 and the entity deposits revenue. -/
def earning : List Action :=
  operational 1000000 100000 ++
  [.transaction 3 [.asset (.claimShares 4 8 6)],
   .transaction 2 [.asset (.depositRevenue 4 8 100)]]

end Sample

/-! ## Solvency -/

/-- Every entitlement is covered: the scaled entitlements by the scaled reward pool, and
    the `pending_payout`s, none of which aborts, by the reward pool. -/
structure Engine.Pays (e : Engine) : Prop where
  owed : e.owed ≤ scale * e.acc.rewardPool
  pending : ∀ share ∈ e.shares, pendingPayout e.acc share = .ok (e.acc.payout share)
  payouts : e.shares.sum e.acc.payout ≤ e.acc.rewardPool

/-- A balanced and solvent engine computes every pending payout without an overflow. -/
theorem Engine.Balanced.pending {e : Engine} (hb : e.Balanced) (hs : e.Solvent) (hf : e.PoolFits)
    {share : GallyShare} (hshare : share ∈ e.shares) :
    pendingPayout e.acc share = .ok (e.acc.payout share) ∧
      e.acc.entitlement share ≤ maxU128 ∧ e.acc.payout share ≤ maxU64 ∧
      e.acc.payout share ≤ e.acc.rewardPool := by
  have howed : e.acc.entitlement share ≤ scale * e.acc.rewardPool :=
    Nat.le_trans (Store.le_sum hshare e.acc.entitlement) hs
  have hpaid : e.acc.payout share ≤ e.acc.rewardPool :=
    Nat.le_trans (Store.le_sum hshare e.acc.payout) (payouts_le hs)
  have hprod : e.acc.entitlement share ≤ maxU128 :=
    calc e.acc.entitlement share
      _ ≤ scale * e.acc.rewardPool := howed
      _ ≤ scale * (4 * maxU64) := Nat.mul_le_mul_left scale (Nat.le_trans hf (by omega))
      _ ≤ maxU128 := scale_mul_maxU64_le
  have hfits := Nat.le_trans hpaid hf
  exact ⟨pendingPayout_eq_ok.mpr ⟨hb.snapshots share hshare, hprod, hfits, rfl⟩, hprod, hfits,
    hpaid⟩

/-- Every engine that a run reaches can pay what it owes. -/
theorem Engine.Replays.pays {e : Engine} (h : e.Replays) : e.Pays := by
  obtain ⟨hb, hs, hf⟩ := h.sound
  exact ⟨hs, fun share hshare => (hb.pending hs hf hshare).1, payouts_le hs⟩

/-- Solvency of the lazy index: after any interleaving of the operations from a
    finalization on, and for every accumulator of every reachable chain. -/
theorem yield_index_solvent :
    (∀ (e e' : Engine) (ops : List EngineOp), e.Initial → e.run ops = .ok e' → e'.Pays) ∧
    ∀ (w : World) (g : ID) (acc : GlobalYieldAccumulator), Reachable w →
      w.accumulators.get? g = some acc → (w.engine acc).Pays :=
  ⟨fun e _ ops hi hr => Engine.Replays.pays ⟨e, ops, hi, hr⟩,
    fun _ _ _ hw hacc => (hw.replay hacc).pays⟩

/-- An accumulator that owes its only deed 49 raw units. -/
theorem yield_index_solvent_earning : ∃ w acc,
    (World.genesis 0).run Sample.earning = .ok w ∧ w.accumulators.get? 8 = some acc ∧
      (w.engine acc).owed = scale * 49 ∧ (w.engine acc).Pays := by
  have hrun : returns ((World.genesis 0).run Sample.earning) (fun w =>
      (w.accumulators.get? 8).any fun acc => (w.engine acc).owed = scale * 49) = true := by
    decide +kernel
  obtain ⟨w, hw, hq⟩ := returns_iff.mp hrun
  obtain ⟨acc, hacc, howed⟩ := (Option.any_eq_true _ _).mp hq
  exact ⟨w, acc, hw, hacc, of_decide_eq_true howed,
    yield_index_solvent.2 w 8 acc ⟨0, _, hw⟩ hacc⟩

/-! ## Conservation of units -/

/-- The units of the engine in all their forms. -/
def Engine.units (e : Engine) : ℕ := e.deedUnits + e.receiptUnits + e.coinUnits

/-- The supply identities, and the subtractions that rely on them. -/
structure Engine.Conserved (e : Engine) : Prop where
  minted : e.deedUnits + e.receiptUnits + e.acc.totalWrappedShares = e.acc.totalMintedShares
  coins : e.coinUnits = e.acc.totalWrappedShares
  supply : e.acc.treasuryCap.totalSupply = e.acc.totalWrappedShares
  wrapped : e.acc.totalWrappedShares ≤ e.acc.totalMintedShares
  snapshots : ∀ share ∈ e.shares, share.yieldClaimedIndex ≤ e.acc.cumulativeYieldIndex
  unwrappedSupply : Succeeds (unwrappedSupply e.acc)
  pendingPayout : ∀ share ∈ e.shares,
    Succeeds (sub e.acc.cumulativeYieldIndex share.yieldClaimedIndex)
  redeemShare : ∀ share ∈ e.shares, Succeeds (sub e.acc.totalMintedShares share.shareCount)
  unwrapCoins : ∀ coin ∈ e.coins, Succeeds (e.acc.treasuryCap.burn coin.value) ∧
    Succeeds (sub e.acc.totalWrappedShares coin.value)

/-- A deed is part of what is minted. -/
theorem Engine.Balanced.shareCount_le {e : Engine} (hb : e.Balanced) {share : GallyShare}
    (hshare : share ∈ e.shares) : share.shareCount ≤ e.acc.totalMintedShares := by
  have hle : share.shareCount ≤ e.deedUnits := Store.le_sum hshare GallyShare.shareCount
  have hunits := hb.units
  omega

/-- A coin is part of what is wrapped. -/
theorem Engine.Balanced.value_le {e : Engine} (hb : e.Balanced) {coin : TokenCoin}
    (hcoin : coin ∈ e.coins) :
    coin.value ≤ e.acc.treasuryCap.totalSupply ∧ coin.value ≤ e.acc.totalWrappedShares := by
  have hle : coin.value ≤ e.coinUnits := Store.le_sum hcoin TokenCoin.value
  have hcoins := hb.coins
  have hwrapped := hb.wrapped
  omega

/-- A balanced engine conserves its units. -/
theorem Engine.Balanced.conserved {e : Engine} (hb : e.Balanced) : e.Conserved where
  minted := hb.units
  coins := hb.coins.trans hb.wrapped
  supply := hb.wrapped
  wrapped := hb.supply
  snapshots := hb.snapshots
  unwrappedSupply := ⟨_, sub_eq_ok.mpr ⟨hb.supply, rfl⟩⟩
  pendingPayout share hshare := ⟨_, sub_eq_ok.mpr ⟨hb.snapshots share hshare, rfl⟩⟩
  redeemShare _ hshare := ⟨_, sub_eq_ok.mpr ⟨hb.shareCount_le hshare, rfl⟩⟩
  unwrapCoins _ hcoin :=
    ⟨⟨_, TreasuryCap.burn_eq_ok.mpr ⟨(hb.value_le hcoin).1, rfl⟩⟩,
      ⟨_, sub_eq_ok.mpr ⟨(hb.value_le hcoin).2, rfl⟩⟩⟩

/-- All forms together hold what is minted. -/
theorem Engine.Balanced.units_eq {e : Engine} (hb : e.Balanced) :
    e.units = e.acc.totalMintedShares := by
  have hconserved := hb.conserved
  rw [← hconserved.minted, ← hconserved.coins, Engine.units]

/-- The accumulator of an asset stays and keeps what is minted. -/
def GlobalYieldAccumulator.Keeps (acc acc' : GlobalYieldAccumulator) : Prop :=
  acc'.assetId = acc.assetId ∧ acc'.totalMintedShares = acc.totalMintedShares

section Minted

variable {w w' : World} {sender : Address}

/-- A redemption takes the units of the deed out. -/
def World.Redeems (w w' : World) (c : Call) : Prop := ∃ g s acc share acc',
  c = .accumulator (.redeemShare g s) ∧ w.accumulators.get? g = some acc ∧
  w.shares.get? s = some share ∧ w'.accumulators = w.accumulators.put acc' ∧
  acc'.id = acc.id ∧ share.assetId = acc.assetId ∧ acc'.assetId = acc.assetId ∧
  acc'.totalMintedShares + share.shareCount = acc.totalMintedShares

/-- No call but a redemption changes what is minted. -/
theorem World.call_minted (hf : w.Fresh) {c : Call} (h : w.call sender c = .ok w') :
    w.accumulators.Keeps GlobalYieldAccumulator.Keeps w'.accumulators ∨ w.Redeems w' c := by
  -- an accumulator that is put back keeps its asset and its units
  have hr : ∀ acc : GlobalYieldAccumulator, acc.Keeps acc := fun _ => ⟨rfl, rfl⟩
  cases c with
  | protocol c =>
    obtain ⟨-, _, _, -, rfl⟩ := World.protocolCall_eq_ok.mp h
    exact Or.inl (.refl hr _)
  | validator c => cases World.validatorCall_eq_ok.mp h <;> exact Or.inl (.refl hr _)
  | asset c =>
    cases World.assetCall_eq_ok.mp h with
    | finalizeSuccessfulRaise =>
      exact Or.inl (.fresh hr _ (hf.accumulators.get?_eq_none (Nat.lt_irrefl _)))
    | flagDefault _ hacc => exact Or.inl (.replace hr _ hacc rfl ⟨rfl, rfl⟩)
    | depositRevenue _ hacc _ _ deposited =>
      have hframe := deposited.routed.frame
      exact Or.inl (.replace hr _ hacc hframe.id ⟨hframe.assetId, hframe.minted⟩)
    | closeAtReturnTarget _ hacc => exact Or.inl (.replace hr _ hacc rfl ⟨rfl, rfl⟩)
    | closeAfterCompensation _ hacc => exact Or.inl (.replace hr _ hacc rfl ⟨rfl, rfl⟩)
    | closeWindDown _ hacc => exact Or.inl (.replace hr _ hacc rfl ⟨rfl, rfl⟩)
    | _ => exact Or.inl (.refl hr _)
  | accumulator c =>
    cases World.accumulatorCall_eq_ok.mp h with
    | claimRewards hacc => exact Or.inl (.replace hr _ hacc rfl ⟨rfl, rfl⟩)
    | sweepRollover hacc => exact Or.inl (.replace hr _ hacc rfl ⟨rfl, rfl⟩)
    | @sweepCompensation _ _ routed _ hacc _ _ route =>
      have hframe := route.frame
      exact Or.inl (.replace hr { routed with wrappingFrozen := false } hacc hframe.id
        ⟨hframe.assetId, hframe.minted⟩)
    | wrapShares hacc => exact Or.inl (.replace hr _ hacc rfl ⟨rfl, rfl⟩)
    | unwrapCoins hacc _ _ _ _ sweep =>
      exact Or.inl (.replace hr _ hacc sweep.frame.id ⟨sweep.frame.assetId, sweep.frame.minted⟩)
    | mergeShares hacc => exact Or.inl (.replace hr _ hacc rfl ⟨rfl, rfl⟩)
    -- only a redemption burns units
    | redeemShare hacc _ hshare guards =>
      exact Or.inr ⟨_, _, _, _, _, rfl, hacc, hshare, rfl, rfl, guards.claim.asset, rfl,
        Nat.sub_add_cancel guards.minted⟩
    | adminSweepDust _ hacc => exact Or.inl (.replace hr _ hacc rfl ⟨rfl, rfl⟩)
    | splitShare => exact Or.inl (.refl hr _)
  | dispute c =>
    cases World.disputeCall_eq_ok.mp h with
    | resolveDispute _ _ _ hacc _ decides =>
      refine Or.inl (.replace hr _ hacc decides.keeps.accId ⟨decides.keeps.accAsset, ?_⟩)
      cases decides <;> rfl
    | _ => exact Or.inl (.refl hr _)
  | framework c => cases World.frameworkCall_eq_ok.mp h <;> exact Or.inl (.refl hr _)

end Minted

/-- Conservation of the units of every asset: the counters agree in every reachable
    state, and a call creates or destroys units only by redeeming a deed. -/
theorem units_conserved :
    (∀ (w : World) (g : ID) (acc : GlobalYieldAccumulator), Reachable w →
      w.accumulators.get? g = some acc → (w.engine acc).Conserved) ∧
    ∀ (w : World) (sender : Address) (c : Call) (w' : World) (g : ID)
      (acc : GlobalYieldAccumulator), Reachable w → w.call sender c = .ok w' →
      w.accumulators.get? g = some acc →
      ∃ acc', w'.accumulators.get? g = some acc' ∧ acc'.assetId = acc.assetId ∧
        ((w'.engine acc').units = (w.engine acc).units ∨
          ∃ s share, c = .accumulator (.redeemShare g s) ∧ w.shares.get? s = some share ∧
            share.assetId = acc.assetId ∧
            (w'.engine acc').units + share.shareCount = (w.engine acc).units) := by
  refine ⟨fun w g acc hw hacc => (hw.replay hacc).sound.1.conserved, ?_⟩
  intro w sender c w' g acc hw h hacc
  -- the counter of minted shares speaks for the units, so only it has to be followed
  have hunits : ∀ {w : World} {g acc}, Reachable w → w.accumulators.get? g = some acc →
      (w.engine acc).units = acc.totalMintedShares :=
    fun hw hacc => (hw.replay hacc).sound.1.units_eq
  have hkept : ∀ acc', w'.accumulators.get? g = some acc' →
      acc'.totalMintedShares = acc.totalMintedShares →
      (w'.engine acc').units = (w.engine acc).units := by
    intro acc' hacc' hminted
    rw [hunits (hw.call h) hacc', hunits hw hacc, hminted]
  rcases World.call_minted hw.fresh h with hkeeps | ⟨j, s, x, share, x', rfl, hx, hs, hput, hid,
      hbelongs, hasset, hminted⟩
  · obtain ⟨acc', hacc', hasset, hminted⟩ := hkeeps g acc hacc
    exact ⟨acc', hacc', hasset, Or.inl (hkept acc' hacc' hminted)⟩
  · obtain rfl : x.id = j := Store.key_of_get? hx
    -- the redemption may be with another accumulator
    by_cases hg : x.id = g
    · subst hg
      obtain rfl : x = acc := Option.some.inj (hx.symm.trans hacc)
      have hacc' : w'.accumulators.get? x.id = some x' := by
        rw [hput, ← hid, show x'.id = Keyed.key x' from rfl, Store.get?_put_self]
      refine ⟨x', hacc', hasset, Or.inr ⟨s, share, rfl, hs, hbelongs, ?_⟩⟩
      rw [hunits (hw.call h) hacc', hunits hw hacc, hminted]
    · have hacc' : w'.accumulators.get? g = some acc := by
        rw [hput, Store.get?_put_ne fun hk => hg (hid.symm.trans hk), hacc]
      exact ⟨acc, hacc', rfl, Or.inl (hkept acc hacc' rfl)⟩

/-- Splitting the deed of the project keeps its units. -/
theorem units_conserved_split : ∃ w w' acc, (World.genesis 0).run Sample.earning = .ok w ∧
    w.call 3 (.accumulator (.splitShare 9 400000)) = .ok w' ∧
    w.accumulators.get? 8 = some acc ∧ (w.engine acc).Conserved ∧
    ∃ acc', w'.accumulators.get? 8 = some acc' ∧
      (w'.engine acc').units = (w.engine acc).units := by
  have hrun : returns ((World.genesis 0).run Sample.earning) (fun w =>
      returns (w.call 3 (.accumulator (.splitShare 9 400000))) (fun _ => true) &&
      (w.accumulators.get? 8).isSome) = true := by
    decide +kernel
  obtain ⟨w, hw, hq⟩ := returns_iff.mp hrun
  rw [Bool.and_eq_true] at hq
  obtain ⟨w', hw', -⟩ := returns_iff.mp hq.1
  obtain ⟨acc, hacc⟩ := Option.isSome_iff_exists.mp hq.2
  have hreach : Reachable w := ⟨0, _, hw⟩
  obtain ⟨acc', hacc', -, hunits⟩ := units_conserved.2 w 3 _ w' 8 acc hreach hw' hacc
  refine ⟨w, w', acc, hw, hw', hacc, units_conserved.1 w 8 acc hreach hacc, acc', hacc', ?_⟩
  exact hunits.resolve_right (by simp)

/-! ## Refinement of the eager ledger -/

/-- The payments to the position and its pending payouts are at most what the eager
    ledger pays, and fall short of it by less than the roundings explain. -/
def Engine.RefinesEager (e : Engine) (inside : ID → Bool) (h : List Record)
    (payouts : List Payout) : Prop :=
  0 ≤ shortfall inside e h payouts ∧
    (shortfall inside e h payouts ≠ 0 →
      shortfall inside e h payouts < shortfallBound inside e h)

/-- Every run of an engine refines the eager ledger, with what the operations returned. -/
theorem Engine.run_refinesEager {e e' : Engine} {ops : List EngineOp} (hi : e.Initial)
    (hr : e.run ops = .ok e') {inside : ID → Bool} (hc : Closed inside (e.history ops)) :
    e'.RefinesEager inside (e.history ops) (e.returned ops) := by
  have hmoves := run_moves hr
  -- before the first deed nothing is owed
  have howed : e.heldOwed inside = 0 := by
    rw [Engine.heldOwed, hi.shares, Store.sum_empty]
  have hbooked := hmoves.booked (Balanced.initial hi) howed hc
  obtain ⟨h0, hle, hlt⟩ := hbooked.refines hmoves.divides (run_paid hr hc)
  refine ⟨h0, fun hne => hlt ?_⟩
  exact lt_of_lt_of_le (lt_of_le_of_ne h0 hne.symm) hle

/-- The calls that claim on deeds of accumulator `g`. -/
def AccumulatorCall.claimsOn (g : ID) : AccumulatorCall → Prop
  | .claimRewards k _ | .wrapShares k _ | .redeemShare k _ | .mergeShares k _ _ => k = g
  | _ => False

/-- A claiming call is an operation of the engine, and its sender receives the coins the
    operation returns. -/
def World.PaysOut (w w' : World) (sender : Address) (acc acc' : GlobalYieldAccumulator)
    (op : EngineOp) (payouts : List Payout) : Prop :=
  (w.engine acc).apply op = .ok (w'.engine acc', payouts) ∧
    w'.wallets = w.wallets.credit sender (payouts.map Payout.value).sum

/-- Every claim on an accumulator pays out what its operation returns. -/
theorem World.claim_paysOut {w w' : World} (hw : Reachable w) {sender : Address}
    {c : AccumulatorCall} (h : w.call sender (.accumulator c) = .ok w') {g : ID}
    {acc : GlobalYieldAccumulator} (hclaims : c.claimsOn g)
    (hacc : w.accumulators.get? g = some acc) : ∃ acc' op payouts,
    w'.accumulators.get? g = some acc' ∧ w.PaysOut w' sender acc acc' op payouts := by
  obtain rfl : acc.id = g := Store.key_of_get? hacc
  -- every claiming call files the changed accumulator and credits its sender
  cases World.accumulatorCall_eq_ok.mp h with
  | @claimRewards _ _ x share _ hx _ hshare guards =>
    obtain rfl := hclaims
    obtain rfl : x = acc := Option.some.inj (hx.symm.trans hacc)
    exact ⟨_, _, _, Store.get?_put_self _ (x.afterClaim share),
      claimRewards_apply hshare guards, rfl⟩
  | @wrapShares _ _ x share _ hx _ hshare guards =>
    obtain rfl := hclaims
    obtain rfl : x = acc := Option.some.inj (hx.symm.trans hacc)
    exact ⟨_, _, _, Store.get?_put_self _ (x.afterWrap share),
      wrapShares_apply hw.fresh hshare guards, rfl⟩
  | @redeemShare _ _ x share _ hx _ hshare guards =>
    obtain rfl := hclaims
    obtain rfl : x = acc := Option.some.inj (hx.symm.trans hacc)
    exact ⟨_, _, _, Store.get?_put_self _ (x.afterRedeem share),
      redeemShare_apply hshare guards, rfl⟩
  | @mergeShares _ _ _ x target victim _ hx _ htarget _ hvictim distinct guards =>
    obtain rfl := hclaims
    obtain rfl : x = acc := Option.some.inj (hx.symm.trans hacc)
    exact ⟨_, _, _, Store.get?_put_self _ ((x.afterClaim target).afterClaim victim),
      mergeShares_apply htarget hvictim distinct guards, rfl⟩
  | sweepRollover => cases hclaims
  | sweepCompensation => cases hclaims
  | unwrapCoins => cases hclaims
  | adminSweepDust => cases hclaims
  | splitShare => cases hclaims

/-- The lazy index refines eager payment: for every run and every closed position the coins
    the calls returned follow the exact rational shares; every accumulator of a reachable
    chain got where it is by such a run, and on the chain the sender of a claiming call
    receives what the operation returns. -/
theorem lazy_index_refines_eager :
    (∀ (e e' : Engine) (ops : List EngineOp) (inside : ID → Bool), e.Initial →
      e.run ops = .ok e' → Closed inside (e.history ops) →
      e'.RefinesEager inside (e.history ops) (e.returned ops)) ∧
    (∀ (w : World) (g : ID) (acc : GlobalYieldAccumulator), Reachable w →
      w.accumulators.get? g = some acc →
      ∃ (e : Engine) (ops : List EngineOp), e.Initial ∧ e.run ops = .ok (w.engine acc) ∧
        ∀ inside, Closed inside (e.history ops) →
          (w.engine acc).RefinesEager inside (e.history ops) (e.returned ops)) ∧
    ∀ (w w' : World) (sender : Address) (c : AccumulatorCall) (g : ID)
      (acc : GlobalYieldAccumulator), Reachable w → w.call sender (.accumulator c) = .ok w' →
      c.claimsOn g → w.accumulators.get? g = some acc → ∃ acc' op payouts,
        w'.accumulators.get? g = some acc' ∧ w.PaysOut w' sender acc acc' op payouts := by
  refine ⟨fun e e' ops inside hi hr hc => Engine.run_refinesEager hi hr hc, ?_, ?_⟩
  · intro w g acc hw hacc
    obtain ⟨e, ops, hi, hr⟩ := hw.replay hacc
    exact ⟨e, ops, hi, hr, fun inside hc => Engine.run_refinesEager hi hr hc⟩
  · intro w w' sender c g acc hw h hclaims hacc
    exact World.claim_paysOut hw h hclaims hacc

namespace Sample

/-- A finalized raise of 1000 units in one receipt. -/
def engine : Engine where
  acc := { id := 8, assetId := 4, cumulativeYieldIndex := 0, totalMintedShares := 1000,
           totalWrappedShares := 0, rewardPool := 0, rolloverReserve := 0, compensationPool := 0,
           compensationUnlockMs := 0, wrappingFrozen := false, treasuryCap := ⟨7, 0⟩,
           closed := false, lifetimeInvestorRevenue := 0, dustBound := 0 }
  receipts := (∅ : Store ContributionReceipt).put ⟨6, 4, 1000⟩
  shares := ∅
  coins := ∅

/-- The engine of the sample is a new one. -/
theorem engine_initial : engine.Initial where
  created := ⟨4, 1000, ⟨7, 0⟩, 8, newAccumulator_eq_ok.mpr ⟨rfl, rfl⟩⟩
  receipts := Store.forall_put rfl (by simp)
  units := by decide
  shares := rfl
  coins := rfl

/-- The deed is split; one deposit splits evenly and one does not. -/
def ops : List EngineOp :=
  [.claimShares 6 9 0, .splitShare 9 300 10, .addRevenue 1000, .claimRewards 9 3, .addRevenue 7,
   .claimRewards 10 3]

end Sample

/-- Two deeds split from one get 700 and 302 of the 1007 deposited. -/
theorem lazy_index_refines_eager_split : ∃ e', Sample.engine.run Sample.ops = .ok e' ∧
    Sample.engine.returned Sample.ops = [⟨9, 700⟩, ⟨10, 302⟩] ∧
    e'.RefinesEager (fun k => k = 9 ∨ k = 10) (Sample.engine.history Sample.ops)
      (Sample.engine.returned Sample.ops) := by
  have hrun : returns (Sample.engine.run Sample.ops) (fun _ => true) = true := by decide +kernel
  obtain ⟨e', he', -⟩ := returns_iff.mp hrun
  refine ⟨e', he', by decide +kernel,
    lazy_index_refines_eager.1 _ e' _ _ Sample.engine_initial he' ?_⟩
  -- the only move of the history is the split
  intro src dst hmoved
  have hids : (Sample.engine.history Sample.ops).all (fun r =>
      match r with
      | .moved src dst => src = 9 ∧ dst = 10
      | _ => true) = true := by
    decide +kernel
  have hids := List.all_eq_true.mp hids _ hmoved
  simp only [decide_eq_true_eq] at hids
  simp [hids]

end Gally

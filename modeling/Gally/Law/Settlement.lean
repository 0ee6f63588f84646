import Gally.Law.Ballot
import Gally.Law.Default
import Gally.Law.Grace

/-!
# Every dispute can be settled

What `resolve_dispute` asserts along its way through three modules holds whenever it is
called on the objects of an OPEN dispute after the deadline: the pool is still FROZEN, its
stake still covers the coverage, and every sum is part of the USDC supply. What is left
are the tally, two `u64` counters that are added, and the timestamps, to which the
setters put no bound. The voters are stored in the dispute itself, so the size the platform
allows an object keeps the tally small.

## Key results

- `Reachable.resolve_iff`
- `disputes_end`: an OPEN dispute can be resolved from its deadline on
- `settlement_iff`: openings, defaults and resolutions succeed exactly if their timestamps fit
- `unbounded_parameters_block_settlement`: what does not fit
-/

namespace Gally

open Checked

/-! ## Resolving -/

/-- The four objects of a dispute hold no more USDC than there is. -/
theorem Reachable.caseFunds_le {w : World} (hw : Reachable w) {d p a g : ID} {x : Dispute}
    {pool : ValidatorPool} {asset : Asset} {acc : GlobalYieldAccumulator}
    (hx : w.disputes.get? d = some x) (hpool : w.pools.get? p = some pool)
    (hasset : w.assets.get? a = some asset) (hacc : w.accumulators.get? g = some acc) :
    x.funds + pool.stake + asset.funds + acc.funds ≤ maxU64 := by
  have hdispute := Store.le_sum (Store.mem_of_get? hx) Dispute.funds
  have hstake := Store.le_sum (Store.mem_of_get? hpool) ValidatorPool.stake
  have hescrow := Store.le_sum (Store.mem_of_get? hasset) Asset.funds
  have hpools := Store.le_sum (Store.mem_of_get? hacc) GlobalYieldAccumulator.funds
  have hconserved := hw.conserved
  have hsupply := hw.supply_le
  unfold World.Conserved World.usdc at hconserved
  omega

/-- The objects of a dispute, as `resolve_dispute` needs them. -/
structure World.Case (w : World) (x : Dispute) (pool : ValidatorPool) (asset : Asset)
    (acc : GlobalYieldAccumulator) : Prop where
  hpool : w.pools.get? x.targetPoolId = some pool
  hasset : w.assets.get? x.assetId = some asset
  hacc : w.accumulators.get? x.accumulatorId = some acc
  frozen : pool.status = .frozen
  covered : asset.coverageLocked ≤ pool.stake

/-- An OPEN dispute finds its objects, whatever happened to them since. -/
theorem Reachable.case {w : World} (hw : Reachable w) {d : ID} {x : Dispute}
    (hx : w.disputes.get? d = some x) (hopen : x.status = .opened) :
    ∃ pool asset acc, w.Case x pool asset acc := by
  have hmem := Store.mem_of_get? hx
  obtain ⟨pool, hpool, hfrozen⟩ := hw.tried.frozen x hmem hopen
  obtain ⟨asset, hasset, hvouch, -⟩ := hw.parties hmem
  obtain ⟨acc, hacc, -⟩ := hw.linked.disputes x hmem
  have hid : pool.id = x.targetPoolId := Store.key_of_get? hpool
  -- the coverage is locked, and what is locked is backed
  have hlocked := hw.covered.coverage_le hasset hpool (hid.symm ▸ hvouch)
  have hbacked := (hw.covered.backs pool (Store.mem_of_get? hpool)).stake
  exact ⟨pool, asset, acc, hpool, hasset, hacc, hfrozen, Nat.le_trans hlocked hbacked⟩

/-- Every branch of a resolution goes through, if the unlock time of a guilty verdict fits. -/
theorem Reachable.decides {w : World} (hw : Reachable w) {d : ID} {x : Dispute}
    (hx : w.disputes.get? d = some x) {pool : ValidatorPool} {asset : Asset}
    {acc : GlobalYieldAccumulator} (hcase : w.Case x pool asset acc)
    (hgrace : x.verdict w.config = .upheld →
      w.clockMs + w.config.compensationGraceMs ≤ maxU64) :
    ∃ v, Decides x pool asset acc w.config w.clockMs v := by
  have hfunds := hw.caseFunds_le hx hcase.hpool hcase.hasset hcase.hacc
  have hcovered := hcase.covered
  simp only [Dispute.funds, GlobalYieldAccumulator.funds] at hfunds
  by_cases hquorum : x.totalVotes < w.config.juryQuorum
  · exact ⟨_, .expired hquorum hcase.frozen⟩
  have hquorum' := Nat.not_lt.mp hquorum
  by_cases hguilty : isUpheld x w.config x.totalVotes = true
  · have hverdict : x.verdict w.config = .upheld := by
      rw [Dispute.verdict, if_neg hquorum, if_pos hguilty]
    have hbounty := hw.withinCaps.two_mul_bounty_le asset.coverageLocked
    have hseized := asset.funds_upheld
    exact ⟨_, .upheld hquorum' (isUpheld_iff.mp hguilty).2 {
      frozen := hcase.frozen
      stake := hcovered
      bountyFits := by omega
      bounty := by omega
      reward := by omega
      unlock := hgrace hverdict
      seized := by omega
      funds := by omega
      pool := by omega }⟩
  · have hthreshold : bpsDenominator * x.votesGuilty < w.config.juryThresholdBps * x.totalVotes :=
      Nat.lt_of_not_le fun hle => hguilty (isUpheld_iff.mpr ⟨hquorum', hle⟩)
    -- a quorum is at least one vote, so there is something to divide by
    have hpos := hw.withinCaps.quorum
    exact ⟨_, .rejected hquorum' hthreshold {
      frozen := hcase.frozen
      stake := by omega
      votes := by omega
      rewards := by omega }⟩

/-- A due dispute can be resolved with its own objects exactly if the votes cast fit a `u64`, and
    after a guilty verdict the unlock time does. -/
theorem Reachable.resolve_iff {w : World} (hw : Reachable w) {d : ID} {x : Dispute}
    (hx : w.disputes.get? d = some x) (hopen : x.status = .opened)
    (hdue : x.votingDeadlineMs ≤ w.clockMs) (sender : Address) :
    Succeeds (w.call sender
      (.dispute (.resolveDispute d x.targetPoolId x.assetId x.accumulatorId))) ↔
      x.totalVotes ≤ maxU64 ∧ (x.verdict w.config = .upheld →
        w.clockMs + w.config.compensationGraceMs ≤ maxU64) := by
  constructor
  · rintro ⟨w', h⟩
    cases World.callDispute_eq_ok.mp h with
    | resolveDispute hx' _ _ _ guards decides =>
      obtain rfl := Option.some.inj (hx'.symm.trans hx)
      refine ⟨guards.votes, fun hupheld => ?_⟩
      have hstatus := decides.status.trans hupheld
      cases decides with
      | expired => simp [expiredVerdict] at hstatus
      | rejected => simp [rejectedVerdict] at hstatus
      | upheld _ _ uphold => exact uphold.unlock
  · rintro ⟨hvotes, hgrace⟩
    -- the objects that the dispute names are all there
    obtain ⟨pool, asset, acc, hcase⟩ := hw.case hx hopen
    obtain ⟨v, hdecides⟩ := hw.decides hx hcase hgrace
    have hguards : ResolveGuards x pool asset acc w.config w.clockMs :=
      ⟨hw.withinCaps.version, hopen, hdue, Store.key_of_get? hcase.hpool,
        Store.key_of_get? hcase.hasset, Store.key_of_get? hcase.hacc, hvotes⟩
    exact ⟨_, World.callDispute_eq_ok.mpr (.resolveDispute hx hcase.hpool hcase.hasset hcase.hacc
      hguards hdecides (resolveDispute_eq_ok.mpr ⟨hguards, v, hdecides, rfl⟩))⟩

/-- The platform stores no object of more bytes than this. -/
def maxObjectBytes : ℕ := 256000

/-- The voters of a dispute, 32 bytes each, fit in an object. -/
def Dispute.Storable (x : Dispute) : Prop := 32 * x.voted.length ≤ maxObjectBytes

/-- The votes cast in an OPEN dispute that is stored fit a `u64`. -/
theorem Reachable.votes_fit {w : World} (hw : Reachable w) {d : ID} {x : Dispute}
    (hx : w.disputes.get? d = some x) (hopen : x.status = .opened) (hstored : x.Storable) :
    x.totalVotes ≤ maxU64 := by
  -- one vote for each pool of the list
  have htally := (hw.polled x (Store.mem_of_get? hx)).1.tally hopen
  unfold Dispute.Storable maxObjectBytes at hstored
  unfold maxU64
  omega

/-- Every dispute ends: an OPEN dispute can be resolved by anybody at any time from its deadline
    on, if the platform can store it and the unlock time fits a `u64`. -/
theorem disputes_end {w : World} (hw : Reachable w) {d : ID} {x : Dispute}
    (hx : w.disputes.get? d = some x) (hopen : x.status = .opened)
    (hdue : x.votingDeadlineMs ≤ w.clockMs) (hstored : x.Storable)
    (hgrace : w.clockMs + w.config.compensationGraceMs ≤ maxU64) (sender : Address) :
    Succeeds (w.call sender
      (.dispute (.resolveDispute d x.targetPoolId x.assetId x.accumulatorId))) :=
  (hw.resolve_iff hx hopen hdue sender).mpr ⟨hw.votes_fit hx hopen hstored, fun _ => hgrace⟩

/-- A challenge is resolved by somebody who has no part in it. -/
theorem disputes_end_voted : ∃ (w : World) (x : Dispute), (World.genesis 0).run
      (Sample.executing 1000000 100000 ++ Sample.court ++
        [.transaction 3 [Sample.challenge]] ++ Sample.voting) = .ok w ∧
    w.disputes.get? 11 = some x ∧ Succeeds (w.call 7
      (.dispute (.resolveDispute 11 x.targetPoolId x.assetId x.accumulatorId))) := by
  have hrun : returns ((World.genesis 0).run (Sample.executing 1000000 100000 ++ Sample.court ++
      [.transaction 3 [Sample.challenge]] ++ Sample.voting)) (fun w =>
        w.clockMs + w.config.compensationGraceMs ≤ maxU64 && (w.disputes.get? 11).any fun x =>
          x.status = .opened ∧ x.votingDeadlineMs ≤ w.clockMs ∧
          32 * x.voted.length ≤ maxObjectBytes) = true := by
    decide +kernel
  obtain ⟨w, hw, hq⟩ := returns_iff.mp hrun
  simp only [Bool.and_eq_true, Option.any_eq_true, decide_eq_true_eq] at hq
  obtain ⟨hgrace, x, hx, hopen, hdue, hstored⟩ := hq
  exact ⟨w, x, hw, hx, disputes_end ⟨0, _, hw⟩ hx hopen hdue hstored hgrace 7⟩

/-! ## Timestamps -/

/-- `sender` may open a dispute, as far as everything but the deadline is concerned. -/
structure World.MayChallenge (w : World) (sender : Address) (a p g : ID) (bond : U64)
    (reason : Bytes) : Prop where
  objects : ∃ asset pool acc, w.assets.get? a = some asset ∧ w.pools.get? p = some pool ∧
    w.accumulators.get? g = some acc ∧ (asset.state = .executing ∨ asset.state = .operational) ∧
    0 < asset.coverageLocked ∧ asset.disputed = false ∧ asset.validatorPoolId = some pool.id ∧
    acc.assetId = asset.id ∧ pool.status = .active
  short : reason.length ≤ maxReasonBytes
  funds : bond.val ≤ w.wallets.balance sender
  exact : bond.val = w.config.challengerBond

/-- A challenge succeeds exactly if its deadline fits. -/
theorem Reachable.opening_iff {w : World} (hw : Reachable w) {sender : Address} {a p g : ID}
    {bond : U64} {reason : Bytes} (h : w.MayChallenge sender a p g bond reason)
    (evidence : WalrusRef) :
    Succeeds (w.call sender (.dispute (.initializeDispute a p g bond evidence reason))) ↔
      w.clockMs + w.config.disputeWindowMs ≤ maxU64 := by
  obtain ⟨asset, pool, acc, hasset, hpool, hacc, hstate, hcovered, hflag, hvouch, hlinked,
    hactive⟩ := h.objects
  constructor
  · intro ⟨w', hcall⟩
    cases World.callDispute_eq_ok.mp hcall with
    | initializeDispute _ _ _ _ guards => exact guards.deadline
  · intro hfits
    have hguards : InitializeGuards asset pool acc w.config bond.val reason w.clockMs :=
      ⟨hw.withinCaps.version, hstate, hcovered, hflag, h.short, hvouch, hlinked, h.exact, hfits,
        hactive⟩
    exact ⟨_, World.callDispute_eq_ok.mpr (.initializeDispute hasset hpool hacc h.funds hguards
      (initializeDispute_eq_ok.mpr ⟨hguards, rfl⟩))⟩

/-- A missed tranche can be flagged exactly if the unlock time fits. -/
theorem Reachable.default_iff {w : World} (hw : Reachable w) {a g : ID} {asset : Asset}
    (hasset : w.assets.get? a = some asset) (hstate : asset.state = .executing)
    (hmissed : asset.InDefault w.clockMs) (hg : asset.accumulatorId = some g) (sender : Address) :
    Succeeds (w.call sender (.asset (.flagDefault a g))) ↔
      w.clockMs + w.config.compensationGraceMs ≤ maxU64 := by
  constructor
  · intro ⟨w', hcall⟩
    cases World.callAsset_eq_ok.mp hcall with
    | flagDefault _ _ guards => exact guards.unlock
  · intro hfits
    obtain ⟨t, ht, hunapproved, hlate⟩ := hmissed
    obtain ⟨g', hflag⟩ := hw.flags hasset hstate ht hlate hunapproved hfits
    obtain ⟨w', hcall, -⟩ := hflag sender
    -- the accumulator that can be passed is the asset's own
    cases World.callAsset_eq_ok.mp hcall with
    | @flagDefault _ _ x acc _ _ hx hacc guards =>
      obtain rfl := Option.some.inj (hx.symm.trans hasset)
      have hown := hw.linked.accumulatorId hx hacc guards.linked
      obtain rfl : g' = g := Option.some.inj (hown.symm.trans hg)
      exact ⟨_, hcall⟩

/-- The times the chain has set are times its clock can show. -/
structure World.Timely (w : World) : Prop where
  deadline : ∀ d ∈ w.disputes, d.votingDeadlineMs ≤ maxU64
  unlock : ∀ g acc, w.accumulators.get? g = some acc → acc.compensationUnlockMs ≤ maxU64

/-- One call keeps the times within 64 bits. -/
theorem World.Timely.call {w w' : World} (ht : w.Timely) (hf : w.Fresh) {sender : Address}
    {c : Call} (h : w.call sender c = .ok w') : w'.Timely where
  deadline d' hd' := by
    rcases World.call_disputes hf h (Store.get?_key hd') with
      ⟨d, hd, hhear⟩ | ⟨hid, a, p, g, bond, evidence, reason, rfl⟩
    · rw [hhear.deadline]
      exact ht.deadline d (Store.mem_of_get? hd)
    · obtain ⟨_, _, _, y, -, -, -, guards, -, hy, hopening, -⟩ := World.opening_eq h
      have hself : w'.disputes.get? d'.id = some d' := Store.get?_key hd'
      rw [show d'.id = w.nextId from hid, hy] at hself
      rw [← Option.some.inj hself, hopening]
      exact guards.deadline
  unlock g acc' hacc' := by
    rcases World.call_accumulators hf h hacc' with ⟨acc, hacc, htouch⟩ | ⟨_, _, _, -, -, rfl⟩
    · have hold := ht.unlock g acc hacc
      cases htouch.restitution with
      | same parked => rwa [parked.unlock]
      | intake _ fits eq =>
        rw [eq]
        exact Nat.max_le.mpr ⟨hold, fits⟩
      | sweep _ _ _ _ unlock => rwa [unlock]
    · exact Nat.zero_le _

/-- In every reachable world the times fit 64 bits. -/
theorem Reachable.timely {w : World} (hw : Reachable w) : w.Timely := by
  refine hw.induct ?_ (fun hw ht h => ht.call hw.fresh h) fun _ ht _ => ⟨ht.deadline, ht.unlock⟩
  intro admin
  exact ⟨by simp [World.genesis], by simp [World.genesis]⟩

/-- Settlement, whatever the setters were called with: an opening succeeds exactly if its deadline
    fits a `u64`, a default and a guilty verdict exactly if their unlock time does; deadlines and
    unlock times that were set are times the clock reaches, and from then on resolutions and
    sweeps are due. -/
theorem settlement_iff {w : World} (hw : Reachable w) :
    (∀ sender a p g bond evidence reason, w.MayChallenge sender a p g bond reason →
      (Succeeds (w.call sender (.dispute (.initializeDispute a p g bond evidence reason))) ↔
        w.clockMs + w.config.disputeWindowMs ≤ maxU64)) ∧
    (∀ sender a g asset, w.assets.get? a = some asset → asset.state = .executing →
      asset.InDefault w.clockMs → asset.accumulatorId = some g →
      (Succeeds (w.call sender (.asset (.flagDefault a g))) ↔
        w.clockMs + w.config.compensationGraceMs ≤ maxU64)) ∧
    (∀ sender d x, w.disputes.get? d = some x → x.status = .opened →
      x.votingDeadlineMs ≤ maxU64 ∧ (x.votingDeadlineMs ≤ w.clockMs →
      (Succeeds (w.call sender
        (.dispute (.resolveDispute d x.targetPoolId x.assetId x.accumulatorId))) ↔
        x.totalVotes ≤ maxU64 ∧ (x.verdict w.config = .upheld →
          w.clockMs + w.config.compensationGraceMs ≤ maxU64)))) ∧
    ∀ sender g acc, w.accumulators.get? g = some acc → 0 < acc.compensationPool →
      acc.compensationUnlockMs ≤ maxU64 ∧
      (Succeeds (w.call sender (.accumulator (.sweepCompensation g))) ↔
        acc.compensationUnlockMs ≤ w.clockMs ∧ acc.SweepRoom) := by
  refine ⟨?_, ?_, ?_, ?_⟩
  · intro sender a p g bond evidence reason h
    exact hw.opening_iff h evidence
  · intro sender a g asset hasset hstate hmissed hg
    exact hw.default_iff hasset hstate hmissed hg sender
  · intro sender d x hx hopen
    exact ⟨hw.timely.deadline x (Store.mem_of_get? hx),
      fun hdue => hw.resolve_iff hx hopen hdue sender⟩
  · intro sender g acc hacc hpool
    exact ⟨hw.timely.unlock g acc hacc, hw.sweep_iff hacc hpool sender⟩

/-- A project on its way can be challenged, and flagged once it is late. -/
theorem settlement_iff_late : ∃ w : World, (World.genesis 0).run
      (Sample.executing 1000000 100000 ++ Sample.court ++ [.tick 2001]) = .ok w ∧
    (Succeeds (w.call 7 (.asset (.flagDefault 4 8))) ↔
      w.clockMs + w.config.compensationGraceMs ≤ maxU64) := by
  have hrun : returns ((World.genesis 0).run (Sample.executing 1000000 100000 ++ Sample.court ++
      [.tick 2001])) (fun w => w.clockMs = 2001 && (w.assets.get? 4).any fun asset =>
        asset.state = .executing ∧ asset.accumulatorId = some 8 ∧
        asset.tranches[asset.nextTranche]? = some ⟨1000000, [], 2000, false, none, none⟩) =
      true := by
    decide +kernel
  obtain ⟨w, hw, hq⟩ := returns_iff.mp hrun
  simp only [Bool.and_eq_true, Option.any_eq_true, decide_eq_true_eq] at hq
  obtain ⟨hclock, asset, hasset, hstate, hg, ht⟩ := hq
  have hmissed : asset.InDefault w.clockMs := ⟨_, ht, rfl, hclock.symm ▸ by decide⟩
  exact ⟨w, hw, (settlement_iff ⟨0, _, hw⟩).2.1 7 4 8 asset hasset hstate hmissed hg⟩

/-- The admin sets voting window and grace to `u64::MAX`, which the setter accepts. -/
def Sample.hostile : Action :=
  .transaction 0 [.protocol (.adminSetDisputeParams
    ⟨1000000000, 1, 6667, 10000000000, 1000, 18446744073709551615, 18446744073709551615⟩)]

/-- After that a late project can neither be challenged nor flagged, and a challenge in flight is
    not resolved: all three calls overflow. -/
theorem unbounded_parameters_block_settlement : ∃ w v : World,
    (World.genesis 0).run (Sample.executing 1000000 100000 ++ Sample.court ++
      [Sample.hostile, .tick 2001]) = .ok w ∧ w.clockMs < 2 ^ 63 ∧
    w.call 3 Sample.challenge = .error .arithmetic ∧
    w.call 7 (.asset (.flagDefault 4 8)) = .error .arithmetic ∧
    (World.genesis 0).run (Sample.executing 1000000 100000 ++ Sample.court ++
      [.transaction 3 [Sample.challenge]] ++ Sample.voting ++ [Sample.hostile]) = .ok v ∧
    v.clockMs < 2 ^ 63 ∧ v.call 3 Sample.resolution = .error .arithmetic := by
  have hrun : returns ((World.genesis 0).run (Sample.executing 1000000 100000 ++ Sample.court ++
      [Sample.hostile, .tick 2001])) (fun w => w.clockMs < 2 ^ 63 &&
        aborts (w.call 3 Sample.challenge) .arithmetic &&
        aborts (w.call 7 (.asset (.flagDefault 4 8))) .arithmetic) = true := by
    decide +kernel
  -- the same parameters set during the ballot block the verdict
  have hrun' : returns ((World.genesis 0).run (Sample.executing 1000000 100000 ++ Sample.court ++
      [.transaction 3 [Sample.challenge]] ++ Sample.voting ++ [Sample.hostile])) (fun v =>
        v.clockMs < 2 ^ 63 && aborts (v.call 3 Sample.resolution) .arithmetic) = true := by
    decide +kernel
  obtain ⟨w, hw, hq⟩ := returns_iff.mp hrun
  obtain ⟨v, hv, hq'⟩ := returns_iff.mp hrun'
  simp only [Bool.and_eq_true, decide_eq_true_eq, aborts_iff] at hq hq'
  exact ⟨w, v, hw, hq.1.1, hq.1.2, hq.2, hv, hq'.1, hq'.2⟩

end Gally

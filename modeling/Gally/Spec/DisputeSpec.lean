import Gally.Contract.Dispute
import Gally.Spec.AssetSpec

/-!
# When the dispute functions succeed, and what they return

A resolution returns one of three verdicts (`expiredVerdict`, `upheldVerdict`,
`rejectedVerdict`), chosen by the tally and the configuration at that moment.
-/

namespace Gally

open Checked

/-! ## Opening and voting -/

/-- The dispute `initializeDispute` creates. -/
def Dispute.opening (asset : Asset) (pool : ValidatorPool) (acc : GlobalYieldAccumulator)
    (config : ProtocolConfig) (bond : ℕ) (evidence : WalrusRef) (reason : Bytes) (now : ℕ)
    (sender : Address) (disputeId : ID) : Dispute :=
  { id := disputeId, assetId := asset.id, targetPoolId := pool.id, accumulatorId := acc.id,
    challenger := sender, bond, evidence, reason, votesGuilty := 0, votesInnocent := 0,
    voted := [], votingDeadlineMs := now + config.disputeWindowMs, status := .opened,
    jurorRewardPerVote := 0, jurorRewardPool := 0 }

/-- The pool under a new status. -/
def ValidatorPool.withStatus (pool : ValidatorPool) (status : PoolStatus) : ValidatorPool :=
  { pool with status }

/-- Everything `initializeDispute` checks. -/
structure InitializeGuards (asset : Asset) (pool : ValidatorPool) (acc : GlobalYieldAccumulator)
    (config : ProtocolConfig) (bond : ℕ) (reason : Bytes) (now : ℕ) : Prop where
  version : config.version = Gally.version
  state : asset.state = .executing ∨ asset.state = .operational
  covered : 0 < asset.coverageLocked
  undisputed : asset.disputed = false
  reason : reason.length ≤ maxReasonBytes
  vouching : asset.validatorPoolId = some pool.id
  linked : acc.assetId = asset.id
  bond : bond = config.challengerBond
  deadline : now + config.disputeWindowMs ≤ maxU64
  active : pool.status = .active

/-- A dispute is opened exactly when the guards hold; it marks the asset and freezes the pool. -/
theorem initializeDispute_eq_ok {asset : Asset} {pool : ValidatorPool}
    {acc : GlobalYieldAccumulator} {config : ProtocolConfig} {bond : ℕ} {evidence : WalrusRef}
    {reason : Bytes} {now : ℕ} {sender : Address} {disputeId : ID}
    {r : Asset × ValidatorPool × Dispute × List Event} :
    initializeDispute asset pool acc config bond evidence reason now sender disputeId = .ok r ↔
      InitializeGuards asset pool acc config bond reason now ∧
      r = (setDisputed asset true, pool.withStatus .frozen,
        .opening asset pool acc config bond evidence reason now sender disputeId,
        [.validatorStatusChanged pool.id pool.status .frozen (some disputeId),
         .disputeOpened disputeId asset.id pool.id sender bond evidence.sha256 reason]) := by
  simp only [initializeDispute, seq_eq_ok, assertVersion_eq_ok, assertAsset_eq_ok, ensure_eq_ok,
    add64_eq_ok, freezePool_eq_ok, setStatus, return_eq_ok]
  constructor
  · rintro ⟨-, hv, -, hs, -, hc, -, hd, -, hr, -, hp, -, hl, -, hb, _, ⟨hn, rfl⟩, _, ⟨ha, rfl⟩, rfl⟩
    exact ⟨⟨hv, hs, hc, hd, hr, hp, hl, hb, hn, ha⟩, rfl⟩
  · rintro ⟨⟨hv, hs, hc, hd, hr, hp, hl, hb, hn, ha⟩, rfl⟩
    exact ⟨(), hv, (), hs, (), hc, (), hd, (), hr, (), hp, (), hl, (), hb, _, ⟨hn, rfl⟩, _,
      ⟨ha, rfl⟩, rfl⟩

/-- The dispute after a vote of pool `poolId`. -/
def Dispute.afterVote (dispute : Dispute) (poolId : ID) (guilty : Bool) : Dispute :=
  { dispute with
    voted := poolId :: dispute.voted
    votesGuilty := dispute.votesGuilty + guilty.toNat
    votesInnocent := dispute.votesInnocent + (!guilty).toNat }

/-- Everything `voteOnDispute` checks. -/
structure VoteGuards (dispute : Dispute) (pool : ValidatorPool) (vcap : ValidatorCap)
    (config : ProtocolConfig) (guilty : Bool) (now : ℕ) : Prop where
  version : config.version = Gally.version
  opened : dispute.status = .opened
  inTime : now < dispute.votingDeadlineMs
  cap : vcap.poolId = pool.id
  notTarget : pool.id ≠ dispute.targetPoolId
  active : pool.status = .active
  stake : config.juryMinStake ≤ pool.stake
  fresh : pool.id ∉ dispute.voted
  guiltyFits : guilty = true → dispute.votesGuilty + 1 ≤ maxU64
  innocentFits : guilty = false → dispute.votesInnocent + 1 ≤ maxU64

/-- A vote is counted exactly when the guards hold. -/
theorem voteOnDispute_eq_ok {dispute : Dispute} {pool : ValidatorPool} {vcap : ValidatorCap}
    {config : ProtocolConfig} {guilty : Bool} {now : ℕ} {r : Dispute × List Event} :
    voteOnDispute dispute pool vcap config guilty now = .ok r ↔
      VoteGuards dispute pool vcap config guilty now ∧
      r = (dispute.afterVote pool.id guilty,
        [.jurorVoted dispute.id pool.id guilty (dispute.votesGuilty + guilty.toNat)
          (dispute.votesInnocent + (!guilty).toNat)]) := by
  -- the vote decides which of the two counters is incremented
  cases guilty with
  | false =>
    simp only [voteOnDispute, isActive, decide_eq_true_eq, seq_eq_ok, assertVersion_eq_ok,
      assertCap_eq_ok, ensure_eq_ok, if_false, Bool.false_eq_true, add64_eq_ok, return_eq_ok]
    constructor
    · rintro ⟨-, hv, -, hs, -, ht, -, hc, -, hn, -, ha, -, hm, -, hf, _, rfl, _, ⟨hi, rfl⟩, rfl⟩
      exact ⟨⟨hv, hs, ht, hc, hn, ha, hm, hf, by simp, fun _ => hi⟩, rfl⟩
    · rintro ⟨⟨hv, hs, ht, hc, hn, ha, hm, hf, -, hi⟩, rfl⟩
      exact ⟨(), hv, (), hs, (), ht, (), hc, (), hn, (), ha, (), hm, (), hf, _, rfl, _,
        ⟨hi rfl, rfl⟩, rfl⟩
  | true =>
    simp only [voteOnDispute, isActive, decide_eq_true_eq, seq_eq_ok, assertVersion_eq_ok,
      assertCap_eq_ok, ensure_eq_ok, if_true, add64_eq_ok, return_eq_ok]
    constructor
    · rintro ⟨-, hv, -, hs, -, ht, -, hc, -, hn, -, ha, -, hm, -, hf, _, ⟨hg, rfl⟩, _, rfl, rfl⟩
      exact ⟨⟨hv, hs, ht, hc, hn, ha, hm, hf, fun _ => hg, by simp⟩, rfl⟩
    · rintro ⟨⟨hv, hs, ht, hc, hn, ha, hm, hf, hg, -⟩, rfl⟩
      exact ⟨(), hv, (), hs, (), ht, (), hc, (), hn, (), ha, (), hm, (), hf, _, ⟨hg rfl, rfl⟩, _,
        rfl, rfl⟩

/-! ## The three verdicts -/

/-- Everything `resolveDispute` checks before it chooses a verdict. -/
structure ResolveGuards (dispute : Dispute) (pool : ValidatorPool) (asset : Asset)
    (acc : GlobalYieldAccumulator) (config : ProtocolConfig) (now : ℕ) : Prop where
  version : config.version = Gally.version
  opened : dispute.status = .opened
  due : dispute.votingDeadlineMs ≤ now
  pool : pool.id = dispute.targetPoolId
  asset : asset.id = dispute.assetId
  acc : acc.id = dispute.accumulatorId
  votes : dispute.votesGuilty + dispute.votesInnocent ≤ maxU64

/-- The total number of votes. -/
def Dispute.totalVotes (dispute : Dispute) : ℕ := dispute.votesGuilty + dispute.votesInnocent

/-- The bounty of an UPHELD verdict over `coverage`. -/
def ProtocolConfig.bounty (config : ProtocolConfig) (coverage : ℕ) : ℕ :=
  coverage * config.challengerBountyBps / bpsDenominator

/-- The pool after `amount` was slashed. -/
def ValidatorPool.slashed (pool : ValidatorPool) (amount : ℕ) : ValidatorPool :=
  { pool with locked := pool.locked - amount, status := .slashed, stake := pool.stake - amount }

/-- What an UPHELD verdict seizes besides the slash. -/
def Asset.seizable (asset : Asset) : ℕ :=
  if asset.state = .executing then asset.entityCollateral + asset.escrow else 0

/-- The asset after an UPHELD verdict. -/
def Asset.upheld (asset : Asset) : Asset :=
  if asset.state = .executing then (clearCoverage asset).seized
  else setDisputed (clearCoverage asset) false

/-- The closing event of a resolution. -/
def Verdict.closing (v : Verdict) (dispute : Dispute) : Event :=
  .disputeResolved dispute.id dispute.assetId dispute.targetPoolId v.dispute.status v.slashed
    v.bounty dispute.challenger v.acc.compensationPool v.acc.compensationUnlockMs
    v.acc.wrappingFrozen

/-- The EXPIRED verdict. -/
def expiredVerdict (dispute : Dispute) (pool : ValidatorPool) (asset : Asset)
    (acc : GlobalYieldAccumulator) : Verdict where
  dispute := { dispute with status := .expired, bond := 0 }
  pool := pool.withStatus .active
  asset := setDisputed asset false
  acc := acc
  transfers := [(dispute.challenger, dispute.bond)]
  slashed := 0
  bounty := 0
  events := [.validatorStatusChanged pool.id pool.status .active (some dispute.id)]

/-- The UPHELD verdict. -/
def upheldVerdict (dispute : Dispute) (pool : ValidatorPool) (asset : Asset)
    (acc : GlobalYieldAccumulator) (config : ProtocolConfig) (now : ℕ) : Verdict where
  dispute := { dispute with status := .upheld, bond := 0 }
  pool := pool.slashed asset.coverageLocked
  asset := asset.upheld
  acc := acc.compensated
    (asset.coverageLocked - config.bounty asset.coverageLocked + asset.seizable)
    (now + config.compensationGraceMs)
  transfers := [(dispute.challenger, config.bounty asset.coverageLocked + dispute.bond)]
  slashed := asset.coverageLocked
  bounty := config.bounty asset.coverageLocked
  events := .validatorStatusChanged pool.id .frozen .slashed (some dispute.id) ::
    if asset.state = .executing then [.assetStateChanged asset.id asset.state .compensating] else []

/-- The REJECTED verdict. -/
def rejectedVerdict (dispute : Dispute) (pool : ValidatorPool) (asset : Asset)
    (acc : GlobalYieldAccumulator) : Verdict where
  dispute := { dispute with
    status := .rejected
    bond := 0
    jurorRewardPerVote := (dispute.bond - dispute.bond / 2) / dispute.totalVotes
    jurorRewardPool := dispute.jurorRewardPool + (dispute.bond - dispute.bond / 2) }
  pool := { pool.withStatus .active with stake := pool.stake + dispute.bond / 2 }
  asset := setDisputed asset false
  acc := acc
  transfers := []
  slashed := 0
  bounty := 0
  events := [.validatorStatusChanged pool.id pool.status .active (some dispute.id)]

/-- A dispute expires exactly with a frozen pool. -/
theorem expire_eq_ok {dispute : Dispute} {pool : ValidatorPool} {asset : Asset}
    {acc : GlobalYieldAccumulator} {v : Verdict} :
    expire dispute pool asset acc = .ok v ↔
      pool.status = .frozen ∧ v = expiredVerdict dispute pool asset acc := by
  simp only [expire, seq_eq_ok, unfreezePool_eq_ok, setStatus, return_eq_ok]
  constructor
  · rintro ⟨_, ⟨hf, rfl⟩, rfl⟩
    exact ⟨hf, rfl⟩
  · rintro ⟨hf, rfl⟩
    exact ⟨_, ⟨hf, rfl⟩, rfl⟩

/-- Everything the REJECTED branch checks. -/
structure RejectGuards (dispute : Dispute) (pool : ValidatorPool) : Prop where
  frozen : pool.status = .frozen
  stake : pool.stake + dispute.bond / 2 ≤ maxU64
  votes : dispute.totalVotes ≠ 0
  rewards : dispute.jurorRewardPool + (dispute.bond - dispute.bond / 2) ≤ maxU64

/-- A dispute is rejected exactly when the guards hold. -/
theorem reject_eq_ok {dispute : Dispute} {pool : ValidatorPool} {asset : Asset}
    {acc : GlobalYieldAccumulator} {v : Verdict} :
    reject dispute pool asset acc dispute.totalVotes = .ok v ↔
      RejectGuards dispute pool ∧ v = rejectedVerdict dispute pool asset acc := by
  simp only [reject, seq_eq_ok, unfreezePool_eq_ok, setStatus, takeOut_eq_ok,
    restituteStake_eq_ok, div_eq_ok, add64_eq_ok, return_eq_ok]
  constructor
  · rintro ⟨_, ⟨hf, rfl⟩, _, ⟨-, rfl⟩, _, ⟨hs, rfl⟩, _, ⟨hv, rfl⟩, _, ⟨hr, rfl⟩, rfl⟩
    exact ⟨⟨hf, hs, hv, hr⟩, rfl⟩
  -- the share of the validator is half of the bond, so the split cannot fail
  · rintro ⟨⟨hf, hs, hv, hr⟩, rfl⟩
    exact ⟨_, ⟨hf, rfl⟩, _, ⟨Nat.div_le_self .., rfl⟩, _, ⟨hs, rfl⟩, _, ⟨hv, rfl⟩, _, ⟨hr, rfl⟩,
      rfl⟩

/-- Everything the UPHELD branch checks. -/
structure UpholdGuards (dispute : Dispute) (pool : ValidatorPool) (asset : Asset)
    (acc : GlobalYieldAccumulator) (config : ProtocolConfig) (now : ℕ) : Prop where
  frozen : pool.status = .frozen
  stake : asset.coverageLocked ≤ pool.stake
  bountyFits : config.bounty asset.coverageLocked ≤ maxU64
  bounty : config.bounty asset.coverageLocked ≤ asset.coverageLocked
  reward : config.bounty asset.coverageLocked + dispute.bond ≤ maxU64
  unlock : now + config.compensationGraceMs ≤ maxU64
  seized : asset.seizable ≤ maxU64
  funds : asset.coverageLocked - config.bounty asset.coverageLocked + asset.seizable ≤ maxU64
  pool : acc.compensationPool +
    (asset.coverageLocked - config.bounty asset.coverageLocked + asset.seizable) ≤ maxU64

/-- The funds of an EXECUTING asset are seized, those of any other are left. -/
theorem seizeOrKeep_eq_ok {asset : Asset} {remainder : ℕ} {r : Asset × ℕ × List Event} :
    seizeOrKeep (clearCoverage asset) remainder = .ok r ↔
      asset.seizable ≤ maxU64 ∧
      (asset.state = .executing → remainder + asset.seizable ≤ maxU64) ∧
      r = (asset.upheld, remainder + asset.seizable, if asset.state = .executing then
        [.assetStateChanged asset.id asset.state .compensating] else []) := by
  simp only [seizeOrKeep, ite_eq_ok, seq_eq_ok, seizeIntoCompensation_eq_ok, add64_eq_ok,
    return_eq_ok]
  -- only an EXECUTING asset still holds funds to be seized
  by_cases hs : asset.state = .executing
  · simp only [clearCoverage, hs, not_true_eq_false, false_and, or_false, true_and,
      Asset.seizable, if_true, forall_const, Asset.upheld]
    constructor
    · rintro ⟨_, ⟨hz, rfl⟩, _, ⟨hf, rfl⟩, rfl⟩
      exact ⟨hz, hf, rfl⟩
    · rintro ⟨hz, hf, rfl⟩
      exact ⟨_, ⟨hz, rfl⟩, _, ⟨hf, rfl⟩, rfl⟩
  · simp only [clearCoverage, hs, false_and, not_false_eq_true, true_and, false_or,
      Asset.seizable, if_false, Nat.zero_le, false_implies, Nat.add_zero, Asset.upheld]
    exact eq_comm

/-- A dispute is upheld exactly when the guards hold. -/
theorem uphold_eq_ok {dispute : Dispute} {pool : ValidatorPool} {asset : Asset}
    {acc : GlobalYieldAccumulator} {config : ProtocolConfig} {now : ℕ} {v : Verdict} :
    uphold dispute pool asset acc config now = .ok v ↔
      UpholdGuards dispute pool asset acc config now ∧
      v = upheldVerdict dispute pool asset acc config now := by
  simp only [uphold, seq_eq_ok, Prod.exists, slash_eq_ok, mulBps_eq_ok, takeOut_eq_ok,
    add64_eq_ok, seizeOrKeep_eq_ok, addToCompensationPool_eq_ok, return_eq_ok]
  -- slash, bounty, refund of the bond and seizure, in the order of the source
  constructor
  · rintro ⟨_, _, _, ⟨hf, hs, rfl, rfl, rfl⟩, _, ⟨hb, rfl⟩, _, ⟨hle, rfl⟩, _, ⟨hr, rfl⟩, _,
      ⟨hu, rfl⟩, _, _, _, ⟨hz, hfunds, he⟩, _, ⟨hp, rfl⟩, rfl⟩
    simp only [Prod.mk.injEq] at he
    obtain ⟨rfl, rfl, rfl⟩ := he
    exact ⟨⟨hf, hs, hb, hle, hr, hu, hz, by simp only [ProtocolConfig.bounty]; omega, hp⟩, rfl⟩
  · rintro ⟨⟨hf, hs, hb, hle, hr, hu, hz, hfunds, hp⟩, rfl⟩
    exact ⟨_, _, _, ⟨hf, hs, rfl, rfl, rfl⟩, _, ⟨hb, rfl⟩, _, ⟨hle, rfl⟩, _, ⟨hr, rfl⟩, _,
      ⟨hu, rfl⟩, _, _, _, ⟨hz, fun _ => hfunds, rfl⟩, _, ⟨hp, rfl⟩, rfl⟩

/-- A dispute is upheld on a quorum and a guilty share of at least the threshold. -/
theorem isUpheld_iff {dispute : Dispute} {config : ProtocolConfig} {total : ℕ} :
    isUpheld dispute config total = true ↔ config.juryQuorum ≤ total ∧
      config.juryThresholdBps * total ≤ bpsDenominator * dispute.votesGuilty := by
  simp [isUpheld]

/-- Which verdict a resolution returns, and what its branch checks. -/
inductive Decides (dispute : Dispute) (pool : ValidatorPool) (asset : Asset)
    (acc : GlobalYieldAccumulator) (config : ProtocolConfig) (now : ℕ) : Verdict → Prop where
  | expired (quorum : dispute.totalVotes < config.juryQuorum) (frozen : pool.status = .frozen) :
      Decides dispute pool asset acc config now (expiredVerdict dispute pool asset acc)
  | upheld (quorum : config.juryQuorum ≤ dispute.totalVotes)
      (threshold : config.juryThresholdBps * dispute.totalVotes ≤
        bpsDenominator * dispute.votesGuilty)
      (guards : UpholdGuards dispute pool asset acc config now) :
      Decides dispute pool asset acc config now (upheldVerdict dispute pool asset acc config now)
  | rejected (quorum : config.juryQuorum ≤ dispute.totalVotes)
      (threshold : bpsDenominator * dispute.votesGuilty <
        config.juryThresholdBps * dispute.totalVotes)
      (guards : RejectGuards dispute pool) :
      Decides dispute pool asset acc config now (rejectedVerdict dispute pool asset acc)

/-- What no verdict changes. -/
structure Verdict.Keeps (v : Verdict) (dispute : Dispute) (pool : ValidatorPool) (asset : Asset)
    (acc : GlobalYieldAccumulator) : Prop where
  disputeId : v.dispute.id = dispute.id
  disputeAsset : v.dispute.assetId = dispute.assetId
  disputeAcc : v.dispute.accumulatorId = dispute.accumulatorId
  target : v.dispute.targetPoolId = dispute.targetPoolId
  poolId : v.pool.id = pool.id
  validator : v.pool.validator = pool.validator
  assetId : v.asset.id = asset.id
  entity : v.asset.entity = asset.entity
  vouching : v.asset.validatorPoolId = asset.validatorPoolId
  accumulator : v.asset.accumulatorId = asset.accumulatorId
  accId : v.acc.id = acc.id
  accAsset : v.acc.assetId = acc.assetId
  cap : v.acc.treasuryCap = acc.treasuryCap

/-- No verdict changes the identity of the objects it touches. -/
theorem Decides.keeps {dispute : Dispute} {pool : ValidatorPool} {asset : Asset}
    {acc : GlobalYieldAccumulator} {config : ProtocolConfig} {now : ℕ} {v : Verdict}
    (h : Decides dispute pool asset acc config now v) : v.Keeps dispute pool asset acc := by
  cases h with
  | expired => exact ⟨rfl, rfl, rfl, rfl, rfl, rfl, rfl, rfl, rfl, rfl, rfl, rfl, rfl⟩
  | rejected => exact ⟨rfl, rfl, rfl, rfl, rfl, rfl, rfl, rfl, rfl, rfl, rfl, rfl, rfl⟩
  | upheld =>
    -- an upheld dispute files one of two assets, with the same identity
    have hasset : ∀ {β : Type} (f : Asset → β), f (clearCoverage asset).seized = f asset →
        f (setDisputed (clearCoverage asset) false) = f asset → f asset.upheld = f asset := by
      intro β f hs hd
      rw [Asset.upheld]
      split
      · exact hs
      · exact hd
    exact ⟨rfl, rfl, rfl, rfl, rfl, rfl, hasset Asset.id rfl rfl, hasset Asset.entity rfl rfl,
      hasset Asset.validatorPoolId rfl rfl, hasset Asset.accumulatorId rfl rfl, rfl, rfl, rfl⟩

/-- A dispute is resolved exactly when the guards hold, with the verdict that the tally decides. -/
theorem resolveDispute_eq_ok {dispute : Dispute} {pool : ValidatorPool} {asset : Asset}
    {acc : GlobalYieldAccumulator} {config : ProtocolConfig} {now : ℕ} {r : Verdict} :
    resolveDispute dispute pool asset acc config now = .ok r ↔
      ResolveGuards dispute pool asset acc config now ∧
      ∃ v, Decides dispute pool asset acc config now v ∧
        r = { v with events := v.events ++ [v.closing dispute] } := by
  simp only [resolveDispute, seq_eq_ok, assertVersion_eq_ok, ensure_eq_ok, add64_eq_ok, ite_eq_ok,
    return_eq_ok, isUpheld_iff]
  constructor
  · rintro ⟨-, hv, -, ho, -, hd, -, hp, -, ha, -, hc, _, ⟨ht, rfl⟩, v, hbranch, rfl⟩
    refine ⟨⟨hv, ho, hd, hp, ha, hc, ht⟩, v, ?_, rfl⟩
    -- no quorum, guilty or innocent: the three branches exclude each other
    rcases hbranch with ⟨hq, h⟩ | ⟨hq, ⟨hth, h⟩ | ⟨hth, h⟩⟩
    · obtain ⟨hf, rfl⟩ := expire_eq_ok.mp h
      exact .expired hq hf
    · obtain ⟨hg, rfl⟩ := uphold_eq_ok.mp h
      exact .upheld hth.1 hth.2 hg
    · obtain ⟨hg, rfl⟩ := reject_eq_ok.mp h
      have hq' : config.juryQuorum ≤ dispute.totalVotes := Nat.not_lt.mp hq
      exact .rejected hq' (Nat.not_le.mp fun h => hth ⟨hq', h⟩) hg
  · rintro ⟨⟨hv, ho, hd, hp, ha, hc, ht⟩, v, hdec, rfl⟩
    refine ⟨(), hv, (), ho, (), hd, (), hp, (), ha, (), hc, _, ⟨ht, rfl⟩, v, ?_, rfl⟩
    cases hdec with
    | expired hq hf => exact Or.inl ⟨hq, expire_eq_ok.mpr ⟨hf, rfl⟩⟩
    | upheld hq hth hg =>
      exact Or.inr ⟨Nat.not_lt.mpr hq, Or.inl ⟨⟨hq, hth⟩, uphold_eq_ok.mpr ⟨hg, rfl⟩⟩⟩
    | rejected hq hth hg =>
      exact Or.inr ⟨Nat.not_lt.mpr hq,
        Or.inr ⟨fun h => Nat.not_le.mpr hth h.2, reject_eq_ok.mpr ⟨hg, rfl⟩⟩⟩

/-! ## Juror rewards -/

/-- The dispute after pool `poolId` claimed its reward. -/
def Dispute.afterReward (dispute : Dispute) (poolId : ID) : Dispute :=
  { dispute with
    voted := dispute.voted.erase poolId
    jurorRewardPool := dispute.jurorRewardPool - dispute.jurorRewardPerVote }

/-- A juror is paid exactly for a vote in a rejected dispute, while the pool lasts. -/
theorem claimJurorReward_eq_ok {dispute : Dispute} {pool : ValidatorPool} {vcap : ValidatorCap}
    {r : Dispute × ℕ × List Event} :
    claimJurorReward dispute pool vcap = .ok r ↔
      dispute.status = .rejected ∧ vcap.poolId = pool.id ∧ pool.id ∈ dispute.voted ∧
      dispute.jurorRewardPerVote ≤ dispute.jurorRewardPool ∧
      r = (dispute.afterReward pool.id, dispute.jurorRewardPerVote,
        [.jurorRewardClaimed dispute.id pool.id dispute.jurorRewardPerVote]) := by
  simp only [claimJurorReward, seq_eq_ok, ensure_eq_ok, assertCap_eq_ok, takeOut_eq_ok,
    return_eq_ok]
  constructor
  · rintro ⟨-, hs, -, hc, -, hm, _, ⟨hr, rfl⟩, rfl⟩
    exact ⟨hs, hc, hm, hr, rfl⟩
  · rintro ⟨hs, hc, hm, hr, rfl⟩
    exact ⟨(), hs, (), hc, (), hm, _, ⟨hr, rfl⟩, rfl⟩

end Gally

import Gally.Contract.Asset

/-!
# Dispute court (`dispute.move`)

Any address posts a bond to contest a validator's attestation; staked peers vote,
one pool one vote; after the deadline anyone resolves. The three verdicts are
three helper functions (`expire`, `uphold`, `reject`), each a branch of
`resolve_dispute`.
-/

namespace Gally

open Checked

/-! ## Errors and constants -/

def eWrongAssetState : Abort := .code .dispute 300
def eReasonTooLong : Abort := .code .dispute 314
def eWrongBond : Abort := .code .dispute 600
def eDisputeExists : Abort := .code .dispute 601
def eJurorIneligible : Abort := .code .dispute 602
def eAlreadyVoted : Abort := .code .dispute 603
def eVotingClosed : Abort := .code .dispute 604
def eVotingOpen : Abort := .code .dispute 605
def eWrongDisputeObjects : Abort := .code .dispute 606
def eNotRejected : Abort := .code .dispute 607

def maxReasonBytes : ℕ := 256

/-- One open contest of a validator's attestation. Votes are tracked by pool. -/
structure Dispute where
  id : ID
  assetId : ID
  targetPoolId : ID
  accumulatorId : ID
  challenger : Address
  bond : ℕ
  evidence : WalrusRef
  reason : Bytes
  votesGuilty : ℕ
  votesInnocent : ℕ
  /-- pools that voted and, after a rejection, did not yet claim their reward -/
  voted : List ID
  votingDeadlineMs : ℕ
  status : DisputeStatus
  jurorRewardPerVote : ℕ
  jurorRewardPool : ℕ
  deriving DecidableEq, Repr

/-! ## Opening and voting -/

/-- Opens a dispute: freezes the target pool and halts the asset's tranches. -/
def initializeDispute (asset : Asset) (targetPool : ValidatorPool) (acc : GlobalYieldAccumulator)
    (config : ProtocolConfig) (bond : ℕ) (evidence : WalrusRef) (reason : Bytes) (now : ℕ)
    (sender : Address) (disputeId : ID) :
    Except Abort (Asset × ValidatorPool × Dispute × List Event) := do
  assertVersion config
  -- there has to be an accumulator to compensate and coverage to slash
  ensure (asset.state = .executing ∨ asset.state = .operational) eWrongAssetState
  ensure (0 < asset.coverageLocked) eWrongAssetState
  ensure (asset.disputed = false) eDisputeExists
  ensure (reason.length ≤ maxReasonBytes) eReasonTooLong
  -- the target is the pool that vouched, the accumulator the asset's own
  ensure (asset.validatorPoolId = some targetPool.id) eWrongDisputeObjects
  assertAsset acc asset.id
  ensure (bond = config.challengerBond) eWrongBond
  let votingDeadlineMs ← add64 now config.disputeWindowMs
  let dispute : Dispute :=
    { id := disputeId, assetId := asset.id, targetPoolId := targetPool.id,
      accumulatorId := acc.id, challenger := sender, bond, evidence, reason, votesGuilty := 0,
      votesInnocent := 0, voted := [], votingDeadlineMs, status := .opened,
      jurorRewardPerVote := 0, jurorRewardPool := 0 }
  let asset := setDisputed asset true
  -- aborts unless the pool is active, so never two disputes at once on one pool
  let (targetPool, events) ← freezePool targetPool (some disputeId)
  return (asset, targetPool, dispute, events ++
    [.disputeOpened disputeId asset.id targetPool.id sender bond evidence.sha256 reason])

/-- Casts one vote. -/
def voteOnDispute (dispute : Dispute) (jurorPool : ValidatorPool) (vcap : ValidatorCap)
    (config : ProtocolConfig) (guilty : Bool) (now : ℕ) :
    Except Abort (Dispute × List Event) := do
  assertVersion config
  ensure (dispute.status = .opened) eVotingClosed
  ensure (now < dispute.votingDeadlineMs) eVotingClosed
  assertCap jurorPool vcap
  -- the accused pool does not sit on its own jury
  ensure (jurorPool.id ≠ dispute.targetPoolId) eJurorIneligible
  ensure (isActive jurorPool = true) eJurorIneligible
  ensure (config.juryMinStake ≤ jurorPool.stake) eJurorIneligible
  ensure (jurorPool.id ∉ dispute.voted) eAlreadyVoted
  let votesGuilty ← (if guilty then add64 dispute.votesGuilty 1 else pure dispute.votesGuilty)
  let votesInnocent ← (if guilty then pure dispute.votesInnocent
    else add64 dispute.votesInnocent 1)
  return ({ dispute with voted := jurorPool.id :: dispute.voted, votesGuilty, votesInnocent },
    [.jurorVoted dispute.id jurorPool.id guilty votesGuilty votesInnocent])

/-! ## Resolution -/

/-- What a verdict returns: the four objects, the USDC sent out, the amounts for the
    event, and the events emitted on the way. -/
structure Verdict where
  dispute : Dispute
  pool : ValidatorPool
  asset : Asset
  acc : GlobalYieldAccumulator
  transfers : Transfers
  slashed : ℕ
  bounty : ℕ
  events : List Event
  deriving DecidableEq, Repr

/-- EXPIRED: the quorum was not met, the bond returns. -/
def expire (dispute : Dispute) (pool : ValidatorPool) (asset : Asset)
    (acc : GlobalYieldAccumulator) : Except Abort Verdict := do
  let (pool, events) ← unfreezePool pool (some dispute.id)
  return { dispute := { dispute with status := .expired, bond := 0 }, pool,
           asset := setDisputed asset false, acc,
           transfers := [(dispute.challenger, dispute.bond)], slashed := 0, bounty := 0, events }

/-- The funds of an UPHELD verdict beyond the slash: an EXECUTING asset is seized, an
    OPERATIONAL one keeps running. -/
def seizeOrKeep (asset : Asset) (slashed : ℕ) : Except Abort (Asset × ℕ × List Event) := do
  if asset.state = .executing then
    let (asset, seized, events) ← seizeIntoCompensation asset
    let funds ← add64 slashed seized
    return (asset, funds, events)
  -- revenue must keep flowing to the holders who are compensated
  else return (setDisputed asset false, slashed, [])

/-- UPHELD: slash the coverage, pay bounty and bond to the challenger, compensate. -/
def uphold (dispute : Dispute) (pool : ValidatorPool) (asset : Asset)
    (acc : GlobalYieldAccumulator) (config : ProtocolConfig) (now : ℕ) : Except Abort Verdict := do
  let coverage := asset.coverageLocked
  let (pool, slashed, events) ← slash pool coverage (some dispute.id)
  -- the bounty comes out of the slash, the bond returns in full
  let bounty ← mulBps coverage config.challengerBountyBps
  let remainder ← takeOut slashed bounty
  let toChallenger ← add64 bounty dispute.bond
  -- the coverage is consumed and must never be released again
  let asset := clearCoverage asset
  let unlockMs ← add64 now config.compensationGraceMs
  -- what is left, and the escrow of an EXECUTING asset, compensate the holders
  let (asset, funds, events') ← seizeOrKeep asset remainder
  let acc ← addToCompensationPool acc funds unlockMs
  return { dispute := { dispute with status := .upheld, bond := 0 }, pool, asset, acc,
           transfers := [(dispute.challenger, toChallenger)], slashed := coverage, bounty,
           events := events ++ events' }

/-- REJECTED: half of the bond compensates the frozen pool, the rest is for the
    jurors. -/
def reject (dispute : Dispute) (pool : ValidatorPool) (asset : Asset)
    (acc : GlobalYieldAccumulator) (totalVotes : ℕ) : Except Abort Verdict := do
  let (pool, events) ← unfreezePool pool (some dispute.id)
  let asset := setDisputed asset false
  let targetHalf := dispute.bond / 2
  let bond ← takeOut dispute.bond targetHalf
  -- the odd unit of the bond stays with the jurors
  let pool ← restituteStake pool targetHalf
  -- the quorum is at least one, so there are votes to divide by
  let jurorRewardPerVote ← div bond totalVotes
  let jurorRewardPool ← add64 dispute.jurorRewardPool bond
  return { dispute := { dispute with
             status := .rejected, bond := 0, jurorRewardPerVote, jurorRewardPool }
           pool, asset, acc, transfers := [], slashed := 0, bounty := 0, events }

/-- Quorum met, and the guilty fraction reaches the threshold. The products are `u128`
    products of `u64` values, which cannot overflow. -/
def isUpheld (dispute : Dispute) (config : ProtocolConfig) (totalVotes : ℕ) : Bool :=
  config.juryQuorum ≤ totalVotes ∧
    config.juryThresholdBps * totalVotes ≤ bpsDenominator * dispute.votesGuilty

/-- Resolves a dispute after its deadline. -/
def resolveDispute (dispute : Dispute) (targetPool : ValidatorPool) (asset : Asset)
    (acc : GlobalYieldAccumulator) (config : ProtocolConfig) (now : ℕ) : Except Abort Verdict := do
  assertVersion config
  ensure (dispute.status = .opened) eVotingClosed
  ensure (dispute.votingDeadlineMs ≤ now) eVotingOpen
  ensure (targetPool.id = dispute.targetPoolId) eWrongDisputeObjects
  ensure (asset.id = dispute.assetId) eWrongDisputeObjects
  ensure (acc.id = dispute.accumulatorId) eWrongDisputeObjects
  let totalVotes ← add64 dispute.votesGuilty dispute.votesInnocent
  let v ← (if totalVotes < config.juryQuorum then expire dispute targetPool asset acc
    else if isUpheld dispute config totalVotes then uphold dispute targetPool asset acc config now
    else reject dispute targetPool asset acc totalVotes)
  return { v with events := v.events ++
    [.disputeResolved dispute.id dispute.assetId dispute.targetPoolId v.dispute.status v.slashed
      v.bounty dispute.challenger v.acc.compensationPool v.acc.compensationUnlockMs
      v.acc.wrappingFrozen] }

/-- A juror pulls its share of a rejected challenger's bond, once per pool. -/
def claimJurorReward (dispute : Dispute) (jurorPool : ValidatorPool) (vcap : ValidatorCap) :
    Except Abort (Dispute × ℕ × List Event) := do
  ensure (dispute.status = .rejected) eNotRejected
  assertCap jurorPool vcap
  ensure (jurorPool.id ∈ dispute.voted) eJurorIneligible
  -- neither version nor status of the juror's pool is asked for
  let jurorRewardPool ← takeOut dispute.jurorRewardPool dispute.jurorRewardPerVote
  return ({ dispute with voted := dispute.voted.erase jurorPool.id, jurorRewardPool },
    dispute.jurorRewardPerVote,
    [.jurorRewardClaimed dispute.id jurorPool.id dispute.jurorRewardPerVote])

end Gally

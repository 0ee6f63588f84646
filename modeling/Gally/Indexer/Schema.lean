import Gally.Indexer.Record
import Gally.Library.Overwrite

/-!
# Tables of the indexer (`db/migrations`)

One structure for the rows of each typed table, `Row` for all of them, and their primary or unique
keys and foreign keys as a `Relational.Schema`. Serial ids are left out: they number the rows in
the order in which a relation keeps them. `BIGINT`, `INT` and `SMALLINT` columns are integers; the
casts into them are in the handlers. `NUMERIC(39,0)` columns hold `u128` values.

`UPDATE` statements set groups of columns (`Assignment`), each group always together.
-/

namespace Gally.Indexer

open Relational

/-- Provenance of a row (`EventMeta`). -/
structure EventMeta where
  txDigest : Digest
  eventSeq : ℤ
  checkpointSeq : ℤ
  timestampMs : ℤ
  deriving DecidableEq, Repr

/-! ## Values of the `event_type` columns -/

/-- Of `governance_events`: the struct name without `Event`. -/
inductive GovernanceKind where
  | protocolInitialized | protocolParamChanged | protocolTreasuryChanged | emergencyStopTriggered
  | protocolResumed
  deriving DecidableEq, Repr

/-- Of `validator_stake_events`. -/
inductive StakeKind where
  | added | withdrawn
  deriving DecidableEq, Repr

/-- Of `position_events`. -/
inductive PositionKind where
  | sharesClaimed | sharesWrapped | sharesUnwrapped | yieldClaimed | shareRedeemed
  | contributionRefunded
  deriving DecidableEq, Repr

/-- Of `yield_index_series`. -/
inductive YieldKind where
  | revenue | rollover | compensation
  deriving DecidableEq, Repr

/-- Of `tranche_events`. -/
inductive TrancheKind where
  | proofSubmitted | approved | released
  deriving DecidableEq, Repr

/-- Of `accumulator_balances`. -/
inductive BalanceKind where
  | entityDefaulted | yieldClaimed | revenueDeposited | rolloverSwept | compensationSwept
  | dustSwept | disputeResolved
  deriving DecidableEq, Repr

/-! ## Rows -/

/-- `governance_events` -/
structure GovernanceRow where
  eventMeta : EventMeta
  eventType : GovernanceKind
  configId : Option ID := none
  admin : Option Address := none
  paramName : Option String := none
  oldValue : Option ℤ := none
  newValue : Option ℤ := none
  oldTreasury : Option Address := none
  newTreasury : Option Address := none
  deriving DecidableEq, Repr

/-- `assets` -/
structure AssetRow where
  assetId : ID
  entity : Address
  goal : ℤ
  fundingDeadlineMs : ℤ
  trancheCount : ℤ
  revenueSplitBps : ℤ
  collateral : ℤ
  validatorPoolId : Option ID := none
  coverage : Option ℤ := none
  accumulatorId : Option ID := none
  currentState : ℤ
  closeReason : Option ℤ := none
  createdAtMs : ℤ
  createdTx : Digest
  name : Option String
  ticker : Option String
  category : ℤ
  location : Option String
  entityName : Option String
  metadataBlobId : Option String
  metadataSha256 : Option String
  isTermFinancing : Bool
  returnTarget : Option ℤ
  deriving DecidableEq, Repr

/-- `tranche_schedule` -/
structure TrancheScheduleRow where
  assetId : ID
  trancheIndex : ℤ
  amount : ℤ
  deadlineMs : ℤ
  description : Option String
  deriving DecidableEq, Repr

/-- `asset_state_changes` -/
structure AssetStateChangeRow where
  eventMeta : EventMeta
  assetId : ID
  oldState : ℤ
  newState : ℤ
  deriving DecidableEq, Repr

/-- `validator_pools` -/
structure ValidatorPoolRow where
  poolId : ID
  validator : Address
  initialStake : ℤ
  currentStatus : ℤ
  registeredAtMs : ℤ
  registeredTx : Digest
  name : Option String
  deriving DecidableEq, Repr

/-- `validator_stake_events` -/
structure StakeEventRow where
  eventMeta : EventMeta
  poolId : ID
  eventType : StakeKind
  depositor : Option Address
  amount : ℤ
  stakeAfter : ℤ
  deriving DecidableEq, Repr

/-- `validator_status_changes` -/
structure StatusChangeRow where
  eventMeta : EventMeta
  poolId : ID
  oldStatus : ℤ
  newStatus : ℤ
  disputeId : Option ID
  deriving DecidableEq, Repr

/-- `raise_progress` -/
structure RaiseProgressRow where
  eventMeta : EventMeta
  assetId : ID
  contributor : Address
  amount : ℤ
  raisedAfter : ℤ
  deriving DecidableEq, Repr

/-- `position_events` -/
structure PositionRow where
  eventMeta : EventMeta
  eventType : PositionKind
  assetId : ID
  actor : Address
  amount : Option ℤ := none
  shareObjectId : Option ID := none
  totalWrappedAfter : Option ℤ := none
  indexAtClaim : Option ℕ := none
  deriving DecidableEq, Repr

/-- `yield_index_series` -/
structure YieldIndexRow where
  eventMeta : EventMeta
  eventType : YieldKind
  assetId : ID
  gross : Option ℤ := none
  fee : Option ℤ := none
  investorPortion : Option ℤ := none
  entityPortion : Option ℤ := none
  routedToRollover : Option Bool := none
  indexAfter : ℕ
  unwrappedSupply : ℤ
  deriving DecidableEq, Repr

/-- `tranche_events` -/
structure TrancheEventRow where
  eventMeta : EventMeta
  eventType : TrancheKind
  assetId : ID
  trancheIndex : ℤ
  blobId : Option String := none
  sha256 : Option String := none
  validator : Option Address := none
  poolId : Option ID := none
  amount : Option ℤ := none
  escrowAfter : Option ℤ := none
  deriving DecidableEq, Repr

/-- `disputes` -/
structure DisputeRow where
  disputeId : ID
  assetId : ID
  targetPoolId : ID
  challenger : Address
  bond : ℤ
  evidenceHash : String
  openedAtMs : ℤ
  openedTx : Digest
  resolvedAtMs : Option ℤ := none
  verdict : Option ℤ := none
  slashed : Option ℤ := none
  bounty : Option ℤ := none
  resolvedTx : Option Digest := none
  reason : Option String
  deriving DecidableEq, Repr

/-- `jury_votes` -/
structure JuryVoteRow where
  eventMeta : EventMeta
  disputeId : ID
  jurorPoolId : ID
  guilty : Bool
  votesGuiltyAfter : ℤ
  votesInnocentAfter : ℤ
  deriving DecidableEq, Repr

/-- `juror_rewards` -/
structure JurorRewardRow where
  eventMeta : EventMeta
  disputeId : ID
  jurorPoolId : ID
  amount : ℤ
  deriving DecidableEq, Repr

/-- `dust_sweeps` -/
structure DustSweepRow where
  eventMeta : EventMeta
  assetId : ID
  amount : ℤ
  deriving DecidableEq, Repr

/-- `accumulator_balances` -/
structure AccumulatorBalanceRow where
  eventMeta : EventMeta
  assetId : ID
  eventType : BalanceKind
  rewardPoolAfter : Option ℤ := none
  rolloverReserveAfter : Option ℤ := none
  compensationPoolAfter : Option ℤ := none
  compensationUnlockMs : Option ℤ := none
  wrappingFrozen : Option Bool := none
  deriving DecidableEq, Repr

/-- A row of a typed table. -/
inductive Row where
  | governance (r : GovernanceRow)
  | asset (r : AssetRow)
  | trancheSchedule (r : TrancheScheduleRow)
  | stateChange (r : AssetStateChangeRow)
  | validatorPool (r : ValidatorPoolRow)
  | stakeEvent (r : StakeEventRow)
  | statusChange (r : StatusChangeRow)
  | raiseProgress (r : RaiseProgressRow)
  | position (r : PositionRow)
  | yieldIndex (r : YieldIndexRow)
  | trancheEvent (r : TrancheEventRow)
  | dispute (r : DisputeRow)
  | juryVote (r : JuryVoteRow)
  | jurorReward (r : JurorRewardRow)
  | dustSweep (r : DustSweepRow)
  | accumulatorBalance (r : AccumulatorBalanceRow)
  deriving DecidableEq, Repr

/-! ## Keys -/

/-- The tables with a row for each event, unique in `(tx_digest, event_seq)`. -/
inductive EventTable where
  | governanceEvents | assetStateChanges | validatorStakeEvents | validatorStatusChanges
  | raiseProgress | positionEvents | yieldIndexSeries | trancheEvents | juryVotes | jurorRewards
  | dustSweeps | accumulatorBalances
  deriving DecidableEq, Repr

/-- The key of a row, with its table. -/
inductive Key where
  | event (table : EventTable) (txDigest : Digest) (eventSeq : ℤ)
  | asset (assetId : ID)
  | trancheSchedule (assetId : ID) (trancheIndex : ℤ)
  | validatorPool (poolId : ID)
  | dispute (disputeId : ID)
  deriving DecidableEq, Repr

/-- The key of the row of an event. -/
def EventMeta.key (m : EventMeta) (table : EventTable) : Key := .event table m.txDigest m.eventSeq

/-- The primary or unique key of a row. -/
def Row.key : Row → Key
  | .governance r => r.eventMeta.key .governanceEvents
  | .asset r => .asset r.assetId
  | .trancheSchedule r => .trancheSchedule r.assetId r.trancheIndex
  | .stateChange r => r.eventMeta.key .assetStateChanges
  | .validatorPool r => .validatorPool r.poolId
  | .stakeEvent r => r.eventMeta.key .validatorStakeEvents
  | .statusChange r => r.eventMeta.key .validatorStatusChanges
  | .raiseProgress r => r.eventMeta.key .raiseProgress
  | .position r => r.eventMeta.key .positionEvents
  | .yieldIndex r => r.eventMeta.key .yieldIndexSeries
  | .trancheEvent r => r.eventMeta.key .trancheEvents
  | .dispute r => .dispute r.disputeId
  | .juryVote r => r.eventMeta.key .juryVotes
  | .jurorReward r => r.eventMeta.key .jurorRewards
  | .dustSweep r => r.eventMeta.key .dustSweeps
  | .accumulatorBalance r => r.eventMeta.key .accumulatorBalances

/-- The foreign keys of a row (`REFERENCES`). -/
def Row.refs : Row → List Key
  | .governance _ | .asset _ | .validatorPool _ => []
  | .trancheSchedule r => [.asset r.assetId]
  | .stateChange r => [.asset r.assetId]
  | .stakeEvent r => [.validatorPool r.poolId]
  | .statusChange r => [.validatorPool r.poolId]
  | .raiseProgress r => [.asset r.assetId]
  | .position r => [.asset r.assetId]
  | .yieldIndex r => [.asset r.assetId]
  | .trancheEvent r => [.asset r.assetId]
  | .dispute r => [.asset r.assetId, .validatorPool r.targetPoolId]
  | .juryVote r => [.dispute r.disputeId]
  | .jurorReward r => [.dispute r.disputeId]
  | .dustSweep r => [.asset r.assetId]
  | .accumulatorBalance r => [.asset r.assetId]

/-- PostgreSQL `TEXT` holds every character but U+0000. -/
def storableText (s : Option String) : Bool := s.all fun s => '\x00' ∉ s.toList

/-- The texts of a row can be stored. Identifiers, hex digests and names of parameters always
    can. -/
def Row.storable : Row → Bool
  | .asset r => storableText r.name && storableText r.ticker && storableText r.location &&
      storableText r.entityName
  | .trancheSchedule r => storableText r.description
  | .validatorPool r => storableText r.name
  | .dispute r => storableText r.reason
  | _ => true

/-! ## Updates -/

/-- What an `UPDATE` sets. -/
inductive Assignment where
  | vouched (validatorPoolId : ID) (coverage : ℤ)
  | currentState (state : ℤ)
  | closeReason (reason : ℤ)
  | accumulator (accumulatorId : ID)
  | currentStatus (status : ℤ)
  | resolution (verdict slashed bounty resolvedAtMs : ℤ) (resolvedTx : Digest)
  deriving DecidableEq, Repr

/-- The group of columns an `UPDATE` sets. -/
inductive Column where
  | vouched | currentState | closeReason | accumulator | currentStatus | resolution
  deriving DecidableEq, Repr

def Assignment.column : Assignment → Column
  | .vouched .. => .vouched
  | .currentState _ => .currentState
  | .closeReason _ => .closeReason
  | .accumulator _ => .accumulator
  | .currentStatus _ => .currentStatus
  | .resolution .. => .resolution

def AssetRow.assign (r : AssetRow) : Assignment → AssetRow
  | .vouched validatorPoolId coverage =>
    { r with validatorPoolId := some validatorPoolId, coverage := some coverage }
  | .currentState state => { r with currentState := state }
  | .closeReason reason => { r with closeReason := some reason }
  | .accumulator accumulatorId => { r with accumulatorId := some accumulatorId }
  | _ => r

def ValidatorPoolRow.assign (r : ValidatorPoolRow) : Assignment → ValidatorPoolRow
  | .currentStatus status => { r with currentStatus := status }
  | _ => r

def DisputeRow.assign (r : DisputeRow) : Assignment → DisputeRow
  | .resolution verdict slashed bounty resolvedAtMs resolvedTx =>
    { r with
      verdict := some verdict, slashed := some slashed, bounty := some bounty,
      resolvedAtMs := some resolvedAtMs, resolvedTx := some resolvedTx }
  | _ => r

def Row.assign (a : Assignment) : Row → Row
  | .asset r => .asset (r.assign a)
  | .validatorPool r => .validatorPool (r.assign a)
  | .dispute r => .dispute (r.assign a)
  | r => r

/-- An assignment leaves the key of a row. -/
theorem Row.key_assign (a : Assignment) (r : Row) : (r.assign a).key = r.key := by
  cases r with
  | asset r => cases a <;> rfl
  | validatorPool r => cases a <;> rfl
  | dispute r => cases a <;> rfl
  | _ => rfl

instance : Schema Row Key Assignment where
  key := Row.key
  refs := Row.refs
  storable := Row.storable
  assign := Row.assign
  key_assign := Row.key_assign

instance : HasColumn Assignment Column := ⟨Assignment.column⟩

/-- The row has the columns the assignment sets. -/
def Row.Writable : Row → Assignment → Prop
  | .asset _, .vouched .. | .asset _, .currentState _ | .asset _, .closeReason _
  | .asset _, .accumulator _ => True
  | .validatorPool _, .currentStatus _ => True
  | .dispute _, .resolution .. => True
  | _, _ => False

/-- A later assignment to a column hides an earlier one. -/
theorem Row.assign_assign_self {a b : Assignment} (r : Row) (h : a.column = b.column) :
    (r.assign b).assign a = r.assign a := by
  cases r with
  | asset r => cases a <;> cases b <;> first | rfl | exact nomatch h
  | validatorPool r => cases a <;> cases b <;> first | rfl | exact nomatch h
  | dispute r => cases a <;> cases b <;> first | rfl | exact nomatch h
  | _ => rfl

/-- Assignments to different columns commute. -/
theorem Row.assign_assign_comm {a b : Assignment} (r : Row) (h : a.column ≠ b.column) :
    (r.assign b).assign a = (r.assign a).assign b := by
  cases r with
  | asset r => cases a <;> cases b <;> first | rfl | exact absurd rfl h
  | validatorPool r => cases a <;> cases b <;> first | rfl | exact absurd rfl h
  | dispute r => cases a <;> cases b <;> first | rfl | exact absurd rfl h
  | _ => rfl

/-- Different assignments to one column of a row it has are seen. -/
theorem Row.assign_injective {a b : Assignment} {r : Row} (h : a.column = b.column)
    (hw : r.Writable a) (heq : r.assign a = r.assign b) : a = b := by
  cases r with
  | asset r =>
    cases a <;> cases b <;> simp_all [assign, AssetRow.assign, Assignment.column, Writable]
  | validatorPool r =>
    cases a <;> cases b <;> simp_all [assign, ValidatorPoolRow.assign, Assignment.column, Writable]
  | dispute r =>
    cases a <;> cases b <;> simp_all [assign, DisputeRow.assign, Assignment.column, Writable]
  | _ => exact hw.elim

instance : Columns Row Key Assignment Column where
  Writable a r := r.Writable a
  overwrite _ _ r h := r.assign_assign_self h
  commute _ _ r h := r.assign_assign_comm h
  injective _ _ _ h hw heq := Row.assign_injective h hw heq

end Gally.Indexer

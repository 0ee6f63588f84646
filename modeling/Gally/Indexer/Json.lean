import Gally.Indexer.Lists
import Gally.Indexer.Queries

/-!
# Served objects (`db/models.rs`, `api/routes`)

The JSON objects of the API. Every `u64` amount is served as a string, and so is the yield index;
times, states, counts and tranche numbers are JSON numbers.
-/

namespace Gally.Indexer

/-- A JSON value. -/
inductive Json where
  | string (s : String)
  | number (v : ℤ)
  | boolean (b : Bool)
  deriving DecidableEq, Repr

/-- A JSON object by its fields; `none` is `null`. -/
abbrev JsonObject := List (String × Option Json)

namespace JsonObject

/-- The value of a field; nothing, if it is missing or `null`. -/
def get? (o : JsonObject) (field : String) : Option Json := (o.lookup field).join

def string? (o : JsonObject) (field : String) : Option String :=
  (o.get? field).bind fun
    | .string s => some s
    | _ => none

def number? (o : JsonObject) (field : String) : Option ℤ :=
  (o.get? field).bind fun
    | .number v => some v
    | _ => none

def boolean? (o : JsonObject) (field : String) : Option Bool :=
  (o.get? field).bind fun
    | .boolean b => some b
    | _ => none

end JsonObject

/-! ## Fields -/

/-- An amount as a string (`string_amount`). -/
def Json.amount (v : ℤ) : Json := .string (Decimal.ofInt v)

/-- The yield index as a string (`::text`). -/
def Json.index (v : ℕ) : Json := .string (Decimal.ofNat v)

def Json.id (v : ID) : Json := .string (idText v)

def Json.digest (v : Digest) : Json := .string (digestText v)

/-! ## Rows -/

/-- The item of `GET /assets`. -/
def AssetRow.json (r : AssetRow) : JsonObject :=
  [("asset_id", some (.id r.assetId)),
   ("entity", some (.id r.entity)),
   ("goal", some (.amount r.goal)),
   ("funding_deadline_ms", some (.number r.fundingDeadlineMs)),
   ("tranche_count", some (.number r.trancheCount)),
   ("revenue_split_bps", some (.number r.revenueSplitBps)),
   ("collateral", some (.amount r.collateral)),
   ("validator_pool_id", r.validatorPoolId.map .id),
   ("coverage", r.coverage.map .amount),
   ("accumulator_id", r.accumulatorId.map .id),
   ("current_state", some (.number r.currentState)),
   ("close_reason", r.closeReason.map .number),
   ("created_at_ms", some (.number r.createdAtMs)),
   ("name", r.name.map .string),
   ("ticker", r.ticker.map .string),
   ("category", some (.number r.category)),
   ("location", r.location.map .string),
   ("entity_name", r.entityName.map .string),
   ("metadata_blob_id", r.metadataBlobId.map .string),
   ("metadata_sha256", r.metadataSha256.map .string),
   ("is_term_financing", some (.boolean r.isTermFinancing)),
   ("return_target", r.returnTarget.map .amount)]

/-- The item of `GET /assets/:asset_id/history`. -/
def AssetStateChangeRow.json (r : AssetStateChangeRow) : JsonObject :=
  [("timestamp_ms", some (.number r.eventMeta.timestampMs)),
   ("old_state", some (.number r.oldState)),
   ("new_state", some (.number r.newState)),
   ("tx_digest", some (.digest r.eventMeta.txDigest))]

/-- The item of `GET /governance`. -/
def GovernanceRow.json (r : GovernanceRow) : JsonObject :=
  [("timestamp_ms", some (.number r.eventMeta.timestampMs)),
   ("event_type", some (.string r.eventType.text)),
   ("tx_digest", some (.digest r.eventMeta.txDigest)),
   ("config_id", r.configId.map .id),
   ("admin", r.admin.map .id),
   ("param_name", r.paramName.map .string),
   ("old_value", r.oldValue.map .amount),
   ("new_value", r.newValue.map .amount),
   ("old_treasury", r.oldTreasury.map .id),
   ("new_treasury", r.newTreasury.map .id)]

/-- The item of `GET /validators`. -/
def ValidatorPoolRow.json (r : ValidatorPoolRow) : JsonObject :=
  [("pool_id", some (.id r.poolId)),
   ("validator", some (.id r.validator)),
   ("initial_stake", some (.amount r.initialStake)),
   ("current_status", some (.number r.currentStatus)),
   ("registered_at_ms", some (.number r.registeredAtMs)),
   ("name", r.name.map .string)]

/-- The stored text of a stake event. -/
def StakeKind.text : StakeKind → String
  | .added => "added"
  | .withdrawn => "withdrawn"

/-- An item of `stake_events` in `GET /validators/:pool_id`. -/
def StakeEventRow.json (r : StakeEventRow) : JsonObject :=
  [("timestamp_ms", some (.number r.eventMeta.timestampMs)),
   ("event_type", some (.string r.eventType.text)),
   ("depositor", r.depositor.map .id),
   ("amount", some (.amount r.amount)),
   ("stake_after", some (.amount r.stakeAfter)),
   ("tx_digest", some (.digest r.eventMeta.txDigest))]

/-- An item of `status_changes` in `GET /validators/:pool_id`. -/
def StatusChangeRow.json (r : StatusChangeRow) : JsonObject :=
  [("timestamp_ms", some (.number r.eventMeta.timestampMs)),
   ("old_status", some (.number r.oldStatus)),
   ("new_status", some (.number r.newStatus)),
   ("dispute_id", r.disputeId.map .id),
   ("tx_digest", some (.digest r.eventMeta.txDigest))]

/-- The item of `GET /assets/:asset_id/raise-progress`. -/
def RaiseProgressRow.json (r : RaiseProgressRow) : JsonObject :=
  [("timestamp_ms", some (.number r.eventMeta.timestampMs)),
   ("contributor", some (.id r.contributor)),
   ("amount", some (.amount r.amount)),
   ("raised_after", some (.amount r.raisedAfter)),
   ("tx_digest", some (.digest r.eventMeta.txDigest))]

/-- The item of `GET /portfolio/:address`. -/
def PositionRow.json (r : PositionRow) : JsonObject :=
  [("timestamp_ms", some (.number r.eventMeta.timestampMs)),
   ("event_type", some (.string r.eventType.text)),
   ("asset_id", some (.id r.assetId)),
   ("actor", some (.id r.actor)),
   ("amount", r.amount.map .amount),
   ("share_object_id", r.shareObjectId.map .id),
   ("total_wrapped_after", r.totalWrappedAfter.map .amount),
   ("index_at_claim", r.indexAtClaim.map .index),
   ("tx_digest", some (.digest r.eventMeta.txDigest))]

/-- The item of `GET /assets/:asset_id/wrap-ratio`. -/
def PositionRow.wrapRatioJson (r : PositionRow) : JsonObject :=
  [("timestamp_ms", some (.number r.eventMeta.timestampMs)),
   ("event_type", some (.string r.eventType.text)),
   ("total_wrapped_after", r.totalWrappedAfter.map .amount),
   ("tx_digest", some (.digest r.eventMeta.txDigest))]

/-- The stored text of a point of the index curve. -/
def YieldKind.text : YieldKind → String
  | .revenue => "revenue"
  | .rollover => "rollover"
  | .compensation => "compensation"

/-- The item of `GET /assets/:asset_id/yield`. -/
def YieldIndexRow.json (r : YieldIndexRow) : JsonObject :=
  [("timestamp_ms", some (.number r.eventMeta.timestampMs)),
   ("event_type", some (.string r.eventType.text)),
   ("gross", r.gross.map .amount),
   ("fee", r.fee.map .amount),
   ("investor_portion", r.investorPortion.map .amount),
   ("entity_portion", r.entityPortion.map .amount),
   ("routed_to_rollover", r.routedToRollover.map .boolean),
   ("index_after", some (.index r.indexAfter)),
   ("unwrapped_supply", some (.amount r.unwrappedSupply)),
   ("tx_digest", some (.digest r.eventMeta.txDigest))]

/-- The stored text of a tranche event. -/
def TrancheKind.text : TrancheKind → String
  | .proofSubmitted => "proof_submitted"
  | .approved => "approved"
  | .released => "released"

/-- The item of `data` in `GET /assets/:asset_id/tranches`. -/
def TrancheEventRow.json (r : TrancheEventRow) : JsonObject :=
  [("timestamp_ms", some (.number r.eventMeta.timestampMs)),
   ("event_type", some (.string r.eventType.text)),
   ("tranche_index", some (.number r.trancheIndex)),
   ("blob_id", r.blobId.map .string),
   ("sha256", r.sha256.map .string),
   ("validator", r.validator.map .id),
   ("pool_id", r.poolId.map .id),
   ("amount", r.amount.map .amount),
   ("escrow_after", r.escrowAfter.map .amount),
   ("tx_digest", some (.digest r.eventMeta.txDigest))]

/-- The item of `schedule` in `GET /assets/:asset_id/tranches`. -/
def TrancheScheduleRow.json (r : TrancheScheduleRow) : JsonObject :=
  [("tranche_index", some (.number r.trancheIndex)),
   ("amount", some (.amount r.amount)),
   ("deadline_ms", some (.number r.deadlineMs)),
   ("description", r.description.map .string)]

/-- The item of `GET /disputes`. -/
def ListedDispute.json (d : ListedDispute) : JsonObject :=
  [("dispute_id", some (.id d.dispute.disputeId)),
   ("asset_id", some (.id d.dispute.assetId)),
   ("target_pool_id", some (.id d.dispute.targetPoolId)),
   ("challenger", some (.id d.dispute.challenger)),
   ("bond", some (.amount d.dispute.bond)),
   ("evidence_hash", some (.string d.dispute.evidenceHash)),
   ("reason", d.dispute.reason.map .string),
   ("opened_at_ms", some (.number d.dispute.openedAtMs)),
   ("resolved_at_ms", d.dispute.resolvedAtMs.map .number),
   ("verdict", d.dispute.verdict.map .number),
   ("slashed", d.dispute.slashed.map .amount),
   ("bounty", d.dispute.bounty.map .amount),
   ("votes_guilty", some (.number d.votesGuilty)),
   ("votes_innocent", some (.number d.votesInnocent)),
   ("votes_guilty_after", some (.number d.votesGuilty)),
   ("votes_innocent_after", some (.number d.votesInnocent))]

/-- The item of `jury_votes` in `GET /disputes/:dispute_id`. -/
def JuryVoteRow.json (r : JuryVoteRow) : JsonObject :=
  [("timestamp_ms", some (.number r.eventMeta.timestampMs)),
   ("juror_pool_id", some (.id r.jurorPoolId)),
   ("guilty", some (.boolean r.guilty)),
   ("votes_guilty_after", some (.number r.votesGuiltyAfter)),
   ("votes_innocent_after", some (.number r.votesInnocentAfter)),
   ("tx_digest", some (.digest r.eventMeta.txDigest))]

/-- `accumulator` in `GET /assets/:asset_id`. -/
def AccumulatorBalances.json (b : AccumulatorBalances) : JsonObject :=
  [("reward_pool", b.rewardPool.map .amount),
   ("rollover_reserve", b.rolloverReserve.map .amount),
   ("compensation_pool", b.compensationPool.map .amount),
   ("compensation_unlock_ms", b.compensationUnlockMs.map .number),
   ("wrapping_frozen", b.wrappingFrozen.map .boolean)]

/-- The item of `GET /assets/:asset_id/holders`; who never claimed has index 0. -/
def HolderFoldRow.json (r : HolderFoldRow) : JsonObject :=
  [("address", some (.id r.address)),
   ("share_count", some (.amount r.shareCount)),
   ("wrapped", some (.amount r.wrapped)),
   ("acquired_at_ms", r.acquiredAtMs.map .number),
   ("yield_claimed_index", some (.string ((r.yieldClaimedIndex.map Decimal.ofNat).getD "0")))]

end Gally.Indexer

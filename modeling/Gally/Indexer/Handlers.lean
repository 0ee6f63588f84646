import Gally.Indexer.Schema

/-!
# Event handlers (`ingestion/handlers`, the write paths of `db/queries.rs`)

What each handler asks of the database for an event, as the list of its statements. A handler
executes them in order and stops at the first that fails.
-/

namespace Gally

/-! ## Numbers of the enumerations -/

/-- The `u8` of a state (`STATE_*`). -/
def AssetState.code : AssetState → ℕ
  | .pendingVouch => 0
  | .funding => 1
  | .failed => 2
  | .cancelled => 3
  | .executing => 4
  | .operational => 5
  | .compensating => 6
  | .closed => 7

/-- The `u8` of a pool status (`STATUS_*` of `validator`). -/
def PoolStatus.code : PoolStatus → ℕ
  | .active => 0
  | .frozen => 1
  | .slashed => 2

/-- The `u8` of a verdict (`STATUS_*` of `dispute`). -/
def DisputeStatus.code : DisputeStatus → ℕ
  | .opened => 0
  | .upheld => 1
  | .rejected => 2
  | .expired => 3

/-- The `u8` of a close reason (`CLOSE_REASON_*`). -/
def CloseReason.code : CloseReason → ℕ
  | .returnTarget => 1
  | .compensation => 2
  | .windDown => 3

namespace Indexer

open Relational

/-- A statement of a handler. -/
abbrev Statement := Stmt Row Key Assignment

/-! ## Conversions (`event_types.rs`) -/

/-- `v as i64` of a `u64`. -/
def asI64 (v : ℕ) : ℤ := Int.bmod v (2 ^ 64)

/-- `v as i32` of a `u64`. -/
def asI32 (v : ℕ) : ℤ := Int.bmod v (2 ^ 32)

/-- `s.parse::<i32>().unwrap_or(0)` of the numeral of `v`. -/
def parseI32 (v : ℕ) : ℤ := if v < 2 ^ 31 then v else 0

/-- `s.parse::<i64>().ok().unwrap_or(0)` of the numeral of `v`. -/
def parseI64 (v : ℕ) : ℤ := if v < 2 ^ 63 then v else 0

/-! ### Bytes as text (`String::from_utf8_lossy`)

Well-formed sequences become their characters, and every maximal prefix of an ill-formed sequence
becomes one replacement character. -/

namespace Utf8

/-- U+FFFD. -/
def replacement : Char := Char.ofNat 0xFFFD

/-- A continuation byte. -/
def isContinuation (b : UInt8) : Bool := 0x80 ≤ b.toNat && b.toNat ≤ 0xBF

/-- The length of the sequence a lead byte begins; 0 for a byte that begins none. -/
def width (b : UInt8) : ℕ :=
  let n := b.toNat
  if 0xC2 ≤ n ∧ n ≤ 0xDF then 2
  else if 0xE0 ≤ n ∧ n ≤ 0xEF then 3
  else if 0xF0 ≤ n ∧ n ≤ 0xF4 then 4
  else 0

/-- The second byte fits the first: no overlong form, no surrogate, nothing above U+10FFFF. -/
def fitsLead (b₀ b₁ : UInt8) : Bool :=
  isContinuation b₁ && (b₀.toNat ≠ 0xE0 || 0xA0 ≤ b₁.toNat) &&
    (b₀.toNat ≠ 0xED || b₁.toNat ≤ 0x9F) && (b₀.toNat ≠ 0xF0 || 0x90 ≤ b₁.toNat) &&
    (b₀.toNat ≠ 0xF4 || b₁.toNat ≤ 0x8F)

/-- The character of a two-byte sequence. -/
def char₂ (b₀ b₁ : UInt8) : Char := Char.ofNat ((b₀.toNat - 0xC0) * 64 + (b₁.toNat - 0x80))

/-- The character of a three-byte sequence. -/
def char₃ (b₀ b₁ b₂ : UInt8) : Char :=
  Char.ofNat (((b₀.toNat - 0xE0) * 64 + (b₁.toNat - 0x80)) * 64 + (b₂.toNat - 0x80))

/-- The character of a four-byte sequence. -/
def char₄ (b₀ b₁ b₂ b₃ : UInt8) : Char :=
  Char.ofNat ((((b₀.toNat - 0xF0) * 64 + (b₁.toNat - 0x80)) * 64 + (b₂.toNat - 0x80)) * 64 +
    (b₃.toNat - 0x80))

/-- Decode, with a replacement character for every maximal ill-formed part. -/
def decodeLossy : List UInt8 → List Char
  | [] => []
  | b₀ :: rest =>
    if b₀.toNat < 0x80 then Char.ofNat b₀.toNat :: decodeLossy rest
    else match rest with
      | [] => [replacement]
      | b₁ :: rest₁ =>
        if width b₀ = 2 ∧ isContinuation b₁ then char₂ b₀ b₁ :: decodeLossy rest₁
        else if 3 ≤ width b₀ ∧ fitsLead b₀ b₁ then
          match rest₁ with
          | [] => [replacement]
          | b₂ :: rest₂ =>
            if ¬ isContinuation b₂ then replacement :: decodeLossy (b₂ :: rest₂)
            else if width b₀ = 3 then char₃ b₀ b₁ b₂ :: decodeLossy rest₂
            else match rest₂ with
              | [] => [replacement]
              | b₃ :: rest₃ =>
                if isContinuation b₃ then char₄ b₀ b₁ b₂ b₃ :: decodeLossy rest₃
                else replacement :: decodeLossy (b₃ :: rest₃)
        else replacement :: decodeLossy (b₁ :: rest₁)

-- one character of each width
example : decodeLossy [0x68, 0xC3, 0xA9, 0xE2, 0x82, 0xAC, 0xF0, 0x9F, 0x98, 0x80] =
    ['h', 'é', '€', '😀'] := by decide

-- a truncated sequence, a byte that starts nothing and a surrogate
example : decodeLossy [0xE2, 0x82, 0x41, 0xFF, 0xED, 0xA0] =
    [replacement, 'A', replacement, replacement, replacement] := by decide

end Utf8

/-- The text of a `vector<u8>`; nothing where it is empty. -/
def utf8Opt (bytes : Bytes) : Option String :=
  if bytes.isEmpty then none else some (String.ofList (Utf8.decodeLossy bytes))

/-- Lowercase hexadecimal digits. -/
def hexEncode (bytes : Bytes) : String :=
  String.ofList (bytes.flatMap fun b =>
    [Nat.digitChar (b.toNat / 16), Nat.digitChar (b.toNat % 16)])

/-- `metadata_blob_id_hex` and `metadata_sha256_hex`. -/
def hexOpt (bytes : Bytes) : Option String :=
  if bytes.isEmpty then none else some (hexEncode bytes)

/-- Open-ended raises store no return target. -/
def returnTargetOpt (isTermFinancing : Bool) (returnTarget : ℕ) : Option ℤ :=
  if isTermFinancing then some (asI64 returnTarget) else none

/-- The declared schedule by tranche index (`tranche_schedule`). -/
def trancheSchedule (amounts deadlinesMs : List ℕ) (descriptions : List Bytes) :
    List (ℤ × ℤ × ℤ × Option String) :=
  amounts.zipIdx.map fun (amount, i) =>
    (asI32 i, asI64 amount, asI64 (deadlinesMs[i]?.getD 0), descriptions[i]?.bind utf8Opt)

/-- The metadata of an event of the node. -/
def EventMeta.fromEvent (ev : SuiEvent) : EventMeta where
  txDigest := ev.id.txDigest
  eventSeq := parseI32 ev.id.eventSeq
  checkpointSeq := 0
  timestampMs := parseI64 ev.timestampMs

/-! ## Statements (`queries.rs`) -/

def insertStateChange (m : EventMeta) (assetId : ID) (oldState newState : ℤ) : Statement :=
  .insert (.stateChange { eventMeta := m, assetId, oldState, newState })

def insertTrancheSchedule (assetId : ID) (amounts deadlinesMs : List ℕ)
    (descriptions : List Bytes) : List Statement :=
  (trancheSchedule amounts deadlinesMs descriptions).map
    fun (trancheIndex, amount, deadlineMs, description) =>
      .insert (.trancheSchedule { assetId, trancheIndex, amount, deadlineMs, description })

def updateAssetVouched (assetId poolId : ID) (coverage : ℕ) : Statement :=
  .update (.asset assetId) (.vouched poolId (asI64 coverage))

def updateAssetState (assetId : ID) (newState : ℤ) : Statement :=
  .update (.asset assetId) (.currentState newState)

def updateAssetCloseReason (assetId : ID) (reason : ℤ) : Statement :=
  .update (.asset assetId) (.closeReason reason)

def updateAssetAccumulator (assetId accumulatorId : ID) : Statement :=
  .update (.asset assetId) (.accumulator accumulatorId)

def applyStateChange (m : EventMeta) (assetId : ID) (oldState newState : AssetState) :
    List Statement :=
  [insertStateChange m assetId oldState.code newState.code, updateAssetState assetId newState.code]

def insertStakeEvent (m : EventMeta) (poolId : ID) (eventType : StakeKind) (depositor : Address)
    (amount stakeAfter : ℤ) : Statement :=
  .insert (.stakeEvent
    { eventMeta := m, poolId, eventType, depositor := some depositor, amount, stakeAfter })

def applyStatusChange (m : EventMeta) (poolId : ID) (oldStatus newStatus : ℤ)
    (disputeId : Option ID) : List Statement :=
  [.insert (.statusChange { eventMeta := m, poolId, oldStatus, newStatus, disputeId }),
   .update (.validatorPool poolId) (.currentStatus newStatus)]

def insertGovernanceEvent (row : GovernanceRow) : Statement := .insert (.governance row)

def insertPositionEvent (row : PositionRow) : Statement := .insert (.position row)

def insertYieldIndex (row : YieldIndexRow) : Statement := .insert (.yieldIndex row)

def insertTrancheEvent (row : TrancheEventRow) : Statement := .insert (.trancheEvent row)

def insertAccumulatorBalance (row : AccumulatorBalanceRow) : Statement :=
  .insert (.accumulatorBalance row)

def insertDustSweep (m : EventMeta) (assetId : ID) (amount : ℤ) : Statement :=
  .insert (.dustSweep { eventMeta := m, assetId, amount })

/-! ## Handlers -/

/-- The five governance events share a table; each fills the columns it carries. -/
def handleGovernance (m : EventMeta) : Event → List Statement
  | .protocolInitialized configId admin => [insertGovernanceEvent
      { eventMeta := m, eventType := .protocolInitialized, configId := some configId,
        admin := some admin }]
  | .protocolParamChanged name oldValue newValue => [insertGovernanceEvent
      { eventMeta := m, eventType := .protocolParamChanged, paramName := some name,
        oldValue := some (asI64 oldValue), newValue := some (asI64 newValue) }]
  | .protocolTreasuryChanged oldTreasury newTreasury => [insertGovernanceEvent
      { eventMeta := m, eventType := .protocolTreasuryChanged, oldTreasury := some oldTreasury,
        newTreasury := some newTreasury }]
  | .emergencyStopTriggered configId => [insertGovernanceEvent
      { eventMeta := m, eventType := .emergencyStopTriggered, configId := some configId }]
  | .protocolResumed configId => [insertGovernanceEvent
      { eventMeta := m, eventType := .protocolResumed, configId := some configId }]
  | _ => []

/-- The asset row, its schedule, and the seed of its timeline. -/
def handleAssetCreated (m : EventMeta) : Event → List Statement
  | .assetCreated assetId entity fundingGoal fundingDeadlineMs trancheCount revenueSplitBps
      collateral name ticker category location entityName metadataBlobId metadataSha256
      isTermFinancing returnTarget trancheAmounts trancheDeadlinesMs trancheDescriptions =>
    .insert (.asset {
      assetId, entity
      goal := asI64 fundingGoal
      fundingDeadlineMs := asI64 fundingDeadlineMs
      trancheCount := asI32 trancheCount
      revenueSplitBps := asI32 revenueSplitBps
      collateral := asI64 collateral
      currentState := 0
      createdAtMs := m.timestampMs
      createdTx := m.txDigest
      name := utf8Opt name
      ticker := utf8Opt ticker
      category := category.toNat
      location := utf8Opt location
      entityName := utf8Opt entityName
      metadataBlobId := hexOpt metadataBlobId
      metadataSha256 := hexOpt metadataSha256
      isTermFinancing
      returnTarget := returnTargetOpt isTermFinancing returnTarget }) ::
    insertTrancheSchedule assetId trancheAmounts trancheDeadlinesMs trancheDescriptions ++
    [insertStateChange m assetId 0 0]
  | _ => []

def handleAssetVouched : Event → List Statement
  | .assetVouched assetId poolId _ coverage _ => [updateAssetVouched assetId poolId coverage]
  | _ => []

def handleAssetStateChange (m : EventMeta) : Event → List Statement
  | .assetStateChanged assetId oldState newState => applyStateChange m assetId oldState newState
  | _ => []

def handleAssetClosed : Event → List Statement
  | .assetClosed assetId reason => [updateAssetCloseReason assetId reason.code]
  | _ => []

def handleAssetOperational : Event → List Statement
  | .assetBecameOperational assetId accumulatorId => [updateAssetAccumulator assetId accumulatorId]
  | _ => []

def handleRaiseFinalized : Event → List Statement
  | .raiseFinalized assetId accumulatorId _ => [updateAssetAccumulator assetId accumulatorId]
  | _ => []

def handleEntityDefaulted (m : EventMeta) : Event → List Statement
  | .entityDefaulted assetId _ _ _ compensationPoolAfter compensationUnlockMs wrappingFrozen =>
    [insertAccumulatorBalance
      { eventMeta := m, assetId, eventType := .entityDefaulted
        compensationPoolAfter := some (asI64 compensationPoolAfter)
        compensationUnlockMs := some (asI64 compensationUnlockMs)
        wrappingFrozen := some wrappingFrozen }]
  | _ => []

def handleValidatorRegistered (m : EventMeta) : Event → List Statement
  | .validatorRegistered poolId validator stake name =>
    [.insert (.validatorPool
      { poolId, validator, initialStake := asI64 stake, currentStatus := 0,
        registeredAtMs := m.timestampMs, registeredTx := m.txDigest, name := utf8Opt name })]
  | _ => []

def handleStakeAdded (m : EventMeta) : Event → List Statement
  | .stakeAdded poolId depositor amount stakeAfter =>
    [insertStakeEvent m poolId .added depositor (asI64 amount) (asI64 stakeAfter)]
  | _ => []

def handleStakeWithdrawn (m : EventMeta) : Event → List Statement
  | .stakeWithdrawn poolId validator amount stakeAfter =>
    [insertStakeEvent m poolId .withdrawn validator (asI64 amount) (asI64 stakeAfter)]
  | _ => []

def handleValidatorStatus (m : EventMeta) : Event → List Statement
  | .validatorStatusChanged poolId oldStatus newStatus disputeId =>
    applyStatusChange m poolId oldStatus.code newStatus.code disputeId
  | _ => []

def handleCapitalContributed (m : EventMeta) : Event → List Statement
  | .capitalContributed assetId contributor amount raisedAfter =>
    [.insert (.raiseProgress
      { eventMeta := m, assetId, contributor, amount := asI64 amount,
        raisedAfter := asI64 raisedAfter })]
  | _ => []

/-- One row of the position ledger each; a claim also tells the reward pool. -/
def handlePositionEvent (m : EventMeta) : Event → List Statement
  | .sharesClaimed assetId holder count shareObjectId => [insertPositionEvent
      { eventMeta := m, eventType := .sharesClaimed, assetId, actor := holder,
        amount := some (asI64 count), shareObjectId := some shareObjectId }]
  | .sharesWrapped assetId holder count totalWrappedAfter => [insertPositionEvent
      { eventMeta := m, eventType := .sharesWrapped, assetId, actor := holder,
        amount := some (asI64 count), totalWrappedAfter := some (asI64 totalWrappedAfter) }]
  | .sharesUnwrapped assetId holder count shareObjectId totalWrappedAfter => [insertPositionEvent
      { eventMeta := m, eventType := .sharesUnwrapped, assetId, actor := holder,
        amount := some (asI64 count), shareObjectId := some shareObjectId,
        totalWrappedAfter := some (asI64 totalWrappedAfter) }]
  | .yieldClaimed assetId holder amount indexAtClaim rewardPoolAfter =>
    [insertPositionEvent
      { eventMeta := m, eventType := .yieldClaimed, assetId, actor := holder,
        amount := some (asI64 amount), indexAtClaim := some indexAtClaim },
     insertAccumulatorBalance
      { eventMeta := m, assetId, eventType := .yieldClaimed,
        rewardPoolAfter := some (asI64 rewardPoolAfter) }]
  | .shareRedeemed assetId holder count _ => [insertPositionEvent
      { eventMeta := m, eventType := .shareRedeemed, assetId, actor := holder,
        amount := some (asI64 count) }]
  | .contributionRefunded assetId contributor amount => [insertPositionEvent
      { eventMeta := m, eventType := .contributionRefunded, assetId, actor := contributor,
        amount := some (asI64 amount) }]
  | _ => []

/-- One point of the index curve each, and the pools after the event. -/
def handleYieldIndex (m : EventMeta) : Event → List Statement
  | .revenueDeposited assetId gross fee investorPortion entityPortion indexAfter unwrappedSupply
      rewardPoolAfter rolloverReserveAfter =>
    [insertYieldIndex
      { eventMeta := m, eventType := .revenue, assetId, gross := some (asI64 gross),
        fee := some (asI64 fee), investorPortion := some (asI64 investorPortion),
        entityPortion := some (asI64 entityPortion), indexAfter,
        unwrappedSupply := asI64 unwrappedSupply },
     insertAccumulatorBalance
      { eventMeta := m, assetId, eventType := .revenueDeposited,
        rewardPoolAfter := some (asI64 rewardPoolAfter),
        rolloverReserveAfter := some (asI64 rolloverReserveAfter) }]
  | .rolloverSwept assetId _ indexAfter unwrappedSupply rewardPoolAfter rolloverReserveAfter =>
    [insertYieldIndex
      { eventMeta := m, eventType := .rollover, assetId, indexAfter,
        unwrappedSupply := asI64 unwrappedSupply },
     insertAccumulatorBalance
      { eventMeta := m, assetId, eventType := .rolloverSwept,
        rewardPoolAfter := some (asI64 rewardPoolAfter),
        rolloverReserveAfter := some (asI64 rolloverReserveAfter) }]
  | .compensationSwept assetId _ indexAfter unwrappedSupply routedToRollover rewardPoolAfter
      rolloverReserveAfter compensationPoolAfter wrappingFrozen =>
    [insertYieldIndex
      { eventMeta := m, eventType := .compensation, assetId,
        routedToRollover := some routedToRollover, indexAfter,
        unwrappedSupply := asI64 unwrappedSupply },
     insertAccumulatorBalance
      { eventMeta := m, assetId, eventType := .compensationSwept,
        rewardPoolAfter := some (asI64 rewardPoolAfter),
        rolloverReserveAfter := some (asI64 rolloverReserveAfter),
        compensationPoolAfter := some (asI64 compensationPoolAfter),
        wrappingFrozen := some wrappingFrozen }]
  | _ => []

def handleDustSwept (m : EventMeta) : Event → List Statement
  | .dustSwept assetId amount rewardPoolAfter rolloverReserveAfter =>
    [insertDustSweep m assetId (asI64 amount),
     insertAccumulatorBalance
      { eventMeta := m, assetId, eventType := .dustSwept,
        rewardPoolAfter := some (asI64 rewardPoolAfter),
        rolloverReserveAfter := some (asI64 rolloverReserveAfter) }]
  | _ => []

def handleTrancheEvent (m : EventMeta) : Event → List Statement
  | .milestoneProofSubmitted assetId tranche blobId sha256 => [insertTrancheEvent
      { eventMeta := m, eventType := .proofSubmitted, assetId, trancheIndex := asI32 tranche,
        blobId := some (hexEncode blobId), sha256 := some (hexEncode sha256) }]
  | .milestoneApproved assetId tranche validator poolId => [insertTrancheEvent
      { eventMeta := m, eventType := .approved, assetId, trancheIndex := asI32 tranche,
        validator := some validator, poolId := some poolId }]
  | .trancheReleased assetId tranche amount escrowAfter => [insertTrancheEvent
      { eventMeta := m, eventType := .released, assetId, trancheIndex := asI32 tranche,
        amount := some (asI64 amount), escrowAfter := some (asI64 escrowAfter) }]
  | _ => []

def handleDisputeOpened (m : EventMeta) : Event → List Statement
  | .disputeOpened disputeId assetId targetPoolId challenger bond evidenceSha256 reason =>
    [.insert (.dispute
      { disputeId, assetId, targetPoolId, challenger, bond := asI64 bond,
        evidenceHash := hexEncode evidenceSha256, openedAtMs := m.timestampMs,
        openedTx := m.txDigest, reason := utf8Opt reason })]
  | _ => []

def handleJurorVoted (m : EventMeta) : Event → List Statement
  | .jurorVoted disputeId jurorPoolId guilty votesGuiltyAfter votesInnocentAfter =>
    [.insert (.juryVote
      { eventMeta := m, disputeId, jurorPoolId, guilty, votesGuiltyAfter := asI32 votesGuiltyAfter,
        votesInnocentAfter := asI32 votesInnocentAfter })]
  | _ => []

/-- The resolution is written before the balances are. -/
def handleDisputeResolved (m : EventMeta) : Event → List Statement
  | .disputeResolved disputeId assetId _ verdict slashed bounty _ compensationPoolAfter
      compensationUnlockMs wrappingFrozen =>
    [.update (.dispute disputeId)
      (.resolution verdict.code (asI64 slashed) (asI64 bounty) m.timestampMs m.txDigest),
     insertAccumulatorBalance
      { eventMeta := m, assetId, eventType := .disputeResolved,
        compensationPoolAfter := some (asI64 compensationPoolAfter),
        compensationUnlockMs := some (asI64 compensationUnlockMs),
        wrappingFrozen := some wrappingFrozen }]
  | _ => []

def handleJurorReward (m : EventMeta) : Event → List Statement
  | .jurorRewardClaimed disputeId jurorPoolId amount =>
    [.insert (.jurorReward { eventMeta := m, disputeId, jurorPoolId, amount := asI64 amount })]
  | _ => []

/-- The statements of an event (`route_event`). -/
def routeEvent (ev : SuiEvent) : List Statement :=
  let m := EventMeta.fromEvent ev
  match ev.event with
  -- governance feed
  | .protocolInitialized .. | .protocolParamChanged .. | .protocolTreasuryChanged ..
  | .emergencyStopTriggered .. | .protocolResumed .. => handleGovernance m ev.event
  -- asset-lifecycle feed
  | .assetCreated .. => handleAssetCreated m ev.event
  | .assetVouched .. => handleAssetVouched ev.event
  | .assetStateChanged .. => handleAssetStateChange m ev.event
  | .assetClosed .. => handleAssetClosed ev.event
  | .assetBecameOperational .. => handleAssetOperational ev.event
  | .raiseFinalized .. => handleRaiseFinalized ev.event
  | .assetCancelled .. => [] -- the state arrives on its own
  -- validator registry feed
  | .validatorRegistered .. => handleValidatorRegistered m ev.event
  | .stakeAdded .. => handleStakeAdded m ev.event
  | .stakeWithdrawn .. => handleStakeWithdrawn m ev.event
  | .validatorStatusChanged .. => handleValidatorStatus m ev.event
  -- position ledger feed
  | .capitalContributed .. => handleCapitalContributed m ev.event
  | .sharesClaimed .. | .sharesWrapped .. | .sharesUnwrapped .. | .yieldClaimed ..
  | .shareRedeemed .. | .contributionRefunded .. => handlePositionEvent m ev.event
  | .raiseAborted .. => [] -- the state arrives on its own
  | .entityDefaulted .. => handleEntityDefaulted m ev.event
  -- yield-index feed
  | .revenueDeposited .. | .rolloverSwept .. | .compensationSwept .. =>
    handleYieldIndex m ev.event
  | .dustSwept .. => handleDustSwept m ev.event
  -- tranche feed
  | .milestoneProofSubmitted .. | .milestoneApproved .. | .trancheReleased .. =>
    handleTrancheEvent m ev.event
  -- dispute feed
  | .disputeOpened .. => handleDisputeOpened m ev.event
  | .jurorVoted .. => handleJurorVoted m ev.event
  | .disputeResolved .. => handleDisputeResolved m ev.event
  | .jurorRewardClaimed .. => handleJurorReward m ev.event

attribute [simp] handleGovernance handleAssetCreated handleAssetVouched handleAssetStateChange
  handleAssetClosed handleAssetOperational handleRaiseFinalized handleEntityDefaulted
  handleValidatorRegistered handleStakeAdded handleStakeWithdrawn handleValidatorStatus
  handleCapitalContributed handlePositionEvent handleYieldIndex handleDustSwept
  handleTrancheEvent handleDisputeOpened handleJurorVoted handleDisputeResolved handleJurorReward
  insertStateChange insertTrancheSchedule updateAssetVouched updateAssetState
  updateAssetCloseReason updateAssetAccumulator applyStateChange insertStakeEvent
  applyStatusChange insertGovernanceEvent insertPositionEvent insertYieldIndex
  insertTrancheEvent insertAccumulatorBalance insertDustSweep

end Indexer

end Gally

import Gally.Contract.Accumulator
import Gally.Contract.Validator

/-!
# Asset lifecycle (`asset.move`)

The shared `Asset` is the only place escrowed capital lives before operation.
Tranches release in order, only after the validator's approval; every exit from a
failed raise or a default is permissionless. A function returns the objects it
changed, the USDC it hands to the sender, the USDC it sends to other addresses
(`Transfers`) and the events it emits.
-/

namespace Gally

open Checked

/-! ## Errors and constants -/

def eZeroAmount : Abort := .code .asset 2
def eInvalidBps : Abort := .code .asset 101
def eApprovalOfInactive : Abort := .code .asset 202
def eWrongState : Abort := .code .asset 300
def eDeadlinePassed : Abort := .code .asset 301
def eDeadlineNotReached : Abort := .code .asset 302
def eGoalNotMet : Abort := .code .asset 303
def eGoalAlreadyMet : Abort := .code .asset 304
def eTrancheSumMismatch : Abort := .code .asset 305
def eReceiptAssetMismatch : Abort := .code .asset 307
def eInvalidTrancheSchedule : Abort := .code .asset 308
def eInsufficientCollateral : Abort := .code .asset 309
def eWrongEntityCap : Abort := .code .asset 311
def eInvalidDecimals : Abort := .code .asset 312
def eInvalidCategory : Abort := .code .asset 313
def eMetadataTooLong : Abort := .code .asset 314
def eTrancheOutOfOrder : Abort := .code .asset 400
def eNotApproved : Abort := .code .asset 401
def eAlreadyReleased : Abort := .code .asset 402
def eAssetDisputed : Abort := .code .asset 403
def eProofMissing : Abort := .code .asset 404
def eProofAlreadySubmitted : Abort := .code .asset 405
def eNotVouchingValidator : Abort := .code .asset 406
def eAlreadyApproved : Abort := .code .asset 407
def eDeadlineNotMissed : Abort := .code .asset 701
def eGraceNotElapsed : Abort := .code .asset 702
def eNotTermFinancing : Abort := .code .asset 704
def eReturnTargetNotMet : Abort := .code .asset 705
def eCompensationNotSwept : Abort := .code .asset 706

def categoryCount : UInt8 := 6
def maxNameBytes : ℕ := 96
def maxTickerBytes : ℕ := 12
def maxLocationBytes : ℕ := 96
def maxEntityNameBytes : ℕ := 96

/-! ## Objects -/

/-- Content-addressed pointer to evidence on Walrus. -/
structure WalrusRef where
  blobId : Bytes
  sha256 : Bytes
  attestedBy : Address
  deriving DecidableEq, Repr

/-- One deadline-bound, validator-gated slice of escrowed capital. -/
structure Tranche where
  amount : ℕ
  description : Bytes
  deadlineMs : ℕ
  released : Bool
  proof : Option WalrusRef
  approvedBy : Option Address
  deriving DecidableEq, Repr

/-- The project state machine. `legalDocs` is the dynamic field under
    `LegalDocsKey`. -/
structure Asset where
  id : ID
  entity : Address
  name : Bytes
  ticker : Bytes
  category : UInt8
  location : Bytes
  entityName : Bytes
  metadataBlob : Option WalrusRef
  state : AssetState
  validatorPoolId : Option ID
  coverageLocked : ℕ
  fundingGoal : ℕ
  raised : ℕ
  fundingDeadlineMs : ℕ
  escrow : ℕ
  tranches : List Tranche
  nextTranche : ℕ
  entityCollateral : ℕ
  revenueSplitBps : ℕ
  accumulatorId : Option ID
  isTermFinancing : Bool
  returnTarget : ℕ
  disputed : Bool
  createdAtMs : ℕ
  legalDocs : Option (List WalrusRef)
  deriving DecidableEq, Repr

/-- Gates entity-only actions; `key`-only, so it never changes hands. -/
structure EntityCap where
  id : ID
  assetId : ID
  deriving DecidableEq, Repr

/-- Soulbound inverse-key to the escrow: burnt to exit (refund) or to enter (share
    conversion). -/
structure ContributionReceipt where
  id : ID
  assetId : ID
  amount : ℕ
  deriving DecidableEq, Repr

/-! ## Private functions -/

def assertState (asset : Asset) (expected : AssetState) : Except Abort Unit :=
  ensure (asset.state = expected) eWrongState

def isPostFinalize (asset : Asset) : Bool :=
  asset.state = .executing ∨ asset.state = .operational ∨ asset.state = .compensating

def assertEntityCap (asset : Asset) (cap : EntityCap) : Except Abort Unit :=
  ensure (cap.assetId = asset.id) eWrongEntityCap

def assertVouchingPool (asset : Asset) (pool : ValidatorPool) : Except Abort Unit :=
  ensure (asset.validatorPoolId = some pool.id) eNotVouchingValidator

/-- Every transition funnels through here, with its paired event. -/
def setState (asset : Asset) (newState : AssetState) : Asset × List Event :=
  ({ asset with state := newState }, [.assetStateChanged asset.id asset.state newState])

/-- Terminal transition shared by the three close triggers: mirror the flag onto the
    accumulator, send the collateral home, flip CLOSED. -/
def close (asset : Asset) (acc : GlobalYieldAccumulator) (reason : CloseReason) :
    Asset × GlobalYieldAccumulator × Transfers × List Event :=
  let acc := markClosed acc
  let collateral := asset.entityCollateral
  let transfers := if 0 < collateral then [(asset.entity, collateral)] else []
  let (asset, events) := setState { asset with entityCollateral := 0 } .closed
  (asset, acc, transfers, .assetClosed asset.id reason :: events)

def cancelInternal (asset : Asset) : Except Abort (Asset × ℕ × List Event) := do
  assertState asset .pendingVouch
  let (asset, events) := setState asset .cancelled
  return ({ asset with entityCollateral := 0 }, asset.entityCollateral,
    .assetCancelled asset.id :: events)

/-! ## Listing -/

/-- The arguments `create_asset` and `create_term_asset` share. -/
structure Listing where
  fundingGoal : U64
  fundingDeadlineMs : U64
  trancheAmounts : List U64
  trancheDescriptions : List Bytes
  trancheDeadlinesMs : List U64
  revenueSplitBps : U64
  name : Bytes
  ticker : Bytes
  category : UInt8
  location : Bytes
  entityName : Bytes
  metadataBlobId : Bytes
  metadataSha256 : Bytes
  deriving DecidableEq, Repr

/-- The loop of `create_asset_internal`: one tranche for each index, with the running
    sum of amounts. The three lists have the same length there. -/
def buildTranches : List U64 → List Bytes → List U64 → (sum prevDeadline : ℕ) →
    Except Abort (List Tranche × ℕ)
  | amount :: amounts, description :: descriptions, deadline :: deadlines, sum, prevDeadline => do
    ensure (0 < amount.val) eZeroAmount
    ensure (prevDeadline < deadline.val) eInvalidTrancheSchedule
    let sum ← add64 sum amount.val
    let (tranches, total) ← buildTranches amounts descriptions deadlines sum deadline.val
    return ({ amount := amount.val, description, deadlineMs := deadline.val, released := false,
              proof := none, approvedBy := none } :: tranches, total)
  | _, _, _, sum, _ => .ok ([], sum)

/-- Shared listing builder: validates, assigns every escrowed dollar to exactly one
    tranche, and returns the asset with its `EntityCap`. -/
def createAssetInternal (config : ProtocolConfig) (l : Listing) (isTermFinancing : Bool)
    (returnTarget : U64) (collateral now : ℕ) (sender : Address) (assetId capId : ID) :
    Except Abort (Asset × EntityCap × List Event) := do
  assertVersion config
  assertNotPaused config
  ensure (l.category < categoryCount) eInvalidCategory
  ensure (l.name.length ≤ maxNameBytes) eMetadataTooLong
  ensure (l.ticker.length ≤ maxTickerBytes) eMetadataTooLong
  ensure (l.location.length ≤ maxLocationBytes) eMetadataTooLong
  ensure (l.entityName.length ≤ maxEntityNameBytes) eMetadataTooLong
  ensure (0 < l.fundingGoal.val) eZeroAmount
  let n := l.trancheAmounts.length
  ensure (0 < n ∧ l.trancheDescriptions.length = n ∧ l.trancheDeadlinesMs.length = n)
    eInvalidTrancheSchedule
  ensure (now < l.fundingDeadlineMs.val) eDeadlinePassed
  ensure (1 ≤ l.revenueSplitBps.val ∧ l.revenueSplitBps.val ≤ bpsDenominator) eInvalidBps
  -- a term asset promises at least the principal back; the others carry no target
  ensure (if isTermFinancing then l.fundingGoal.val ≤ returnTarget.val else returnTarget.val = 0)
    eReturnTargetNotMet
  let requiredCollateral ← mulBps l.fundingGoal.val config.entityCollateralBps
  ensure (requiredCollateral ≤ collateral) eInsufficientCollateral
  let (tranches, sum) ← buildTranches l.trancheAmounts l.trancheDescriptions l.trancheDeadlinesMs
    0 l.fundingDeadlineMs.val
  ensure (sum = l.fundingGoal.val) eTrancheSumMismatch
  -- an empty blob id means that the entity supplied no rich content
  let metadataBlob := if 0 < l.metadataBlobId.length
    then some { blobId := l.metadataBlobId, sha256 := l.metadataSha256, attestedBy := sender }
    else none
  let asset : Asset :=
    { id := assetId, entity := sender, name := l.name, ticker := l.ticker, category := l.category,
      location := l.location, entityName := l.entityName, metadataBlob, state := .pendingVouch,
      validatorPoolId := none, coverageLocked := 0, fundingGoal := l.fundingGoal.val, raised := 0,
      fundingDeadlineMs := l.fundingDeadlineMs.val, escrow := 0, tranches, nextTranche := 0,
      entityCollateral := collateral, revenueSplitBps := l.revenueSplitBps.val,
      accumulatorId := none, isTermFinancing, returnTarget := returnTarget.val, disputed := false,
      createdAtMs := now, legalDocs := none }
  return (asset, { id := capId, assetId },
    [.assetCreated assetId sender l.fundingGoal.val l.fundingDeadlineMs.val n
      l.revenueSplitBps.val collateral l.name l.ticker l.category l.location l.entityName
      l.metadataBlobId l.metadataSha256 isTermFinancing returnTarget.val
      (l.trancheAmounts.map (·.val)) (l.trancheDeadlinesMs.map (·.val)) l.trancheDescriptions])

/-- Lists an open-ended revenue-share project. -/
def createAsset (config : ProtocolConfig) (l : Listing) (collateral now : ℕ) (sender : Address)
    (assetId capId : ID) : Except Abort (Asset × EntityCap × List Event) :=
  createAssetInternal config l false 0 collateral now sender assetId capId

/-- Lists a trade-finance project with a fixed return target. -/
def createTermAsset (config : ProtocolConfig) (l : Listing) (returnTarget : U64)
    (collateral now : ℕ) (sender : Address) (assetId capId : ID) :
    Except Abort (Asset × EntityCap × List Event) :=
  createAssetInternal config l true returnTarget collateral now sender assetId capId

/-! ## Before the raise -/

/-- The entity withdraws an unvouched listing and gets the collateral back. -/
def cancelUnvouchedByEntity (asset : Asset) (cap : EntityCap) :
    Except Abort (Asset × ℕ × List Event) := do
  assertEntityCap asset cap
  cancelInternal asset

/-- Anyone clears a listing no validator vouched in time; the collateral goes to the
    entity. -/
def cancelUnvouchedTimeout (asset : Asset) (config : ProtocolConfig) (now : ℕ) :
    Except Abort (Asset × Transfers × List Event) := do
  assertVersion config
  -- no pause check: the collateral must be able to go home
  let timeout ← add64 asset.createdAtMs config.vouchTimeoutMs
  ensure (timeout < now) eDeadlineNotReached
  let (cancelled, collateral, events) ← cancelInternal asset
  return (cancelled, [(asset.entity, collateral)], events)

/-- The validator stakes coverage on the asset's legal documents. -/
def vouchAssetLegals (asset : Asset) (pool : ValidatorPool) (vcap : ValidatorCap)
    (config : ProtocolConfig) (legalDocs : List WalrusRef) (sender : Address) :
    Except Abort (Asset × ValidatorPool × List Event) := do
  assertVersion config
  assertNotPaused config
  assertState asset .pendingVouch
  assertCap pool vcap
  ensure (0 < legalDocs.length) eZeroAmount
  let coverage ← mulBps asset.fundingGoal config.vouchCoverageBps
  let pool ← lockCoverage pool coverage
  let asset := { asset with validatorPoolId := some pool.id, coverageLocked := coverage }
  -- the documents go into a dynamic field; adding one that exists aborts
  ensure (asset.legalDocs = none) .fieldExists
  let (asset, events) := setState { asset with legalDocs := some legalDocs } .funding
  return (asset, pool,
    .assetVouched asset.id pool.id sender coverage (legalDocs.map (·.sha256)) :: events)

/-! ## The raise -/

/-- Contributes to the raise, capped at the goal; returns the receipt and the change. -/
def contributeCapital (asset : Asset) (config : ProtocolConfig) (now payment : ℕ)
    (sender : Address) (receiptId : ID) :
    Except Abort (Asset × ContributionReceipt × ℕ × List Event) := do
  assertVersion config
  assertNotPaused config
  assertState asset .funding
  ensure (now < asset.fundingDeadlineMs) eDeadlinePassed
  ensure (asset.raised < asset.fundingGoal) eGoalAlreadyMet
  ensure (0 < payment) eZeroAmount
  let openAmount ← sub asset.fundingGoal asset.raised
  -- the last contribution is cut to what the goal still leaves open
  let accepted := if payment < openAmount then payment else openAmount
  let change ← takeOut payment accepted
  let escrow ← add64 asset.escrow accepted
  let raised ← add64 asset.raised accepted
  return ({ asset with escrow, raised },
    { id := receiptId, assetId := asset.id, amount := accepted }, change,
    [.capitalContributed asset.id sender accepted raised])

/-- Permissionless finalize: swallows the virgin treasury cap into the accumulator. -/
def finalizeSuccessfulRaise (asset : Asset) (config : ProtocolConfig) (treasuryCap : TreasuryCap)
    (metadata : CoinMetadata) (now : ℕ) (accId : ID) :
    Except Abort (Asset × GlobalYieldAccumulator × List Event) := do
  assertVersion config
  assertState asset .funding
  ensure (asset.raised = asset.fundingGoal) eGoalNotMet
  ensure (now ≤ asset.fundingDeadlineMs) eDeadlinePassed
  -- one token unit is one share, hence one micro-USDC of principal
  ensure (metadata.decimals = 6) eInvalidDecimals
  let acc ← newAccumulator asset.id asset.fundingGoal treasuryCap accId
  let (asset, events) := setState { asset with accumulatorId := some acc.id } .executing
  return (asset, acc, .raiseFinalized asset.id acc.id asset.fundingGoal :: events)

/-- Permissionless abort after a missed goal: coverage and collateral go home. -/
def abortFailedRaise (asset : Asset) (pool : ValidatorPool) (config : ProtocolConfig) (now : ℕ) :
    Except Abort (Asset × ValidatorPool × Transfers × List Event) := do
  assertVersion config
  assertState asset .funding
  ensure (asset.fundingDeadlineMs < now) eDeadlineNotReached
  ensure (asset.raised < asset.fundingGoal) eGoalAlreadyMet
  assertVouchingPool asset pool
  let pool ← releaseCoverage pool asset.coverageLocked
  -- a raise that fails is not the entity's fault
  let transfers := [(asset.entity, asset.entityCollateral)]
  let (asset, events) := setState { asset with coverageLocked := 0, entityCollateral := 0 } .failed
  return (asset, pool, transfers, .raiseAborted asset.id asset.raised :: events)

/-- Burns a receipt for the exact principal back. -/
def refundContribution (asset : Asset) (config : ProtocolConfig) (receipt : ContributionReceipt)
    (sender : Address) : Except Abort (Asset × ℕ × List Event) := do
  assertVersion config
  assertState asset .failed
  ensure (receipt.assetId = asset.id) eReceiptAssetMismatch
  let raised ← sub asset.raised receipt.amount
  let escrow ← takeOut asset.escrow receipt.amount
  return ({ asset with raised, escrow }, receipt.amount,
    [.contributionRefunded receipt.assetId sender receipt.amount])

/-- Converts a receipt into a deed at the current index. -/
def claimShares (asset : Asset) (acc : GlobalYieldAccumulator) (config : ProtocolConfig)
    (receipt : ContributionReceipt) (now : ℕ) (sender : Address) (shareId : ID) :
    Except Abort (GallyShare × List Event) := do
  assertVersion config
  ensure (isPostFinalize asset = true) eWrongState
  assertAsset acc asset.id
  ensure (receipt.assetId = asset.id) eReceiptAssetMismatch
  -- the snapshot is the index at conversion, not at finalize
  return ({ id := shareId, assetId := receipt.assetId, shareCount := receipt.amount,
            yieldClaimedIndex := acc.cumulativeYieldIndex, acquiredAtMs := now },
    [.sharesClaimed receipt.assetId sender receipt.amount shareId])

/-! ## Tranches -/

/-- The entity attaches evidence for the next tranche. -/
def submitMilestoneProof (asset : Asset) (cap : EntityCap) (config : ProtocolConfig)
    (trancheIndex : ℕ) (proof : WalrusRef) : Except Abort (Asset × List Event) := do
  assertVersion config
  assertNotPaused config
  assertState asset .executing
  assertEntityCap asset cap
  ensure (trancheIndex = asset.nextTranche) eTrancheOutOfOrder
  let tranche ← ofOption .outOfBounds asset.tranches[trancheIndex]?
  ensure (tranche.proof = none) eProofAlreadySubmitted
  return ({ asset with
      tranches := asset.tranches.set trancheIndex { tranche with proof := some proof } },
    [.milestoneProofSubmitted asset.id trancheIndex proof.blobId proof.sha256])

/-- The vouching validator signs off on the milestone. Nothing in the code separates
    this call from the release by more than the order of the calls. -/
def approveMilestone (asset : Asset) (pool : ValidatorPool) (vcap : ValidatorCap)
    (config : ProtocolConfig) (trancheIndex : ℕ) (sender : Address) :
    Except Abort (Asset × List Event) := do
  assertVersion config
  assertNotPaused config
  assertState asset .executing
  ensure (asset.disputed = false) eAssetDisputed
  assertCap pool vcap
  assertVouchingPool asset pool
  -- a frozen validator approves nothing
  ensure (isActive pool = true) eApprovalOfInactive
  ensure (trancheIndex = asset.nextTranche) eTrancheOutOfOrder
  let tranche ← ofOption .outOfBounds asset.tranches[trancheIndex]?
  ensure (tranche.proof ≠ none) eProofMissing
  ensure (tranche.approvedBy = none) eAlreadyApproved
  return ({ asset with
      tranches := asset.tranches.set trancheIndex { tranche with approvedBy := some sender } },
    [.milestoneApproved asset.id trancheIndex sender pool.id])

/-- The entity pulls an approved tranche; the final release flips OPERATIONAL. -/
def releaseFundingTranche (asset : Asset) (cap : EntityCap) (config : ProtocolConfig)
    (trancheIndex : ℕ) : Except Abort (Asset × ℕ × List Event) := do
  assertVersion config
  assertNotPaused config
  assertState asset .executing
  -- the entity cannot pull while a challenge is open
  ensure (asset.disputed = false) eAssetDisputed
  assertEntityCap asset cap
  ensure (trancheIndex = asset.nextTranche) eTrancheOutOfOrder
  let tranche ← ofOption .outOfBounds asset.tranches[trancheIndex]?
  ensure (tranche.approvedBy ≠ none) eNotApproved
  ensure (tranche.released = false) eAlreadyReleased
  let nextTranche ← add64 asset.nextTranche 1
  let escrow ← takeOut asset.escrow tranche.amount
  let asset := { asset with
    tranches := asset.tranches.set trancheIndex { tranche with released := true }
    nextTranche, escrow }
  let released : List Event := [.trancheReleased asset.id trancheIndex tranche.amount escrow]
  -- the last tranche: the project starts to operate
  if nextTranche = asset.tranches.length then
    let accId ← ofOption .outOfBounds asset.accumulatorId
    let (operational, events) := setState asset .operational
    return (operational, tranche.amount,
      released ++ .assetBecameOperational asset.id accId :: events)
  else return (asset, tranche.amount, released)

/-- Permissionless release of the validator's coverage. The code does not ask whether
    the asset is under dispute. -/
def releaseVouchCoverage (asset : Asset) (pool : ValidatorPool) :
    Except Abort (Asset × ValidatorPool) := do
  -- an early close must not strand the coverage either
  ensure (asset.state = .operational ∨ asset.state = .closed) eWrongState
  assertVouchingPool asset pool
  ensure (0 < asset.coverageLocked) eZeroAmount
  let pool ← releaseCoverage pool asset.coverageLocked
  return ({ asset with coverageLocked := 0 }, pool)

/-- Permissionless default trigger: collateral and unreleased escrow go to the
    compensation pool. -/
def flagDefault (asset : Asset) (acc : GlobalYieldAccumulator) (config : ProtocolConfig)
    (now : ℕ) : Except Abort (Asset × GlobalYieldAccumulator × List Event) := do
  assertVersion config
  assertState asset .executing
  assertAsset acc asset.id
  let tranche ← ofOption .outOfBounds asset.tranches[asset.nextTranche]?
  ensure (tranche.deadlineMs < now) eDeadlineNotMissed
  -- an approved milestone is no default: the entity only has to pull
  ensure (tranche.approvedBy = none) eAlreadyApproved
  let seized ← add64 asset.entityCollateral asset.escrow
  let unlockMs ← add64 now config.compensationGraceMs
  let acc ← addToCompensationPool acc seized unlockMs
  let defaulted : Event := .entityDefaulted asset.id asset.nextTranche asset.entityCollateral
    asset.escrow acc.compensationPool acc.compensationUnlockMs acc.wrappingFrozen
  let (asset, events) := setState { asset with entityCollateral := 0, escrow := 0 } .compensating
  return (asset, acc, defaulted :: events)

/-! ## Revenue and close -/

/-- Permissionless revenue intake: fee to the treasury, investor portion to the index,
    the rest to the entity. -/
def depositRevenue (asset : Asset) (acc : GlobalYieldAccumulator) (config : ProtocolConfig)
    (payment : ℕ) : Except Abort (GlobalYieldAccumulator × Transfers × List Event) := do
  assertVersion config
  assertNotPaused config
  assertState asset .operational
  assertAsset acc asset.id
  ensure (0 < payment) eZeroAmount
  let fee ← mulBps payment config.protocolFeeBps
  let afterFee ← sub payment fee
  let investorPortion ← mulBps afterFee asset.revenueSplitBps
  let entityPortion ← sub afterFee investorPortion
  -- the investors' portion enters the index or, with nothing unwrapped, the reserve
  let (acc, indexAfter) ← addRevenue acc investorPortion
  let unwrapped ← unwrappedSupply acc
  return (acc,
    (if 0 < fee then [(config.treasury, fee)] else []) ++
      (if 0 < entityPortion then [(asset.entity, entityPortion)] else []),
    [.revenueDeposited asset.id payment fee investorPortion entityPortion indexAfter unwrapped
      acc.rewardPool acc.rolloverReserve])

/-- Close trigger (a): the return target of a term asset is reached. -/
def closeAtReturnTarget (asset : Asset) (acc : GlobalYieldAccumulator) (config : ProtocolConfig) :
    Except Abort (Asset × GlobalYieldAccumulator × Transfers × List Event) := do
  assertVersion config
  assertState asset .operational
  assertAsset acc asset.id
  ensure (asset.isTermFinancing = true) eNotTermFinancing
  ensure (asset.returnTarget ≤ acc.lifetimeInvestorRevenue) eReturnTargetNotMet
  return close asset acc .returnTarget

/-- Close trigger (b): the compensation pool is distributed. -/
def closeAfterCompensation (asset : Asset) (acc : GlobalYieldAccumulator)
    (config : ProtocolConfig) (now : ℕ) :
    Except Abort (Asset × GlobalYieldAccumulator × Transfers × List Event) := do
  assertVersion config
  assertState asset .compensating
  assertAsset acc asset.id
  ensure (acc.compensationUnlockMs ≤ now) eGraceNotElapsed
  -- nothing is left to distribute
  ensure (acc.compensationPool = 0) eCompensationNotSwept
  return close asset acc .compensation

/-- Close trigger (c): wind-down co-signed by the holder of the `AdminCap`. -/
def closeWindDown (asset : Asset) (acc : GlobalYieldAccumulator) (config : ProtocolConfig)
    (_admin : AdminCap) (entityCap : EntityCap) :
    Except Abort (Asset × GlobalYieldAccumulator × Transfers × List Event) := do
  assertVersion config
  assertState asset .operational
  assertEntityCap asset entityCap
  assertAsset acc asset.id
  return close asset acc .windDown

/-! ## Package functions -/

def setDisputed (asset : Asset) (disputed : Bool) : Asset := { asset with disputed }

def clearCoverage (asset : Asset) : Asset := { asset with coverageLocked := 0 }

/-- Seizes escrow and collateral of an EXECUTING asset after an upheld verdict. -/
def seizeIntoCompensation (asset : Asset) : Except Abort (Asset × ℕ × List Event) := do
  assertState asset .executing
  let seized ← add64 asset.entityCollateral asset.escrow
  let (asset, events) := setState { asset with entityCollateral := 0, escrow := 0 } .compensating
  return (asset, seized, events)

end Gally

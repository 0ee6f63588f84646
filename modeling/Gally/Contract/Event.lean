import Gally.Contract.Move

/-!
# Status bytes and events

The `u8` status constants of assets, validator pools and disputes as
enumerations, and one constructor of `Event` for every event struct the package
emits, with the fields of that struct.
-/

namespace Gally

/-- Lifecycle states of an asset (`STATE_*`). -/
inductive AssetState where
  | pendingVouch | funding | failed | cancelled | executing | operational | compensating | closed
  deriving DecidableEq, Repr

/-- Status of a validator pool (`STATUS_*` of `validator`). -/
inductive PoolStatus where
  | active | frozen | slashed
  deriving DecidableEq, Repr

/-- Status of a dispute (`STATUS_*` of `dispute`). -/
inductive DisputeStatus where
  | opened | upheld | rejected | expired
  deriving DecidableEq, Repr

/-- Reasons recorded on `AssetClosedEvent` (`CLOSE_REASON_*`). -/
inductive CloseReason where
  | returnTarget | compensation | windDown
  deriving DecidableEq, Repr

/-- The events of the package. -/
inductive Event where
  -- protocol
  | protocolInitialized (configId : ID) (admin : Address)
  | protocolParamChanged (name : String) (oldValue newValue : ℕ)
  | protocolTreasuryChanged (oldTreasury newTreasury : Address)
  | emergencyStopTriggered (configId : ID)
  | protocolResumed (configId : ID)
  -- validator
  | validatorRegistered (poolId : ID) (validator : Address) (stake : ℕ) (name : Bytes)
  | stakeAdded (poolId : ID) (depositor : Address) (amount stakeAfter : ℕ)
  | stakeWithdrawn (poolId : ID) (validator : Address) (amount stakeAfter : ℕ)
  | validatorStatusChanged (poolId : ID) (oldStatus newStatus : PoolStatus)
      (disputeId : Option ID)
  -- accumulator
  | rolloverSwept (assetId : ID) (amount indexAfter unwrappedSupply : ℕ)
      (rewardPoolAfter rolloverReserveAfter : ℕ)
  | yieldClaimed (assetId : ID) (holder : Address) (amount indexAtClaim rewardPoolAfter : ℕ)
  | compensationSwept (assetId : ID) (amount indexAfter unwrappedSupply : ℕ)
      (routedToRollover : Bool) (rewardPoolAfter rolloverReserveAfter compensationPoolAfter : ℕ)
      (wrappingFrozen : Bool)
  | sharesWrapped (assetId : ID) (holder : Address) (count totalWrappedAfter : ℕ)
  | sharesUnwrapped (assetId : ID) (holder : Address) (count : ℕ) (shareObjectId : ID)
      (totalWrappedAfter : ℕ)
  | shareRedeemed (assetId : ID) (holder : Address) (count totalMintedAfter : ℕ)
  | dustSwept (assetId : ID) (amount rewardPoolAfter rolloverReserveAfter : ℕ)
  -- asset
  | assetCreated (assetId : ID) (entity : Address)
      (fundingGoal fundingDeadlineMs trancheCount revenueSplitBps collateral : ℕ)
      (name ticker : Bytes) (category : UInt8) (location entityName : Bytes)
      (metadataBlobId metadataSha256 : Bytes) (isTermFinancing : Bool) (returnTarget : ℕ)
      (trancheAmounts trancheDeadlinesMs : List ℕ) (trancheDescriptions : List Bytes)
  | assetStateChanged (assetId : ID) (oldState newState : AssetState)
  | assetVouched (assetId poolId : ID) (validator : Address) (coverage : ℕ)
      (docHashes : List Bytes)
  | assetCancelled (assetId : ID)
  | capitalContributed (assetId : ID) (contributor : Address) (amount raisedAfter : ℕ)
  | raiseFinalized (assetId accumulatorId : ID) (totalShares : ℕ)
  | raiseAborted (assetId : ID) (raised : ℕ)
  | contributionRefunded (assetId : ID) (contributor : Address) (amount : ℕ)
  | sharesClaimed (assetId : ID) (holder : Address) (count : ℕ) (shareObjectId : ID)
  | milestoneProofSubmitted (assetId : ID) (tranche : ℕ) (blobId sha256 : Bytes)
  | milestoneApproved (assetId : ID) (tranche : ℕ) (validator : Address) (poolId : ID)
  | trancheReleased (assetId : ID) (tranche amount escrowAfter : ℕ)
  | assetBecameOperational (assetId accumulatorId : ID)
  | entityDefaulted (assetId : ID) (trancheMissed collateralSeized escrowSeized : ℕ)
      (compensationPoolAfter compensationUnlockMs : ℕ) (wrappingFrozen : Bool)
  | assetClosed (assetId : ID) (reason : CloseReason)
  | revenueDeposited (assetId : ID) (gross fee investorPortion entityPortion : ℕ)
      (indexAfter unwrappedSupply rewardPoolAfter rolloverReserveAfter : ℕ)
  -- dispute
  | disputeOpened (disputeId assetId targetPoolId : ID) (challenger : Address) (bond : ℕ)
      (evidenceSha256 reason : Bytes)
  | jurorVoted (disputeId jurorPoolId : ID) (guilty : Bool)
      (votesGuiltyAfter votesInnocentAfter : ℕ)
  | disputeResolved (disputeId assetId targetPoolId : ID) (verdict : DisputeStatus)
      (slashed bounty : ℕ) (challenger : Address)
      (compensationPoolAfter compensationUnlockMs : ℕ) (wrappingFrozen : Bool)
  | jurorRewardClaimed (disputeId jurorPoolId : ID) (amount : ℕ)
  deriving DecidableEq, Repr

end Gally

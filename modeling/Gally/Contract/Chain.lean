import Gally.Contract.Dispute
import Gally.Library.Run
import Gally.Library.Store

/-!
# The chain: objects, calls, transactions

The world holds every object the package and the framework can touch, the USDC of
each address and the clock. A `Call` is one command of a transaction, with object
arguments given by ID; `World.call` fetches the objects, checks that the sender
owns the owned ones, runs the Move function and files the results. A transaction
is a list of calls signed by one address, and is atomic.

Shared objects (config, assets, accumulators, pools, disputes) are open to
everyone. What a function returns goes to the sender. Deeds, coins and treasury
caps can be transferred; receipts and capabilities cannot.
-/

namespace Gally

open Checked

/-- The USDC an address holds. -/
structure Wallet where
  owner : Address
  value : ℕ
  deriving DecidableEq, Repr

instance : Keyed Asset ID := ⟨Asset.id⟩
instance : Keyed GlobalYieldAccumulator ID := ⟨GlobalYieldAccumulator.id⟩
instance : Keyed GallyShare ID := ⟨GallyShare.id⟩
instance : Keyed ContributionReceipt ID := ⟨ContributionReceipt.id⟩
instance : Keyed TokenCoin ID := ⟨TokenCoin.id⟩
instance : Keyed ValidatorPool ID := ⟨ValidatorPool.id⟩
instance : Keyed Dispute ID := ⟨Dispute.id⟩
instance : Keyed EntityCap ID := ⟨EntityCap.id⟩
instance : Keyed ValidatorCap ID := ⟨ValidatorCap.id⟩
instance : Keyed TreasuryCap TypeTag := ⟨TreasuryCap.token⟩
instance : Keyed CoinMetadata TypeTag := ⟨CoinMetadata.token⟩
instance : Keyed Wallet Address := ⟨Wallet.owner⟩

/-! ## Wallets -/

/-- All USDC holdings. -/
abbrev Wallets := Store Wallet

/-- The USDC held by address `a`. -/
def Wallets.balance (ws : Wallets) (a : Address) : ℕ := (ws.get? a).elim 0 Wallet.value

/-- Pay `v` to address `a`. -/
def Wallets.credit (ws : Wallets) (a : Address) (v : ℕ) : Wallets :=
  ws.put { owner := a, value := ws.balance a + v }

/-- Perform the transfers a call made. -/
def Wallets.pay (ws : Wallets) (ts : Transfers) : Wallets :=
  ts.foldl (fun ws t => ws.credit t.1 t.2) ws

/-- What is left after address `a` spent `v`. -/
def Wallets.spend (ws : Wallets) (a : Address) (v : ℕ) : Wallets :=
  ws.put { owner := a, value := ws.balance a - v }

/-- Take `v` out of the holdings of address `a`. -/
def Wallets.debit (ws : Wallets) (a : Address) (v : ℕ) : Except Abort Wallets :=
  guarded (v ≤ ws.balance a) .notEnough (ws.spend a v)

@[simp] theorem Wallets.debit_eq_ok {ws ws' : Wallets} {a : Address} {v : ℕ} :
    ws.debit a v = .ok ws' ↔ v ≤ ws.balance a ∧ ws.spend a v = ws' :=
  guarded_eq_ok

/-! ## The world -/

/-- How an owned object can change hands: deeds, coins and treasury caps are
    transferable, receipts and capabilities are not. -/
inductive OwnedKind where
  | share | coin | treasuryCap | soulbound
  deriving DecidableEq, Repr

/-- The state of the chain. `treasuryCaps` are the caps not yet custodied by an
    accumulator; `owner` says who owns each owned object. -/
structure World where
  config : ProtocolConfig
  adminCap : AdminCap
  clockMs : ℕ
  nextId : ID
  assets : Store Asset
  accumulators : Store GlobalYieldAccumulator
  shares : Store GallyShare
  receipts : Store ContributionReceipt
  coins : Store TokenCoin
  pools : Store ValidatorPool
  disputes : Store Dispute
  entityCaps : Store EntityCap
  validatorCaps : Store ValidatorCap
  treasuryCaps : Store TreasuryCap
  metadata : Store CoinMetadata
  wallets : Wallets
  usdcSupply : ℕ
  owner : OwnedKind → ID → Address
  events : List Event

/-- The world right after `admin` published the package. -/
def World.genesis (admin : Address) : World where
  config := ProtocolConfig.init 0 admin
  adminCap := ⟨1⟩
  clockMs := 0
  nextId := 2
  assets := ∅
  accumulators := ∅
  shares := ∅
  receipts := ∅
  coins := ∅
  pools := ∅
  disputes := ∅
  entityCaps := ∅
  validatorCaps := ∅
  treasuryCaps := ∅
  metadata := ∅
  wallets := ∅
  usdcSupply := 0
  owner := fun _ _ => admin
  events := [.protocolInitialized 0 admin]

/-- The shared object under `k`. -/
def shared {α : Type} [Keyed α ID] (s : Store α) (k : ID) : Except Abort α :=
  ofOption .noObject (s.get? k)

/-- The object under `k`, which `sender` has to own. -/
def World.owned {α : Type} [Keyed α ID] (w : World) (sender : Address) (kind : OwnedKind)
    (s : Store α) (k : ID) : Except Abort α := do
  ensure (w.owner kind k = sender) .notOwner
  shared s k

@[simp] theorem shared_eq_ok {α : Type} [Keyed α ID] {s : Store α} {k : ID} {x : α} :
    shared s k = .ok x ↔ s.get? k = some x := ofOption_eq_ok

/-- An owned object is passed to the call if it exists and the sender owns it. -/
@[simp] theorem World.owned_eq_ok {α : Type} [Keyed α ID] {w : World} {sender : Address}
    {kind : OwnedKind} {s : Store α} {k : ID} {x : α} :
    w.owned sender kind s k = .ok x ↔ w.owner kind k = sender ∧ s.get? k = some x := by
  simp [World.owned]

/-- Hand the object `k` to address `a`. -/
def World.give (w : World) (kind : OwnedKind) (k : ID) (a : Address) : OwnedKind → ID → Address :=
  fun i j => if i = kind ∧ j = k then a else w.owner i j

/-! ## Calls -/

/-- The functions of `protocol.move`. -/
inductive ProtocolCall where
  | adminSetFeeBps (newFeeBps : U64)
  | adminSetTreasury (newTreasury : Address)
  | adminSetMinValidatorStake (newMinStake : U64)
  | adminSetVouchCoverageBps (newCoverageBps : U64)
  | adminSetEntityCollateralBps (newCollateralBps : U64)
  | adminSetVouchTimeoutMs (newTimeoutMs : U64)
  | adminSetMinWrapDurationMs (newDurationMs : U64)
  | adminSetDisputeParams (new : DisputeParams)
  | adminEmergencyStop
  | adminResume

/-- The public functions of `validator.move`. -/
inductive ValidatorCall where
  | registerValidator (stake : U64) (name : Bytes)
  | addStake (pool : ID) (deposit : U64)
  | withdrawStake (pool cap : ID) (amount : U64)

/-- The public functions of `asset.move`. Evidence arguments may be built in the same
    transaction or copied from the metadata of an asset, so they are arbitrary. -/
inductive AssetCall where
  | createAsset (listing : Listing) (collateral : U64)
  | createTermAsset (listing : Listing) (returnTarget collateral : U64)
  | cancelUnvouchedByEntity (asset cap : ID)
  | cancelUnvouchedTimeout (asset : ID)
  | vouchAssetLegals (asset pool cap : ID) (legalDocs : List WalrusRef)
  | contributeCapital (asset : ID) (payment : U64)
  | finalizeSuccessfulRaise (asset : ID) (token : TypeTag)
  | abortFailedRaise (asset pool : ID)
  | refundContribution (asset receipt : ID)
  | claimShares (asset acc receipt : ID)
  | submitMilestoneProof (asset cap : ID) (trancheIndex : U64) (proof : WalrusRef)
  | approveMilestone (asset pool cap : ID) (trancheIndex : U64)
  | releaseFundingTranche (asset cap : ID) (trancheIndex : U64)
  | releaseVouchCoverage (asset pool : ID)
  | flagDefault (asset acc : ID)
  | depositRevenue (asset acc : ID) (payment : U64)
  | closeAtReturnTarget (asset acc : ID)
  | closeAfterCompensation (asset acc : ID)
  | closeWindDown (asset acc entityCap : ID)

/-- The public functions of `accumulator.move` and `share.move`. -/
inductive AccumulatorCall where
  | claimRewards (acc share : ID)
  | sweepRollover (acc : ID)
  | sweepCompensation (acc : ID)
  | wrapShares (acc share : ID)
  | unwrapCoins (acc coin : ID)
  | mergeShares (acc target victim : ID)
  | redeemShare (acc share : ID)
  | adminSweepDust (acc : ID)
  | splitShare (share : ID) (amount : U64)

/-- The public functions of `dispute.move`. -/
inductive DisputeCall where
  | initializeDispute (asset pool acc : ID) (bond : U64) (evidence : WalrusRef) (reason : Bytes)
  | voteOnDispute (dispute pool cap : ID) (guilty : Bool)
  | resolveDispute (dispute pool asset acc : ID)
  | claimJurorReward (dispute pool cap : ID)

/-- What the framework lets an address do with the objects of the package: pay USDC,
    publish an entity token, mint and burn under a cap it still holds, divide and join
    coins, and transfer what is transferable. `mintUsdc` and `burnUsdc` stand for the
    issuer of USDC. -/
inductive FrameworkCall where
  | mintUsdc (recipient : Address) (value : U64)
  | burnUsdc (value : U64)
  | payUsdc (recipient : Address) (value : U64)
  | publishToken (decimals : UInt8)
  | mintToken (token : TypeTag) (value : U64)
  | burnToken (token : TypeTag) (coin : ID)
  | zeroCoin (token : TypeTag)
  | destroyZero (coin : ID)
  | splitCoin (coin : ID) (amount : U64)
  | joinCoins (coin other : ID)
  | transferCoin (coin : ID) (recipient : Address)
  | transferShare (share : ID) (recipient : Address)
  | transferTreasuryCap (token : TypeTag) (recipient : Address)

/-- One command of a transaction. -/
inductive Call where
  | protocol (c : ProtocolCall)
  | validator (c : ValidatorCall)
  | asset (c : AssetCall)
  | accumulator (c : AccumulatorCall)
  | dispute (c : DisputeCall)
  | framework (c : FrameworkCall)

/-! ## Executing calls -/

/-- Which setter a call runs. -/
def ProtocolCall.run (config : ProtocolConfig) :
    ProtocolCall → Except Abort (ProtocolConfig × List Event)
  | .adminSetFeeBps n => Gally.adminSetFeeBps config n.val
  | .adminSetTreasury a => Gally.adminSetTreasury config a
  | .adminSetMinValidatorStake n => Gally.adminSetMinValidatorStake config n.val
  | .adminSetVouchCoverageBps n => Gally.adminSetVouchCoverageBps config n.val
  | .adminSetEntityCollateralBps n => Gally.adminSetEntityCollateralBps config n.val
  | .adminSetVouchTimeoutMs n => Gally.adminSetVouchTimeoutMs config n.val
  | .adminSetMinWrapDurationMs n => Gally.adminSetMinWrapDurationMs config n.val
  | .adminSetDisputeParams new => Gally.adminSetDisputeParams config new
  | .adminEmergencyStop => Gally.adminEmergencyStop config
  | .adminResume => Gally.adminResume config

def World.protocolCall (w : World) (sender : Address) (c : ProtocolCall) : Except Abort World := do
  ensure (w.owner .soulbound w.adminCap.id = sender) .notOwner
  let (config, events) ← c.run w.config
  return { w with config, events := w.events ++ events }

def World.validatorCall (w : World) (sender : Address) : ValidatorCall → Except Abort World
  | .registerValidator stake name => do
    let wallets ← w.wallets.debit sender stake.val
    let (pool, cap, events) ← registerValidator w.config stake.val name w.clockMs sender
      w.nextId (w.nextId + 1)
    return { w with
      nextId := w.nextId + 2, pools := w.pools.put pool, validatorCaps := w.validatorCaps.put cap,
      owner := w.give .soulbound cap.id sender, wallets, events := w.events ++ events }
  | .addStake poolId deposit => do
    let pool ← shared w.pools poolId
    let wallets ← w.wallets.debit sender deposit.val
    let (pool, events) ← addStake pool deposit.val sender
    return { w with pools := w.pools.put pool, wallets, events := w.events ++ events }
  | .withdrawStake poolId capId amount => do
    let pool ← shared w.pools poolId
    let cap ← w.owned sender .soulbound w.validatorCaps capId
    let (pool, coin, events) ← withdrawStake pool cap w.config amount.val
    return { w with
      pools := w.pools.put pool, wallets := w.wallets.credit sender coin,
      events := w.events ++ events }

/-- File a new asset with its capability. -/
def World.list (w : World) (sender : Address) (collateral : ℕ)
    (created : Except Abort (Asset × EntityCap × List Event)) : Except Abort World := do
  -- the collateral coin is split off before the call and consumed by it
  let wallets ← w.wallets.debit sender collateral
  let (asset, cap, events) ← created
  return { w with
    nextId := w.nextId + 2, assets := w.assets.put asset, entityCaps := w.entityCaps.put cap,
    owner := w.give .soulbound cap.id sender, wallets, events := w.events ++ events }

/-- File the result of a close trigger. -/
def World.fileClosed (w : World)
    (closed : Except Abort (Asset × GlobalYieldAccumulator × Transfers × List Event)) :
    Except Abort World := do
  let (asset, acc, transfers, events) ← closed
  return { w with
    assets := w.assets.put asset, accumulators := w.accumulators.put acc,
    wallets := w.wallets.pay transfers, events := w.events ++ events }

def World.assetCall (w : World) (sender : Address) : AssetCall → Except Abort World
  | .createAsset l collateral =>
    w.list sender collateral.val
      (createAsset w.config l collateral.val w.clockMs sender w.nextId (w.nextId + 1))
  | .createTermAsset l returnTarget collateral =>
    w.list sender collateral.val (createTermAsset w.config l returnTarget collateral.val w.clockMs
      sender w.nextId (w.nextId + 1))
  | .cancelUnvouchedByEntity assetId capId => do
    let asset ← shared w.assets assetId
    let cap ← w.owned sender .soulbound w.entityCaps capId
    let (asset, collateral, events) ← cancelUnvouchedByEntity asset cap
    return { w with
      assets := w.assets.put asset, wallets := w.wallets.credit sender collateral,
      events := w.events ++ events }
  | .cancelUnvouchedTimeout assetId => do
    let asset ← shared w.assets assetId
    let (asset, transfers, events) ← cancelUnvouchedTimeout asset w.config w.clockMs
    return { w with
      assets := w.assets.put asset, wallets := w.wallets.pay transfers,
      events := w.events ++ events }
  | .vouchAssetLegals assetId poolId capId legalDocs => do
    let asset ← shared w.assets assetId
    let pool ← shared w.pools poolId
    let cap ← w.owned sender .soulbound w.validatorCaps capId
    let (asset, pool, events) ← vouchAssetLegals asset pool cap w.config legalDocs sender
    return { w with
      assets := w.assets.put asset, pools := w.pools.put pool, events := w.events ++ events }
  | .contributeCapital assetId payment => do
    let asset ← shared w.assets assetId
    let wallets ← w.wallets.debit sender payment.val
    let (asset, receipt, change, events) ← contributeCapital asset w.config w.clockMs payment.val
      sender w.nextId
    return { w with
      nextId := w.nextId + 1, assets := w.assets.put asset, receipts := w.receipts.put receipt,
      owner := w.give .soulbound receipt.id sender, wallets := wallets.credit sender change,
      events := w.events ++ events }
  | .finalizeSuccessfulRaise assetId token => do
    let asset ← shared w.assets assetId
    let cap ← w.owned sender .treasuryCap w.treasuryCaps token
    let metadata ← shared w.metadata token
    let (asset, acc, events) ← finalizeSuccessfulRaise asset w.config cap metadata w.clockMs
      w.nextId
    return { w with
      nextId := w.nextId + 1, assets := w.assets.put asset,
      accumulators := w.accumulators.put acc, treasuryCaps := w.treasuryCaps.delete token,
      events := w.events ++ events }
  | .abortFailedRaise assetId poolId => do
    let asset ← shared w.assets assetId
    let pool ← shared w.pools poolId
    let (asset, pool, transfers, events) ← abortFailedRaise asset pool w.config w.clockMs
    return { w with
      assets := w.assets.put asset, pools := w.pools.put pool,
      wallets := w.wallets.pay transfers, events := w.events ++ events }
  | .refundContribution assetId receiptId => do
    let asset ← shared w.assets assetId
    let receipt ← w.owned sender .soulbound w.receipts receiptId
    let (asset, principal, events) ← refundContribution asset w.config receipt sender
    return { w with
      assets := w.assets.put asset, receipts := w.receipts.delete receiptId,
      wallets := w.wallets.credit sender principal, events := w.events ++ events }
  | .claimShares assetId accId receiptId => do
    let asset ← shared w.assets assetId
    let acc ← shared w.accumulators accId
    let receipt ← w.owned sender .soulbound w.receipts receiptId
    let (share, events) ← claimShares asset acc w.config receipt w.clockMs sender w.nextId
    return { w with
      nextId := w.nextId + 1, receipts := w.receipts.delete receiptId,
      shares := w.shares.put share, owner := w.give .share share.id sender,
      events := w.events ++ events }
  | .submitMilestoneProof assetId capId trancheIndex proof => do
    let asset ← shared w.assets assetId
    let cap ← w.owned sender .soulbound w.entityCaps capId
    let (asset, events) ← submitMilestoneProof asset cap w.config trancheIndex.val proof
    return { w with assets := w.assets.put asset, events := w.events ++ events }
  | .approveMilestone assetId poolId capId trancheIndex => do
    let asset ← shared w.assets assetId
    let pool ← shared w.pools poolId
    let cap ← w.owned sender .soulbound w.validatorCaps capId
    let (asset, events) ← approveMilestone asset pool cap w.config trancheIndex.val sender
    return { w with assets := w.assets.put asset, events := w.events ++ events }
  | .releaseFundingTranche assetId capId trancheIndex => do
    let asset ← shared w.assets assetId
    let cap ← w.owned sender .soulbound w.entityCaps capId
    let (asset, tranche, events) ← releaseFundingTranche asset cap w.config trancheIndex.val
    return { w with
      assets := w.assets.put asset, wallets := w.wallets.credit sender tranche,
      events := w.events ++ events }
  | .releaseVouchCoverage assetId poolId => do
    let asset ← shared w.assets assetId
    let pool ← shared w.pools poolId
    let (asset, pool) ← releaseVouchCoverage asset pool
    return { w with assets := w.assets.put asset, pools := w.pools.put pool }
  | .flagDefault assetId accId => do
    let asset ← shared w.assets assetId
    let acc ← shared w.accumulators accId
    let (asset, acc, events) ← flagDefault asset acc w.config w.clockMs
    return { w with
      assets := w.assets.put asset, accumulators := w.accumulators.put acc,
      events := w.events ++ events }
  | .depositRevenue assetId accId payment => do
    let asset ← shared w.assets assetId
    let acc ← shared w.accumulators accId
    let wallets ← w.wallets.debit sender payment.val
    let (acc, transfers, events) ← depositRevenue asset acc w.config payment.val
    return { w with
      accumulators := w.accumulators.put acc, wallets := wallets.pay transfers,
      events := w.events ++ events }
  | .closeAtReturnTarget assetId accId => do
    let asset ← shared w.assets assetId
    let acc ← shared w.accumulators accId
    w.fileClosed (closeAtReturnTarget asset acc w.config)
  | .closeAfterCompensation assetId accId => do
    let asset ← shared w.assets assetId
    let acc ← shared w.accumulators accId
    w.fileClosed (closeAfterCompensation asset acc w.config w.clockMs)
  | .closeWindDown assetId accId capId => do
    let asset ← shared w.assets assetId
    let acc ← shared w.accumulators accId
    ensure (w.owner .soulbound w.adminCap.id = sender) .notOwner
    let cap ← w.owned sender .soulbound w.entityCaps capId
    w.fileClosed (closeWindDown asset acc w.config w.adminCap cap)

def World.accumulatorCall (w : World) (sender : Address) : AccumulatorCall → Except Abort World
  | .claimRewards accId shareId => do
    let acc ← shared w.accumulators accId
    let share ← w.owned sender .share w.shares shareId
    let (acc, share, payout, events) ← claimRewards acc share sender
    return { w with
      accumulators := w.accumulators.put acc, shares := w.shares.put share,
      wallets := w.wallets.credit sender payout, events := w.events ++ events }
  | .sweepRollover accId => do
    let acc ← shared w.accumulators accId
    let (acc, events) ← sweepRollover acc
    return { w with accumulators := w.accumulators.put acc, events := w.events ++ events }
  | .sweepCompensation accId => do
    let acc ← shared w.accumulators accId
    let (acc, events) ← sweepCompensation acc w.clockMs
    return { w with accumulators := w.accumulators.put acc, events := w.events ++ events }
  | .wrapShares accId shareId => do
    let acc ← shared w.accumulators accId
    let share ← w.owned sender .share w.shares shareId
    let (acc, coin, claimed, events) ← wrapShares acc w.config share w.clockMs sender w.nextId
    return { w with
      nextId := w.nextId + 1, accumulators := w.accumulators.put acc,
      shares := w.shares.delete shareId, coins := w.coins.put coin,
      owner := w.give .coin coin.id sender, wallets := w.wallets.credit sender claimed,
      events := w.events ++ events }
  | .unwrapCoins accId coinId => do
    let acc ← shared w.accumulators accId
    let coin ← w.owned sender .coin w.coins coinId
    -- `Coin<T>` and `GlobalYieldAccumulator<T>` share the type parameter
    ensure (coin.token = acc.treasuryCap.token) .typeMismatch
    let (acc, share, events) ← unwrapCoins acc coin w.clockMs sender w.nextId
    return { w with
      nextId := w.nextId + 1, accumulators := w.accumulators.put acc,
      coins := w.coins.delete coinId, shares := w.shares.put share,
      owner := w.give .share share.id sender, events := w.events ++ events }
  | .mergeShares accId targetId victimId => do
    let acc ← shared w.accumulators accId
    let target ← w.owned sender .share w.shares targetId
    let victim ← w.owned sender .share w.shares victimId
    -- one object cannot be borrowed and consumed by the same command
    ensure (targetId ≠ victimId) .sameObject
    let (acc, target, claimed, events) ← mergeShares acc target victim sender
    return { w with
      accumulators := w.accumulators.put acc,
      shares := (w.shares.delete victimId).put target,
      wallets := w.wallets.credit sender claimed, events := w.events ++ events }
  | .redeemShare accId shareId => do
    let acc ← shared w.accumulators accId
    let share ← w.owned sender .share w.shares shareId
    let (acc, proceeds, events) ← redeemShare acc share sender
    return { w with
      accumulators := w.accumulators.put acc, shares := w.shares.delete shareId,
      wallets := w.wallets.credit sender proceeds, events := w.events ++ events }
  | .adminSweepDust accId => do
    ensure (w.owner .soulbound w.adminCap.id = sender) .notOwner
    let acc ← shared w.accumulators accId
    let (acc, residue, events) ← adminSweepDust acc w.config
    return { w with
      accumulators := w.accumulators.put acc, wallets := w.wallets.credit sender residue,
      events := w.events ++ events }
  | .splitShare shareId amount => do
    let share ← w.owned sender .share w.shares shareId
    let (parent, child) ← splitShare share amount.val w.nextId
    return { w with
      nextId := w.nextId + 1, shares := (w.shares.put parent).put child,
      owner := w.give .share child.id sender }

def World.disputeCall (w : World) (sender : Address) : DisputeCall → Except Abort World
  | .initializeDispute assetId poolId accId bond evidence reason => do
    let asset ← shared w.assets assetId
    let pool ← shared w.pools poolId
    let acc ← shared w.accumulators accId
    let wallets ← w.wallets.debit sender bond.val
    let (asset, pool, dispute, events) ← initializeDispute asset pool acc w.config bond.val
      evidence reason w.clockMs sender w.nextId
    return { w with
      nextId := w.nextId + 1, assets := w.assets.put asset, pools := w.pools.put pool,
      disputes := w.disputes.put dispute, wallets, events := w.events ++ events }
  | .voteOnDispute disputeId poolId capId guilty => do
    let dispute ← shared w.disputes disputeId
    let pool ← shared w.pools poolId
    let cap ← w.owned sender .soulbound w.validatorCaps capId
    let (dispute, events) ← voteOnDispute dispute pool cap w.config guilty w.clockMs
    return { w with disputes := w.disputes.put dispute, events := w.events ++ events }
  | .resolveDispute disputeId poolId assetId accId => do
    let dispute ← shared w.disputes disputeId
    let pool ← shared w.pools poolId
    let asset ← shared w.assets assetId
    let acc ← shared w.accumulators accId
    let v ← resolveDispute dispute pool asset acc w.config w.clockMs
    return { w with
      disputes := w.disputes.put v.dispute, pools := w.pools.put v.pool,
      assets := w.assets.put v.asset, accumulators := w.accumulators.put v.acc,
      wallets := w.wallets.pay v.transfers, events := w.events ++ v.events }
  | .claimJurorReward disputeId poolId capId => do
    let dispute ← shared w.disputes disputeId
    let pool ← shared w.pools poolId
    let cap ← w.owned sender .soulbound w.validatorCaps capId
    let (dispute, amount, events) ← claimJurorReward dispute pool cap
    return { w with
      disputes := w.disputes.put dispute, wallets := w.wallets.credit sender amount,
      events := w.events ++ events }

def World.frameworkCall (w : World) (sender : Address) : FrameworkCall → Except Abort World
  | .mintUsdc recipient value => do
    -- `balance::increase_supply` keeps the supply below the maximum
    ensure (value.val < maxU64 - w.usdcSupply) .supplyOverflow
    return { w with
      usdcSupply := w.usdcSupply + value.val, wallets := w.wallets.credit recipient value.val }
  | .burnUsdc value => do
    let wallets ← w.wallets.debit sender value.val
    let usdcSupply ← sub w.usdcSupply value.val
    return { w with usdcSupply, wallets }
  | .payUsdc recipient value => do
    let wallets ← w.wallets.debit sender value.val
    return { w with wallets := wallets.credit recipient value.val }
  | .publishToken decimals =>
    .ok { w with
      nextId := w.nextId + 1,
      treasuryCaps := w.treasuryCaps.put { token := w.nextId, totalSupply := 0 },
      metadata := w.metadata.put { token := w.nextId, decimals := decimals.toNat },
      owner := w.give .treasuryCap w.nextId sender }
  | .mintToken token value => do
    let cap ← w.owned sender .treasuryCap w.treasuryCaps token
    let cap ← cap.mint value.val
    return { w with
      nextId := w.nextId + 1, treasuryCaps := w.treasuryCaps.put cap,
      coins := w.coins.put { id := w.nextId, token, value := value.val },
      owner := w.give .coin w.nextId sender }
  | .burnToken token coinId => do
    let cap ← w.owned sender .treasuryCap w.treasuryCaps token
    let coin ← w.owned sender .coin w.coins coinId
    ensure (coin.token = token) .typeMismatch
    let cap ← cap.burn coin.value
    return { w with treasuryCaps := w.treasuryCaps.put cap, coins := w.coins.delete coinId }
  | .zeroCoin token =>
    .ok { w with
      nextId := w.nextId + 1, coins := w.coins.put { id := w.nextId, token, value := 0 },
      owner := w.give .coin w.nextId sender }
  | .destroyZero coinId => do
    let coin ← w.owned sender .coin w.coins coinId
    ensure (coin.value = 0) .nonZero
    return { w with coins := w.coins.delete coinId }
  | .splitCoin coinId amount => do
    let coin ← w.owned sender .coin w.coins coinId
    let rest ← takeOut coin.value amount.val
    return { w with
      nextId := w.nextId + 1,
      coins := (w.coins.put { coin with value := rest }).put
        { id := w.nextId, token := coin.token, value := amount.val },
      owner := w.give .coin w.nextId sender }
  | .joinCoins coinId otherId => do
    let coin ← w.owned sender .coin w.coins coinId
    let other ← w.owned sender .coin w.coins otherId
    ensure (coinId ≠ otherId) .sameObject
    ensure (other.token = coin.token) .typeMismatch
    let value ← add64 coin.value other.value
    return { w with coins := (w.coins.delete otherId).put { coin with value } }
  | .transferCoin coinId recipient => do
    let coin ← w.owned sender .coin w.coins coinId
    return { w with owner := w.give .coin coin.id recipient }
  | .transferShare shareId recipient => do
    let share ← w.owned sender .share w.shares shareId
    return { w with owner := w.give .share share.id recipient }
  | .transferTreasuryCap token recipient => do
    let cap ← w.owned sender .treasuryCap w.treasuryCaps token
    return { w with owner := w.give .treasuryCap cap.token recipient }

/-- Execute one call signed by `sender`. -/
def World.call (w : World) (sender : Address) : Call → Except Abort World
  | .protocol c => w.protocolCall sender c
  | .validator c => w.validatorCall sender c
  | .asset c => w.assetCall sender c
  | .accumulator c => w.accumulatorCall sender c
  | .dispute c => w.disputeCall sender c
  | .framework c => w.frameworkCall sender c

/-! ## Transactions and runs -/

/-- What moves the chain: a transaction, or time passing. -/
inductive Action where
  | transaction (sender : Address) (calls : List Call)
  | tick (now : U64)

/-- Execute an action. An aborting transaction has no effect, so only the successful
    ones are part of a run. -/
def World.step (w : World) : Action → Except Abort World
  | .transaction sender calls => Run.exec (fun w c => w.call sender c) w calls
  | .tick now => guarded (w.clockMs ≤ now.val) .clockBackwards { w with clockMs := now.val }

/-- Execute a sequence of actions. -/
def World.run (w : World) (actions : List Action) : Except Abort World :=
  Run.exec World.step w actions

/-- The world can be reached from the publication of the package. -/
def Reachable (w : World) : Prop :=
  ∃ admin actions, (World.genesis admin).run actions = .ok w

/-- A run from a reachable world leads to a reachable world. -/
theorem Reachable.run {w w' : World} (hw : Reachable w) {actions : List Action}
    (h : w.run actions = .ok w') : Reachable w' := by
  obtain ⟨admin, before, hb⟩ := hw
  exact ⟨admin, before ++ actions, Run.exec_append_eq_ok.mpr ⟨w, hb, h⟩⟩

/-- A transaction of one call. -/
theorem World.step_call {w w' : World} {sender : Address} {c : Call}
    (h : w.call sender c = .ok w') : w.step (.transaction sender [c]) = .ok w' := by
  simp [World.step, h]

/-- A run that begins with a transaction of one call. -/
theorem World.run_call {w w' u : World} {sender : Address} {c : Call} {actions : List Action}
    (h : w.call sender c = .ok w') (hrun : w'.run actions = .ok u) :
    w.run (.transaction sender [c] :: actions) = .ok u :=
  Run.exec_cons_eq_ok.mpr ⟨w', World.step_call h, hrun⟩

theorem World.run_nil (w : World) : w.run [] = .ok w := Run.exec_nil_eq_ok.mpr rfl

/-- A call is a transaction of its own, so the states inside a transaction are
    reachable too. -/
theorem Reachable.call {w w' : World} (hw : Reachable w) {sender : Address} {c : Call}
    (h : w.call sender c = .ok w') : Reachable w' :=
  hw.run (World.run_call h w'.run_nil)

/-- So does one action. -/
theorem Reachable.step {w w' : World} (hw : Reachable w) {action : Action}
    (h : w.step action = .ok w') : Reachable w' :=
  hw.run (Run.exec_cons_eq_ok.mpr ⟨w', h, w'.run_nil⟩)

/-- Induction over everything that can happen after a reachable state. -/
theorem Reachable.run_induct {P : World → Prop}
    (call : ∀ {w sender c w'}, Reachable w → P w → World.call w sender c = .ok w' → P w')
    (tick : ∀ {w : World} {now : U64}, Reachable w → P w → w.clockMs ≤ now.val →
      P { w with clockMs := now.val })
    {w w' : World} (hw : Reachable w) (hP : P w) {actions : List Action}
    (h : w.run actions = .ok w') : P w' := by
  have hstep : ∀ (u : World) (a : Action) (u' : World),
      Reachable u ∧ P u → u.step a = .ok u' → Reachable u' ∧ P u' := by
    rintro u (⟨sender, calls⟩ | now) u' ⟨hu, hP⟩ hs
    -- each call of the transaction starts in a reachable state
    · refine Run.exec_preserves (P := fun u => Reachable u ∧ P u) ?_ ⟨hu, hP⟩ hs
      exact fun v c v' hv hc => ⟨hv.1.call hc, call hv.1 hv.2 hc⟩
    -- a tick as a run of one action
    · obtain ⟨hle, rfl⟩ := guarded_eq_ok.mp hs
      have hstep : u.run [.tick now] = .ok { u with clockMs := now.val } := by
        simp [World.run, World.step, guarded, hle]
      exact ⟨hu.run hstep, tick hu hP hle⟩
  exact (Run.exec_preserves hstep ⟨hw, hP⟩ h).2

/-- Induction over everything that can happen to the chain. -/
theorem Reachable.induct {P : World → Prop} (genesis : ∀ admin, P (World.genesis admin))
    (call : ∀ {w sender c w'}, Reachable w → P w → World.call w sender c = .ok w' → P w')
    (tick : ∀ {w : World} {now : U64}, Reachable w → P w → w.clockMs ≤ now.val →
      P { w with clockMs := now.val })
    {w : World} (hw : Reachable w) : P w := by
  obtain ⟨admin, actions, h⟩ := hw
  exact run_induct call tick ⟨admin, [], World.run_nil _⟩ (genesis admin) h

end Gally

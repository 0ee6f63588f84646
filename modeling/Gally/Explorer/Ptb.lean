import Gally.Library.Checked
import Gally.Explorer.Wire
import Mathlib.Algebra.Order.Floor.Ring
import Mathlib.Data.Rat.Floor

/-!
# Transaction plans (`lib/tx/ptb.ts`)

`buildPlan` compiles an intent to the calls of a transaction: targets, type
arguments and ordered arguments. A JavaScript number is read as an exact rational,
`none` is a field that is `undefined`, and a `BuildError` carries its message.
-/

namespace Gally.Explorer

open Checked

/-- The crank functions anyone may call (`CrankKind`). -/
inductive CrankKind where
  | resolveDispute | flagDefault | abortFailedRaise | sweepRollover | sweepCompensation
  deriving DecidableEq, Repr

/-- A transaction intent, with the fields `buildPlan` reads of it. -/
inductive TxIntent where
  | contribute (amount : ℚ)
  | claimShares
  | refund
  | claimRewards
  | wrap (amount : ℚ)
  | unwrap (amount : ℚ)
  | split (amount : ℚ)
  | raiseDispute (poolId : String) (bond : ℚ) (reason evidenceBlobId evidenceSha256 : Option String)
  | crank (crank : CrankKind) (targetId : String)

structure AssetCtx where
  assetId : String
  accumulatorId : Option String
  validatorPoolId : Option String
  /-- fully qualified tag of the entity token -/
  tokenType : Option String

structure OwnedRefs where
  receiptId : Option String
  shareId : Option String
  coinTId : Option String
  usdcCoinId : Option String

structure BuildCtx where
  packageId : String
  configId : String
  asset : Option AssetCtx
  owned : Option OwnedRefs
  disputeId : Option String

inductive CoinType where
  | usdc | t
  deriving DecidableEq, Repr

/-- The argument of a call (`PlanArg`). -/
inductive PlanArg where
  | shared (id : String) (mutable : Bool)
  | owned (id : String)
  | clock
  | u64 (value : ℤ)
  /-- a `vector<u8>`, the bytes of the text or those its hex digits stand for -/
  | bytes (value : String) (hex : Bool)
  | coin (coinType : CoinType) (amountMicro : ℤ)
  /-- the result of an earlier call -/
  | result (source : ℕ)
  deriving DecidableEq, Repr

structure MoveCallPlan where
  target : String
  typeArguments : List String
  args : List PlanArg

structure TxPlan where
  calls : List MoveCallPlan
  /-- transfer the result of the last call to the sender -/
  transferLast : Bool

structure BuildError where
  message : String

/-- The value of a reference that must be resolved. -/
def need {α : Type} (v : Option α) (what : String) : Except BuildError α :=
  ofOption ⟨"live tx: " ++ what ++ " is unresolved"⟩ v

@[simp] theorem need_eq_ok {α : Type} {v : Option α} {what : String} {a : α} :
    need v what = .ok a ↔ v = some a := ofOption_eq_ok

/-- `Math.round`: halves round up. -/
def mathRound (x : ℚ) : ℤ := ⌊x + 1 / 2⌋

namespace BuildCtx

def tokenTypeOf (ctx : BuildCtx) : Except BuildError String :=
  need (ctx.asset.bind AssetCtx.tokenType) "entity token type <T>"

def assetId (ctx : BuildCtx) : Except BuildError String :=
  need (ctx.asset.map AssetCtx.assetId) "asset id"

def accId (ctx : BuildCtx) : Except BuildError String :=
  need (ctx.asset.bind AssetCtx.accumulatorId) "accumulator id"

def poolId (ctx : BuildCtx) : Except BuildError String :=
  need (ctx.asset.bind AssetCtx.validatorPoolId) "validator pool id"

def receiptId (ctx : BuildCtx) : Except BuildError String :=
  need (ctx.owned.bind OwnedRefs.receiptId) "ContributionReceipt id"

def shareId (ctx : BuildCtx) : Except BuildError String :=
  need (ctx.owned.bind OwnedRefs.shareId) "GallyShare id"

def config (ctx : BuildCtx) : PlanArg := .shared ctx.configId false

/-- The fully qualified name of a function of the package. -/
def t (ctx : BuildCtx) (m : String) : String := ctx.packageId ++ "::" ++ m

end BuildCtx

/-- The function each crank calls (`CRANK_TARGET`). -/
def crankTarget : CrankKind → String
  | .resolveDispute => "dispute::resolve_dispute"
  | .flagDefault => "asset::check_default"
  | .abortFailedRaise => "asset::abort_failed_raise"
  | .sweepRollover => "accumulator::sweep_rollover"
  | .sweepCompensation => "accumulator::sweep_compensation"

/-- A plan of one call. -/
def TxPlan.single (transferLast : Bool) (target : String) (typeArguments : List String)
    (args : List PlanArg) : TxPlan where
  calls := [{ target, typeArguments, args }]
  transferLast := transferLast

/-- The plan of a crank. -/
def buildCrank (crank : CrankKind) (targetId : String) (ctx : BuildCtx) :
    Except BuildError TxPlan := do
  let target := ctx.t (crankTarget crank)
  -- an empty tag counts as absent
  let ty := ((ctx.asset.bind AssetCtx.tokenType).filter (· ≠ "")).toList
  match crank with
  | .sweepRollover =>
    let acc ← ctx.accId
    return .single false target ty [.shared acc true]
  | .sweepCompensation =>
    let acc ← ctx.accId
    return .single false target ty [.shared acc true, .clock]
  | .abortFailedRaise =>
    let asset ← ctx.assetId
    let pool ← ctx.poolId
    return .single false target [] [.shared asset true, .shared pool true, ctx.config, .clock]
  | .resolveDispute =>
    let token ← ctx.tokenTypeOf
    let dispute ← need (ctx.disputeId.or (some targetId)) "dispute id"
    let pool ← ctx.poolId
    let asset ← ctx.assetId
    let acc ← ctx.accId
    return .single false target [token]
      [.shared dispute true, .shared pool true, .shared asset true, .shared acc true, ctx.config,
        .clock]
  | .flagDefault =>
    let asset ← ctx.assetId
    let pool ← ctx.poolId
    return .single false target [] [.shared asset true, .shared pool true, ctx.config, .clock]

/-- The calls an intent compiles to. -/
def buildPlan (intent : TxIntent) (ctx : BuildCtx) : Except BuildError TxPlan :=
  match intent with
  | .contribute amount => do
    let asset ← ctx.assetId
    return .single true (ctx.t "asset::contribute_capital") []
      [.shared asset true, ctx.config, .clock, .coin .usdc (mathRound (amount * micro))]
  | .refund => do
    let asset ← ctx.assetId
    let receipt ← ctx.receiptId
    return .single true (ctx.t "asset::refund_contribution") []
      [.shared asset true, ctx.config, .owned receipt]
  | .claimShares => do
    let token ← ctx.tokenTypeOf
    let asset ← ctx.assetId
    let acc ← ctx.accId
    let receipt ← ctx.receiptId
    return .single true (ctx.t "asset::claim_shares") [token]
      [.shared asset false, .shared acc false, ctx.config, .owned receipt, .clock]
  | .claimRewards => do
    let token ← ctx.tokenTypeOf
    let acc ← ctx.accId
    let share ← ctx.shareId
    return .single true (ctx.t "accumulator::claim_rewards") [token]
      [.shared acc true, .owned share]
  | .wrap _ => do
    let token ← ctx.tokenTypeOf
    let acc ← ctx.accId
    let share ← ctx.shareId
    return .single true (ctx.t "accumulator::wrap_shares") [token]
      [.shared acc true, ctx.config, .owned share, .clock]
  | .unwrap amount => do
    let token ← ctx.tokenTypeOf
    let acc ← ctx.accId
    return .single true (ctx.t "accumulator::unwrap_coins") [token]
      [.shared acc true, .coin .t (mathRound (amount * micro)), .clock]
  | .split amount => do
    let share ← ctx.shareId
    return .single true (ctx.t "share::split_share") []
      [.owned share, .u64 (mathRound (amount * micro))]
  | .raiseDispute poolId bond reason evidenceBlobId evidenceSha256 => do
    let evidence : MoveCallPlan :=
      { target := ctx.t "asset::new_walrus_ref"
        typeArguments := []
        args := [.bytes (evidenceBlobId.getD "") false, .bytes (evidenceSha256.getD "") true] }
    let token ← ctx.tokenTypeOf
    let asset ← ctx.assetId
    let acc ← ctx.accId
    let dispute : MoveCallPlan :=
      { target := ctx.t "dispute::initialize_dispute"
        typeArguments := [token]
        args := [.shared asset true, .shared poolId true, .shared acc false, ctx.config,
          .coin .usdc (mathRound (bond * micro)), .result 0,
          .bytes (reason.getD "Challenged via explorer") false, .clock] }
    return { calls := [evidence, dispute], transferLast := false }
  | .crank crank targetId => buildCrank crank targetId ctx

end Gally.Explorer

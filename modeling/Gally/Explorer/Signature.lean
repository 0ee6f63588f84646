import Gally.Explorer.Ptb
import Mathlib.Algebra.Order.Round

/-!
# Signatures of the package and the typing of plans

The public functions of `gally_core` that investors, holders and challengers call,
with the permissionless cranks, as their Move signatures: type parameters, value
parameters in order and results. A plan is well typed when `planToTransaction` turns
it into a transaction the chain accepts: every argument is of the kind its parameter
asks for, a whole result is used only where the call returns one value, and no value
that cannot be dropped is left over.
-/

namespace Gally.Explorer

/-- The Move types of parameters and results. -/
inductive MoveType where
  | asset | validatorPool | protocolConfig | dispute | clock
  | accumulator (token : String)
  | gallyShare | contributionReceipt | walrusRef
  | coinUsdc
  | coin (token : String)
  | u64 | bytes
  deriving DecidableEq, Repr

/-- Types with the `drop` ability. -/
def MoveType.droppable : MoveType → Bool
  | .walrusRef | .u64 | .bytes => true
  | _ => false

/-- Types with `key` and `store`, which `transferObjects` accepts. -/
def MoveType.transferable : MoveType → Bool
  | .gallyShare | .coinUsdc | .coin _ => true
  | _ => false

/-- `&T`, `&mut T` or `T`. -/
inductive Passing where
  | ref | mutRef | value
  deriving DecidableEq, Repr

structure Param where
  passing : Passing
  type : MoveType
  deriving DecidableEq, Repr

abbrev ref (type : MoveType) : Param := { passing := .ref, type }

abbrev mutRef (type : MoveType) : Param := { passing := .mutRef, type }

abbrev value (type : MoveType) : Param := { passing := .value, type }

structure Signature where
  params : List Param
  results : List MoveType

/-- A function with no type parameter, or with the token `T` as the only one. -/
inductive Generic where
  | mono (signature : Signature)
  | poly (signature : String → Signature)

/-- The signature at the given type arguments, if their number is right. -/
def Generic.inst : Generic → List String → Option Signature
  | .mono signature, [] => some signature
  | .poly signature, [token] => some (signature token)
  | _, _ => none

/-- Public functions, without the `TxContext` parameter. -/
def gallyCore : List (String × Generic) :=
  [ ("asset::new_walrus_ref", .mono ⟨[value .bytes, value .bytes], [.walrusRef]⟩),
    ("asset::cancel_unvouched_timeout",
      .mono ⟨[mutRef .asset, ref .protocolConfig, ref .clock], []⟩),
    ("asset::contribute_capital",
      .mono ⟨[mutRef .asset, ref .protocolConfig, ref .clock, value .coinUsdc], [.coinUsdc]⟩),
    ("asset::abort_failed_raise",
      .mono ⟨[mutRef .asset, mutRef .validatorPool, ref .protocolConfig, ref .clock], []⟩),
    ("asset::refund_contribution",
      .mono ⟨[mutRef .asset, ref .protocolConfig, value .contributionReceipt], [.coinUsdc]⟩),
    ("asset::claim_shares", .poly fun t =>
      ⟨[ref .asset, ref (.accumulator t), ref .protocolConfig, value .contributionReceipt,
        ref .clock], [.gallyShare]⟩),
    ("asset::release_vouch_coverage", .mono ⟨[mutRef .asset, mutRef .validatorPool], []⟩),
    ("asset::flag_default", .poly fun t =>
      ⟨[mutRef .asset, mutRef (.accumulator t), ref .protocolConfig, ref .clock], []⟩),
    ("asset::deposit_revenue", .poly fun t =>
      ⟨[ref .asset, mutRef (.accumulator t), ref .protocolConfig, value .coinUsdc], []⟩),
    ("asset::close_at_return_target", .poly fun t =>
      ⟨[mutRef .asset, mutRef (.accumulator t), ref .protocolConfig], []⟩),
    ("asset::close_after_compensation", .poly fun t =>
      ⟨[mutRef .asset, mutRef (.accumulator t), ref .protocolConfig, ref .clock], []⟩),
    ("accumulator::claim_rewards", .poly fun t =>
      ⟨[mutRef (.accumulator t), mutRef .gallyShare], [.coinUsdc]⟩),
    ("accumulator::sweep_rollover", .poly fun t => ⟨[mutRef (.accumulator t)], []⟩),
    ("accumulator::sweep_compensation", .poly fun t =>
      ⟨[mutRef (.accumulator t), ref .clock], []⟩),
    ("accumulator::wrap_shares", .poly fun t =>
      ⟨[mutRef (.accumulator t), ref .protocolConfig, value .gallyShare, ref .clock],
        [.coin t, .coinUsdc]⟩),
    ("accumulator::unwrap_coins", .poly fun t =>
      ⟨[mutRef (.accumulator t), value (.coin t), ref .clock], [.gallyShare]⟩),
    ("accumulator::merge_shares", .poly fun t =>
      ⟨[mutRef (.accumulator t), mutRef .gallyShare, value .gallyShare], [.coinUsdc]⟩),
    ("accumulator::redeem_share", .poly fun t =>
      ⟨[mutRef (.accumulator t), value .gallyShare], [.coinUsdc]⟩),
    ("share::split_share", .mono ⟨[mutRef .gallyShare, value .u64], [.gallyShare]⟩),
    ("dispute::initialize_dispute", .poly fun t =>
      ⟨[mutRef .asset, mutRef .validatorPool, ref (.accumulator t), ref .protocolConfig,
        value .coinUsdc, value .walrusRef, value .bytes, ref .clock], []⟩),
    ("dispute::resolve_dispute", .poly fun t =>
      ⟨[mutRef .dispute, mutRef .validatorPool, mutRef .asset, mutRef (.accumulator t),
        ref .protocolConfig, ref .clock], []⟩) ]

/-- The function a fully qualified name stands for. -/
def functionOf (packageId target : String) : Option Generic :=
  (gallyCore.find? fun f => packageId ++ "::" ++ f.1 = target).map Prod.snd

/-! ## Typing -/

inductive Ownership where
  | shared | owned
  deriving DecidableEq, Repr

/-- The objects of the chain that ids name, as the sender sees them. -/
abbrev Objects := String → Option (Ownership × MoveType)

/-- The coin object the coins of a plan are split from. -/
def BuildCtx.coinId (ctx : BuildCtx) : CoinType → Option String
  | .usdc => ctx.owned.bind OwnedRefs.usdcCoinId
  | .t => ctx.owned.bind OwnedRefs.coinTId

def CoinType.matches : CoinType → MoveType → Bool
  | .usdc, .coinUsdc => true
  | .t, .coin _ => true
  | _, _ => false

/-- The argument is of the kind the parameter asks for; `rets` are the results of the
    earlier calls. -/
def PlanArg.fits (ctx : BuildCtx) (env : Objects) (rets : List (List MoveType)) :
    PlanArg → Param → Bool
  | .shared id mutable, p =>
    p.passing ≠ .value && (p.passing = .mutRef → mutable) && env id = some (.shared, p.type)
  | .owned id, p => env id = some (.owned, p.type)
  | .clock, p => p = ref .clock
  | .u64 _, p => p = value .u64
  | .bytes _ _, p => p = value .bytes
  | .coin coinType _, p =>
    p.passing = .value && coinType.matches p.type &&
      (ctx.coinId coinType).all fun id => env id = some (.owned, p.type)
  | .result source, p => p.passing = .value && rets[source]? = some [p.type]

/-- The types a call returns, if it type checks. -/
def MoveCallPlan.results (ctx : BuildCtx) (env : Objects) (rets : List (List MoveType))
    (call : MoveCallPlan) : Option (List MoveType) := do
  let function ← functionOf ctx.packageId call.target
  let signature ← function.inst call.typeArguments
  guard (call.args.length = signature.params.length ∧
    (call.args.zip signature.params).all fun (a, p) => a.fits ctx env rets p)
  return signature.results

/-- The types the calls of a plan return, in order. -/
def TxPlan.results (ctx : BuildCtx) (env : Objects) (plan : TxPlan) :
    Option (List (List MoveType)) :=
  plan.calls.foldlM (fun rets call => (call.results ctx env rets).map fun tys => rets ++ [tys]) []

/-- Every call type checks, the last result is one transferable value where it is
    transferred, and what cannot be dropped is transferred or used by a call. -/
def TxPlan.WellTyped (ctx : BuildCtx) (env : Objects) (plan : TxPlan) : Prop :=
  ∃ rets, plan.results ctx env = some rets ∧
    (plan.transferLast = true → ∃ ty, rets.getLast? = some [ty] ∧ ty.transferable = true) ∧
    ∀ i tys, rets[i]? = some tys →
      tys.all MoveType.droppable = true ∨
      (plan.transferLast = true ∧ i + 1 = rets.length) ∨
      ∃ call ∈ plan.calls, .result i ∈ call.args

/-! ## Units -/

/-- The raw units an argument hands over by its own value. -/
def PlanArg.amount : PlanArg → Option ℤ
  | .u64 v => some v
  | .coin _ v => some v
  | _ => none

/-- The raw units of a deed that is handed over whole. -/
def PlanArg.deedUnits (shareCount : String → ℤ) : PlanArg → Option ℤ
  | .owned id => some (shareCount id)
  | _ => none

/-- The raw units the last call of a plan moves: the amount it names, or else the whole
    deed. -/
def TxPlan.units (shareCount : String → ℤ) (plan : TxPlan) : Option ℤ :=
  plan.calls.getLast?.bind fun call =>
    (call.args.findSome? PlanArg.amount).or (call.args.findSome? (PlanArg.deedUnits shareCount))

/-- The raw units an intent asks to move. -/
def TxIntent.units : TxIntent → Option ℤ
  | .contribute amount | .wrap amount | .unwrap amount | .split amount =>
    some (round (amount * 10 ^ 6))
  | _ => none

end Gally.Explorer

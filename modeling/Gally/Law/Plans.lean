import Gally.Explorer.Signature

/-!
# Transaction plans against the Move signatures

Each intent's plan is checked against the signature of the function it names. The
plans that fail are those of `wrap`, which transfers the two results of
`wrap_shares` as one, of `flag_default`, whose target does not exist, and of the two
sweeps when the token type is unresolved, which lose their type argument.

## Key results

- `TxPlan.wellTyped_single`: a plan of one call is typed by that call
- `plan_faithful_iff`: which intents and contexts build a faithful plan
-/

namespace Gally

open Checked Explorer

/-- The intent sweeps an accumulator and names no asset. -/
def Explorer.TxIntent.isSweep : TxIntent → Bool
  | .crank .sweepRollover _ | .crank .sweepCompensation _ => true
  | _ => false

/-- The subject an intent carries itself is an object of its kind. -/
def Explorer.TxIntent.NamesSubject (ctx : BuildCtx) (env : Objects) : TxIntent → Prop
  | .raiseDispute poolId _ _ _ _ => env poolId = some (.shared, .validatorPool)
  | .crank .resolveDispute targetId =>
    ctx.disputeId = none → env targetId = some (.shared, .dispute)
  | _ => True

/-- The references of a context and an intent name objects of their kinds, as far as
    they are filled in. -/
structure Explorer.BuildCtx.Names (ctx : BuildCtx) (env : Objects) (intent : TxIntent) :
    Prop where
  config : env ctx.configId = some (.shared, .protocolConfig)
  asset : intent.isSweep = false →
    ∀ a ∈ ctx.asset, env a.assetId = some (.shared, .asset)
  accumulator : ∀ a ∈ ctx.asset, ∀ id ∈ a.accumulatorId,
    ∃ token, env id = some (.shared, .accumulator token) ∧ ∀ t ∈ a.tokenType, t = token
  pool : ∀ a ∈ ctx.asset, ∀ id ∈ a.validatorPoolId, env id = some (.shared, .validatorPool)
  dispute : ∀ id ∈ ctx.disputeId, env id = some (.shared, .dispute)
  receipt : ∀ o ∈ ctx.owned, ∀ id ∈ o.receiptId, env id = some (.owned, .contributionReceipt)
  share : ∀ o ∈ ctx.owned, ∀ id ∈ o.shareId, env id = some (.owned, .gallyShare)
  coinT : ∀ a ∈ ctx.asset, ∀ token ∈ a.tokenType, ∀ o ∈ ctx.owned, ∀ id ∈ o.coinTId,
    env id = some (.owned, .coin token)
  usdcCoin : ∀ o ∈ ctx.owned, ∀ id ∈ o.usdcCoinId, env id = some (.owned, .coinUsdc)
  subject : intent.NamesSubject ctx env

/-- Every plan the intent compiles to is well typed and moves the units it asks for. -/
def BuildsFaithfully (intent : TxIntent) (ctx : BuildCtx) (env : Objects)
    (shareCount : String → ℤ) : Prop :=
  ∀ plan, buildPlan intent ctx = .ok plan →
    plan.WellTyped ctx env ∧ ∀ n, intent.units = some n → plan.units shareCount = some n

/-- The variant is transcribed right, or a reference it needs is unresolved. -/
def Explorer.TxIntent.Transcribed (ctx : BuildCtx) : TxIntent → Prop
  | .wrap _ =>
    ctx.asset.bind AssetCtx.tokenType = none ∨ ctx.asset.bind AssetCtx.accumulatorId = none ∨
      ctx.owned.bind OwnedRefs.shareId = none
  | .crank .flagDefault _ => ctx.asset.bind AssetCtx.validatorPoolId = none
  | .crank .sweepRollover _ | .crank .sweepCompensation _ =>
    ctx.asset.bind AssetCtx.accumulatorId = none ∨
      ∃ token, token ≠ "" ∧ ctx.asset.bind AssetCtx.tokenType = some token
  | _ => True

/-! ## Typing rules -/

section Rules

variable {ctx : BuildCtx} {env : Objects}

/-- A name under the package is looked up without it. -/
theorem functionOf_t (m : String) :
    functionOf ctx.packageId (ctx.t m) = (gallyCore.find? (·.1 = m)).map Prod.snd := by
  have hsame : ∀ f : String × Generic,
      (ctx.packageId ++ "::" ++ f.1 = ctx.packageId ++ "::" ++ m) ↔ f.1 = m := by
    intro f
    rw [String.append_right_inj]
  simp only [functionOf, BuildCtx.t, hsame]

section Fits

variable {rets : List (List MoveType)} {id : String} {ty : MoveType}

/-- A shared object that is there may be read whether it was passed mutably or not. -/
@[simp] theorem fits_ref {mutable : Bool} :
    (PlanArg.shared id mutable).fits ctx env rets (ref ty) = true ↔
      env id = some (.shared, ty) := by
  simp [PlanArg.fits]

/-- A mutable reference needs a shared object passed mutably. -/
@[simp] theorem fits_mutRef :
    (PlanArg.shared id true).fits ctx env rets (mutRef ty) = true ↔
      env id = some (.shared, ty) := by
  simp [PlanArg.fits]

@[simp] theorem fits_config :
    ctx.config.fits ctx env rets (ref ty) = true ↔ env ctx.configId = some (.shared, ty) :=
  fits_ref

@[simp] theorem fits_owned_mutRef :
    (PlanArg.owned id).fits ctx env rets (mutRef ty) = true ↔ env id = some (.owned, ty) := by
  simp [PlanArg.fits]

@[simp] theorem fits_owned_value :
    (PlanArg.owned id).fits ctx env rets (value ty) = true ↔ env id = some (.owned, ty) := by
  simp [PlanArg.fits]

@[simp] theorem fits_clock : PlanArg.clock.fits ctx env rets (ref .clock) = true := rfl

@[simp] theorem fits_u64 {v : ℤ} : (PlanArg.u64 v).fits ctx env rets (value .u64) = true := rfl

@[simp] theorem fits_bytes {v : String} {hex : Bool} :
    (PlanArg.bytes v hex).fits ctx env rets (value .bytes) = true := rfl

/-- A USDC coin is split from the wallet's, which has to be one. -/
@[simp] theorem fits_usdc {v : ℤ} :
    (PlanArg.coin .usdc v).fits ctx env rets (value .coinUsdc) = true ↔
      ∀ id, ctx.coinId .usdc = some id → env id = some (.owned, .coinUsdc) := by
  simp [PlanArg.fits, CoinType.matches, Option.all_eq_true]

/-- A token coin is split from the wallet's, which has to be one of that token. -/
@[simp] theorem fits_coinT {v : ℤ} {token : String} :
    (PlanArg.coin .t v).fits ctx env rets (value (.coin token)) = true ↔
      ∀ id, ctx.coinId .t = some id → env id = some (.owned, .coin token) := by
  simp [PlanArg.fits, CoinType.matches, Option.all_eq_true]

@[simp] theorem fits_result {source : ℕ} :
    (PlanArg.result source).fits ctx env rets (value ty) = true ↔ rets[source]? = some [ty] := by
  simp [PlanArg.fits]

end Fits

/-- A call of a known function type checks when its arguments fit the parameters. -/
theorem MoveCallPlan.results_eq_some {m : String} {function : Generic}
    {typeArguments : List String} {args : List PlanArg} {rets : List (List MoveType)}
    {tys : List MoveType} (hm : gallyCore.find? (·.1 = m) = some (m, function)) :
    MoveCallPlan.results ctx env rets { target := ctx.t m, typeArguments, args } = some tys ↔
      ∃ signature, function.inst typeArguments = some signature ∧
        args.length = signature.params.length ∧
        (∀ x ∈ args.zip signature.params, x.1.fits ctx env rets x.2 = true) ∧
        signature.results = tys := by
  simp [MoveCallPlan.results, functionOf_t, hm, Option.bind_eq_some_iff, and_assoc]

/-- The typing of a plan of one call that uses no result. -/
theorem TxPlan.wellTyped_single {transferLast : Bool} {target : String}
    {typeArguments : List String} {args : List PlanArg} (hargs : .result 0 ∉ args) :
    (TxPlan.single transferLast target typeArguments args).WellTyped ctx env ↔
      ∃ tys, MoveCallPlan.results ctx env [] { target, typeArguments, args } = some tys ∧
        if transferLast then ∃ ty, tys = [ty] ∧ ty.transferable = true
        else tys.all MoveType.droppable = true := by
  -- the plan is one call, so it has one list of results
  have hresults : (TxPlan.single transferLast target typeArguments args).results ctx env =
      (MoveCallPlan.results ctx env [] { target, typeArguments, args }).map fun tys => [tys] := by
    simp [TxPlan.results, TxPlan.single]
  rw [TxPlan.WellTyped, hresults]
  constructor
  · rintro ⟨rets, hrets, hlast, hleft⟩
    obtain ⟨tys, htys, rfl⟩ := Option.map_eq_some_iff.mp hrets
    refine ⟨tys, htys, ?_⟩
    cases transferLast with
    | true => simpa using hlast rfl
    | false => simpa [TxPlan.single, hargs] using hleft 0 tys rfl
  · rintro ⟨tys, htys, hlast⟩
    -- what is left over after the call is its result, transferred or dropped
    refine ⟨[tys], by rw [htys]; rfl, ?_, ?_⟩
    · intro htransfer
      change transferLast = true at htransfer
      subst htransfer
      simpa using hlast
    · intro i tys' hi
      obtain ⟨rfl, rfl⟩ : i = 0 ∧ tys' = tys := by
        cases i with
        | zero => exact ⟨rfl, (Option.some.inj hi).symm⟩
        | succ i => simp at hi
      cases transferLast with
      | true => exact .inr (.inl ⟨rfl, rfl⟩)
      | false => exact .inl hlast

end Rules

/-! ## References -/

section Names

variable {ctx : BuildCtx} {env : Objects} {intent : TxIntent}

namespace Explorer.BuildCtx.Names

/-- The asset of the context is a shared asset, for every intent but a sweep. -/
theorem assetId (hn : ctx.Names env intent) (hsweep : intent.isSweep = false) {id : String}
    (h : ctx.assetId = .ok id) : env id = some (.shared, .asset) := by
  simp only [BuildCtx.assetId, need_eq_ok, Option.map_eq_some_iff] at h
  obtain ⟨a, ha, rfl⟩ := h
  exact hn.asset hsweep a ha

/-- The accumulator of the context is the one of the token it names. -/
theorem accId (hn : ctx.Names env intent) {id token : String} (h : ctx.accId = .ok id)
    (ht : ctx.asset.bind AssetCtx.tokenType = some token) :
    env id = some (.shared, .accumulator token) := by
  simp only [BuildCtx.accId, need_eq_ok, Option.bind_eq_some_iff] at h ht
  obtain ⟨a, ha, hid⟩ := h
  obtain ⟨a', ha', htoken⟩ := ht
  obtain rfl : a = a' := Option.some.inj (ha.symm.trans ha')
  obtain ⟨t, henv, heq⟩ := hn.accumulator a ha id hid
  rw [henv, heq token htoken]

/-- The pool of the context is a shared pool. -/
theorem poolId (hn : ctx.Names env intent) {id : String} (h : ctx.poolId = .ok id) :
    env id = some (.shared, .validatorPool) := by
  simp only [BuildCtx.poolId, need_eq_ok, Option.bind_eq_some_iff] at h
  obtain ⟨a, ha, hid⟩ := h
  exact hn.pool a ha id hid

/-- The receipt of the context is the wallet's. -/
theorem receiptId (hn : ctx.Names env intent) {id : String} (h : ctx.receiptId = .ok id) :
    env id = some (.owned, .contributionReceipt) := by
  simp only [BuildCtx.receiptId, need_eq_ok, Option.bind_eq_some_iff] at h
  obtain ⟨o, ho, hid⟩ := h
  exact hn.receipt o ho id hid

/-- The deed of the context is the wallet's. -/
theorem shareId (hn : ctx.Names env intent) {id : String} (h : ctx.shareId = .ok id) :
    env id = some (.owned, .gallyShare) := by
  simp only [BuildCtx.shareId, need_eq_ok, Option.bind_eq_some_iff] at h
  obtain ⟨o, ho, hid⟩ := h
  exact hn.share o ho id hid

/-- The coin that USDC are split from is one of USDC. -/
theorem usdcSource (hn : ctx.Names env intent) {id : String} (h : ctx.coinId .usdc = some id) :
    env id = some (.owned, .coinUsdc) := by
  simp only [BuildCtx.coinId, Option.bind_eq_some_iff] at h
  obtain ⟨o, ho, hid⟩ := h
  exact hn.usdcCoin o ho id hid

/-- The coin that tokens are split from is one of the token. -/
theorem coinSource (hn : ctx.Names env intent) {id token : String}
    (h : ctx.coinId .t = some id) (ht : ctx.asset.bind AssetCtx.tokenType = some token) :
    env id = some (.owned, .coin token) := by
  simp only [BuildCtx.coinId, Option.bind_eq_some_iff] at h ht
  obtain ⟨o, ho, hid⟩ := h
  obtain ⟨a, ha, htoken⟩ := ht
  exact hn.coinT a ha token htoken o ho id hid

end Explorer.BuildCtx.Names

end Names

/-! ## Each intent -/

section Intents

variable {ctx : BuildCtx} {env : Objects} {shareCount : String → ℤ}

/-- Both roundings of the source agree on an amount in millionths. -/
theorem round_eq_mathRound (x : ℚ) : round (x * 10 ^ 6) = mathRound (x * micro) := by
  rw [round_eq, mathRound, micro]
  norm_num

/-- A plan of one call is well typed when the call is and its result is taken care of. -/
theorem wellTyped_call {m : String} {function : Generic} {signature : Signature}
    {transferLast : Bool} {typeArguments : List String} {args : List PlanArg}
    (hm : gallyCore.find? (·.1 = m) = some (m, function))
    (hinst : function.inst typeArguments = some signature)
    (hlen : args.length = signature.params.length)
    (hlast : if transferLast then ∃ ty, signature.results = [ty] ∧ ty.transferable = true
      else signature.results.all MoveType.droppable = true)
    (hfits : ∀ x ∈ args.zip signature.params, x.1.fits ctx env [] x.2 = true) :
    (TxPlan.single transferLast (ctx.t m) typeArguments args).WellTyped ctx env := by
  -- none of these calls takes a result, as nothing comes before it
  have hargs : .result 0 ∉ args := by
    intro hmem
    obtain ⟨i, hi, hget⟩ := List.getElem_of_mem hmem
    have hzip : (PlanArg.result 0, signature.params.get ⟨i, hlen ▸ hi⟩) ∈
        args.zip signature.params := by
      rw [List.mem_iff_getElem]
      exact ⟨i, by simp [hi, hlen ▸ hi], by simp [hget]⟩
    have hfit := hfits _ hzip
    simp [PlanArg.fits] at hfit
  rw [TxPlan.wellTyped_single hargs]
  exact ⟨signature.results,
    (MoveCallPlan.results_eq_some hm).mpr ⟨signature, hinst, hlen, hfits, rfl⟩, hlast⟩

/-- An intent that names no amount only has to be well typed. -/
theorem BuildsFaithfully.of_wellTyped {intent : TxIntent} (hunits : intent.units = none)
    (h : ∀ plan, buildPlan intent ctx = .ok plan → plan.WellTyped ctx env) :
    BuildsFaithfully intent ctx env shareCount := by
  intro plan hplan
  refine ⟨h plan hplan, fun n hn => ?_⟩
  rw [hunits] at hn
  cases hn

/-- The plan of a contribution is faithful in every context. -/
theorem contribute_faithful {amount : ℚ} (hn : ctx.Names env (.contribute amount)) :
    BuildsFaithfully (.contribute amount) ctx env shareCount := by
  intro plan hplan
  simp only [buildPlan, seq_eq_ok, return_eq_ok] at hplan
  obtain ⟨asset, hasset, rfl⟩ := hplan
  constructor
  · refine wellTyped_call rfl rfl rfl ⟨.coinUsdc, rfl, rfl⟩ ?_
    simp [hn.config, hn.assetId rfl hasset]
    exact fun _ => hn.usdcSource
  -- the amount of the plan is the coin's, rounded to millionths
  · intro n hn
    rw [← hn]
    simp [TxPlan.single, TxPlan.units, TxIntent.units, PlanArg.amount, round_eq_mathRound,
      BuildCtx.config, List.findSome?]

/-- The plan of an unwrap is faithful in every context. -/
theorem unwrap_faithful {amount : ℚ} (hn : ctx.Names env (.unwrap amount)) :
    BuildsFaithfully (.unwrap amount) ctx env shareCount := by
  intro plan hplan
  simp only [buildPlan, seq_eq_ok, return_eq_ok] at hplan
  obtain ⟨token, htoken, acc, hacc, rfl⟩ := hplan
  rw [BuildCtx.tokenTypeOf, need_eq_ok] at htoken
  constructor
  · refine wellTyped_call rfl rfl rfl ⟨.gallyShare, rfl, rfl⟩ ?_
    simp [hn.accId hacc htoken]
    exact fun _ hid => hn.coinSource hid htoken
  · intro n hn
    rw [← hn]
    simp [TxPlan.single, TxPlan.units, TxIntent.units, PlanArg.amount, round_eq_mathRound,
      List.findSome?]

/-- The plan of a split is faithful in every context. -/
theorem split_faithful {amount : ℚ} (hn : ctx.Names env (.split amount)) :
    BuildsFaithfully (.split amount) ctx env shareCount := by
  intro plan hplan
  simp only [buildPlan, seq_eq_ok, return_eq_ok] at hplan
  obtain ⟨share, hshare, rfl⟩ := hplan
  constructor
  · refine wellTyped_call rfl rfl rfl ⟨.gallyShare, rfl, rfl⟩ ?_
    simp [hn.shareId hshare]
  · intro n hn
    rw [← hn]
    simp [TxPlan.single, TxPlan.units, TxIntent.units, PlanArg.amount, round_eq_mathRound,
      List.findSome?]

/-- The plan of a refund is faithful in every context. -/
theorem refund_faithful (hn : ctx.Names env .refund) :
    BuildsFaithfully .refund ctx env shareCount := by
  refine .of_wellTyped rfl fun plan hplan => ?_
  simp only [buildPlan, seq_eq_ok, return_eq_ok] at hplan
  obtain ⟨asset, hasset, receipt, hreceipt, rfl⟩ := hplan
  refine wellTyped_call rfl rfl rfl ⟨.coinUsdc, rfl, rfl⟩ ?_
  simp [hn.config, hn.assetId rfl hasset, hn.receiptId hreceipt]

/-- The plan that claims shares is faithful in every context. -/
theorem claimShares_faithful (hn : ctx.Names env .claimShares) :
    BuildsFaithfully .claimShares ctx env shareCount := by
  refine .of_wellTyped rfl fun plan hplan => ?_
  simp only [buildPlan, seq_eq_ok, return_eq_ok] at hplan
  obtain ⟨token, htoken, asset, hasset, acc, hacc, receipt, hreceipt, rfl⟩ := hplan
  rw [BuildCtx.tokenTypeOf, need_eq_ok] at htoken
  refine wellTyped_call rfl rfl rfl ⟨.gallyShare, rfl, rfl⟩ ?_
  simp [hn.config, hn.assetId rfl hasset, hn.accId hacc htoken, hn.receiptId hreceipt]

/-- The plan that claims rewards is faithful in every context. -/
theorem claimRewards_faithful (hn : ctx.Names env .claimRewards) :
    BuildsFaithfully .claimRewards ctx env shareCount := by
  refine .of_wellTyped rfl fun plan hplan => ?_
  simp only [buildPlan, seq_eq_ok, return_eq_ok] at hplan
  obtain ⟨token, htoken, acc, hacc, share, hshare, rfl⟩ := hplan
  rw [BuildCtx.tokenTypeOf, need_eq_ok] at htoken
  refine wellTyped_call rfl rfl rfl ⟨.coinUsdc, rfl, rfl⟩ ?_
  simp [hn.accId hacc htoken, hn.shareId hshare]

/-- The plan that raises a dispute is faithful in every context. -/
theorem raiseDispute_faithful {poolId : String} {bond : ℚ}
    {reason evidenceBlobId evidenceSha256 : Option String}
    (hn : ctx.Names env (.raiseDispute poolId bond reason evidenceBlobId evidenceSha256)) :
    BuildsFaithfully (.raiseDispute poolId bond reason evidenceBlobId evidenceSha256) ctx env
      shareCount := by
  refine .of_wellTyped rfl fun plan hplan => ?_
  simp only [buildPlan, seq_eq_ok, return_eq_ok] at hplan
  obtain ⟨token, htoken, asset, hasset, acc, hacc, rfl⟩ := hplan
  rw [BuildCtx.tokenTypeOf, need_eq_ok] at htoken
  -- the dispute takes the `WalrusRef` of the first call, and returns nothing
  have hevidence : MoveCallPlan.results ctx env []
      { target := ctx.t "asset::new_walrus_ref", typeArguments := [],
        args := [.bytes (evidenceBlobId.getD "") false, .bytes (evidenceSha256.getD "") true] } =
      some [.walrusRef] :=
    (MoveCallPlan.results_eq_some rfl).mpr ⟨_, rfl, rfl, by simp, rfl⟩
  have hdispute : MoveCallPlan.results ctx env [[.walrusRef]]
      { target := ctx.t "dispute::initialize_dispute", typeArguments := [token],
        args := [.shared asset true, .shared poolId true, .shared acc false, ctx.config,
          .coin .usdc (mathRound (bond * micro)), .result 0,
          .bytes (reason.getD "Challenged via explorer") false, .clock] } = some [] := by
    refine (MoveCallPlan.results_eq_some rfl).mpr ⟨_, rfl, rfl, ?_, rfl⟩
    have hpool : env poolId = some (.shared, .validatorPool) := hn.subject
    simp [hn.config, hn.assetId rfl hasset, hn.accId hacc htoken, hpool]
    exact fun _ => hn.usdcSource
  refine ⟨[[.walrusRef], []], ?_, by simp, ?_⟩
  · simp [TxPlan.results, hevidence, hdispute]
  · intro i tys hi
    left
    have hmem : tys = [.walrusRef] ∨ tys = [] := by simpa using List.mem_of_getElem? hi
    rcases hmem with rfl | rfl <;> rfl

/-- The plan that aborts a failed raise is faithful in every context. -/
theorem abortFailedRaise_faithful {targetId : String}
    (hn : ctx.Names env (.crank .abortFailedRaise targetId)) :
    BuildsFaithfully (.crank .abortFailedRaise targetId) ctx env shareCount := by
  refine .of_wellTyped rfl fun plan hplan => ?_
  simp only [buildPlan, buildCrank, seq_eq_ok, return_eq_ok] at hplan
  obtain ⟨asset, hasset, pool, hpool, rfl⟩ := hplan
  refine wellTyped_call rfl rfl rfl rfl ?_
  simp [hn.config, hn.assetId rfl hasset, hn.poolId hpool]

/-- The plan that resolves a dispute is faithful in every context. -/
theorem resolveDispute_faithful {targetId : String}
    (hn : ctx.Names env (.crank .resolveDispute targetId)) :
    BuildsFaithfully (.crank .resolveDispute targetId) ctx env shareCount := by
  refine .of_wellTyped rfl fun plan hplan => ?_
  simp only [buildPlan, buildCrank, seq_eq_ok, return_eq_ok, need_eq_ok] at hplan
  obtain ⟨token, htoken, dispute, hdispute, pool, hpool, asset, hasset, acc, hacc, rfl⟩ := hplan
  rw [BuildCtx.tokenTypeOf, need_eq_ok] at htoken
  -- the dispute is the context's, or else the target of the crank
  have hobject : env dispute = some (.shared, .dispute) := by
    cases hid : ctx.disputeId with
    | none =>
      rw [hid] at hdispute
      rw [← Option.some.inj hdispute]
      exact hn.subject hid
    | some id =>
      rw [hid] at hdispute
      rw [← Option.some.inj hdispute]
      exact hn.dispute id hid
  refine wellTyped_call rfl rfl rfl rfl ?_
  simp [hn.config, hn.assetId rfl hasset, hn.poolId hpool, hn.accId hacc htoken, hobject]

/-! ## The variants that fail -/

/-- `wrap_shares` returns two values, which no plan of one call transfers. -/
theorem wrap_faithful_iff {amount : ℚ} :
    BuildsFaithfully (.wrap amount) ctx env shareCount ↔
      (TxIntent.wrap amount).Transcribed ctx := by
  constructor
  -- in a context that has all it takes, the plan passes four arguments where the contract takes
  -- three
  · intro h
    by_contra hall
    simp only [TxIntent.Transcribed, not_or, ← ne_eq, Option.ne_none_iff_exists'] at hall
    obtain ⟨⟨token, htoken⟩, ⟨acc, hacc⟩, share, hshare⟩ := hall
    have hbuild : buildPlan (.wrap amount) ctx =
        .ok (.single true (ctx.t "accumulator::wrap_shares") [token]
          [.shared acc true, ctx.config, .owned share, .clock]) := by
      simp only [buildPlan, BuildCtx.tokenTypeOf, BuildCtx.accId, BuildCtx.shareId, seq_eq_ok,
        need_eq_ok, return_eq_ok]
      exact ⟨token, htoken, acc, hacc, share, hshare, rfl⟩
    have hwell := (h _ hbuild).1
    -- the call of the plan would have a signature that its arguments do not match
    rw [TxPlan.wellTyped_single (by simp [BuildCtx.config])] at hwell
    obtain ⟨tys, htys, ty, rfl, -⟩ := hwell
    obtain ⟨signature, hinst, -, -, hresults⟩ := (MoveCallPlan.results_eq_some rfl).mp htys
    obtain rfl := Option.some.inj hinst
    simp at hresults
  · intro hmissing plan hplan
    simp only [buildPlan, BuildCtx.tokenTypeOf, BuildCtx.accId, BuildCtx.shareId, seq_eq_ok,
      need_eq_ok] at hplan
    obtain ⟨token, htoken, acc, hacc, share, hshare, -⟩ := hplan
    simp [TxIntent.Transcribed, htoken, hacc, hshare] at hmissing

/-- The package has no `asset::check_default`. -/
theorem flagDefault_faithful_iff {targetId : String} :
    BuildsFaithfully (.crank .flagDefault targetId) ctx env shareCount ↔
      (TxIntent.crank .flagDefault targetId).Transcribed ctx := by
  constructor
  · intro h
    -- in a context with a pool, the plan calls a function that the contract does not have
    by_contra hpool
    simp only [TxIntent.Transcribed, ← ne_eq, Option.ne_none_iff_exists'] at hpool
    obtain ⟨pool, hpool⟩ := hpool
    obtain ⟨a, ha, -⟩ := Option.bind_eq_some_iff.mp hpool
    have hbuild : buildPlan (.crank .flagDefault targetId) ctx =
        .ok (.single false (ctx.t "asset::check_default") []
          [.shared a.assetId true, .shared pool true, ctx.config, .clock]) := by
      simp only [buildPlan, buildCrank, BuildCtx.assetId, BuildCtx.poolId, seq_eq_ok, need_eq_ok,
        return_eq_ok]
      exact ⟨a.assetId, by rw [ha]; rfl, pool, hpool, rfl⟩
    have hwell := (h _ hbuild).1
    rw [TxPlan.wellTyped_single (by simp [BuildCtx.config])] at hwell
    obtain ⟨tys, htys, -⟩ := hwell
    have hnone : gallyCore.find? (·.1 = "asset::check_default") = none := rfl
    simp [MoveCallPlan.results, functionOf_t, hnone] at htys
  · intro hmissing plan hplan
    simp only [buildPlan, buildCrank, BuildCtx.poolId, seq_eq_ok, need_eq_ok] at hplan
    obtain ⟨asset, -, pool, hpool, -⟩ := hplan
    simp [TxIntent.Transcribed, hpool] at hmissing

/-- The type arguments of a sweep. -/
theorem sweep_typeArguments {tokenType : Option String} {token : String} :
    (tokenType.filter (· ≠ "")).toList = [token] ↔ token ≠ "" ∧ tokenType = some token := by
  rw [Option.toList_eq_singleton_iff, Option.filter_eq_some_iff, decide_eq_true_iff]
  exact and_comm

/-- A sweep is faithful when its token is resolved, since its function takes one. -/
theorem sweep_faithful_iff {intent : TxIntent} (m : String) (args : String → List PlanArg)
    {signature : String → Signature} (hunits : intent.units = none)
    (hm : gallyCore.find? (·.1 = m) = some (m, .poly signature))
    (hbuild : ∀ plan, buildPlan intent ctx = .ok plan ↔
      ∃ acc, ctx.accId = .ok acc ∧ TxPlan.single false (ctx.t m)
        ((ctx.asset.bind AssetCtx.tokenType).filter (· ≠ "")).toList (args acc) = plan)
    (hargs : ∀ acc token, ctx.accId = .ok acc → ctx.asset.bind AssetCtx.tokenType = some token →
      (args acc).length = (signature token).params.length ∧
      (∀ x ∈ (args acc).zip (signature token).params, x.1.fits ctx env [] x.2 = true) ∧
      (signature token).results = [])
    (hresult : ∀ acc, .result 0 ∉ args acc) :
    BuildsFaithfully intent ctx env shareCount ↔
      ctx.asset.bind AssetCtx.accumulatorId = none ∨
        ∃ token, token ≠ "" ∧ ctx.asset.bind AssetCtx.tokenType = some token := by
  constructor
  · intro h
    -- without an accumulator no plan is built; with one, the plan is right exactly when it has the
    -- type argument
    cases hacc : ctx.asset.bind AssetCtx.accumulatorId with
    | none => exact .inl rfl
    | some acc =>
      have hwell := (h _ ((hbuild _).mpr ⟨acc, need_eq_ok.mpr hacc, rfl⟩)).1
      rw [TxPlan.wellTyped_single (hresult acc)] at hwell
      obtain ⟨tys, htys, -⟩ := hwell
      obtain ⟨s, hinst, -⟩ := (MoveCallPlan.results_eq_some hm).mp htys
      cases hlist : ((ctx.asset.bind AssetCtx.tokenType).filter (· ≠ "")).toList with
      | nil =>
        rw [hlist] at hinst
        cases hinst
      | cons token rest =>
        cases rest with
        | nil => exact .inr ⟨token, sweep_typeArguments.mp hlist⟩
        | cons _ _ =>
          rw [hlist] at hinst
          cases hinst
  · intro h
    refine .of_wellTyped hunits fun plan hplan => ?_
    obtain ⟨acc, hacc, rfl⟩ := (hbuild plan).mp hplan
    -- where a plan is built there is an accumulator, so the token is named
    rcases h with hnone | ⟨token, hne, htoken⟩
    · rw [BuildCtx.accId, need_eq_ok, hnone] at hacc
      cases hacc
    · obtain ⟨hlen, hfits, hresults⟩ := hargs acc token hacc htoken
      rw [sweep_typeArguments.mpr ⟨hne, htoken⟩]
      exact wellTyped_call hm rfl hlen (by simp [hresults]) hfits

/-- The plan that sweeps a rollover is faithful exactly when its type argument is there. -/
theorem sweepRollover_faithful_iff {targetId : String}
    (hn : ctx.Names env (.crank .sweepRollover targetId)) :
    BuildsFaithfully (.crank .sweepRollover targetId) ctx env shareCount ↔
      (TxIntent.crank .sweepRollover targetId).Transcribed ctx := by
  refine sweep_faithful_iff "accumulator::sweep_rollover" (fun acc => [.shared acc true])
    rfl rfl ?_ ?_ (by simp)
  · intro plan
    simp only [buildPlan, buildCrank, seq_eq_ok, return_eq_ok, crankTarget]
  · intro acc token hacc htoken
    refine ⟨rfl, ?_, rfl⟩
    simp [hn.accId hacc htoken]

/-- The plan that sweeps a compensation pool is faithful exactly when its type argument is there. -/
theorem sweepCompensation_faithful_iff {targetId : String}
    (hn : ctx.Names env (.crank .sweepCompensation targetId)) :
    BuildsFaithfully (.crank .sweepCompensation targetId) ctx env shareCount ↔
      (TxIntent.crank .sweepCompensation targetId).Transcribed ctx := by
  refine sweep_faithful_iff "accumulator::sweep_compensation"
    (fun acc => [.shared acc true, .clock]) rfl rfl ?_ ?_ (by simp)
  · intro plan
    simp only [buildPlan, buildCrank, seq_eq_ok, return_eq_ok, crankTarget]
  · intro acc token hacc htoken
    refine ⟨rfl, ?_, rfl⟩
    simp [hn.accId hacc htoken]

/-- A plan is well typed and moves the units asked for, for every intent and every
    context, exactly when its variant is transcribed right. -/
theorem plan_faithful_iff {intent : TxIntent} (hn : ctx.Names env intent) :
    BuildsFaithfully intent ctx env shareCount ↔ intent.Transcribed ctx := by
  cases intent with
  | contribute amount => exact iff_of_true (contribute_faithful hn) trivial
  | claimShares => exact iff_of_true (claimShares_faithful hn) trivial
  | refund => exact iff_of_true (refund_faithful hn) trivial
  | claimRewards => exact iff_of_true (claimRewards_faithful hn) trivial
  | wrap amount => exact wrap_faithful_iff
  | unwrap amount => exact iff_of_true (unwrap_faithful hn) trivial
  | split amount => exact iff_of_true (split_faithful hn) trivial
  | raiseDispute => exact iff_of_true (raiseDispute_faithful hn) trivial
  | crank crank targetId =>
    cases crank with
    | resolveDispute => exact iff_of_true (resolveDispute_faithful hn) trivial
    | flagDefault => exact flagDefault_faithful_iff
    | abortFailedRaise => exact iff_of_true (abortFailedRaise_faithful hn) trivial
    | sweepRollover => exact sweepRollover_faithful_iff hn
    | sweepCompensation => exact sweepCompensation_faithful_iff hn

end Intents

/-! ## A fully resolved context -/

namespace Demo

/-- Every reference of the demo asset. -/
def ctx : BuildCtx where
  packageId := "0xPKG"
  configId := "0xCFG"
  asset := some { assetId := "0xA", accumulatorId := some "0xACC", validatorPoolId := some "0xPOOL",
                  tokenType := some "0xPKG::tok::TOK" }
  owned := some { receiptId := some "0xRCPT", shareId := some "0xSHARE", coinTId := some "0xCOINT",
                  usdcCoinId := some "0xUSDC" }
  disputeId := some "0xDISP"

/-- The objects those references name. -/
def env : Objects
  | "0xCFG" => some (.shared, .protocolConfig)
  | "0xA" => some (.shared, .asset)
  | "0xACC" => some (.shared, .accumulator "0xPKG::tok::TOK")
  | "0xPOOL" => some (.shared, .validatorPool)
  | "0xDISP" => some (.shared, .dispute)
  | "0xRCPT" => some (.owned, .contributionReceipt)
  | "0xSHARE" => some (.owned, .gallyShare)
  | "0xCOINT" => some (.owned, .coin "0xPKG::tok::TOK")
  | "0xUSDC" => some (.owned, .coinUsdc)
  | _ => none

/-- The context of the demonstration names the objects of its environment. -/
theorem names {intent : TxIntent} (hsubject : intent.NamesSubject ctx env) :
    ctx.Names env intent := by
  constructor
  case subject => exact hsubject
  all_goals simp [ctx, env]

end Demo

/-- Flagging a default calls a function the package does not have. -/
theorem plan_flag_default_undefined :
    ¬ ∀ (intent : TxIntent) (ctx : BuildCtx) (env : Objects) (shareCount : String → ℤ),
      ctx.Names env intent → BuildsFaithfully intent ctx env shareCount := by
  intro h
  have hflag := h (.crank .flagDefault "0xA") Demo.ctx Demo.env (fun _ => 0) (Demo.names trivial)
  have htranscribed := flagDefault_faithful_iff.mp hflag
  simp [TxIntent.Transcribed, Demo.ctx] at htranscribed

/-- The same for the split of 25 units. -/
theorem plan_faithful_iff_split :
    BuildsFaithfully (.split 25) Demo.ctx Demo.env (fun _ => 100000000) ↔
      (TxIntent.split 25).Transcribed Demo.ctx :=
  plan_faithful_iff (Demo.names trivial)

end Gally

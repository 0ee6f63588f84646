import Gally.Chain.Coverage
import Gally.Law.Yield

/-!
# Every vouch is backed

What a pool has locked is the coverage of the assets it vouches for, and its stake is at
least that. So no release and no slash ever finds too little, and a verdict about one asset
leaves the stake behind the others alone.

## Key results

- `coverage_backed`: in every reachable state, for every pool
-/

namespace Gally

open Checked

/-! ## Releases and slashes find what they take -/

section Avoids

variable {asset : Asset} {pool : ValidatorPool} {config : ProtocolConfig} {now : ℕ}

/-- Coverage that is locked can be released. -/
theorem releaseCoverage_avoids {amount : ℕ} (h : amount ≤ pool.locked) :
    Avoids (releaseCoverage pool amount) eInsufficientFreeStake := by
  simp only [releaseCoverage, sub, avoids_seq, avoids_ensure, avoids_guarded, avoids_return]
  simp [h, eInsufficientFreeStake]

/-- A stake that is there can be slashed. -/
theorem slash_avoids {amount : ℕ} {d : Option ID} (h : amount ≤ pool.stake) :
    Avoids (slash pool amount d) eInsufficientFreeStake := by
  simp only [slash, setStatus, takeOut, avoids_seq, avoids_ensure, avoids_return]
  simp [h, eInsufficientFreeStake, eValidatorNotFrozen]

/-- An abort releases no more than the pool has locked. -/
theorem abortFailedRaise_avoids
    (h : asset.validatorPoolId = some pool.id → asset.coverageLocked ≤ pool.locked) :
    Avoids (abortFailedRaise asset pool config now) eInsufficientFreeStake := by
  have hver : eVersionMismatch ≠ eInsufficientFreeStake := by decide
  have hstate : eWrongState ≠ eInsufficientFreeStake := by decide
  have hdeadline : eDeadlineNotReached ≠ eInsufficientFreeStake := by decide
  have hgoal : eGoalAlreadyMet ≠ eInsufficientFreeStake := by decide
  have hpool : eNotVouchingValidator ≠ eInsufficientFreeStake := by decide
  simp only [abortFailedRaise, assertVersion, assertState, assertVouchingPool, setState,
    avoids_seq, avoids_ensure, avoids_return, ensure_eq_ok, hver, hstate, hdeadline, hgoal, hpool,
    false_implies, true_and, implies_true, and_true]
  intro _ _ _ _ _ _ _ _ _ hvouch
  exact releaseCoverage_avoids (h hvouch)

/-- A release of coverage takes no more than the pool has locked. -/
theorem releaseVouchCoverage_avoids
    (h : asset.validatorPoolId = some pool.id → asset.coverageLocked ≤ pool.locked) :
    Avoids (releaseVouchCoverage asset pool) eInsufficientFreeStake := by
  have hstate : eWrongState ≠ eInsufficientFreeStake := by decide
  have hpool : eNotVouchingValidator ≠ eInsufficientFreeStake := by decide
  have hzero : eZeroAmount ≠ eInsufficientFreeStake := by decide
  simp only [releaseVouchCoverage, assertVouchingPool, avoids_seq, avoids_ensure, avoids_return,
    ensure_eq_ok, hstate, hpool, hzero, false_implies, true_and, implies_true, and_true]
  intro _ _ _ hvouch _ _
  exact releaseCoverage_avoids (h hvouch)

variable {dispute : Dispute} {acc : GlobalYieldAccumulator}

/-- An expired dispute takes no stake. -/
theorem expire_avoids : Avoids (expire dispute pool asset acc) eInsufficientFreeStake := by
  simp only [expire, unfreezePool, setStatus, avoids_seq, avoids_ensure, avoids_return]
  simp [eInsufficientFreeStake, eValidatorNotFrozen]

/-- An upheld dispute slashes no more than the stake. -/
theorem uphold_avoids (h : asset.coverageLocked ≤ pool.stake) :
    Avoids (uphold dispute pool asset acc config now) eInsufficientFreeStake := by
  have hslash : ∀ d, Avoids (slash pool asset.coverageLocked d) eInsufficientFreeStake :=
    fun d => slash_avoids h
  simp only [uphold, seizeOrKeep, seizeIntoCompensation, addToCompensationPool, assertState, mulBps,
    cast64, takeOut, add64, setState, avoids_seq, avoids_ite, avoids_ensure, avoids_guarded,
    avoids_return, hslash]
  simp [eInsufficientFreeStake, eWrongState]

/-- A rejected dispute takes no stake. -/
theorem reject_avoids {votes : ℕ} :
    Avoids (reject dispute pool asset acc votes) eInsufficientFreeStake := by
  simp only [reject, unfreezePool, setStatus, restituteStake, takeOut, add64, div, avoids_seq,
    avoids_ensure, avoids_guarded, avoids_return]
  simp [eInsufficientFreeStake, eValidatorNotFrozen]

/-- A resolution finds the coverage if it is about this asset and this pool. -/
theorem resolveDispute_avoids
    (h : pool.id = dispute.targetPoolId → asset.id = dispute.assetId →
      asset.coverageLocked ≤ pool.stake) :
    Avoids (resolveDispute dispute pool asset acc config now) eInsufficientFreeStake := by
  have hver : eVersionMismatch ≠ eInsufficientFreeStake := by decide
  have hvote : eVotingClosed ≠ eInsufficientFreeStake := by decide
  have hopen : eVotingOpen ≠ eInsufficientFreeStake := by decide
  have hobj : eWrongDisputeObjects ≠ eInsufficientFreeStake := by decide
  have hadd : Abort.arithmetic ≠ eInsufficientFreeStake := by decide
  simp only [resolveDispute, assertVersion, add64, avoids_seq, avoids_ite, avoids_ensure,
    avoids_guarded, avoids_return, expire_avoids, reject_avoids, ensure_eq_ok, hver, hvote, hopen,
    hobj, hadd, false_implies, true_and, implies_true, and_true]
  intro _ _ _ _ _ _ _ hpool _ hasset _ _ _ _ _ _
  exact uphold_avoids (h hpool hasset)

end Avoids

/-- The calls that release or slash coverage. -/
def Call.settlesCoverage : Call → Bool
  | .asset (.abortFailedRaise ..) => true
  | .asset (.releaseVouchCoverage ..) => true
  | .dispute (.resolveDispute ..) => true
  | _ => false

/-- The coverage of the asset of a dispute is locked in the pool the dispute targets. -/
theorem World.Covered.disputed_le {w : World} (hc : w.Covered) {d : ID} {dispute : Dispute}
    (hdispute : w.disputes.get? d = some dispute) {p a : ID} {pool : ValidatorPool} {asset : Asset}
    (hpool : w.pools.get? p = some pool) (hasset : w.assets.get? a = some asset)
    (htarget : pool.id = dispute.targetPoolId) (ha : asset.id = dispute.assetId) :
    asset.coverageLocked ≤ pool.locked := by
  obtain ⟨x, hx, hvouch⟩ := hc.disputes dispute (Store.mem_of_get? hdispute)
  have hself : w.assets.get? dispute.assetId = some asset :=
    ha ▸ Store.get?_key (Store.mem_of_get? hasset)
  obtain rfl := Option.some.inj (hx.symm.trans hself)
  exact hc.coverage_le hasset hpool (htarget ▸ hvouch)

/-- No release and no slash finds too little stake. -/
theorem Reachable.settles_avoids {w : World} (hw : Reachable w) {c : Call}
    (h : c.settlesCoverage = true) (sender : Address) :
    Avoids (w.call sender c) eInsufficientFreeStake := by
  have hc := hw.covered
  have hno : Abort.noObject ≠ eInsufficientFreeStake := by decide
  -- three calls, each of which settles at most what is locked for the asset
  unfold Call.settlesCoverage at h
  split at h
  · simp only [World.call, World.assetCall, shared, avoids_seq, avoids_ofOption, avoids_return,
      ofOption_eq_ok, hno, false_implies, true_and, implies_true, and_true]
    intro asset hasset pool hpool
    exact abortFailedRaise_avoids (hc.coverage_le hasset hpool)
  · simp only [World.call, World.assetCall, shared, avoids_seq, avoids_ofOption, avoids_return,
      ofOption_eq_ok, hno, false_implies, true_and, implies_true, and_true]
    intro asset hasset pool hpool
    exact releaseVouchCoverage_avoids (hc.coverage_le hasset hpool)
  · simp only [World.call, World.disputeCall, shared, avoids_seq, avoids_ofOption, avoids_return,
      ofOption_eq_ok, hno, false_implies, true_and, implies_true, and_true]
    intro dispute hdispute pool hpool asset hasset acc _
    refine resolveDispute_avoids fun htarget ha => ?_
    have hstake := (hc.backs pool (Store.mem_of_get? hpool)).stake
    exact Nat.le_trans (hc.disputed_le hdispute hpool hasset htarget ha) hstake
  · simp at h

/-! ## The law -/

/-- A verdict about asset `a` with pool `p` takes from the stake what backs `a` and nothing
    else: other assets and pools are as before, and the pool still backs everything. -/
structure World.TakesOnly (w w' : World) (a p : ID) : Prop where
  assets : ∀ b, b ≠ a → w'.assets.get? b = w.assets.get? b
  pools : ∀ q, q ≠ p → w'.pools.get? q = w.pools.get? q
  pool : ∃ asset asset' pool pool', w.assets.get? a = some asset ∧
    w'.assets.get? a = some asset' ∧ w.pools.get? p = some pool ∧ w'.pools.get? p = some pool' ∧
    pool'.locked + asset.coverageLocked = pool.locked + asset'.coverageLocked ∧
    pool.stake ≤ pool'.stake + asset.coverageLocked ∧
    w'.assets.sum (Asset.coverageIn p) ≤ pool'.stake

/-- A verdict takes from its own pool only, and the coverage of its own asset. -/
theorem Reachable.verdict_takesOnly {w w' : World} (hw : Reachable w) {sender : Address}
    {d p a g : ID} (h : w.call sender (.dispute (.resolveDispute d p a g)) = .ok w') :
    w.TakesOnly w' a p := by
  have hcovered := (hw.call h).covered
  cases World.callDispute_eq_ok.mp h with
  | @resolveDispute _ _ _ _ dispute pool asset acc v hdispute hpool hasset hacc guards decides =>
    have hkeeps := decides.keeps
    have ha : v.asset.id = a := hkeeps.assetId.trans (Store.key_of_get? hasset)
    have hp : v.pool.id = p := hkeeps.poolId.trans (Store.key_of_get? hpool)
    have hpool' := Store.get?_replace v.pool hpool hkeeps.poolId
    have hbacks := hcovered.backs v.pool (Store.mem_of_get? hpool')
    have hvouch := hw.covered.accused hdispute hasset guards
    -- the verdict is a step of the one vouch it is about
    have hstep := World.Covered.verdict hw.covered hasset hpool hvouch decides
    refine ⟨fun b hb => ?_, fun q hq => ?_, asset, v.asset, pool, v.pool, hasset,
      Store.get?_replace v.asset hasset hkeeps.assetId, hpool, hpool', hstep.locked, ?_, ?_⟩
    · exact Store.get?_put_ne fun hk => hb (hk.symm.trans ha)
    · exact Store.get?_put_ne fun hk => hq (hk.symm.trans hp)
    · cases decides with
      | expired => exact Nat.le_add_right _ _
      | rejected =>
        simp only [rejectedVerdict]
        omega
      | upheld =>
        simp only [upheldVerdict, ValidatorPool.slashed]
        omega
    · have hlocked := hbacks.locked
      rw [hp] at hlocked
      exact hlocked ▸ hbacks.stake

/-- In every reachable state every pool has locked exactly the coverage of the assets it
    vouches for, and holds it. No release or slash finds too little, the coverage a verdict
    slashes is locked in full, and it is all that a verdict takes. -/
theorem coverage_backed {w : World} (hw : Reachable w) :
    (∀ p pool, w.pools.get? p = some pool →
      pool.locked = w.assets.sum (Asset.coverageIn p) ∧ pool.locked ≤ pool.stake) ∧
    (∀ c : Call, c.settlesCoverage = true → ∀ sender,
      w.call sender c ≠ .error eInsufficientFreeStake) ∧
    (∀ d dispute, w.disputes.get? d = some dispute → ∀ pool asset,
      w.pools.get? dispute.targetPoolId = some pool →
      w.assets.get? dispute.assetId = some asset → asset.coverageLocked ≤ pool.locked) ∧
    ∀ sender d p a g w', w.call sender (.dispute (.resolveDispute d p a g)) = .ok w' →
      w.TakesOnly w' a p := by
  refine ⟨fun p pool hpool => ?_, fun c hc sender => hw.settles_avoids hc sender,
    fun d dispute hdispute pool asset hpool hasset => ?_,
    fun sender d p a g w' h => hw.verdict_takesOnly h⟩
  · have hbacks := hw.covered.backs pool (Store.mem_of_get? hpool)
    have hp : pool.id = p := Store.key_of_get? hpool
    exact ⟨hp ▸ hbacks.locked, hbacks.stake⟩
  · exact hw.covered.disputed_le hdispute hpool hasset (Store.key_of_get? hpool)
      (Store.key_of_get? hasset)

/-- The vouched project locks a fifth of its goal. -/
theorem coverage_backed_vouched : ∃ w pool,
    (World.genesis 0).run (Sample.vouched 1000000 100000) = .ok w ∧
    w.pools.get? 2 = some pool ∧ pool.locked = 200000 ∧
    w.assets.sum (Asset.coverageIn 2) = 200000 := by
  have hrun : returns ((World.genesis 0).run (Sample.vouched 1000000 100000)) (fun w =>
      (w.pools.get? 2).any fun pool => pool.locked = 200000) = true := by
    decide +kernel
  obtain ⟨w, hw, hq⟩ := returns_iff.mp hrun
  obtain ⟨pool, hpool, hlocked⟩ := (Option.any_eq_true _ _).mp hq
  have hlocked := of_decide_eq_true hlocked
  have hsum := ((coverage_backed ⟨0, _, hw⟩).1 2 pool hpool).1
  exact ⟨w, pool, hw, hpool, hlocked, hsum.symm.trans hlocked⟩

end Gally

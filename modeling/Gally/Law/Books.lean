import Gally.Chain.Path
import Gally.Chain.Touch
import Gally.Chain.Treasury
import Gally.Engine.Slack
import Gally.Law.Yield

/-!
# The books of an accumulator

A book follows one accumulator through everything that happens to the chain: what was passed
to `addRevenue` and to `addToCompensationPool`, what was paid on deeds, what was swept as dust,
and the yield receipts forgo. Every call posts its amounts (`World.posts`): what the function of
the contract returns when it is run on the objects the call finds.

## Key results

- `books_balance`: what came in is in the pools, was paid out or was swept; and the reward pool
  exceeds the entitlements by no more than the dust bound and the forgone yield
-/

namespace Gally

open Checked

/-! ## Postings -/

/-- What happened to one accumulator so far. `forgone` is scaled. -/
structure Book where
  revenue : ℕ
  restitution : ℕ
  paid : ℕ
  swept : ℕ
  forgone : ℕ
  deriving DecidableEq, Repr

/-- The book before anything happened. -/
def Book.blank : Book := ⟨0, 0, 0, 0, 0⟩

/-- The book after a posting. -/
def Book.add (b posting : Book) : Book where
  revenue := b.revenue + posting.revenue
  restitution := b.restitution + posting.restitution
  paid := b.paid + posting.paid
  swept := b.swept + posting.swept
  forgone := b.forgone + posting.forgone

/-- The amount a computation returned; nothing when it aborted. -/
def amountOf (r : Except Abort ℕ) : ℕ := r.toOption.getD 0

/-- The amount of a computation that returns. -/
theorem amountOf_eq {r : Except Abort ℕ} {n : ℕ} (h : r = .ok n) : amountOf r = n := by
  rw [h]
  rfl

/-- What a call passes to `addRevenue` of accumulator `g`: of the payment, what the deposit does
    not send on. -/
def World.revenueTo (w : World) (g : ID) : Call → ℕ
  | .asset (.depositRevenue a k payment) =>
    if k = g then amountOf do
      let asset ← shared w.assets a
      let acc ← shared w.accumulators k
      let (_, transfers, _) ← depositRevenue asset acc w.config payment.val
      return payment.val - (transfers.map Prod.snd).sum
    else 0
  | _ => 0

/-- What a call passes to `addToCompensationPool` of accumulator `g`: what the asset loses to it,
    and of a slash what is not the bounty. -/
def World.restitutionTo (w : World) (g : ID) : Call → ℕ
  | .asset (.flagDefault a k) =>
    if k = g then amountOf do
      let asset ← shared w.assets a
      let acc ← shared w.accumulators k
      let (seized, _, _) ← flagDefault asset acc w.config w.clockMs
      return asset.funds - seized.funds
    else 0
  | .dispute (.resolveDispute d p a k) =>
    if k = g then amountOf do
      let dispute ← shared w.disputes d
      let pool ← shared w.pools p
      let asset ← shared w.assets a
      let acc ← shared w.accumulators k
      let v ← resolveDispute dispute pool asset acc w.config w.clockMs
      return v.slashed - v.bounty + (asset.funds - v.asset.funds)
    else 0
  | _ => 0

/-- The yield that a call of `sender` returns out of the reward pool of accumulator `g`. -/
def World.paidBy (w : World) (sender : Address) (g : ID) : Call → ℕ
  | .accumulator (.claimRewards k s) =>
    if k = g then amountOf do
      let acc ← shared w.accumulators k
      let share ← w.owned sender .share w.shares s
      let (_, _, payout, _) ← claimRewards acc share sender
      return payout
    else 0
  | .accumulator (.wrapShares k s) =>
    if k = g then amountOf do
      let acc ← shared w.accumulators k
      let share ← w.owned sender .share w.shares s
      let (_, _, claimed, _) ← wrapShares acc w.config share w.clockMs sender w.nextId
      return claimed
    else 0
  | .accumulator (.mergeShares k t v) =>
    if k = g then amountOf do
      let acc ← shared w.accumulators k
      let target ← w.owned sender .share w.shares t
      let victim ← w.owned sender .share w.shares v
      let (_, _, claimed, _) ← mergeShares acc target victim sender
      return claimed
    else 0
  | .accumulator (.redeemShare k s) =>
    if k = g then amountOf do
      let acc ← shared w.accumulators k
      let share ← w.owned sender .share w.shares s
      let (_, proceeds, _) ← redeemShare acc share sender
      return proceeds
    else 0
  | _ => 0

/-- The residue that a call returns out of accumulator `g`. -/
def World.sweptBy (w : World) (g : ID) : Call → ℕ
  | .accumulator (.adminSweepDust k) =>
    if k = g then amountOf do
      let acc ← shared w.accumulators k
      let (_, residue, _) ← adminSweepDust acc w.config
      return residue
    else 0
  | _ => 0

/-- What call `c` of `sender`, which leads from `w` to `w'`, posts for accumulator `g`. -/
def World.posts (w w' : World) (sender : Address) (g : ID) (c : Call) : Book :=
  match w.accumulators.get? g, w'.accumulators.get? g with
  | some acc, some acc' =>
    { revenue := w.revenueTo g c
      restitution := w.restitutionTo g c
      paid := w.paidBy sender g c
      swept := w.sweptBy g c
      forgone := (w.engine acc).forgoes (w'.engine acc') }
  | _, _ => .blank

/-- A reachable world, with the book of accumulator `g` that its run wrote. -/
inductive World.Bookkept (g : ID) : World → Book → Prop where
  | genesis (admin : Address) : Bookkept g (World.genesis admin) .blank
  | call {w w' : World} {b : Book} {sender : Address} {c : Call} (init : Bookkept g w b)
      (run : w.call sender c = .ok w') : Bookkept g w' (b.add (w.posts w' sender g c))
  | tick {w : World} {b : Book} {now : U64} (init : Bookkept g w b) (le : w.clockMs ≤ now.val) :
      Bookkept g { w with clockMs := now.val } b

/-- A book is kept of reachable worlds. -/
theorem World.Bookkept.reachable {g : ID} {w : World} {b : Book} (h : w.Bookkept g b) :
    Reachable w := by
  induction h with
  | genesis admin => exact ⟨admin, [], World.run_nil _⟩
  | call _ run ih => exact ih.call run
  | tick _ le ih => exact ih.tick le

/-- Every reachable world has a book for every accumulator. -/
theorem Reachable.bookkept {w : World} (hw : Reachable w) (g : ID) : ∃ b, w.Bookkept g b :=
  hw.induct (P := fun w => ∃ b, w.Bookkept g b) (fun admin => ⟨_, .genesis admin⟩)
    (fun _ ⟨_, hb⟩ h => ⟨_, hb.call h⟩) fun _ ⟨_, hb⟩ le => ⟨_, hb.tick le⟩

/-! ## The money of one call -/

/-- The pools and the lifetime revenue of `acc` changed by what call `c` posts. -/
structure World.Accounts (w : World) (sender : Address) (g : ID) (c : Call)
    (acc acc' : GlobalYieldAccumulator) : Prop where
  money : acc'.funds + w.paidBy sender g c + w.sweptBy g c =
    acc.funds + w.revenueTo g c + w.restitutionTo g c
  lifetime : acc'.lifetimeInvestorRevenue = acc.lifetimeInvestorRevenue + w.revenueTo g c

/-- A call that posts nothing leaves the pools alone. -/
theorem World.Accounts.still {w : World} {sender : Address} {g : ID} {c : Call}
    {acc acc' : GlobalYieldAccumulator} (hfunds : acc'.funds = acc.funds)
    (hlifetime : acc'.lifetimeInvestorRevenue = acc.lifetimeInvestorRevenue)
    (hrevenue : w.revenueTo g c = 0) (hrestitution : w.restitutionTo g c = 0)
    (hpaid : w.paidBy sender g c = 0) (hswept : w.sweptBy g c = 0) :
    w.Accounts sender g c acc acc' where
  money := by omega
  lifetime := by omega

/-- Routing leaves the lifetime revenue as it is. -/
theorem Routed.lifetime {acc acc' : GlobalYieldAccumulator} {funds : ℕ}
    (h : Routed acc funds acc') : acc'.lifetimeInvestorRevenue = acc.lifetimeInvestorRevenue := by
  rcases h with ⟨-, -, rfl⟩ | ⟨-, -, rfl⟩ <;> rfl

/-- An automatic sweep leaves the lifetime revenue as it is. -/
theorem AutoSwept.lifetime {acc acc' : GlobalYieldAccumulator} {events : List Event}
    (h : AutoSwept acc acc' events) :
    acc'.lifetimeInvestorRevenue = acc.lifetimeInvestorRevenue := by
  rcases h with ⟨-, h⟩ | ⟨-, rfl, -⟩
  · obtain ⟨-, rfl, -⟩ := sweepRolloverInternal_eq_ok.mp h
    rfl
  · rfl

namespace World

variable {w w' : World} {sender : Address} {g : ID} {x x' : GlobalYieldAccumulator}

/-- One accumulator was replaced. -/
theorem accounts_put {c : Call} {k : ID} {acc : GlobalYieldAccumulator}
    (acc' : GlobalYieldAccumulator) (hacc : w.accumulators.get? k = some acc)
    (hid : acc'.id = acc.id)
    (hx : w.accumulators.get? g = some x) (hx' : (w.accumulators.put acc').get? g = some x')
    (hself : k = g → w.Accounts sender g c acc acc')
    (hother : k ≠ g → w.revenueTo g c = 0 ∧ w.restitutionTo g c = 0 ∧ w.paidBy sender g c = 0 ∧
      w.sweptBy g c = 0) : w.Accounts sender g c x x' := by
  rcases Store.get?_replaced hacc hid hx hx' with ⟨hk, rfl, rfl⟩ | ⟨hk, rfl⟩
  · exact hself hk
  · obtain ⟨hrevenue, hrestitution, hpaid, hswept⟩ := hother hk
    exact .still rfl rfl hrevenue hrestitution hpaid hswept

/-- The asset module's calls account for what they move. -/
theorem asset_accounts (hf : w.Fresh) {c : AssetCall} (h : AssetStep w sender c w')
    (hx : w.accumulators.get? g = some x) (hx' : w'.accumulators.get? g = some x') :
    w.Accounts sender g (.asset c) x x' := by
  have hsame : w'.accumulators = w.accumulators → w.revenueTo g (.asset c) = 0 →
      w.restitutionTo g (.asset c) = 0 → w.Accounts sender g (.asset c) x x' := by
    intro heq hrevenue hrestitution
    rw [heq, hx] at hx'
    obtain rfl := Option.some.inj hx'
    exact .still rfl rfl hrevenue hrestitution rfl rfl
  cases h with
  | @finalizeSuccessfulRaise _ _ asset cap =>
    -- the accumulator at hand existed before, so it is not the new one
    have hne : w.nextId ≠ g := by
      rintro rfl
      simp [hf.accumulators.get?_eq_none (Nat.lt_irrefl w.nextId)] at hx
    rw [Store.get?_put_ne (show Keyed.key (asset.newAccumulator cap w.nextId) ≠ g from hne),
      hx] at hx'
    obtain rfl := Option.some.inj hx'
    exact .still rfl rfl rfl rfl rfl rfl
  | @flagDefault a k asset acc t _ hasset hacc guards run =>
    refine accounts_put (acc.compensated _ _) hacc rfl hx hx' (fun hk => ?_)
      fun hk => ⟨rfl, if_neg hk, rfl, rfl⟩
    -- the asset gives up everything it has
    have hto : w.restitutionTo g (.asset (.flagDefault a k)) =
        asset.entityCollateral + asset.escrow := by
      rw [restitutionTo, if_pos hk]
      refine amountOf_eq ?_
      simp only [seq_eq_ok, shared_eq_ok, return_eq_ok, Prod.exists]
      refine ⟨asset, hasset, acc, hacc, _, _, _, run, ?_⟩
      simp only [Asset.funds, Asset.seized]
      omega
    exact {
      money := by
        simp only [hto, paidBy, revenueTo, sweptBy, GlobalYieldAccumulator.funds,
          GlobalYieldAccumulator.compensated]
        omega
      lifetime := rfl }
  | @depositRevenue a k payment asset acc acc' _ hasset hacc _ guards deposited run =>
    refine accounts_put acc' hacc deposited.routed.frame.id hx hx' (fun hk => ?_)
      fun hk => ⟨if_neg hk, rfl, rfl, rfl⟩
    -- only the investors' portion reaches the accumulator
    have hto : w.revenueTo g (.asset (.depositRevenue a k payment)) =
        asset.investorPortion w.config payment.val := by
      rw [revenueTo, if_pos hk]
      refine amountOf_eq ?_
      simp only [seq_eq_ok, shared_eq_ok, return_eq_ok, Prod.exists]
      refine ⟨asset, hasset, acc, hacc, _, _, _, run, ?_⟩
      have hparts := Conserved.deposit_parts guards
      omega
    have hfunds := deposited.routed.funds
    have hcounted : (acc.counted (asset.investorPortion w.config payment.val)).funds = acc.funds :=
      rfl
    exact {
      money := by
        simp only [hto, paidBy, restitutionTo, sweptBy]
        omega
      lifetime := by
        rw [hto, deposited.routed.lifetime]
        rfl }
  | closeAtReturnTarget _ hacc =>
    exact accounts_put (markClosed _) hacc rfl hx hx' (fun _ => .still rfl rfl rfl rfl rfl rfl)
      fun _ => ⟨rfl, rfl, rfl, rfl⟩
  | closeAfterCompensation _ hacc =>
    exact accounts_put (markClosed _) hacc rfl hx hx' (fun _ => .still rfl rfl rfl rfl rfl rfl)
      fun _ => ⟨rfl, rfl, rfl, rfl⟩
  | closeWindDown _ hacc =>
    exact accounts_put (markClosed _) hacc rfl hx hx' (fun _ => .still rfl rfl rfl rfl rfl rfl)
      fun _ => ⟨rfl, rfl, rfl, rfl⟩
  | _ => exact hsame rfl rfl rfl

/-- A call that claims on one deed returns what the claim pays. -/
theorem accounts_claim {c : Call} {k : ID} {acc : GlobalYieldAccumulator}
    (acc' : GlobalYieldAccumulator) {share : GallyShare}
    (hacc : w.accumulators.get? k = some acc) (guards : ClaimGuards acc share)
    (hid : acc'.id = acc.id) (hfunds : acc'.funds = (acc.afterClaim share).funds)
    (hlifetime : acc'.lifetimeInvestorRevenue = acc.lifetimeInvestorRevenue)
    (hpaid : k = g → w.paidBy sender g c = acc.payout share)
    (hother : k ≠ g → w.paidBy sender g c = 0) (hrevenue : w.revenueTo g c = 0)
    (hrestitution : w.restitutionTo g c = 0) (hswept : w.sweptBy g c = 0)
    (hx : w.accumulators.get? g = some x) (hx' : (w.accumulators.put acc').get? g = some x') :
    w.Accounts sender g c x x' := by
  refine accounts_put acc' hacc hid hx hx' (fun hk => ?_) fun hk =>
    ⟨hrevenue, hrestitution, hother hk, hswept⟩
  have hto := hpaid hk
  have hclaim := guards.funds
  exact {
    money := by omega
    lifetime := by omega }

/-- The accumulator's calls account for what they move. -/
theorem accumulator_accounts {c : AccumulatorCall} (h : AccumulatorStep w sender c w')
    (hx : w.accumulators.get? g = some x) (hx' : w'.accumulators.get? g = some x') :
    w.Accounts sender g (.accumulator c) x x' := by
  cases h with
  | @claimRewards _ _ acc share _ hacc own hshare guards run =>
    refine accounts_claim (acc.afterClaim share) hacc guards rfl rfl rfl (fun hk => ?_)
      (fun hk => if_neg hk) rfl rfl rfl hx hx'
    rw [paidBy, if_pos hk]
    refine amountOf_eq ?_
    simp only [seq_eq_ok, shared_eq_ok, owned_eq_ok, return_eq_ok, Prod.exists]
    exact ⟨acc, hacc, share, ⟨own, hshare⟩, _, _, _, _, run, rfl⟩
  | @wrapShares _ _ acc share _ hacc own hshare guards run =>
    refine accounts_claim (acc.afterWrap share) hacc guards.claim rfl rfl rfl (fun hk => ?_)
      (fun hk => if_neg hk) rfl rfl rfl hx hx'
    rw [paidBy, if_pos hk]
    refine amountOf_eq ?_
    simp only [seq_eq_ok, shared_eq_ok, owned_eq_ok, return_eq_ok, Prod.exists]
    exact ⟨acc, hacc, share, ⟨own, hshare⟩, _, _, _, _, run, rfl⟩
  | @redeemShare _ _ acc share _ hacc own hshare guards run =>
    refine accounts_claim (acc.afterRedeem share) hacc guards.claim rfl rfl rfl (fun hk => ?_)
      (fun hk => if_neg hk) rfl rfl rfl hx hx'
    rw [paidBy, if_pos hk]
    refine amountOf_eq ?_
    simp only [seq_eq_ok, shared_eq_ok, owned_eq_ok, return_eq_ok, Prod.exists]
    exact ⟨acc, hacc, share, ⟨own, hshare⟩, _, _, _, run, rfl⟩
  | @mergeShares k t v acc target victim _ hacc own htarget own' hvictim _ guards run =>
    refine accounts_put ((acc.afterClaim target).afterClaim victim) hacc rfl hx hx' (fun hk => ?_)
      fun hk => ⟨rfl, rfl, if_neg hk, rfl⟩
    have hto : w.paidBy sender g (.accumulator (.mergeShares k t v)) =
        acc.payout target + acc.payout victim := by
      rw [paidBy, if_pos hk]
      refine amountOf_eq ?_
      simp only [seq_eq_ok, shared_eq_ok, owned_eq_ok, return_eq_ok, Prod.exists]
      exact ⟨acc, hacc, target, ⟨own, htarget⟩, victim, ⟨own', hvictim⟩, _, _, _, _, run, rfl⟩
    have hclaim := guards.claim.funds
    have hclaim' := guards.claim'.funds
    -- the second claim is made after the first, and pays the same
    have hpayout : (acc.afterClaim target).payout victim = acc.payout victim := rfl
    exact {
      money := by
        simp only [hto, revenueTo, restitutionTo, sweptBy]
        omega
      lifetime := rfl }
  | @sweepRollover _ acc _ hacc =>
    exact accounts_put (acc.drained.afterAdvance acc.rolloverReserve) hacc rfl hx hx'
      (fun _ => .still acc.funds_swept rfl rfl rfl rfl rfl) fun _ => ⟨rfl, rfl, rfl, rfl⟩
  | @sweepCompensation _ acc routed _ hacc _ _ route =>
    -- the pool moves between the balances of the accumulator
    have hfunds : GlobalYieldAccumulator.funds { routed with wrappingFrozen := false } =
        acc.funds := by
      have hrouted := route.funds
      simp only [GlobalYieldAccumulator.funds] at hrouted ⊢
      omega
    exact accounts_put { routed with wrappingFrozen := false } hacc route.frame.id hx hx'
      (fun _ => .still hfunds route.lifetime rfl rfl rfl rfl) fun _ => ⟨rfl, rfl, rfl, rfl⟩
  | @unwrapCoins _ _ acc acc' coin _ _ hacc _ _ _ _ sweep =>
    exact accounts_put acc' hacc sweep.frame.id hx hx'
      (fun _ => .still sweep.funds sweep.lifetime rfl rfl rfl rfl) fun _ => ⟨rfl, rfl, rfl, rfl⟩
  | @adminSweepDust k acc _ _ hacc guards run =>
    refine accounts_put acc.afterDust hacc rfl hx hx' (fun hk => ?_)
      fun hk => ⟨rfl, rfl, rfl, if_neg hk⟩
    have hto : w.sweptBy g (.accumulator (.adminSweepDust k)) = acc.residue := by
      rw [sweptBy, if_pos hk]
      refine amountOf_eq ?_
      simp only [seq_eq_ok, shared_eq_ok, return_eq_ok, Prod.exists]
      exact ⟨acc, hacc, _, _, _, run, rfl⟩
    exact {
      money := by
        simp only [hto, paidBy, revenueTo, restitutionTo, GlobalYieldAccumulator.funds,
          GlobalYieldAccumulator.residue, GlobalYieldAccumulator.afterDust]
        omega
      lifetime := rfl }
  | splitShare =>
    obtain rfl := Option.some.inj (hx.symm.trans hx')
    exact .still rfl rfl rfl rfl rfl rfl

/-- The court's calls account for what they move. -/
theorem dispute_accounts {c : DisputeCall} (h : DisputeStep w sender c w')
    (hx : w.accumulators.get? g = some x) (hx' : w'.accumulators.get? g = some x') :
    w.Accounts sender g (.dispute c) x x' := by
  cases h with
  | @resolveDispute d p a k dispute pool asset acc v hdispute hpool hasset hacc guards decides
      run =>
    refine accounts_put v.acc hacc decides.keeps.accId hx hx' (fun hk => ?_)
      fun hk => ⟨rfl, if_neg hk, rfl, rfl⟩
    have hto : w.restitutionTo g (.dispute (.resolveDispute d p a k)) =
        v.slashed - v.bounty + (asset.funds - v.asset.funds) := by
      rw [restitutionTo, if_pos hk]
      refine amountOf_eq ?_
      simp only [seq_eq_ok, shared_eq_ok, return_eq_ok]
      exact ⟨dispute, hdispute, pool, hpool, asset, hasset, acc, hacc, _, run, rfl⟩
    -- only a guilty verdict slashes, and only it takes money from the asset
    have hnothing : v.slashed = 0 → v.asset.funds = asset.funds →
        w.restitutionTo g (.dispute (.resolveDispute d p a k)) = 0 := by
      intro hslashed hkept
      rw [hto, hslashed, hkept, Nat.zero_sub, Nat.sub_self]
    cases decides with
    | expired => exact .still rfl rfl rfl (hnothing rfl rfl) rfl rfl
    | rejected => exact .still rfl rfl rfl (hnothing rfl rfl) rfl rfl
    | upheld =>
      -- an asset that keeps running keeps its money
      have hseized : asset.funds - asset.upheld.funds = asset.seizable := by
        unfold Asset.upheld Asset.seizable
        split
        · simp only [Asset.funds, Asset.seized]
          omega
        · exact Nat.sub_self _
      have hawards : w.restitutionTo g (.dispute (.resolveDispute d p a k)) =
          asset.coverageLocked - w.config.bounty asset.coverageLocked + asset.seizable := by
        rw [hto, ← hseized]
        rfl
      exact {
        money := by
          simp only [hawards, paidBy, revenueTo, sweptBy, upheldVerdict,
            GlobalYieldAccumulator.funds, GlobalYieldAccumulator.compensated]
          omega
        lifetime := rfl }
  | _ =>
    obtain rfl := Option.some.inj (hx.symm.trans hx')
    exact .still rfl rfl rfl rfl rfl rfl

/-- Every call posts what it does to the money of an accumulator. -/
theorem call_accounts (hf : w.Fresh) {c : Call} (h : w.call sender c = .ok w')
    (hx : w.accumulators.get? g = some x) (hx' : w'.accumulators.get? g = some x') :
    w.Accounts sender g c x x' := by
  cases c with
  | asset c => exact asset_accounts hf (World.assetCall_eq_ok.mp h) hx hx'
  | accumulator c => exact accumulator_accounts (World.accumulatorCall_eq_ok.mp h) hx hx'
  | dispute c => exact dispute_accounts (World.disputeCall_eq_ok.mp h) hx hx'
  | protocol c =>
    obtain ⟨-, _, _, -, rfl⟩ := World.protocolCall_eq_ok.mp h
    obtain rfl := Option.some.inj (hx.symm.trans hx')
    exact .still rfl rfl rfl rfl rfl rfl
  | validator c =>
    cases World.validatorCall_eq_ok.mp h <;>
    · obtain rfl := Option.some.inj (hx.symm.trans hx')
      exact .still rfl rfl rfl rfl rfl rfl
  | framework c =>
    cases World.frameworkCall_eq_ok.mp h <;>
    · obtain rfl := Option.some.inj (hx.symm.trans hx')
      exact .still rfl rfl rfl rfl rfl rfl

end World

/-! ## The slack of one call -/

/-- A step of a sound site keeps the bound on the slack of its engine. -/
theorem Site.Step.slack {s s' : Site} (h : Site.Step s s') (hsound : s.Sound) {e e' : Engine}
    (he : s.engine = some e) (he' : s'.engine = some e') {forgone : ℕ} (hs : e.Slack forgone) :
    e'.Slack (forgone + e.forgoes e') := by
  have hmore : e.Slack (forgone + e.forgoes e') := hs.mono (Nat.le_add_right _ _)
  cases h with
  | finalize guards =>
    -- an asset that is finalized now had no engine before
    have hstage := hsound.engine
    rw [he, guards.state] at hstage
    simp [AssetState.isFinalized] at hstage
  | uphold hengine =>
    obtain rfl := Option.some.inj (hengine.symm.trans he)
    obtain rfl := Option.some.inj he'
    exact hmore
  | default hengine =>
    obtain rfl := Option.some.inj (hengine.symm.trans he)
    obtain rfl := Option.some.inj he'
    exact hmore
  | close hengine =>
    obtain rfl := Option.some.inj (hengine.symm.trans he)
    obtain rfl := Option.some.inj he'
    exact hmore
  | exchange hengine _ run =>
    obtain rfl := Option.some.inj (hengine.symm.trans he)
    obtain rfl := Option.some.inj he'
    exact hs.moves (hsound.tied _ he).balanced (apply_moves run)
  | _ =>
    obtain rfl := Option.some.inj (he.symm.trans he')
    exact hmore

/-- One call adds to what is left over only what it forgoes. -/
theorem Reachable.call_slack {w w' : World} (hw : Reachable w) {sender : Address} {c : Call}
    (h : w.call sender c = .ok w') {g : ID} {x x' : GlobalYieldAccumulator}
    (hx : w.accumulators.get? g = some x) (hx' : w'.accumulators.get? g = some x') {forgone : ℕ}
    (hs : (w.engine x).Slack forgone) :
    (w'.engine x').Slack (forgone + (w.engine x).forgoes (w'.engine x')) := by
  obtain ⟨asset, hasset, hg, hsound, -⟩ := hw.tied hx
  obtain ⟨asset', hasset', hstep⟩ := World.call_sites hw h _ asset hasset
  have he := World.site_engine hg hx
  -- the asset's accumulator is the same before and after
  have hg' : asset'.accumulatorId = some g := by
    obtain ⟨y, hy, htouch⟩ := World.call_touchAcc hw.fresh h g x hx
    obtain rfl := Option.some.inj (hy.symm.trans hx')
    obtain ⟨owner, howner, hg', -⟩ := (hw.call h).tied hx'
    rw [htouch.assetId, hasset'] at howner
    exact Option.some.inj howner ▸ hg'
  have he' := World.site_engine hg' hx'
  -- the site did not change, or it took a step
  rcases hstep with heq | hstep
  · rw [heq, he] at he'
    rw [← Option.some.inj he']
    exact hs.mono (Nat.le_add_right _ _)
  · exact hstep.slack hsound he he' hs

/-! ## The books balance -/

/-- The book agrees with the accumulator. -/
structure Book.Balances (b : Book) (w : World) (acc : GlobalYieldAccumulator) : Prop where
  money : b.revenue + b.restitution = acc.funds + b.paid + b.swept
  lifetime : acc.lifetimeInvestorRevenue = b.revenue
  slack : (w.engine acc).Slack b.forgone

/-- It does at all times, and it is blank before the accumulator exists. -/
theorem World.Bookkept.balances {g : ID} {w : World} {b : Book} (h : w.Bookkept g b) :
    ∀ acc, w.accumulators.get? g = some acc → b.Balances w acc := by
  suffices hall : (w.accumulators.get? g = none → b = .blank) ∧
      ∀ acc, w.accumulators.get? g = some acc → b.Balances w acc from hall.2
  induction h with
  | genesis => exact ⟨fun _ => rfl, fun acc hacc => by simp [World.genesis] at hacc⟩
  | tick _ _ ih => exact ⟨ih.1, fun acc hacc => { ih.2 acc hacc with }⟩
  | @call w w' b sender c init run ih =>
    have hw := init.reachable
    obtain ⟨hblank, hbalances⟩ := ih
    cases hx : w.accumulators.get? g with
    | none =>
      -- the book is still blank, whether the call creates the accumulator or not
      have hstill : b.add (w.posts w' sender g c) = .blank := by
        simp only [hblank hx, World.posts, hx]
        rfl
      rw [hstill]
      refine ⟨fun _ => rfl, fun x' hx' => ?_⟩
      rcases World.call_accumulators hw.fresh run hx' with ⟨x, hx₀, -⟩ | ⟨_, _, _, -, -, rfl⟩
      · simp [hx] at hx₀
      · exact ⟨rfl, rfl, Nat.zero_le _⟩
    | some x =>
      obtain ⟨hmoney, hlifetime, hslack⟩ := hbalances x hx
      obtain ⟨y, hy, -⟩ := World.call_touchAcc hw.fresh run g x hx
      refine ⟨fun hnone => by simp [hnone] at hy, fun x' hx' => ?_⟩
      obtain ⟨hmoney', hlifetime'⟩ := World.call_accounts hw.fresh run hx hx'
      have hposts : w.posts w' sender g c = {
          revenue := w.revenueTo g c
          restitution := w.restitutionTo g c
          paid := w.paidBy sender g c
          swept := w.sweptBy g c
          forgone := (w.engine x).forgoes (w'.engine x') } := by
        simp only [World.posts, hx, hx']
      rw [hposts]
      exact {
        money := by
          simp only [Book.add]
          omega
        lifetime := by
          simp only [Book.add]
          omega
        slack := hw.call_slack run hx hx' hslack }

/-- For every reachable state, with the book its run wrote: all USDC that was passed to an
    accumulator is in its pools, was paid on deeds or was swept as dust; the lifetime revenue is
    the revenue; and the reward pool exceeds the scaled entitlements by at most the dust bound
    and the yield that receipts forwent. -/
theorem books_balance {g : ID} {w : World} {b : Book} (h : w.Bookkept g b)
    {acc : GlobalYieldAccumulator} (hacc : w.accumulators.get? g = some acc) :
    b.revenue + b.restitution =
      acc.rewardPool + acc.rolloverReserve + acc.compensationPool + b.paid + b.swept ∧
    acc.lifetimeInvestorRevenue = b.revenue ∧
    (w.engine acc).owed ≤ acc.rewardPool * scale ∧
    acc.rewardPool * scale - (w.engine acc).owed ≤ acc.dustBound * scale + b.forgone := by
  have hbalances := h.balances acc hacc
  have hsolvent : (w.engine acc).owed ≤ scale * acc.rewardPool :=
    (h.reachable.replay hacc).sound.2.1
  have hslack : scale * acc.rewardPool ≤ (w.engine acc).owed + scale * acc.dustBound + b.forgone :=
    hbalances.slack
  refine ⟨hbalances.money, hbalances.lifetime, ?_, ?_⟩
  · rw [Nat.mul_comm]
    exact hsolvent
  · rw [Nat.mul_comm acc.rewardPool, Nat.mul_comm acc.dustBound]
    omega

/-- The entity deposited 100, of which 49 are for the investors. -/
theorem books_balance_earning : ∃ w b acc, (World.genesis 0).run Sample.earning = .ok w ∧
    w.Bookkept 8 b ∧ w.accumulators.get? 8 = some acc ∧ b.revenue = 49 ∧
    b.revenue + b.restitution = acc.funds + b.paid + b.swept := by
  have hrun : returns ((World.genesis 0).run Sample.earning) (fun w =>
      (w.accumulators.get? 8).any fun acc => acc.lifetimeInvestorRevenue = 49) = true := by
    decide +kernel
  obtain ⟨w, hw, hq⟩ := returns_iff.mp hrun
  obtain ⟨acc, hacc, hq⟩ := (Option.any_eq_true _ _).mp hq
  obtain ⟨b, hb⟩ := Reachable.bookkept ⟨0, _, hw⟩ 8
  obtain ⟨hmoney, hlifetime, -⟩ := books_balance hb hacc
  exact ⟨w, b, acc, hw, hb, hacc, hlifetime.symm.trans (of_decide_eq_true hq), hmoney⟩

end Gally

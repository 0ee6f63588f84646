import Gally.Chain.Links

/-!
# No USDC is created or lost

`World.usdc` is all USDC on the chain: what addresses hold, what assets keep in escrow
and as collateral, the three pools of the accumulators, stakes, bonds and juror rewards.
It is always the supply the issuer minted, so every balance fits in a `u64`.

## Key results

- `Reachable.conserved`: `World.usdc` is the USDC supply
- `Reachable.supply_le`: the supply fits in a `u64`
-/

namespace Gally

open Checked

/-! ## Where the USDC is -/

/-- The USDC of all addresses. -/
def Wallets.funds (ws : Wallets) : ℕ := ws.sum Wallet.value

/-- The USDC of a listing. -/
def Asset.funds (asset : Asset) : ℕ := asset.escrow + asset.entityCollateral

/-- The USDC of an accumulator. -/
def GlobalYieldAccumulator.funds (acc : GlobalYieldAccumulator) : ℕ :=
  acc.rewardPool + acc.rolloverReserve + acc.compensationPool

/-- The USDC of a dispute. -/
def Dispute.funds (dispute : Dispute) : ℕ := dispute.bond + dispute.jurorRewardPool

/-- All USDC on the chain. -/
def World.usdc (w : World) : ℕ :=
  w.wallets.funds + w.assets.sum Asset.funds + w.accumulators.sum GlobalYieldAccumulator.funds +
    w.pools.sum ValidatorPool.stake + w.disputes.sum Dispute.funds

/-- The USDC of all addresses after one balance was set. -/
theorem Wallets.funds_put (ws : Wallets) (a : Address) (v : ℕ) :
    ws.balance a + Wallets.funds (ws.put ⟨a, v⟩) = v + ws.funds := by
  -- a wallet that does not exist holds nothing
  cases h : ws.get? a with
  | none =>
    have hput := Store.sum_put_of_fresh (x := (⟨a, v⟩ : Wallet)) h Wallet.value
    simp only [balance, h, Option.elim_none, Nat.zero_add]
    exact hput
  | some x =>
    have hput := Store.sum_put_of_get? (x := (⟨a, v⟩ : Wallet)) h Wallet.value
    simp only [balance, h, Option.elim_some]
    exact hput

/-- The balance after a wallet was set. -/
theorem Wallets.balance_put (ws : Wallets) (a b : Address) (v : ℕ) :
    Wallets.balance (ws.put ⟨a, v⟩) b = if a = b then v else ws.balance b := by
  simp only [balance, Store.get?_put]
  split
  · next h =>
    rw [if_pos (show a = b from h), Option.elim_some]
  · next h =>
    rw [if_neg (show ¬ a = b from h)]

/-- The balance after a payment to an address. -/
theorem Wallets.balance_credit (ws : Wallets) (a b : Address) (v : ℕ) :
    (ws.credit a v).balance b = if a = b then ws.balance a + v else ws.balance b :=
  ws.balance_put a b _

/-- The balance after a payment by an address. -/
theorem Wallets.balance_spend (ws : Wallets) (a b : Address) (v : ℕ) :
    (ws.spend a v).balance b = if a = b then ws.balance a - v else ws.balance b :=
  ws.balance_put a b _

/-- A credit adds to the funds. -/
@[simp] theorem Wallets.funds_credit (ws : Wallets) (a : Address) (v : ℕ) :
    (ws.credit a v).funds = ws.funds + v := by
  have hput := ws.funds_put a (ws.balance a + v)
  rw [credit]
  omega

/-- What is spent leaves the funds. -/
theorem Wallets.funds_spend {ws : Wallets} {a : Address} {v : ℕ} (h : v ≤ ws.balance a) :
    (ws.spend a v).funds + v = ws.funds := by
  have hput := ws.funds_put a (ws.balance a - v)
  rw [spend]
  omega

/-- Transfers add their amounts to the funds. -/
@[simp] theorem Wallets.funds_pay (ws : Wallets) (ts : Transfers) :
    (ws.pay ts).funds = ws.funds + (ts.map Prod.snd).sum := by
  induction ts generalizing ws with
  | nil => rfl
  | cons t ts ih =>
    have hrest := ih (ws.credit t.1 t.2)
    rw [pay, List.foldl_cons, ← pay, hrest, funds_credit, List.map_cons, List.sum_cons]
    omega

/-! ## Accumulators -/

/-- Routing puts the inflow into one of the pools. -/
theorem Routed.funds {acc acc' : GlobalYieldAccumulator} {v : ℕ} (h : Routed acc v acc') :
    acc'.funds = acc.funds + v := by
  rcases h with ⟨-, -, rfl⟩ | ⟨-, -, rfl⟩
  · simp only [GlobalYieldAccumulator.funds]
    omega
  · simp only [GlobalYieldAccumulator.funds, GlobalYieldAccumulator.afterAdvance]
    omega

/-- A sweep of the reserve moves funds between pools. -/
theorem GlobalYieldAccumulator.funds_swept (acc : GlobalYieldAccumulator) :
    (acc.drained.afterAdvance acc.rolloverReserve).funds = acc.funds := by
  simp only [funds, afterAdvance, drained]
  omega

/-- So does the sweep after an unwrap. -/
theorem AutoSwept.funds {acc acc' : GlobalYieldAccumulator} {events : List Event}
    (h : AutoSwept acc acc' events) : acc'.funds = acc.funds := by
  rcases h with ⟨-, h⟩ | ⟨-, rfl, -⟩
  · obtain ⟨-, rfl, -⟩ := sweepRolloverInternal_eq_ok.mp h
    exact acc.funds_swept
  · rfl

/-- A claim takes its payout out of the pools. -/
theorem ClaimGuards.funds {acc : GlobalYieldAccumulator} {share : GallyShare}
    (h : ClaimGuards acc share) : (acc.afterClaim share).funds + acc.payout share = acc.funds := by
  have hfunded := h.funded
  simp only [GlobalYieldAccumulator.funds, GlobalYieldAccumulator.afterClaim]
  omega

/-- Only an EXECUTING asset gives its escrow and collateral up. -/
theorem Asset.funds_upheld (asset : Asset) :
    asset.upheld.funds + asset.seizable = asset.funds := by
  unfold upheld seizable
  split <;> simp only [funds, seized, setDisputed, clearCoverage] <;> omega

/-- A verdict moves USDC between its four objects and the challenger. -/
theorem Decides.funds {dispute : Dispute} {pool : ValidatorPool} {asset : Asset}
    {acc : GlobalYieldAccumulator} {config : ProtocolConfig} {now : ℕ} {v : Verdict}
    (h : Decides dispute pool asset acc config now v) :
    v.dispute.funds + v.pool.stake + v.asset.funds + v.acc.funds +
      (v.transfers.map Prod.snd).sum =
    dispute.funds + pool.stake + asset.funds + acc.funds := by
  cases h with
  | expired =>
    simp only [expiredVerdict, Dispute.funds, ValidatorPool.withStatus, Asset.funds, setDisputed,
      List.map_cons, List.map_nil, List.sum_cons, List.sum_nil]
    omega
  | rejected =>
    simp only [rejectedVerdict, Dispute.funds, ValidatorPool.withStatus, Asset.funds, setDisputed,
      List.map_nil, List.sum_nil]
    omega
  | upheld _ _ guards =>
    -- the slashed stake is split into the bounty and what is seized
    have hbounty := guards.bounty
    have hstake := guards.stake
    have hasset := asset.funds_upheld
    simp only [upheldVerdict, Dispute.funds, ValidatorPool.slashed, GlobalYieldAccumulator.funds,
      GlobalYieldAccumulator.compensated, List.map_cons, List.map_nil, List.sum_cons,
      List.sum_nil]
    omega

/-! ## Conservation -/

/-- The chain holds the USDC its issuer minted. -/
def World.Conserved (w : World) : Prop := w.usdc = w.usdcSupply

namespace World.Conserved

variable {w w' : World} {sender : Address}

/-- Validator calls conserve the USDC. -/
theorem validatorStep (hc : w.Conserved) (hf : w.Fresh) {c : ValidatorCall}
    (h : ValidatorStep w sender c w') : w'.Conserved := by
  unfold World.Conserved World.usdc at hc ⊢
  cases h with
  | @registerValidator stake name _ funds =>
    have hspend := Wallets.funds_spend funds
    -- the stake moves from the wallet of the sender into the new pool
    have hput := Store.sum_put_of_fresh
      (x := ValidatorPool.registered w.nextId sender name stake.val w.clockMs)
      (hf.pools.get?_eq_none (Nat.lt_irrefl _)) ValidatorPool.stake
    simp only [ValidatorPool.registered] at hput ⊢
    omega
  | @addStake _ deposit pool _ hpool funds =>
    have hspend := Wallets.funds_spend funds
    have hput := Store.sum_replace (pool.withStake (pool.stake + deposit.val)) hpool rfl
      ValidatorPool.stake
    simp only [ValidatorPool.withStake] at hput ⊢
    omega
  | @withdrawStake _ _ amount pool _ _ hpool _ _ guards =>
    have hput := Store.sum_replace (pool.withStake (pool.stake - amount.val)) hpool rfl
      ValidatorPool.stake
    have hle := guards.stake
    simp only [ValidatorPool.withStake, Wallets.funds_credit] at hput ⊢
    omega

/-- A listing conserves the USDC: the collateral moves into the asset. -/
theorem listed (hc : w.Conserved) (hf : w.Fresh) {asset : Asset} {cap : EntityCap}
    {collateral : ℕ} {events : List Event} (funds : collateral ≤ w.wallets.balance sender)
    (h : asset.CreatedBy cap sender collateral w.clockMs w.nextId (w.nextId + 1)) :
    (w.listed sender collateral asset cap events).Conserved := by
  unfold World.Conserved World.usdc at hc ⊢
  have hspend := Wallets.funds_spend funds
  have hput := Store.sum_put_of_fresh (x := asset)
    (show w.assets.get? asset.id = none from h.id ▸ hf.assets.get?_eq_none (Nat.lt_irrefl _))
    Asset.funds
  have hescrow := h.listed.escrow
  have hcollateral := h.listed.collateral
  simp only [World.listed, Asset.funds] at hput ⊢
  omega

/-- The collateral of a closing asset goes to the entity. -/
theorem closing (hc : w.Conserved) {a g : ID} {asset : Asset} {acc : GlobalYieldAccumulator}
    {events : List Event} (hasset : w.assets.get? a = some asset)
    (hacc : w.accumulators.get? g = some acc) : (w.closing asset acc events).Conserved := by
  unfold World.Conserved World.usdc at hc ⊢
  have hput := Store.sum_replace asset.closed hasset rfl Asset.funds
  have hsame := Store.sum_replace (markClosed acc) hacc rfl GlobalYieldAccumulator.funds
  have hacc : (markClosed acc).funds = acc.funds := rfl
  -- no transfer is made when there is nothing to send
  have hpaid : (asset.closeTransfers.map Prod.snd).sum = asset.entityCollateral := by
    unfold Asset.closeTransfers
    split
    · simp
    · simp only [List.map_nil, List.sum_nil]
      omega
  simp only [World.closing, Wallets.funds_pay, hpaid, Asset.funds, Asset.closed] at hput ⊢
  omega

/-- The parts of a deposit add up to it. -/
theorem deposit_parts {asset : Asset} {acc : GlobalYieldAccumulator} {gross : ℕ}
    (guards : DepositGuards asset acc w.config gross) :
    ((asset.depositTransfers w.config gross).map Prod.snd).sum +
      asset.investorPortion w.config gross = gross := by
  have hfee := guards.fee
  have hportion := guards.portion
  have hentity : asset.entityPortion w.config gross =
    gross - w.config.fee gross - asset.investorPortion w.config gross := rfl
  -- a part that is zero is not sent, and adds nothing
  unfold Asset.depositTransfers
  split <;> split <;> simp <;> omega

/-- A call that replaces one asset and pays from it, or into it. -/
theorem ofAsset (hc : w.Conserved) {a : ID} {asset : Asset} (asset' : Asset)
    (hasset : w.assets.get? a = some asset) (hid : asset'.id = asset.id)
    (hrest : w'.accumulators = w.accumulators ∧ w'.pools.sum ValidatorPool.stake =
      w.pools.sum ValidatorPool.stake ∧ w'.disputes = w.disputes ∧ w'.usdcSupply = w.usdcSupply)
    (hassets : w'.assets = w.assets.put asset')
    (hfunds : w'.wallets.funds + asset'.funds = w.wallets.funds + asset.funds) :
    w'.Conserved := by
  unfold World.Conserved World.usdc at hc ⊢
  obtain ⟨haccs, hpools, hdisputes, hsupply⟩ := hrest
  have hput := Store.sum_replace asset' hasset hid Asset.funds
  rw [hassets, haccs, hpools, hdisputes, hsupply]
  omega

/-- A call that replaces one accumulator and pays from it, or into it. -/
theorem ofAcc (hc : w.Conserved) {g : ID} {acc : GlobalYieldAccumulator}
    (acc' : GlobalYieldAccumulator) (hacc : w.accumulators.get? g = some acc)
    (hid : acc'.id = acc.id)
    (hrest : w'.assets = w.assets ∧ w'.pools = w.pools ∧ w'.disputes = w.disputes ∧
      w'.usdcSupply = w.usdcSupply)
    (haccs : w'.accumulators = w.accumulators.put acc')
    (hfunds : w'.wallets.funds + acc'.funds = w.wallets.funds + acc.funds) : w'.Conserved := by
  unfold World.Conserved World.usdc at hc ⊢
  obtain ⟨hassets, hpools, hdisputes, hsupply⟩ := hrest
  have hput := Store.sum_replace acc' hacc hid GlobalYieldAccumulator.funds
  rw [haccs, hassets, hpools, hdisputes, hsupply]
  omega

/-- Asset calls conserve the USDC. -/
theorem assetStep (hc : w.Conserved) (hf : w.Fresh) {c : AssetCall}
    (h : AssetStep w sender c w') : w'.Conserved := by
  cases h with
  | createAsset funds created => exact hc.listed hf funds created
  | createTermAsset funds created => exact hc.listed hf funds created
  | @cancelUnvouchedByEntity _ _ asset _ _ hasset =>
    refine hc.ofAsset asset.cancelled hasset rfl ⟨rfl, rfl, rfl, rfl⟩ rfl ?_
    simp only [Wallets.funds_credit, Asset.funds, Asset.cancelled]
    omega
  | @cancelUnvouchedTimeout _ asset _ hasset =>
    refine hc.ofAsset asset.cancelled hasset rfl ⟨rfl, rfl, rfl, rfl⟩ rfl ?_
    simp only [Wallets.funds_pay, Asset.funds, Asset.cancelled, List.map_cons, List.map_nil,
      List.sum_cons, List.sum_nil]
    omega
  | @vouchAssetLegals _ _ _ docs asset pool _ _ hasset hpool =>
    refine hc.ofAsset (asset.vouched pool.id (asset.coverageFor w.config) docs) hasset rfl
      ⟨rfl, ?_, rfl, rfl⟩ rfl rfl
    -- coverage is locked inside the stake, no USDC moves
    have hput := Store.sum_replace (pool.afterLock (asset.coverageFor w.config)) hpool rfl
      ValidatorPool.stake
    simp only [ValidatorPool.afterLock] at hput ⊢
    omega
  | @contributeCapital _ payment asset _ hasset funds =>
    refine hc.ofAsset (asset.afterContribution (asset.accepts payment.val)) hasset rfl
      ⟨rfl, rfl, rfl, rfl⟩ rfl ?_
    have hspend := Wallets.funds_spend funds
    -- what is not accepted comes back as change
    have hle : asset.accepts payment.val ≤ payment.val := Nat.min_le_left ..
    simp only [Wallets.funds_credit, Asset.funds, Asset.afterContribution]
    omega
  | @finalizeSuccessfulRaise _ _ asset cap _ _ hasset =>
    unfold World.Conserved World.usdc at hc ⊢
    have hput := Store.sum_replace (asset.finalized w.nextId) hasset rfl Asset.funds
    have hnew := Store.sum_put_of_fresh (x := asset.newAccumulator cap w.nextId)
      (hf.accumulators.get?_eq_none (Nat.lt_irrefl _)) GlobalYieldAccumulator.funds
    -- the accumulator starts empty, the escrow stays with the asset
    have hempty : (asset.newAccumulator cap w.nextId).funds = 0 := rfl
    have hsame : (asset.finalized w.nextId).funds = asset.funds := rfl
    simp only
    omega
  | @abortFailedRaise _ _ asset pool _ hasset hpool =>
    refine hc.ofAsset asset.failed hasset rfl ⟨rfl, ?_, rfl, rfl⟩ rfl ?_
    · have hput := Store.sum_replace (pool.afterRelease asset.coverageLocked) hpool rfl
        ValidatorPool.stake
      simp only [ValidatorPool.afterRelease] at hput ⊢
      omega
    · simp only [Wallets.funds_pay, Asset.funds, Asset.failed, List.map_cons, List.map_nil,
        List.sum_cons, List.sum_nil]
      omega
  | @refundContribution _ _ asset receipt _ hasset _ _ guards =>
    refine hc.ofAsset (asset.afterRefund receipt.amount) hasset rfl ⟨rfl, rfl, rfl, rfl⟩ rfl ?_
    have hle := guards.escrow
    simp only [Wallets.funds_credit, Asset.funds, Asset.afterRefund]
    omega
  | claimShares => exact hc
  | @submitMilestoneProof _ _ i proof asset _ t _ hasset =>
    exact hc.ofAsset (asset.withTranche i.val { t with proof := some proof }) hasset rfl
      ⟨rfl, rfl, rfl, rfl⟩ rfl rfl
  | @approveMilestone _ _ _ i asset _ _ t _ hasset =>
    exact hc.ofAsset (asset.withTranche i.val { t with approvedBy := some sender }) hasset rfl
      ⟨rfl, rfl, rfl, rfl⟩ rfl rfl
  | @releaseFundingTranche _ _ _ asset _ t _ hasset _ _ guards =>
    refine hc.ofAsset (asset.afterTranche t) hasset rfl ⟨rfl, rfl, rfl, rfl⟩ rfl ?_
    have hle := guards.funded
    simp only [Wallets.funds_credit, Asset.funds, Asset.afterTranche]
    omega
  | @releaseVouchCoverage _ _ asset pool hasset hpool =>
    refine hc.ofAsset (clearCoverage asset) hasset rfl ⟨rfl, ?_, rfl, rfl⟩ rfl rfl
    have hput := Store.sum_replace (pool.afterRelease asset.coverageLocked) hpool rfl
      ValidatorPool.stake
    simp only [ValidatorPool.afterRelease] at hput ⊢
    omega
  | @flagDefault _ _ asset acc _ _ hasset hacc =>
    unfold World.Conserved World.usdc at hc ⊢
    have hput := Store.sum_replace asset.seized hasset rfl Asset.funds
    -- what the asset loses is what the accumulator parks
    have hpark := Store.sum_replace (acc.compensated (asset.entityCollateral + asset.escrow)
      (w.clockMs + w.config.compensationGraceMs)) hacc rfl GlobalYieldAccumulator.funds
    simp only [Asset.funds, Asset.seized, GlobalYieldAccumulator.funds,
      GlobalYieldAccumulator.compensated] at hput hpark ⊢
    omega
  | @depositRevenue _ _ payment asset acc acc' _ _ hacc funds guards deposited =>
    refine hc.ofAcc acc' hacc deposited.routed.frame.id ⟨rfl, rfl, rfl, rfl⟩ rfl ?_
    have hspend := Wallets.funds_spend funds
    have hparts := deposit_parts guards
    have hrouted := deposited.routed.funds
    -- the lifetime counter holds no USDC
    have hcounted : (acc.counted (asset.investorPortion w.config payment.val)).funds =
      acc.funds := rfl
    simp only [Wallets.funds_pay]
    omega
  | closeAtReturnTarget hasset hacc => exact hc.closing hasset hacc
  | closeAfterCompensation hasset hacc => exact hc.closing hasset hacc
  | closeWindDown hasset hacc => exact hc.closing hasset hacc

/-- Accumulator calls conserve the USDC. -/
theorem accumulatorStep (hc : w.Conserved) {c : AccumulatorCall}
    (h : AccumulatorStep w sender c w') : w'.Conserved := by
  cases h with
  | @claimRewards _ _ acc share _ hacc _ _ guards =>
    refine hc.ofAcc (acc.afterClaim share) hacc rfl ⟨rfl, rfl, rfl, rfl⟩ rfl ?_
    have hclaim := guards.funds
    simp only [Wallets.funds_credit]
    omega
  | @sweepRollover _ acc _ hacc =>
    refine hc.ofAcc (acc.drained.afterAdvance acc.rolloverReserve) hacc rfl ⟨rfl, rfl, rfl, rfl⟩
      rfl ?_
    rw [acc.funds_swept]
  | @sweepCompensation _ acc routed _ hacc _ _ route =>
    refine hc.ofAcc { routed with wrappingFrozen := false } hacc route.frame.id
      ⟨rfl, rfl, rfl, rfl⟩ rfl ?_
    have hrouted := route.funds
    simp only [GlobalYieldAccumulator.funds] at hrouted ⊢
    omega
  | @wrapShares _ _ acc share _ hacc _ _ guards =>
    refine hc.ofAcc (acc.afterWrap share) hacc rfl ⟨rfl, rfl, rfl, rfl⟩ rfl ?_
    have hclaim := guards.claim.funds
    have hwrap : (acc.afterWrap share).funds = (acc.afterClaim share).funds := rfl
    simp only [Wallets.funds_credit]
    omega
  | @unwrapCoins _ _ acc acc' coin _ _ hacc _ _ _ _ sweep =>
    refine hc.ofAcc acc' hacc sweep.frame.id ⟨rfl, rfl, rfl, rfl⟩ rfl ?_
    have hburn : (acc.afterBurn coin.value).funds = acc.funds := rfl
    rw [sweep.funds, hburn]
  | @mergeShares _ _ _ acc target victim _ hacc _ _ _ _ _ guards =>
    refine hc.ofAcc ((acc.afterClaim target).afterClaim victim) hacc rfl ⟨rfl, rfl, rfl, rfl⟩
      rfl ?_
    have hclaim := guards.claim.funds
    have hclaim' := guards.claim'.funds
    -- the first claim does not change what the second pays
    have hpayout : (acc.afterClaim target).payout victim = acc.payout victim := rfl
    simp only [Wallets.funds_credit]
    omega
  | @redeemShare _ _ acc share _ hacc _ _ guards =>
    refine hc.ofAcc (acc.afterRedeem share) hacc rfl ⟨rfl, rfl, rfl, rfl⟩ rfl ?_
    have hclaim := guards.claim.funds
    have hredeem : (acc.afterRedeem share).funds = (acc.afterClaim share).funds := rfl
    simp only [Wallets.funds_credit]
    omega
  | @adminSweepDust _ acc _ _ hacc =>
    refine hc.ofAcc acc.afterDust hacc rfl ⟨rfl, rfl, rfl, rfl⟩ rfl ?_
    simp only [Wallets.funds_credit, GlobalYieldAccumulator.funds,
      GlobalYieldAccumulator.afterDust, GlobalYieldAccumulator.residue]
    omega
  | splitShare => exact hc

/-- Dispute calls conserve the USDC. -/
theorem disputeStep (hc : w.Conserved) (hf : w.Fresh) {c : DisputeCall}
    (h : DisputeStep w sender c w') : w'.Conserved := by
  cases h with
  | @initializeDispute _ _ _ bond evidence reason asset pool acc _ hasset hpool _ funds =>
    unfold World.Conserved World.usdc at hc ⊢
    have hspend := Wallets.funds_spend funds
    have hput := Store.sum_replace (setDisputed asset true) hasset rfl Asset.funds
    have hsame : (setDisputed asset true).funds = asset.funds := rfl
    have hfreeze := Store.sum_replace (pool.withStatus .frozen) hpool rfl ValidatorPool.stake
    -- the bond moves from the challenger into the dispute
    have hnew := Store.sum_put_of_fresh (x := Dispute.opening asset pool acc w.config bond.val
      evidence reason w.clockMs sender w.nextId) (hf.disputes.get?_eq_none (Nat.lt_irrefl _))
      Dispute.funds
    simp only [ValidatorPool.withStatus, Dispute.funds, Dispute.opening] at hfreeze hnew ⊢
    omega
  | @voteOnDispute _ _ _ guilty dispute pool _ _ hdispute =>
    unfold World.Conserved World.usdc at hc ⊢
    have hput := Store.sum_replace (dispute.afterVote pool.id guilty) hdispute rfl Dispute.funds
    have hsame : (dispute.afterVote pool.id guilty).funds = dispute.funds := rfl
    simp only
    omega
  | @resolveDispute _ _ _ _ dispute pool asset acc v hdispute hpool hasset hacc _ decides =>
    have hkeeps := decides.keeps
    unfold World.Conserved World.usdc at hc ⊢
    have hput := Store.sum_replace v.dispute hdispute hkeeps.disputeId Dispute.funds
    have hstake := Store.sum_replace v.pool hpool hkeeps.poolId ValidatorPool.stake
    have hlisting := Store.sum_replace v.asset hasset hkeeps.assetId Asset.funds
    have hpools := Store.sum_replace v.acc hacc hkeeps.accId GlobalYieldAccumulator.funds
    -- all four objects are replaced; the verdict conserves their sum
    have hverdict := decides.funds
    simp only [Wallets.funds_pay]
    omega
  | @claimJurorReward _ _ _ dispute pool _ _ hdispute _ _ _ _ _ funded =>
    unfold World.Conserved World.usdc at hc ⊢
    have hput := Store.sum_replace (dispute.afterReward pool.id) hdispute rfl Dispute.funds
    simp only [Wallets.funds_credit, Dispute.funds, Dispute.afterReward] at hput ⊢
    omega

/-- Framework calls conserve the USDC; the issuer's are counted in the supply. -/
theorem frameworkStep (hc : w.Conserved) {c : FrameworkCall} (h : FrameworkStep w sender c w') :
    w'.Conserved := by
  unfold World.Conserved World.usdc at hc ⊢
  cases h with
  | mintUsdc =>
    simp only [Wallets.funds_credit]
    omega
  | burnUsdc funds =>
    have hspend := Wallets.funds_spend funds
    simp only
    omega
  | payUsdc funds =>
    have hspend := Wallets.funds_spend funds
    simp only [Wallets.funds_credit]
    omega
  | _ => exact hc

/-- Every call conserves the USDC. -/
theorem call (hc : w.Conserved) (hf : w.Fresh) {c : Call} (h : w.call sender c = .ok w') :
    w'.Conserved := by
  cases c with
  | protocol c =>
    obtain ⟨-, _, _, -, rfl⟩ := World.protocolCall_eq_ok.mp h
    exact hc
  | validator c => exact hc.validatorStep hf (World.validatorCall_eq_ok.mp h)
  | asset c => exact hc.assetStep hf (World.assetCall_eq_ok.mp h)
  | accumulator c => exact hc.accumulatorStep (World.accumulatorCall_eq_ok.mp h)
  | dispute c => exact hc.disputeStep hf (World.disputeCall_eq_ok.mp h)
  | framework c => exact hc.frameworkStep (World.frameworkCall_eq_ok.mp h)

end World.Conserved

theorem Reachable.conserved {w : World} (hw : Reachable w) : w.Conserved :=
  hw.induct (fun _ => rfl) (fun hw hc h => hc.call hw.fresh h) fun _ hc _ => hc

/-- The issuer cannot mint more USDC than a `u64` counts. -/
theorem Reachable.supply_le {w : World} (hw : Reachable w) : w.usdcSupply ≤ maxU64 := by
  refine hw.induct (P := fun w => w.usdcSupply ≤ maxU64) (fun _ => Nat.zero_le _) ?_ fun _ h _ => h
  intro w sender c w' _ hs h
  cases c with
  | protocol c =>
    obtain ⟨-, _, _, -, rfl⟩ := World.protocolCall_eq_ok.mp h
    exact hs
  | validator c => cases World.validatorCall_eq_ok.mp h <;> exact hs
  | asset c => cases World.assetCall_eq_ok.mp h <;> exact hs
  | accumulator c => cases World.accumulatorCall_eq_ok.mp h <;> exact hs
  | dispute c => cases World.disputeCall_eq_ok.mp h <;> exact hs
  | framework c =>
    cases World.frameworkCall_eq_ok.mp h with
    | mintUsdc supply =>
      simp only
      omega
    | burnUsdc => exact Nat.le_trans (Nat.sub_le _ _) hs
    | _ => exact hs

/-- A balance is part of all USDC of the addresses. -/
theorem Wallets.balance_le (ws : Wallets) (a : Address) : ws.balance a ≤ ws.funds := by
  cases h : ws.get? a with
  | none => simp [balance, h]
  | some x =>
    simp only [balance, h, Option.elim_some]
    exact Store.le_sum (Store.mem_of_get? h) Wallet.value

/-- The pools of an accumulator and the balance of an address fit in a `u64` together. -/
theorem Reachable.accFunds_balance_le {w : World} (hw : Reachable w) {g : ID}
    {acc : GlobalYieldAccumulator} (hacc : w.accumulators.get? g = some acc) (a : Address) :
    acc.funds + w.wallets.balance a ≤ maxU64 := by
  -- both are part of the whole supply
  have hle := Store.le_sum (Store.mem_of_get? hacc) GlobalYieldAccumulator.funds
  have hbalance := w.wallets.balance_le a
  have hconserved := hw.conserved
  have hsupply := hw.supply_le
  unfold World.Conserved World.usdc at hconserved
  omega

/-- What an asset and an accumulator hold fits in a `u64` together. -/
theorem Reachable.assetFunds_le {w : World} (hw : Reachable w) {a g : ID} {asset : Asset}
    {acc : GlobalYieldAccumulator} (hasset : w.assets.get? a = some asset)
    (hacc : w.accumulators.get? g = some acc) : asset.funds + acc.funds ≤ maxU64 := by
  have hle := Store.le_sum (Store.mem_of_get? hacc) GlobalYieldAccumulator.funds
  have hle' := Store.le_sum (Store.mem_of_get? hasset) Asset.funds
  have hconserved := hw.conserved
  have hsupply := hw.supply_le
  unfold World.Conserved World.usdc at hconserved
  omega

theorem Reachable.accFunds_le {w : World} (hw : Reachable w) {g : ID}
    {acc : GlobalYieldAccumulator} (hacc : w.accumulators.get? g = some acc) :
    acc.funds ≤ maxU64 :=
  Nat.le_trans (Nat.le_add_right _ _) (hw.accFunds_balance_le hacc 0)

end Gally

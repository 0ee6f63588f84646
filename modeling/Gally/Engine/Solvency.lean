import Gally.Engine.Moves

/-!
# Supply conservation and solvency of the engine

`Engine.Balanced` says that every minted unit is in exactly one of three forms
(receipt, deed, coin) and that the counters of the accumulator agree;
`Engine.Solvent` that the reward pool covers all entitlements. Each move preserves
the first, and the second together with the first. What a move can do to the pool and to
the entitlements is said once, in `Accrual`.

## Key results

- `Balanced.run`, `Solvent.run`: both hold along every run from an initial engine
- `Engine.payouts_le`: a solvent pool pays every pending claim at once
-/

namespace Gally

open Checked

namespace Engine

/-- Every unit is in exactly one form, and every counter agrees. -/
structure Balanced (e : Engine) : Prop where
  deeds : ∀ s ∈ e.shares, s.assetId = e.acc.assetId
  snapshots : ∀ s ∈ e.shares, s.yieldClaimedIndex ≤ e.acc.cumulativeYieldIndex
  receipts : ∀ r ∈ e.receipts, r.assetId = e.acc.assetId
  units : e.deedUnits + e.receiptUnits + e.acc.totalWrappedShares = e.acc.totalMintedShares
  coins : e.coinUnits = e.acc.treasuryCap.totalSupply
  wrapped : e.acc.treasuryCap.totalSupply = e.acc.totalWrappedShares

/-- The reward pool covers the scaled entitlements. -/
def Solvent (e : Engine) : Prop := e.owed ≤ scale * e.acc.rewardPool

/-- The increment of an advance is that of the general lazy index. -/
theorem increment_eq (acc : GlobalYieldAccumulator) (funds : ℕ) :
    acc.increment funds = LazyIndex.increment scale funds acc.unwrapped := rfl

variable {e e' : Engine} {h : List Record}

namespace Balanced

/-- No more is wrapped than minted. -/
theorem supply (hb : e.Balanced) : e.acc.totalWrappedShares ≤ e.acc.totalMintedShares := by
  have := hb.units
  omega

/-- The deeds hold at most the units an advance divides by. -/
theorem deedUnits_le (hb : e.Balanced) : e.deedUnits ≤ e.acc.unwrapped := by
  have := hb.units
  simp only [GlobalYieldAccumulator.unwrapped]
  omega

/-- A fresh engine is balanced: all its units are in receipts. -/
theorem initial (hi : e.Initial) : e.Balanced := by
  obtain ⟨assetId, minted, cap, accId, hacc⟩ := hi.created
  obtain ⟨hcap, heq⟩ := newAccumulator_eq_ok.mp hacc
  have hwrapped : e.acc.totalWrappedShares = 0 := by rw [heq]
  have hsupply : e.acc.treasuryCap.totalSupply = 0 := by rw [heq]; exact hcap
  exact {
    deeds := by simp [hi.shares]
    snapshots := by simp [hi.shares]
    receipts := hi.receipts
    units := by rw [deedUnits, hi.shares, Store.sum_empty, hi.units, hwrapped]; omega
    coins := by rw [hi.coins, hsupply]
    wrapped := by rw [hwrapped, hsupply] }

/-- A move that changes neither units nor counters keeps the balance. -/
theorem of_rebooked (hb : e.Balanced) {acc : GlobalYieldAccumulator} (hs : SameShape e.acc acc)
    (hi : e.acc.cumulativeYieldIndex ≤ acc.cumulativeYieldIndex) :
    Balanced { e with acc } where
  deeds s hm := (hb.deeds s hm).trans hs.assetId.symm
  snapshots s hm := (hb.snapshots s hm).trans hi
  receipts r hm := (hb.receipts r hm).trans hs.assetId.symm
  units := by
    simp only [hs.minted, hs.wrapped]
    exact hb.units
  coins := by
    simp only [hs.cap]
    exact hb.coins
  wrapped := by
    simp only [hs.cap, hs.wrapped]
    exact hb.wrapped

/-- A move that only exchanges coins keeps the balance if their value stays. -/
theorem of_coins (hb : e.Balanced) {coins : Store TokenCoin}
    (hv : coins.sum TokenCoin.value = e.coinUnits) : Balanced { e with coins } :=
  { hb with coins := hv.trans hb.coins }

/-- A move that only exchanges deeds keeps the balance if their units stay. -/
theorem of_shares (hb : e.Balanced) {shares : Store GallyShare}
    (hd : ∀ s ∈ shares, s.assetId = e.acc.assetId ∧
      s.yieldClaimedIndex ≤ e.acc.cumulativeYieldIndex)
    (hu : shares.sum GallyShare.shareCount = e.deedUnits) : Balanced { e with shares } :=
  { hb with
    deeds := fun s hs => (hd s hs).1
    snapshots := fun s hs => (hd s hs).2
    units := by
      -- the units only changed hands among deeds
      have := hb.units
      simp only [deedUnits, hu] at this ⊢
      exact this }

/-- Every move keeps the balance. -/
theorem move (hb : e.Balanced) (m : Move e h e') : e'.Balanced := by
  cases m with
  | @convert receipt newId now hr hbel hfresh =>
    -- the units change from the receipts to the deeds
    have hrec := Store.sum_delete_of_get? hr ContributionReceipt.amount
    have hput := Store.sum_put_of_fresh
      (x := receipt.deed newId e.acc.cumulativeYieldIndex now) hfresh GallyShare.shareCount
    have hunits := hb.units
    exact { hb with
      deeds := Store.forall_put hbel hb.deeds
      snapshots := Store.forall_put (Nat.le_refl _) hb.snapshots
      receipts := Store.forall_delete hb.receipts
      units := by
        simp only [deedUnits, receiptUnits, ContributionReceipt.deed] at hunits hrec hput ⊢
        omega }
  | rebook hacc => exact hb.of_rebooked hacc.shape (Nat.le_of_eq hacc.index.symm)
  | @settle share hs hg =>
    have hmem := Store.mem_of_get? hs
    -- the pool and the dust bound are not part of the balance
    have hacc : Balanced { e with acc := e.acc.afterClaim share } :=
      hb.of_rebooked ⟨rfl, rfl, rfl, rfl, rfl⟩ (Nat.le_refl _)
    refine hacc.of_shares (Store.forall_put ⟨hb.deeds share hmem, Nat.le_refl _⟩
      fun s hs => ⟨hb.deeds s hs, hb.snapshots s hs⟩) ?_
    exact Store.sum_put_of_eq (f := GallyShare.shareCount) hs rfl
  | advance hg =>
    exact hb.of_rebooked ⟨rfl, rfl, rfl, rfl, rfl⟩ (Nat.le_add_right _ _)
  | @split share amount newId hs hfresh hpos hlt =>
    have hmem := Store.mem_of_get? hs
    have hne : newId ≠ share.id := by
      rintro rfl
      simp [hs] at hfresh
    -- parent and child have the units of the parent before
    have hparent := Store.sum_put_of_get?
      (x := { share with shareCount := share.shareCount - amount }) hs GallyShare.shareCount
    have hchild := Store.sum_put_of_fresh
      (s := e.shares.put { share with shareCount := share.shareCount - amount })
      (x := { share with id := newId, shareCount := amount })
      ((Store.get?_put_ne hne.symm).trans hfresh) GallyShare.shareCount
    refine hb.of_shares (Store.forall_put ⟨hb.deeds share hmem, hb.snapshots share hmem⟩
      (Store.forall_put ⟨hb.deeds share hmem, hb.snapshots share hmem⟩
        fun s hs => ⟨hb.deeds s hs, hb.snapshots s hs⟩)) ?_
    simp only [deedUnits] at hparent hchild ⊢
    omega
  | @join target victim acquired ht hv hne _ _ =>
    have hmem := Store.mem_of_get? ht
    -- the target stays filed while the victim is taken out
    have ht' : (e.shares.delete victim.id).get? target.id = some target := by
      rw [Store.get?_delete_ne hne, ht]
    have hdel := Store.sum_delete_of_get? hv GallyShare.shareCount
    have hput := Store.sum_put_of_get? (x := { target with
      shareCount := target.shareCount + victim.shareCount, acquiredAtMs := acquired }) ht'
      GallyShare.shareCount
    refine hb.of_shares (Store.forall_put ⟨hb.deeds target hmem, hb.snapshots target hmem⟩
      (Store.forall_delete fun s hs => ⟨hb.deeds s hs, hb.snapshots s hs⟩)) ?_
    simp only [deedUnits] at hdel hput ⊢
    omega
  | @wrap share newId hs hfresh hset =>
    -- deed units become coin units, and `totalWrappedShares` counts them
    have hdel := Store.sum_delete_of_get? hs GallyShare.shareCount
    have hput := Store.sum_put_of_fresh (x := (⟨newId, e.acc.treasuryCap.token,
      share.shareCount⟩ : TokenCoin)) hfresh TokenCoin.value
    have hunits := hb.units
    have hcoins := hb.coins
    have hwrapped := hb.wrapped
    simp only [deedUnits, receiptUnits, coinUnits] at hunits hcoins hdel hput
    exact {
      deeds := Store.forall_delete hb.deeds
      snapshots := Store.forall_delete hb.snapshots
      receipts := hb.receipts
      units := by simp only [deedUnits, receiptUnits]; omega
      coins := by simp only [coinUnits]; omega
      wrapped := by simp only; omega }
  | @unwrap coin newId now hk hfresh hsup hw =>
    -- coin units become deed units again
    have hdel := Store.sum_delete_of_get? hk TokenCoin.value
    have hput := Store.sum_put_of_fresh (x := e.acc.freshShare newId coin.value now) hfresh
      GallyShare.shareCount
    have hunits := hb.units
    have hcoins := hb.coins
    have hwrapped := hb.wrapped
    simp only [deedUnits, receiptUnits, coinUnits,
      GlobalYieldAccumulator.freshShare] at hunits hcoins hdel hput
    exact {
      deeds := Store.forall_put rfl hb.deeds
      snapshots := Store.forall_put (Nat.le_refl _) hb.snapshots
      receipts := hb.receipts
      units := by
        simp only [deedUnits, receiptUnits, GlobalYieldAccumulator.afterBurn,
          GlobalYieldAccumulator.freshShare]
        omega
      coins := by simp only [coinUnits, GlobalYieldAccumulator.afterBurn]; omega
      wrapped := by simp only [GlobalYieldAccumulator.afterBurn]; omega }
  | @burn share hs hset hm =>
    -- the units of the deed leave `totalMintedShares` with it
    have hdel := Store.sum_delete_of_get? hs GallyShare.shareCount
    have hunits := hb.units
    simp only [deedUnits, receiptUnits] at hunits hdel
    exact { hb with
      deeds := Store.forall_delete hb.deeds
      snapshots := Store.forall_delete hb.snapshots
      units := by simp only [deedUnits, receiptUnits]; omega }
  | sweepDust hm => exact hb.of_rebooked ⟨rfl, rfl, rfl, rfl, rfl⟩ (Nat.le_refl _)
  | zeroCoin hfresh hz =>
    refine hb.of_coins ?_
    rw [Store.sum_put_of_fresh hfresh, hz, Nat.zero_add, coinUnits]
  | destroyZero hk hz =>
    have hdel := Store.sum_delete_of_get? hk TokenCoin.value
    refine hb.of_coins ?_
    rw [coinUnits, ← hdel, hz, Nat.zero_add]
  | @splitCoin coin amount newId hk hfresh hle =>
    have hne : newId ≠ coin.id := by
      rintro rfl
      simp [hk] at hfresh
    have hrest := Store.sum_put_of_get? (x := { coin with value := coin.value - amount }) hk
      TokenCoin.value
    have hchild := Store.sum_put_of_fresh
      (s := e.coins.put { coin with value := coin.value - amount })
      (x := ⟨newId, coin.token, amount⟩)
      ((Store.get?_put_ne hne.symm).trans hfresh) TokenCoin.value
    refine hb.of_coins ?_
    simp only [coinUnits] at hrest hchild ⊢
    omega
  | @joinCoins coin other hk hj hne =>
    have hk' : (e.coins.delete other.id).get? coin.id = some coin := by
      rw [Store.get?_delete_ne hne, hk]
    have hdel := Store.sum_delete_of_get? hj TokenCoin.value
    have hput := Store.sum_put_of_get? (x := { coin with value := coin.value + other.value }) hk'
      TokenCoin.value
    refine hb.of_coins ?_
    simp only [coinUnits] at hdel hput ⊢
    omega

/-- The balance holds along every run. -/
theorem run {ops : List EngineOp} (hi : e.Initial) (hr : e.run ops = .ok e') : e'.Balanced :=
  run_preserves Balanced.move (initial hi) hr

end Balanced

/-! ## Solvency -/

/-- The payout of a deed, scaled, is at most its entitlement. -/
theorem scale_mul_payout_le (acc : GlobalYieldAccumulator) (share : GallyShare) :
    scale * acc.payout share ≤ acc.entitlement share :=
  Nat.mul_div_le _ _

/-- A deed whose snapshot is the index has no entitlement. -/
theorem entitlement_eq_zero {acc : GlobalYieldAccumulator} {share : GallyShare}
    (hs : share.yieldClaimedIndex = acc.cumulativeYieldIndex) : acc.entitlement share = 0 :=
  LazyIndex.accrued_eq_zero _ _ (Nat.le_of_eq hs.symm)

/-- What a move does to the reward pool and to the entitlements. -/
inductive Accrual (e e' : Engine) : Prop where
  | same (owed : e'.owed = e.owed) (pool : e'.acc.rewardPool = e.acc.rewardPool)
      (dust : e'.acc.dustBound = e.acc.dustBound)
      (index : e'.acc.cumulativeYieldIndex = e.acc.cumulativeYieldIndex)
  | payment {share : GallyShare} (owed : e'.owed + e.acc.entitlement share = e.owed)
      (acc : e'.acc = e.acc.afterClaim share)
  | advance {funds : ℕ} (unwrapped : e.acc.unwrapped ≠ 0)
      (acc : e'.acc = e.acc.afterAdvance funds)
      (owed : e'.owed = e.owed + e.acc.increment funds * e.deedUnits)
  | sweep (owed : e'.owed = 0) (acc : e'.acc = e.acc.afterDust)

/-- Without deed units nothing is owed. -/
theorem owed_eq_zero (hu : e.deedUnits = 0) : e.owed = 0 := by
  apply Store.sum_eq_zero
  -- no deed has units, so none has accrued anything
  intro s hs
  have hle := Store.le_sum hs GallyShare.shareCount
  have hcount : s.shareCount = 0 := by
    rw [deedUnits] at hu
    omega
  rw [GlobalYieldAccumulator.entitlement, hcount, Nat.mul_zero]

/-- Every move of a balanced engine is one of these. -/
theorem Balanced.accrual (hb : e.Balanced) (m : Move e h e') : e.Accrual e' := by
  cases m with
  | @convert receipt newId now hr hbel hfresh =>
    -- a deed converted now is owed nothing: its snapshot is the current index
    have hput := Store.sum_put_of_fresh
      (x := receipt.deed newId e.acc.cumulativeYieldIndex now) hfresh e.acc.entitlement
    rw [entitlement_eq_zero rfl, Nat.zero_add] at hput
    exact .same hput rfl rfl rfl
  | @rebook acc hacc =>
    have howed : Engine.owed { e with acc } = e.owed :=
      Store.sum_congr fun s _ => by
        simp only [GlobalYieldAccumulator.entitlement, hacc.index]
    exact .same howed hacc.rewardPool hacc.dustBound hacc.index
  | @settle share hk hg =>
    have hput := Store.sum_put_of_get?
      (x := share.settledAt e.acc.cumulativeYieldIndex) hk e.acc.entitlement
    -- what leaves the pool is exactly what the deed was owed
    have hzero : e.acc.entitlement (share.settledAt e.acc.cumulativeYieldIndex) = 0 :=
      entitlement_eq_zero rfl
    rw [hzero, Nat.zero_add, Nat.add_comm] at hput
    exact .payment hput rfl
  | @advance funds hg =>
    exact .advance hg.unwrapped rfl (LazyIndex.owed_advance GallyShare.shareCount
      GallyShare.yieldClaimedIndex hb.snapshots (e.acc.increment funds))
  | @split share amount newId hk hfresh hpos hlt =>
    have hne : newId ≠ share.id := by
      rintro rfl
      simp [hk] at hfresh
    have hparent := Store.sum_put_of_get?
      (x := { share with shareCount := share.shareCount - amount }) hk e.acc.entitlement
    have hchild := Store.sum_put_of_fresh
      (s := e.shares.put { share with shareCount := share.shareCount - amount })
      (x := { share with id := newId, shareCount := amount })
      ((Store.get?_put_ne hne.symm).trans hfresh) e.acc.entitlement
    -- the entitlement is divided in the proportion of the counts
    have hdiv : e.acc.entitlement { share with shareCount := share.shareCount - amount } +
        e.acc.entitlement { share with id := newId, shareCount := amount } =
        e.acc.entitlement share := by
      simp only [GlobalYieldAccumulator.entitlement]
      rw [← Nat.mul_add, Nat.sub_add_cancel (Nat.le_of_lt hlt)]
    refine .same ?_ rfl rfl rfl
    simp only [owed]
    omega
  | @join target victim acquired ht hv hne hst hsv =>
    have ht' : (e.shares.delete victim.id).get? target.id = some target := by
      rw [Store.get?_delete_ne hne, ht]
    -- both deeds were settled just before, so both are owed nothing
    have hdel := Store.sum_delete_of_get? hv e.acc.entitlement
    have hput := Store.sum_put_of_get? (x := { target with
      shareCount := target.shareCount + victim.shareCount, acquiredAtMs := acquired }) ht'
      e.acc.entitlement
    have hzero : e.acc.entitlement { target with
        shareCount := target.shareCount + victim.shareCount, acquiredAtMs := acquired } = 0 :=
      entitlement_eq_zero hst
    rw [entitlement_eq_zero hst, hzero] at hput
    rw [entitlement_eq_zero hsv] at hdel
    refine .same ?_ rfl rfl rfl
    simp only [owed]
    omega
  | @wrap share newId hk hfresh hset =>
    -- a settled deed leaves without taking an entitlement along
    have hdel := Store.sum_delete_of_get? hk e.acc.entitlement
    rw [entitlement_eq_zero hset, Nat.zero_add] at hdel
    exact .same hdel rfl rfl rfl
  | @unwrap coin newId now hk hfresh hsup hw =>
    have hput := Store.sum_put_of_fresh (x := e.acc.freshShare newId coin.value now) hfresh
      e.acc.entitlement
    rw [entitlement_eq_zero rfl, Nat.zero_add] at hput
    exact .same hput rfl rfl rfl
  | @burn share hk hset hm =>
    have hdel := Store.sum_delete_of_get? hk e.acc.entitlement
    rw [entitlement_eq_zero hset, Nat.zero_add] at hdel
    exact .same hdel rfl rfl rfl
  | sweepDust hm =>
    -- no units are minted, so no deed has any
    have hunits : e.deedUnits = 0 := by
      have := hb.units
      omega
    exact .sweep (owed_eq_zero hunits) rfl
  | zeroCoin => exact .same rfl rfl rfl rfl
  | destroyZero => exact .same rfl rfl rfl rfl
  | splitCoin => exact .same rfl rfl rfl rfl
  | joinCoins => exact .same rfl rfl rfl rfl

namespace Solvent

/-- A fresh engine is solvent: nothing has accrued. -/
theorem initial (hi : e.Initial) : e.Solvent := by
  rw [Solvent, owed, hi.shares, Store.sum_empty]
  exact Nat.zero_le _

/-- Every move of a balanced engine keeps it solvent. -/
theorem move (hb : e.Balanced) (hs : e.Solvent) (m : Move e h e') : e'.Solvent := by
  unfold Solvent at hs ⊢
  -- nothing moves, a deed is paid, the index advances, or the dust is swept
  cases hb.accrual m with
  | same owed pool =>
    rw [owed, pool]
    exact hs
  | @payment share owed acc =>
    -- what is paid out had accrued in full, with the floor in favour of the pool
    have hfloor := scale_mul_payout_le e.acc share
    rw [acc, GlobalYieldAccumulator.afterClaim, Nat.mul_sub]
    omega
  | @advance funds _ acc owed =>
    have hpool : e'.acc.rewardPool = e.acc.rewardPool + funds := by rw [acc]; rfl
    -- the deeds gain at most what the pool gains
    calc e'.owed
      _ = e.owed + e.acc.increment funds * e.deedUnits := owed
      _ ≤ e.owed + scale * funds :=
        Nat.add_le_add_left (LazyIndex.increment_mul_le hb.deedUnits_le) _
      _ ≤ scale * e.acc.rewardPool + scale * funds := Nat.add_le_add_right hs _
      _ = scale * e'.acc.rewardPool := by rw [hpool, Nat.mul_add]
  | sweep owed => exact owed ▸ Nat.zero_le _

/-- An engine stays balanced and solvent along every run. -/
theorem run {ops : List EngineOp} (hi : e.Initial) (hr : e.run ops = .ok e') : e'.Solvent := by
  have hboth : e'.Balanced ∧ e'.Solvent :=
    run_preserves (P := fun e => e.Balanced ∧ e.Solvent)
      (fun hP m => ⟨hP.1.move m, move hP.1 hP.2 m⟩)
      ⟨Balanced.initial hi, initial hi⟩ hr
  exact hboth.2

end Solvent

/-! ## Paying everyone -/

/-- What all deeds together could claim now. -/
def payouts (e : Engine) : ℕ := e.shares.sum e.acc.payout

/-- A solvent pool pays every pending claim at once. -/
theorem payouts_le (hs : e.Solvent) : e.payouts ≤ e.acc.rewardPool := by
  have hfloor : scale * e.payouts ≤ e.owed :=
    LazyIndex.scale_mul_sum_floor_le GallyShare.shareCount GallyShare.yieldClaimedIndex scale
      e.acc.cumulativeYieldIndex e.shares
  exact Nat.le_of_mul_le_mul_left (Nat.le_trans hfloor hs) scale_pos

end Engine

end Gally

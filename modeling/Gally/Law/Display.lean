import Gally.Explorer.Position
import Gally.Spec.AccumulatorSpec
import Mathlib.Algebra.Order.BigOperators.Group.List
import Mathlib.Data.Nat.Cast.Order.Field
import Mathlib.Tactic.FieldSimp
import Mathlib.Tactic.Linarith
import Mathlib.Tactic.NormNum
import Mathlib.Tactic.Positivity

/-!
# Displayed and payable yield

The index of an accumulator counts raw USDC per raw share, scaled by `10^9`; the
explorer reads it as raw USDC per whole share and divides by `10^6` once more. So
what it shows is a millionth of what `claim_rewards` pays, and the two agree only
where a deed has nothing to claim.

## Key results

- `ShowsDeed.iff_lt`: a deed is shown as it is paid only below one raw unit
- `shows_payable_iff`: the same for the holdings of a wallet
-/

namespace Gally

open Checked Explorer

/-- The explorer shows a deed what `claim_rewards` would pay for it, in each of its
    computations. -/
def ShowsDeed (acc : GlobalYieldAccumulator) (share : GallyShare) : Prop :=
  ∃ payout : ℕ, pendingPayout acc share = .ok payout ∧
    pendingYield acc.cumulativeYieldIndex share.yieldClaimedIndex share.shareCount =
      (payout : ℚ) / micro ∧
    |claimableHuman (indexHuman (some (Decimal.ofNat acc.cumulativeYieldIndex)))
      (indexHumanFromRaw share.yieldClaimedIndex) ((share.shareCount : ℚ) / micro) -
        (payout : ℚ) / micro| ≤ 1 / micro

/-- A holding shows the sum of what the deeds of its asset would be paid. -/
def ShowsHolding (accOf : ID → GlobalYieldAccumulator) (deeds : List GallyShare)
    (h : LiveHolding) : Prop :=
  ∃ payouts : List ℕ,
    (deeds.filter (·.assetId = h.assetId)).map (pendingPayout (accOf h.assetId)) =
      payouts.map Except.ok ∧
    h.pendingYield = (payouts.sum : ℚ) / micro

/-- The reads of the explorer reach the accumulators of the wallet's assets. -/
structure Explorer.Reader.Reads (client : Reader) (accOf : ID → GlobalYieldAccumulator)
    (deeds : List GallyShare) : Prop where
  asset : ∀ d ∈ deeds, ∃ info, client.getAsset d.assetId = some (some info) ∧
    info.id = (accOf d.assetId).id
  object : ∀ d ∈ deeds, ∃ o, client.getObject (accOf d.assetId).id = some o ∧
    o.cumulativeYieldIndex = some (Decimal.ofNat (accOf d.assetId).cumulativeYieldIndex)

/-! ## One deed -/

section Deed

variable {acc : GlobalYieldAccumulator} {share : GallyShare}

/-- The exact computation: a payout, divided by `10^6` once too often. -/
theorem pendingYield_eq :
    pendingYield acc.cumulativeYieldIndex share.yieldClaimedIndex share.shareCount =
      (acc.payout share : ℚ) / micro / micro := by
  have hscale : indexScale = scale := by simp [indexScale, scale]
  unfold pendingYield
  split
  · next h =>
    have hzero : acc.entitlement share = 0 := by
      rcases h with h | h
      · rw [GlobalYieldAccumulator.entitlement, Nat.sub_eq_zero_of_le h, Nat.zero_mul]
      · rw [GlobalYieldAccumulator.entitlement, h, Nat.mul_zero]
    simp [GlobalYieldAccumulator.payout, hzero]
  · rw [hscale]
    rfl

/-- Below one raw unit there is nothing to pay. -/
theorem payout_eq_zero_iff : acc.payout share = 0 ↔ acc.entitlement share < scale := by
  rw [GlobalYieldAccumulator.payout, Nat.div_eq_zero_iff_lt scale_pos]

/-- The unscaled computation, as a fraction of the entitlement. -/
theorem claimableHuman_eq (hle : share.yieldClaimedIndex ≤ acc.cumulativeYieldIndex) :
    claimableHuman (indexHuman (some (Decimal.ofNat acc.cumulativeYieldIndex)))
      (indexHumanFromRaw share.yieldClaimedIndex) ((share.shareCount : ℚ) / micro) =
      (acc.entitlement share : ℚ) / indexScale / micro / micro := by
  have hcast : (acc.entitlement share : ℚ) =
      ((acc.cumulativeYieldIndex : ℚ) - share.yieldClaimedIndex) * share.shareCount := by
    rw [GlobalYieldAccumulator.entitlement, Nat.cast_mul, Nat.cast_sub hle]
  have hdelta : (acc.cumulativeYieldIndex : ℚ) / indexScale / micro -
      (share.yieldClaimedIndex : ℚ) / indexScale / micro =
      ((acc.cumulativeYieldIndex : ℚ) - share.yieldClaimedIndex) / indexScale / micro := by
    ring
  have hle' : (0 : ℚ) ≤ (acc.cumulativeYieldIndex : ℚ) - share.yieldClaimedIndex := by
    rw [sub_nonneg]
    exact_mod_cast hle
  simp only [claimableHuman, indexHuman_ofNat, indexHumanFromRaw, hdelta, hcast]
  split
  · ring
  · next h =>
    -- a factor of the product is zero, since none is negative
    have hdelta0 : (0 : ℚ) ≤
        ((acc.cumulativeYieldIndex : ℚ) - share.yieldClaimedIndex) / indexScale / micro := by
      positivity
    have hcount0 : (0 : ℚ) ≤ (share.shareCount : ℚ) / micro := by positivity
    have hprod : ((acc.cumulativeYieldIndex : ℚ) - share.yieldClaimedIndex) / indexScale / micro *
        ((share.shareCount : ℚ) / micro) = 0 := by
      rcases hdelta0.eq_or_lt with hd | hd
      · rw [← hd, zero_mul]
      · rcases hcount0.eq_or_lt with hc | hc
        · rw [← hc, mul_zero]
        · exact absurd ⟨hd, hc⟩ h
    rw [← hprod]
    ring

/-- A deed is shown as it is paid exactly when it has nothing to claim. -/
theorem ShowsDeed.iff_lt (hle : share.yieldClaimedIndex ≤ acc.cumulativeYieldIndex) :
    ShowsDeed acc share ↔ acc.entitlement share < scale := by
  have hmicro : (micro : ℚ) = 1000000 := by norm_num [micro]
  have hscale : (scale : ℚ) = 1000000000 := by norm_num [scale]
  -- a deed is shown with nothing to claim, which is right below one scaled unit
  constructor
  · rintro ⟨payout, hok, hyield, -⟩
    obtain ⟨-, -, -, rfl⟩ := pendingPayout_eq_ok.mp hok
    rw [pendingYield_eq, hmicro] at hyield
    have hzero : (acc.payout share : ℚ) = 0 := by linarith
    exact payout_eq_zero_iff.mp (by exact_mod_cast hzero)
  · intro hlt
    have hzero := payout_eq_zero_iff.mpr hlt
    have hprod : acc.entitlement share ≤ maxU128 := by
      simp only [scale, maxU128] at hlt ⊢
      omega
    refine ⟨0, pendingPayout_eq_ok.mpr ⟨hle, hprod, by omega, hzero⟩, ?_, ?_⟩
    · rw [pendingYield_eq, hzero]
      simp
    · have hcast : (acc.entitlement share : ℚ) < 1000000000 := by
        rw [← hscale]
        exact_mod_cast hlt
      have hpos : (0 : ℚ) ≤ acc.entitlement share := by positivity
      rw [claimableHuman_eq hle, hmicro, Nat.cast_zero, zero_div, sub_zero, abs_le]
      have hindex : (indexScale : ℚ) = 1000000000 := by norm_num [indexScale]
      rw [hindex]
      constructor <;> linarith

/-- Below one raw unit both sides are zero. -/
theorem pendingPayout_eq_zero (hle : share.yieldClaimedIndex ≤ acc.cumulativeYieldIndex)
    (hlt : acc.entitlement share < scale) : pendingPayout acc share = .ok 0 := by
  obtain ⟨payout, hok, -, -⟩ := (ShowsDeed.iff_lt hle).mpr hlt
  obtain ⟨-, -, -, rfl⟩ := pendingPayout_eq_ok.mp hok
  rw [hok, payout_eq_zero_iff.mpr hlt]

end Deed

/-! ## The wallet -/

section Wallet

variable {client : Reader} {accOf : ID → GlobalYieldAccumulator} {deeds : List GallyShare}
  {address : Address} {balances : TypeTag → Option ℕ}

/-- What the wallet RPC returns for a deed, as the explorer keeps it. -/
def Explorer.OwnedDeed.ofShare (d : GallyShare) : OwnedDeed where
  objectId := d.id
  assetId := d.assetId
  shareCount := (d.shareCount : ℚ) / micro
  shareCountMicro := d.shareCount
  shareIndexRaw := d.yieldClaimedIndex

/-- The deeds of the wallet are the shares it owns. -/
theorem useOwnedDeeds_ofShare :
    useOwnedDeeds (deeds.map ShareObject.ofShare) = deeds.map OwnedDeed.ofShare := by
  simp [useOwnedDeeds, ShareObject.ofShare, OwnedDeed.ofShare]

/-- The index the explorer computes with is the one of the accumulator. -/
theorem Explorer.Reader.Reads.pendingYield (hreads : client.Reads accOf deeds) {d : GallyShare}
    (hd : d ∈ deeds) (ds : List OwnedDeed) :
    (connectedHolding client address balances d.assetId ds).pendingYield =
      (ds.map fun o => Explorer.pendingYield (accOf d.assetId).cumulativeYieldIndex
        o.shareIndexRaw o.shareCountMicro).sum := by
  obtain ⟨info, hinfo, hid⟩ := hreads.asset d hd
  obtain ⟨o, ho, hindex⟩ := hreads.object d hd
  simp [connectedHolding, hinfo, hid, ho, hindex]

/-- Every holding belongs to the asset of some deed and sums over the deeds of it. -/
theorem mem_buildConnectedHoldings {h : LiveHolding}
    (hh : h ∈ buildConnectedHoldings client address
      (useOwnedDeeds (deeds.map ShareObject.ofShare)) balances) :
    ∃ d ∈ deeds, h = connectedHolding client address balances d.assetId
      ((deeds.filter (·.assetId = d.assetId)).map OwnedDeed.ofShare) := by
  rw [useOwnedDeeds_ofShare, buildConnectedHoldings, List.mem_map] at hh
  obtain ⟨a, ha, rfl⟩ := hh
  simp only [List.mem_eraseDups, List.mem_map, exists_exists_and_eq_and] at ha
  obtain ⟨d, hd, rfl⟩ := ha
  refine ⟨d, hd, ?_⟩
  rw [List.filter_map]
  rfl

/-- The explorer shows a wallet what it would be paid exactly when none of its deeds
    accrued a raw unit of USDC. -/
theorem shows_payable_iff (hreads : client.Reads accOf deeds)
    (hle : ∀ d ∈ deeds, d.yieldClaimedIndex ≤ (accOf d.assetId).cumulativeYieldIndex) :
    ((∀ d ∈ deeds, ShowsDeed (accOf d.assetId) d) ∧
      ∀ h ∈ buildConnectedHoldings client address
        (useOwnedDeeds (deeds.map ShareObject.ofShare)) balances, ShowsHolding accOf deeds h) ↔
    ∀ d ∈ deeds, ((accOf d.assetId).cumulativeYieldIndex - d.yieldClaimedIndex) * d.shareCount <
      1000000000 := by
  have hscale : (1000000000 : ℕ) = scale := by simp [scale]
  rw [hscale]
  constructor
  · rintro ⟨hshown, -⟩ d hd
    exact (ShowsDeed.iff_lt (hle d hd)).mp (hshown d hd)
  · intro hlt
    refine ⟨fun d hd => (ShowsDeed.iff_lt (hle d hd)).mpr (hlt d hd), fun h hh => ?_⟩
    obtain ⟨d, hd, rfl⟩ := mem_buildConnectedHoldings hh
    -- each deed of the asset is below one raw unit, so the sums are empty on both sides
    have hof : ∀ e ∈ deeds.filter (·.assetId = d.assetId), e ∈ deeds ∧ e.assetId = d.assetId := by
      simp
    refine ⟨(deeds.filter (·.assetId = d.assetId)).map fun _ => 0, ?_, ?_⟩
    · rw [List.map_map]
      refine List.map_congr_left fun e he => ?_
      obtain ⟨hmem, hasset⟩ := hof e he
      have hpay := pendingPayout_eq_zero (hle e hmem) (hlt e hmem)
      rw [hasset] at hpay
      exact hpay
    · rw [hreads.pendingYield hd, List.map_map]
      have hzero : ∀ e ∈ deeds.filter (·.assetId = d.assetId),
          Explorer.pendingYield (accOf d.assetId).cumulativeYieldIndex e.yieldClaimedIndex
            e.shareCount = 0 := by
        intro e he
        obtain ⟨hmem, hasset⟩ := hof e he
        have hpayout : (accOf e.assetId).payout e = 0 := payout_eq_zero_iff.mpr (hlt e hmem)
        rw [hasset] at hpayout
        rw [pendingYield_eq, hpayout]
        simp
      rw [List.sum_eq_zero]
      · simp
      · intro x hx
        obtain ⟨e, he, rfl⟩ := List.mem_map.mp hx
        exact hzero e he

end Wallet

/-! ## A wallet with one deed of one share -/

namespace Showcase

/-- An accumulator with the given index. -/
def acc (index : ℕ) : GlobalYieldAccumulator where
  id := 7
  assetId := 1
  cumulativeYieldIndex := index
  totalMintedShares := 1000000
  totalWrappedShares := 0
  rewardPool := 500000
  rolloverReserve := 0
  compensationPool := 0
  compensationUnlockMs := 0
  wrappingFrozen := false
  treasuryCap := { token := 3, totalSupply := 0 }
  closed := false
  lifetimeInvestorRevenue := 500000
  dustBound := 0

/-- One whole share of asset 1, claimed at index 0. -/
def deed : GallyShare where
  id := 5
  assetId := 1
  shareCount := 1000000
  yieldClaimedIndex := 0
  acquiredAtMs := 0

/-- A client that reads that accumulator. -/
def client (index : ℕ) : Reader where
  getAsset _ := some (some { id := 7, wrappingFrozen := false })
  getObject _ := some { tokenType := some 3,
                        cumulativeYieldIndex := some (Decimal.ofNat index) }

end Showcase

open Showcase in
/-- Half a USDC of revenue on one share: half a USDC is due, and half a millionth shown. -/
theorem shows_payable_half_usdc :
    ¬ ∀ (acc : GlobalYieldAccumulator) (share : GallyShare),
      share.yieldClaimedIndex ≤ acc.cumulativeYieldIndex → ShowsDeed acc share := by
  intro h
  have hlt := (ShowsDeed.iff_lt (Nat.zero_le _)).mp (h (acc 500000000) deed (Nat.zero_le _))
  simp [GlobalYieldAccumulator.entitlement, acc, deed, scale] at hlt

open Showcase in
/-- The same for one deed and an index of 500. -/
theorem shows_payable_iff_one_share :
    ((∀ d ∈ [deed], ShowsDeed (acc 500) d) ∧
      ∀ h ∈ buildConnectedHoldings (client 500) 9 (useOwnedDeeds ([deed].map ShareObject.ofShare))
        (fun _ => none), ShowsHolding (fun _ => acc 500) [deed] h) ↔
    ∀ d ∈ [deed], ((acc 500).cumulativeYieldIndex - d.yieldClaimedIndex) * d.shareCount <
      1000000000 := by
  have hreads : (client 500).Reads (fun _ => acc 500) [deed] :=
    { asset := fun _ _ => ⟨_, rfl, rfl⟩
      object := fun _ _ => ⟨_, rfl, rfl⟩ }
  have hle : ∀ d ∈ [deed], d.yieldClaimedIndex ≤ (acc 500).cumulativeYieldIndex := by
    intro d hd
    simp [List.mem_singleton.mp hd, deed]
  exact shows_payable_iff hreads hle

end Gally

import Gally.Chain.Ceiling
import Gally.Law.Yield

/-!
# Exits never abort

Claims, unwraps and redemptions read no configuration and meet no bound, in any reachable
state, except the `u64` counter behind the dust sweep. The counter has to hold what the
call itself adds to it: an unwrap that sweeps the reserve adds one for every 10^9 units it
distributes to, so it can abort while the counter is still below `u64::MAX`.

## Key results

- `exits_succeed`: with room in the counter, every exit succeeds
- `unwrap_aborts_below_max`: without, an unwrap aborts
-/

namespace Gally

open Checked

/-- The dust counter has room for an index advance, if an inflow makes one. -/
def GlobalYieldAccumulator.SweepRoom (acc : GlobalYieldAccumulator) : Prop :=
  acc.unwrapped = 0 ∨ acc.dustBound + acc.unwrapped / scale + 1 ≤ maxU64

/-! ## The guards of the exits -/

section Guards

variable {w : World} {g : ID} {acc : GlobalYieldAccumulator}

/-- A deed of an asset belongs to the engine of its accumulator. -/
theorem World.mem_shares {s : ID} {share : GallyShare} (hs : w.shares.get? s = some share)
    (ha : share.assetId = acc.assetId) : share ∈ (w.engine acc).shares :=
  Store.mem_group.mpr ⟨Store.mem_of_get? hs, ha⟩

/-- A coin of a token belongs to the engine of its accumulator. -/
theorem World.mem_coins {k : ID} {coin : TokenCoin} (hk : w.coins.get? k = some coin)
    (ht : coin.token = acc.treasuryCap.token) : coin ∈ (w.engine acc).coins :=
  Store.mem_group.mpr ⟨Store.mem_of_get? hk, ht⟩

/-- Whoever holds a deed can claim, as far as the dust counter has room. -/
theorem Reachable.claimGuards (hw : Reachable w) (hacc : w.accumulators.get? g = some acc)
    {s : ID} {share : GallyShare} (hs : w.shares.get? s = some share)
    (ha : share.assetId = acc.assetId) (hroom : acc.dustBound + acc.claimDust share ≤ maxU64) :
    ClaimGuards acc share := by
  obtain ⟨hb, hsolvent, hfits⟩ := (hw.replay hacc).sound
  have hmem := World.mem_shares hs ha
  obtain ⟨-, hproduct, hpayout, hfunded⟩ := hb.pending hsolvent hfits hmem
  exact {
    asset := ha
    snapshot := hb.snapshots share hmem
    -- a claim without growth of the index adds no dust
    dust := by
      intro hlt
      rw [GlobalYieldAccumulator.claimDust, if_pos hlt] at hroom
      exact hroom
    product := hproduct
    fits := hpayout
    funded := hfunded }

/-- Whoever holds a deed of a closed asset can redeem it, as far as the dust counter has room. -/
theorem Reachable.redeemGuards (hw : Reachable w) (hacc : w.accumulators.get? g = some acc)
    (hclosed : acc.closed = true) {s : ID} {share : GallyShare}
    (hs : w.shares.get? s = some share) (ha : share.assetId = acc.assetId)
    (hroom : acc.dustBound + acc.claimDust share ≤ maxU64) : RedeemGuards acc share where
  closed := hclosed
  claim := hw.claimGuards hacc hs ha hroom
  minted := (hw.replay hacc).sound.1.shareCount_le (World.mem_shares hs ha)

/-- What the auto-sweep of an unwrap adds to the dust bound. -/
def GlobalYieldAccumulator.sweepDust (acc : GlobalYieldAccumulator) (coin : TokenCoin) : ℕ :=
  if 0 < acc.rolloverReserve then (acc.afterBurn coin.value).unwrapped / scale + 1 else 0

/-- A coin that somebody holds passes the guards of an unwrap; only its sweep can fail. -/
theorem Reachable.unwrapGuards (hw : Reachable w) (hacc : w.accumulators.get? g = some acc)
    {k : ID} {coin : TokenCoin} (hk : w.coins.get? k = some coin)
    (ht : coin.token = acc.treasuryCap.token) (hpos : 0 < coin.value) :
    UnwrapGuards acc coin := by
  have hb := (hw.replay hacc).sound.1
  obtain ⟨hsupply, hwrapped⟩ := hb.value_le (World.mem_coins hk ht)
  have hle : acc.totalWrappedShares ≤ acc.totalMintedShares := hb.supply
  exact ⟨hpos, hsupply, hwrapped, Nat.le_trans (Nat.sub_le _ _) hle⟩

/-- The auto-sweep of an unwrap runs, or there is nothing to sweep. -/
theorem Reachable.autoSwept (hw : Reachable w) (hacc : w.accumulators.get? g = some acc)
    {k : ID} {coin : TokenCoin} (hk : w.coins.get? k = some coin)
    (ht : coin.token = acc.treasuryCap.token) (hpos : 0 < coin.value)
    (hroom : acc.dustBound + acc.sweepDust coin ≤ maxU64) :
    ∃ acc' swept, AutoSwept (acc.afterBurn coin.value) acc' swept := by
  have hguards := hw.unwrapGuards hacc hk ht hpos
  by_cases hreserve : 0 < acc.rolloverReserve
  · have hminted : acc.totalWrappedShares ≤ acc.totalMintedShares :=
      (hw.replay hacc).sound.1.supply
    -- the burnt units are unwrapped now, so the sweep has a denominator
    have hunwrapped : 0 < (acc.afterBurn coin.value).unwrapped := by
      have hle := hguards.wrapped
      simp only [GlobalYieldAccumulator.unwrapped, GlobalYieldAccumulator.afterBurn]
      omega
    obtain ⟨hproduct, hindex, hpool⟩ := hw.advance hacc (Nat.le_add_right _ _)
    have hincrement := (acc.afterBurn coin.value).increment_le acc.rolloverReserve
    rw [GlobalYieldAccumulator.sweepDust, if_pos hreserve] at hroom
    have hadvance : AdvanceGuards (acc.afterBurn coin.value) acc.rolloverReserve :=
      { supply := hguards.minted
        product := hproduct
        unwrapped := Nat.ne_of_gt hunwrapped
        index := Nat.le_trans (Nat.add_le_add_left hincrement _) hindex
        dust := hroom
        pool := hpool }
    exact ⟨_, _, Or.inl ⟨⟨hreserve, hunwrapped⟩,
      sweepRolloverInternal_eq_ok.mpr ⟨hadvance, rfl, rfl⟩⟩⟩
  · exact ⟨_, _, Or.inr ⟨fun h => hreserve h.1, rfl, rfl⟩⟩

end Guards

/-! ## The exits -/

/-- Every exit of the accumulator under `g` succeeds, provided its dust counter has room
    for what the call adds. -/
structure World.ExitsOpen (w : World) (g : ID) (acc : GlobalYieldAccumulator) : Prop where
  claimRewards : ∀ s share, w.shares.get? s = some share → share.assetId = acc.assetId →
    acc.dustBound + acc.claimDust share ≤ maxU64 →
    Succeeds (w.call (w.owner .share s) (.accumulator (.claimRewards g s)))
  unwrapCoins : ∀ k coin, w.coins.get? k = some coin → coin.token = acc.treasuryCap.token →
    0 < coin.value → acc.dustBound + acc.sweepDust coin ≤ maxU64 →
    Succeeds (w.call (w.owner .coin k) (.accumulator (.unwrapCoins g k)))
  redeemShare : acc.closed = true → ∀ s share, w.shares.get? s = some share →
    share.assetId = acc.assetId → acc.dustBound + acc.claimDust share ≤ maxU64 →
    Succeeds (w.call (w.owner .share s) (.accumulator (.redeemShare g s)))

/-- In every reachable world the exits are open to whoever holds the objects. -/
theorem Reachable.exitsOpen {w : World} (hw : Reachable w) {g : ID}
    {acc : GlobalYieldAccumulator} (hacc : w.accumulators.get? g = some acc) :
    w.ExitsOpen g acc where
  claimRewards s share hs ha hroom := by
    have hguards := hw.claimGuards hacc hs ha hroom
    exact ⟨_, World.accumulatorCall_eq_ok.mpr
      (.claimRewards hacc rfl hs hguards (claimRewards_eq_ok.mpr ⟨hguards, rfl⟩))⟩
  unwrapCoins k coin hk ht hpos hroom := by
    have hguards := hw.unwrapGuards hacc hk ht hpos
    obtain ⟨acc', swept, hsweep⟩ := hw.autoSwept hacc hk ht hpos hroom
    exact ⟨_, World.accumulatorCall_eq_ok.mpr (.unwrapCoins hacc rfl hk ht hguards hsweep
      (unwrapCoins_eq_ok.mpr ⟨hguards, rfl, swept, hsweep, rfl⟩))⟩
  redeemShare hclosed s share hs ha hroom := by
    have hguards := hw.redeemGuards hacc hclosed hs ha hroom
    exact ⟨_, World.accumulatorCall_eq_ok.mpr
      (.redeemShare hacc rfl hs hguards (redeemShare_eq_ok.mpr ⟨hguards, rfl⟩))⟩

/-- No overflow, no division by zero and no shortage is within reach of the exits: not in
    the payout of a deed, and not in distributing what is parked. -/
structure Engine.InRange (e : Engine) : Prop where
  payout : ∀ share ∈ e.shares, e.acc.entitlement share ≤ maxU128 ∧
    e.acc.payout share ≤ maxU64 ∧ e.acc.payout share ≤ e.acc.rewardPool
  parked : ∀ funds, funds ≤ e.acc.rolloverReserve + e.acc.compensationPool →
    scale * funds ≤ maxU128 ∧ e.acc.cumulativeYieldIndex + scale * funds ≤ maxU128 ∧
      e.acc.rewardPool + funds ≤ maxU64
  pools : e.acc.rewardPool + e.acc.rolloverReserve + e.acc.compensationPool ≤ maxU64
  unwrapped : ∀ coin ∈ e.coins, 0 < coin.value → 0 < (e.acc.afterBurn coin.value).unwrapped

/-- In every reachable state, under any configuration, every deed can be claimed on, every
    positive coin unwrapped, and every deed of a closed accumulator redeemed, as long as
    the dust counter can count what the call adds to it. -/
theorem exits_succeed {w : World} (hw : Reachable w) {g : ID} {acc : GlobalYieldAccumulator}
    (hacc : w.accumulators.get? g = some acc) :
    w.ExitsOpen g acc ∧ (w.engine acc).InRange := by
  -- the claims of all deeds, the moves of the index, the funds and the units that are out
  refine ⟨hw.exitsOpen hacc, ?_, fun funds hfunds => hw.advance hacc hfunds,
    hw.accFunds_le hacc, ?_⟩
  · intro share hshare
    obtain ⟨hb, hsolvent, hfits⟩ := (hw.replay hacc).sound
    exact (hb.pending hsolvent hfits hshare).2
  · intro coin hcoin hpos
    obtain ⟨hmem, ht⟩ := Store.mem_group.mp hcoin
    have hguards := hw.unwrapGuards hacc (Store.get?_key hmem) ht hpos
    have hminted := (hw.replay hacc).sound.1.supply
    have hle := hguards.wrapped
    simp only [World.engine, GlobalYieldAccumulator.unwrapped,
      GlobalYieldAccumulator.afterBurn] at hminted ⊢
    omega

/-- The deed of the project is open to a claim. -/
theorem exits_succeed_earning : ∃ w acc, (World.genesis 0).run Sample.earning = .ok w ∧
    w.accumulators.get? 8 = some acc ∧ acc.dustBound < maxU64 ∧
    w.ExitsOpen 8 acc ∧ (w.engine acc).InRange := by
  have hrun : returns ((World.genesis 0).run Sample.earning) (fun w =>
      (w.accumulators.get? 8).any fun acc => acc.dustBound < maxU64) = true := by
    decide +kernel
  obtain ⟨w, hw, hq⟩ := returns_iff.mp hrun
  obtain ⟨acc, hacc, hroom⟩ := (Option.any_eq_true _ _).mp hq
  exact ⟨w, acc, hw, hacc, of_decide_eq_true hroom, exits_succeed ⟨0, _, hw⟩ hacc⟩

/-! ## A counter that is nearly full

Deposits of one raw unit leave nothing for the investors, come back to the entity and add
four to the counter of a raise of 3 * 10^9 units. Once it is three below the maximum, the
investor wraps everything, one more deposit fills the reserve, and the sweep an unwrap
would make needs four more. -/

namespace Sample

/-- The accumulator of the large project with dust bound `d`. -/
def idleAcc (d : ℕ) : GlobalYieldAccumulator where
  id := 8
  assetId := 4
  cumulativeYieldIndex := 0
  totalMintedShares := 3000000000
  totalWrappedShares := 0
  rewardPool := 0
  rolloverReserve := 0
  compensationPool := 0
  compensationUnlockMs := 0
  wrappingFrozen := false
  treasuryCap := ⟨7, 0⟩
  closed := false
  lifetimeInvestorRevenue := 0
  dustBound := d

/-- The large project is operational, with dust bound `d` and one deed of all units. -/
structure Idle (w : World) (d : ℕ) : Prop where
  reachable : Reachable w
  asset : (w.assets.get? 4).any (fun asset => asset.state = .operational ∧ asset.id = 4 ∧
    asset.entity = 2 ∧ asset.revenueSplitBps = 5000) = true
  acc : w.accumulators.get? 8 = some (idleAcc d)
  share : w.shares.get? 9 = some ⟨9, 4, 3000000000, 0, 0⟩
  owner : w.owner .share 9 = 3
  config : w.config = ProtocolConfig.init 0 0
  clock : w.clockMs = 10000000
  nextId : w.nextId = 10
  funds : 100 ≤ w.wallets.balance 2

/-- The start: the large project after its raise, once the wrap cooldown is over. -/
def idleStart : List Action :=
  operational 3000000000 300000000 ++
  [.transaction 3 [.asset (.claimShares 4 8 6)], .tick 10000000]

/-- The idle world is reached by a run. -/
theorem idle_start : ∃ w, Idle w 0 := by
  have hrun : returns ((World.genesis 0).run idleStart) (fun w =>
      ((w.assets.get? 4).any (fun asset => asset.state = .operational ∧ asset.id = 4 ∧
        asset.entity = 2 ∧ asset.revenueSplitBps = 5000)) ∧
      w.accumulators.get? 8 = some (idleAcc 0) ∧
      w.shares.get? 9 = some ⟨9, 4, 3000000000, 0, 0⟩ ∧ w.owner .share 9 = 3 ∧
      w.config = ProtocolConfig.init 0 0 ∧ w.clockMs = 10000000 ∧ w.nextId = 10 ∧
      100 ≤ w.wallets.balance 2) = true := by
    decide +kernel
  obtain ⟨w, hw, hq⟩ := returns_iff.mp hrun
  obtain ⟨hasset, hacc, hshare, howner, hconfig, hclock, hnext, hfunds⟩ := of_decide_eq_true hq
  exact ⟨w, ⟨0, _, hw⟩, hasset, hacc, hshare, howner, hconfig, hclock, hnext, hfunds⟩

variable {w : World} {d : ℕ}

/-- A deposit that leaves nothing for the investors only counts. -/
theorem idleAcc_deposited (hd : d + 4 ≤ maxU64) : Deposited (idleAcc d) 0 (idleAcc (d + 4)) where
  lifetime := Nat.zero_le _
  supply := Nat.zero_le _
  -- units are unwrapped, so the deposit goes to the index and not to the reserve
  routed := by
    have hunwrapped : ((idleAcc d).counted 0).unwrapped = 3000000000 := rfl
    refine Or.inr ⟨by rw [hunwrapped]; decide, ?_, ?_⟩
    · exact {
        supply := Nat.zero_le _
        product := by simp
        unwrapped := by rw [hunwrapped]; decide
        index := by simp [GlobalYieldAccumulator.increment, GlobalYieldAccumulator.counted, idleAcc]
        dust := by
          rw [hunwrapped]
          simp only [GlobalYieldAccumulator.counted, idleAcc, scale]
          omega
        pool := by simp [GlobalYieldAccumulator.counted, idleAcc] }
    · rw [GlobalYieldAccumulator.afterAdvance, GlobalYieldAccumulator.increment, hunwrapped]
      simp [GlobalYieldAccumulator.counted, idleAcc, scale]

/-- The accumulator after everything was wrapped and `r` was routed to the reserve. -/
def wrappedAcc (d r : ℕ) : GlobalYieldAccumulator :=
  { idleAcc d with
    totalWrappedShares := 3000000000
    treasuryCap := ⟨7, 3000000000⟩
    rolloverReserve := r
    lifetimeInvestorRevenue := r }

/-- With everything wrapped a deposit fills the reserve. -/
theorem wrappedAcc_deposited (d : ℕ) : Deposited (wrappedAcc d 0) 49 (wrappedAcc d 49) where
  lifetime := by simp [wrappedAcc, maxU64]
  supply := Nat.le_refl _
  routed := Or.inl ⟨Nat.sub_self 3000000000,
    by simp [GlobalYieldAccumulator.counted, wrappedAcc, maxU64], rfl⟩

/-- What the scenario uses of the project and of the configuration. -/
structure Large (w : World) : Prop where
  asset : (w.assets.get? 4).any (fun asset => asset.state = .operational ∧ asset.id = 4 ∧
    asset.entity = 2 ∧ asset.revenueSplitBps = 5000) = true
  version : w.config.version = Gally.version
  unpaused : w.config.paused = false
  fee : w.config.protocolFeeBps = 100
  cooldown : w.config.minWrapDurationMs = 3600000

/-- An idle world is a large one. -/
theorem Idle.large (h : Idle w d) : Large w where
  asset := h.asset
  version := by rw [h.config]; rfl
  unpaused := by rw [h.config]; rfl
  fee := by rw [h.config]; rfl
  cooldown := by rw [h.config]; rfl

/-- The entity deposits 1 or 100 units, of which the investors get 0 or 49. A single unit comes
    back to it. -/
theorem Large.deposit (h : Large w) (payment : U64) {portion : ℕ}
    {acc acc' : GlobalYieldAccumulator}
    (hp : payment.val = 1 ∧ portion = 0 ∨ payment.val = 100 ∧ portion = 49)
    (hacc : w.accumulators.get? 8 = some acc) (hlinked : acc.assetId = 4)
    (hdeposited : Deposited acc portion acc') (hfunds : payment.val ≤ w.wallets.balance 2) :
    ∃ wallets events, w.call 2 (.asset (.depositRevenue 4 8 payment)) = .ok { w with
        accumulators := w.accumulators.put acc'
        wallets := wallets
        events := events } ∧
      (payment.val = 1 → wallets.balance 2 = w.wallets.balance 2) := by
  obtain ⟨asset, hasset, hq⟩ := (Option.any_eq_true _ _).mp h.asset
  obtain ⟨hstate, hid, hentity, hsplit⟩ := of_decide_eq_true hq
  -- fee one percent, half of the rest to the investors
  have hportion : asset.investorPortion w.config payment.val = portion := by
    rw [Asset.investorPortion, ProtocolConfig.fee, hsplit, h.fee]
    rcases hp with ⟨hp, rfl⟩ | ⟨hp, rfl⟩ <;> rw [hp] <;> rfl
  have hfee : w.config.fee payment.val = payment.val / 100 := by
    rw [ProtocolConfig.fee, h.fee]
    rcases hp with ⟨hp, -⟩ | ⟨hp, -⟩ <;> rw [hp] <;> rfl
  have hguards : DepositGuards asset acc w.config payment.val := {
    version := h.version
    unpaused := h.unpaused
    state := hstate
    linked := hlinked.trans hid.symm
    positive := by omega
    feeFits := by rw [hfee]; simp only [maxU64]; omega
    fee := by rw [hfee]; omega
    portionFits := by rw [hportion]; simp only [maxU64]; omega
    portion := by rw [hportion, hfee]; omega }
  rw [← hportion] at hdeposited
  refine ⟨_, _, World.callAsset_eq_ok.mpr (.depositRevenue hasset hacc hfunds hguards hdeposited
    (depositRevenue_eq_ok.mpr ⟨hguards, _, hdeposited, rfl⟩)), fun hone => ?_⟩
  -- of a single unit neither fee nor portion is left
  have hrest : asset.entityPortion w.config payment.val = 1 := by
    rw [Asset.entityPortion, hfee, hportion]
    omega
  have hpaid : asset.depositTransfers w.config payment.val = [(2, 1)] := by
    have hzero : w.config.fee payment.val = 0 := by omega
    simp [Asset.depositTransfers, hzero, hrest, hentity]
  rw [hpaid]
  simp only [Wallets.pay, List.foldl_cons, List.foldl_nil, Wallets.balance_credit,
    Wallets.balance_spend, if_true]
  omega

/-- In the idle world a claim is always possible. -/
theorem idleAcc_claimGuards (d : ℕ) (k : ID) :
    ClaimGuards (idleAcc d) ⟨k, 4, 3000000000, 0, 0⟩ where
  asset := rfl
  snapshot := Nat.le_refl _
  dust h := absurd h (Nat.lt_irrefl _)
  product := by simp [GlobalYieldAccumulator.entitlement, idleAcc]
  fits := by simp [GlobalYieldAccumulator.payout, GlobalYieldAccumulator.entitlement, idleAcc]
  funded := by simp [GlobalYieldAccumulator.payout, GlobalYieldAccumulator.entitlement, idleAcc]

/-- The court and the projects are as they were. -/
structure Untouched (w w' : World) : Prop where
  assets : w'.assets = w.assets
  pools : w'.pools = w.pools
  disputes : w'.disputes = w.disputes
  config : w'.config = w.config
  clock : w'.clockMs = w.clockMs

/-- Calls that leave the asset and the configuration keep a world large. -/
theorem Untouched.large {w w' : World} (h : Untouched w w') (hl : Large w) : Large w' where
  asset := h.assets ▸ hl.asset
  version := h.config ▸ hl.version
  unpaused := h.config ▸ hl.unpaused
  fee := h.config ▸ hl.fee
  cooldown := h.config ▸ hl.cooldown

/-- The investor wraps the deed `k` of all units. -/
theorem Large.wrap (h : Large w) {k : ID} (hacc : w.accumulators.get? 8 = some (idleAcc d))
    (hshare : w.shares.get? k = some ⟨k, 4, 3000000000, 0, 0⟩) (howner : w.owner .share k = 3)
    (hclock : 3600000 ≤ w.clockMs) :
    ∃ w', w.call 3 (.accumulator (.wrapShares 8 k)) = .ok w' ∧ Untouched w w' ∧
      w'.accumulators.get? 8 = some (wrappedAcc d 0) ∧
      w'.coins.get? w.nextId = some ⟨w.nextId, 7, 3000000000⟩ ∧
      w'.wallets.balance 2 = w.wallets.balance 2 := by
  -- nothing is paused or frozen, and the deed has rested for its hour
  have hguards : WrapGuards (idleAcc d) w.config ⟨k, 4, 3000000000, 0, 0⟩ w.clockMs := {
    version := h.version
    unpaused := h.unpaused
    unfrozen := rfl
    notClosed := rfl
    cooldownFits := by rw [h.cooldown]; simp [maxU64]
    cooldown := by rw [h.cooldown]; simpa using hclock
    claim := idleAcc_claimGuards d k
    wrapped := by simp [idleAcc, maxU64]
    supply := by simp [idleAcc, maxU64] }
  have hwrapped : (idleAcc d).afterWrap ⟨k, 4, 3000000000, 0, 0⟩ = wrappedAcc d 0 := by
    simp [GlobalYieldAccumulator.afterWrap, GlobalYieldAccumulator.afterClaim,
      GlobalYieldAccumulator.claimDust, idleAcc, wrappedAcc]
  have hcall := World.callAccumulator_eq_ok.mpr (.wrapShares hacc howner hshare hguards
    (wrapShares_eq_ok.mpr ⟨hguards, rfl⟩))
  rw [hwrapped] at hcall
  refine ⟨_, hcall, ⟨rfl, rfl, rfl, rfl, rfl⟩, Store.get?_put_self _ (wrappedAcc d 0),
    Store.get?_put_self _ (⟨w.nextId, 7, 3000000000⟩ : TokenCoin), ?_⟩
  rw [Wallets.balance_credit, if_neg (by decide)]

/-- The call of an idle deposit. -/
def idleDeposit : Call := .asset (.depositRevenue 4 8 1)

/-- Every idle deposit adds four to the dust counter and changes nothing else that matters. -/
theorem Idle.deposit (h : Idle w d) (hd : d + 4 ≤ maxU64) :
    ∃ w', w.call 2 idleDeposit = .ok w' ∧ Idle w' (d + 4) := by
  have hfunds : 1 ≤ w.wallets.balance 2 := Nat.le_trans (by decide) h.funds
  obtain ⟨wallets, events, hcall, hback⟩ :=
    h.large.deposit 1 (Or.inl ⟨rfl, rfl⟩) h.acc rfl (idleAcc_deposited hd) hfunds
  exact ⟨_, hcall, { h with
    reachable := h.reachable.call hcall
    acc := Store.get?_put_self _ (idleAcc (d + 4))
    funds := by rw [hback rfl]; exact h.funds }⟩

/-- Any number of such deposits can be made, up to the counter's limit. -/
theorem Idle.deposits (h : Idle w d) (n : ℕ) (hd : d + 4 * n ≤ maxU64) :
    ∃ w', Idle w' (d + 4 * n) := by
  induction n with
  | zero => exact ⟨w, h⟩
  | succ n ih =>
    obtain ⟨u, hu⟩ := ih (by omega)
    obtain ⟨w', -, hw'⟩ := hu.deposit (by omega)
    exact ⟨w', by rwa [Nat.mul_succ, ← Nat.add_assoc]⟩

/-- A deposit while everything is wrapped fills the reserve. -/
theorem Idle.reserve (h : Idle w d) : ∃ w', Reachable w' ∧
    w'.accumulators.get? 8 = some (wrappedAcc d 49) ∧
    w'.coins.get? 10 = some ⟨10, 7, 3000000000⟩ := by
  obtain ⟨u, hwrap, hsame, hacc, hcoin, hkept⟩ :=
    h.large.wrap h.acc h.share h.owner (by rw [h.clock]; decide)
  obtain ⟨wallets, events, hdeposit, -⟩ := (hsame.large h.large).deposit 100 (Or.inr ⟨rfl, rfl⟩)
    hacc rfl (wrappedAcc_deposited d) (hkept.symm ▸ h.funds)
  rw [h.nextId] at hcoin
  exact ⟨_, (h.reachable.call hwrap).call hdeposit, Store.get?_put_self _ (wrappedAcc d 49), hcoin⟩

end Sample

/-- The counter is below its maximum, and yet no transaction can unwrap the coin. -/
theorem unwrap_aborts_below_max : ∃ w g acc coin, Reachable w ∧
    w.accumulators.get? g = some acc ∧ acc.dustBound < maxU64 ∧ w.usdcSupply ≤ maxU64 ∧
    w.coins.get? coin.id = some coin ∧ coin.token = acc.treasuryCap.token ∧ 0 < coin.value ∧
    ∀ now sender newId, ¬ Succeeds (unwrapCoins acc coin now sender newId) := by
  -- as many deposits as bring the dust bound to three below its maximum
  obtain ⟨n, hn⟩ : ∃ n, 0 + 4 * n = maxU64 - 3 := ⟨4611686018427387903, by simp [maxU64]⟩
  obtain ⟨w, hw⟩ := Sample.idle_start
  obtain ⟨u, hu⟩ := hw.deposits n (hn ▸ Nat.sub_le _ _)
  rw [hn] at hu
  obtain ⟨v, hv, hacc, hcoin⟩ := hu.reserve
  refine ⟨v, 8, _, ⟨10, 7, 3000000000⟩, hv, hacc, ?_, hv.supply_le, hcoin, rfl, by decide, ?_⟩
  · simp [Sample.wrappedAcc, Sample.idleAcc, maxU64]
  · rintro now sender newId ⟨⟨acc', share, events⟩, h⟩
    obtain ⟨-, -, swept, hswept, -⟩ := unwrapCoins_eq_ok.mp h
    rcases hswept with ⟨-, hsweep⟩ | ⟨hidle, -⟩
    · -- the sweep needs room for four
      have hdust := (sweepRolloverInternal_eq_ok.mp hsweep).1.dust
      simp [Sample.wrappedAcc, Sample.idleAcc, GlobalYieldAccumulator.afterBurn,
        GlobalYieldAccumulator.unwrapped, scale, maxU64] at hdust
    · exact hidle ⟨by decide, by decide⟩

end Gally

import Gally.Library.LazyIndex
import Gally.Spec.AssetSpec
import Gally.Spec.ChainSpec

/-!
# The money engine of one asset

The accumulator of an asset together with everything that carries its units:
receipts, deeds and coins. `Engine.apply` runs the functions of `accumulator.move`
and `share.move` on these objects, and the package functions with arbitrary
arguments, so a run of the engine is any interleaving of them. `claimShares` is the
minting of a deed for a receipt without the lifecycle guards of the asset.

A call that claims returns a coin of USDC. `Engine.apply` hands these coins on as
`Payout`s, and `Engine.returned` collects what the calls of a run returned.

`apply_eq_ok` says once what each operation can do (`EngineStep`). Every operation is a
sequence of a few elementary moves (`Move`), which leave records.
-/

namespace Gally

open Checked

/-- An accumulator and the objects that carry its units. -/
structure Engine where
  acc : GlobalYieldAccumulator
  receipts : Store ContributionReceipt
  shares : Store GallyShare
  coins : Store TokenCoin

namespace Engine

/-- The units in deeds. -/
def deedUnits (e : Engine) : ℕ := e.shares.sum GallyShare.shareCount

/-- The units in unconverted receipts. -/
def receiptUnits (e : Engine) : ℕ := e.receipts.sum ContributionReceipt.amount

/-- The units in coins. -/
def coinUnits (e : Engine) : ℕ := e.coins.sum TokenCoin.value

/-- The scaled entitlements of all deeds. -/
def owed (e : Engine) : ℕ := e.shares.sum e.acc.entitlement

/-- The state `finalize_successful_raise` creates: the receipts add up to the minted
    units, and coins of the virgin token are worth nothing. -/
structure Initial (e : Engine) : Prop where
  created : ∃ assetId minted cap accId, newAccumulator assetId minted cap accId = .ok e.acc
  receipts : ∀ r ∈ e.receipts, r.assetId = e.acc.assetId
  units : e.receiptUnits = e.acc.totalMintedShares
  shares : e.shares = ∅
  coins : e.coinUnits = 0

end Engine

/-! ## Operations -/

/-- An operation on the engine, with the IDs of the objects it takes and creates. -/
inductive EngineOp where
  | claimShares (receipt newId : ID) (now : ℕ)
  | addRevenue (funds : ℕ)
  | addToCompensationPool (funds unlockMs : ℕ)
  | markClosed
  | claimRewards (share : ID) (sender : Address)
  | splitShare (share : ID) (amount : ℕ) (newId : ID)
  | mergeShares (target victim : ID) (sender : Address)
  | wrapShares (config : ProtocolConfig) (share : ID) (now : ℕ) (sender : Address) (newId : ID)
  | unwrapCoins (coin : ID) (now : ℕ) (sender : Address) (newId : ID)
  | redeemShare (share : ID) (sender : Address)
  | sweepRollover
  | sweepCompensation (now : ℕ)
  | adminSweepDust (config : ProtocolConfig)
  | zeroCoin (newId : ID)
  | destroyZero (coin : ID)
  | splitCoin (coin : ID) (amount : ℕ) (newId : ID)
  | joinCoins (coin other : ID)

/-- A new object gets an ID nothing else has. -/
def unused {α : Type} [Keyed α ID] (s : Store α) (k : ID) : Except Abort Unit :=
  ensure (s.get? k = none) .sameObject

@[simp] theorem unused_eq_ok {α : Type} [Keyed α ID] {s : Store α} {k : ID} {u : Unit} :
    unused s k = .ok u ↔ s.get? k = none := by
  cases h : s.get? k <;> simp [unused, ensure, guarded, h]

/-- The coin of USDC a call returned on a deed. -/
structure Payout where
  share : ID
  value : ℕ
  deriving DecidableEq, Repr

/-- Perform one operation: the engine after it, and the coins its call returned. -/
def Engine.apply (e : Engine) : EngineOp → Except Abort (Engine × List Payout)
  | .claimShares receiptId newId now => do
    let receipt ← shared e.receipts receiptId
    ensure (receipt.assetId = e.acc.assetId) eReceiptAssetMismatch
    unused e.shares newId
    return ({ e with
      receipts := e.receipts.delete receiptId
      shares := e.shares.put (receipt.deed newId e.acc.cumulativeYieldIndex now) }, [])
  | .addRevenue funds => do
    let (acc, _) ← addRevenue e.acc funds
    return ({ e with acc }, [])
  | .addToCompensationPool funds unlockMs => do
    let acc ← addToCompensationPool e.acc funds unlockMs
    return ({ e with acc }, [])
  | .markClosed => return ({ e with acc := markClosed e.acc }, [])
  | .claimRewards shareId sender => do
    let share ← shared e.shares shareId
    let (acc, share, payout, _) ← claimRewards e.acc share sender
    return ({ e with acc, shares := e.shares.put share }, [⟨shareId, payout⟩])
  | .splitShare shareId amount newId => do
    let share ← shared e.shares shareId
    unused e.shares newId
    let (parent, child) ← splitShare share amount newId
    return ({ e with shares := (e.shares.put parent).put child }, [])
  | .mergeShares targetId victimId sender => do
    let target ← shared e.shares targetId
    let victim ← shared e.shares victimId
    ensure (targetId ≠ victimId) .sameObject
    let (acc, target, claimed, _) ← mergeShares e.acc target victim sender
    return ({ e with acc, shares := (e.shares.delete victimId).put target },
      [⟨targetId, claimed⟩])
  | .wrapShares config shareId now sender newId => do
    let share ← shared e.shares shareId
    unused e.coins newId
    let (acc, coin, claimed, _) ← wrapShares e.acc config share now sender newId
    return ({ e with acc, shares := e.shares.delete shareId, coins := e.coins.put coin },
      [⟨shareId, claimed⟩])
  | .unwrapCoins coinId now sender newId => do
    let coin ← shared e.coins coinId
    unused e.shares newId
    let (acc, share, _) ← unwrapCoins e.acc coin now sender newId
    return ({ e with acc, coins := e.coins.delete coinId, shares := e.shares.put share }, [])
  | .redeemShare shareId sender => do
    let share ← shared e.shares shareId
    let (acc, proceeds, _) ← redeemShare e.acc share sender
    return ({ e with acc, shares := e.shares.delete shareId }, [⟨shareId, proceeds⟩])
  | .sweepRollover => do
    let (acc, _) ← sweepRollover e.acc
    return ({ e with acc }, [])
  | .sweepCompensation now => do
    let (acc, _) ← sweepCompensation e.acc now
    return ({ e with acc }, [])
  | .adminSweepDust config => do
    let (acc, _, _) ← adminSweepDust e.acc config
    return ({ e with acc }, [])
  | .zeroCoin newId => do
    unused e.coins newId
    return ({ e with
      coins := e.coins.put { id := newId, token := e.acc.treasuryCap.token, value := 0 } }, [])
  | .destroyZero coinId => do
    let coin ← shared e.coins coinId
    ensure (coin.value = 0) .nonZero
    return ({ e with coins := e.coins.delete coinId }, [])
  | .splitCoin coinId amount newId => do
    let coin ← shared e.coins coinId
    unused e.coins newId
    let rest ← takeOut coin.value amount
    return ({ e with
      coins := (e.coins.put { coin with value := rest }).put
        { id := newId, token := coin.token, value := amount } }, [])
  | .joinCoins coinId otherId => do
    let coin ← shared e.coins coinId
    let other ← shared e.coins otherId
    ensure (coinId ≠ otherId) .sameObject
    let value ← add64 coin.value other.value
    return ({ e with coins := (e.coins.delete otherId).put { coin with value } }, [])

/-- The successful operations, with the engines after them and the coins they return. -/
inductive EngineStep (e : Engine) : EngineOp → Engine → List Payout → Prop where
  | claimShares {r newId : ID} {now : ℕ} {receipt : ContributionReceipt}
      (hreceipt : e.receipts.get? r = some receipt)
      (belongs : receipt.assetId = e.acc.assetId) (fresh : e.shares.get? newId = none) :
      EngineStep e (.claimShares r newId now) { e with
        receipts := e.receipts.delete r
        shares := e.shares.put (receipt.deed newId e.acc.cumulativeYieldIndex now) } []
  | addRevenue {funds : ℕ} {acc : GlobalYieldAccumulator}
      (deposited : Deposited e.acc funds acc) :
      EngineStep e (.addRevenue funds) { e with acc } []
  | addToCompensationPool {funds unlockMs : ℕ}
      (fits : e.acc.compensationPool + funds ≤ maxU64) :
      EngineStep e (.addToCompensationPool funds unlockMs)
        { e with acc := e.acc.compensated funds unlockMs } []
  | markClosed : EngineStep e .markClosed { e with acc := markClosed e.acc } []
  | claimRewards {s : ID} {sender : Address} {share : GallyShare}
      (hshare : e.shares.get? s = some share) (guards : ClaimGuards e.acc share) :
      EngineStep e (.claimRewards s sender) { e with
        acc := e.acc.afterClaim share
        shares := e.shares.put (share.settledAt e.acc.cumulativeYieldIndex) }
        [⟨s, e.acc.payout share⟩]
  | splitShare {s newId : ID} {amount : ℕ} {share : GallyShare}
      (hshare : e.shares.get? s = some share) (fresh : e.shares.get? newId = none)
      (positive : 0 < amount) (less : amount < share.shareCount) :
      EngineStep e (.splitShare s amount newId) { e with
        shares := (e.shares.put { share with shareCount := share.shareCount - amount }).put
          { share with id := newId, shareCount := amount } } []
  | mergeShares {t v : ID} {sender : Address} {target victim : GallyShare}
      (htarget : e.shares.get? t = some target) (hvictim : e.shares.get? v = some victim)
      (distinct : t ≠ v) (guards : MergeGuards e.acc target victim) :
      EngineStep e (.mergeShares t v sender) { e with
        acc := (e.acc.afterClaim target).afterClaim victim
        shares := (e.shares.delete v).put
          (target.mergedWith victim e.acc.cumulativeYieldIndex) }
        [⟨t, e.acc.payout target + e.acc.payout victim⟩]
  | wrapShares {config : ProtocolConfig} {s newId : ID} {now : ℕ} {sender : Address}
      {share : GallyShare} (hshare : e.shares.get? s = some share)
      (fresh : e.coins.get? newId = none) (guards : WrapGuards e.acc config share now) :
      EngineStep e (.wrapShares config s now sender newId) { e with
        acc := e.acc.afterWrap share
        shares := e.shares.delete s
        coins := e.coins.put ⟨newId, e.acc.treasuryCap.token, share.shareCount⟩ }
        [⟨s, e.acc.payout share⟩]
  | unwrapCoins {k newId : ID} {now : ℕ} {sender : Address} {coin : TokenCoin}
      {acc : GlobalYieldAccumulator} {swept : List Event}
      (hcoin : e.coins.get? k = some coin) (fresh : e.shares.get? newId = none)
      (guards : UnwrapGuards e.acc coin)
      (sweep : AutoSwept (e.acc.afterBurn coin.value) acc swept) :
      EngineStep e (.unwrapCoins k now sender newId) { e with
        acc
        coins := e.coins.delete k
        shares := e.shares.put (e.acc.freshShare newId coin.value now) } []
  | redeemShare {s : ID} {sender : Address} {share : GallyShare}
      (hshare : e.shares.get? s = some share) (guards : RedeemGuards e.acc share) :
      EngineStep e (.redeemShare s sender) { e with
        acc := e.acc.afterRedeem share
        shares := e.shares.delete s } [⟨s, e.acc.payout share⟩]
  | sweepRollover (positive : 0 < e.acc.rolloverReserve)
      (guards : AdvanceGuards e.acc e.acc.rolloverReserve) :
      EngineStep e .sweepRollover
        { e with acc := e.acc.drained.afterAdvance e.acc.rolloverReserve } []
  | sweepCompensation {now : ℕ} {routed : GlobalYieldAccumulator}
      (due : e.acc.compensationUnlockMs ≤ now) (positive : 0 < e.acc.compensationPool)
      (supply : e.acc.totalWrappedShares ≤ e.acc.totalMintedShares)
      (route : Routed { e.acc with compensationPool := 0 } e.acc.compensationPool routed) :
      EngineStep e (.sweepCompensation now)
        { e with acc := { routed with wrappingFrozen := false } } []
  | adminSweepDust {config : ProtocolConfig} (guards : DustGuards e.acc config) :
      EngineStep e (.adminSweepDust config) { e with acc := e.acc.afterDust } []
  | zeroCoin {newId : ID} (fresh : e.coins.get? newId = none) :
      EngineStep e (.zeroCoin newId)
        { e with coins := e.coins.put ⟨newId, e.acc.treasuryCap.token, 0⟩ } []
  | destroyZero {k : ID} {coin : TokenCoin} (hcoin : e.coins.get? k = some coin)
      (zero : coin.value = 0) :
      EngineStep e (.destroyZero k) { e with coins := e.coins.delete k } []
  | splitCoin {k newId : ID} {amount : ℕ} {coin : TokenCoin}
      (hcoin : e.coins.get? k = some coin) (fresh : e.coins.get? newId = none)
      (le : amount ≤ coin.value) :
      EngineStep e (.splitCoin k amount newId) { e with
        coins := (e.coins.put { coin with value := coin.value - amount }).put
          ⟨newId, coin.token, amount⟩ } []
  | joinCoins {k j : ID} {coin other : TokenCoin} (hcoin : e.coins.get? k = some coin)
      (hother : e.coins.get? j = some other) (distinct : k ≠ j)
      (fits : coin.value + other.value ≤ maxU64) :
      EngineStep e (.joinCoins k j) { e with
        coins := (e.coins.delete j).put { coin with value := coin.value + other.value } } []

/-- The steps of the engine are its successful operations. -/
theorem Engine.apply_eq_ok {e e' : Engine} {op : EngineOp} {payouts : List Payout} :
    e.apply op = .ok (e', payouts) ↔ EngineStep e op e' payouts := by
  constructor
  -- what was fetched is peeled off; the function's own lemma gives its guards
  · cases op <;> simp only [Engine.apply, seq_eq_ok, shared_eq_ok, unused_eq_ok, ensure_eq_ok,
      takeOut_eq_ok, add64_eq_ok, return_eq_ok, Prod.exists, Prod.mk.injEq]
    case claimShares =>
      rintro ⟨_, hr, -, hb, -, hfresh, rfl, rfl⟩
      exact .claimShares hr hb hfresh
    case addRevenue =>
      rintro ⟨_, _, h, rfl, rfl⟩
      obtain ⟨hlife, hsupply, hr, -⟩ := addRevenue_eq_ok.mp h
      exact .addRevenue ⟨hlife, hsupply, hr⟩
    case addToCompensationPool =>
      rintro ⟨_, h, rfl, rfl⟩
      obtain ⟨hfits, rfl⟩ := addToCompensationPool_eq_ok.mp h
      exact .addToCompensationPool hfits
    case markClosed =>
      rintro ⟨rfl, rfl⟩
      exact .markClosed
    case claimRewards =>
      rintro ⟨_, hs, _, _, _, _, h, rfl, rfl⟩
      obtain ⟨hc, ⟨⟩⟩ := claimRewards_eq_ok.mp h
      exact .claimRewards hs hc
    case splitShare =>
      rintro ⟨_, hs, -, hfresh, _, _, h, rfl, rfl⟩
      obtain ⟨h0, hl, rfl, rfl⟩ := splitShare_eq_ok.mp h
      exact .splitShare hs hfresh h0 hl
    case mergeShares =>
      rintro ⟨_, ht, _, hv, -, hne, _, _, _, _, h, rfl, rfl⟩
      obtain ⟨hm, ⟨⟩⟩ := mergeShares_eq_ok.mp h
      exact .mergeShares ht hv hne hm
    case wrapShares =>
      rintro ⟨_, hs, -, hfresh, _, _, _, _, h, rfl, rfl⟩
      obtain ⟨hw, ⟨⟩⟩ := wrapShares_eq_ok.mp h
      exact .wrapShares hs hfresh hw
    case unwrapCoins =>
      rintro ⟨_, hk, -, hfresh, _, _, _, h, rfl, rfl⟩
      obtain ⟨hu, rfl, swept, hsw, -⟩ := unwrapCoins_eq_ok.mp h
      exact .unwrapCoins hk hfresh hu hsw
    case redeemShare =>
      rintro ⟨_, hs, _, _, _, h, rfl, rfl⟩
      obtain ⟨hr, ⟨⟩⟩ := redeemShare_eq_ok.mp h
      exact .redeemShare hs hr
    case sweepRollover =>
      rintro ⟨_, _, h, rfl, rfl⟩
      obtain ⟨h0, ha, ⟨⟩⟩ := sweepRollover_eq_ok.mp h
      exact .sweepRollover h0 ha
    case sweepCompensation =>
      rintro ⟨_, _, h, rfl, rfl⟩
      obtain ⟨hd, h0, hsupply, ⟨_, hr, rfl⟩, -⟩ := sweepCompensation_eq_ok.mp h
      exact .sweepCompensation hd h0 hsupply hr
    case adminSweepDust =>
      rintro ⟨_, _, _, h, rfl, rfl⟩
      obtain ⟨hd, ⟨⟩⟩ := adminSweepDust_eq_ok.mp h
      exact .adminSweepDust hd
    case zeroCoin =>
      rintro ⟨-, hfresh, rfl, rfl⟩
      exact .zeroCoin hfresh
    case destroyZero =>
      rintro ⟨_, hk, -, hz, rfl, rfl⟩
      exact .destroyZero hk hz
    case splitCoin =>
      rintro ⟨_, hk, -, hfresh, _, ⟨hle, rfl⟩, rfl, rfl⟩
      exact .splitCoin hk hfresh hle
    case joinCoins =>
      rintro ⟨_, hk, _, hj, -, hne, _, ⟨hfits, rfl⟩, rfl, rfl⟩
      exact .joinCoins hk hj hne hfits
  -- conversely a step names all that the operation fetches, and its guards let it through
  · intro h
    cases h <;> simp only [Engine.apply, seq_eq_ok, shared_eq_ok, unused_eq_ok, ensure_eq_ok,
      takeOut_eq_ok, add64_eq_ok, addRevenue_eq_ok, addToCompensationPool_eq_ok,
      claimRewards_eq_ok, splitShare_eq_ok, mergeShares_eq_ok, wrapShares_eq_ok,
      unwrapCoins_eq_ok, redeemShare_eq_ok, sweepRollover_eq_ok, sweepCompensation_eq_ok,
      adminSweepDust_eq_ok, return_eq_ok, Prod.exists, Prod.mk.injEq]
    case addRevenue deposited =>
      exact ⟨_, _, ⟨deposited.lifetime, deposited.supply, deposited.routed, rfl⟩, rfl, trivial⟩
    case addToCompensationPool fits =>
      exact ⟨_, ⟨fits, rfl⟩, rfl, trivial⟩
    case unwrapCoins hcoin fresh guards sweep =>
      exact ⟨_, hcoin, (), fresh, _, _, _, ⟨guards, rfl, _, sweep, rfl⟩, rfl, trivial⟩
    case sweepCompensation due positive supply route =>
      exact ⟨_, _, ⟨due, positive, supply, ⟨_, route, rfl⟩, rfl⟩, rfl, trivial⟩
    all_goals simp [*]

/-- The engine after one operation. -/
def Engine.step (e : Engine) (op : EngineOp) : Except Abort Engine := do
  let (e, _) ← e.apply op
  return e

/-- A step is a successful operation, whatever it paid. -/
theorem Engine.step_eq_ok {e e' : Engine} {op : EngineOp} :
    e.step op = .ok e' ↔ ∃ payouts, e.apply op = .ok (e', payouts) := by
  simp only [Engine.step, seq_eq_ok, return_eq_ok, Prod.exists]
  constructor
  · intro h
    obtain ⟨_, payouts, happly, rfl⟩ := h
    exact ⟨payouts, happly⟩
  · intro h
    obtain ⟨payouts, happly⟩ := h
    exact ⟨e', payouts, happly, rfl⟩

/-- Perform operations one after another. -/
def Engine.run (e : Engine) (ops : List EngineOp) : Except Abort Engine :=
  Run.exec Engine.step e ops

/-! ## Moves -/

/-- What a move leaves for the books. -/
inductive Record where
  /-- a claim on `share` when the index was `index` -/
  | settled (share : GallyShare) (index : ℕ)
  /-- an index advance by `funds` in the state `before` -/
  | advanced (funds : ℕ) (before : Engine)
  /-- units of object `src` went on in object `dst` -/
  | moved (src dst : ID)

/-- What the accumulator operations change besides index, supply and reward pool. -/
structure GlobalYieldAccumulator.Rebooked (acc acc' : GlobalYieldAccumulator) : Prop where
  shape : SameShape acc acc'
  index : acc'.cumulativeYieldIndex = acc.cumulativeYieldIndex
  rewardPool : acc'.rewardPool = acc.rewardPool
  dustBound : acc'.dustBound = acc.dustBound

/-- The engine after a claim on `share`. -/
def Engine.settle (e : Engine) (share : GallyShare) : Engine :=
  { e with
    acc := e.acc.afterClaim share
    shares := e.shares.put (share.settledAt e.acc.cumulativeYieldIndex) }

/-- The elementary moves. -/
inductive Move : Engine → List Record → Engine → Prop where
  /-- a receipt becomes a deed at the current index -/
  | convert {e : Engine} {receipt : ContributionReceipt} {newId : ID} {now : ℕ}
      (mem : e.receipts.get? receipt.id = some receipt)
      (belongs : receipt.assetId = e.acc.assetId) (fresh : e.shares.get? newId = none) :
      Move e [] { e with
        receipts := e.receipts.delete receipt.id
        shares := e.shares.put (receipt.deed newId e.acc.cumulativeYieldIndex now) }
  /-- flags, parked funds and counters that carry no units -/
  | rebook {e : Engine} {acc : GlobalYieldAccumulator} (h : e.acc.Rebooked acc) :
      Move e [] { e with acc }
  | settle {e : Engine} {share : GallyShare} (mem : e.shares.get? share.id = some share)
      (guards : ClaimGuards e.acc share) :
      Move e [.settled share e.acc.cumulativeYieldIndex] (e.settle share)
  | advance {e : Engine} {funds : ℕ} (guards : AdvanceGuards e.acc funds) :
      Move e [.advanced funds e] { e with acc := e.acc.afterAdvance funds }
  | split {e : Engine} {share : GallyShare} {amount : ℕ} {newId : ID}
      (mem : e.shares.get? share.id = some share) (fresh : e.shares.get? newId = none)
      (pos : 0 < amount) (lt : amount < share.shareCount) :
      Move e [.moved share.id newId] { e with
        shares := (e.shares.put { share with shareCount := share.shareCount - amount }).put
          { share with id := newId, shareCount := amount } }
  /-- two settled deeds become one -/
  | join {e : Engine} {target victim : GallyShare} {acquired : ℕ}
      (memt : e.shares.get? target.id = some target)
      (memv : e.shares.get? victim.id = some victim) (distinct : target.id ≠ victim.id)
      (sett : target.yieldClaimedIndex = e.acc.cumulativeYieldIndex)
      (setv : victim.yieldClaimedIndex = e.acc.cumulativeYieldIndex) :
      Move e [.moved victim.id target.id] { e with
        shares := (e.shares.delete victim.id).put { target with
          shareCount := target.shareCount + victim.shareCount, acquiredAtMs := acquired } }
  /-- a settled deed becomes a coin -/
  | wrap {e : Engine} {share : GallyShare} {newId : ID}
      (mem : e.shares.get? share.id = some share) (fresh : e.coins.get? newId = none)
      (settled : share.yieldClaimedIndex = e.acc.cumulativeYieldIndex) :
      Move e [.moved share.id newId]
        { e with
          acc := { e.acc with
            totalWrappedShares := e.acc.totalWrappedShares + share.shareCount
            treasuryCap := { e.acc.treasuryCap with
              totalSupply := e.acc.treasuryCap.totalSupply + share.shareCount } }
          shares := e.shares.delete share.id
          coins := e.coins.put
            { id := newId, token := e.acc.treasuryCap.token, value := share.shareCount } }
  /-- a coin becomes a fresh deed -/
  | unwrap {e : Engine} {coin : TokenCoin} {newId : ID} {now : ℕ}
      (mem : e.coins.get? coin.id = some coin) (fresh : e.shares.get? newId = none)
      (supply : coin.value ≤ e.acc.treasuryCap.totalSupply)
      (wrapped : coin.value ≤ e.acc.totalWrappedShares) :
      Move e [.moved coin.id newId] { e with
        acc := e.acc.afterBurn coin.value
        coins := e.coins.delete coin.id
        shares := e.shares.put (e.acc.freshShare newId coin.value now) }
  /-- a settled deed is burnt for good -/
  | burn {e : Engine} {share : GallyShare} (mem : e.shares.get? share.id = some share)
      (settled : share.yieldClaimedIndex = e.acc.cumulativeYieldIndex)
      (minted : share.shareCount ≤ e.acc.totalMintedShares) :
      Move e [] { e with
        acc := { e.acc with totalMintedShares := e.acc.totalMintedShares - share.shareCount }
        shares := e.shares.delete share.id }
  /-- the residue leaves once nothing is minted -/
  | sweepDust {e : Engine} (minted : e.acc.totalMintedShares = 0) :
      Move e [] { e with acc := { e.acc with rewardPool := 0, rolloverReserve := 0 } }
  | zeroCoin {e : Engine} {coin : TokenCoin} (fresh : e.coins.get? coin.id = none)
      (zero : coin.value = 0) :
      Move e [] { e with coins := e.coins.put coin }
  | destroyZero {e : Engine} {coin : TokenCoin} (mem : e.coins.get? coin.id = some coin)
      (zero : coin.value = 0) :
      Move e [] { e with coins := e.coins.delete coin.id }
  | splitCoin {e : Engine} {coin : TokenCoin} {amount : ℕ} {newId : ID}
      (mem : e.coins.get? coin.id = some coin) (fresh : e.coins.get? newId = none)
      (le : amount ≤ coin.value) :
      Move e [.moved coin.id newId] { e with
        coins := (e.coins.put { coin with value := coin.value - amount }).put
          { id := newId, token := coin.token, value := amount } }
  | joinCoins {e : Engine} {coin other : TokenCoin}
      (mem : e.coins.get? coin.id = some coin) (memo : e.coins.get? other.id = some other)
      (distinct : coin.id ≠ other.id) :
      Move e [.moved other.id coin.id] { e with
        coins := (e.coins.delete other.id).put { coin with value := coin.value + other.value } }

/-- A sequence of moves with all its records. -/
inductive Moves : Engine → List Record → Engine → Prop where
  | refl (e : Engine) : Moves e [] e
  | tail {e₁ e₂ e₃ : Engine} {h h' : List Record} (init : Moves e₁ h e₂) (last : Move e₂ h' e₃) :
      Moves e₁ (h ++ h') e₃

namespace Moves

/-- One move is a sequence of moves. -/
theorem single {e e' : Engine} {h : List Record} (m : Move e h e') : Moves e h e' := by
  simpa using tail (refl e) m

/-- Two sequences of moves make one. -/
theorem trans {e₁ e₂ e₃ : Engine} {h h' : List Record} (m : Moves e₁ h e₂) (n : Moves e₂ h' e₃) :
    Moves e₁ (h ++ h') e₃ := by
  induction n with
  | refl => simpa using m
  | tail _ last ih =>
    rw [← List.append_assoc]
    exact tail ih last

/-- An invariant of the moves is an invariant of their sequences. -/
theorem preserves {P : Engine → Prop} (hmove : ∀ {e h e'}, P e → Move e h e' → P e')
    {e e' : Engine} {h : List Record} (m : Moves e h e') (he : P e) : P e' := by
  induction m with
  | refl => exact he
  | tail _ last ih => exact hmove ih last

end Moves

/-! ## The records of an operation -/

/-- The claim on the deed under `k`. -/
def Engine.claimRecord (e : Engine) (k : ID) : List Record :=
  match e.shares.get? k with
  | some share => [.settled share e.acc.cumulativeYieldIndex]
  | none => []

/-- The advance an inflow makes, if something is unwrapped. -/
def Engine.routeRecord (e : Engine) (funds : ℕ) : List Record :=
  if e.acc.unwrapped = 0 then [] else [.advanced funds e]

/-- The engine with its rollover reserve taken out. -/
def Engine.drained (e : Engine) : Engine := { e with acc := e.acc.drained }

/-- The engine after `coin` became a deed, before the reserve is swept. -/
def Engine.unwrapped (e : Engine) (coin : TokenCoin) (newId : ID) (now : ℕ) : Engine :=
  { e with
    acc := e.acc.afterBurn coin.value
    coins := e.coins.delete coin.id
    shares := e.shares.put (e.acc.freshShare newId coin.value now) }

/-- The advance of an auto-sweep, if there is something to sweep onto something. -/
def Engine.sweepRecord (e : Engine) : List Record :=
  if 0 < e.acc.rolloverReserve ∧ 0 < e.acc.unwrapped then
    [.advanced e.acc.rolloverReserve e.drained] else []

/-- Everything a successful operation leaves for the books, in order. -/
def Engine.records (e : Engine) : EngineOp → List Record
  | .addRevenue funds =>
    ({ e with acc := { e.acc with
        lifetimeInvestorRevenue := e.acc.lifetimeInvestorRevenue + funds } } : Engine).routeRecord
      funds
  | .claimRewards share _ => e.claimRecord share
  | .splitShare share _ newId => [.moved share newId]
  | .mergeShares target victim _ =>
    e.claimRecord target ++ e.claimRecord victim ++ [.moved victim target]
  | .wrapShares _ share _ _ newId => e.claimRecord share ++ [.moved share newId]
  | .unwrapCoins k now _ newId =>
    match e.coins.get? k with
    | some coin => .moved k newId :: (e.unwrapped coin newId now).sweepRecord
    | none => []
  | .redeemShare share _ => e.claimRecord share
  | .sweepRollover => [.advanced e.acc.rolloverReserve e.drained]
  | .sweepCompensation _ =>
    ({ e with acc := { e.acc with compensationPool := 0 } } : Engine).routeRecord
      e.acc.compensationPool
  | .splitCoin coin _ newId => [.moved coin newId]
  | .joinCoins coin other => [.moved other coin]
  | _ => []

/-- The books of a run. -/
def Engine.history (e : Engine) : List EngineOp → List Record
  | [] => []
  | op :: ops =>
    match e.step op with
    | .ok e' => e.records op ++ e'.history ops
    | .error _ => []

/-- The coins the calls of a run returned. -/
def Engine.returned (e : Engine) : List EngineOp → List Payout
  | [] => []
  | op :: ops =>
    match e.apply op with
    | .ok (e', payouts) => payouts ++ e'.returned ops
    | .error _ => []

end Gally

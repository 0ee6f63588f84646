import Gally.Contract.Accumulator
import Gally.Explorer.Wire

/-!
# The connected wallet (`lib/data/position.ts`)

What the explorer shows a wallet as its position: the deeds it owns, read straight
from the chain, and the yield they can claim, computed from the index of the
accumulator. `BigInt` values are natural numbers; their division truncates.
-/

namespace Gally.Explorer

/-- Pending yield of a deed, in USDC, from the raw indices and the raw share count. -/
def pendingYield (currentIndexRaw shareIndexRaw countMicro : ℕ) : ℚ :=
  if currentIndexRaw ≤ shareIndexRaw ∨ countMicro = 0 then 0
  else
    let deltaScaled := (currentIndexRaw - shareIndexRaw) * countMicro
    ((deltaScaled / indexScale : ℕ) : ℚ) / micro / micro

/-- A raw deed index as USDC per share. -/
def indexHumanFromRaw (raw : ℕ) : ℚ := (raw : ℚ) / indexScale / micro

/-- Claimable yield from unscaled indices and an unscaled share count. -/
def claimableHuman (cumIndexHuman shareIndexHuman shareCount : ℚ) : ℚ :=
  let delta := cumIndexHuman - shareIndexHuman
  if 0 < delta ∧ 0 < shareCount then delta * shareCount else 0

/-! ## Owned deeds -/

/-- The fields of a `GallyShare` object as the wallet RPC returns them; integers are
    numerals. -/
structure ShareObject where
  objectId : ID
  assetId : ID
  shareCount : Option String
  yieldClaimedIndex : Option String

/-- The object of a deed on the chain. -/
def ShareObject.ofShare (share : GallyShare) : ShareObject where
  objectId := share.id
  assetId := share.assetId
  shareCount := some (Decimal.ofNat share.shareCount)
  yieldClaimedIndex := some (Decimal.ofNat share.yieldClaimedIndex)

/-- A deed of the connected wallet (`OwnedDeed`). -/
structure OwnedDeed where
  objectId : ID
  assetId : ID
  shareCount : ℚ
  shareCountMicro : ℕ
  shareIndexRaw : ℕ

/-- The deeds among the owned objects. -/
def useOwnedDeeds (objects : List ShareObject) : List OwnedDeed :=
  objects.map fun o =>
    let count := bigInt o.shareCount
    { objectId := o.objectId, assetId := o.assetId, shareCount := (count : ℚ) / micro,
      shareCountMicro := count, shareIndexRaw := bigInt o.yieldClaimedIndex }

/-! ## Holdings -/

/-- What `data.getAsset` tells about the accumulator of an asset. -/
structure AccumulatorInfo where
  id : ID
  wrappingFrozen : Bool

/-- An accumulator object as the RPC returns it: the type argument of its type string
    and its index as a numeral. -/
structure AccumulatorObject where
  tokenType : Option TypeTag
  cumulativeYieldIndex : Option String

/-- The reads `buildConnectedHoldings` makes; `none` is a read that failed. -/
structure Reader where
  getAsset : ID → Option (Option AccumulatorInfo)
  getObject : ID → Option AccumulatorObject

/-- A holding of the connected wallet in one asset. -/
structure LiveHolding where
  address : Address
  assetId : ID
  shareCount : ℚ
  wrapped : ℚ
  pendingYield : ℚ
  frozen : Bool

/-- The holding in one asset, from the deeds grouped under it. -/
def connectedHolding (client : Reader) (address : Address) (balances : TypeTag → Option ℕ)
    (assetId : ID) (deeds : List OwnedDeed) : LiveHolding :=
  let acc := (client.getAsset assetId).join
  let object := acc.bind fun a => client.getObject a.id
  -- an unreadable accumulator leaves the index at zero
  let rawIndex := object.elim 0 fun o => bigInt o.cumulativeYieldIndex
  let tokenType := object.bind AccumulatorObject.tokenType
  { address, assetId
    shareCount := (deeds.map OwnedDeed.shareCount).sum
    wrapped := tokenType.elim 0 fun t => ((balances t).getD 0 : ℚ) / micro
    pendingYield :=
      (deeds.map fun d => Explorer.pendingYield rawIndex d.shareIndexRaw d.shareCountMicro).sum
    frozen := acc.elim false AccumulatorInfo.wrappingFrozen }

/-- The holdings of the connected wallet, one for each asset it has a deed of, in the
    order of first appearance. -/
def buildConnectedHoldings (client : Reader) (address : Address) (deeds : List OwnedDeed)
    (balances : TypeTag → Option ℕ) : List LiveHolding :=
  (deeds.map OwnedDeed.assetId).eraseDups.map fun assetId =>
    connectedHolding client address balances assetId (deeds.filter (·.assetId = assetId))

end Gally.Explorer

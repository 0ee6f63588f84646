import Mathlib.Data.Prod.Lex
import Mathlib.Data.Sign.Defs
import Gally.Indexer.Schedules
import Gally.Library.Grouping
import Gally.Library.Keyset

/-!
# The holder ledger (`db/queries.rs`)

`list_holders` and `list_address_holdings` add up the amounts of `position_events` with a sign that
depends on the kind of the event, by address or by asset, and keep what comes out positive. The sums
are cast to `BIGINT`, and the query fails where one does not fit.
-/

namespace Gally.Indexer

open Relational

/-! ## Signed sums -/

/-- `::bigint`; the query fails on a value out of range. -/
def bigint (v : ℤ) : Option ℤ := if -2 ^ 63 ≤ v ∧ v < 2 ^ 63 then some v else none

/-- A value within the range of `BIGINT` is kept. -/
theorem bigint_of_range {v : ℤ} (h₀ : -2 ^ 63 ≤ v) (h₁ : v < 2 ^ 63) : bigint v = some v :=
  if_pos ⟨h₀, h₁⟩

/-- How an event counts in `share_count`. -/
def PositionKind.shareSign : PositionKind → SignType
  | .sharesClaimed | .sharesUnwrapped => 1
  | .sharesWrapped | .shareRedeemed => -1
  | .yieldClaimed | .contributionRefunded => 0

/-- How an event counts in `wrapped`. -/
def PositionKind.wrapSign : PositionKind → SignType
  | .sharesWrapped => 1
  | .sharesUnwrapped => -1
  | .sharesClaimed | .shareRedeemed | .yieldClaimed | .contributionRefunded => 0

/-- How an event counts in `holding`. -/
def PositionKind.holdingSign : PositionKind → SignType
  | .sharesClaimed => 1
  | .shareRedeemed => -1
  | .sharesWrapped | .sharesUnwrapped | .yieldClaimed | .contributionRefunded => 0

/-- `CASE event_type WHEN … THEN amount WHEN … THEN -amount ELSE 0 END`; a sum skips `NULL`. -/
def signedAmount (sign : PositionKind → SignType) (r : PositionRow) : Option ℤ :=
  match sign r.eventType with
  | .pos => some (r.amount.getD 0)
  | .neg => bigint (-(r.amount.getD 0))
  | .zero => some 0

/-- `COALESCE(SUM(CASE …), 0)::bigint` -/
def signedSum (sign : PositionKind → SignType) (rows : List PositionRow) : Option ℤ :=
  (rows.mapM (signedAmount sign)).bind fun amounts => bigint amounts.sum

/-- The later of two rows by `timestamp_ms`, and by `id`, in the order of which they come. -/
def later (best : Option PositionRow) (r : PositionRow) : Option PositionRow :=
  match best with
  | none => some r
  | some b => if b.eventMeta.timestampMs ≤ r.eventMeta.timestampMs then some r else some b

/-- `(array_agg(index_at_claim ORDER BY timestamp_ms DESC, id DESC) FILTER (WHERE event_type =
    'YieldClaimed'))[1]` -/
def yieldClaimedIndex (rows : List PositionRow) : Option ℕ :=
  ((rows.filter (·.eventType = .yieldClaimed)).foldl later none).bind (·.indexAtClaim)

/-- `MIN(timestamp_ms)` of the claims and unwraps. -/
def acquiredAtMs (rows : List PositionRow) : Option ℤ :=
  ((rows.filter fun r => r.eventType = .sharesClaimed ∨ r.eventType = .sharesUnwrapped).map
    (·.eventMeta.timestampMs)).min?

/-! ## Holders of an asset -/

/-- A row of `position_events`. -/
def Row.position? : Row → Option PositionRow
  | .position r => some r
  | _ => none

/-- The rows of `position_events`. -/
def positionRows (db : Relation Row) : List PositionRow := db.rows.filterMap Row.position?

/-- A row of the holder ledger. -/
structure HolderFoldRow where
  address : Address
  shareCount : ℤ
  wrapped : ℤ
  holding : ℤ
  acquiredAtMs : Option ℤ
  yieldClaimedIndex : Option ℕ
  deriving DecidableEq, Repr

/-- One group: the rows of an address. -/
def holderFold (address : Address) (rows : List PositionRow) : Option HolderFoldRow := do
  let shareCount ← signedSum PositionKind.shareSign rows
  let wrapped ← signedSum PositionKind.wrapSign rows
  let holding ← signedSum PositionKind.holdingSign rows
  return { address, shareCount, wrapped, holding
           acquiredAtMs := Indexer.acquiredAtMs rows
           yieldClaimedIndex := Indexer.yieldClaimedIndex rows }

/-- `GROUP BY actor`, and the groups with `holding > 0`. -/
def holders (db : Relation Row) (assetId : ID) : Option (List HolderFoldRow) :=
  (Grouping.collect PositionRow.actor holderFold
    ((positionRows db).filter (·.assetId = assetId))).map fun folds =>
      folds.filter (0 < ·.holding)

/-- `ORDER BY holding DESC, address ASC` -/
def HolderFoldRow.rank (r : HolderFoldRow) : ℤ ×ₗ Address := toLex (-r.holding, r.address)

def listHolders (db : Relation Row) (assetId : ID) (cursor : Option (ℤ ×ₗ Address)) (limit : ℕ) :
    Option (List HolderFoldRow) :=
  (holders db assetId).map fun rows => Keyset.select HolderFoldRow.rank rows cursor (limit + 1)

/-! ## Holdings of an address -/

/-- A row of the holdings of an address. -/
structure HoldingRow where
  assetId : ID
  shareCount : ℤ
  wrapped : ℤ
  yieldClaimedIndex : Option ℕ
  deriving DecidableEq, Repr

/-- One group: the rows of an asset, and the total it is selected by. -/
def holdingFold (assetId : ID) (rows : List PositionRow) : Option (HoldingRow × ℤ) := do
  let shareCount ← signedSum PositionKind.shareSign rows
  let wrapped ← signedSum PositionKind.wrapSign rows
  let total ← bigint (shareCount + wrapped)
  return ({ assetId, shareCount, wrapped, yieldClaimedIndex := Indexer.yieldClaimedIndex rows },
    total)

/-- The holding of an address in an asset, from its three sums. -/
theorem holdingFold_eq {a : ID} {rows : List PositionRow} {s v t : ℤ}
    (hshares : signedSum PositionKind.shareSign rows = some s)
    (hwrapped : signedSum PositionKind.wrapSign rows = some v) (htotal : bigint (s + v) = some t) :
    holdingFold a rows = some (⟨a, s, v, Indexer.yieldClaimedIndex rows⟩, t) := by
  simp [holdingFold, hshares, hwrapped, htotal]

/-- `GROUP BY asset_id`, and the groups with `share_count + wrapped > 0`. -/
def addressHoldings (db : Relation Row) (actor : Address) : Option (List HoldingRow) :=
  (Grouping.collect PositionRow.assetId holdingFold
    ((positionRows db).filter (·.actor = actor))).map fun folds =>
      (folds.filter (0 < ·.2)).map Prod.fst

def listAddressHoldings (db : Relation Row) (actor : Address) (cursor : Option ID) (limit : ℕ) :
    Option (List HoldingRow) :=
  (addressHoldings db actor).map fun rows =>
    Keyset.select HoldingRow.assetId rows cursor (limit + 1)

end Gally.Indexer

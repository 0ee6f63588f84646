import Gally.Indexer.Cursor
import Gally.Indexer.Holders
import Gally.Indexer.Reputation
import Mathlib.Data.String.Basic

/-!
# List endpoints (`list_*` of `db/queries.rs`, `api/routes`)

All lists are served in the same way: the rows that match, past the cursor and in the order of a
key, at most one more than the limit; the token of a page is its last key. A `Listing` has what the
lists differ in. Filters that name an id are given as the id; a text that is no id matches nothing.
-/

namespace Gally.Indexer

open Relational

/-- `clamp_limit` -/
def clampLimit (requested : Option ℤ) : ℕ := (max 1 (min (requested.getD 20) 100)).toNat

/-! ## Tables at the time of a request -/

/-- The values that lists are sorted by fit their columns. -/
def Row.Sized : Row → Prop
  | .asset r => Bigint r.createdAtMs
  | .validatorPool r => Bigint r.registeredAtMs
  | .dispute r => Bigint r.openedAtMs
  | .trancheSchedule _ => True
  | .governance r => Bigint r.eventMeta.timestampMs
  | .stateChange r => Bigint r.eventMeta.timestampMs
  | .stakeEvent r => Bigint r.eventMeta.timestampMs
  | .statusChange r => Bigint r.eventMeta.timestampMs
  | .raiseProgress r => Bigint r.eventMeta.timestampMs ∧ Bigint r.eventMeta.eventSeq
  | .position r => Bigint r.eventMeta.timestampMs ∧ Bigint r.eventMeta.eventSeq
  | .yieldIndex r => Bigint r.eventMeta.timestampMs
  | .trancheEvent r => -2 ^ 31 ≤ r.trancheIndex ∧ r.trancheIndex < 2 ^ 31
  | .juryVote _ | .jurorReward _ | .dustSweep _ | .accumulatorBalance _ => True

/-- The typed tables with their serial ids. -/
structure Snapshot where
  typed : Relation Row
  serial : Key → ℤ
  /-- Serial ids are primary keys. -/
  serial_inj : ∀ r ∈ typed.rows, ∀ r' ∈ typed.rows, ∀ {table d d' n n'},
    r.key = .event table d n → r'.key = .event table d' n' → serial r.key = serial r'.key →
      r.key = r'.key
  serial_sized : ∀ r ∈ typed.rows, Bigint (serial r.key)
  sized : ∀ r ∈ typed.rows, r.Sized
  /-- An event is a contribution or another change of a position. -/
  apart : ∀ p r, .position p ∈ typed.rows → .raiseProgress r ∈ typed.rows →
    (p.eventMeta.txDigest, p.eventMeta.eventSeq) ≠ (r.eventMeta.txDigest, r.eventMeta.eventSeq)

/-- A row with its serial id. -/
structure Serial (ρ : Type) where
  id : ℤ
  row : ρ

/-- The rows of a table with their serial ids. -/
def Snapshot.serials {ρ : Type} (s : Snapshot) (of : Row → Option ρ) : List (Serial ρ) :=
  s.typed.rows.filterMap fun r => (of r).map fun x => ⟨s.serial r.key, x⟩

/-! ## Lists -/

/-- The rows that match, and the key they are sorted by with its cursor. -/
structure Listing where
  Item : Type
  Key : Type
  order : LinearOrder Key
  matching : Snapshot → Option (List Item)
  key : Item → Key
  encode : Key → List String
  decode : List String → Option Key

attribute [instance] Listing.order

namespace Listing

/-- `limit + 1` rows past the cursor; nothing, if the query fails. -/
def query (L : Listing) (s : Snapshot) (cursor : Option L.Key) (limit : ℕ) :
    Option (List L.Item) :=
  (L.matching s).map fun rows => Keyset.select L.key rows cursor (limit + 1)

def encodeToken (L : Listing) (k : L.Key) : String := encodeCursor (L.encode k)

def decodeToken (L : Listing) (token : String) : Option L.Key :=
  (decodeCursor token).bind L.decode

/-- The response to a request with a `limit` and a `cursor`; nothing, if it is rejected. -/
def respond (L : Listing) (request : Snapshot × Option ℤ) (token : Option String) :
    Option (Keyset.Page L.Item String) := do
  let limit := clampLimit request.2
  let cursor ← token.elim (some none) fun t => (L.decodeToken t).map some
  let rows ← L.query request.1 cursor limit
  return .fromOverfetch rows limit fun r => L.encodeToken (L.key r)

/-- Rows of a table of events, by time. -/
def series {ρ : Type} (of : Row → Option ρ) (metaOf : ρ → EventMeta) (p : ρ → Bool) : Listing where
  Item := Serial ρ
  Key := ℤ ×ₗ ℤ
  order := inferInstance
  matching s := some ((s.serials of).filter fun r => p r.row)
  key r := toLex ((metaOf r.row).timestampMs, r.id)
  encode k := [Decimal.ofInt (ofLex k).1, Decimal.ofInt (ofLex k).2]
  decode parts := (decodeCursorII parts).map toLex

/-- Rows with an id, by the time at which they were made. -/
def objects {ρ : Type} (matching : Snapshot → List ρ) (madeAt : ρ → ℤ) (idOf : ρ → ID) :
    Listing where
  Item := ρ
  Key := ℤ ×ₗ ID
  order := inferInstance
  matching s := some (matching s)
  key r := toLex (madeAt r, idOf r)
  encode k := [Decimal.ofInt (ofLex k).1, idText (ofLex k).2]
  decode parts := (decodeCursorIS parts).bind fun (t, s) => (parseId s).map fun id => toLex (t, id)

end Listing

/-! ## Tables -/

def Row.governance? : Row → Option GovernanceRow
  | .governance r => some r
  | _ => none

def Row.stateChange? : Row → Option AssetStateChangeRow
  | .stateChange r => some r
  | _ => none

def Row.validatorPool? : Row → Option ValidatorPoolRow
  | .validatorPool r => some r
  | _ => none

def Row.raiseProgress? : Row → Option RaiseProgressRow
  | .raiseProgress r => some r
  | _ => none

def Row.yieldIndex? : Row → Option YieldIndexRow
  | .yieldIndex r => some r
  | _ => none

def Row.juryVote? : Row → Option JuryVoteRow
  | .juryVote r => some r
  | _ => none

def Row.schedule? : Row → Option TrancheScheduleRow
  | .trancheSchedule r => some r
  | _ => none

/-- The schedule of an asset, by tranche (`list_tranche_schedule`). -/
def listTrancheSchedule (db : Relation Row) (assetId : ID) : List TrancheScheduleRow :=
  ((db.rows.filterMap Row.schedule?).filter (·.assetId = assetId)).mergeSort
    fun a b => a.trancheIndex ≤ b.trancheIndex

/-! ## Endpoints -/

/-- `GET /assets`; `named` is the test `name ILIKE '%q%'`. -/
def listAssets (state : Option ℤ) (entity : Option Address) (category : Option ℤ)
    (named : Option (String → Bool)) : Listing :=
  .objects (fun s => (assetRows s.typed).filter fun r =>
      state.all (r.currentState = ·) ∧ entity.all (r.entity = ·) ∧ category.all (r.category = ·) ∧
        named.all fun p => r.name.any p)
    AssetRow.createdAtMs AssetRow.assetId

/-- `GET /assets/:asset_id/history` -/
def listAssetHistory (assetId : ID) : Listing :=
  .series Row.stateChange? (·.eventMeta) fun r => r.assetId = assetId

/-- The stored text of an event type. -/
def GovernanceKind.text : GovernanceKind → String
  | .protocolInitialized => "ProtocolInitialized"
  | .protocolParamChanged => "ProtocolParamChanged"
  | .protocolTreasuryChanged => "ProtocolTreasuryChanged"
  | .emergencyStopTriggered => "EmergencyStopTriggered"
  | .protocolResumed => "ProtocolResumed"

/-- A type without the suffix `Event`. -/
def normalizeType (t : String) : String :=
  if "Event".toList <:+ t.toList then String.ofList (t.toList.take (t.toList.length - 5)) else t

/-- `GET /governance` -/
def listGovernance (typeFilter : Option String) : Listing :=
  .series Row.governance? (·.eventMeta) fun r =>
    (typeFilter.map normalizeType).all (r.eventType.text = ·)

/-- `GET /validators` -/
def listValidators (status : Option ℤ) (validator : Option Address) : Listing :=
  .objects (fun s => (s.typed.rows.filterMap Row.validatorPool?).filter fun r =>
      status.all (r.currentStatus = ·) ∧ validator.all (r.validator = ·))
    ValidatorPoolRow.registeredAtMs ValidatorPoolRow.poolId

/-- `GET /assets/:asset_id/raise-progress` -/
def listRaiseProgress (assetId : ID) : Listing :=
  .series Row.raiseProgress? (·.eventMeta) fun r => r.assetId = assetId

/-- `GET /assets/:asset_id/yield` -/
def listYieldIndex (assetId : ID) : Listing :=
  .series Row.yieldIndex? (·.eventMeta) fun r => r.assetId = assetId

/-- `GET /assets/:asset_id/wrap-ratio` -/
def listWrapRatio (assetId : ID) : Listing :=
  .series Row.position? (·.eventMeta) fun r =>
    (r.eventType = .sharesWrapped ∨ r.eventType = .sharesUnwrapped) ∧ r.assetId = assetId

/-- `GET /assets/:asset_id/tranches`; the tranche of the cursor is cast to an `i32`. -/
def listTranches (assetId : ID) : Listing where
  Item := Serial TrancheEventRow
  Key := ℤ ×ₗ ℤ
  order := inferInstance
  matching s := some ((s.serials Row.trancheEvent?).filter fun r => r.row.assetId = assetId)
  key r := toLex (r.row.trancheIndex, r.id)
  encode k := [Decimal.ofInt (ofLex k).1, Decimal.ofInt (ofLex k).2]
  decode parts := (decodeCursorII parts).map fun (tranche, id) =>
    toLex (Int.bmod tranche (2 ^ 32), id)

/-- A dispute with its running tallies. -/
structure ListedDispute where
  dispute : DisputeRow
  votesGuilty : ℤ
  votesInnocent : ℤ

/-- `DISPUTE_SELECT` -/
def listedDisputes (db : Relation Row) : List ListedDispute :=
  (disputeRows db).map fun d =>
    let votes := (db.rows.filterMap Row.juryVote?).filter fun v => v.disputeId = d.disputeId
    { dispute := d
      votesGuilty := (votes.map JuryVoteRow.votesGuiltyAfter).max?.getD 0
      votesInnocent := (votes.map JuryVoteRow.votesInnocentAfter).max?.getD 0 }

/-- `GET /disputes`, and with `assetId` `GET /assets/:asset_id/disputes`. -/
def listDisputes (assetId : Option ID) (verdict : Option ℤ) (poolId : Option ID)
    (challenger : Option Address) : Listing :=
  .objects (fun s => (listedDisputes s.typed).filter fun d =>
      assetId.all (d.dispute.assetId = ·) ∧ verdict.all (d.dispute.verdict = some ·) ∧
        poolId.all (d.dispute.targetPoolId = ·) ∧ challenger.all (d.dispute.challenger = ·))
    (·.dispute.openedAtMs) (·.dispute.disputeId)

/-- The stored text of an event type. -/
def PositionKind.text : PositionKind → String
  | .sharesClaimed => "SharesClaimed"
  | .sharesWrapped => "SharesWrapped"
  | .sharesUnwrapped => "SharesUnwrapped"
  | .yieldClaimed => "YieldClaimed"
  | .shareRedeemed => "ShareRedeemed"
  | .contributionRefunded => "ContributionRefunded"

/-- A row of the union of positions and contributions. -/
structure PortfolioRow where
  id : ℤ
  eventMeta : EventMeta
  eventType : String
  assetId : ID
  actor : Address
  amount : Option ℤ
  shareObjectId : Option ID
  totalWrappedAfter : Option ℤ
  indexAtClaim : Option ℕ
  deriving DecidableEq, Repr

def PortfolioRow.ofPosition (r : Serial PositionRow) : PortfolioRow where
  id := r.id
  eventMeta := r.row.eventMeta
  eventType := r.row.eventType.text
  assetId := r.row.assetId
  actor := r.row.actor
  amount := r.row.amount
  shareObjectId := r.row.shareObjectId
  totalWrappedAfter := r.row.totalWrappedAfter
  indexAtClaim := r.row.indexAtClaim

def PortfolioRow.ofContribution (r : Serial RaiseProgressRow) : PortfolioRow where
  id := r.id
  eventMeta := r.row.eventMeta
  eventType := "CapitalContributed"
  assetId := r.row.assetId
  actor := r.row.contributor
  amount := some r.row.amount
  shareObjectId := none
  totalWrappedAfter := none
  indexAtClaim := none

/-- `UNION ALL` -/
def portfolioRows (s : Snapshot) : List PortfolioRow :=
  (s.serials Row.position?).map .ofPosition ++ (s.serials Row.raiseProgress?).map .ofContribution

/-- `GET /portfolio/:address` -/
def listPortfolio (actor : Address) (assetId : Option ID) (eventType : Option String) :
    Listing where
  Item := PortfolioRow
  Key := ℤ ×ₗ String ×ₗ ℤ
  order := inferInstance
  matching s := some ((portfolioRows s).filter fun r =>
    r.actor = actor ∧ assetId.all (r.assetId = ·) ∧ eventType.all (r.eventType = ·))
  key r := toLex (r.eventMeta.timestampMs,
    toLex (digestText r.eventMeta.txDigest, r.eventMeta.eventSeq))
  encode k :=
    [Decimal.ofInt (ofLex k).1, (ofLex (ofLex k).2).1, Decimal.ofInt (ofLex (ofLex k).2).2]
  decode parts := (decodeCursorISI parts).map fun (t, digest, seq) =>
    toLex (t, toLex (digest, seq))

/-- `GET /assets/:asset_id/holders`; the asset has to be known. The key has the holding negated,
    for the descending order. -/
def holdersList (assetId : ID) : Listing where
  Item := HolderFoldRow
  Key := ℤ ×ₗ Address
  order := inferInstance
  matching s := if (s.typed.get? (.asset assetId)).isSome then holders s.typed assetId else none
  key := HolderFoldRow.rank
  encode k := [Decimal.ofInt (-(ofLex k).1), idText (ofLex k).2]
  decode parts := (decodeCursorIS parts).bind fun (holding, s) =>
    (parseId s).map fun address => toLex (-holding, address)

/-- The holdings of `GET /address/:address`. -/
def holdingsList (actor : Address) : Listing where
  Item := HoldingRow
  Key := ID
  order := inferInstance
  matching s := addressHoldings s.typed actor
  key := HoldingRow.assetId
  encode k := [idText k]
  decode parts := parts.head?.bind parseId

/-- A list endpoint with its path parameters and filters. -/
inductive Endpoint where
  | assets (state : Option ℤ) (entity : Option Address) (category : Option ℤ)
      (named : Option (String → Bool))
  | history (assetId : ID)
  | governance (typeFilter : Option String)
  | validators (status : Option ℤ) (validator : Option Address)
  | raiseProgress (assetId : ID)
  | portfolio (actor : Address) (assetId : Option ID) (eventType : Option String)
  | holders (assetId : ID)
  | yieldCurve (assetId : ID)
  | wrapRatio (assetId : ID)
  | tranches (assetId : ID)
  | disputes (assetId : Option ID) (verdict : Option ℤ) (poolId : Option ID)
      (challenger : Option Address)
  | holdings (actor : Address)

def Endpoint.listing : Endpoint → Listing
  | .assets state entity category named => listAssets state entity category named
  | .history assetId => listAssetHistory assetId
  | .governance typeFilter => listGovernance typeFilter
  | .validators status validator => listValidators status validator
  | .raiseProgress assetId => listRaiseProgress assetId
  | .portfolio actor assetId eventType => listPortfolio actor assetId eventType
  | .holders assetId => holdersList assetId
  | .yieldCurve assetId => listYieldIndex assetId
  | .wrapRatio assetId => listWrapRatio assetId
  | .tranches assetId => listTranches assetId
  | .disputes assetId verdict poolId challenger => listDisputes assetId verdict poolId challenger
  | .holdings actor => holdingsList actor

end Gally.Indexer

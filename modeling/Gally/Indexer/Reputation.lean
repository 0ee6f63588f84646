import Gally.Indexer.Schema

/-!
# Track records of validators (`db/queries.rs`)

`validator_track_record` counts rows in their latest state, and `compute_reputation` is a function
of the counts.
-/

namespace Gally.Indexer

open Relational

/-- A row of `assets`. -/
def Row.asset? : Row → Option AssetRow
  | .asset r => some r
  | _ => none

/-- A row of `disputes`. -/
def Row.dispute? : Row → Option DisputeRow
  | .dispute r => some r
  | _ => none

/-- A row of `tranche_events`. -/
def Row.trancheEvent? : Row → Option TrancheEventRow
  | .trancheEvent r => some r
  | _ => none

def assetRows (db : Relation Row) : List AssetRow := db.rows.filterMap Row.asset?

def disputeRows (db : Relation Row) : List DisputeRow := db.rows.filterMap Row.dispute?

def trancheEventRows (db : Relation Row) : List TrancheEventRow :=
  db.rows.filterMap Row.trancheEvent?

section Tables

variable {db : Relation Row}

/-- Rows of objects have distinct ids. -/
theorem nodup_ids {ρ : Type} (db : Relation Row) (of : Row → Option ρ) (idOf : ρ → ID)
    (table : ID → Key) (hkey : ∀ row x, of row = some x → row.key = table (idOf x)) :
    ((db.rows.filterMap of).map idOf).Nodup := by
  have hrows : db.rows.Pairwise fun row row' => row.key ≠ row'.key := List.pairwise_map.mp db.nodup
  unfold List.Nodup
  rw [List.pairwise_map, List.pairwise_filterMap]
  refine hrows.imp fun hne x hx x' hx' heq => ?_
  rw [hkey _ x hx, hkey _ x' hx', heq] at hne
  exact hne rfl

/-- No asset is listed twice. -/
theorem nodup_assetIds : ((assetRows db).map AssetRow.assetId).Nodup := by
  refine nodup_ids db Row.asset? AssetRow.assetId .asset fun row x hx => ?_
  cases row <;> cases hx
  rfl

/-- No dispute is listed twice. -/
theorem nodup_disputeIds : ((disputeRows db).map DisputeRow.disputeId).Nodup := by
  refine nodup_ids db Row.dispute? DisputeRow.disputeId .dispute fun row x hx => ?_
  cases row <;> cases hx
  rfl

/-- The listed assets are those found under their keys. -/
theorem mem_assetRows {r : AssetRow} :
    r ∈ assetRows db ↔ db.get? (.asset r.assetId) = some (.asset r) := by
  unfold assetRows
  rw [List.mem_filterMap, Relation.get?_eq_some]
  constructor
  · intro ⟨row, hrow, hr⟩
    cases row <;> cases hr
    exact ⟨hrow, rfl⟩
  · intro ⟨hrow, _⟩
    exact ⟨_, hrow, rfl⟩

/-- The listed disputes are those found under their keys. -/
theorem mem_disputeRows {r : DisputeRow} :
    r ∈ disputeRows db ↔ db.get? (.dispute r.disputeId) = some (.dispute r) := by
  unfold disputeRows
  rw [List.mem_filterMap, Relation.get?_eq_some]
  constructor
  · intro ⟨row, hrow, hr⟩
    cases row <;> cases hr
    exact ⟨hrow, rfl⟩
  · intro ⟨hrow, _⟩
    exact ⟨_, hrow, rfl⟩

end Tables

/-- The counts embedded in `GET /validators/:pool_id`. -/
structure ValidatorTrackRecord where
  assetsVouched : ℕ
  milestonesApproved : ℕ
  assetsDefaulted : ℕ
  disputesFiledAgainst : ℕ
  disputesUpheld : ℕ
  deriving DecidableEq, Repr

def validatorTrackRecord (db : Relation Row) (poolId : ID) : ValidatorTrackRecord where
  assetsVouched := (assetRows db).countP fun r => r.validatorPoolId = some poolId
  milestonesApproved := (trancheEventRows db).countP fun r =>
    r.eventType = .approved ∧ r.poolId = some poolId
  assetsDefaulted := (assetRows db).countP fun r =>
    r.validatorPoolId = some poolId ∧ r.currentState = 6
  disputesFiledAgainst := (disputeRows db).countP fun r => r.targetPoolId = poolId
  disputesUpheld := (disputeRows db).countP fun r => r.targetPoolId = poolId ∧ r.verdict = some 1

/-- The reputation, from 0 to 100. -/
def computeReputation (tr : ValidatorTrackRecord) : ℤ :=
  let raw := 50 + min (2 * tr.milestonesApproved : ℤ) 30 +
    3 * (tr.assetsVouched - tr.assetsDefaulted) - 25 * tr.disputesUpheld -
    5 * tr.disputesFiledAgainst
  max 0 (min raw 100)

end Gally.Indexer

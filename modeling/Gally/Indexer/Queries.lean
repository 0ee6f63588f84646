import Mathlib.Data.Finset.Max
import Mathlib.Data.Prod.Lex
import Gally.Indexer.Schedules

/-!
# Read queries (`db/queries.rs`)

What the API selects from the typed tables. Where a query orders by columns that can tie and keeps
one row, PostgreSQL may keep any of the tied rows, so the query is a relation between the tables
and an answer.
-/

namespace Gally.Indexer

open Relational

/-! ## Accumulator balances -/

/-- The answer of `current_accumulator_balances` (`AccumulatorBalancesRow`). -/
structure AccumulatorBalances where
  rewardPool : Option ℤ
  rolloverReserve : Option ℤ
  compensationPool : Option ℤ
  compensationUnlockMs : Option ℤ
  wrappingFrozen : Option Bool
  deriving DecidableEq, Repr

/-- The rows of `accumulator_balances` about an asset. -/
def balanceRows (db : Relation Row) (assetId : ID) : List AccumulatorBalanceRow :=
  db.rows.filterMap fun
    | .accumulatorBalance r => if r.assetId = assetId then some r else none
    | _ => none

/-- The rows of an asset among the balance rows. -/
theorem mem_balanceRows {db : Relation Row} {a : ID} {r : AccumulatorBalanceRow} :
    r ∈ balanceRows db a ↔ .accumulatorBalance r ∈ db.rows ∧ r.assetId = a := by
  unfold balanceRows
  rw [List.mem_filterMap]
  constructor
  · intro ⟨row, hrow, heq⟩
    cases row with
    | accumulatorBalance q =>
      obtain ⟨hq, ⟨⟩⟩ := Option.ite_none_right_eq_some.mp heq
      exact ⟨hrow, hq⟩
    | _ => cases heq
  · intro ⟨hrow, ha⟩
    exact ⟨_, hrow, if_pos ha⟩

/-- The pair `(timestamp_ms, event_seq)`, compared by its first component first. -/
def EventMeta.time (m : EventMeta) : ℤ ×ₗ ℤ := toLex (m.timestampMs, m.eventSeq)

/-- `SELECT column … WHERE column IS NOT NULL ORDER BY timestamp_ms DESC, event_seq DESC LIMIT 1`:
    the value of a row that no other row with a value exceeds. -/
def Latest {γ : Type} (column : AccumulatorBalanceRow → Option γ)
    (rows : List AccumulatorBalanceRow) : Option γ → Prop
  | none => ∀ r ∈ rows, column r = none
  | some v => ∃ r ∈ rows, column r = some v ∧
      ∀ q ∈ rows, (column q).isSome = true → q.eventMeta.time ≤ r.eventMeta.time

instance {γ : Type} [DecidableEq γ] (column : AccumulatorBalanceRow → Option γ)
    (rows : List AccumulatorBalanceRow) : (v : Option γ) → Decidable (Latest column rows v)
  | none => inferInstanceAs (Decidable (∀ r ∈ rows, column r = none))
  | some v => inferInstanceAs (Decidable (∃ r ∈ rows, column r = some v ∧
      ∀ q ∈ rows, (column q).isSome = true → q.eventMeta.time ≤ r.eventMeta.time))

/-- The answers of `current_accumulator_balances`: each column by itself. -/
structure CurrentAccumulatorBalances (db : Relation Row) (assetId : ID)
    (b : AccumulatorBalances) : Prop where
  rewardPool : Latest (·.rewardPoolAfter) (balanceRows db assetId) b.rewardPool
  rolloverReserve : Latest (·.rolloverReserveAfter) (balanceRows db assetId) b.rolloverReserve
  compensationPool : Latest (·.compensationPoolAfter) (balanceRows db assetId) b.compensationPool
  compensationUnlockMs :
    Latest (·.compensationUnlockMs) (balanceRows db assetId) b.compensationUnlockMs
  wrappingFrozen : Latest (·.wrappingFrozen) (balanceRows db assetId) b.wrappingFrozen

/-- The query always has an answer. -/
theorem exists_latest {γ : Type} (column : AccumulatorBalanceRow → Option γ)
    (rows : List AccumulatorBalanceRow) : ∃ v, Latest column rows v := by
  -- either the column is never set, or some row that sets it comes last
  by_cases h : ∀ r ∈ rows, column r = none
  · exact ⟨none, h⟩
  · push Not at h
    obtain ⟨r₀, hr₀, hne⟩ := h
    have hmem : ∀ r, r ∈ (rows.filter fun r => (column r).isSome).toFinset ↔
        r ∈ rows ∧ (column r).isSome = true := by
      intro r
      rw [List.mem_toFinset, List.mem_filter]
    have hsome := Option.isSome_iff_ne_none.mpr hne
    obtain ⟨r, hr, hmax⟩ := Finset.exists_max_image _ (fun r => r.eventMeta.time)
      ⟨r₀, (hmem r₀).mpr ⟨hr₀, hsome⟩⟩
    obtain ⟨hin, hr'⟩ := (hmem r).mp hr
    obtain ⟨v, hv⟩ := Option.isSome_iff_exists.mp hr'
    exact ⟨some v, r, hin, hv, fun q hq hq' => hmax q ((hmem q).mpr ⟨hq, hq'⟩)⟩

/-- Some answer to the query about balances always exists. -/
theorem exists_balances (db : Relation Row) (assetId : ID) :
    ∃ b, CurrentAccumulatorBalances db assetId b := by
  obtain ⟨rewardPool, hreward⟩ := exists_latest (·.rewardPoolAfter) (balanceRows db assetId)
  obtain ⟨rolloverReserve, hrollover⟩ :=
    exists_latest (·.rolloverReserveAfter) (balanceRows db assetId)
  obtain ⟨compensationPool, hcompensation⟩ :=
    exists_latest (·.compensationPoolAfter) (balanceRows db assetId)
  obtain ⟨compensationUnlockMs, hunlock⟩ :=
    exists_latest (·.compensationUnlockMs) (balanceRows db assetId)
  obtain ⟨wrappingFrozen, hfrozen⟩ := exists_latest (·.wrappingFrozen) (balanceRows db assetId)
  exact ⟨⟨rewardPool, rolloverReserve, compensationPool, compensationUnlockMs, wrappingFrozen⟩,
    hreward, hrollover, hcompensation, hunlock, hfrozen⟩

end Gally.Indexer

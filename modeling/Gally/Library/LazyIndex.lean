import Gally.Library.Store
import Mathlib.Algebra.Order.Field.Basic
import Mathlib.Algebra.Order.Field.Rat
import Mathlib.Tactic.FieldSimp
import Mathlib.Tactic.GCongr
import Mathlib.Tactic.Linarith

/-!
# Lazy distribution through a global index

A distributor keeps one scaled index instead of paying every position at once. A
position has a number of units and a snapshot of the index; what it has accrued
since the snapshot is `(index - snapshot) * units`, in units of `1 / scale`. A
distribution of `funds` over `supply` units raises the index by the floor of
`scale * funds / supply`.

## Key results

- `owed_advance`: an advance accrues the increment on every unit in positions
- `increment_mul_le`, `scale_mul_lt_increment`: positions that hold at most the supply the
  funds were divided by accrue at most the scaled funds, and the floor holds back little
- `scale_mul_sum_floor_le`: rounding every position down pays at most what is owed
- `increment_mul_le_exact`, `exact_lt_increment_mul_add`: the increment is the exact
  rational share of a position up to one scaled unit for each unit it holds
-/

namespace LazyIndex

variable {α κ : Type*} [Keyed α κ] (units snap : α → ℕ)

/-- What position `x` has accrued at `index`, scaled. -/
def accrued (index : ℕ) (x : α) : ℕ := (index - snap x) * units x

/-- What all positions together have accrued at `index`, scaled. -/
def owed (index : ℕ) (s : Store α) : ℕ := s.sum (accrued units snap index)

/-- By how much a distribution of `funds` over `supply` units raises the index. -/
def increment (scale funds supply : ℕ) : ℕ := scale * funds / supply

omit [Keyed α κ] in
/-- An advance of the index adds its increment for every unit. -/
theorem accrued_advance {index : ℕ} {x : α} (h : snap x ≤ index) (δ : ℕ) :
    accrued units snap (index + δ) x = accrued units snap index x + δ * units x := by
  have hsplit : index + δ - snap x = (index - snap x) + δ := by omega
  rw [accrued, hsplit, Nat.add_mul, accrued]

omit [Keyed α κ] in
/-- A position settled at the current index has nothing accrued. -/
theorem accrued_eq_zero {index : ℕ} {x : α} (h : index ≤ snap x) :
    accrued units snap index x = 0 := by
  rw [accrued, Nat.sub_eq_zero_of_le h, Nat.zero_mul]

/-- An advance accrues the increment once for every unit. -/
theorem owed_advance {index : ℕ} {s : Store α} (h : ∀ x ∈ s, snap x ≤ index) (δ : ℕ) :
    owed units snap (index + δ) s = owed units snap index s + δ * s.sum units := by
  rw [owed, Store.sum_congr fun x hx => accrued_advance units snap (h x hx) δ, Store.sum_add,
    Store.sum_mul_left, owed]

/-- The floored increment pays the held units at most the funds. -/
theorem increment_mul_le {scale funds supply held : ℕ} (h : held ≤ supply) :
    increment scale funds supply * held ≤ scale * funds :=
  calc increment scale funds supply * held
    _ ≤ increment scale funds supply * supply := Nat.mul_le_mul_left _ h
    _ ≤ scale * funds := Nat.div_mul_le_self _ _

/-- What the floor of the increment holds back is less than one scaled unit for each unit of the
    supply. -/
theorem scale_mul_lt_increment {scale funds supply : ℕ} (hs : 0 < supply) :
    scale * funds < increment scale funds supply * supply + supply :=
  Nat.lt_div_mul_add hs

/-- Rounding every position down pays at most what is owed. -/
theorem scale_mul_sum_floor_le (scale index : ℕ) (s : Store α) :
    scale * s.sum (fun x => accrued units snap index x / scale) ≤ owed units snap index s := by
  rw [← Store.sum_mul_left]
  exact Store.sum_le_sum fun x _ => Nat.mul_div_le _ _

/-! ## The exact share

What a position of `held` units is due from one distribution is the rational
`funds * held / supply`. -/

/-- The exact share of `held` out of `supply` units in a distribution of `funds`. -/
def exactShare (funds held supply : ℕ) : ℚ := funds * held / supply

/-- What the floored increment pays is at most the exact share. -/
theorem increment_mul_le_exact {scale funds supply held : ℕ} (hs : 0 < supply) :
    ((increment scale funds supply * held : ℕ) : ℚ) ≤ scale * exactShare funds held supply := by
  have hs' : (0 : ℚ) < supply := by exact_mod_cast hs
  have hfloor : ((increment scale funds supply : ℕ) : ℚ) ≤ scale * funds / supply := by
    rw [le_div_iff₀ hs']
    exact_mod_cast Nat.div_mul_le_self (scale * funds) supply
  calc ((increment scale funds supply * held : ℕ) : ℚ)
    _ = (increment scale funds supply : ℕ) * held := by push_cast; rfl
    _ ≤ scale * funds / supply * held := by gcongr
    _ = scale * exactShare funds held supply := by rw [exactShare]; ring

/-- What the floored increment pays is less than one scaled unit per held unit below the exact
    share. -/
theorem exact_lt_increment_mul_add {scale funds supply held : ℕ} (hs : 0 < supply)
    (hh : 0 < held) :
    (scale : ℚ) * exactShare funds held supply <
      ((increment scale funds supply * held : ℕ) : ℚ) + held := by
  have hs' : (0 : ℚ) < supply := by exact_mod_cast hs
  have hh' : (0 : ℚ) < held := by exact_mod_cast hh
  have hceil : (scale : ℚ) * funds / supply < (increment scale funds supply : ℕ) + 1 := by
    rw [div_lt_iff₀ hs']
    exact_mod_cast Nat.lt_mul_of_div_lt (Nat.lt_succ_self (scale * funds / supply)) hs
  calc (scale : ℚ) * exactShare funds held supply
    _ = scale * funds / supply * held := by rw [exactShare]; ring
    _ < ((increment scale funds supply : ℕ) + 1) * held := by gcongr
    _ = ((increment scale funds supply * held : ℕ) : ℚ) + held := by push_cast; ring

/-- A position without units has no share. -/
theorem exactShare_zero (funds supply : ℕ) : exactShare funds 0 supply = 0 := by
  simp [exactShare]

end LazyIndex

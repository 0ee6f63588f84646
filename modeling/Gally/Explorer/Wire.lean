import Gally.Library.Decimal
import Mathlib.Data.Rat.Defs
import Mathlib.Algebra.Order.Field.Rat

/-!
# Wire decoders of the explorer (`lib/data/wire.ts`)

The two scale constants and the decoders of numeral strings. A JavaScript number
is read as an exact rational; `none` is `null` or `undefined`.
-/

namespace Gally.Explorer

/-- Scale factor of the `u128` yield index (`INDEX_SCALE`). -/
def indexScale : ℕ := 1000000000

/-- Raw units of one USDC and of one share (`MICRO`). -/
def micro : ℕ := 1000000

/-- Raw units as a number of USDC or shares. -/
def usdc (s : Option String) : ℚ :=
  match s with
  | none => 0
  | some s =>
    match s.toList with
    | [] => 0
    | '-' :: digits => -((((Decimal.parseDigits digits).getD 0 : ℕ) : ℚ) / micro)
    | digits => (((Decimal.parseDigits digits).getD 0 : ℕ) : ℚ) / micro

/-- An amount of raw units is read as that many millionths. -/
@[simp] theorem usdc_ofInt (v : ℤ) : usdc (some (Decimal.ofInt v)) = v / micro := by
  unfold usdc
  dsimp only
  cases v with
  | negSucc n =>
    rw [Decimal.ofInt, String.toList_ofList]
    show -((((Decimal.parseDigits (Nat.toDigits 10 (n + 1))).getD 0 : ℕ) : ℚ) / micro) = _
    rw [Decimal.parseDigits_toDigits, Option.getD_some, Int.cast_negSucc, neg_div]
  | ofNat n =>
    rw [Decimal.ofInt, Decimal.ofNat, String.toList_ofList]
    have hparse := Decimal.parseDigits_toDigits n
    split
    · next hnil =>
      rw [hnil] at hparse
      cases hparse
    · next digits hminus =>
      -- a minus sign is no digit
      rw [hminus] at hparse
      simp [Decimal.parseDigits, Char.isDigit] at hparse
    · rw [hparse]
      rfl

/-- The raw yield index of the indexer as USDC per share. -/
def indexHuman (s : Option String) : ℚ :=
  match s with
  | none => 0
  | some s => (((Decimal.parse s).getD 0 : ℕ) : ℚ) / indexScale / micro

/-- `BigInt(s ?? "0")`. -/
def bigInt (s : Option String) : ℕ := (Decimal.parse (s.getD "0")).getD 0

@[simp] theorem bigInt_ofNat (n : ℕ) : bigInt (some (Decimal.ofNat n)) = n := by
  simp [bigInt]

@[simp] theorem indexHuman_ofNat (n : ℕ) :
    indexHuman (some (Decimal.ofNat n)) = (n : ℚ) / indexScale / micro := by
  simp [indexHuman]

end Gally.Explorer

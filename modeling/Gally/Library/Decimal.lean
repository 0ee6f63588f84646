import Mathlib.Data.Nat.Notation
import Mathlib.Tactic.Ring

/-!
# Decimal numerals

Numbers that travel as text: the decimal numeral of a natural number or an
integer, and the parsers that accept strings of digits, one of them with a sign. A parsed
numeral is the number it was printed from (`parse_ofNat`, `parseInt_ofInt`).
-/

namespace Decimal

/-- The numeral of a natural number. -/
def ofNat (n : ℕ) : String := String.ofList (Nat.toDigits 10 n)

/-- The numeral of an integer, with a leading minus sign below zero. -/
def ofInt : ℤ → String
  | .ofNat n => ofNat n
  | .negSucc n => String.ofList ('-' :: Nat.toDigits 10 (n + 1))

/-- The value of a nonempty string of digits. -/
def parseDigits (cs : List Char) : Option ℕ :=
  if cs ≠ [] ∧ cs.all Char.isDigit then some (Nat.ofDigitChars 10 cs 0) else none

/-- The number a string of digits denotes. -/
def parse (s : String) : Option ℕ := parseDigits s.toList

/-- The digits of a number are read back as the number. -/
theorem parseDigits_toDigits (n : ℕ) : parseDigits (Nat.toDigits 10 n) = some n := by
  have hdigits : (Nat.toDigits 10 n).all Char.isDigit = true := by
    rw [List.all_eq_true]
    exact fun c hc => Nat.isDigit_of_mem_toDigits (by decide) (by decide) hc
  rw [parseDigits, if_pos ⟨Nat.toDigits_ne_nil, hdigits⟩, Nat.ofDigitChars_ten_toDigits]

@[simp] theorem parse_ofNat (n : ℕ) : parse (ofNat n) = some n := by
  rw [parse, ofNat, String.toList_ofList, parseDigits_toDigits]

/-- Different numbers have different numerals. -/
theorem ofNat_inj {m n : ℕ} : ofNat m = ofNat n ↔ m = n := by
  refine ⟨fun h => ?_, fun h => h ▸ rfl⟩
  have hparse : some m = some n := by rw [← parse_ofNat, ← parse_ofNat, h]
  exact Option.some.inj hparse

/-! ## Signed numerals -/

/-- The integer a string of digits denotes, with an optional sign. -/
def parseInt (s : String) : Option ℤ :=
  match s.toList with
  | '-' :: cs => (parseDigits cs).map fun n : ℕ => -(n : ℤ)
  | '+' :: cs => (parseDigits cs).map fun n : ℕ => (n : ℤ)
  | cs => (parseDigits cs).map fun n : ℕ => (n : ℤ)

/-- A numeral consists of digits. -/
theorem isDigit_of_mem_ofNat {n : ℕ} {c : Char} (h : c ∈ (ofNat n).toList) : c.isDigit = true := by
  rw [ofNat, String.toList_ofList] at h
  exact Nat.isDigit_of_mem_toDigits (by decide) (by decide) h

/-- The reader with a sign reads a numeral without one. -/
theorem parseInt_ofNat (n : ℕ) : parseInt (ofNat n) = some (n : ℤ) := by
  have hparse : parseDigits (ofNat n).toList = some n := parse_ofNat n
  unfold parseInt
  split
  -- a digit is neither of the signs
  · next hminus =>
    have hdigit := isDigit_of_mem_ofNat (n := n) (hminus ▸ List.mem_cons_self)
    exact absurd hdigit (by decide)
  · next hplus =>
    have hdigit := isDigit_of_mem_ofNat (n := n) (hplus ▸ List.mem_cons_self)
    exact absurd hdigit (by decide)
  · rw [hparse]
    rfl

/-- An integer is read back from its numeral. -/
theorem parseInt_ofInt (i : ℤ) : parseInt (ofInt i) = some i := by
  cases i with
  | ofNat n => exact parseInt_ofNat n
  | negSucc n =>
    have hdigits := parseDigits_toDigits (n + 1)
    unfold parseInt ofInt
    rw [String.toList_ofList]
    show (parseDigits (Nat.toDigits 10 (n + 1))).map (fun n : ℕ => -(n : ℤ)) = _
    rw [hdigits]
    rfl

/-- A numeral consists of digits and a sign. -/
theorem mem_ofInt {i : ℤ} {c : Char} (h : c ∈ (ofInt i).toList) : c = '-' ∨ c.isDigit = true := by
  cases i with
  | ofNat n => exact Or.inr (isDigit_of_mem_ofNat h)
  | negSucc n =>
    rw [ofInt, String.toList_ofList] at h
    rcases List.mem_cons.mp h with rfl | hmem
    · exact Or.inl rfl
    · exact Or.inr (Nat.isDigit_of_mem_toDigits (by decide) (by decide) hmem)

end Decimal

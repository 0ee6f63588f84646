import Mathlib.Data.List.Nodup
import Mathlib.Data.Nat.Digits.Lemmas

/-!
# Numerals in an alphabet

The digits of a number as characters of an alphabet, the highest first, after any number of zeros.
The value of such a numeral is the number (`value_padded`).
-/

namespace Numeral

variable {alphabet : List Char} {pad n d : ℕ} {c : Char}

/-- The character of a digit. -/
def digit (alphabet : List Char) (d : ℕ) : Char := alphabet[d]?.getD ' '

/-- `pad` zeros and the digits of `n`. -/
def padded (alphabet : List Char) (pad n : ℕ) : List Char :=
  List.replicate pad (digit alphabet 0) ++
    ((Nat.digits alphabet.length n).map (digit alphabet)).reverse

/-- The number that the digits denote. -/
def value (alphabet : List Char) (cs : List Char) : ℕ :=
  cs.foldl (fun n c => n * alphabet.length + alphabet.idxOf c) 0

/-- A digit below the base is a character of the alphabet. -/
theorem digit_eq (hd : d < alphabet.length) : digit alphabet d = alphabet[d] := by
  rw [digit, List.getElem?_eq_getElem hd, Option.getD_some]

/-- A digit is read back as its value. -/
theorem idxOf_digit (hnodup : alphabet.Nodup) (hd : d < alphabet.length) :
    alphabet.idxOf (digit alphabet d) = d := by
  rw [digit_eq hd]
  exact List.Nodup.idxOf_getElem hnodup d hd

/-- A digit is one of the characters of the alphabet. -/
theorem digit_mem (hd : d < alphabet.length) : digit alphabet d ∈ alphabet := by
  rw [digit_eq hd]
  exact List.getElem_mem hd

/-- A numeral consists of characters of the alphabet. -/
theorem mem_of_mem_padded (hbase : 1 < alphabet.length) (h : c ∈ padded alphabet pad n) :
    c ∈ alphabet := by
  rcases List.mem_append.mp h with hzero | hdigit
  · rw [List.eq_of_mem_replicate hzero]
    exact digit_mem (Nat.zero_lt_of_lt hbase)
  · obtain ⟨d, hd, rfl⟩ := List.mem_map.mp (List.mem_reverse.mp hdigit)
    exact digit_mem (Nat.digits_lt_base hbase hd)

/-- Leading zeros do not count. -/
theorem value_zeros (pad : ℕ) (hnodup : alphabet.Nodup) (hbase : 1 < alphabet.length) :
    value alphabet (List.replicate pad (digit alphabet 0)) = 0 := by
  unfold value
  induction pad with
  | zero => rfl
  | succ pad ih =>
    rw [List.replicate_succ, List.foldl_cons, idxOf_digit hnodup (Nat.zero_lt_of_lt hbase),
      Nat.zero_mul, Nat.zero_add]
    exact ih

/-- A numeral is read back as its number, whatever zeros stand in front. -/
theorem value_padded (hnodup : alphabet.Nodup) (hbase : 1 < alphabet.length) :
    value alphabet (padded alphabet pad n) = n := by
  -- reading the characters of digits is evaluating the digits
  have hdigits : ∀ ds : List ℕ, (∀ d ∈ ds, d < alphabet.length) →
      (ds.map (digit alphabet)).foldr (fun c n => n * alphabet.length + alphabet.idxOf c) 0 =
        Nat.ofDigits alphabet.length ds := by
    intro ds hds
    induction ds with
    | nil => rfl
    | cons d ds ih =>
      rw [List.map_cons, List.foldr_cons, ih fun d hd => hds d (List.mem_cons_of_mem _ hd),
        idxOf_digit hnodup (hds d List.mem_cons_self), Nat.ofDigits_cons]
      ring
  have hzeros := value_zeros pad hnodup hbase
  unfold value at hzeros ⊢
  rw [padded, List.foldl_append, hzeros, List.foldl_reverse,
    hdigits _ fun d hd => Nat.digits_lt_base hbase hd, Nat.ofDigits_digits]

/-- Different numbers have different numerals, whatever the padding. -/
theorem padded_injective (hnodup : alphabet.Nodup) (hbase : 1 < alphabet.length) {pad' n' : ℕ}
    (h : padded alphabet pad n = padded alphabet pad' n') : n = n' := by
  have hvalue : value alphabet (padded alphabet pad n) = n := value_padded hnodup hbase
  rw [← hvalue, h, value_padded hnodup hbase]

end Numeral

import Gally.Library.Store

/-!
# Holdings

Objects of a store are owned, carry a tag and are worth an amount. `Store.held` is what an owner
holds of a tag. Filing, replacing and removing one object changes the holdings of its owner in its
tag and no others.
-/

namespace Store

open Keyed

variable {α κ ω γ : Type} [Keyed α κ] [DecidableEq κ] [DecidableEq ω] [DecidableEq γ]

/-- What owner `o` holds of tag `t`. -/
def held (s : Store α) (owner : κ → ω) (tag : α → γ) (amount : α → ℕ) (t : γ) (o : ω) : ℕ :=
  s.sum fun x => if tag x = t ∧ owner (key x) = o then amount x else 0

variable {s : Store α} (owner : κ → ω) (tag : α → γ) (amount : α → ℕ) {x y : α} {k : κ}

/-- A new object goes to the holdings of its owner. -/
theorem held_put_of_fresh (h : s.get? (key x) = none) (o' : ω) (t : γ) (o : ω) :
    (s.put x).held (Function.update owner (key x) o') tag amount t o =
      (if tag x = t ∧ o' = o then amount x else 0) + s.held owner tag amount t o := by
  have hrest : s.held (Function.update owner (key x) o') tag amount t o =
      s.held owner tag amount t o := by
    refine sum_congr fun y hy => ?_
    rw [Function.update_of_ne (get?_eq_none.mp h y hy)]
  rw [← hrest, held, sum_put_of_fresh h, Function.update_self]
  rfl

/-- A removed object leaves them. -/
theorem held_delete (h : s.get? k = some x) (t : γ) (o : ω) :
    (if tag x = t ∧ owner k = o then amount x else 0) + (s.delete k).held owner tag amount t o =
      s.held owner tag amount t o := by
  obtain rfl := key_of_get? h
  exact sum_delete_of_get? h fun y => if tag y = t ∧ owner (key y) = o then amount y else 0

/-- A replaced object is exchanged in them. -/
theorem held_replace (h : s.get? k = some x) (hk : key y = key x) (t : γ) (o : ω) :
    (if tag x = t ∧ owner k = o then amount x else 0) + (s.put y).held owner tag amount t o =
      (if tag y = t ∧ owner k = o then amount y else 0) + s.held owner tag amount t o := by
  obtain rfl := key_of_get? h
  have hsum := sum_replace y h hk fun x => if tag x = t ∧ owner (key x) = o then amount x else 0
  rwa [hk] at hsum

/-- Dividing an object into two of the same owner changes no holdings. -/
theorem held_split {z : α} (h : s.get? k = some x) (hk : key y = key x)
    (hfresh : s.get? (key z) = none) (hy : tag y = tag x) (hz : tag z = tag x)
    (hamount : amount y + amount z = amount x) (t : γ) (o : ω) :
    ((s.put y).put z).held (Function.update owner (key z) (owner k)) tag amount t o =
      s.held owner tag amount t o := by
  -- the new key is free, so the two parts lie under different keys
  have hne : key y ≠ key z := by
    intro heq
    rw [← heq, hk, get?_key (mem_of_get? h)] at hfresh
    cases hfresh
  rw [held_put_of_fresh _ _ _ ((get?_put_ne hne).trans hfresh)]
  have hrest := held_replace owner tag amount h hk t o
  rw [hy] at hrest
  rw [hz]
  -- the parts belong to the owner of the whole and carry its tag
  by_cases hmine : tag x = t ∧ owner k = o
  · simp only [if_pos hmine] at hrest ⊢
    omega
  · simp only [if_neg hmine] at hrest ⊢
    omega

/-- Joining two objects of the same owner changes none either. -/
theorem held_join {j : κ} {z : α} (h : s.get? k = some x) (hz : s.get? j = some z) (hne : k ≠ j)
    (hk : key y = key x) (hy : tag y = tag x) (htag : tag z = tag x) (howner : owner j = owner k)
    (hamount : amount y = amount x + amount z) (t : γ) (o : ω) :
    ((s.delete j).put y).held owner tag amount t o = s.held owner tag amount t o := by
  have hgone := held_delete owner tag amount hz t o
  have hjoin := held_replace owner tag amount
    ((get?_delete_ne hne).trans h) hk t o
  rw [howner, htag] at hgone
  rw [hy] at hjoin
  -- all three objects belong to one owner and carry one tag
  by_cases hmine : tag x = t ∧ owner k = o
  · simp only [if_pos hmine] at hgone hjoin
    omega
  · simp only [if_neg hmine] at hgone hjoin
    omega

omit [DecidableEq κ] in
/-- Nobody holds more of a tag than there is of it. -/
theorem held_le_group (t : γ) (o : ω) :
    s.held owner tag amount t o ≤ (s.group tag t).sum amount := by
  rw [sum_group]
  refine sum_le_sum fun x _ => ?_
  by_cases ht : tag x = t
  · rw [if_pos ht]
    split <;> omega
  · rw [if_neg ht, if_neg fun h => ht h.1]

omit [DecidableEq κ] in
/-- What is held is held in some object. -/
theorem exists_of_held_pos {t : γ} {o : ω} (h : 0 < s.held owner tag amount t o) :
    ∃ x ∈ s, tag x = t ∧ owner (key x) = o := by
  by_contra hnone
  refine absurd (sum_eq_zero fun x hx => ?_) h.ne'
  rw [if_neg fun hholds => hnone ⟨x, hx, hholds⟩]

end Store

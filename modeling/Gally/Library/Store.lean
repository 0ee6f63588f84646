import Mathlib.Algebra.BigOperators.Group.List.Basic
import Mathlib.Algebra.BigOperators.Ring.List
import Mathlib.Algebra.Order.BigOperators.Group.List
import Mathlib.Data.List.Nodup
import Mathlib.Tactic.Ring

/-!
# Stores of keyed objects

A `Store α` is a finite collection of objects in which no two objects have the
same key. The invariant is a field, so a store with two objects under one key
cannot be built. Objects carry their key themselves (`Keyed.key`), so looking up
`k` can only return an object whose key is `k`.

## Key results

- `get?_put`, `get?_delete`: lookups after an update
- `sum_put_of_fresh`, `sum_put_of_get?`, `sum_delete_of_get?`: how a sum over the
  store changes when one object is added, replaced or removed
- `filter_put_of_pos`, `filter_put_of_neg`, `filter_delete`: the part of a store
  that satisfies a predicate changes only by updates of such objects
- `group`: the objects that belong together, and which updates a group sees
- `Keeps`: every object stays, up to an allowed change
- `Spares`: the objects under some keys stay as they are
- `Below`: a store whose keys are all below the next one to be used
-/

/-- Objects that carry a key of type `κ`. -/
class Keyed (α : Type*) (κ : outParam Type*) where
  key : α → κ

/-- A finite collection of objects with pairwise distinct keys. -/
structure Store (α : Type*) {κ : Type*} [Keyed α κ] where
  entries : List α
  nodup : (entries.map Keyed.key).Nodup

namespace Store

open Keyed (key)

variable {α κ M : Type*} [Keyed α κ]

instance : Membership α (Store α) where
  mem s x := x ∈ s.entries

/-- An object is in the store if it is one of the entries. -/
theorem mem_def {s : Store α} {x : α} : x ∈ s ↔ x ∈ s.entries := Iff.rfl

/-- A store is its list of entries. -/
@[ext] theorem ext {s t : Store α} (h : s.entries = t.entries) : s = t := by
  cases s; cases t; simp_all

/-- The store without objects. -/
def empty : Store α := ⟨[], by simp⟩

instance : EmptyCollection (Store α) := ⟨empty⟩

@[simp] theorem entries_empty : (∅ : Store α).entries = [] := rfl

@[simp] theorem not_mem_empty (x : α) : x ∉ (∅ : Store α) := by
  simp [mem_def]

/-- A store without objects is the empty one. -/
theorem eq_empty {s : Store α} (h : ∀ x, x ∉ s) : s = ∅ :=
  ext (List.eq_nil_iff_forall_not_mem.mpr h)

/-- Two objects of one store under the same key are the same object. -/
theorem eq_of_key_eq {s : Store α} {x y : α} (hx : x ∈ s) (hy : y ∈ s)
    (h : key x = key y) : x = y :=
  List.inj_on_of_nodup_map s.nodup hx hy h

/-- The part of the store that satisfies `p`. -/
def filter (p : α → Bool) (s : Store α) : Store α where
  entries := s.entries.filter p
  nodup := s.nodup.sublist (List.filter_sublist.map _)

@[simp] theorem mem_filter {p : α → Bool} {s : Store α} {x : α} :
    x ∈ s.filter p ↔ x ∈ s ∧ p x = true := by
  simp [mem_def, filter]

@[simp] theorem filter_empty (p : α → Bool) : (∅ : Store α).filter p = ∅ := rfl

/-- The sum of `f` over all objects of the store. -/
def sum [AddCommMonoid M] (s : Store α) (f : α → M) : M := (s.entries.map f).sum

@[simp] theorem sum_empty [AddCommMonoid M] (f : α → M) : (∅ : Store α).sum f = 0 := rfl

/-! ## Sums -/

section Sums

variable [AddCommMonoid M]

/-- The sum depends on the summand only at the objects of the store. -/
theorem sum_congr {s : Store α} {f g : α → M} (h : ∀ x ∈ s, f x = g x) : s.sum f = s.sum g := by
  rw [sum, sum, List.map_congr_left h]

/-- Two summands can be added up one after the other. -/
theorem sum_add (s : Store α) (f g : α → M) :
    s.sum (fun x => f x + g x) = s.sum f + s.sum g := by
  simp only [sum]
  induction s.entries with
  | nil => simp
  | cons x xs ih => simp only [List.map_cons, List.sum_cons, ih]; exact add_add_add_comm ..

/-- A sum of zeros. -/
theorem sum_zero (s : Store α) : s.sum (fun _ => (0 : M)) = 0 := by
  simp [sum]

/-- Objects outside a filter contribute nothing to a sum of terms that vanish on
    them. -/
theorem sum_filter_eq (s : Store α) (p : α → Bool) (f : α → M) :
    (s.filter p).sum f = s.sum (fun x => if p x then f x else 0) := by
  simp only [sum, filter]
  induction s.entries with
  | nil => simp
  | cons x xs ih => by_cases h : p x = true <;> simp [h, ih]

end Sums

/-- One summand is at most the sum. -/
theorem le_sum {s : Store α} {x : α} (h : x ∈ s) (f : α → ℕ) : f x ≤ s.sum f :=
  List.single_le_sum (by simp) _ (List.mem_map_of_mem h)

/-- Sums are compared summand by summand. -/
theorem sum_le_sum {s : Store α} {f g : α → ℕ} (h : ∀ x ∈ s, f x ≤ g x) : s.sum f ≤ s.sum g :=
  List.sum_le_sum h

/-- A common factor moves out of the sum. -/
theorem sum_mul_left (s : Store α) (c : ℕ) (f : α → ℕ) :
    s.sum (fun x => c * f x) = c * s.sum f :=
  List.sum_map_mul_left _ _ _

/-- A sum whose summands are all zero. -/
theorem sum_eq_zero {s : Store α} {f : α → ℕ} (h : ∀ x ∈ s, f x = 0) : s.sum f = 0 := by
  rw [sum_congr h, sum_zero]

/-! ## Updates -/

variable [DecidableEq κ]

/-- The object under `k`. -/
def get? (s : Store α) (k : κ) : Option α := s.entries.find? fun x => key x = k

/-- The store without the object under `k`. -/
def delete (s : Store α) (k : κ) : Store α := s.filter fun x => key x ≠ k

/-- Deletion keeps the objects under other keys. -/
theorem mem_delete {s : Store α} {k : κ} {x : α} : x ∈ s.delete k ↔ x ∈ s ∧ key x ≠ k := by
  simp [delete]

/-- The store with `x` filed under its key, replacing what was there. -/
def put (s : Store α) (x : α) : Store α where
  entries := x :: (s.delete (key x)).entries
  nodup := by
    refine List.nodup_cons.mpr ⟨?_, (s.delete (key x)).nodup⟩
    intro h
    obtain ⟨y, hy, hk⟩ := List.mem_map.mp h
    exact (mem_delete.mp hy).2 hk

/-- After a `put` the store has the new object and what was under other keys. -/
theorem mem_put {s : Store α} {x y : α} :
    y ∈ s.put x ↔ y = x ∨ (y ∈ s ∧ key y ≠ key x) := by
  rw [← mem_delete, mem_def, mem_def]
  simp [put]

/-- What holds of all objects still does after filing one it holds of. -/
theorem forall_put {s : Store α} {x : α} {p : α → Prop} (hx : p x) (hs : ∀ y ∈ s, p y) :
    ∀ y ∈ s.put x, p y := by
  intro y hy
  rcases mem_put.mp hy with rfl | ⟨hy, -⟩
  · exact hx
  · exact hs y hy

/-- What holds of all objects holds of those that a deletion leaves. -/
theorem forall_delete {s : Store α} {k : κ} {p : α → Prop} (hs : ∀ y ∈ s, p y) :
    ∀ y ∈ s.delete k, p y :=
  fun y hy => hs y (mem_delete.mp hy).1

/-! ## Lookups -/

/-- Lookup finds the object of the store with the key. -/
theorem get?_eq_some {s : Store α} {k : κ} {x : α} :
    s.get? k = some x ↔ x ∈ s ∧ key x = k := by
  constructor
  · intro h
    exact ⟨List.mem_of_find?_eq_some h, by simpa using List.find?_some h⟩
  · rintro ⟨hx, rfl⟩
    -- keys are unique, so what the search finds under the key of `x` is `x`
    cases hf : s.get? (key x) with
    | none =>
      have := List.find?_eq_none.mp hf x hx
      simp at this
    | some y =>
      have hy : y ∈ s := List.mem_of_find?_eq_some hf
      have hk : key y = key x := by simpa using List.find?_some hf
      rw [eq_of_key_eq hy hx hk]

/-- Lookup fails where no object has the key. -/
theorem get?_eq_none {s : Store α} {k : κ} : s.get? k = none ↔ ∀ x ∈ s, key x ≠ k := by
  simp [get?, List.find?_eq_none, mem_def]

/-- What lookup finds is in the store. -/
theorem mem_of_get? {s : Store α} {k : κ} {x : α} (h : s.get? k = some x) : x ∈ s :=
  (get?_eq_some.mp h).1

/-- What lookup finds has the key that was looked up. -/
theorem key_of_get? {s : Store α} {k : κ} {x : α} (h : s.get? k = some x) : key x = k :=
  (get?_eq_some.mp h).2

/-- An object of the store is found under its own key. -/
theorem get?_key {s : Store α} {x : α} (h : x ∈ s) : s.get? (key x) = some x :=
  get?_eq_some.mpr ⟨h, rfl⟩

@[simp] theorem get?_empty (k : κ) : (∅ : Store α).get? k = none := rfl

/-- Lookup after a `put`: the new object under its key, and the old answer elsewhere. -/
theorem get?_put (s : Store α) (x : α) (k : κ) :
    (s.put x).get? k = if key x = k then some x else s.get? k := by
  split
  · next h => exact get?_eq_some.mpr ⟨mem_put.mpr (Or.inl rfl), h⟩
  · next h =>
    -- another key: nothing under it is added, and nothing under it is dropped
    cases hf : s.get? k with
    | none =>
      rw [get?_eq_none] at hf ⊢
      intro y hy
      rcases mem_put.mp hy with rfl | ⟨hy, -⟩
      · exact h
      · exact hf y hy
    | some y =>
      obtain ⟨hy, rfl⟩ := get?_eq_some.mp hf
      exact get?_key (mem_put.mpr (Or.inr ⟨hy, fun e => h e.symm⟩))

@[simp] theorem get?_put_self (s : Store α) (x : α) : (s.put x).get? (key x) = some x := by
  simp [get?_put]

/-- Replacing the object under a key. -/
theorem get?_replace {s : Store α} {k : κ} {x : α} (y : α) (h : s.get? k = some x)
    (hkey : key y = key x) : (s.put y).get? k = some y := by
  rw [get?_put, if_pos (hkey.trans (key_of_get? h))]

/-- Other keys are not affected by a `put`. -/
theorem get?_put_ne {s : Store α} {x : α} {k : κ} (h : key x ≠ k) :
    (s.put x).get? k = s.get? k := by
  simp [get?_put, h]

/-- Replacing an entry adds no key. -/
theorem isSome_of_replace {s : Store α} {k j : κ} {x y z : α} (hx : s.get? k = some x)
    (hz : (s.put y).get? j = some z) (hkey : key y = key x) : (s.get? j).isSome := by
  rw [get?_put] at hz
  split at hz
  · next hj =>
    have hkj : k = j := (key_of_get? hx).symm.trans (hkey.symm.trans hj)
    rw [← hkj, hx, Option.isSome_some]
  · rw [hz, Option.isSome_some]

/-- A lookup after the object under `k` was replaced by `y`. -/
theorem get?_replaced {s : Store α} {k j : κ} {x y z z' : α} (hx : s.get? k = some x)
    (hkey : key y = key x) (hz : s.get? j = some z) (hz' : (s.put y).get? j = some z') :
    k = j ∧ z = x ∧ z' = y ∨ k ≠ j ∧ z' = z := by
  -- an object is replaced under its own key, so the two cases are the two keys
  by_cases hk : k = j
  · subst hk
    have hy := get?_replace y hx hkey
    exact Or.inl ⟨rfl, Option.some.inj (hz.symm.trans hx), Option.some.inj (hz'.symm.trans hy)⟩
  · have hne : key y ≠ j := (hkey.trans (key_of_get? hx)).symm ▸ hk
    rw [get?_put_ne hne, hz] at hz'
    exact Or.inr ⟨hk, (Option.some.inj hz').symm⟩

/-- Lookup after a deletion: nothing under its key, and the old answer elsewhere. -/
theorem get?_delete (s : Store α) (k j : κ) :
    (s.delete k).get? j = if j = k then none else s.get? j := by
  split
  · next h =>
    rw [get?_eq_none]
    intro y hy
    exact h ▸ (mem_delete.mp hy).2
  · next h =>
    cases hf : s.get? j with
    | none =>
      rw [get?_eq_none] at hf ⊢
      exact fun y hy => hf y (mem_delete.mp hy).1
    | some y =>
      obtain ⟨hy, rfl⟩ := get?_eq_some.mp hf
      exact get?_key (mem_delete.mpr ⟨hy, h⟩)

/-- Other keys are not affected by a deletion. -/
theorem get?_delete_ne {s : Store α} {k j : κ} (h : j ≠ k) :
    (s.delete k).get? j = s.get? j := by
  simp [get?_delete, h]

/-- Lookup in a filtered store. -/
theorem get?_filter (s : Store α) (p : α → Bool) (k : κ) :
    (s.filter p).get? k = (s.get? k).filter p := by
  cases hf : s.get? k with
  | none =>
    rw [get?_eq_none] at hf
    simpa [get?_eq_none] using fun x hx _ => hf x hx
  | some x =>
    obtain ⟨hx, rfl⟩ := get?_eq_some.mp hf
    -- the object under the key is the only one that can pass the filter there
    by_cases hp : p x = true
    · simpa [Option.filter, hp] using get?_key (mem_filter.mpr ⟨hx, hp⟩)
    · simp only [Option.filter, hp, Bool.false_eq_true, if_false, get?_eq_none, mem_filter]
      intro y ⟨hy, hpy⟩ hk
      exact hp (eq_of_key_eq hy hx hk ▸ hpy)

/-- Deleting a key nothing is filed under changes nothing. -/
theorem delete_of_get?_eq_none {s : Store α} {k : κ} (h : s.get? k = none) : s.delete k = s := by
  ext1
  rw [get?_eq_none] at h
  exact List.filter_eq_self.mpr fun x hx => by simpa using h x hx

/-! ## Updates of updates -/

/-- What is new is filed in front. -/
theorem entries_put_of_fresh {s : Store α} {x : α} (h : s.get? (key x) = none) :
    (s.put x).entries = x :: s.entries := by
  change x :: (s.delete (key x)).entries = x :: s.entries
  rw [delete_of_get?_eq_none h]

/-- Deletions commute. -/
theorem delete_delete_comm (s : Store α) (k j : κ) :
    (s.delete k).delete j = (s.delete j).delete k := by
  ext1
  exact List.filter_comm ..

/-- Deleting twice is deleting once. -/
theorem delete_delete (s : Store α) (k : κ) : (s.delete k).delete k = s.delete k :=
  delete_of_get?_eq_none (by simp [get?_delete])

/-- Deleting what was just filed leaves no trace of it. -/
theorem delete_put_self (s : Store α) (x : α) : (s.put x).delete (key x) = s.delete (key x) := by
  ext1
  change List.filter (fun y => decide (key y ≠ key x)) (x :: (s.delete (key x)).entries) =
    (s.delete (key x)).entries
  rw [List.filter_cons_of_neg (by simp)]
  exact congrArg entries (delete_delete s (key x))

/-- Filing something new and deleting it again changes nothing. -/
theorem delete_put_fresh {s : Store α} {x : α} (h : s.get? (key x) = none) :
    (s.put x).delete (key x) = s :=
  (delete_put_self s x).trans (delete_of_get?_eq_none h)

/-- A deletion and a `put` under different keys commute. -/
theorem delete_put_ne {s : Store α} {x : α} {k : κ} (h : key x ≠ k) :
    (s.put x).delete k = (s.delete k).put x := by
  ext1
  change List.filter (fun y => decide (key y ≠ k)) (x :: (s.delete (key x)).entries) =
    x :: ((s.delete k).delete (key x)).entries
  rw [List.filter_cons_of_pos (by simpa using h)]
  exact congrArg (x :: entries ·) (delete_delete_comm s (key x) k)

/-- The later of two updates under one key counts. -/
theorem put_put_self {s : Store α} {x y : α} (h : key x = key y) : (s.put x).put y = s.put y := by
  ext1
  change y :: ((s.put x).delete (key y)).entries = y :: (s.delete (key y)).entries
  rw [← h, delete_put_self]

/-! ## Filters -/

/-- Filtering commutes with a deletion. -/
theorem filter_delete (s : Store α) (p : α → Bool) (k : κ) :
    (s.delete k).filter p = (s.filter p).delete k := by
  ext1
  exact List.filter_comm ..

/-- Filtering keeps an object that was put and passes. -/
theorem filter_put_of_pos {s : Store α} {p : α → Bool} {x : α} (h : p x = true) :
    (s.put x).filter p = (s.filter p).put x := by
  ext1
  change List.filter p (x :: (s.delete (key x)).entries) =
    x :: ((s.filter p).delete (key x)).entries
  rw [List.filter_cons_of_pos h, ← filter_delete]
  rfl

/-- An object that was put and does not pass only removes what was under its key. -/
theorem filter_put_of_neg {s : Store α} {p : α → Bool} {x : α} (h : p x = false) :
    (s.put x).filter p = (s.filter p).delete (key x) := by
  ext1
  change List.filter p (x :: (s.delete (key x)).entries) = ((s.filter p).delete (key x)).entries
  rw [List.filter_cons_of_neg (by simp [h]), ← filter_delete]
  rfl

/-- Replacing an object outside the filter by another one outside it is not
    visible through the filter. -/
theorem filter_put_of_outside {s : Store α} {p : α → Bool} {x : α} (h : p x = false)
    (hs : ∀ y, s.get? (key x) = some y → p y = false) : (s.put x).filter p = s.filter p := by
  rw [filter_put_of_neg h]
  apply delete_of_get?_eq_none
  rw [get?_filter]
  cases hf : s.get? (key x) with
  | none => rfl
  | some y => simp [Option.filter, hs y hf]

/-- Deleting an object outside the filter is not visible through the filter. -/
theorem filter_delete_of_outside {s : Store α} {p : α → Bool} {k : κ}
    (hs : ∀ y, s.get? k = some y → p y = false) : (s.delete k).filter p = s.filter p := by
  rw [filter_delete]
  apply delete_of_get?_eq_none
  rw [get?_filter]
  cases hf : s.get? k with
  | none => rfl
  | some y => simp [Option.filter, hs y hf]

/-! ## Groups -/

section Group

variable {γ : Type*} [DecidableEq γ]

/-- The objects of the store that belong to `c`. -/
def group (f : α → γ) (c : γ) (s : Store α) : Store α := s.filter fun x => f x = c

variable {f : α → γ} {c : γ} {s : Store α} {k : κ} {x : α}

omit [DecidableEq κ] in
@[simp] theorem mem_group : x ∈ s.group f c ↔ x ∈ s ∧ f x = c := by
  simp [group]

omit [DecidableEq κ] in
@[simp] theorem group_empty : (∅ : Store α).group f c = ∅ := rfl

/-- An object is found in its group. -/
theorem get?_group (h : s.get? k = some x) (hx : f x = c) : (s.group f c).get? k = some x := by
  simp [group, get?_filter, h, Option.filter, hx]

/-- A key without object has none in a group. -/
theorem get?_group_eq_none (h : s.get? k = none) : (s.group f c).get? k = none := by
  simp [group, get?_filter, h]

/-- An object that is put joins the group of its class. -/
theorem group_put (hx : f x = c) : (s.put x).group f c = (s.group f c).put x :=
  filter_put_of_pos (by simpa using hx)

/-- A deletion is one in every group. -/
theorem group_delete : (s.delete k).group f c = (s.group f c).delete k :=
  filter_delete ..

omit [DecidableEq κ] in
/-- The sum over a group as a sum over the store. -/
theorem sum_group [AddCommMonoid M] (s : Store α) (g : α → M) :
    (s.group f c).sum g = s.sum fun x => if f x = c then g x else 0 := by
  simp [group, sum_filter_eq]

/-- Filing an object of another group in place of one of another group. -/
theorem group_put_ne (hx : f x ≠ c) (hs : ∀ y, s.get? (key x) = some y → f y ≠ c) :
    (s.put x).group f c = s.group f c :=
  filter_put_of_outside (by simpa using hx) fun y hy => by simpa using hs y hy

/-- Deleting an object of another group. -/
theorem group_delete_ne (h : s.get? k = some x) (hx : f x ≠ c) :
    (s.delete k).group f c = s.group f c :=
  filter_delete_of_outside fun y hy => by
    obtain rfl : x = y := Option.some.inj (h.symm.trans hy)
    simpa using hx

end Group

/-! ## What an update keeps -/

section Keeps

variable {R : α → α → Prop} {s : Store α} {k : κ} {x : α}

/-- Every object of `s` is still in `s'`, changed at most as `R` allows. -/
def Keeps (R : α → α → Prop) (s s' : Store α) : Prop :=
  ∀ k x, s.get? k = some x → ∃ x', s'.get? k = some x' ∧ R x x'

theorem Keeps.refl (hr : ∀ x, R x x) (s : Store α) : s.Keeps R s :=
  fun _ x hx => ⟨x, hx, hr x⟩

/-- Replacing an object as `R` allows. -/
theorem Keeps.replace (hr : ∀ x, R x x) (y : α) (hx : s.get? k = some x) (hkey : key y = key x)
    (h : R x y) : s.Keeps R (s.put y) := by
  intro j z hz
  rw [get?_put]
  -- the key that was replaced goes to the new object, all others to themselves
  split
  · next hj =>
    obtain rfl : k = j := (key_of_get? hx).symm.trans (hkey.symm.trans hj)
    obtain rfl : x = z := Option.some.inj (hx.symm.trans hz)
    exact ⟨y, rfl, h⟩
  · exact ⟨z, hz, hr z⟩

/-- Filing an object under an unused key. -/
theorem Keeps.fresh (hr : ∀ x, R x x) (y : α) (hy : s.get? (key y) = none) :
    s.Keeps R (s.put y) := by
  intro j z hz
  refine ⟨z, (get?_put_ne ?_).trans hz, hr z⟩
  intro hj
  rw [hj, hz] at hy
  exact absurd hy (by simp)

end Keeps

/-! ## What an update spares -/

section Spares

variable {p : κ → Prop} {s s' s'' : Store α} {k : κ} {x : α}

/-- Every object of `s` under a key with `p` is still in `s'`, as it was. -/
def Spares (p : κ → Prop) (s s' : Store α) : Prop :=
  ∀ k x, p k → s.get? k = some x → s'.get? k = some x

theorem Spares.refl (s : Store α) : s.Spares p s := fun _ _ _ hx => hx

theorem Spares.trans (h : s.Spares p s') (h' : s'.Spares p s'') : s.Spares p s'' :=
  fun k x hk hx => h' k x hk (h k x hk hx)

/-- Filing an object under another key. -/
theorem Spares.put (hx : ¬ p (key x)) : s.Spares p (s.put x) := by
  intro j y hj hy
  rw [get?_put_ne, hy]
  intro heq
  exact hx (heq ▸ hj)

/-- A deletion under another key spares the objects. -/
theorem Spares.delete (hk : ¬ p k) : s.Spares p (s.delete k) := by
  intro j y hj hy
  rw [get?_delete_ne, hy]
  intro heq
  exact hk (heq ▸ hj)

/-- Filing an object under an unused key. -/
theorem Spares.fresh (hx : s.get? (key x) = none) : s.Spares p (s.put x) := by
  intro j y _ hy
  rw [get?_put_ne, hy]
  intro heq
  rw [heq, hy] at hx
  cases hx

end Spares

/-! ## Fresh keys -/

section Below

variable [Preorder κ]

/-- All keys of the store are below `n`. -/
def Below (n : κ) (s : Store α) : Prop := ∀ x ∈ s, key x < n

variable {n m : κ} {s : Store α}

omit [DecidableEq κ] in
/-- No key of the empty store reaches any bound. -/
theorem below_empty : (∅ : Store α).Below n := fun x hx => absurd hx (not_mem_empty x)

omit [DecidableEq κ] in
/-- A larger bound is a bound. -/
theorem Below.mono (hs : s.Below n) (h : n ≤ m) : s.Below m :=
  fun x hx => lt_of_lt_of_le (hs x hx) h

/-- A new key below the bound leaves the store below it. -/
theorem Below.put {x : α} (hs : s.Below n) (hx : key x < n) : (s.put x).Below n :=
  forall_put hx hs

/-- A deletion leaves the store below its bound. -/
theorem Below.delete {k : κ} (hs : s.Below n) : (s.delete k).Below n := forall_delete hs

/-- A key that is found is below the bound. -/
theorem Below.get?_lt {k : κ} {x : α} (hs : s.Below n) (h : s.get? k = some x) : k < n :=
  key_of_get? h ▸ hs x (mem_of_get? h)

/-- Replacing an object keeps all keys. -/
theorem Below.replace {k : κ} {x y : α} (hs : s.Below n) (h : s.get? k = some y)
    (hx : key x = key y) : (s.put x).Below n :=
  hs.put (hx ▸ hs y (mem_of_get? h))

/-- A key that is not below the bound is free. -/
theorem Below.get?_eq_none {k : κ} (hs : s.Below n) (h : ¬ k < n) : s.get? k = none :=
  Store.get?_eq_none.mpr fun x hx hk => h (hk ▸ hs x hx)

end Below

/-! ## Sums after an update -/

section Sums

variable [AddCommMonoid M]

omit [Keyed α κ] in
/-- In a list with distinct keys, the terms other than the one of `x` are the
    terms of the elements with another key. -/
private theorem list_sum_filter_key_ne (key : α → κ) (f : α → M) {x : α} {l : List α}
    (hn : (l.map key).Nodup) (hx : x ∈ l) :
    f x + ((l.filter fun y => decide (key y ≠ key x)).map f).sum = (l.map f).sum := by
  induction l with
  | nil => simp at hx
  | cons y ys ih =>
    rw [List.map_cons, List.nodup_cons] at hn
    rcases List.mem_cons.mp hx with rfl | hm
    -- the keys are distinct, so the filter drops nothing of the rest
    · have hrest : ys.filter (fun z => decide (key z ≠ key x)) = ys := by
        apply List.filter_eq_self.mpr
        intro z hz
        simp only [ne_eq, decide_eq_true_eq]
        exact fun e => hn.1 (e ▸ List.mem_map_of_mem hz)
      rw [List.filter_cons_of_neg (by simp), hrest, List.map_cons, List.sum_cons]
    · have hxy : key y ≠ key x := fun e => hn.1 (e ▸ List.mem_map_of_mem hm)
      rw [List.filter_cons_of_pos (by simp [hxy]), List.map_cons, List.sum_cons,
        List.map_cons, List.sum_cons, add_left_comm, ih hn.2 hm]

/-- Removing the object under a key removes its term from the sum. -/
theorem sum_delete_of_get? {s : Store α} {k : κ} {x : α} (h : s.get? k = some x) (f : α → M) :
    f x + (s.delete k).sum f = s.sum f := by
  obtain ⟨hx, rfl⟩ := get?_eq_some.mp h
  exact list_sum_filter_key_ne key f s.nodup hx

/-- Two objects are part of the sum. -/
theorem add_le_sum {s : Store α} {x y : α} (hx : x ∈ s) (hy : y ∈ s) (hne : x ≠ y) (f : α → ℕ) :
    f x + f y ≤ s.sum f := by
  have hrest : y ∈ s.delete (key x) :=
    mem_delete.mpr ⟨hy, fun hkey => hne (eq_of_key_eq hx hy hkey.symm)⟩
  rw [← sum_delete_of_get? (get?_key hx) f]
  exact Nat.add_le_add_left (le_sum hrest f) _

/-- Distinct keys of objects that are worth `m` each are worth no more than the whole store. -/
theorem length_mul_le_sum {s : Store α} {f : α → ℕ} {m : ℕ} {ks : List κ} (hks : ks.Nodup)
    (h : ∀ k ∈ ks, ∃ x, s.get? k = some x ∧ m ≤ f x) : ks.length * m ≤ s.sum f := by
  -- each key takes its own object out of the store, which pays for one `m` of the sum
  induction ks generalizing s with
  | nil => simp
  | cons k ks ih =>
    obtain ⟨hk, hks⟩ := List.nodup_cons.mp hks
    obtain ⟨x, hx, hm⟩ := h k List.mem_cons_self
    have hrest : ks.length * m ≤ (s.delete k).sum f := by
      refine ih hks fun j hj => ?_
      obtain ⟨y, hy, hmy⟩ := h j (List.mem_cons_of_mem k hj)
      have hne : j ≠ k := fun heq => hk (heq ▸ hj)
      exact ⟨y, (get?_delete_ne hne).trans hy, hmy⟩
    rw [List.length_cons, Nat.succ_mul, ← sum_delete_of_get? hx f]
    omega

/-- The sum after a `put` is the new summand and the sum of what remains. -/
theorem sum_put (s : Store α) (x : α) (f : α → M) :
    (s.put x).sum f = f x + (s.delete (key x)).sum f := by
  simp [sum, put]

/-- Filing an object under an unused key adds its term to the sum. -/
theorem sum_put_of_fresh {s : Store α} {x : α} (h : s.get? (key x) = none) (f : α → M) :
    (s.put x).sum f = f x + s.sum f := by
  rw [sum_put, delete_of_get?_eq_none h]

/-- Replacing an object exchanges its term in the sum. -/
theorem sum_put_of_get? {s : Store α} {x y : α} (h : s.get? (key x) = some y) (f : α → M) :
    f y + (s.put x).sum f = f x + s.sum f := by
  rw [sum_put, ← sum_delete_of_get? h f, add_left_comm]

/-- Replacing the object under a key exchanges its term in the sum. -/
theorem sum_replace {s : Store α} {k : κ} {x : α} (y : α) (h : s.get? k = some x)
    (hk : key y = key x) (f : α → M) : f x + (s.put y).sum f = f y + s.sum f :=
  sum_put_of_get? (hk ▸ get?_key (mem_of_get? h)) f

/-- Replacing an object while the terms of the others stay what they are. -/
theorem sum_replace_of_agree {s : Store α} {k : κ} {x : α} (y : α) (h : s.get? k = some x)
    (hk : key y = key x) {f g : α → M} (hfg : ∀ z ∈ s, key z ≠ k → g z = f z) :
    f x + (s.put y).sum g = g y + s.sum f := by
  have hkey : key y = k := hk.trans (key_of_get? h)
  have hrest : (s.delete k).sum g = (s.delete k).sum f := by
    refine sum_congr fun z hz => ?_
    obtain ⟨hz, hne⟩ := mem_delete.mp hz
    exact hfg z hz hne
  rw [sum_put, hkey, hrest, add_left_comm, sum_delete_of_get? h]

/-- An update that keeps the term of the replaced object keeps the sum. -/
theorem sum_put_of_eq {s : Store α} {x y : α} (h : s.get? (key x) = some y) {f : α → M}
    (hf : f x = f y) : (s.put x).sum f = s.sum f := by
  rw [sum_put, hf, sum_delete_of_get? h]

/-- Objects that stay keep their terms, and new ones have none: the sum stays. -/
theorem sum_eq_of_keeps {s s' : Store α} {f g : α → M} (h : s.Keeps (fun x x' => g x' = f x) s')
    (hnew : ∀ x ∈ s', s.get? (key x) = none → g x = 0) : s'.sum g = s.sum f := by
  -- induction on the number of objects, one of which is deleted on both sides
  induction hn : s.entries.length generalizing s s' with
  | zero =>
    have hs : s = ∅ := ext (List.eq_nil_of_length_eq_zero hn)
    subst hs
    rw [sum_empty, sum_congr fun x hx => hnew x hx (get?_empty _), sum_zero]
  | succ n ih =>
    obtain ⟨x, hx⟩ : ∃ x, x ∈ s := List.exists_mem_of_length_eq_add_one hn
    have hget := get?_key hx
    obtain ⟨x', hx', hterm⟩ := h (key x) x hget
    have hrest : (s'.delete (key x)).sum g = (s.delete (key x)).sum f := by
      refine ih ?_ ?_ ?_
      · intro k y hy
        have hne : k ≠ key x := by
          rintro rfl
          simp [get?_delete] at hy
        obtain ⟨y', hy', hsame⟩ := h k y ((get?_delete_ne hne).symm.trans hy)
        exact ⟨y', (get?_delete_ne hne).trans hy', hsame⟩
      · intro y hy hnone
        obtain ⟨hy, hne⟩ := mem_delete.mp hy
        exact hnew y hy ((get?_delete_ne hne).symm.trans hnone)
      · have hcount := sum_delete_of_get? hget fun _ => 1
        simp only [sum, List.map_const', List.sum_replicate_nat, mul_one] at hcount
        omega
    rw [← sum_delete_of_get? hx' g, ← sum_delete_of_get? hget f, hterm, hrest]

end Sums

end Store

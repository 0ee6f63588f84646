import Gally.Library.Store
import Mathlib.Logic.Function.Basic

/-!
# Tables

An observer of a store keeps a view of each object, in a table indexed by the keys. `amend`
edits one entry. Replacing an object in the store is an edit of its entry, and so is a sequence
of edits that ends in the view of the new object.

## Key results

- `Store.table_put`: filing an object writes its view
- `Store.table_replace`: an edit that turns the old view into the new one replaces the object
- `Store.table_replaceSame`: replacing an object by one of the same view changes no entry
-/

variable {κ α β : Type*} [DecidableEq κ]

/-- Apply `f` to the entry under `k`, where there is one. -/
def amend (t : κ → Option β) (k : κ) (f : β → β) : κ → Option β :=
  Function.update t k ((t k).map f)

@[simp] theorem amend_self (t : κ → Option β) (k : κ) (f : β → β) :
    amend t k f k = (t k).map f := Function.update_self ..

/-- Two amendments of one entry are one. -/
theorem amend_amend (t : κ → Option β) (k : κ) (f g : β → β) :
    amend (amend t k f) k g = amend t k fun v => g (f v) := by
  rw [amend, amend_self, amend, Function.update_idem, Option.map_map]
  rfl

/-- What is known of an entry can be written in its place. -/
theorem amend_of_some {t : κ → Option β} {k : κ} {v : β} (h : t k = some v) (f : β → β) :
    amend t k f = Function.update t k (some (f v)) := by
  rw [amend, h, Option.map_some]

namespace Store

open Keyed (key)

variable [Keyed α κ]

/-- The views of the objects of a store. -/
def table (view : α → β) (s : Store α) : κ → Option β := fun k => (s.get? k).map view

variable {view : α → β}

/-- The table shows the view of an object under its key. -/
theorem table_of_get? {s : Store α} {k : κ} {x : α} (h : s.get? k = some x) :
    s.table view k = some (view x) := by
  rw [table, h, Option.map_some]

/-- Filing an object writes its view. -/
theorem table_put (view : α → β) (s : Store α) (x : α) :
    (s.put x).table view = Function.update (s.table view) (key x) (some (view x)) := by
  funext k
  rw [table, get?_put, Function.update_apply]
  by_cases hk : k = key x
  · rw [if_pos hk.symm, if_pos hk, Option.map_some]
  · rw [if_neg (Ne.symm hk), if_neg hk, table]

/-- An edit that turns the view of `x` into the view of `y` replaces `x` by `y`. -/
theorem table_replace {s : Store α} {k j : κ} {x y : α} {f : β → β} (h : s.get? k = some x)
    (hj : key x = j) (hkey : key y = key x) (hview : f (view x) = view y) :
    amend (s.table view) j f = (s.put y).table view := by
  subst hj
  have hx : s.get? (key x) = some x := get?_key (mem_of_get? h)
  rw [amend_of_some (table_of_get? hx), table_put, hkey, hview]

/-- Two edits that do so together. -/
theorem table_replaceTwice {s : Store α} {k j j' : κ} {x y : α} {f f' : β → β}
    (h : s.get? k = some x) (hj : key x = j) (hj' : key x = j') (hkey : key y = key x)
    (hview : f' (f (view x)) = view y) :
    amend (amend (s.table view) j f) j' f' = (s.put y).table view := by
  rw [← hj', hj, amend_amend]
  exact table_replace h hj hkey hview

/-- No edit is needed where the view stays. -/
theorem table_replaceSame {s : Store α} {k : κ} {x y : α} (h : s.get? k = some x)
    (hkey : key y = key x) (hview : view x = view y) :
    s.table view = (s.put y).table view := by
  rw [table_put, hkey, key_of_get? h, ← hview, ← table_of_get? h, Function.update_eq_self]

end Store

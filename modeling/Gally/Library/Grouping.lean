import Mathlib.Algebra.BigOperators.Group.List.Basic
import Mathlib.Data.List.Dedup

/-!
# Grouping rows

`GROUP BY` splits rows by a key and makes one result of each group (`collect`); the query fails
where a result does. What is added up within the groups and then over the groups is what is added up
over all rows (`sum_groups`).
-/

namespace Grouping

variable {α κ ρ M : Type*} [DecidableEq κ] {key : α → κ} {rows : List α} {k : κ}

/-- The rows with key `k`. -/
def group (key : α → κ) (rows : List α) (k : κ) : List α := rows.filter fun r => key r = k

/-- The keys of the rows, each once. -/
def keys (key : α → κ) (rows : List α) : List κ := (rows.map key).dedup

/-- `GROUP BY key` -/
def collect (key : α → κ) (fold : κ → List α → Option ρ) (rows : List α) : Option (List ρ) :=
  (keys key rows).mapM fun k => fold k (group key rows k)

@[simp] theorem mem_group {r : α} : r ∈ group key rows k ↔ r ∈ rows ∧ key r = k := by
  simp [group]

/-- The keys are those of the rows. -/
theorem mem_keys : k ∈ keys key rows ↔ ∃ r ∈ rows, key r = k := by
  simp [keys]

/-- Each key is listed once. -/
theorem nodup_keys : (keys key rows).Nodup := List.nodup_dedup _

/-- There is a result if there is one for each group. -/
theorem collect_eq {fold : κ → List α → Option ρ} {f : κ → ρ}
    (h : ∀ k ∈ keys key rows, fold k (group key rows k) = some (f k)) :
    collect key fold rows = some ((keys key rows).map f) := by
  unfold collect
  generalize keys key rows = ks at h
  -- on the keys; every group has its result
  induction ks with
  | nil => rfl
  | cons k ks ih =>
    rw [List.mapM_cons, h k List.mem_cons_self, ih fun j hj => h j (List.mem_cons_of_mem _ hj)]
    rfl

/-- Each group has one result. -/
theorem map_collect {fold : κ → List α → Option ρ} {idOf : ρ → κ} {results : List ρ}
    (hid : ∀ k g r, fold k g = some r → idOf r = k) (h : collect key fold rows = some results) :
    results.map idOf = keys key rows := by
  unfold collect at h
  generalize keys key rows = ks at h
  -- on the keys; the results come in their order
  induction ks generalizing results with
  | nil =>
    obtain rfl := Option.some.inj h
    rfl
  | cons k ks ih =>
    rw [List.mapM_cons] at h
    obtain ⟨r, hr, h⟩ := Option.bind_eq_some_iff.mp h
    obtain ⟨rest, hrest, h⟩ := Option.bind_eq_some_iff.mp h
    obtain rfl := Option.some.inj h
    rw [List.map_cons, hid _ _ _ hr, ih hrest]

/-- A result is that of some group. -/
theorem exists_of_mem_collect {fold : κ → List α → Option ρ} {results : List ρ} {r : ρ}
    (h : collect key fold rows = some results) (hr : r ∈ results) :
    ∃ k, fold k (group key rows k) = some r := by
  unfold collect at h
  generalize keys key rows = ks at h
  induction ks generalizing results with
  | nil =>
    obtain rfl := Option.some.inj h
    cases hr
  | cons k ks ih =>
    rw [List.mapM_cons] at h
    obtain ⟨first, hfirst, h⟩ := Option.bind_eq_some_iff.mp h
    obtain ⟨rest, hrest, h⟩ := Option.bind_eq_some_iff.mp h
    obtain rfl := Option.some.inj h
    rcases List.mem_cons.mp hr with rfl | hmem
    · exact ⟨k, hfirst⟩
    · exact ih hmem hrest

/-- The terms of the selected rows, as terms of all rows. -/
theorem sum_filter [AddCommMonoid M] (p : α → Bool) (f : α → M) (l : List α) :
    ((l.filter p).map f).sum = (l.map fun a => if p a then f a else 0).sum := by
  rw [List.sum_map_ite]
  simp

/-- The groups together have the terms of all rows. -/
theorem sum_groups [AddCommGroup M] (f : α → M) :
    ((keys key rows).map fun k => ((group key rows k).map f).sum).sum = (rows.map f).sum := by
  -- a sum over distinct keys of something that is zero at all keys but one
  have hone : ∀ {ks : List κ}, ks.Nodup → ∀ {j : κ}, j ∈ ks → ∀ v : M,
      (ks.map fun k => if k = j then v else 0).sum = v := by
    intro ks hks j hj v
    rw [List.sum_map_ite_eq, List.count_eq_one_of_mem hks hj, one_nsmul]
    simp
  have hgroups : ∀ {ks : List κ}, ks.Nodup → ∀ {l : List α}, (∀ r ∈ l, key r ∈ ks) →
      (ks.map fun k => ((group key l k).map f).sum).sum = (l.map f).sum := by
    intro ks hks l hl
    induction l with
    | nil => simp [group]
    | cons r l ih =>
      -- a row is in the group of its key and in no other
      have hgroup : ∀ k, ((group key (r :: l) k).map f).sum =
          (if k = key r then f r else 0) + ((group key l k).map f).sum := by
        intro k
        by_cases hk : key r = k
        · simp [group, hk]
        · simp [group, hk, Ne.symm hk]
      rw [List.map_congr_left fun k _ => hgroup k, List.sum_map_add,
        hone hks (hl r List.mem_cons_self), ih fun q hq => hl q (List.mem_cons_of_mem _ hq),
        List.map_cons, List.sum_cons]
  exact hgroups nodup_keys fun r hr => mem_keys.mpr ⟨r, hr, rfl⟩

/-- A sum over the rows of several sources. -/
theorem sum_flatMap {β : Type*} [AddCommMonoid M] (g : β → List α) (f : α → M) (l : List β) :
    ((l.flatMap g).map f).sum = (l.map fun b => ((g b).map f).sum).sum := by
  induction l with
  | nil => rfl
  | cons b l ih => rw [List.flatMap_cons, List.map_append, List.sum_append, ih, List.map_cons,
      List.sum_cons]

end Grouping

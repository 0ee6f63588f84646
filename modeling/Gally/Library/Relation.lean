import Mathlib.Data.List.Basic
import Mathlib.Data.List.Nodup
import Mathlib.Data.List.TakeWhile
import Mathlib.Data.Option.Basic

/-!
# Keyed relations, insert-if-absent and overwrite

A relation is a list of rows with pairwise distinct keys, in the order of insertion.
It is written by two statements: an insert that does nothing where the key is taken
and fails where a referenced key is missing, and an update that overwrites a column
of the row under a key. A batch of statements stops at the first that fails.

A `Projection` turns each event into a batch. Its `Tidy` condition says what the
batches of an event depend on, so that a whole batch has one specification
(`get?_execAll`), and a sequence of events another: what a row holds (`get?_ingest`)
and when it exists (`isSome_ingest_iff`).

## Key results

- `Relation.get?_execAll`: what a batch does to the row under a key
- `Projection.get?_ingest_of_some`: an existing row only sees the updates of its key
- `Projection.get?_ingest_of_none`: a new row was inserted by one of the events
- `assignAll_absorb`: overwriting every column again makes the first round irrelevant
-/

namespace Relational

/-- Rows with a key, the keys they refer to, a check on their values, and the
    assignments an update can make. -/
class Schema (ρ : Type*) (κ α : outParam (Type*)) where
  key : ρ → κ
  refs : ρ → List κ
  storable : ρ → Bool
  assign : α → ρ → ρ
  key_assign : ∀ a r, key (assign a r) = key r

open Schema

/-- A statement of a batch. -/
inductive Stmt (ρ κ α : Type*) where
  | insert (row : ρ)
  | update (key : κ) (set : α)

/-- Rows with pairwise distinct keys, in the order of insertion. -/
structure Relation (ρ : Type*) {κ α : Type*} [Schema ρ κ α] where
  rows : List ρ
  nodup : (rows.map key).Nodup

variable {ρ κ α : Type*}

/-! ## Batches -/

/-- The assignments of a batch to the row under `k`. -/
def updatesAt [DecidableEq κ] (k : κ) (ss : List (Stmt ρ κ α)) : List α :=
  ss.filterMap fun
    | .insert _ => none
    | .update j a => if j = k then some a else none

section Updates

variable [DecidableEq κ] {k j : κ} {r : ρ} {a : α} {ss : List (Stmt ρ κ α)}

@[simp] theorem updatesAt_nil : updatesAt k ([] : List (Stmt ρ κ α)) = [] := rfl

@[simp] theorem updatesAt_insert : updatesAt k (.insert r :: ss) = updatesAt k ss := rfl

@[simp] theorem updatesAt_update : updatesAt k (.update j a :: ss) =
    if j = k then a :: updatesAt k ss else updatesAt k ss := by
  by_cases h : j = k <;> simp [updatesAt, h]

/-- The updates of a row are those among the statements that name it. -/
theorem mem_updatesAt : a ∈ updatesAt k ss ↔ .update k a ∈ ss := by
  induction ss with
  | nil => simp
  | cons s ss ih =>
    cases s with
    | insert r => simp [ih]
    | update j b =>
      -- an update of another row is in neither list
      by_cases hj : j = k
      · simp [hj, ih]
      · simp [hj, ih, Ne.symm hj]

end Updates

variable [Schema ρ κ α]

/-- The database can store the values of the statement. -/
def Stmt.storable : Stmt ρ κ α → Bool
  | .insert row => Schema.storable row
  | .update _ _ => true

/-- The statements before the first one whose values cannot be stored. -/
def stored (ss : List (Stmt ρ κ α)) : List (Stmt ρ κ α) := ss.takeWhile Stmt.storable

section Stored

variable {k : κ} {r : ρ} {a : α} {s : Stmt ρ κ α} {ss : List (Stmt ρ κ α)}

@[simp] theorem stored_nil : stored ([] : List (Stmt ρ κ α)) = [] := rfl

@[simp] theorem stored_update :
    stored (.update k a :: ss) = .update k a :: stored ss := rfl

/-- An insert that can be stored is reached and passed. -/
theorem stored_insert_of_pos (h : storable r = true) :
    stored (.insert r :: ss) = .insert r :: stored ss :=
  List.takeWhile_cons_of_pos h

/-- An insert that cannot be stored ends the statements. -/
theorem stored_insert_of_neg (h : ¬ storable r = true) : stored (.insert r :: ss) = [] :=
  List.takeWhile_cons_of_neg h

/-- What is stored is one of the statements. -/
theorem mem_of_mem_stored (h : s ∈ stored ss) : s ∈ ss := (List.takeWhile_prefix _).subset h

end Stored

/-- Make the assignments `as` one after another. -/
def assignAll (as : List α) (r : ρ) : ρ := as.foldl (fun r a => assign a r) r

@[simp] theorem assignAll_nil (r : ρ) : assignAll ([] : List α) r = r := rfl

@[simp] theorem assignAll_cons (a : α) (as : List α) (r : ρ) :
    assignAll (a :: as) r = assignAll as (assign a r) := rfl

theorem assignAll_append (as bs : List α) (r : ρ) :
    assignAll (as ++ bs) r = assignAll bs (assignAll as r) := List.foldl_append

/-- Assignments do not touch the key. -/
theorem key_assignAll (as : List α) (r : ρ) : key (assignAll as r) = key r := by
  induction as generalizing r with
  | nil => rfl
  | cons a as ih => rw [assignAll_cons, ih, key_assign]

variable [DecidableEq κ]

/-- The row a batch inserts under `k`. -/
def insertAt (k : κ) (ss : List (Stmt ρ κ α)) : Option ρ :=
  ss.findSome? fun
    | .insert r => if key r = k then some r else none
    | .update _ _ => none

section Inserts

variable {k j : κ} {r : ρ} {a : α} {ss : List (Stmt ρ κ α)}

@[simp] theorem insertAt_nil : insertAt k ([] : List (Stmt ρ κ α)) = none := rfl

@[simp] theorem insertAt_insert : insertAt k (.insert r :: ss) =
    if key r = k then some r else insertAt k ss := by
  by_cases h : key r = k <;> simp [insertAt, h]

@[simp] theorem insertAt_update : insertAt k (.update j a :: ss) = insertAt k ss := rfl

/-- The row inserted at a key is one of the inserted rows and has that key. -/
theorem mem_of_insertAt (h : insertAt k ss = some r) : .insert r ∈ ss ∧ key r = k := by
  induction ss with
  | nil => cases h
  | cons s ss ih =>
    cases s with
    | insert q =>
      -- the search stops at the first insert under the key
      rw [insertAt_insert] at h
      by_cases hq : key q = k
      · rw [if_pos hq] at h
        obtain rfl := Option.some.inj h
        exact ⟨List.mem_cons_self, hq⟩
      · rw [if_neg hq] at h
        exact ⟨List.mem_cons_of_mem _ (ih h).1, (ih h).2⟩
    | update j b => exact ⟨List.mem_cons_of_mem _ (ih h).1, (ih h).2⟩

/-- The statements before the first insert under a key do not matter. -/
theorem insertAt_append (hss : ∀ r, .insert r ∈ ss → key r ≠ k) (ts : List (Stmt ρ κ α)) :
    insertAt k (ss ++ ts) = insertAt k ts := by
  induction ss with
  | nil => rfl
  | cons s ss ih =>
    have ih := ih fun r hr => hss r (List.mem_cons_of_mem _ hr)
    cases s with
    | insert r => rw [List.cons_append, insertAt_insert, if_neg (hss r List.mem_cons_self), ih]
    | update j b => exact ih

end Inserts

/-! ## Relations -/

namespace Relation

variable {db db' : Relation ρ} {k j : κ} {r : ρ}

instance : EmptyCollection (Relation ρ) := ⟨⟨[], List.nodup_nil⟩⟩

/-- The row under `k`. -/
def get? (db : Relation ρ) (k : κ) : Option ρ := db.rows.find? fun r => key r = k

@[simp] theorem get?_empty (k : κ) : (∅ : Relation ρ).get? k = none := rfl

/-- Lookup finds the row with the key. -/
theorem get?_eq_some : db.get? k = some r ↔ r ∈ db.rows ∧ key r = k := by
  constructor
  · intro h
    exact ⟨List.mem_of_find?_eq_some h, by simpa using List.find?_some h⟩
  · intro ⟨hr, hk⟩
    -- keys are distinct, so the search for the key of `r` can only end at `r`
    cases h : db.get? k with
    | none =>
      have hne := List.find?_eq_none.mp h r hr
      simp [hk] at hne
    | some q =>
      have hq : key q = k := by simpa using List.find?_some h
      rw [List.inj_on_of_nodup_map db.nodup (List.mem_of_find?_eq_some h) hr (hq.trans hk.symm)]

/-- Lookup fails where no row has the key. -/
theorem get?_eq_none : db.get? k = none ↔ ∀ r ∈ db.rows, key r ≠ k := by
  simp [get?, List.find?_eq_none]

/-- A row of the relation is found under its own key. -/
theorem mem_rows : r ∈ db.rows ↔ db.get? (key r) = some r := by
  simp [get?_eq_some]

/-- The relation with a row more. -/
def append (db : Relation ρ) (r : ρ) (h : db.get? (key r) = none) : Relation ρ where
  rows := db.rows ++ [r]
  nodup := by
    rw [List.map_append, List.nodup_append]
    refine ⟨db.nodup, List.nodup_singleton _, ?_⟩
    intro i hi j hj
    obtain ⟨q, hq, rfl⟩ := List.mem_map.mp hi
    rw [List.map_singleton, List.mem_singleton] at hj
    rw [hj]
    exact get?_eq_none.mp h q hq

theorem get?_append (h : db.get? (key r) = none) :
    (db.append r h).get? k = (db.get? k).or (if key r = k then some r else none) := by
  by_cases hk : key r = k <;> simp [append, get?, List.find?_append, hk]

/-- The relation after an assignment to the row under `k`. -/
def modify (db : Relation ρ) (k : κ) (a : α) : Relation ρ where
  rows := db.rows.map fun r => if key r = k then assign a r else r
  nodup := by
    have hkeys : (fun r => key (if key r = k then assign a r else r)) = (key : ρ → κ) := by
      funext r
      by_cases hr : key r = k <;> simp [hr, key_assign]
    rw [List.map_map]
    change (db.rows.map fun r => key (if key r = k then assign a r else r)).Nodup
    rw [hkeys]
    exact db.nodup

/-- A modification is seen at its key and nowhere else. -/
theorem get?_modify (a : α) :
    (db.modify k a).get? j = if k = j then (db.get? j).map (assign a) else db.get? j := by
  -- where there is a row, the modified one keeps its place and its key
  have hmem : ∀ r, r ∈ db.rows → key r = j →
      (db.modify k a).get? j = some (if k = j then assign a r else r) := by
    intro r hr hj
    refine get?_eq_some.mpr ⟨List.mem_map.mpr ⟨r, hr, ?_⟩, ?_⟩
    · by_cases hk : k = j
      · simp [hk, hj]
      · simp [hk, hj, Ne.symm hk]
    · by_cases hk : k = j <;> simp [hk, key_assign, hj]
  cases h : db.get? j with
  | some r =>
    obtain ⟨hr, hj⟩ := get?_eq_some.mp h
    rw [hmem r hr hj]
    by_cases hk : k = j <;> simp [hk]
  -- where there is none, no modified row has taken the key
  | none =>
    have hnone : (db.modify k a).get? j = none := by
      rw [get?_eq_none]
      intro q hq
      obtain ⟨r, hr, rfl⟩ := List.mem_map.mp hq
      have hne := get?_eq_none.mp h r hr
      by_cases hk : key r = k
      · rw [if_pos hk, key_assign]
        exact hne
      · rw [if_neg hk]
        exact hne
    rw [hnone]
    by_cases hk : k = j <;> simp [hk]

/-- Execute a statement; `none` is a constraint that fails. -/
def exec (db : Relation ρ) : Stmt ρ κ α → Option (Relation ρ)
  | .insert r =>
    if storable r = true then
      if h : db.get? (key r) = none then
        if ∀ k ∈ refs r, (db.get? k).isSome = true then some (db.append r h) else none
      else some db -- the key is taken
    else none
  | .update k a => some (db.modify k a)

/-- Execute a batch, up to the first statement that fails. -/
def execAll (db : Relation ρ) : List (Stmt ρ κ α) → Relation ρ × Bool
  | [] => (db, true)
  | s :: ss =>
    match db.exec s with
    | some db' => db'.execAll ss
    | none => (db, false)

/-- The statements of a batch that are executed, up to the first that fails. -/
def executed (db : Relation ρ) : List (Stmt ρ κ α) → List (Stmt ρ κ α)
  | [] => []
  | s :: ss =>
    match db.exec s with
    | some db' => s :: db'.executed ss
    | none => []

/-- The key is present. -/
abbrev Has (db : Relation ρ) (k : κ) : Prop := (db.get? k).isSome = true

section Exec

variable {a : α} {s : Stmt ρ κ α} {ss : List (Stmt ρ κ α)}

@[simp] theorem execAll_nil : db.execAll [] = (db, true) := rfl

@[simp] theorem execAll_update :
    db.execAll (.update k a :: ss) = (db.modify k a).execAll ss := rfl

/-- After a statement that succeeds the rest is executed. -/
theorem execAll_cons_of_some (h : db.exec s = some db') :
    db.execAll (s :: ss) = db'.execAll ss := by
  simp only [execAll, h]

/-- A statement that fails is the last one. -/
theorem execAll_cons_of_none (h : db.exec s = none) : db.execAll (s :: ss) = (db, false) := by
  simp only [execAll, h]

/-- A batch goes on where its first part ended. -/
theorem execAll_append {ts : List (Stmt ρ κ α)} (hok : (db.execAll ss).2 = true) :
    db.execAll (ss ++ ts) = (db.execAll ss).1.execAll ts := by
  induction ss generalizing db with
  | nil => rfl
  | cons s ss ih =>
    -- the first statement cannot have failed, since none did
    cases hs : db.exec s with
    | none =>
      rw [execAll_cons_of_none hs] at hok
      cases hok
    | some db' =>
      rw [List.cons_append, execAll_cons_of_some hs, execAll_cons_of_some hs]
      rw [execAll_cons_of_some hs] at hok
      exact ih hok

/-- An insert of a row that cannot be stored fails. -/
theorem exec_insert_of_not_storable (h : ¬ storable r = true) :
    db.exec (.insert r : Stmt ρ κ α) = none := by
  rw [exec, if_neg h]

/-- An insert under a key that is taken does nothing. -/
theorem exec_insert_of_has (hs : storable r = true) (h : db.Has (key r)) :
    db.exec (.insert r : Stmt ρ κ α) = some db := by
  have hne : db.get? (key r) ≠ none := Option.isSome_iff_ne_none.mp h
  rw [exec, if_pos hs, dif_neg hne]

/-- An insert under a free key appends the row, if all its foreign keys have rows. -/
theorem exec_insert_of_refs (hs : storable r = true) (h : db.get? (key r) = none)
    (hrefs : ∀ k ∈ refs r, db.Has k) :
    db.exec (.insert r : Stmt ρ κ α) = some (db.append r h) := by
  rw [exec, if_pos hs, dif_pos h, if_pos hrefs]

/-- An insert under a free key fails if a foreign key has no row. -/
theorem exec_insert_of_missing (h : db.get? (key r) = none) (hk : k ∈ refs r)
    (hmissing : ¬ db.Has k) : db.exec (.insert r : Stmt ρ κ α) = none := by
  by_cases hs : storable r = true
  · rw [exec, if_pos hs, dif_pos h, if_neg fun hrefs => hmissing (hrefs k hk)]
  · exact exec_insert_of_not_storable hs

/-- A modification does not change which keys are taken. -/
theorem has_modify : (db.modify j a).Has k ↔ db.Has k := by
  rw [Has, Has, get?_modify]
  by_cases hj : j = k <;> simp [hj]

/-- An appended row takes its key. -/
theorem has_append (h : db.get? (key r) = none) :
    (db.append r h).Has k ↔ db.Has k ∨ key r = k := by
  rw [Has, Has, get?_append]
  cases db.get? k with
  | some q => simp
  | none => by_cases hr : key r = k <;> simp [hr]

/-- No statement removes a key. -/
theorem has_exec (h : db.exec s = some db') (hk : db.Has k) : db'.Has k := by
  cases s with
  -- an insert either appends a row, does nothing or fails; none removes a key
  | insert r =>
    by_cases hs : storable r = true
    · by_cases hnew : db.get? (key r) = none
      · by_cases hrefs : ∀ k ∈ refs r, db.Has k
        · rw [exec_insert_of_refs hs hnew hrefs] at h
          rw [← Option.some.inj h, has_append]
          exact .inl hk
        · rw [exec, if_pos hs, dif_pos hnew, if_neg hrefs] at h
          cases h
      · rw [exec_insert_of_has hs (Option.isSome_iff_ne_none.mpr hnew)] at h
        exact Option.some.inj h ▸ hk
    · rw [exec_insert_of_not_storable hs] at h
      cases h
  | update j a => exact Option.some.inj h ▸ has_modify.mpr hk

/-- No statements remove a row. -/
theorem has_execAll (hk : db.Has k) : (db.execAll ss).1.Has k := by
  induction ss generalizing db with
  | nil => exact hk
  | cons s ss ih =>
    cases h : db.exec s with
    | none =>
      rw [execAll_cons_of_none h]
      exact hk
    | some db' =>
      rw [execAll_cons_of_some h]
      exact ih (has_exec h hk)

/-- A successful insert leaves its key present. -/
theorem has_of_exec_insert (h : db.exec (.insert r : Stmt ρ κ α) = some db') :
    db'.Has (key r) := by
  -- a new row is appended, and a key that was taken stays taken
  by_cases hnew : db.get? (key r) = none
  · by_cases hs : storable r = true
    · by_cases hrefs : ∀ k ∈ refs r, db.Has k
      · rw [exec_insert_of_refs hs hnew hrefs] at h
        rw [← Option.some.inj h, has_append]
        exact .inr rfl
      · rw [exec, if_pos hs, dif_pos hnew, if_neg hrefs] at h
        cases h
    · rw [exec_insert_of_not_storable hs] at h
      cases h
  · exact has_exec h (Option.isSome_iff_ne_none.mpr hnew)

/-- A statement makes present the key of the row it inserts, and no other. -/
theorem has_exec_iff (h : db.exec s = some db') :
    db'.Has k ↔ db.Has k ∨ ∃ r, s = .insert r ∧ key r = k := by
  cases s with
  | insert r =>
    constructor
    -- a new key can only come from a row that was appended
    · intro hk
      by_cases hnew : db.get? (key r) = none
      · by_cases hs : storable r = true
        · by_cases hrefs : ∀ k ∈ refs r, db.Has k
          · rw [exec_insert_of_refs hs hnew hrefs] at h
            rw [← Option.some.inj h, has_append] at hk
            exact hk.imp_right fun heq => ⟨r, rfl, heq⟩
          · rw [exec, if_pos hs, dif_pos hnew, if_neg hrefs] at h
            cases h
        · rw [exec_insert_of_not_storable hs] at h
          cases h
      · by_cases hs : storable r = true
        · rw [exec_insert_of_has hs (Option.isSome_iff_ne_none.mpr hnew)] at h
          exact .inl (Option.some.inj h ▸ hk)
        · rw [exec_insert_of_not_storable hs] at h
          cases h
    · intro hk
      rcases hk with hk | ⟨q, heq, rfl⟩
      · exact has_exec h hk
      · cases heq
        exact has_of_exec_insert h
  | update j a =>
    obtain rfl := Option.some.inj h
    rw [has_modify]
    simp

/-- So does a batch, by the statements it executes. -/
theorem has_execAll_iff : (db.execAll ss).1.Has k ↔
    db.Has k ∨ ∃ r, .insert r ∈ db.executed ss ∧ key r = k := by
  induction ss generalizing db with
  | nil => simp [executed]
  | cons s ss ih =>
    -- the statements after a failing one are not executed, so they insert nothing
    cases h : db.exec s with
    | none =>
      rw [execAll_cons_of_none h]
      simp [executed, h]
    | some db' =>
      rw [execAll_cons_of_some h, ih, has_exec_iff h, or_assoc, executed]
      simp only [h, List.mem_cons]
      refine or_congr_right ?_
      constructor
      · intro hk
        rcases hk with ⟨r, rfl, hr⟩ | ⟨r, hmem, hr⟩
        · exact ⟨r, .inl rfl, hr⟩
        · exact ⟨r, .inr hmem, hr⟩
      · intro ⟨r, hmem, hr⟩
        exact hmem.imp (fun heq => ⟨r, heq.symm, hr⟩) fun hmem => ⟨r, hmem, hr⟩

/-- Only what is executed has an effect. -/
theorem execAll_executed : db.execAll (db.executed ss) = ((db.execAll ss).1, true) := by
  induction ss generalizing db with
  | nil => rfl
  | cons s ss ih =>
    -- executing only what was executed leaves out the statement that failed
    cases h : db.exec s with
    | none =>
      rw [execAll_cons_of_none h, executed]
      simp only [h]
      rfl
    | some db' =>
      rw [execAll_cons_of_some h, executed]
      simp only [h]
      rw [execAll_cons_of_some h, ih]

/-- A batch that succeeds leaves the keys of all its rows present. -/
theorem has_of_execAll_ok (hok : (db.execAll ss).2 = true) (hr : .insert r ∈ ss) :
    (db.execAll ss).1.Has (key r) := by
  induction ss generalizing db with
  | nil => cases hr
  | cons s ss ih =>
    -- all statements succeed, so the first one did
    cases h : db.exec s with
    | none =>
      rw [execAll_cons_of_none h] at hok
      cases hok
    | some db' =>
      rw [execAll_cons_of_some h] at hok ⊢
      rcases List.mem_cons.mp hr with rfl | hmem
      · exact has_execAll (has_of_exec_insert h)
      · exact ih hok hmem

/-- A batch that succeeds can be stored. -/
theorem stored_of_execAll_ok (hok : (db.execAll ss).2 = true) : stored ss = ss := by
  induction ss generalizing db with
  | nil => rfl
  | cons s ss ih =>
    cases h : db.exec s with
    | none =>
      rw [execAll_cons_of_none h] at hok
      cases hok
    | some db' =>
      rw [execAll_cons_of_some h] at hok
      -- an insert succeeds only if its row can be stored
      cases s with
      | update k a => rw [stored_update, ih hok]
      | insert r =>
        by_cases hs : storable r = true
        · rw [stored_insert_of_pos hs, ih hok]
        · rw [exec_insert_of_not_storable hs] at h
          cases h

/-- Statements keep the keys and their order, and add new ones at the end. -/
theorem keys_execAll (db : Relation ρ) (ss : List (Stmt ρ κ α)) :
    ∃ new, (db.execAll ss).1.rows.map key = db.rows.map key ++ new := by
  induction ss generalizing db with
  | nil => exact ⟨[], (List.append_nil _).symm⟩
  | cons s ss ih =>
    cases h : db.exec s with
    | none =>
      rw [execAll_cons_of_none h]
      exact ⟨[], (List.append_nil _).symm⟩
    | some db' =>
      -- one statement appends at most one key
      have hstep : ∃ new, db'.rows.map key = db.rows.map key ++ new := by
        cases s with
        | insert r =>
          simp only [exec] at h
          split_ifs at h with hs hnew hrefs
          · rw [← Option.some.inj h]
            exact ⟨[key r], by simp [append]⟩
          · rw [← Option.some.inj h]
            exact ⟨[], (List.append_nil _).symm⟩
        | update k a =>
          rw [← Option.some.inj h]
          refine ⟨[], ?_⟩
          rw [List.append_nil, modify, List.map_map]
          refine List.map_congr_left fun r _ => ?_
          by_cases hr : key r = k <;> simp [hr, key_assign]
      obtain ⟨new, hnew⟩ := hstep
      obtain ⟨more, hmore⟩ := ih db'
      rw [execAll_cons_of_some h]
      exact ⟨new ++ more, by rw [hmore, hnew, List.append_assoc]⟩

/-- Relations with the same keys in the same order and the same rows under them. -/
theorem ext_get? (hkeys : db'.rows.map key = db.rows.map key)
    (h : ∀ k, db'.get? k = db.get? k) : db' = db := by
  -- the keys agree in order, so the rows can be compared place by place
  have hrows : db'.rows = db.rows := by
    refine List.ext_getElem? fun i => ?_
    have hi := congrArg (fun ks => ks[i]?) hkeys
    simp only [List.getElem?_map] at hi
    cases hr' : db'.rows[i]? with
    | none =>
      rw [hr', Option.map_none, eq_comm, Option.map_eq_none_iff] at hi
      exact hi.symm
    | some r' =>
      rw [hr', Option.map_some, eq_comm, Option.map_eq_some_iff] at hi
      obtain ⟨r, hr, hkey⟩ := hi
      have hmem := mem_rows.mp (List.mem_of_getElem? hr)
      have hmem' := mem_rows.mp (List.mem_of_getElem? hr')
      rw [h, ← hkey, hmem] at hmem'
      rw [hr, hmem']
  cases db
  cases db'
  cases hrows
  rfl

/-- A relation that only grew and has the same rows under its keys is the same. -/
theorem eq_of_get? (hkeys : ∃ new, db'.rows.map key = db.rows.map key ++ new)
    (h : ∀ k, db'.get? k = db.get? k) : db' = db := by
  obtain ⟨new, hnew⟩ := hkeys
  refine ext_get? ?_ h
  cases new with
  | nil => rw [hnew, List.append_nil]
  | cons k new =>
    -- a new key would hold a row
    have hmem : k ∈ db'.rows.map key := by simp [hnew]
    obtain ⟨r, hr, rfl⟩ := List.mem_map.mp hmem
    have hget := h (key r)
    rw [mem_rows.mp hr, eq_comm, get?_eq_some] at hget
    have hnodup := db'.nodup
    rw [hnew, List.nodup_append] at hnodup
    have hne := hnodup.2.2 (key r) (List.mem_map_of_mem hget.1) (key r) List.mem_cons_self
    exact absurd rfl hne

end Exec

end Relation

/-! ## Tidy batches -/

/-- Every insert refers to keys in `avail` or inserted before it. -/
def Sound : List κ → List (Stmt ρ κ α) → Prop
  | _, [] => True
  | avail, .insert r :: ss => (∀ k ∈ refs r, k ∈ avail) ∧ Sound (key r :: avail) ss
  | avail, .update _ _ :: ss => Sound avail ss

/-- After an insert there are only updates of the one key the batch needs. -/
def LateUpdates (needs : List κ) : List (Stmt ρ κ α) → Prop
  | [] => True
  | .insert _ :: ss => ∀ k a, .update k a ∈ ss → needs = [k]
  | .update _ _ :: ss => LateUpdates needs ss

/-- What a batch depends on: with the keys `needs` present every reference is met, and
    with one of them missing nothing is inserted and no row is left half written. -/
structure Tidy (needs : List κ) (ss : List (Stmt ρ κ α)) : Prop where
  sound : Sound needs ss
  blocked : ∀ r, .insert r ∈ ss → ∀ k ∈ needs, k ∈ refs r
  late : LateUpdates needs ss
  separate : ∀ r k a, .insert r ∈ ss → .update k a ∈ ss → key r ≠ k

section Tidy

variable {db : Relation ρ} {needs avail : List κ} {k : κ} {ss : List (Stmt ρ κ α)}

omit [Schema ρ κ α] [DecidableEq κ] in
/-- A later start leaves the updates late. -/
theorem LateUpdates.tail {r : ρ} (h : LateUpdates needs (.insert r :: ss)) :
    LateUpdates needs ss := by
  induction ss with
  | nil => trivial
  | cons s ss ih =>
    cases s with
    | insert q => exact fun k a hmem => h k a (List.mem_cons_of_mem _ hmem)
    | update j b => exact ih fun k a hmem => h k a (List.mem_cons_of_mem _ hmem)

/-- What a batch does to the row under `k` when all references are met. -/
theorem get?_execAll_sound (hsound : Sound avail ss) (havail : ∀ k ∈ avail, db.Has k)
    (hseparate : ∀ r k a, .insert r ∈ ss → .update k a ∈ ss → key r ≠ k) :
    (db.execAll ss).1.get? k = match db.get? k with
      | some r => some (assignAll (updatesAt k (stored ss)) r)
      | none => insertAt k (stored ss) := by
  induction ss generalizing db avail with
  | nil =>
    rw [Relation.execAll_nil]
    cases db.get? k <;> rfl
  | cons s ss ih =>
    have hseparate' : ∀ r k a, .insert r ∈ ss → .update k a ∈ ss → key r ≠ k :=
      fun r k a hr ha => hseparate r k a (List.mem_cons_of_mem _ hr) (List.mem_cons_of_mem _ ha)
    cases s with
    | insert r =>
      by_cases hs : storable r = true
      · rw [stored_insert_of_pos hs, updatesAt_insert, insertAt_insert]
        cases hnew : db.get? (key r) with
        | some q =>
          have hhas : db.Has (key r) := by rw [Relation.Has, hnew]; rfl
          rw [Relation.execAll_cons_of_some (Relation.exec_insert_of_has hs hhas),
            ih hsound.2 (List.forall_mem_cons.mpr ⟨hhas, havail⟩) hseparate']
          cases hk : db.get? k with
          | some r' => rfl
          | none =>
            have hne : key r ≠ k := by
              intro heq
              rw [heq, hk] at hnew
              cases hnew
            rw [if_neg hne]
        | none =>
          have hrefs : ∀ j ∈ refs r, db.Has j := fun j hj => havail j (hsound.1 j hj)
          have hafter : ∀ j ∈ key r :: avail, (db.append r hnew).Has j := by
            intro j hj
            rw [Relation.has_append]
            exact (List.mem_cons.mp hj).elim (fun h => .inr h.symm) fun h => .inl (havail j h)
          rw [Relation.execAll_cons_of_some (Relation.exec_insert_of_refs hs hnew hrefs),
            ih hsound.2 hafter hseparate', Relation.get?_append]
          by_cases hk : key r = k
          -- the new row sees no update of its own batch
          · have hnone : updatesAt k (stored ss) = [] := by
              rw [List.eq_nil_iff_forall_not_mem]
              intro a ha
              exact hseparate r k a List.mem_cons_self
                (List.mem_cons_of_mem _ (mem_of_mem_stored (mem_updatesAt.mp ha))) hk
            rw [hk] at hnew
            simp [hk, hnew, hnone]
          · cases db.get? k <;> simp [hk]
      · rw [Relation.execAll_cons_of_none (Relation.exec_insert_of_not_storable hs),
          stored_insert_of_neg hs]
        cases db.get? k <;> rfl
    | update j a =>
      have hafter : ∀ k ∈ avail, (db.modify j a).Has k :=
        fun k hk => Relation.has_modify.mpr (havail k hk)
      rw [Relation.execAll_update, ih hsound hafter hseparate', Relation.get?_modify, stored_update,
        updatesAt_update, insertAt_update]
      by_cases hj : j = k <;> cases db.get? k <;> simp [hj]

/-- A missing need blocks every insert. -/
theorem get?_execAll_blocked {n : κ} (hn : n ∈ needs) (hmissing : ¬ db.Has n)
    (hblocked : ∀ r, .insert r ∈ ss → ∀ k ∈ needs, k ∈ refs r) (hlate : LateUpdates needs ss) :
    (db.execAll ss).1.get? k =
      (db.get? k).map (assignAll (updatesAt k (stored ss))) := by
  induction ss generalizing db with
  | nil =>
    rw [Relation.execAll_nil]
    cases db.get? k <;> rfl
  | cons s ss ih =>
    have hblocked' : ∀ r, .insert r ∈ ss → ∀ k ∈ needs, k ∈ refs r :=
      fun r hr => hblocked r (List.mem_cons_of_mem _ hr)
    cases s with
    | insert r =>
      by_cases hs : storable r = true
      · rw [stored_insert_of_pos hs, updatesAt_insert]
        cases hnew : db.get? (key r) with
        | some q =>
          have hhas : db.Has (key r) := by rw [Relation.Has, hnew]; rfl
          rw [Relation.execAll_cons_of_some (Relation.exec_insert_of_has hs hhas),
            ih hmissing hblocked' hlate.tail]
        | none =>
          have hfails := Relation.exec_insert_of_missing hnew
            (hblocked r List.mem_cons_self n hn) hmissing
          rw [Relation.execAll_cons_of_none hfails]
          cases hk : db.get? k with
          | none => rfl
          | some r' =>
            -- an update that is skipped would have found no row
            have hnone : updatesAt k (stored ss) = [] := by
              rw [List.eq_nil_iff_forall_not_mem]
              intro a ha
              have hneeds := hlate k a (mem_of_mem_stored (mem_updatesAt.mp ha))
              rw [hneeds, List.mem_singleton] at hn
              rw [Relation.Has, hn, hk] at hmissing
              exact hmissing rfl
            simp [hnone]
      · rw [Relation.execAll_cons_of_none (Relation.exec_insert_of_not_storable hs),
          stored_insert_of_neg hs]
        cases db.get? k <;> rfl
    | update j a =>
      rw [Relation.execAll_update,
        ih (fun h => hmissing (Relation.has_modify.mp h)) hblocked' hlate,
        Relation.get?_modify, stored_update, updatesAt_update]
      by_cases hj : j = k <;> cases db.get? k <;> simp [hj]

/-- What a batch does to the row under `k`. -/
theorem Tidy.get?_execAll (h : Tidy needs ss) :
    (db.execAll ss).1.get? k = match db.get? k with
      | some r => some (assignAll (updatesAt k (stored ss)) r)
      | none => if ∀ n ∈ needs, db.Has n then insertAt k (stored ss) else none := by
  -- the needed rows decide: with them the inserts go through, without one they fail
  by_cases hready : ∀ n ∈ needs, db.Has n
  · rw [get?_execAll_sound h.sound hready h.separate]
    simp only [if_pos hready]
  · have hmissing := hready
    push Not at hmissing
    obtain ⟨n, hn, hnot⟩ := hmissing
    rw [get?_execAll_blocked hn hnot h.blocked h.late]
    simp only [if_neg hready]
    cases db.get? k <;> rfl

end Tidy

/-! ## Shapes of batches -/

section Shapes

omit [DecidableEq κ]

variable {needs : List κ} {k : κ} {a : α} {r r' : ρ} {rs : List ρ} {ss : List (Stmt ρ κ α)} {n : ℕ}

/-- No statements are tidy. -/
theorem tidy_nil : Tidy needs ([] : List (Stmt ρ κ α)) where
  sound := trivial
  blocked _ h := nomatch h
  late := trivial
  separate _ _ _ h := nomatch h

/-- One update is tidy. -/
theorem tidy_update : Tidy needs [(.update k a : Stmt ρ κ α)] where
  sound := trivial
  blocked _ h := by simp at h
  late := trivial
  separate _ _ _ h := by simp at h

/-- One insert is tidy, given what the row refers to. -/
theorem tidy_insert (hr : refs r = needs) : Tidy needs [(.insert r : Stmt ρ κ α)] where
  sound := ⟨fun _ hk => hr ▸ hk, trivial⟩
  blocked q hq k hk := by
    rw [List.mem_singleton] at hq
    cases hq
    exact hr ▸ hk
  late _ _ h := nomatch h
  separate _ _ _ _ h := by simp at h

/-- Two inserts of rows that refer to the same are tidy. -/
theorem tidy_insert_insert (hr : refs r = needs) (hr' : refs r' = needs) :
    Tidy needs [(.insert r : Stmt ρ κ α), .insert r'] where
  sound := ⟨fun _ hk => hr ▸ hk, fun k hk => List.mem_cons_of_mem _ (hr' ▸ hk), trivial⟩
  blocked q hq k hk := by
    rcases List.mem_cons.mp hq with heq | hq
    · cases heq
      exact hr ▸ hk
    · rw [List.mem_singleton] at hq
      cases hq
      exact hr' ▸ hk
  late _ _ h := by simp at h
  separate _ _ _ _ h := by simp at h

/-- An insert and an update of the row it refers to are tidy. -/
theorem tidy_insert_update (hrefs : refs r = [k]) (hkey : key r ≠ k) :
    Tidy [k] [(.insert r : Stmt ρ κ α), .update k a] where
  sound := ⟨fun _ hk => hrefs ▸ hk, trivial⟩
  blocked q hq j hj := by
    rcases List.mem_cons.mp hq with heq | hq
    · cases heq
      exact hrefs ▸ hj
    · simp at hq
  late j b h := by
    rw [List.mem_singleton] at h
    cases h
    rfl
  separate q j b hq h := by
    simp only [List.mem_cons, Stmt.insert.injEq, reduceCtorEq, List.not_mem_nil, or_false,
      Stmt.update.injEq, false_or] at hq h
    rw [hq, h.1]
    exact hkey

/-- An update and an insert are tidy if they concern different rows. -/
theorem tidy_update_insert (hr : refs r = needs) (hkey : key r ≠ k) :
    Tidy needs [(.update k a : Stmt ρ κ α), .insert r] where
  sound := ⟨fun _ hk => hr ▸ hk, trivial⟩
  blocked q hq j hj := by
    simp only [List.mem_cons, reduceCtorEq, Stmt.insert.injEq, List.not_mem_nil, or_false,
      false_or] at hq
    rw [hq, hr]
    exact hj
  late _ _ h := nomatch h
  separate q j b hq h := by
    simp only [List.mem_cons, Stmt.insert.injEq, reduceCtorEq, List.not_mem_nil, or_false,
      Stmt.update.injEq, false_or] at hq h
    rw [hq, h.1]
    exact hkey

/-- A row without references and rows that refer to it only. -/
theorem tidy_insertAll (hrefs : refs r = []) (hrs : ∀ q ∈ rs, refs q = [key r]) :
    Tidy [] ((.insert r : Stmt ρ κ α) :: rs.map .insert) where
  sound := by
    -- the rows of `rs` only need the row of the head, which is there by then
    have hsound : ∀ {avail : List κ} {qs : List ρ}, key r ∈ avail → (∀ q ∈ qs, refs q = [key r]) →
        Sound avail (qs.map (.insert : ρ → Stmt ρ κ α)) := by
      intro avail qs havail hqs
      induction qs generalizing avail with
      | nil => trivial
      | cons q qs ih =>
        refine ⟨fun k hk => ?_, ih (List.mem_cons_of_mem _ havail) fun x hx =>
          hqs x (List.mem_cons_of_mem _ hx)⟩
        rw [hqs q List.mem_cons_self, List.mem_singleton] at hk
        exact hk ▸ havail
    exact ⟨fun k hk => by rw [hrefs] at hk; exact hk, hsound List.mem_cons_self hrs⟩
  blocked _ _ _ hk := nomatch hk
  late _ _ h := by simp at h
  separate _ _ _ _ h := by simp at h

/-- Fewer statements leave the inserts sound. -/
theorem Sound.take {avail : List κ} (h : Sound avail ss) : Sound avail (ss.take n) := by
  induction ss generalizing avail n with
  | nil => rw [List.take_nil]; trivial
  | cons s ss ih =>
    cases n with
    | zero => trivial
    | succ n =>
      cases s with
      | insert r => exact ⟨h.1, ih h.2⟩
      | update k a =>
        have hrest : Sound avail ss := h
        exact ih hrest

omit [Schema ρ κ α] in
/-- Fewer statements leave the updates late. -/
theorem LateUpdates.take (h : LateUpdates needs ss) : LateUpdates needs (ss.take n) := by
  induction ss generalizing n with
  | nil => rw [List.take_nil]; trivial
  | cons s ss ih =>
    cases n with
    | zero => trivial
    | succ n =>
      cases s with
      | insert r => exact fun k a hmem => h k a (List.take_subset _ _ hmem)
      | update k a => exact ih h

/-- The first statements of a batch. -/
theorem Tidy.take (h : Tidy needs ss) : Tidy needs (ss.take n) where
  sound := h.sound.take
  blocked r hr := h.blocked r (List.take_subset _ _ hr)
  late := h.late.take
  separate r k a hr ha := h.separate r k a (List.take_subset _ _ hr) (List.take_subset _ _ ha)

end Shapes

/-! ## Projections of an event stream -/

/-- A batch of statements for every event. -/
structure Projection (E : Type*) (ρ : Type*) {κ α : Type*} [Schema ρ κ α] where
  batch : E → List (Stmt ρ κ α)
  needs : E → List κ
  tidy : ∀ e, Tidy (needs e) (batch e)

namespace Projection

variable {E : Type*} (P : Projection E ρ) {db : Relation ρ} {k : κ} {r : ρ} {e : E} {es : List E}

/-- The relation after the batches of some events, each executed as far as it goes. -/
def ingest (db : Relation ρ) (es : List E) : Relation ρ :=
  es.foldl (fun db e => (db.execAll (P.batch e)).1) db

/-- The assignments of the events to the row under `k`, in order. -/
def updates (k : κ) (es : List E) : List α := es.flatMap fun e => updatesAt k (stored (P.batch e))

/-- The row an event inserts under `k`. -/
def inserts (k : κ) (e : E) : Option ρ := insertAt k (stored (P.batch e))

/-- The keys an event needs are present. -/
abbrev Ready (db : Relation ρ) (e : E) : Prop := ∀ n ∈ P.needs e, db.Has n

@[simp] theorem ingest_nil : P.ingest db [] = db := rfl

@[simp] theorem ingest_cons :
    P.ingest db (e :: es) = P.ingest (db.execAll (P.batch e)).1 es := rfl

theorem ingest_append {es' : List E} :
    P.ingest db (es ++ es') = P.ingest (P.ingest db es) es' := List.foldl_append

theorem updates_cons : P.updates k (e :: es) =
    updatesAt k (stored (P.batch e)) ++ P.updates k es := List.flatMap_cons

theorem updates_append {es' : List E} :
    P.updates k (es ++ es') = P.updates k es ++ P.updates k es' := List.flatMap_append

theorem updates_eq_nil (h : ∀ e ∈ es, updatesAt k (stored (P.batch e)) = []) :
    P.updates k es = [] := List.flatMap_eq_nil_iff.mpr h

/-- Events that make no assignment can be left out. -/
theorem updates_filter {p : E → Bool}
    (h : ∀ e ∈ es, p e = false → updatesAt k (stored (P.batch e)) = []) :
    P.updates k (es.filter p) = P.updates k es := by
  induction es with
  | nil => rfl
  | cons e es ih =>
    have hrest := ih fun x hx => h x (List.mem_cons_of_mem _ hx)
    -- an event that is filtered out has no updates of the row
    cases hp : p e with
    | true => rw [List.filter_cons_of_pos hp, updates_cons, updates_cons, hrest]
    | false =>
      rw [List.filter_cons_of_neg (by simp [hp]), updates_cons, h e List.mem_cons_self hp,
        List.nil_append, hrest]

/-- What one event does to the row under `k`. -/
theorem get?_step : (db.execAll (P.batch e)).1.get? k = match db.get? k with
    | some r => some (assignAll (updatesAt k (stored (P.batch e))) r)
    | none => if P.Ready db e then P.inserts k e else none :=
  (P.tidy e).get?_execAll

/-- An existing row only sees the updates of its key. -/
theorem get?_ingest_of_some (h : db.get? k = some r) :
    (P.ingest db es).get? k = some (assignAll (P.updates k es) r) := by
  induction es generalizing db r with
  | nil => exact h
  | cons e es ih =>
    -- the batch of one event makes its own updates of a row that is there
    have hstep : (db.execAll (P.batch e)).1.get? k =
        some (assignAll (updatesAt k (stored (P.batch e))) r) := by
      rw [get?_step, h]
    rw [ingest_cons, ih hstep, updates_cons, assignAll_append]

/-- A row that is there is there after more events. -/
theorem has_ingest (h : db.Has k) : (P.ingest db es).Has k := by
  obtain ⟨r, hr⟩ := Option.isSome_iff_exists.mp h
  rw [Relation.Has, P.get?_ingest_of_some hr]
  rfl

/-- A new row was inserted by one of the events, and saw the updates after it. -/
theorem get?_ingest_of_none (h : db.get? k = none) (hr : (P.ingest db es).get? k = some r) :
    ∃ pre e post row, es = pre ++ e :: post ∧ (P.ingest db pre).get? k = none ∧
      P.Ready (P.ingest db pre) e ∧ P.inserts k e = some row ∧
      r = assignAll (P.updates k post) row := by
  induction es generalizing db with
  | nil =>
    rw [ingest_nil, h] at hr
    cases hr
  | cons e es ih =>
    have hstep : (db.execAll (P.batch e)).1.get? k =
        if P.Ready db e then P.inserts k e else none := by
      rw [get?_step, h]
    -- the row is there after the first event, or a later event inserts it
    cases hrow : (db.execAll (P.batch e)).1.get? k with
    | some row =>
      rw [ingest_cons, P.get?_ingest_of_some hrow] at hr
      rw [hstep] at hrow
      by_cases hready : P.Ready db e
      · rw [if_pos hready] at hrow
        exact ⟨[], e, es, row, rfl, h, hready, hrow, (Option.some.inj hr).symm⟩
      · rw [if_neg hready] at hrow
        cases hrow
    | none =>
      rw [ingest_cons] at hr
      obtain ⟨pre, e', post, row, rfl, hnone, hready, hins, heq⟩ := ih hrow hr
      exact ⟨e :: pre, e', post, row, rfl, hnone, hready, hins, heq⟩

/-- Events leave a relation as it is exactly when they leave every row as it is. -/
theorem ingest_eq_self_iff :
    P.ingest db es = db ↔ ∀ k, (P.ingest db es).get? k = db.get? k := by
  constructor
  · intro h k
    rw [h]
  · intro h
    -- no row is removed, so equal lookups are equal relations
    refine Relation.eq_of_get? ?_ h
    clear h
    induction es generalizing db with
    | nil => exact ⟨[], (List.append_nil _).symm⟩
    | cons e es ih =>
      obtain ⟨new, hnew⟩ := db.keys_execAll (P.batch e)
      obtain ⟨more, hmore⟩ := @ih (db.execAll (P.batch e)).1
      exact ⟨new ++ more, by rw [ingest_cons, hmore, hnew, List.append_assoc]⟩

/-- Every prefix of some events leaves a relation as it is exactly when each of them does. -/
theorem ingest_take_eq_self_iff :
    (∀ n, P.ingest db (es.take n) = db) ↔ ∀ e ∈ es, P.ingest db [e] = db := by
  constructor
  · intro h e he
    obtain ⟨pre, post, rfl⟩ := List.append_of_mem he
    -- the prefixes before and after `e`
    have hbefore := h pre.length
    have hafter := h (pre ++ [e]).length
    rw [List.take_left] at hbefore
    rw [List.append_cons pre e post, List.take_left, ingest_append, hbefore] at hafter
    exact hafter
  · intro h n
    induction es generalizing n with
    | nil => rw [List.take_nil, ingest_nil]
    | cons e es ih =>
      cases n with
      | zero => rw [List.take_zero, ingest_nil]
      | succ n =>
        have hstep : (db.execAll (P.batch e)).1 = db := h e List.mem_cons_self
        rw [List.take_succ_cons, ingest_cons, hstep]
        exact ih (fun x hx => h x (List.mem_cons_of_mem _ hx)) n

/-- When a key is present. -/
theorem has_ingest_iff : (P.ingest db es).Has k ↔ db.Has k ∨
    ∃ pre e post, es = pre ++ e :: post ∧ P.Ready (P.ingest db pre) e ∧
      (P.inserts k e).isSome = true := by
  constructor
  · intro h
    -- a row that is new was inserted by some event that found what it needs
    cases hk : db.get? k with
    | some r =>
      left
      rw [Relation.Has, hk]
      rfl
    | none =>
      obtain ⟨r, hr⟩ := Option.isSome_iff_exists.mp h
      obtain ⟨pre, e, post, row, hes, -, hready, hins, -⟩ := P.get?_ingest_of_none hk hr
      exact .inr ⟨pre, e, post, hes, hready, by rw [hins]; rfl⟩
  · rintro (h | ⟨pre, e, post, rfl, hready, hins⟩)
    · exact P.has_ingest h
    · rw [ingest_append, ingest_cons]
      refine P.has_ingest ?_
      rw [Relation.Has, get?_step, if_pos hready]
      cases (P.ingest db pre).get? k with
      | some r => rfl
      | none => exact hins

/-- Starting from nothing, only an event makes a key present. -/
theorem has_ingest_empty : (P.ingest ∅ es).Has k ↔
    ∃ pre e post, es = pre ++ e :: post ∧ P.Ready (P.ingest ∅ pre) e ∧
      (P.inserts k e).isSome = true := by
  have hnot : ¬ (∅ : Relation ρ).Has k := by
    rw [Relation.Has, Relation.get?_empty]
    exact nofun
  rw [has_ingest_iff]
  exact or_iff_right hnot

end Projection

end Relational

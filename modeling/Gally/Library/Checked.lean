/-!
# Computations that abort

Step functions of a transaction system either return a value or abort with an
error and leave no trace. This file fixes the small vocabulary such step
functions are written in (`ensure`, `guarded`, `ofOption`) over `Except`, and the
`_eq_ok` lemmas that turn a successful run into the conjunction of its guards.
Everything is stated over an arbitrary type of errors.
-/

namespace Checked

variable {ε α β : Type _}

/-- Return `v` when `p` holds and abort with `e` otherwise. -/
def guarded (p : Prop) [Decidable p] (e : ε) (v : α) : Except ε α :=
  if p then .ok v else .error e

/-- Abort with `e` unless `p` holds. -/
def ensure (p : Prop) [Decidable p] (e : ε) : Except ε Unit :=
  guarded p e ()

/-- The value of an optional, or the abort `e` when there is none. -/
def ofOption (e : ε) : Option α → Except ε α
  | some a => .ok a
  | none => .error e

@[simp] theorem guarded_eq_ok {p : Prop} [Decidable p] {e : ε} {v r : α} :
    guarded p e v = .ok r ↔ p ∧ v = r := by
  by_cases h : p <;> simp [guarded, h]

@[simp] theorem ensure_eq_ok {p : Prop} [Decidable p] {e : ε} {u : Unit} :
    ensure p e = .ok u ↔ p := by
  simp [ensure]

@[simp] theorem ofOption_eq_ok {e : ε} {o : Option α} {a : α} :
    ofOption e o = .ok a ↔ o = some a := by
  cases o <;> simp [ofOption]

/-- A sequence returns `r` exactly when its first step returns some value on which
    the remaining steps return `r`. -/
@[simp] theorem seq_eq_ok {first : Except ε α} {rest : α → Except ε β} {r : β} :
    (first >>= rest) = .ok r ↔ ∃ v, first = .ok v ∧ rest v = .ok r := by
  rcases first with e | v <;> simp [bind, Except.bind]

@[simp] theorem return_eq_ok {v r : α} : (return v : Except ε α) = .ok r ↔ v = r := by
  change (Except.ok v : Except ε α) = .ok r ↔ v = r
  rw [Except.ok.injEq]

/-- A successful branch is a success of the branch its condition selects. -/
theorem ite_eq_ok {p : Prop} [Decidable p] {x y : Except ε α} {a : α} :
    (if p then x else y) = .ok a ↔ (p ∧ x = .ok a) ∨ (¬ p ∧ y = .ok a) := by
  by_cases h : p <;> simp [h]

/-- The computation returns a value rather than aborting. -/
def Succeeds (x : Except ε α) : Prop := ∃ a, x = .ok a

@[simp] theorem succeeds_ok (a : α) : Succeeds (.ok a : Except ε α) := ⟨a, rfl⟩

@[simp] theorem not_succeeds_error (e : ε) : ¬ Succeeds (.error e : Except ε α) := by
  intro ⟨a, h⟩; cases h

/-! ## Errors that do not occur -/

/-- The computation does not abort with `e`. -/
def Avoids (x : Except ε α) (e : ε) : Prop := x ≠ .error e

@[simp] theorem avoids_ok (a : α) (e : ε) : Avoids (.ok a : Except ε α) e := by
  simp [Avoids]

@[simp] theorem avoids_return (a : α) (e : ε) : Avoids (return a : Except ε α) e := avoids_ok a e

@[simp] theorem avoids_guarded {p : Prop} [Decidable p] {e e' : ε} {v : α} :
    Avoids (guarded p e v) e' ↔ (e = e' → p) := by
  by_cases h : p <;> simp [Avoids, guarded, h]

@[simp] theorem avoids_ensure {p : Prop} [Decidable p] {e e' : ε} :
    Avoids (ensure p e) e' ↔ (e = e' → p) := avoids_guarded

@[simp] theorem avoids_ofOption {e e' : ε} {o : Option α} :
    Avoids (ofOption e o) e' ↔ (e = e' → o.isSome = true) := by
  cases o <;> simp [Avoids, ofOption]

/-- A sequence avoids an error when each step does, on what the steps before it return. -/
theorem avoids_seq {first : Except ε α} {rest : α → Except ε β} {e : ε} :
    Avoids (first >>= rest) e ↔ Avoids first e ∧ ∀ v, first = .ok v → Avoids (rest v) e := by
  rcases first with _ | v <;> simp [Avoids, bind, Except.bind]

/-- A branch avoids an error if the side that is taken does. -/
theorem avoids_ite {p : Prop} [Decidable p] {x y : Except ε α} {e : ε} :
    Avoids (if p then x else y) e ↔ (p → Avoids x e) ∧ (¬ p → Avoids y e) := by
  by_cases h : p <;> simp [h]

/-- The decidable test that a computation returns a value satisfying `q`. -/
def returns (x : Except ε α) (q : α → Bool) : Bool :=
  match x with
  | .ok a => q a
  | .error _ => false

/-- The check of a result, as a statement about the result. -/
theorem returns_iff {x : Except ε α} {q : α → Bool} :
    returns x q = true ↔ ∃ a, x = .ok a ∧ q a = true := by
  cases x <;> simp [returns]

/-- The decidable test that a computation aborts with `e`. -/
def aborts [DecidableEq ε] (x : Except ε α) (e : ε) : Bool :=
  match x with
  | .ok _ => false
  | .error e' => e' = e

/-- The check of an abort, as a statement about the computation. -/
theorem aborts_iff [DecidableEq ε] {x : Except ε α} {e : ε} :
    aborts x e = true ↔ x = .error e := by
  cases x <;> simp [aborts]

end Checked

import Mathlib.Data.List.Induction
import Gally.Library.Relation

/-!
# Columns that are overwritten

Every assignment sets one column: it hides earlier assignments to the column and
commutes with assignments to others. So a row is determined by the last assignment
to each column (`assignAll_absorb`), and making some assignments once more changes
nothing exactly when they end with the same ones (`assignAll_eq_self_iff`).
-/

namespace Relational

open Schema

/-- Assignments name the column they set. -/
class HasColumn (α : Type*) (χ : outParam (Type*)) where
  column : α → χ

open HasColumn

/-- Assignments overwrite their column. `Writable a r` says that the row has it. -/
class Columns (ρ : Type*) (κ α χ : outParam (Type*)) [Schema ρ κ α] [HasColumn α χ] where
  Writable (a : α) (r : ρ) : Prop
  overwrite : ∀ (a b : α) (r : ρ), column a = column b → assign a (assign b r) = assign a r
  commute : ∀ (a b : α) (r : ρ), column a ≠ column b →
    assign a (assign b r) = assign b (assign a r)
  injective : ∀ (a b : α) (r : ρ), column a = column b → Writable a r →
    assign a r = assign b r → a = b

open Columns

variable {ρ κ α χ : Type*} [Schema ρ κ α] [HasColumn α χ] {a b : α} {as bs : List α} {r : ρ}

/-- What each step may set holds the last value that was set. -/
theorem foldl_getLast? {σ β γ : Type*} {step : σ → β → σ} {f : σ → γ} {g : β → Option γ}
    (h : ∀ s b, f (step s b) = (g b).getD (f s)) (s : σ) (bs : List β) :
    f (bs.foldl step s) = (bs.filterMap g).getLast?.getD (f s) := by
  induction bs using List.reverseRecOn with
  | nil => rfl
  | append_singleton bs b ih =>
    rw [List.foldl_append, List.foldl_cons, List.foldl_nil, h, ih, List.filterMap_append]
    cases hb : g b <;> simp [hb]

/-! ## The last assignment to a column -/

section LastWrite

variable [DecidableEq χ] {c : χ}

/-- The last assignment to a column. -/
def lastWrite (c : χ) (as : List α) : Option α := (as.filter fun a => column a = c).getLast?

/-- There is no last write if no assignment is to the column. -/
theorem lastWrite_eq_none : lastWrite c as = none ↔ ∀ a ∈ as, column a ≠ c := by
  simp [lastWrite]

/-- The last write of two lists is that of the second, if it has one. -/
theorem lastWrite_append :
    lastWrite c (as ++ bs) = (lastWrite c bs).or (lastWrite c as) := by
  rw [lastWrite, List.filter_append, List.getLast?_append]
  rfl

/-- After the last assignment to a column there are assignments to other columns only. -/
theorem lastWrite_eq_some (h : lastWrite c as = some a) :
    ∃ pre post, as = pre ++ a :: post ∧ column a = c ∧ ∀ b ∈ post, column b ≠ c := by
  -- from the end: the last assignment is the answer if it is to the column
  induction as using List.reverseRecOn with
  | nil => cases h
  | append_singleton as b ih =>
    rw [lastWrite_append] at h
    by_cases hb : column b = c
    · have hlast : lastWrite c [b] = some b := by simp [lastWrite, hb]
      rw [hlast, Option.some_or] at h
      obtain rfl := Option.some.inj h
      exact ⟨as, [], rfl, hb, by simp⟩
    · have hlast : lastWrite c [b] = none := by simp [lastWrite, hb]
      rw [hlast, Option.none_or] at h
      obtain ⟨pre, post, rfl, hcol, hpost⟩ := ih h
      refine ⟨pre, post ++ [b], by simp, hcol, ?_⟩
      intro x hx
      rcases List.mem_append.mp hx with hx | hx
      · exact hpost x hx
      · exact List.mem_singleton.mp hx ▸ hb

/-- A column that is written has a last write. -/
theorem exists_lastWrite (h : a ∈ as) : ∃ b, lastWrite (column a) as = some b := by
  cases hlast : lastWrite (column a) as with
  | some b => exact ⟨b, rfl⟩
  | none => exact absurd rfl (lastWrite_eq_none.mp hlast a h)

end LastWrite

/-! ## What a row keeps -/

variable [Columns ρ κ α χ]

/-- An assignment is hidden by later ones that cover its column. -/
theorem assignAll_assign (h : column a ∈ as.map column) :
    assignAll as (assign a r) = assignAll as r := by
  induction as generalizing r with
  | nil => cases h
  | cons b as ih =>
    rw [assignAll_cons, assignAll_cons]
    -- a later assignment to the same column hides `a`; one to another column lets it pass
    by_cases hab : column b = column a
    · rw [overwrite b a r hab]
    · have hmem : column a ∈ as.map column := by
        rcases List.mem_cons.mp h with heq | hmem
        · exact absurd heq.symm hab
        · exact hmem
      rw [commute b a r hab, ih hmem]

/-- So are several. -/
theorem assignAll_absorb (h : ∀ b ∈ bs, column b ∈ as.map column) :
    assignAll as (assignAll bs r) = assignAll as r := by
  induction bs generalizing r with
  | nil => rfl
  | cons b bs ih =>
    rw [assignAll_cons, ih fun c hc => h c (List.mem_cons_of_mem _ hc),
      assignAll_assign (h b List.mem_cons_self)]

/-- Assignments to other columns can be exchanged with. -/
theorem assign_assignAll_comm (h : ∀ b ∈ as, column b ≠ column a) :
    assign a (assignAll as r) = assignAll as (assign a r) := by
  induction as generalizing r with
  | nil => rfl
  | cons b as ih =>
    rw [assignAll_cons, assignAll_cons, ih fun c hc => h c (List.mem_cons_of_mem _ hc),
      commute b a r (h b List.mem_cons_self)]

variable [DecidableEq χ]

/-- The last assignment to its column stays in force. -/
theorem assign_of_lastWrite (h : lastWrite (column a) as = some a) :
    assign a (assignAll as r) = assignAll as r := by
  obtain ⟨pre, post, rfl, -, hpost⟩ := lastWrite_eq_some h
  rw [assignAll_append, assignAll_cons, assign_assignAll_comm hpost, overwrite a a _ rfl]

/-- Assignments that end as the ones before them did change nothing. -/
theorem assignAll_of_lastWrite
    (h : ∀ b ∈ bs, lastWrite (column b) bs = lastWrite (column b) as) :
    assignAll bs (assignAll as r) = assignAll as r := by
  induction bs with
  | nil => rfl
  | cons b bs ih =>
    -- the last write of a column that is written later is the same without `b`
    have hrest : ∀ x ∈ bs, lastWrite (column x) bs = lastWrite (column x) as := by
      intro x hx
      obtain ⟨y, hy⟩ := exists_lastWrite hx
      have hall := h x (List.mem_cons_of_mem _ hx)
      rw [← List.singleton_append, lastWrite_append, hy, Option.some_or] at hall
      rw [hy, hall]
    -- `b` is either hidden by a later write or the last one, which is in force already
    by_cases hb : column b ∈ bs.map column
    · rw [assignAll_cons, assignAll_assign hb, ih hrest]
    · have hnone : lastWrite (column b) bs = none := by
        rw [lastWrite_eq_none]
        intro x hx heq
        exact hb (heq ▸ List.mem_map_of_mem hx)
      have hself : lastWrite (column b) [b] = some b := by simp [lastWrite]
      have hlast := h b List.mem_cons_self
      rw [← List.singleton_append, lastWrite_append, hnone, Option.none_or, hself] at hlast
      rw [assignAll_cons, assign_of_lastWrite hlast.symm, ih hrest]

/-- Making some of the assignments again changes nothing exactly when they end as all of
    them do. -/
theorem assignAll_eq_self_iff (hsub : ∀ b ∈ bs, b ∈ as)
    (hw : ∀ b ∈ bs, Writable b (assignAll as r)) :
    assignAll bs (assignAll as r) = assignAll as r ↔
      ∀ b ∈ bs, lastWrite (column b) bs = lastWrite (column b) as := by
  refine ⟨fun h b hb => ?_, assignAll_of_lastWrite⟩
  obtain ⟨x, hx⟩ := exists_lastWrite hb
  obtain ⟨y, hy⟩ := exists_lastWrite (hsub b hb)
  obtain ⟨pre, post, hbs, hcolx, -⟩ := lastWrite_eq_some hx
  obtain ⟨-, -, -, hcoly, -⟩ := lastWrite_eq_some hy
  -- both are in force
  have hforcex : assign x (assignAll as r) = assignAll as r := by
    have hagain := assign_of_lastWrite (r := assignAll as r) (hcolx ▸ hx)
    rwa [h] at hagain
  have hforcey : assign y (assignAll as r) = assignAll as r := assign_of_lastWrite (hcoly ▸ hy)
  have hmem : x ∈ bs := hbs ▸ List.mem_append_right _ List.mem_cons_self
  rw [hx, hy, injective x y _ (hcolx.trans hcoly.symm) (hw x hmem) (hforcex.trans hforcey.symm)]

end Relational

import Mathlib.Data.List.Basic

/-!
# Replies of a stateful server

A server answers requests one after another (`replies`). What one client sees of a run, a smaller
server that is given only this client's requests answers too, if a relation between their states
is kept (`seen_replies`). The relation may speak of the requests to come.
-/

namespace Replies

variable {σ τ α β γ : Type*}

/-- The answers to requests, one after another. -/
def replies (step : σ → α → σ × β) : σ → List α → List β
  | _, [] => []
  | s, a :: as => (step s a).2 :: replies step (step s a).1 as

/-- The selected requests with their answers. -/
def seen (select : α → Option γ) (as : List α) (bs : List β) : List (γ × β) :=
  (as.zip bs).filterMap fun p => (select p.1).map fun c => (c, p.2)

variable {step : σ → α → σ × β} {s : σ} {a : α} {as : List α} {bs : List β} {b : β}
  {select : α → Option γ} {c : γ}

@[simp] theorem replies_nil : replies step s [] = [] := rfl

@[simp] theorem replies_cons :
    replies step s (a :: as) = (step s a).2 :: replies step (step s a).1 as := rfl

/-- One reply for each request. -/
@[simp] theorem length_replies : (replies step s as).length = as.length := by
  induction as generalizing s with
  | nil => rfl
  | cons a as ih => rw [replies_cons, List.length_cons, ih, List.length_cons]

/-- A reply to a selected request is seen. -/
theorem seen_cons_some (h : select a = some c) :
    seen select (a :: as) (b :: bs) = (c, b) :: seen select as bs := by
  simp [seen, h]

/-- A reply to any other request is not. -/
theorem seen_cons_none (h : select a = none) :
    seen select (a :: as) (b :: bs) = seen select as bs := by
  simp [seen, h]

/-- Counting what a client sees. -/
theorem countP_seen (p : γ × β → Bool) : (seen select as bs).countP p =
    (as.zip bs).countP fun q => (select q.1).any fun c => p (c, q.2) := by
  rw [seen, List.countP_filterMap]
  refine List.countP_congr fun q _ => ?_
  cases select q.1 <;> rfl

/-- A client sees what a server of its own answers. -/
theorem seen_replies {step' : τ → γ → τ × β} {R : List α → σ → τ → Prop}
    (hsome : ∀ {a as c s t}, select a = some c → R (a :: as) s t →
      (step s a).2 = (step' t c).2 ∧ R as (step s a).1 (step' t c).1)
    (hnone : ∀ {a as s t}, select a = none → R (a :: as) s t → R as (step s a).1 t)
    {t : τ} (h : R as s t) : seen select as (replies step s as) =
      (as.filterMap select).zip (replies step' t (as.filterMap select)) := by
  induction as generalizing s t with
  | nil => rfl
  | cons a as ih =>
    rw [replies_cons]
    -- what is not selected leaves the small server alone; what is is answered by both alike
    cases hsel : select a with
    | none => rw [seen_cons_none hsel, List.filterMap_cons_none hsel, ih (hnone hsel h)]
    | some c =>
      obtain ⟨hreply, hrest⟩ := hsome hsel h
      rw [seen_cons_some hsel, List.filterMap_cons_some hsel, replies_cons, List.zip_cons_cons,
        hreply, ih hrest]

/-- Servers in related states give the same answers. -/
theorem replies_eq {step' : τ → α → τ × β} {R : List α → σ → τ → Prop}
    (hstep : ∀ {a as s t}, R (a :: as) s t →
      (step s a).2 = (step' t a).2 ∧ R as (step s a).1 (step' t a).1)
    {t : τ} (h : R as s t) : replies step s as = replies step' t as := by
  induction as generalizing s t with
  | nil => rfl
  | cons a as ih =>
    obtain ⟨hreply, hrest⟩ := hstep h
    rw [replies_cons, replies_cons, hreply, ih hrest]

end Replies

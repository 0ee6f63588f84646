import Mathlib.Algebra.Ring.Nat
import Gally.Library.Checked

/-!
# Runs of a fallible step function

`exec step s ls` performs the actions `ls` one after another from `s` and aborts
as soon as one of them does. An invariant is established for whole runs from what
one successful step preserves (`exec_preserves`); what a run brought about, one of
its actions brought about (`exec_origin`); an invariant with a variant leads some run
to its goal (`exec_variant`).
-/

namespace Run

open Checked

variable {σ ℓ ε : Type _}

/-- Perform the actions `ls` in order, starting in `s`. -/
def exec (step : σ → ℓ → Except ε σ) : σ → List ℓ → Except ε σ
  | s, [] => .ok s
  | s, l :: ls => step s l >>= fun s' => exec step s' ls

variable {step : σ → ℓ → Except ε σ} {s t : σ}

@[simp] theorem exec_nil_eq_ok : exec step s [] = .ok t ↔ s = t := by
  simp [exec]

@[simp] theorem exec_cons_eq_ok {l : ℓ} {ls : List ℓ} :
    exec step s (l :: ls) = .ok t ↔ ∃ s', step s l = .ok s' ∧ exec step s' ls = .ok t := by
  simp [exec]

/-- A run can be cut anywhere. -/
theorem exec_append_eq_ok {ls ms : List ℓ} :
    exec step s (ls ++ ms) = .ok t ↔ ∃ s', exec step s ls = .ok s' ∧ exec step s' ms = .ok t := by
  induction ls generalizing s with
  | nil => simp
  | cons l ls ih =>
    -- both sides name the state after the first part, the state after `l` comes first
    simp only [List.cons_append, exec_cons_eq_ok, ih]
    constructor
    · intro ⟨s', h, u, hu, ht⟩
      exact ⟨u, ⟨s', h, hu⟩, ht⟩
    · intro ⟨u, ⟨s', h, hu⟩, ht⟩
      exact ⟨s', h, u, hu, ht⟩

/-- A run is the run of all but its last step, followed by that step. -/
theorem exec_snoc_eq_ok {ls : List ℓ} {l : ℓ} :
    exec step s (ls ++ [l]) = .ok t ↔ ∃ s', exec step s ls = .ok s' ∧ step s' l = .ok t := by
  simp [exec_append_eq_ok]

/-- What the steps of a successful run preserve holds at its end. -/
theorem exec_preserves_of_mem {P : σ → Prop} {ls : List ℓ}
    (hstep : ∀ l ∈ ls, ∀ s s', P s → step s l = .ok s' → P s') (hs : P s)
    (h : exec step s ls = .ok t) : P t := by
  induction ls generalizing s with
  | nil =>
    rw [exec_nil_eq_ok] at h
    exact h ▸ hs
  -- the hypothesis is about the members of the list, so it is weakened along with it
  | cons l ls ih =>
    obtain ⟨s', hl, hls⟩ := exec_cons_eq_ok.mp h
    exact ih (fun k hk => hstep k (List.mem_cons_of_mem l hk))
      (hstep l List.mem_cons_self s s' hs hl) hls

/-- What every successful step preserves holds at the end of a successful run. -/
theorem exec_preserves {P : σ → Prop} (hstep : ∀ s l s', P s → step s l = .ok s' → P s')
    {ls : List ℓ} (hs : P s) (h : exec step s ls = .ok t) : P t :=
  exec_preserves_of_mem (fun l _ s s' => hstep s l s') hs h

/-- What holds at the end of a run and not at its start was brought about by one of its
    actions. -/
theorem exec_origin {P : σ → Prop} {ls : List ℓ} (hs : ¬ P s) (h : exec step s ls = .ok t)
    (ht : P t) : ∃ pre l post u u', ls = pre ++ l :: post ∧ exec step s pre = .ok u ∧
      step u l = .ok u' ∧ exec step u' post = .ok t ∧ ¬ P u ∧ P u' := by
  induction ls generalizing s with
  | nil =>
    rw [exec_nil_eq_ok] at h
    exact absurd (h ▸ ht) hs
  | cons l ls ih =>
    obtain ⟨s', hl, hls⟩ := exec_cons_eq_ok.mp h
    -- either the first step makes `P` true, or the step that does is in the rest
    by_cases hs' : P s'
    · exact ⟨[], l, ls, s, s', rfl, exec_nil_eq_ok.mpr rfl, hl, hls, hs, hs'⟩
    · obtain ⟨pre, k, post, u, u', rfl, hpre, hk, hpost, hu, hu'⟩ := ih hs' hls
      exact ⟨l :: pre, k, post, u, u', rfl, exec_cons_eq_ok.mpr ⟨s', hl, hpre⟩, hk, hpost, hu, hu'⟩

/-- The variant rule: where every state that satisfies the invariant is done or has a step to
    one with a smaller variant, some run gets it done, in at most as many steps as the variant
    counts. Each step of the run is one of those. -/
theorem exec_variant_by {I : σ → Nat → Prop} {q : ℓ → Prop} {D : σ → Prop}
    (progress : ∀ s n, I s n → D s ∨ ∃ l t m, q l ∧ step s l = .ok t ∧ I t m ∧ m < n) {n : Nat}
    (hs : I s n) : ∃ ls t, exec step s ls = .ok t ∧ D t ∧ (∀ l ∈ ls, q l) ∧ ls.length ≤ n := by
  -- the variant is the bound on the length, so the induction is the strong one on it
  induction n using Nat.strongRecOn generalizing s with
  | ind n ih =>
    rcases progress s n hs with hdone | ⟨l, u, m, hq, hl, hu, hm⟩
    · exact ⟨[], s, exec_nil_eq_ok.mpr rfl, hdone, by simp, Nat.zero_le n⟩
    · obtain ⟨ls, t, hls, ht, hrest, hlength⟩ := ih m hm hu
      exact ⟨l :: ls, t, exec_cons_eq_ok.mpr ⟨u, hl, hls⟩, ht, List.forall_mem_cons.mpr ⟨hq, hrest⟩,
        Nat.lt_of_le_of_lt hlength hm⟩

/-- If every state that is not done has a step that lowers a measure, some run ends in a state that
    is done. -/
theorem exec_variant {I : σ → Nat → Prop} {D : σ → Prop}
    (progress : ∀ s n, I s n → D s ∨ ∃ l t m, step s l = .ok t ∧ I t m ∧ m < n) {n : Nat}
    (hs : I s n) : ∃ ls t, exec step s ls = .ok t ∧ D t := by
  obtain ⟨ls, t, hls, ht, -⟩ := exec_variant_by (q := fun _ => True)
    (fun s n h => (progress s n h).imp_right fun ⟨l, t, m, hl, ht, hm⟩ =>
      ⟨l, t, m, trivial, hl, ht, hm⟩) hs
  exact ⟨ls, t, hls, ht⟩

/-- What every action of a successful run satisfies where an invariant holds. -/
theorem exec_forall {I : σ → Prop} {q : ℓ → Prop} {ls : List ℓ}
    (hstep : ∀ l ∈ ls, ∀ s s', I s → step s l = .ok s' → I s' ∧ q l) (hs : I s)
    (h : exec step s ls = .ok t) : I t ∧ ∀ l ∈ ls, q l := by
  induction ls generalizing s with
  | nil =>
    rw [exec_nil_eq_ok] at h
    exact ⟨h ▸ hs, fun _ hl => absurd hl List.not_mem_nil⟩
  | cons l ls ih =>
    obtain ⟨s', hl, hls⟩ := exec_cons_eq_ok.mp h
    obtain ⟨hs', hq⟩ := hstep l List.mem_cons_self s s' hs hl
    -- `q` of the first step holds in the state before it, the rest goes on from the one after
    obtain ⟨ht, hrest⟩ := ih (fun k hk => hstep k (List.mem_cons_of_mem l hk)) hs' hls
    exact ⟨ht, List.forall_mem_cons.mpr ⟨hq, hrest⟩⟩

/-- What every step adds to and takes from a balance, a run adds and takes in total. -/
theorem exec_balance {balance : σ → Nat} {credit debit : ℓ → Nat} {ls : List ℓ}
    (hstep : ∀ l ∈ ls, ∀ s s', step s l = .ok s' → balance s' + debit l = balance s + credit l)
    (h : exec step s ls = .ok t) :
    balance t + (ls.map debit).sum = balance s + (ls.map credit).sum := by
  induction ls generalizing s with
  | nil =>
    rw [exec_nil_eq_ok] at h
    rw [h, List.map_nil, List.map_nil]
  | cons l ls ih =>
    obtain ⟨s', hl, hls⟩ := exec_cons_eq_ok.mp h
    -- the balance moves by the first step, and from there by the rest
    have hhead := hstep l List.mem_cons_self s s' hl
    have htail := ih (fun k hk => hstep k (List.mem_cons_of_mem l hk)) hls
    simp only [List.map_cons, List.sum_cons]
    omega

/-- A run commutes with a map of the states with which its steps commute. -/
theorem exec_map {τ : Type _} {step' : τ → ℓ → Except ε τ} {f : σ → τ} {ls : List ℓ}
    (hstep : ∀ l ∈ ls, ∀ s, step' (f s) l = f <$> step s l) :
    exec step' (f s) ls = f <$> exec step s ls := by
  induction ls generalizing s with
  | nil => rfl
  | cons l ls ih =>
    have hrest := fun k hk => hstep k (List.mem_cons_of_mem l hk)
    simp only [exec, hstep l List.mem_cons_self s, map_bind, bind_map_left]
    exact congrArg _ (funext fun s' => ih hrest)

/-- `Q` holds of every action of the run in the state it is performed in. -/
def Each (step : σ → ℓ → Except ε σ) (Q : σ → ℓ → Prop) : σ → List ℓ → Prop
  | _, [] => True
  | s, l :: ls => Q s l ∧ ∀ s', step s l = .ok s' → Each step Q s' ls

/-- What holds before each step of a run holds so of its two parts, the second one started where the
    first one ends. -/
theorem each_append {Q : σ → ℓ → Prop} {ls ms : List ℓ} : Each step Q s (ls ++ ms) ↔
    Each step Q s ls ∧ ∀ t, exec step s ls = .ok t → Each step Q t ms := by
  induction ls generalizing s with
  | nil => simp [Each]
  | cons l ls ih =>
    simp only [List.cons_append, Each, ih, exec_cons_eq_ok]
    constructor
    · intro ⟨hQ, hrest⟩
      exact ⟨⟨hQ, fun s' hl => (hrest s' hl).1⟩, fun t ⟨s', hl, ht⟩ => (hrest s' hl).2 t ht⟩
    · intro ⟨⟨hQ, hrest⟩, hms⟩
      exact ⟨hQ, fun s' hl => ⟨hrest s' hl, fun t ht => hms t ⟨s', hl, ht⟩⟩⟩

/-- It holds where the run has come to after its first actions. -/
theorem Each.here {Q : σ → ℓ → Prop} {pre post : List ℓ} {l : ℓ}
    (h : Each step Q s (pre ++ l :: post)) (hpre : exec step s pre = .ok t) : Q t l :=
  ((each_append.mp h).2 t hpre).1

/-- What holds of the steps in any state holds along a run. -/
theorem Each.of_mem {Q : σ → ℓ → Prop} {ls : List ℓ} (h : ∀ l ∈ ls, ∀ s, Q s l) :
    Each step Q s ls := by
  induction ls generalizing s with
  | nil => trivial
  | cons l ls ih =>
    exact ⟨h l List.mem_cons_self s,
      fun _ _ => ih fun k hk => h k (List.mem_cons_of_mem l hk)⟩

end Run

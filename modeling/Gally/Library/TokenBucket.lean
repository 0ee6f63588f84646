import Gally.Library.Replies
import Mathlib.Algebra.Order.Field.Basic
import Mathlib.Data.List.Basic
import Mathlib.Data.List.Pairwise
import Mathlib.Tactic.Linarith
import Mathlib.Tactic.Ring

/-!
# Token buckets

A bucket holds at most `burst` tokens and gains `rate` of them in a unit of time. A call takes one
token if there is one. A bucket is brought up to date only when it is called, and one that was
never called counts as full.

What a bucket answers depends only on its level from now on (`SameLevel`). Calls in the order of
their times are never let through more often than `burst + rate * T` in a time `T`
(`allowed_window`).
-/

/-- How fast the bucket fills, and up to where. -/
structure TokenRate (K : Type*) where
  rate : K
  burst : K

/-- The tokens and the time at which they were counted. -/
structure TokenBucket (K : Type*) where
  tokens : K
  last : K
  deriving DecidableEq, Repr

variable {K : Type*} [Field K] [LinearOrder K]

namespace TokenBucket

/-- The tokens at a time, before they are cut at the burst. -/
def refilled (l : TokenRate K) (b : TokenBucket K) (now : K) : K :=
  b.tokens + max (now - b.last) 0 * l.rate

/-- The level of a bucket; one that does not exist is full. -/
def level (l : TokenRate K) (bucket : Option (TokenBucket K)) (now : K) : K :=
  bucket.elim l.burst fun b => min (b.refilled l now) l.burst

/-- A call, and whether it is let through. -/
def take (l : TokenRate K) (bucket : Option (TokenBucket K)) (now : K) : TokenBucket K × Bool :=
  let tokens := level l bucket now
  if 1 ≤ tokens then (⟨tokens - 1, now⟩, true) else (⟨tokens, now⟩, false)

/-- A call to a bucket that may not exist. -/
def call (l : TokenRate K) (bucket : Option (TokenBucket K)) (now : K) :
    Option (TokenBucket K) × Bool :=
  (some (take l bucket now).1, (take l bucket now).2)

/-- The calls at the given times, with their answers. -/
def answered (l : TokenRate K) (bucket : Option (TokenBucket K)) (ts : List K) : List (K × Bool) :=
  ts.zip (Replies.replies (call l) bucket ts)

/-- How many calls in the window are let through. -/
def allowed (l : TokenRate K) (bucket : Option (TokenBucket K)) (ts : List K) (lo hi : K) : ℕ :=
  (answered l bucket ts).countP fun c => c.2 ∧ lo ≤ c.1 ∧ c.1 ≤ hi

variable {l : TokenRate K} {b : TokenBucket K} {bucket bucket' : Option (TokenBucket K)}
  {now now' : K} {ts : List K} {t lo hi : K}

@[simp] theorem level_none : level l none now = l.burst := rfl

@[simp] theorem level_some : level l (some b) now = min (b.refilled l now) l.burst := rfl

/-- A bucket never holds more than the burst. -/
theorem level_le_burst : level l bucket now ≤ l.burst := by
  cases bucket with
  | none => exact le_refl _
  | some b => exact min_le_right _ _

/-- A call brings the bucket up to date. -/
theorem take_last : (take l bucket now).1.last = now := by
  unfold take
  dsimp only
  split <;> rfl

/-- The calls let through in a window: the first, if it is one of them, and those of the rest. -/
theorem allowed_cons : allowed l bucket (t :: ts) lo hi =
    allowed l (some (take l bucket t).1) ts lo hi +
      if (take l bucket t).2 = true ∧ lo ≤ t ∧ t ≤ hi then 1 else 0 := by
  simp only [allowed, answered, Replies.replies_cons, List.zip_cons_cons, List.countP_cons,
    decide_eq_true_eq]
  rfl

/-- No call after the window is counted. -/
theorem allowed_after (h : ∀ t ∈ ts, hi < t) : allowed l bucket ts lo hi = 0 := by
  rw [allowed, answered, List.countP_eq_zero]
  intro c hc
  have := h c.1 (List.of_mem_zip hc).1
  simp [this]

/-! ## Levels over time -/

section Level

variable [IsStrictOrderedRing K]

/-- The level rises with the time. -/
theorem refilled_mono (hrate : 0 ≤ l.rate) (h : now ≤ now') :
    b.refilled l now ≤ b.refilled l now' := by
  have helapsed : max (now - b.last) 0 ≤ max (now' - b.last) 0 :=
    max_le_max (sub_le_sub_right h _) (le_refl _)
  have := mul_le_mul_of_nonneg_right helapsed hrate
  unfold refilled
  linarith

/-- It rises by the rate. -/
theorem refilled_le (hrate : 0 ≤ l.rate) (h : now ≤ now') :
    b.refilled l now' ≤ b.refilled l now + (now' - now) * l.rate := by
  -- time that passes after `now` is gained once, time before it not at all
  have helapsed : max (now' - b.last) 0 ≤ max (now - b.last) 0 + (now' - now) := by
    refine max_le ?_ ?_
    · linarith [le_max_left (now - b.last) 0]
    · linarith [le_max_right (now - b.last) 0]
  have := mul_le_mul_of_nonneg_right helapsed hrate
  unfold refilled
  linarith

/-- The level rises by at most the rate while time passes. -/
theorem level_le (hrate : 0 ≤ l.rate) (h : now ≤ now') :
    level l bucket now' ≤ level l bucket now + (now' - now) * l.rate := by
  have hgain : 0 ≤ (now' - now) * l.rate := mul_nonneg (sub_nonneg.mpr h) hrate
  cases bucket with
  | none => rw [level_none, level_none]; linarith
  | some b =>
    rw [level_some, level_some, min_add]
    exact min_le_min (refilled_le hrate h) (by linarith)

/-- A full bucket stays full until it is called. -/
theorem full_later (hrate : 0 ≤ l.rate) (hfull : l.burst ≤ b.refilled l now) (h : now ≤ now') :
    level l (some b) now' = l.burst :=
  min_eq_right (hfull.trans (refilled_mono hrate h))

/-- A call takes at most one token. -/
theorem level_take : level l (some (take l bucket now).1) now =
    level l bucket now - if (take l bucket now).2 = true then 1 else 0 := by
  have hle : level l bucket now ≤ l.burst := level_le_burst
  rw [level_some, refilled, take_last, sub_self, max_self, zero_mul, add_zero]
  unfold take
  -- a call that is let through costs one token, any other costs none
  dsimp only
  split
  · rw [if_pos rfl]
    exact min_eq_left (by linarith)
  · rw [if_neg Bool.false_ne_true, sub_zero]
    exact min_eq_left hle

/-- What is let through was there. -/
theorem level_take_nonneg (h : 0 ≤ level l bucket now) :
    0 ≤ level l (some (take l bucket now).1) now := by
  rw [level_take]
  unfold take
  dsimp only
  split
  · rw [if_pos rfl]
    linarith
  · rw [if_neg Bool.false_ne_true]
    linarith

/-- A level that is not negative stays so while time passes. -/
theorem level_nonneg_later (hrate : 0 ≤ l.rate) (hburst : 0 ≤ l.burst)
    (h : 0 ≤ level l bucket now) (hle : now ≤ now') : 0 ≤ level l bucket now' := by
  cases bucket with
  | none => exact hburst
  | some b => exact le_min ((le_min_iff.mp h).1.trans (refilled_mono hrate hle)) hburst

end Level

/-! ## Buckets with the same answers -/

/-- The buckets have the same level from now on. -/
def SameLevel (l : TokenRate K) (now : K) (bucket bucket' : Option (TokenBucket K)) : Prop :=
  ∀ t, now ≤ t → level l bucket t = level l bucket' t

/-- Two buckets at the same level stay so. -/
theorem SameLevel.later (h : SameLevel l now bucket bucket') (hle : now ≤ now') :
    SameLevel l now' bucket bucket' := fun t ht => h t (hle.trans ht)

/-- Two buckets at the same level answer a call in the same way. -/
theorem SameLevel.take_eq (h : SameLevel l now bucket bucket') (hle : now ≤ t) :
    take l bucket t = take l bucket' t := by
  unfold take
  rw [h t hle]

/-- Forgetting a full bucket does not change its level. -/
theorem SameLevel.forget [IsStrictOrderedRing K] (hrate : 0 ≤ l.rate)
    (hfull : l.burst ≤ b.refilled l now) : SameLevel l now none (some b) :=
  fun _ ht => (full_later hrate hfull ht).symm

/-! ## The rate bound -/

section Bound

variable [IsStrictOrderedRing K]

/-- Calls in order, from a time before all of them. -/
theorem allowed_le (lo : K) (hrate : 0 ≤ l.rate) (hburst : 0 ≤ l.burst)
    (hts : ts.Pairwise (· ≤ ·)) (hnow : ∀ t ∈ ts, now ≤ t) (hlevel : 0 ≤ level l bucket now)
    (hhi : now ≤ hi) :
    (allowed l bucket ts lo hi : K) ≤ level l bucket now + (hi - now) * l.rate := by
  -- on the calls; the level at `now` is what they can still spend
  induction ts generalizing bucket now with
  | nil =>
    have hgain : 0 ≤ (hi - now) * l.rate := mul_nonneg (sub_nonneg.mpr hhi) hrate
    rw [allowed, answered, List.zip_nil_left, List.countP_nil, Nat.cast_zero]
    linarith
  | cons t ts ih =>
    obtain ⟨hle, hts⟩ := List.pairwise_cons.mp hts
    have hfrom : now ≤ t := hnow t List.mem_cons_self
    have hlevelT : 0 ≤ level l bucket t := level_nonneg_later hrate hburst hlevel hfrom
    by_cases hin : t ≤ hi
    · -- the level at the call pays for it and for what is let through later
      have hrest := @ih (some (take l bucket t).1) t hts hle
        (level_take_nonneg hlevelT) hin
      rw [level_take] at hrest
      have hrise : level l bucket t ≤ level l bucket now + (t - now) * l.rate :=
        level_le hrate hfrom
      rw [allowed_cons]
      push_cast
      by_cases hok : (take l bucket t).2 = true
      · rw [if_pos hok] at hrest
        have hone : (if (take l bucket t).2 = true ∧ lo ≤ t ∧ t ≤ hi then 1 else 0 : K) ≤ 1 := by
          split
          · exact le_refl _
          · exact zero_le_one
        linarith
      · rw [if_neg hok] at hrest
        rw [if_neg fun h => hok h.1]
        linarith
    -- the call is after the window, and so are the ones behind it
    · have hafter : ∀ t' ∈ t :: ts, hi < t' := by
        intro t' ht'
        rcases List.mem_cons.mp ht' with rfl | hmem
        · exact not_le.mp hin
        · exact (not_le.mp hin).trans_le (hle t' hmem)
      have hgain : 0 ≤ (hi - now) * l.rate := mul_nonneg (sub_nonneg.mpr hhi) hrate
      rw [allowed_after hafter, Nat.cast_zero]
      linarith

/-- In a window of length `T` at most `burst + rate * T` calls are let through. -/
theorem allowed_window (hrate : 0 ≤ l.rate) (hburst : 0 ≤ l.burst) (hts : ts.Pairwise (· ≤ ·))
    (hlevel : ∀ t ∈ ts.head?, 0 ≤ level l bucket t) (hhi : lo ≤ hi) :
    (allowed l bucket ts lo hi : K) ≤ l.burst + (hi - lo) * l.rate := by
  have hgain : 0 ≤ (hi - lo) * l.rate := mul_nonneg (sub_nonneg.mpr hhi) hrate
  induction ts generalizing bucket with
  | nil =>
    rw [allowed, answered, List.zip_nil_left, List.countP_nil, Nat.cast_zero]
    linarith
  | cons t ts ih =>
    have hlevelT : 0 ≤ level l bucket t := hlevel t rfl
    obtain ⟨hle, htail⟩ := List.pairwise_cons.mp hts
    by_cases hlo : lo ≤ t
    · by_cases hin : t ≤ hi
      · -- from the first call of the window on
        have hfrom : ∀ t' ∈ t :: ts, t ≤ t' := by
          intro t' ht'
          rcases List.mem_cons.mp ht' with rfl | hmem
          · exact le_refl _
          · exact hle t' hmem
        have hbound := allowed_le lo hrate hburst hts hfrom hlevelT hin
        have hfull : level l bucket t ≤ l.burst := level_le_burst
        have hshorter : (hi - t) * l.rate ≤ (hi - lo) * l.rate :=
          mul_le_mul_of_nonneg_right (by linarith) hrate
        linarith
      · rw [allowed_after, Nat.cast_zero]
        · linarith
        · intro t' ht'
          rcases List.mem_cons.mp ht' with rfl | hmem
          · exact not_le.mp hin
          · exact (not_le.mp hin).trans_le (hle t' hmem)
    -- the call is before the window: it only lowers the level
    · rw [allowed_cons, if_neg fun h => hlo h.2.1, Nat.add_zero]
      refine ih htail fun t' ht' => ?_
      exact level_nonneg_later hrate hburst (level_take_nonneg hlevelT)
        (hle t' (List.mem_of_mem_head? ht'))

end Bound

end TokenBucket

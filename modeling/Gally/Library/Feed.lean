import Mathlib.Data.List.Basic
import Mathlib.Data.List.Nodup
import Mathlib.Logic.Function.Basic

/-!
# Reading a log by sources

The entries of a log come from several sources. A reader keeps a cursor for each source
and fetches pages: the next entries of one source, any number of them. A restart forgets
the cursors, so the log is read again from its beginning.

Since the last restart the reader has received, of each source, the entries up to the
cursor and in order (`Reads.current`). When it has caught up with every source, an entry
that comes after another of its source is received again after every time the other is
(`Reads.mem_after`).
-/

namespace Feed

variable {E μ : Type*} [DecidableEq μ] (source : E → μ)

/-- The entries of one source, in order. -/
def stream (m : μ) (h : List E) : List E := h.filter fun e => source e = m

/-- A page of a source with at most `count` entries, or a restart. -/
inductive Poll (μ : Type*) where
  | page (m : μ) (count : ℕ)
  | restart

/-- The cursors, and what was received before and since the last restart. -/
structure Reader (E μ : Type*) where
  cursor : μ → ℕ
  earlier : List E
  current : List E

namespace Reader

/-- A reader that has received nothing. -/
def start : Reader E μ := ⟨fun _ => 0, [], []⟩

/-- Everything received, in order. -/
def received (r : Reader E μ) : List E := r.earlier ++ r.current

/-- The next page of a source. -/
def nextPage (h : List E) (r : Reader E μ) (m : μ) (count : ℕ) : List E :=
  ((stream source m h).drop (r.cursor m)).take count

/-- One poll of the log `h`. -/
def poll (h : List E) (r : Reader E μ) : Poll μ → Reader E μ
  | .page m count =>
    let page := r.nextPage source h m count
    { r with
      cursor := Function.update r.cursor m (r.cursor m + page.length)
      current := r.current ++ page }
  | .restart => ⟨fun _ => 0, r.received, []⟩

/-- A sequence of polls. -/
def polls (h : List E) (ps : List (Poll μ)) : Reader E μ := ps.foldl (poll source h) start

/-- Every source is read to its end. -/
def CaughtUp (h : List E) (r : Reader E μ) : Prop :=
  ∀ m, (stream source m h).length ≤ r.cursor m

end Reader

open Reader

variable {source} {h : List E} {r : Reader E μ} {m : μ} {o e : E}

@[simp] theorem mem_stream : e ∈ stream source m h ↔ e ∈ h ∧ source e = m := by
  simp [stream]

theorem stream_append (h₁ h₂ : List E) :
    stream source m (h₁ ++ h₂) = stream source m h₁ ++ stream source m h₂ := List.filter_append ..

theorem stream_cons_self (h : List E) : stream source (source e) (e :: h) =
    e :: stream source (source e) h := List.filter_cons_of_pos (by simp)

/-- What a reader of the log `h` has received. -/
structure Reads (source : E → μ) (h : List E) (r : Reader E μ) : Prop where
  current : ∀ m, stream source m r.current = (stream source m h).take (r.cursor m)
  earlier : ∀ e ∈ r.earlier, e ∈ h

namespace Reads

/-- A reader that has read nothing. -/
theorem start : Reads source h (start : Reader E μ) where
  current _ := (List.take_zero).symm
  earlier _ he := nomatch he

/-- What a reader has read since the last restart is in the log. -/
theorem mem_current (hr : Reads source h r) (he : e ∈ r.current) : e ∈ h := by
  have hmem : e ∈ stream source (source e) r.current := mem_stream.mpr ⟨he, rfl⟩
  rw [hr.current] at hmem
  exact (mem_stream.mp ((List.take_subset ..) hmem)).1

/-- What a reader has received is in the log. -/
theorem mem (hr : Reads source h r) (he : e ∈ r.received) : e ∈ h :=
  (List.mem_append.mp he).elim (hr.earlier e) hr.mem_current

/-- The sources of one page. -/
theorem stream_nextPage {k : μ} {count : ℕ} :
    stream source m (r.nextPage source h k count) =
      if k = m then r.nextPage source h k count else [] := by
  have hsub : ∀ e ∈ r.nextPage source h k count, source e = k := fun e he =>
    (mem_stream.mp (List.drop_subset _ _ (List.take_subset _ _ he))).2
  -- all entries of the page come from the source that was asked
  by_cases hk : k = m
  · rw [if_pos hk]
    exact List.filter_eq_self.mpr fun e he => decide_eq_true ((hsub e he).trans hk)
  · rw [if_neg hk, List.eq_nil_iff_forall_not_mem]
    intro e he
    obtain ⟨hmem, hm⟩ := mem_stream.mp he
    exact hk ((hsub e hmem).symm.trans hm)

/-- A poll keeps a reader true to the log. -/
theorem poll (hr : Reads source h r) (p : Poll μ) : Reads source h (r.poll source h p) := by
  cases p with
  | page k count =>
    refine ⟨fun m => ?_, hr.earlier⟩
    simp only [Reader.poll]
    rw [stream_append, hr.current, stream_nextPage]
    -- the page continues the stream of its own source and adds nothing to the others
    by_cases hk : k = m
    · subst hk
      rw [if_pos rfl, Function.update_self, List.take_add, nextPage, List.length_take,
        ← List.take_eq_take_min]
    · rw [if_neg hk, List.append_nil, Function.update_of_ne (Ne.symm hk)]
  | restart => exact ⟨fun _ => (List.take_zero).symm, fun e => hr.mem⟩

/-- Polls keep a reader true to the log. -/
theorem polls (ps : List (Poll μ)) : Reads source h (Reader.polls source h ps) :=
  List.foldlRecOn ps _ start fun _ hr p _ => hr.poll p

/-- Since the last restart nothing was received twice. -/
theorem nodup_current (hr : Reads source h r) (hnodup : h.Nodup) : r.current.Nodup := by
  rw [List.nodup_iff_sublist]
  intro x htwice
  -- an entry read twice would be twice in the stream of its source, which is part of the log
  have hstream : [x, x].Sublist (stream source (source x) r.current) := by
    have hfilter := htwice.filter fun e => source e = source x
    simpa [stream] using hfilter
  rw [hr.current] at hstream
  have hlog := (hstream.trans (List.take_sublist ..)).trans List.filter_sublist
  exact List.nodup_iff_sublist.mp hnodup x hlog

/-- Without a restart everything was received since. -/
theorem received_of_no_restart {ps : List (Poll μ)} (hps : ∀ p ∈ ps, p ≠ .restart) :
    (Reader.polls source h ps).received = (Reader.polls source h ps).current := by
  -- without a restart nothing is set aside
  have hearlier : ∀ {r : Reader E μ}, r.earlier = [] →
      (ps.foldl (Reader.poll source h) r).earlier = [] := by
    intro r hr
    induction ps generalizing r with
    | nil => exact hr
    | cons p ps ih =>
      refine ih (fun q hq => hps q (List.mem_cons_of_mem _ hq)) ?_
      cases p with
      | page m count => exact hr
      | restart => exact absurd rfl (hps _ List.mem_cons_self)
  rw [received, Reader.polls, hearlier rfl, List.nil_append]

/-- A reader that has caught up received every source whole since the last restart. -/
theorem stream_current (hr : Reads source h r) (hup : r.CaughtUp source h) (m : μ) :
    stream source m r.current = stream source m h := by
  rw [hr.current, List.take_of_length_le (hup m)]

/-- A reader that has caught up has every entry of the log. -/
theorem mem_of_caughtUp (hr : Reads source h r) (hup : r.CaughtUp source h) (he : e ∈ h) :
    e ∈ r.current := by
  have hmem : e ∈ stream source (source e) h := mem_stream.mpr ⟨he, rfl⟩
  rw [← hr.stream_current hup] at hmem
  exact (mem_stream.mp hmem).1

/-- Around an entry received since the last restart stands, of its source, what stands around
    it in the log. -/
theorem current_split (hr : Reads source h r) (hup : r.CaughtUp source h) (hnodup : h.Nodup)
    {h₁ h₂ a b : List E} (hh : h = h₁ ++ o :: h₂) (hd : r.current = a ++ o :: b) :
    stream source (source o) a = stream source (source o) h₁ ∧
      stream source (source o) b = stream source (source o) h₂ := by
  have hstream := hr.stream_current hup (source o)
  rw [hd, hh, stream_append, stream_append, stream_cons_self, stream_cons_self] at hstream
  -- the log has no duplicates, so the entry splits its stream in one way only
  have honce : (stream source (source o) a ++ o :: stream source (source o) b).Nodup := by
    rw [hstream, ← stream_cons_self, ← stream_append, ← hh]
    exact hnodup.filter _
  have hnot := (List.nodup_cons.mp (List.nodup_middle.mp honce)).1
  rw [List.mem_append, not_or] at hnot
  have hparts := (List.append_cons_inj_of_notMem hnot.1 hnot.2).mp hstream
  exact ⟨hparts.1, hparts.2.2⟩

/-- A later entry of the same source is received after the earlier one. -/
theorem mem_after (hr : Reads source h r) (hup : r.CaughtUp source h) (hnodup : h.Nodup)
    {h₁ h₂ a b : List E} (hh : h = h₁ ++ o :: h₂) (he : e ∈ h₂) (hs : source e = source o)
    (hd : r.received = a ++ o :: b) : e ∈ b := by
  have hmem : e ∈ h := by simp [hh, he]
  -- either the split is before the last restart or after it
  rcases List.append_eq_append_iff.mp hd with ⟨c, hc, hb⟩ | ⟨c, hc, hb⟩
  · -- since the restart both are received in the order of the log
    have hin : e ∈ stream source (source o) h₂ := mem_stream.mpr ⟨he, hs⟩
    rw [← (hr.current_split hup hnodup hh hb).2] at hin
    exact (mem_stream.mp hin).1
  · cases c with
    | nil =>
      rw [List.nil_append] at hb
      have hcur := hr.mem_of_caughtUp hup hmem
      rw [← hb] at hcur
      rcases List.mem_cons.mp hcur with heq | hin
      · rw [hh] at hnodup
        have hnot := (List.nodup_cons.mp (List.nodup_append.mp hnodup).2.1).1
        exact absurd (heq ▸ he) hnot
      · exact hin
    | cons x c =>
      obtain ⟨-, rfl⟩ := List.cons.inj hb
      exact List.mem_append.mpr (.inr (hr.mem_of_caughtUp hup hmem))

end Reads

end Feed

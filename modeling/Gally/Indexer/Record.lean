import Gally.Law.Mentions

/-!
# The history an indexer reads

The node numbers the events of every transaction and stamps them with the transaction's digest
and the time of its checkpoint (`SuiEvent`). `World.Recorded` pairs a world with the record of its
log: digests are not reused, times do not go back, and a transaction emits at most 1024 events.

## Key results

- `World.Recorded.events`: the record is the log of the world
- `World.Recorded.ids_nodup`: an event is identified by digest and number
- `World.Recorded.mentioned`, `World.Recorded.created_once`: positions in the record
-/

namespace Gally

open Checked

/-- A transaction digest. -/
abbrev Digest := ℕ

/-- Identity of an event (`EventId`). -/
@[ext] structure EventId where
  txDigest : Digest
  eventSeq : ℕ
  deriving DecidableEq, Repr

/-- An event as the node returns it. -/
structure SuiEvent where
  id : EventId
  timestampMs : ℕ
  event : Event
  deriving DecidableEq, Repr

/-- The events of one transaction, numbered from `k`. -/
def stampFrom (k : ℕ) (digest : Digest) (timestampMs : ℕ) : List Event → List SuiEvent
  | [] => []
  | e :: es => ⟨⟨digest, k⟩, timestampMs, e⟩ :: stampFrom (k + 1) digest timestampMs es

/-- The events of one transaction. -/
def stamp (digest : Digest) (timestampMs : ℕ) (es : List Event) : List SuiEvent :=
  stampFrom 0 digest timestampMs es

/-- Most events a transaction can emit. -/
def maxEventsPerTransaction : ℕ := 1024

section Stamp

variable {k : ℕ} {digest : Digest} {timestampMs : ℕ} {es : List Event} {e : SuiEvent}

/-- Stamped events are the events. -/
theorem map_event_stampFrom : (stampFrom k digest timestampMs es).map SuiEvent.event = es := by
  induction es generalizing k with
  | nil => rfl
  | cons e es ih => simp [stampFrom, ih]

/-- A stamped event carries the digest, the time and a number within the transaction. -/
theorem of_mem_stampFrom (h : e ∈ stampFrom k digest timestampMs es) :
    e.id.txDigest = digest ∧ e.timestampMs = timestampMs ∧ k ≤ e.id.eventSeq ∧
      e.id.eventSeq < k + es.length := by
  induction es generalizing k with
  | nil => cases h
  | cons x es ih =>
    rcases List.mem_cons.mp h with rfl | h
    · simp
    · obtain ⟨hd, ht, hle, hlt⟩ := ih h
      refine ⟨hd, ht, Nat.le_of_succ_le hle, ?_⟩
      rw [List.length_cons]
      omega

/-- The numbers within a transaction grow. -/
theorem pairwise_stampFrom : (stampFrom k digest timestampMs es).Pairwise fun e e' =>
    e.id.eventSeq < e'.id.eventSeq := by
  induction es generalizing k with
  | nil => exact .nil
  | cons x es ih => exact .cons (fun e he => (of_mem_stampFrom he).2.2.1) ih

end Stamp

/-- A world and the record of its log. -/
inductive World.Recorded : World → List SuiEvent → Prop where
  | genesis (admin : Address) (digest : Digest) (timestampMs : U64) :
      Recorded (World.genesis admin) (stamp digest timestampMs.val (World.genesis admin).events)
  | transaction {w w' : World} {h : List SuiEvent} {sender : Address} {calls : List Call}
      {es : List Event} {digest : Digest} {timestampMs : U64} (init : Recorded w h)
      (run : w.step (.transaction sender calls) = .ok w') (emitted : w'.events = w.events ++ es)
      (size : es.length ≤ maxEventsPerTransaction) (fresh : ∀ e ∈ h, e.id.txDigest ≠ digest)
      (later : ∀ e ∈ h, e.timestampMs ≤ timestampMs.val) :
      Recorded w' (h ++ stamp digest timestampMs.val es)
  | tick {w : World} {h : List SuiEvent} {now : U64} (init : Recorded w h)
      (le : w.clockMs ≤ now.val) : Recorded { w with clockMs := now.val } h

namespace World.Recorded

variable {w : World} {h before after : List SuiEvent} {e : SuiEvent}

/-- A recorded world is reachable. -/
theorem reachable (hr : w.Recorded h) : Reachable w := by
  induction hr with
  | genesis admin => exact ⟨admin, [], World.run_nil _⟩
  | transaction _ run _ _ _ _ ih => exact ih.step run
  | @tick w _ now _ le ih =>
    have hstep : w.step (.tick now) = .ok { w with clockMs := now.val } := by
      simp [World.step, guarded, le]
    exact ih.step hstep

/-- The record is the log. -/
theorem events (hr : w.Recorded h) : h.map SuiEvent.event = w.events := by
  induction hr with
  | genesis admin digest timestampMs => exact map_event_stampFrom
  | transaction _ _ emitted _ _ _ ih =>
    rw [List.map_append, ih, emitted, stamp, map_event_stampFrom]
  | tick _ _ ih => exact ih

/-- Numbers and times are in range. -/
theorem bounds (hr : w.Recorded h) (he : e ∈ h) :
    e.id.eventSeq < maxEventsPerTransaction ∧ e.timestampMs < 2 ^ 64 := by
  induction hr with
  -- the events of the first transaction, then those of each later one
  | genesis admin digest timestampMs =>
    obtain ⟨-, ht, -, hlt⟩ := of_mem_stampFrom he
    refine ⟨Nat.lt_of_lt_of_le hlt (by simp [World.genesis, maxEventsPerTransaction]), ?_⟩
    exact ht ▸ timestampMs.isLt
  | @transaction _ _ _ _ _ _ _ timestampMs _ _ _ size _ _ ih =>
    rcases List.mem_append.mp he with he | he
    · exact ih he
    · obtain ⟨-, ht, -, hlt⟩ := of_mem_stampFrom he
      rw [Nat.zero_add] at hlt
      exact ⟨Nat.lt_of_lt_of_le hlt size, ht ▸ timestampMs.isLt⟩
  | tick _ _ ih => exact ih he

/-- An event is identified by digest and number. -/
theorem pairwise_id (hr : w.Recorded h) : h.Pairwise fun e e' => e.id ≠ e'.id := by
  -- within a transaction the numbers differ
  have hwithin : ∀ {k digest timestampMs es}, (stampFrom k digest timestampMs es).Pairwise
      fun e e' => e.id ≠ e'.id := by
    intro k digest timestampMs es
    refine pairwise_stampFrom.imp fun hlt heq => ?_
    rw [heq] at hlt
    exact Nat.lt_irrefl _ hlt
  induction hr with
  | genesis => exact hwithin
  -- across transactions the digests differ
  | transaction _ _ _ _ fresh _ ih =>
    refine List.pairwise_append.mpr ⟨ih, hwithin, fun e he e' he' heq => fresh e he ?_⟩
    rw [heq]
    exact (of_mem_stampFrom he').1
  | tick _ _ ih => exact ih

/-- No two events have the same digest and number. -/
theorem ids_nodup (hr : w.Recorded h) : (h.map SuiEvent.id).Nodup :=
  List.pairwise_map.mpr hr.pairwise_id

/-- No event occurs twice. -/
theorem nodup (hr : w.Recorded h) : h.Nodup := hr.ids_nodup.of_map

/-- Events with the same digest and number are the same. -/
theorem eq_of_id {e' : SuiEvent} (hr : w.Recorded h) (he : e ∈ h) (he' : e' ∈ h)
    (hid : e.id = e'.id) : e = e' := List.inj_on_of_nodup_map hr.ids_nodup he he' hid

/-- The event at a position of the record is the event at that position of the log. -/
theorem split (hr : w.Recorded h) (hh : h = before ++ e :: after) :
    Ordered (before.map SuiEvent.event) e.event := by
  have hlog : w.events = before.map SuiEvent.event ++ e.event :: after.map SuiEvent.event := by
    rw [← hr.events, hh, List.map_append, List.map_cons]
  exact log_ordered hr.reachable hlog

/-- What an event mentions was announced before it. -/
theorem mentioned (hr : w.Recorded h) (hh : h = before ++ e :: after) {r : Ref}
    (hmem : r ∈ e.event.mentions) : ∃ c ∈ before, c.event.creates = some r := by
  obtain ⟨x, hx, hcreates⟩ := (hr.split hh).mentioned r hmem
  obtain ⟨c, hc, rfl⟩ := List.mem_map.mp hx
  exact ⟨c, hc, hcreates⟩

/-- An object is announced once. -/
theorem created_once (hr : w.Recorded h) {c c' : SuiEvent} (hc : c ∈ h) (hc' : c' ∈ h) {r : Ref}
    (hr₁ : c.event.creates = some r) (hr₂ : c'.event.creates = some r) : c = c' := by
  -- of two positions, the later one announces nothing new
  have honce : ∀ {a b : List SuiEvent} {x y : SuiEvent}, h = a ++ x :: b → y ∈ b →
      x.event.creates = some r → y.event.creates ≠ some r := by
    intro a b x y hh hy hx hy'
    obtain ⟨b₁, b₂, rfl⟩ := List.append_of_mem hy
    have hsplit : h = (a ++ x :: b₁) ++ y :: b₂ := by simp [hh]
    refine (hr.split hsplit).first r hy' x.event ?_ hx
    exact List.mem_map_of_mem (by simp)
  obtain ⟨a, b, hh⟩ := List.append_of_mem hc
  rw [hh] at hc'
  rcases List.mem_append.mp hc' with hin | hin
  · obtain ⟨a₁, a₂, rfl⟩ := List.append_of_mem hin
    have hsplit : h = a₁ ++ c' :: (a₂ ++ c :: b) := by simp [hh]
    exact absurd hr₁ (honce hsplit (by simp) hr₂)
  · rcases List.mem_cons.mp hin with heq | hin
    · exact heq.symm
    · exact absurd hr₂ (honce hh hin hr₁)

end World.Recorded

/-! ## Computing a record -/

/-- A transaction with its digest and time, or a tick. -/
inductive Entry where
  | transaction (digest : Digest) (timestampMs : U64) (sender : Address) (calls : List Call)
  | tick (now : U64)

/-- Append an entry to a world and its record. -/
def World.recordStep (s : World × List SuiEvent) : Entry → Except Abort (World × List SuiEvent)
  | .transaction digest timestampMs sender calls => do
    let w ← s.1.step (.transaction sender calls)
    let es := w.events.drop s.1.events.length
    ensure (w.events = s.1.events ++ es ∧ es.length ≤ maxEventsPerTransaction ∧
      (∀ e ∈ s.2, e.id.txDigest ≠ digest) ∧ ∀ e ∈ s.2, e.timestampMs ≤ timestampMs.val) .noObject
    return (w, s.2 ++ stamp digest timestampMs.val es)
  | .tick now => guarded (s.1.clockMs ≤ now.val) .clockBackwards
      ({ s.1 with clockMs := now.val }, s.2)

/-- The record of a run from genesis. -/
def World.record (entries : List Entry) : Except Abort (World × List SuiEvent) :=
  Run.exec World.recordStep (World.genesis 0, stamp 0 0 (World.genesis 0).events) entries

/-- The entries of a run whose transactions have the digests 1, 2, … and all the same time. -/
def Entry.ofActions (timestampMs : U64) (actions : List Action) : List Entry :=
  actions.zipIdx.map fun
    | (.transaction sender calls, i) => .transaction (i + 1) timestampMs sender calls
    | (.tick now, _) => .tick now

/-- What a sample records is a record. -/
theorem World.Recorded.of_record {entries : List Entry} {s : World × List SuiEvent}
    (h : World.record entries = .ok s) : s.1.Recorded s.2 := by
  refine Run.exec_preserves (P := fun s => World.Recorded s.1 s.2) ?_ (.genesis 0 0 0) h
  rintro s (⟨digest, timestampMs, sender, calls⟩ | now) s' hs hstep
  · simp only [World.recordStep, seq_eq_ok, ensure_eq_ok, return_eq_ok] at hstep
    obtain ⟨w, hw, _, ⟨emitted, size, fresh, later⟩, rfl⟩ := hstep
    exact hs.transaction hw emitted size fresh later
  · obtain ⟨le, rfl⟩ := guarded_eq_ok.mp hstep
    exact hs.tick le

/-- What happens on the chain at an entry. -/
def Entry.action : Entry → Action
  | .transaction _ _ sender calls => .transaction sender calls
  | .tick now => .tick now

/-- The actions of the entries are the actions they were made of. -/
@[simp] theorem Entry.action_ofActions (timestampMs : U64) (actions : List Action) :
    (Entry.ofActions timestampMs actions).map Entry.action = actions := by
  -- the numbering starts anywhere
  have hactions : ∀ n, ((actions.zipIdx n).map fun
      | (.transaction sender calls, i) => Entry.transaction (i + 1) timestampMs sender calls
      | (.tick now, _) => .tick now).map Entry.action = actions := by
    induction actions with
    | nil => exact fun _ => rfl
    | cons action actions ih =>
      intro n
      rw [List.zipIdx_cons, List.map_cons, List.map_cons, ih (n + 1)]
      cases action <;> rfl
  exact hactions 0

/-- A record is made by a run. -/
theorem World.run_of_record {entries : List Entry} {s : World × List SuiEvent}
    (h : World.record entries = .ok s) :
    (World.genesis 0).run (entries.map Entry.action) = .ok s.1 := by
  -- the record runs the actions of its entries and keeps their events beside
  have hstep : ∀ {s s' : World × List SuiEvent} {entry : Entry},
      World.recordStep s entry = .ok s' → s.1.step entry.action = .ok s'.1 := by
    intro s s' entry h
    cases entry with
    | transaction digest timestampMs sender calls =>
      simp only [World.recordStep, seq_eq_ok, ensure_eq_ok, return_eq_ok] at h
      obtain ⟨w, hw, _, -, rfl⟩ := h
      exact hw
    | tick now =>
      obtain ⟨hle, rfl⟩ := guarded_eq_ok.mp h
      exact guarded_eq_ok.mpr ⟨hle, rfl⟩
  unfold World.record at h
  show (World.genesis 0, stamp 0 0 (World.genesis 0).events).1.run _ = _
  generalize (World.genesis 0, stamp 0 0 (World.genesis 0).events) = s₀ at h
  induction entries generalizing s₀ with
  | nil =>
    obtain rfl := Run.exec_nil_eq_ok.mp h
    exact Run.exec_nil_eq_ok.mpr rfl
  | cons entry entries ih =>
    obtain ⟨s₁, hentry, hrest⟩ := Run.exec_cons_eq_ok.mp h
    exact Run.exec_cons_eq_ok.mpr ⟨s₁.1, hstep hentry, ih s₁ hrest⟩

end Gally

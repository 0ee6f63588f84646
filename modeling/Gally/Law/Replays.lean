import Gally.Indexer.Ownership
import Gally.Law.Trial

/-!
# Replayed events

The ingestion loop reads every module from genesis again after a restart. Rows are inserted once,
but updates and live frames are made again. A replay leaves the tables as they were after each of
its events, and subscribers alone, exactly when nobody listens to the events and every update they
make is the one in force.

## Key results

- `replay_harmless_iff`: which replays are harmless at every point
- `replay_regresses`: the replay of an overwritten state serves it again
-/

namespace Gally

open Checked Relational Indexer

variable {w : World} {h es : List SuiEvent} {e : SuiEvent} {hub : Hub} {k : Key}

namespace Indexer

/-- What the event sets in the row under `k` is what the history set there last. -/
def InForce (h : List SuiEvent) (e : SuiEvent) (k : Key) : Prop :=
  ∀ a, .update k a ∈ routeEvent e → lastWrite a.column (tables.updates k h) = some a

/-- Nobody listens on a channel of the event. -/
def Hub.Silent (hub : Hub) (ev : SuiEvent) : Prop := ∀ c ∈ channels ev.event, hub.subscribers c = []

theorem Hub.publishEvent_eq_nil : hub.publishEvent e = [] ↔ hub.Silent e := by
  unfold publishEvent Silent
  simp

/-- An update of a row comes from an event of the list. -/
theorem mem_updates {a : Assignment} :
    a ∈ tables.updates k es ↔ ∃ ev ∈ es, .update k a ∈ routeEvent ev := by
  unfold Projection.updates
  rw [List.mem_flatMap]
  constructor
  · intro ⟨ev, hev, ha⟩
    exact ⟨ev, hev, mem_of_mem_stored (mem_updatesAt.mp ha)⟩
  · intro ⟨ev, hev, ha⟩
    have hat := updatesAt_routeEvent ha
    exact ⟨ev, hev, hat ▸ List.mem_singleton_self a⟩

/-- An event makes at most one update of a row, so it ends with it. -/
theorem inForce_iff : InForce h e k ↔ ∀ a ∈ tables.updates k [e],
    lastWrite a.column (tables.updates k [e]) = lastWrite a.column (tables.updates k h) := by
  -- one event assigns to a row at most once, so its last write is that one
  have hone : ∀ {a : Assignment}, .update k a ∈ routeEvent e →
      lastWrite a.column (tables.updates k [e]) = some a := by
    intro a ha
    have hat : tables.updates k [e] = [a] := by
      rw [Projection.updates, List.flatMap_singleton]
      exact updatesAt_routeEvent ha
    rw [hat]
    simp [lastWrite, HasColumn.column]
  have hmem : ∀ a, a ∈ tables.updates k [e] ↔ .update k a ∈ routeEvent e := by
    intro a
    simp only [mem_updates, List.mem_singleton, exists_eq_left]
  constructor
  · intro hlast a ha
    have hupdate := (hmem a).mp ha
    rw [hone hupdate, hlast a hupdate]
  · intro hlast a ha
    rw [← hlast a ((hmem a).mpr ha), hone ha]

end Indexer

/-- A replayed event adds no row. -/
theorem World.Recorded.replay_absent (hr : w.Recorded h) (he : e ∈ h)
    (hnone : (tables.ingest ∅ h).get? k = none) :
    (tables.ingest (tables.ingest ∅ h) [e]).get? k = none := by
  rw [← tables.ingest_append]
  by_contra hne
  have hmem : ∀ x ∈ h ++ [e], x ∈ h := by
    intro x hx
    rcases List.mem_append.mp hx with hx | hx
    · exact hx
    · exact List.mem_singleton.mp hx ▸ he
  have hpresent := present_in_order hr hmem (Option.isSome_iff_ne_none.mpr hne)
  rw [Relation.Has, hnone] at hpresent
  cases hpresent

/-- What a replayed event does to a row. -/
theorem World.Recorded.replay_row (hr : w.Recorded h) (he : e ∈ h) {row : Row}
    (hrow : (tables.ingest ∅ h).get? k = some row) :
    (tables.ingest (tables.ingest ∅ h) [e]).get? k = some row ↔ InForce h e k := by
  obtain ⟨-, -, first, -, hfirst⟩ := row_in_order hr hrow
  have hkey : row.key = k := (Relation.get?_eq_some.mp hrow).2
  have hsub : ∀ a ∈ tables.updates k [e], a ∈ tables.updates k h := by
    intro a ha
    obtain ⟨ev, hev, hupdate⟩ := mem_updates.mp ha
    exact mem_updates.mpr ⟨ev, List.mem_singleton.mp hev ▸ he, hupdate⟩
  have hw : ∀ a ∈ tables.updates k [e], row.Writable a := by
    intro a ha
    obtain ⟨ev, -, hupdate⟩ := mem_updates.mp ha
    exact writable_of_update hupdate hkey
  -- writing the assignments once more changes nothing exactly when each is still the last of its
  -- column
  rw [tables.get?_ingest_of_some hrow, Option.some_inj, inForce_iff]
  subst hfirst
  exact assignAll_eq_self_iff hsub hw

/-- A replayed event leaves the tables as they were exactly when its updates are in force. -/
theorem World.Recorded.replay_event (hr : w.Recorded h) (he : e ∈ h) :
    tables.ingest (tables.ingest ∅ h) [e] = tables.ingest ∅ h ↔
      ∀ k, (tables.ingest ∅ h).Has k → InForce h e k := by
  rw [tables.ingest_eq_self_iff]
  refine forall_congr' fun k => ?_
  cases hrow : (tables.ingest ∅ h).get? k with
  | none =>
    have hno : ¬ (tables.ingest ∅ h).Has k := by simp [Relation.Has, hrow]
    exact ⟨fun _ hhas => absurd hhas hno, fun _ => hr.replay_absent he hrow⟩
  | some row =>
    have hhas : (tables.ingest ∅ h).Has k := by rw [Relation.Has, hrow]; rfl
    rw [hr.replay_row he hrow]
    exact ⟨fun hforce _ => hforce, fun hforce => hforce hhas⟩

/-- Replaying events of an ingested history leaves the tables as they were after every one of
    them, and sends nothing, exactly when nobody listens to them and every update they make of an
    existing row is the one in force. -/
theorem replay_harmless_iff (hr : w.Recorded h) {db : Database} {frames : List (ℕ × SuiEvent)}
    (hdb : processAll hub ∅ (sound h) = some (db, frames)) (hub' : Hub) (hes : ∀ e ∈ es, e ∈ h) :
    (∀ n, ∃ db', processAll hub' db (sound (es.take n)) = some (db', []) ∧
      db'.typed = db.typed) ↔
      ∀ e ∈ es, hub'.Silent e ∧ ∀ k, db.typed.Has k → InForce h e k := by
  obtain ⟨_, hprocess⟩ := processAll_sound hub ∅ h
  have htyped : db.typed = tables.ingest ∅ h := by
    rw [hprocess] at hdb
    obtain ⟨rfl, -⟩ := Prod.mk.inj (Option.some.inj hdb)
    rfl
  -- the two halves: what is sent and what is stored
  have hsent : (∀ n, (es.take n).flatMap hub'.publishEvent = []) ↔ ∀ e ∈ es, hub'.Silent e := by
    simp only [List.flatMap_eq_nil_iff, Hub.publishEvent_eq_nil]
    constructor
    · intro hsilent e he
      exact hsilent es.length e (by rwa [List.take_length])
    · intro hsilent n e he
      exact hsilent e (List.mem_of_mem_take he)
  have hstored : (∀ n, tables.ingest db.typed (es.take n) = db.typed) ↔
      ∀ e ∈ es, ∀ k, db.typed.Has k → InForce h e k := by
    rw [tables.ingest_take_eq_self_iff, htyped]
    exact forall₂_congr fun e he => hr.replay_event (hes e he)
  rw [forall₂_and, ← hsent, ← hstored, ← forall_and]
  refine forall_congr' fun n => ?_
  obtain ⟨rawEvents, hreplay⟩ := processAll_sound hub' db (es.take n)
  constructor
  · intro ⟨db', hdb', heq⟩
    rw [hreplay] at hdb'
    obtain ⟨rfl, hframes⟩ := Prod.mk.inj (Option.some.inj hdb')
    exact ⟨hframes, heq⟩
  · intro ⟨hframes, heq⟩
    exact ⟨_, by rw [hreplay, hframes], heq⟩

/-- Asset 4 is vouched for and its raise is met. -/
def Sample.raised : List Entry := Entry.ofActions 1000 (executing 1000000 100000)

/-- The events whose updates are all in force. -/
def Sample.current (h : List SuiEvent) : List SuiEvent :=
  h.filter fun e => (routeEvent e).all fun
    | .update k a => lastWrite a.column (tables.updates k h) = some a
    | _ => true

/-- Seven of the eight events can be replayed where nobody listens; the other one is the state
    that asset 4 has left. -/
theorem replay_harmless_raised : ∃ h db, (Sample.current h).length = 7 ∧ h.length = 8 ∧
    db.typed.Has (.asset 4) ∧ processAll ⟨fun _ => []⟩ ∅ (sound h) = some (db, []) ∧
    ∀ n, ∃ db', processAll ⟨fun _ => []⟩ db (sound ((Sample.current h).take n)) = some (db', []) ∧
      db'.typed = db.typed := by
  have hrun : returns (World.record Sample.raised) (fun s =>
      (Sample.current s.2).length = 7 && s.2.length = 8 &&
        ((tables.ingest ∅ s.2).get? (.asset 4)).isSome) = true := by
    decide +kernel
  obtain ⟨s, hs, hq⟩ := returns_iff.mp hrun
  simp only [Bool.and_eq_true, decide_eq_true_eq] at hq
  obtain ⟨⟨hseven, hlength⟩, hhas⟩ := hq
  have hsilent : ∀ e, Hub.Silent ⟨fun _ => []⟩ e := fun _ _ _ => rfl
  obtain ⟨rawEvents, hdb⟩ := processAll_sound ⟨fun _ => []⟩ ∅ s.2
  have hframes : s.2.flatMap (Hub.publishEvent ⟨fun _ => []⟩) = [] :=
    List.flatMap_eq_nil_iff.mpr fun e _ => Hub.publishEvent_eq_nil.mpr (hsilent e)
  -- the events of the replay are those in force, by their choice
  have hforce : ∀ e ∈ Sample.current s.2, ∀ k, InForce s.2 e k := by
    intro e he k a ha
    have hall := List.all_eq_true.mp (List.mem_filter.mp he).2 _ ha
    exact of_decide_eq_true hall
  have hharmless := (replay_harmless_iff (.of_record hs) hdb ⟨fun _ => []⟩
    (fun _ he => (List.mem_filter.mp he).1)).mpr fun e he => ⟨hsilent e, fun k _ => hforce e he k⟩
  exact ⟨s.2, _, hseven, hlength, hhas, by rw [hdb, hframes], hharmless⟩

/-- Replaying the event by which asset 4 entered `FUNDING` takes its served state back there,
    although it has been `EXECUTING` since. -/
theorem replay_regresses : ¬ ∀ {w : World} {h : List SuiEvent} {hub : Hub} {db : Database}
    {frames : List (ℕ × SuiEvent)}, w.Recorded h →
    processAll hub ∅ (sound h) = some (db, frames) → ∀ (hub' : Hub), ∀ e ∈ h,
    ∃ db', processAll hub' db (sound [e]) = some (db', []) ∧ db'.typed = db.typed := by
  intro hclaim
  have hrun : returns (World.record Sample.raised) (fun s =>
      s.2.any fun e => (tables.ingest (tables.ingest ∅ s.2) [e]).get? (.asset 4) ≠
        (tables.ingest ∅ s.2).get? (.asset 4)) = true := by
    decide +kernel
  obtain ⟨s, hs, hany⟩ := returns_iff.mp hrun
  obtain ⟨e, he, hne⟩ := List.any_eq_true.mp hany
  obtain ⟨rawEvents, hdb⟩ := processAll_sound ⟨fun _ => []⟩ ∅ s.2
  obtain ⟨db', hreplay, htyped⟩ := hclaim (.of_record hs) hdb ⟨fun _ => []⟩ e he
  obtain ⟨_, hstep⟩ := processAll_sound ⟨fun _ => []⟩ ⟨rawEvents, tables.ingest ∅ s.2⟩ [e]
  obtain ⟨rfl, -⟩ := Prod.mk.inj (Option.some.inj (hreplay.symm.trans hstep))
  exact of_decide_eq_true hne (congrArg (fun r => r.get? (.asset 4)) htyped)

end Gally

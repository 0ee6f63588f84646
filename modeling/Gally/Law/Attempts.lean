import Gally.Indexer.Schedules
import Gally.Law.Replays

/-!
# One attempt for each handler

Between two restarts the loop processes an event once. Its payload is archived; of its handler's
statements those before the first that the database refuses are executed, and the others are not
tried again (`attempted_once`).
-/

namespace Gally

open Checked Relational Indexer Feed

namespace Indexer

/-- The deliveries since the process was started: what the polls brought, each with the error it
    met. -/
structure Session (h : List SuiEvent) (ps : List (Poll Module)) (ds : List Delivery) : Prop where
  current : ∀ p ∈ ps, p ≠ .restart
  events : ds.map Prod.fst = (Reader.polls eventModule h ps).received

/-- The statements of the event's handler that were executed. -/
def attempted (before : Relation Row) (fault : Option Fault) (ev : SuiEvent) : List Statement :=
  before.executed (reached fault (routeEvent ev))

/-- What the handler reached is part of what it was to do. -/
theorem mem_reached {fault : Option Fault} {ss : List Statement} {s : Statement}
    (hs : s ∈ reached fault ss) : s ∈ ss := by
  cases fault with
  | none => exact hs
  | some fault =>
    cases fault with
    | store => exact hs
    | statement i => exact List.mem_of_mem_take hs

/-- A delivery that inserts a row has the event that owns its key. -/
theorem owner_of_delivered {d : Delivery} {k : Key} {row : Row}
    (hins : delivered.inserts k d = some row) : Owner d.1 k := by
  obtain ⟨hmem, hkey⟩ := mem_of_insertAt hins
  have howner := owner_of_insert (mem_reached (mem_of_mem_stored hmem))
  rwa [show row.key = k from hkey] at howner

/-- A run that goes on archives every event it processes, and meets no error there. -/
theorem archived {hub : Hub} {db db' : Database} {frames : List (ℕ × SuiEvent)}
    {ds : List Delivery} (hrun : processAll hub db ds = some (db', frames)) :
    (∀ k, db.rawEvents.Has k → db'.rawEvents.Has k) ∧
      ∀ d ∈ ds, d.2 ≠ some .store ∧
        db'.rawEvents.Has (d.1.id.txDigest, parseI32 d.1.id.eventSeq) := by
  -- induction over the deliveries
  induction ds generalizing db frames with
  | nil =>
    cases hrun
    exact ⟨fun _ hk => hk, nofun⟩
  | cons d ds ih =>
    obtain ⟨ev, fault⟩ := d
    simp only [processAll, Option.bind_eq_bind, Option.bind_eq_some_iff, Prod.exists] at hrun
    obtain ⟨mid, first, hfirst, db'', rest, hrest, heq⟩ := hrun
    obtain ⟨rfl, -⟩ := Prod.mk.inj (Option.some.inj heq)
    obtain ⟨hkeep, hlater⟩ := ih hrest
    have hfault : fault ≠ some .store := by
      rintro rfl
      cases hfirst
    -- without a failure to store, the archive has the event and all it had
    obtain ⟨raw, hstore, hprocess⟩ := processEvent_eq hub db ev hfault
    rw [hprocess] at hfirst
    obtain ⟨rfl, -⟩ := Prod.mk.inj (Option.some.inj hfirst)
    obtain ⟨raw', hstore', hhas, hold⟩ := storeEvent_eq db.rawEvents ev
    obtain rfl := Option.some.inj (hstore.symm.trans hstore')
    refine ⟨fun k hk => hkeep k ?_, fun d hd => ?_⟩
    · obtain ⟨r, hr⟩ := Option.isSome_iff_exists.mp hk
      rw [Relation.Has, hold k r hr]
      rfl
    · rcases List.mem_cons.mp hd with rfl | hd
      · exact ⟨hfault, hkeep _ hhas⟩
      · exact hlater d hd

end Indexer

variable {w : World} {h : List SuiEvent} {ps : List (Poll Module)} {ds : List Delivery} {hub : Hub}
  {db₀ db : Database} {frames : List (ℕ × SuiEvent)} {ev : SuiEvent}

/-- A session delivers an event of the record once. -/
theorem Indexer.Session.once (hs : Session h ps ds) (hr : w.Recorded h)
    (hev : ev ∈ (Reader.polls eventModule h ps).received) :
    ∃ earlier fault rest, ds = earlier ++ (ev, fault) :: rest ∧
      ∀ d ∈ earlier ++ rest, d.1 ≠ ev := by
  have hnodup : (ds.map Prod.fst).Nodup := by
    rw [hs.events, Reads.received_of_no_restart hs.current]
    exact (Reads.polls ps).nodup_current hr.nodup
  rw [← hs.events] at hev
  obtain ⟨⟨ev', fault⟩, hd, rfl⟩ := List.mem_map.mp hev
  obtain ⟨earlier, rest, rfl⟩ := List.append_of_mem hd
  refine ⟨earlier, fault, rest, rfl, fun d hd heq => ?_⟩
  rw [List.map_append, List.map_cons, List.nodup_middle, List.nodup_cons, ← List.map_append]
    at hnodup
  exact hnodup.1 (heq ▸ List.mem_map_of_mem hd)

/-- When an event has been delivered and no restart followed, it is archived, and the statements of
    its handler before the first that the database refused were executed, once; a row that they did
    not insert, and that was not there, does not exist. -/
theorem attempted_once (hr : w.Recorded h) (hs : Session h ps ds)
    (hrun : processAll hub db₀ ds = some (db, frames))
    (hev : ev ∈ (Reader.polls eventModule h ps).received) :
    db.rawEvents.Has (ev.id.txDigest, parseI32 ev.id.eventSeq) ∧
      ∃ earlier fault rest before, ds = earlier ++ (ev, fault) :: rest ∧
        (∀ d ∈ earlier ++ rest, d.1 ≠ ev) ∧ before = delivered.ingest db₀.typed earlier ∧
        db.typed = delivered.ingest (before.execAll (attempted before fault ev)).1 rest ∧
        ∀ row, .insert row ∈ routeEvent ev → (db.typed.Has row.key ↔ before.Has row.key ∨
          ∃ r, .insert r ∈ attempted before fault ev ∧ r.key = row.key) := by
  obtain ⟨-, harchived⟩ := archived hrun
  obtain ⟨earlier, fault, rest, hsplit, honce⟩ := hs.once hr hev
  have hmem : (ev, fault) ∈ ds := hsplit ▸ List.mem_append_right _ List.mem_cons_self
  -- what the run stored
  have htyped : db.typed = delivered.ingest db₀.typed ds := by
    obtain ⟨raw, heq⟩ := processAll_eq hub db₀ fun d hd => (harchived d hd).1
    rw [hrun] at heq
    obtain ⟨rfl, -⟩ := Prod.mk.inj (Option.some.inj heq)
    rfl
  refine ⟨(harchived _ hmem).2, earlier, fault, rest, _, hsplit, honce, rfl, ?_, ?_⟩
  · rw [htyped, hsplit, delivered.ingest_append, delivered.ingest_cons, attempted,
      Relation.execAll_executed]
    rfl
  · intro row hrow
    rw [htyped, hsplit, delivered.ingest_append, delivered.ingest_cons, delivered.has_ingest_iff]
    have hlater : ¬ ∃ pre d post, rest = pre ++ d :: post ∧
        delivered.Ready (delivered.ingest ((delivered.ingest db₀.typed earlier).execAll
          (delivered.batch (ev, fault))).1 pre) d ∧
        (delivered.inserts row.key d).isSome = true := by
      intro ⟨pre, d, post, hrest, _, hins⟩
      obtain ⟨r, hr'⟩ := Option.isSome_iff_exists.mp hins
      have hd : d ∈ rest := hrest ▸ List.mem_append_right _ List.mem_cons_self
      have hin : ∀ x ∈ ds, x.1 ∈ h := fun x hx =>
        mem_of_received (hs.events ▸ List.mem_map_of_mem hx)
      have hdin : d ∈ ds := hsplit ▸ List.mem_append_right _ (List.mem_cons_of_mem _ hd)
      refine honce d (List.mem_append_right _ hd) ?_
      exact owner_unique hr (hin d hdin) (hin _ hmem) (owner_of_delivered hr')
        (owner_of_insert hrow)
    rw [or_iff_left hlater]
    exact Relation.has_execAll_iff

namespace Sample

/-- The deliveries of one full cycle; the database fails once, at the second statement of the
    handler of `AssetCreated`. -/
def flaky (h : List SuiEvent) : List Delivery :=
  (Reader.polls eventModule h [.page .asset 50]).received.map fun ev =>
    (ev, if ev.event.creates.isSome then some (.statement 1) else none)

/-- The row a statement inserts. -/
def inserted? : Statement → Option Row
  | .insert row => some row
  | .update _ _ => none

/-- The flaky session is one of the page that is read. -/
theorem session_flaky (h : List SuiEvent) : Session h [.page .asset 50] (flaky h) where
  current := by simp
  events := by simp [flaky, Function.comp_def]

/-- No error is met while archiving. -/
theorem flaky_sound (h : List SuiEvent) : ∀ d ∈ flaky h, d.2 ≠ some .store := by
  intro d hd
  obtain ⟨ev, -, rfl⟩ := List.mem_map.mp hd
  cases ev.event.creates <;> simp

end Sample

open Sample

/-- Every event of the flaky session is archived, the one whose handler failed too. -/
theorem attempted_flaky : ∃ h db frames, processAll ⟨fun _ => []⟩ ∅ (flaky h) = some (db, frames) ∧
    (flaky h).length = 6 ∧
    ∀ d ∈ flaky h, db.rawEvents.Has (d.1.id.txDigest, parseI32 d.1.id.eventSeq) := by
  have hrun : returns (World.record raised) (fun s => (flaky s.2).length = 6) = true := by
    decide +kernel
  obtain ⟨s, hs, hlength⟩ := returns_iff.mp hrun
  obtain ⟨rawEvents, hprocess⟩ := processAll_eq ⟨fun _ => []⟩ ∅ (flaky_sound s.2)
  refine ⟨s.2, _, _, hprocess, of_decide_eq_true hlength, fun d hd => ?_⟩
  have hevent : d.1 ∈ (Reader.polls eventModule s.2 [.page .asset 50]).received :=
    (session_flaky s.2).events ▸ List.mem_map_of_mem hd
  exact (attempted_once (.of_record hs) (session_flaky s.2) hprocess hevent).1

/-- The asset row is written, the schedule and the seed of the timeline are not, and the cursor has
    moved on. -/
theorem projection_lost : ¬ ∀ {w : World} {h : List SuiEvent} {ps : List (Poll Module)}
    {ds : List Delivery} {hub : Hub} {db₀ db : Database} {frames : List (ℕ × SuiEvent)}
    {ev : SuiEvent}, w.Recorded h → Session h ps ds →
    processAll hub db₀ ds = some (db, frames) →
    ev ∈ (Reader.polls eventModule h ps).received →
    db.rawEvents.Has (ev.id.txDigest, parseI32 ev.id.eventSeq) ∧
      ∀ row, .insert row ∈ routeEvent ev → db.typed.Has row.key := by
  intro hclaim
  have hrun : returns (World.record raised) (fun s =>
      (Reader.polls eventModule s.2 [.page .asset 50]).received.any fun ev =>
        (routeEvent ev).any fun statement => (inserted? statement).any fun row =>
          ((delivered.ingest ∅ (flaky s.2)).get? row.key).isNone) = true := by
    decide +kernel
  obtain ⟨s, hs, hany⟩ := returns_iff.mp hrun
  -- an event that was received, with a row that is not there
  obtain ⟨ev, hev, hstatement⟩ := List.any_eq_true.mp hany
  obtain ⟨statement, hmem, hnone⟩ := List.any_eq_true.mp hstatement
  obtain ⟨rawEvents, hprocess⟩ := processAll_eq ⟨fun _ => []⟩ ∅ (flaky_sound s.2)
  have hkept := hclaim (.of_record hs) (session_flaky s.2) hprocess hev
  cases statement with
  | insert row =>
    have hhas := hkept.2 row hmem
    rw [Relation.Has, Option.isSome_iff_ne_none] at hhas
    exact hhas (Option.isNone_iff_eq_none.mp hnone)
  | update k a => cases hnone

end Gally

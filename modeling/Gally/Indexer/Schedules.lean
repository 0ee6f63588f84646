import Gally.Indexer.Ownership

/-!
# Rows under a schedule of polls

Whatever the schedule, once every module is read to its end since the last restart a row holds what
its one owner inserted and all updates of the record (`row_delivered`): the updates are read from
the owner's module, in order. Under any order of delivery at all, once every handler returned
without an error, the tables with a row for each event hold exactly the rows of the record
(`mem_rows_iff`).
-/

namespace Gally.Indexer

open Relational Feed

variable {w : World} {h evs : List SuiEvent} {ps : List (Poll Module)} {e : SuiEvent} {k : Key}
  {row first : Row}

/-- Everything delivered is in the record. -/
theorem mem_of_received (he : e ∈ (Reader.polls eventModule h ps).received) : e ∈ h :=
  (Reads.polls ps).mem he

/-- A row inserted before the last restart sees all updates again. -/
theorem assignAll_earlier {b cur : List SuiEvent} (ho : Owner e k)
    (hcur : stream eventModule (eventModule e) cur = stream eventModule (eventModule e) h)
    (hb : ∀ x ∈ b, x ∈ h) :
    assignAll (tables.updates k (b ++ cur)) first = assignAll (tables.updates k h) first := by
  have hupdates : tables.updates k cur = tables.updates k h := by
    rw [← updates_stream ho, hcur, updates_stream ho]
  rw [tables.updates_append, assignAll_append, hupdates]
  refine assignAll_absorb fun u hu => ?_
  obtain ⟨x, hx, hat⟩ := List.mem_flatMap.mp hu
  exact List.mem_map_of_mem (List.mem_flatMap.mpr ⟨x, hb x hx, hat⟩)

/-- One inserted since then sees them once. -/
theorem updates_current (hr : w.Recorded h) (hup : (Reader.polls eventModule h ps).CaughtUp
    eventModule h) {a b : List SuiEvent} (ho : Owner e k) (he : e ∈ h)
    (hd : (Reader.polls eventModule h ps).current = a ++ e :: b) :
    tables.updates k b = tables.updates k h := by
  obtain ⟨h₁, h₂, hh⟩ := List.append_of_mem he
  have hafter := ((Reads.polls ps).current_split hup hr.nodup hh hd).2
  have hupto := updates_upto_owner hr hh ho
  rw [← updates_stream ho, hafter, updates_stream ho, hh,
    show h₁ ++ e :: h₂ = (h₁ ++ [e]) ++ h₂ by simp, tables.updates_append, hupto, List.nil_append]

/-- What a row holds once everything is delivered. -/
theorem row_delivered (hr : w.Recorded h)
    (hup : (Reader.polls eventModule h ps).CaughtUp eventModule h)
    (hrow : (tables.ingest ∅ (Reader.polls eventModule h ps).received).get? k = some row) :
    ∃ e ∈ h, ∃ first, tables.inserts k e = some first ∧
      row = assignAll (tables.updates k h) first := by
  obtain ⟨a, e, b, first, hsplit, -, -, hins, heq⟩ := tables.get?_ingest_of_none rfl hrow
  have ho := owner_of_inserts hins
  have he : e ∈ h := mem_of_received (hsplit ▸ List.mem_append_right _ List.mem_cons_self)
  refine ⟨e, he, first, hins, ?_⟩
  rw [heq]
  -- the row was inserted either after the last restart or before it
  rcases List.append_eq_append_iff.mp hsplit with ⟨c, -, hcur⟩ | ⟨c, hearlier, hb⟩
  · rw [updates_current hr hup ho he hcur]
  · cases c with
    | nil =>
      rw [List.nil_append] at hb
      rw [updates_current hr hup ho he (a := []) hb.symm]
    -- before the restart: what was read since contains all its updates
    | cons x c =>
      obtain ⟨rfl, rfl⟩ := List.cons.inj hb
      have hc : ∀ x ∈ c, x ∈ h := fun x hx => (Reads.polls ps).earlier x
        (hearlier ▸ List.mem_append_right _ (List.mem_cons_of_mem _ hx))
      exact assignAll_earlier ho ((Reads.polls ps).stream_current hup _) hc

/-! ## Handlers that returned -/

variable {table : EventTable} {txDigest : Digest} {eventSeq : ℤ} {row' : Row} {ev : SuiEvent}

/-- The handler of the event returned without an error, at some delivery. -/
def Ingested (evs : List SuiEvent) (ev : SuiEvent) : Prop :=
  ∃ a b, evs = a ++ ev :: b ∧ ((tables.ingest ∅ a).execAll (routeEvent ev)).2 = true

/-- An event that was ingested has its rows. -/
theorem has_of_ingested (hi : Ingested evs ev) (hrow : .insert row ∈ routeEvent ev) :
    (tables.ingest ∅ evs).Has row.key := by
  obtain ⟨a, b, rfl, hok⟩ := hi
  rw [tables.ingest_append, tables.ingest_cons]
  exact tables.has_ingest (Relation.has_of_execAll_ok hok hrow)

/-- Every handler returns when the events are processed one after another. -/
def handled (typed : Relation Row) : List SuiEvent → Bool
  | [] => true
  | ev :: evs => (typed.execAll (routeEvent ev)).2 && handled (typed.execAll (routeEvent ev)).1 evs

/-- Where no handler failed, every event was ingested. -/
theorem ingested_of_handled (hall : handled ∅ evs = true) (hev : ev ∈ evs) : Ingested evs ev := by
  -- on the events, from any prefix that is already ingested
  have hgoal : ∀ {a es : List SuiEvent}, handled (tables.ingest ∅ a) es = true → ev ∈ es →
      Ingested (a ++ es) ev := by
    intro a es hall hev
    induction es generalizing a with
    | nil => cases hev
    | cons x es ih =>
      rw [handled, Bool.and_eq_true] at hall
      have hnext : tables.ingest ∅ (a ++ [x]) =
          ((tables.ingest ∅ a).execAll (routeEvent x)).1 := tables.ingest_append
      rcases List.mem_cons.mp hev with rfl | hev
      · exact ⟨a, es, rfl, hall.1⟩
      · have hrest := ih (a := a ++ [x]) (by rw [hnext]; exact hall.2) hev
        rwa [List.append_assoc] at hrest
  exact hgoal (a := []) hall hev

/-- The rows of events are never updated. -/
theorem assignAll_event (hkey : row.key = .event table txDigest eventSeq) (as : List Assignment) :
    assignAll as row = row := by
  -- no update is about a row of an event table
  have hassign : ∀ a, row.assign a = row := by
    intro a
    cases row <;> first | rfl | exact nomatch hkey
  induction as with
  | nil => rfl
  | cons a as ih =>
    rw [assignAll_cons, show Schema.assign a row = row from hassign a, ih]

/-- An event has one row in a table. -/
theorem insert_unique (hrow : .insert row ∈ routeEvent ev) (hrow' : .insert row' ∈ routeEvent ev)
    (hkey : row.key = .event table txDigest eventSeq) (heq : row'.key = row.key) : row' = row := by
  obtain ⟨id, timestampMs, e⟩ := ev
  cases e <;> simp [routeEvent] at hrow hrow'
  -- an event inserts one row of a table, and for a balance or a yield row at most one beside
  case assetCreated =>
    rcases hrow with rfl | ⟨_, _, _, _, -, rfl⟩ | rfl
    · cases hkey
    · cases hkey
    · rcases hrow' with rfl | ⟨_, _, _, _, -, rfl⟩ | rfl
      · cases heq
      · cases heq
      · rfl
  case yieldClaimed | revenueDeposited | rolloverSwept | compensationSwept | dustSwept =>
    rcases hrow with rfl | rfl <;> rcases hrow' with rfl | rfl <;>
      first | rfl | cases heq
  all_goals
    subst hrow hrow'
    rfl

/-- After full ingestion the rows of an event table are those of the record. -/
theorem mem_rows_iff (hr : w.Recorded h) (hevs : ∀ x ∈ evs, x ∈ h)
    (hfull : ∀ ev ∈ h, Ingested evs ev) (hkey : row.key = .event table txDigest eventSeq) :
    row ∈ (tables.ingest ∅ evs).rows ↔ ∃ ev ∈ h, .insert row ∈ routeEvent ev := by
  -- a row was inserted by an event of the history
  have horigin : ∀ {r}, r ∈ (tables.ingest ∅ evs).rows →
      Schema.key r = .event table txDigest eventSeq → ∃ ev ∈ h, .insert r ∈ routeEvent ev := by
    intro r hr' hkey'
    obtain ⟨a, ev, b, first, hsplit, -, -, hins, heq⟩ :=
      tables.get?_ingest_of_none rfl (Relation.mem_rows.mp hr')
    obtain ⟨hmem, hfirst⟩ := mem_of_insertAt hins
    rw [assignAll_event (hfirst.trans hkey')] at heq
    exact ⟨ev, hevs ev (hsplit ▸ List.mem_append_right _ List.mem_cons_self),
      heq ▸ mem_of_mem_stored hmem⟩
  constructor
  · intro hmem
    exact horigin hmem hkey
  · intro ⟨ev, hev, hrow⟩
    -- the event inserted the row, and no other event owns its key
    obtain ⟨r, hr'⟩ := Option.isSome_iff_exists.mp (has_of_ingested (hfull ev hev) hrow)
    obtain ⟨hmem, hkey'⟩ := Relation.get?_eq_some.mp hr'
    obtain ⟨ev', hev', hrow'⟩ := horigin hmem (hkey'.trans hkey)
    have ho' := owner_of_insert hrow'
    rw [show r.key = row.key from hkey'] at ho'
    obtain rfl := owner_unique hr hev hev' (owner_of_insert hrow) ho'
    rw [← insert_unique hrow hrow' hkey hkey']
    exact hmem

/-! ## Counting rows -/

/-- The rows an event inserts. -/
def insertedRows (ev : SuiEvent) : List Row :=
  (routeEvent ev).filterMap fun
    | .insert row => some row
    | .update _ _ => none

/-- The rows an event inserts. -/
theorem mem_insertedRows : row ∈ insertedRows ev ↔ .insert row ∈ routeEvent ev := by
  unfold insertedRows
  rw [List.mem_filterMap]
  constructor
  · intro ⟨s, hs, heq⟩
    cases s with
    | insert r =>
      obtain rfl := Option.some.inj heq
      exact hs
    | update => cases heq
  · intro hrow
    exact ⟨_, hrow, rfl⟩

/-- The row stands for an event. -/
def Row.isEvent : Row → Bool
  | .asset _ | .trancheSchedule _ | .validatorPool _ | .dispute _ => false
  | _ => true

/-- The rows of event tables, by their keys. -/
theorem isEvent_iff : row.isEvent = true ↔ ∃ table txDigest eventSeq,
    row.key = .event table txDigest eventSeq := by
  cases row <;> simp [Row.isEvent, Row.key, EventMeta.key]

/-- An event inserts each of them once. -/
theorem nodup_insertedRows : ((insertedRows ev).filter Row.isEvent).Nodup := by
  obtain ⟨id, timestampMs, e⟩ := ev
  cases e
  case assetCreated =>
    -- the listing and its schedule, and the first state
    simp only [insertedRows, routeEvent, handleAssetCreated, insertTrancheSchedule,
      insertStateChange, List.cons_append, List.filterMap_cons, List.filterMap_append,
      List.filterMap_map, List.filterMap_nil, List.filter_cons, List.filter_append, Row.isEvent]
    rw [List.filter_eq_nil_iff.mpr]
    · exact List.nodup_singleton _
    · intro row hrow
      obtain ⟨x, -, hx⟩ := List.mem_filterMap.mp hrow
      cases hx
      exact Bool.false_ne_true
  all_goals
    refine List.Nodup.filter _ ?_
    simp [insertedRows, routeEvent]

/-- No row of an event table is inserted twice. -/
theorem nodup_flatMap_insertedRows (hr : w.Recorded h) :
    ((h.flatMap insertedRows).filter Row.isEvent).Nodup := by
  rw [List.filter_flatMap, List.nodup_flatMap]
  refine ⟨fun ev _ => nodup_insertedRows, hr.nodup.imp_of_mem fun {a b} ha hb hne => ?_⟩
  intro row hrow hrow'
  have howner := owner_of_insert (mem_insertedRows.mp (List.mem_filter.mp hrow).1)
  have howner' := owner_of_insert (mem_insertedRows.mp (List.mem_filter.mp hrow').1)
  exact hne (owner_unique hr ha hb howner howner')

/-- After full ingestion the event tables hold each row of the record once. -/
theorem perm_rows (hr : w.Recorded h) (hevs : ∀ x ∈ evs, x ∈ h)
    (hfull : ∀ ev ∈ h, Ingested evs ev) :
    ((tables.ingest ∅ evs).rows.filter Row.isEvent).Perm
      ((h.flatMap insertedRows).filter Row.isEvent) := by
  refine (List.perm_ext_iff_of_nodup ?_ (nodup_flatMap_insertedRows hr)).mpr fun row => ?_
  · exact (tables.ingest ∅ evs).nodup.of_map.filter _
  · rw [List.mem_filter, List.mem_filter, List.mem_flatMap]
    refine and_congr_left fun hevent => ?_
    obtain ⟨table, txDigest, eventSeq, hkey⟩ := isEvent_iff.mp hevent
    rw [mem_rows_iff hr hevs hfull hkey]
    simp only [mem_insertedRows]

/-- So does any selection of them. -/
theorem perm_filterMap {β : Type} (hr : w.Recorded h) (hevs : ∀ x ∈ evs, x ∈ h)
    (hfull : ∀ ev ∈ h, Ingested evs ev) {f : Row → Option β}
    (hf : ∀ row, row.isEvent = false → f row = none) :
    ((tables.ingest ∅ evs).rows.filterMap f).Perm ((h.flatMap insertedRows).filterMap f) := by
  -- a row that is of no event table does not count
  have hfilter : ∀ rows : List Row, rows.filterMap f = (rows.filter Row.isEvent).filterMap f := by
    intro rows
    rw [List.filterMap_filter]
    refine List.filterMap_congr fun row _ => ?_
    cases hevent : row.isEvent with
    | true => rfl
    | false => exact hf row hevent
  rw [hfilter, hfilter (h.flatMap insertedRows)]
  exact (perm_rows hr hevs hfull).filterMap f

end Gally.Indexer

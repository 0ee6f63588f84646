import Gally.Explorer.Live
import Gally.Law.Balances
import Gally.Law.Current
import Gally.Law.Terms

/-!
# What the page of an asset shows of its plan

The row of an asset and its schedule hold the terms of the listing, the tranche rows name the
releases, and the wrap rows the wrapped supply. As long as the numbers fit their columns and the
lists one page, the page shows the tranche that is due (`shown_tranche`) and the wrapped supply
(`shown_wrapped`) as they are on chain.
-/

namespace Gally

open Relational Feed

namespace Explorer

/-! ## The page of an asset -/

/-- What the page of an asset shows of the answers it is read from. -/
structure AssetResponses.Shows (r : AssetResponses) (base : WireAsset) (shown : Asset) : Prop where
  state : shown.state = deriveState (stateOfByte (base.fields.number? "current_state"))
    shown.raised shown.fundingGoal false
  fundingGoal : shown.fundingGoal = usdc (base.fields.string? "goal")
  fundingDeadlineMs : shown.fundingDeadlineMs = intOf (base.fields.number? "funding_deadline_ms")
  tranches : ∀ env, r.tranches = some env → env.schedule ≠ [] → shown.tranches =
    mapTranches env.schedule (releasedTranches env.data) (approvers env.data)
  accumulator : (base.fields.string? "accumulator_id").isSome → shown.accumulator.isSome
  rewardPool : ∀ acc, shown.accumulator = some acc → acc.rewardPool =
    usdc (base.accumulator.bind fun acc => acc.string? "reward_pool")
  reserve : ∀ acc, shown.accumulator = some acc → acc.rolloverReserve =
    usdc (base.accumulator.bind fun acc => acc.string? "rollover_reserve")
  pool : ∀ acc, shown.accumulator = some acc → acc.compensationPool =
    usdc (base.accumulator.bind fun acc => acc.string? "compensation_pool")
  unlock : ∀ acc, shown.accumulator = some acc → acc.compensationUnlockMs =
    base.accumulator.bind (·.number? "compensation_unlock_ms")
  index : ∀ acc, shown.accumulator = some acc → acc.cumulativeIndex =
    ((r.yieldCurve.getD []).filter fun p => (p.string? "index_after").isSome).getLast?.elim 0
      fun p => indexHuman (p.string? "index_after")
  minted : ∀ acc, shown.accumulator = some acc → acc.totalMintedShares =
    r.holders.elim 0 fun env => usdc env.totalMintedShares
  wrapped : ∀ acc, shown.accumulator = some acc → acc.totalWrappedShares =
    (r.wrapRatio.getD []).getLast?.elim 0 fun p => usdc (p.string? "total_wrapped_after")

/-- The page is the mapped asset with its tranches. -/
theorem getAsset_eq {r : AssetResponses} {base : WireAsset} (hbase : r.asset = some base) :
    ∃ (extras : AssetExtras) (ts : List Tranche),
      getAsset r = some { mapAsset base extras with tranches := ts } ∧ extras.defaulted = none ∧
      extras.cumulativeIndex = some (((r.yieldCurve.getD []).filter fun p =>
        (p.string? "index_after").isSome).getLast?.elim 0 fun p =>
          indexHuman (p.string? "index_after")) ∧
      extras.totalMintedShares = some (r.holders.elim 0 fun env => usdc env.totalMintedShares) ∧
      extras.totalWrappedShares = some ((r.wrapRatio.getD []).getLast?.elim 0 fun p =>
        usdc (p.string? "total_wrapped_after")) ∧
      ∀ env, r.tranches = some env → env.schedule ≠ [] →
        ts = mapTranches env.schedule (releasedTranches env.data) (approvers env.data) := by
  unfold getAsset
  rw [hbase, Option.map_some]
  -- without an answer on the tranches nothing is claimed about them, nor with an empty schedule
  cases r.tranches with
  | none => exact ⟨_, _, rfl, rfl, rfl, rfl, rfl, fun _ h => nomatch h⟩
  | some env =>
    rw [Option.elim_some]
    by_cases hempty : env.schedule = []
    · rw [if_pos hempty]
      exact ⟨_, _, rfl, rfl, rfl, rfl, rfl, fun _ h hne => absurd (Option.some.inj h ▸ hempty) hne⟩
    · rw [if_neg hempty]
      refine ⟨_, _, rfl, rfl, rfl, rfl, rfl, fun _ h _ => ?_⟩
      rw [Option.some.inj h]

/-- The page shows every field as the answers give it. -/
theorem getAsset_shows {r : AssetResponses} {base : WireAsset} (hbase : r.asset = some base) :
    ∃ shown, getAsset r = some shown ∧ r.Shows base shown := by
  obtain ⟨extras, ts, hshown, hdefaulted, hindex, hminted, hwrapped, hts⟩ := getAsset_eq hbase
  -- the fields in their order; those of the accumulator are asked for only where there is one
  refine ⟨_, hshown, ?_, rfl, rfl, hts, ?_, ?_, ?_, ?_, ?_, ?_, ?_, ?_⟩
  · show deriveState _ _ _ (extras.defaulted.getD false) = _
    rw [hdefaulted]
    rfl
  · intro hsome
    exact Option.isSome_map.trans hsome
  all_goals
    intro acc hacc
    obtain ⟨id, -, rfl⟩ := Option.map_eq_some_iff.mp hacc
  · rfl
  · rfl
  · rfl
  · rfl
  · show extras.cumulativeIndex.getD 0 = _
    rw [hindex, Option.getD_some]
  · show extras.totalMintedShares.getD 0 = _
    rw [hminted, Option.getD_some]
  · show extras.totalWrappedShares.getD 0 = _
    rw [hwrapped, Option.getD_some]

end Explorer

/-- The state as the explorer names it. -/
def AssetState.named : AssetState → Explorer.AssetState
  | .pendingVouch => .pendingVouch
  | .funding => .funding
  | .failed => .failed
  | .cancelled => .cancelled
  | .executing => .executing
  | .operational => .operational
  | .compensating => .compensating
  | .closed => .closed

/-- The explorer reads the byte of a state as that state. -/
theorem stateOfByte_code (s : AssetState) : Explorer.stateOfByte (some (s.code : ℤ)) = s.named := by
  cases s <;> rfl

/-! ## The pools and the wrapped supply in the log -/

/-- Without an accumulator nothing is told of its pools. -/
theorem poolsOf_untold {a : ID} {es : List Event} (hes : ∀ e ∈ es, e.accumulatorOf ≠ some a) :
    poolsOf a es = {} := by
  rw [← pools_viewOf a 0, viewOf_eq_initial hes]
  rfl


/-- The asset and its wrapped supply after a wrap or an unwrap. -/
def Event.wrapOf : Event → Option (ID × ℕ)
  | .sharesWrapped a _ _ totalWrappedAfter => some (a, totalWrappedAfter)
  | .sharesUnwrapped a _ _ _ totalWrappedAfter => some (a, totalWrappedAfter)
  | _ => none

/-- An event that wraps or unwraps is about an accumulator. -/
theorem accumulatorOf_wrapOf (e : Event) (a : ID) (total : ℕ) (h : e.wrapOf = some (a, total)) :
    e.accumulatorOf = some a := by
  cases e <;> cases h <;> rfl

/-- Only wrapping and unwrapping change what a view holds as wrapped. -/
theorem wrapped_edit (e : Event) (v : AccumulatorView) : (e.edit v).totalWrappedShares =
    (e.wrapOf.map Prod.snd).getD v.totalWrappedShares := by
  cases e <;> rfl

/-- A field that the events of one kind set is what was told last. -/
theorem field_viewOf {β : Type} {f : AccumulatorView → β} {of : Event → Option (ID × β)}
    (hof : ∀ e a v, of e = some (a, v) → e.accumulatorOf = some a)
    (hedit : ∀ (e : Event) v, f (e.edit v) = ((of e).map Prod.snd).getD (f v)) (a : ID)
    (v : AccumulatorView) (es : List Event) :
    f (viewOf a v es) = (told of a es).getLast?.getD (f v) := by
  -- induction from the end of the log: the last event that tells the field decides
  induction es using List.reverseRecOn with
  | nil => rfl
  | append_singleton es e ih =>
    rw [viewOf_concat, told_append]
    cases hnew : of e with
    | none =>
      have hsame : f (e.edit (viewOf a v es)) = f (viewOf a v es) := by rw [hedit, hnew]; rfl
      rw [apply_ite f, hsame, ite_self, ih]
      simp [told, hnew]
    | some u =>
      obtain ⟨b, x⟩ := u
      simp only [hof e b x hnew, Option.some.injEq]
      by_cases hb : b = a
      · rw [if_pos hb, hedit, hnew]
        simp [told, hnew, hb]
      · rw [if_neg hb, ih]
        simp [told, hnew, hb]

namespace Indexer

variable {w : World} {h : List SuiEvent} {ps : List (Poll Module)} {ev : SuiEvent} {asset : Asset}

/-! ## Rows of a listing -/

/-- A new asset row has the terms of its listing … -/
theorem terms_of_insert {r : AssetRow} (hins : .insert (.asset r) ∈ routeEvent ev) :
    ∃ terms, ev.event.termsOf = some (r.assetId, terms) ∧ r.goal = asI64 terms.goal ∧
      r.fundingDeadlineMs = asI64 terms.fundingDeadlineMs := by
  obtain ⟨id, timestampMs, e⟩ := ev
  cases e <;> simp [routeEvent] at hins
  subst hins
  simp [Event.termsOf]

/-- … and a schedule row those of one tranche. -/
theorem terms_of_schedule {r : TrancheScheduleRow}
    (hins : .insert (.trancheSchedule r) ∈ routeEvent ev) :
    ∃ terms, ev.event.termsOf = some (r.assetId, terms) ∧ ∃ i < terms.amounts.length,
      r.trancheIndex = asI32 i ∧ r.deadlineMs = asI64 (terms.deadlinesMs[i]?.getD 0) := by
  obtain ⟨id, timestampMs, e⟩ := ev
  cases e <;> simp [routeEvent, trancheSchedule] at hins
  obtain ⟨amount, i, hi, rfl⟩ := hins
  obtain ⟨hlt, -⟩ := List.mem_zipIdx' hi
  simp only [Event.termsOf, Option.some.injEq, Prod.mk.injEq, true_and, exists_eq_left']
  exact ⟨i, hlt, Eq.refl _, Eq.refl _⟩

/-- Every tranche of a listing gets a row. -/
theorem schedule_of_terms {a : ID} {terms : Terms} (hterms : ev.event.termsOf = some (a, terms))
    {i : ℕ} (hi : i < terms.amounts.length) : ∃ r : TrancheScheduleRow,
      .insert (.trancheSchedule r) ∈ routeEvent ev ∧ r.assetId = a ∧ r.trancheIndex = asI32 i := by
  have hmem : (terms.amounts[i], i) ∈ terms.amounts.zipIdx :=
    List.mem_zipIdx_iff_getElem?.mpr (List.getElem?_eq_getElem hi)
  obtain ⟨id, timestampMs, e⟩ := ev
  cases e <;> cases hterms
  simp only [routeEvent, handleAssetCreated, insertTrancheSchedule, trancheSchedule, List.map_map]
  refine ⟨_, List.mem_cons_of_mem _ (List.mem_append_left _
    (List.mem_map.mpr ⟨_, hmem, Eq.refl _⟩)), ?_⟩
  simp only [and_self]

/-- The listing of an asset is in the record. -/
theorem exists_listing (hr : w.Recorded h) (hasset : w.assets.get? asset.id = some asset) :
    ∃ ev ∈ h, ev.event.termsOf = some (asset.id, asset.terms) := by
  have hmem : asset.terms ∈ told Event.termsOf asset.id w.events := by
    rw [(hr.reachable.planned.assets _ asset hasset).terms]
    exact List.mem_singleton_self _
  obtain ⟨e, he, hterms⟩ := mem_told.mp hmem
  rw [← hr.events] at he
  obtain ⟨ev, hev, rfl⟩ := List.mem_map.mp he
  exact ⟨ev, hev, hterms⟩

/-- There is no other. -/
theorem terms_unique (hr : w.Recorded h) (hasset : w.assets.get? asset.id = some asset)
    (hev : ev ∈ h) {terms : Terms} (hterms : ev.event.termsOf = some (asset.id, terms)) :
    terms = asset.terms := by
  have hmem : terms ∈ told Event.termsOf asset.id w.events :=
    mem_told.mpr ⟨_, hr.events ▸ List.mem_map_of_mem hev, hterms⟩
  rw [(hr.reachable.planned.assets _ asset hasset).terms] at hmem
  exact List.mem_singleton.mp hmem

/-- The accumulator set. -/
def Assignment.accumulator? : Assignment → Option (Option ID)
  | .accumulator g => some (some g)
  | _ => none

/-- Later assignments leave the goal and the deadline of a row as they are. -/
theorem foldl_terms (r : AssetRow) (as : List Assignment) :
    (as.foldl AssetRow.assign r).goal = r.goal ∧
      (as.foldl AssetRow.assign r).fundingDeadlineMs = r.fundingDeadlineMs := by
  refine Prod.mk.inj (foldl_kept (f := fun r : AssetRow => (r.goal, r.fundingDeadlineMs)) ?_ as r)
  intro r b
  cases b <;> rfl

/-- The accumulator is the last one set. -/
theorem foldl_accumulator (r : AssetRow) (as : List Assignment) :
    (as.foldl AssetRow.assign r).accumulatorId =
      (as.filterMap Assignment.accumulator?).getLast?.getD r.accumulatorId := by
  refine foldl_getLast? (f := AssetRow.accumulatorId) ?_ r as
  intro r b
  cases b <;> rfl

/-- A finalized raise sets the accumulator. -/
theorem updates_raiseFinalized {a g : ID} {n : ℕ} (hev : ev ∈ h)
    (he : ev.event = .raiseFinalized a g n) :
    .accumulator g ∈ tables.updates (.asset a) h := by
  have hmem : .update (.asset a) (.accumulator g) ∈ routeEvent ev := by
    unfold routeEvent
    rw [he]
    exact List.mem_singleton_self _
  show _ ∈ h.flatMap _
  rw [List.mem_flatMap]
  refine ⟨ev, hev, ?_⟩
  show _ ∈ updatesAt (.asset a) (stored (routeEvent ev))
  rw [updatesAt_routeEvent hmem]
  exact List.mem_singleton_self _

/-- The columns of an asset row that are set once. -/
structure AssetRow.ShowsTerms (r : AssetRow) (asset : Asset) : Prop where
  goal : r.goal = asI64 asset.fundingGoal
  fundingDeadlineMs : r.fundingDeadlineMs = asI64 asset.fundingDeadlineMs
  accumulatorId : asset.accumulatorId.isSome → r.accumulatorId.isSome

/-- The row of an asset shows the terms the chain has. -/
theorem assetRow_terms (hr : w.Recorded h) (hc : Complete h ps)
    (hasset : w.assets.get? asset.id = some asset) {r : AssetRow}
    (hrow : (typedTables h ps).get? (.asset asset.id) = some (.asset r)) : r.ShowsTerms asset := by
  -- the row was inserted by the asset's own event, and assigned to since
  obtain ⟨ev, hev, first, hins, heq⟩ := object_owner hr hc hrow
  obtain ⟨hmem, hkey⟩ := mem_of_insertAt hins
  obtain ⟨r₀, rfl⟩ := asset_of_key hkey
  obtain ⟨terms, hterms, hgoal, hdeadline⟩ := terms_of_insert hmem
  rw [Key.asset.inj hkey] at hterms
  obtain rfl := terms_unique hr hasset hev hterms
  rw [assignAll_asset] at heq
  obtain rfl := Row.asset.inj heq
  obtain ⟨hsameGoal, hsameDeadline⟩ := foldl_terms r₀ (tables.updates (.asset asset.id) h)
  refine ⟨hsameGoal.trans hgoal, hsameDeadline.trans hdeadline, fun hsome => ?_⟩
  obtain ⟨g, hg⟩ := Option.isSome_iff_exists.mp hsome
  -- an accumulator on the chain was announced, so some assignment sets the column
  have hid : (Ledger.replay w.events).accumulatorId asset.id = some g := by
    rw [hr.reachable.replayed, World.accumulatorId_ledger hasset, hg]
  obtain ⟨n, hfinal⟩ := (Ledger.accumulatorId_replay hr.reachable.lawful).mp hid
  rw [← hr.events] at hfinal
  obtain ⟨ev', hev', he'⟩ := List.mem_map.mp hfinal
  have hset : some g ∈ (tables.updates (.asset asset.id) h).filterMap Assignment.accumulator? :=
    List.mem_filterMap.mpr ⟨_, updates_raiseFinalized hev' he', rfl⟩
  rw [foldl_accumulator]
  obtain ⟨init, last, hlast⟩ :=
    (List.eq_nil_or_concat' _).resolve_left (List.ne_nil_of_mem hset)
  have hmem' : last ∈ (tables.updates (.asset asset.id) h).filterMap Assignment.accumulator? :=
    hlast ▸ List.mem_concat_self
  obtain ⟨b, -, hb⟩ := List.mem_filterMap.mp hmem'
  rw [hlast, List.getLast?_concat, Option.getD_some]
  cases b <;> cases hb
  rfl

/-! ## The schedule -/

/-- Nothing assigns to a row of the schedule. -/
theorem assignAll_schedule (as : List Assignment) (r : TrancheScheduleRow) :
    assignAll as (.trancheSchedule r : Row) = .trancheSchedule r := by
  have hfold := assignAll_row (c := Row.trancheSchedule) (g := fun r _ => r) (fun _ _ => rfl)
    as r
  rw [hfold]
  exact congrArg _ (foldl_kept (f := id) (fun _ _ => rfl) as r)

/-- The schedule of an asset holds its own rows. -/
theorem mem_listTrancheSchedule {db : Relation Row} {a : ID} {r : TrancheScheduleRow} :
    r ∈ listTrancheSchedule db a ↔ .trancheSchedule r ∈ db.rows ∧ r.assetId = a := by
  unfold listTrancheSchedule
  rw [List.mem_mergeSort, List.mem_filter, List.mem_filterMap, decide_eq_true_iff]
  refine and_congr_left fun _ => ⟨?_, fun hrow => ⟨_, hrow, rfl⟩⟩
  intro ⟨row, hrow, hr⟩
  cases row <;> cases hr
  exact hrow

/-- A row of the schedule is a tranche of the asset … -/
theorem tranche_of_schedule (hr : w.Recorded h) (hc : Complete h ps)
    (hasset : w.assets.get? asset.id = some asset) {r : TrancheScheduleRow}
    (hmem : r ∈ listTrancheSchedule (typedTables h ps) asset.id) :
    ∃ i t, asset.tranches[i]? = some t ∧ r.trancheIndex = asI32 i ∧
      r.deadlineMs = asI64 t.deadlineMs := by
  obtain ⟨hrow, ha⟩ := mem_listTrancheSchedule.mp hmem
  obtain ⟨ev, hev, first, hins, heq⟩ := object_owner hr hc (Relation.mem_rows.mp hrow)
  obtain ⟨hinsert, hkey⟩ := mem_of_insertAt hins
  -- the row of a key of the schedule is one of the schedule, and stays what it was inserted as
  obtain ⟨r₀, rfl⟩ : ∃ r₀, first = .trancheSchedule r₀ := by
    cases first <;> first | exact ⟨_, rfl⟩ | exact nomatch hkey
  rw [assignAll_schedule] at heq
  obtain rfl := Row.trancheSchedule.inj heq
  obtain ⟨terms, hterms, i, hi, hindex, hdeadline⟩ := terms_of_schedule hinsert
  rw [ha] at hterms
  obtain rfl := terms_unique hr hasset hev hterms
  have hlt : i < asset.tranches.length := by
    rw [← List.length_map (f := Tranche.amount)]
    exact hi
  refine ⟨i, asset.tranches[i], List.getElem?_eq_getElem hlt, hindex, ?_⟩
  rw [hdeadline]
  simp [Asset.terms, hlt]

/-- … and every tranche has one. -/
theorem schedule_of_tranche (hr : w.Recorded h) (hc : Complete h ps)
    (hasset : w.assets.get? asset.id = some asset) {i : ℕ} (hi : i < asset.tranches.length) :
    ∃ r ∈ listTrancheSchedule (typedTables h ps) asset.id, r.trancheIndex = asI32 i := by
  obtain ⟨ev, hev, hterms⟩ := exists_listing hr hasset
  obtain ⟨r, hins, ha, hindex⟩ :=
    schedule_of_terms hterms (i := i) (by simpa [Asset.terms] using hi)
  have hhas := has_of_ingested (hc.ingested ev hev) hins
  obtain ⟨row, hrow⟩ := Option.isSome_iff_exists.mp hhas
  obtain ⟨hmem, hkey⟩ := Relation.get?_eq_some.mp hrow
  obtain ⟨r', rfl⟩ : ∃ r', row = .trancheSchedule r' := by
    cases row <;> first | exact ⟨_, rfl⟩ | cases hkey
  obtain ⟨ha', hindex'⟩ := Key.trancheSchedule.inj hkey
  exact ⟨r', mem_listTrancheSchedule.mpr ⟨hmem, ha'.trans ha⟩, hindex'.trans hindex⟩

/-! ## Releases -/

/-- A row of a release names a tranche that the event released … -/
theorem release_of_insert {r : TrancheEventRow} (hins : .insert (.trancheEvent r) ∈ routeEvent ev)
    (hkind : r.eventType = .released) :
    ∃ i, ev.event.releaseOf = some (r.assetId, i) ∧ r.trancheIndex = asI32 i := by
  obtain ⟨id, timestampMs, e⟩ := ev
  cases e <;> simp [routeEvent] at hins <;> subst hins <;> cases hkind
  simp [Event.releaseOf]

/-- … and every release has one. -/
theorem insert_of_release {a : ID} {i : ℕ} (hrelease : ev.event.releaseOf = some (a, i)) :
    ∃ r : TrancheEventRow, .insert (.trancheEvent r) ∈ routeEvent ev ∧ r.eventType = .released ∧
      r.assetId = a ∧ r.trancheIndex = asI32 i := by
  obtain ⟨id, timestampMs, e⟩ := ev
  cases e <;> cases hrelease
  refine ⟨_, List.mem_singleton_self _, ?_⟩
  simp only [and_self]

/-- The text of a release is that of no other event of a tranche. -/
theorem text_eq_released {kind : TrancheKind} : kind.text = "released" ↔ kind = .released := by
  cases kind <;> decide

/-- The page of a list with no more rows than a page may have. -/
theorem getList_fits {L : Listing} (json : L.Item → JsonObject) {s : Snapshot}
    {rows : List L.Item} (hrows : L.matching s = some rows) (hfits : rows.length ≤ 100) :
    Explorer.getList L json s (some 200) = some ((Keyset.ordered L.key rows).map json) := by
  rw [Explorer.getList_eq, hrows, Option.map_some,
    Keyset.data_eq_ordered (show rows.length ≤ clampLimit (some 200) from hfits)]

/-- A row that shows as a tranche event is one. -/
theorem trancheEvent_of_some {row : Row} {r : TrancheEventRow} (hof : row.trancheEvent? = some r) :
    row = .trancheEvent r := by
  cases row <;> cases hof
  rfl

variable {s : Snapshot}

/-- The tranches that the rows release are those before the next one. -/
theorem mem_releasedTranches (hr : w.Recorded h) (hc : Complete h ps)
    (hs : s.typed = typedTables h ps) (hasset : w.assets.get? asset.id = some asset)
    {rows : List (Serial TrancheEventRow)}
    (hrows : (listTranches asset.id).matching s = some rows) (hfits : rows.length ≤ 100)
    {data : List JsonObject} (hdata : Explorer.getList (listTranches asset.id)
      (fun r => r.row.json) s (some 200) = some data) {i : ℤ} :
    i ∈ Explorer.releasedTranches data ↔ ∃ j < asset.nextTranche, asI32 j = i := by
  have hpage := getList_fits (L := listTranches asset.id) (fun r => r.row.json) hrows hfits
  rw [hdata] at hpage
  obtain rfl := Option.some.inj hpage
  obtain rfl := Option.some.inj hrows
  -- the tranches before the next one are those that the log has released
  have hfirst : ∀ j, j < asset.nextTranche ↔ ∃ ev ∈ h, ev.event.releaseOf = some (asset.id, j) := by
    intro j
    rw [← List.mem_range, ← (hr.reachable.planned.assets _ asset hasset).releases, mem_told,
      ← hr.events]
    simp
  have hevent : ∀ r : TrancheEventRow, .trancheEvent r ∈ (typedTables h ps).rows ↔
      ∃ ev ∈ h, .insert (.trancheEvent r) ∈ routeEvent ev := fun r =>
    mem_rows_iff hr (fun _ hx => mem_of_received hx) hc.ingested rfl
  unfold Explorer.releasedTranches
  simp only [List.mem_map, List.mem_filter, hfirst]
  -- a row that is served comes of a release, and every release gives a row
  constructor
  · intro ⟨_, ⟨⟨x, hx, rfl⟩, hkind⟩, hindex⟩
    obtain ⟨hserial, ha⟩ := List.mem_filter.mp (Keyset.mem_ordered.mp hx)
    obtain ⟨row, hrow, hof, -⟩ := mem_serials.mp hserial
    obtain rfl := trancheEvent_of_some hof
    rw [hs] at hrow
    obtain ⟨ev, hev, hins⟩ := (hevent _).mp hrow
    have htext : some x.row.eventType.text = some "released" := of_decide_eq_true hkind
    obtain ⟨j, hrelease, hj⟩ :=
      release_of_insert hins (text_eq_released.mp (Option.some.inj htext))
    rw [of_decide_eq_true ha] at hrelease
    exact ⟨j, ⟨ev, hev, hrelease⟩, hj.symm.trans hindex⟩
  · intro ⟨j, ⟨ev, hev, hrelease⟩, hj⟩
    obtain ⟨r, hins, hkind, ha, hindex⟩ := insert_of_release hrelease
    have hrow : .trancheEvent r ∈ s.typed.rows := hs ▸ (hevent r).mpr ⟨ev, hev, hins⟩
    have hserial : ⟨s.serial (Row.trancheEvent r).key, r⟩ ∈ s.serials Row.trancheEvent? :=
      mem_serials.mpr ⟨_, hrow, rfl, rfl⟩
    have hmem : ⟨_, r⟩ ∈ (s.serials Row.trancheEvent?).filter fun x => x.row.assetId = asset.id :=
      List.mem_filter.mpr ⟨hserial, decide_eq_true ha⟩
    refine ⟨_, ⟨⟨_, Keyset.mem_ordered.mpr hmem, rfl⟩, decide_eq_true ?_⟩, hindex.trans hj⟩
    show some r.eventType.text = some "released"
    rw [hkind]
    rfl

/-! ## The tranche that is due -/

/-- A small number is kept by the cast to 32 bits. -/
theorem asI32_eq {v : ℕ} (hv : v < 2 ^ 31) : asI32 v = v := by
  unfold asI32
  rw [Int.bmod_def]
  omega

/-- No row names who approved. -/
theorem approvers_rows (rows : List (Serial TrancheEventRow)) :
    Explorer.approvers (rows.map fun r => r.row.json) = fun _ => none := by
  unfold Explorer.approvers
  induction rows with
  | nil => rfl
  | cons x rows ih => exact ih

/-- The shown tranches are in the order of their indices. -/
theorem pairwise_mapTranches (schedule : List JsonObject) (released : List ℤ)
    (approvers : ℤ → Option Explorer.Approver) :
    (Explorer.mapTranches schedule released approvers).Pairwise fun a b => a.index ≤ b.index := by
  unfold Explorer.mapTranches
  rw [List.pairwise_map]
  let index : JsonObject → ℤ := fun t => Explorer.intOf (t.number? "tranche_index")
  show (Keyset.ordered index schedule).Pairwise fun a b => index a ≤ index b
  exact Keyset.pairwise_ordered

/-- A shown tranche comes from a row of the schedule. -/
theorem mem_mapTranches {rows : List TrancheScheduleRow} {released : List ℤ} {y : Explorer.Tranche}
    {approvers : ℤ → Option Explorer.Approver}
    (hy : y ∈ Explorer.mapTranches (rows.map (·.json)) released approvers) : ∃ r ∈ rows,
      y.index = r.trancheIndex ∧ y.deadlineMs = r.deadlineMs ∧
      (y.released = true ↔ r.trancheIndex ∈ released) ∧
      y.approvedBy = (approvers r.trancheIndex).bind Explorer.Approver.approvedBy := by
  obtain ⟨o, ho, rfl⟩ := List.mem_map.mp hy
  obtain ⟨r, hr, rfl⟩ := List.mem_map.mp (List.mem_mergeSort.mp ho)
  exact ⟨r, hr, rfl, rfl, decide_eq_true_iff, rfl⟩

/-- Every row of the schedule is shown. -/
theorem exists_mapTranches {rows : List TrancheScheduleRow} {r : TrancheScheduleRow} (hr : r ∈ rows)
    (released : List ℤ) (approvers : ℤ → Option Explorer.Approver) :
    ∃ y ∈ Explorer.mapTranches (rows.map (·.json)) released approvers,
      y.index = r.trancheIndex ∧ (y.released = true ↔ r.trancheIndex ∈ released) :=
  ⟨_, List.mem_map_of_mem (List.mem_mergeSort.mpr (List.mem_map_of_mem hr)), rfl,
    decide_eq_true_iff⟩

/-- The first tranche that is shown as not released is the next one of the asset, with its deadline
    and without an approval. -/
theorem shown_tranche (hr : w.Recorded h) (hc : Complete h ps) (hs : s.typed = typedTables h ps)
    (hasset : w.assets.get? asset.id = some asset) (hlength : asset.tranches.length ≤ 2 ^ 31)
    {rows : List (Serial TrancheEventRow)}
    (hrows : (listTranches asset.id).matching s = some rows) (hfits : rows.length ≤ 100)
    {data : List JsonObject} (hdata : Explorer.getList (listTranches asset.id)
      (fun r => r.row.json) s (some 200) = some data) {t : Tranche}
    (ht : asset.tranches[asset.nextTranche]? = some t) (hdeadline : t.deadlineMs < 2 ^ 63) :
    ∃ y, (Explorer.mapTranches ((listTrancheSchedule s.typed asset.id).map (·.json))
        (Explorer.releasedTranches data) (Explorer.approvers data)).find? (fun t => !t.released) =
          some y ∧
      y.deadlineMs = t.deadlineMs ∧ y.approvedBy = none := by
  obtain ⟨hnext, -⟩ := List.getElem?_eq_some_iff.mp ht
  have hreleased := fun i => mem_releasedTranches hr hc hs hasset hrows hfits hdata (i := i)
  have hnames : ∀ k, k < asset.tranches.length → asI32 k = k := fun k hk =>
    asI32_eq (by omega)
  have hnone : Explorer.approvers data = fun _ => none := by
    have hpage := getList_fits (L := listTranches asset.id) (fun r => r.row.json) hrows hfits
    rw [hdata] at hpage
    rw [Option.some.inj hpage]
    exact approvers_rows _
  -- which tranche a shown one is
  have hshown : ∀ y ∈ Explorer.mapTranches ((listTrancheSchedule s.typed asset.id).map (·.json))
      (Explorer.releasedTranches data) (Explorer.approvers data), ∃ (k : ℕ) (u : Tranche),
        asset.tranches[k]? = some u ∧ y.index = k ∧ y.deadlineMs = asI64 u.deadlineMs ∧
        (y.released = true ↔ k < asset.nextTranche) ∧ y.approvedBy = none := by
    intro y hy
    obtain ⟨r, hmem, hindex, hms, hdone, happroved⟩ := mem_mapTranches hy
    obtain ⟨k, u, hu, hk, hu'⟩ := tranche_of_schedule hr hc hasset (hs ▸ hmem)
    obtain ⟨hlt, -⟩ := List.getElem?_eq_some_iff.mp hu
    rw [hk, hnames k hlt] at hindex hdone
    refine ⟨k, u, hu, hindex, hms.trans hu', ?_, ?_⟩
    · rw [hdone, hreleased]
      constructor
      · intro ⟨j, hj, heq⟩
        rw [hnames j (by omega)] at heq
        omega
      · intro hk'
        exact ⟨k, hk', hnames k hlt⟩
    · rw [happroved, hnone]
      rfl
  obtain ⟨r, hmem, hindex⟩ := schedule_of_tranche hr hc hasset hnext
  obtain ⟨x, hx, hxindex, -⟩ := exists_mapTranches (hs ▸ hmem) (Explorer.releasedTranches data)
    (Explorer.approvers data)
  rw [hindex, hnames _ hnext] at hxindex
  have hopen : ∀ y ∈ Explorer.mapTranches ((listTrancheSchedule s.typed asset.id).map (·.json))
      (Explorer.releasedTranches data) (Explorer.approvers data),
        (!y.released) = true ↔ (asset.nextTranche : ℤ) ≤ y.index := by
    intro y hy
    obtain ⟨k, -, -, hk, -, hdone, -⟩ := hshown y hy
    rw [Bool.not_eq_true', ← Bool.not_eq_true, hdone, hk]
    omega
  obtain ⟨y, hy, hfind, hyindex⟩ := Keyset.find?_sorted (pairwise_mapTranches ..) hx
    ((hopen x hx).mpr hxindex.ge) fun y hy hy' => hxindex ▸ (hopen y hy).mp hy'
  obtain ⟨k, u, hu, hk, hms, -, happroved⟩ := hshown y hy
  have hsame : k = asset.nextTranche := by
    rw [hk, hxindex] at hyindex
    exact Nat.cast_injective hyindex
  subst hsame
  obtain rfl := Option.some.inj (hu.symm.trans ht)
  exact ⟨y, hfind, hms.trans (asI64_eq_iff.mpr hdeadline), happroved⟩

/-! ## The wrapped supply -/

/-- A row that counts for the wrap ratio tells of a wrap. -/
theorem wrap_of_insert {r : PositionRow} (hins : .insert (.position r) ∈ routeEvent ev)
    (hkind : r.eventType = .sharesWrapped ∨ r.eventType = .sharesUnwrapped) :
    ∃ total, ev.event.wrapOf = some (r.assetId, total) ∧
      r.totalWrappedAfter = some (asI64 total) ∧ r.eventMeta = EventMeta.fromEvent ev := by
  obtain ⟨id, timestampMs, e⟩ := ev
  cases e <;> simp [routeEvent] at hins <;> subst hins <;> simp at hkind
  all_goals simp [Event.wrapOf]

/-- A wrap writes a row that counts for the ratio. -/
theorem insert_of_wrap {a : ID} {total : ℕ} (hwrap : ev.event.wrapOf = some (a, total)) :
    ∃ r : PositionRow, .insert (.position r) ∈ routeEvent ev ∧
      (r.eventType = .sharesWrapped ∨ r.eventType = .sharesUnwrapped) ∧ r.assetId = a ∧
      r.totalWrappedAfter = some (asI64 total) ∧ r.eventMeta = EventMeta.fromEvent ev := by
  obtain ⟨id, timestampMs, e⟩ := ev
  cases e <;> cases hwrap
  all_goals
    refine ⟨_, List.mem_singleton_self _, ?_⟩
    simp

/-- The events that wrap or unwrap deeds of asset `a`. -/
def wraps (a : ID) (h : List SuiEvent) : List SuiEvent :=
  h.filter fun ev => ev.event.wrapOf.any (·.1 = a)

/-- The wraps of an asset are the events that tell of one. -/
theorem mem_wraps {a : ID} :
    ev ∈ wraps a h ↔ ev ∈ h ∧ ∃ total, ev.event.wrapOf = some (a, total) := by
  unfold wraps
  rw [List.mem_filter]
  refine and_congr_right fun _ => ?_
  cases hof : ev.event.wrapOf with
  | none => simp
  | some v => simp [Prod.ext_iff]

/-- What the log tells of the wrapped supply, the wraps tell. -/
theorem told_wraps (a : ID) (h : List SuiEvent) :
    told Event.wrapOf a (h.map SuiEvent.event) =
      (wraps a h).filterMap fun ev => ev.event.wrapOf.map Prod.snd := by
  unfold told wraps
  rw [List.filterMap_map, List.filterMap_filter]
  refine List.filterMap_congr fun ev _ => ?_
  cases hof : ev.event.wrapOf with
  | none => simp [hof]
  | some v => by_cases hv : v.1 = a <;> simp [hof, hv]

/-- What the rows of positions are sorted by. -/
def Snapshot.positionTime (s : Snapshot) (ev : SuiEvent) : ℤ ×ₗ ℤ :=
  toLex ((EventMeta.fromEvent ev).timestampMs,
    s.serial ((EventMeta.fromEvent ev).key .positionEvents))

/-- The rows of the wraps are sorted as the record is. -/
def Snapshot.Sequential (s : Snapshot) (a : ID) (h : List SuiEvent) : Prop :=
  (wraps a h).Pairwise fun ev ev' => s.positionTime ev < s.positionTime ev'

/-- A row that shows as a position is one. -/
theorem position_of_some {row : Row} {r : PositionRow} (hof : row.position? = some r) :
    row = .position r := by
  cases row <;> cases hof
  rfl

/-- Every row on the page is the row of a wrap. -/
theorem wrap_of_row (hr : w.Recorded h) (hc : Complete h ps) (hs : s.typed = typedTables h ps)
    {a : ID} {rows : List (Serial PositionRow)}
    (hrows : (listWrapRatio a).matching s = some rows) {x : Serial PositionRow} (hx : x ∈ rows) :
    .position x.row ∈ s.typed.rows ∧ ∃ ev ∈ wraps a h,
      x.row.eventMeta = EventMeta.fromEvent ev ∧
      x.id = s.serial ((EventMeta.fromEvent ev).key .positionEvents) := by
  obtain rfl := Option.some.inj hrows
  obtain ⟨hserial, hmatch⟩ := List.mem_filter.mp hx
  obtain ⟨hkind, ha⟩ := of_decide_eq_true hmatch
  obtain ⟨row, hrow, hof, hid⟩ := mem_serials.mp hserial
  obtain rfl := position_of_some hof
  -- rows of events stay as they were inserted
  obtain ⟨ev, hev, hins⟩ := (mem_rows_iff hr (fun _ hx => mem_of_received hx) hc.ingested rfl).mp
    (hs ▸ hrow)
  obtain ⟨total, hwrapOf, -, hmeta⟩ := wrap_of_insert hins hkind
  refine ⟨hrow, ev, mem_wraps.mpr ⟨hev, total, ha ▸ hwrapOf⟩, hmeta, ?_⟩
  rw [← hid, ← hmeta]
  rfl

/-- The last row of the page is the one of the last wrap. -/
theorem last_wrap (hr : w.Recorded h) (hc : Complete h ps) (hs : s.typed = typedTables h ps)
    {a : ID} {rows : List (Serial PositionRow)} (hrows : (listWrapRatio a).matching s = some rows)
    (hseq : s.Sequential a h) {total : ℕ}
    (htold : (told Event.wrapOf a w.events).getLast? = some total) :
    ∃ x, (Keyset.ordered (listWrapRatio a).key rows).getLast? = some x ∧
      x.row.totalWrappedAfter = some (asI64 total) := by
  rw [← hr.events, told_wraps] at htold
  rcases List.eq_nil_or_concat' (wraps a h) with hnil | ⟨init, ev, hsplit⟩
  · rw [hnil] at htold
    cases htold
  obtain ⟨hev, total', hwrapOf⟩ := mem_wraps.mp (hsplit ▸ List.mem_concat_self : ev ∈ wraps a h)
  obtain ⟨r, hins, hkind, ha, htotal, hmeta⟩ := insert_of_wrap hwrapOf
  have hrow : .position r ∈ s.typed.rows := hs ▸
    (mem_rows_iff hr (fun _ hx => mem_of_received hx) hc.ingested rfl).mpr ⟨ev, hev, hins⟩
  have hmem : ⟨s.serial (Row.position r).key, r⟩ ∈ rows := by
    obtain rfl := Option.some.inj hrows
    exact List.mem_filter.mpr ⟨mem_serials.mpr ⟨_, hrow, rfl, rfl⟩, decide_eq_true ⟨hkind, ha⟩⟩
  have hlast : total' = total := by
    rw [hsplit, List.filterMap_append] at htold
    simpa [hwrapOf] using htold
  refine ⟨_, Keyset.getLast?_ordered hmem fun x hx hle => ?_, hlast ▸ htotal⟩
  obtain ⟨xid, xrow⟩ := x
  obtain ⟨hrow', ev', hev', hmeta', hid⟩ := wrap_of_row hr hc hs hrows hx
  dsimp only at hrow' hmeta' hid
  -- the keys are the times of the events
  have hkey : (listWrapRatio a).key ⟨xid, xrow⟩ = s.positionTime ev' := by
    show toLex (xrow.eventMeta.timestampMs, xid) = s.positionTime ev'
    rw [hmeta', hid]
    rfl
  have hkey' : (listWrapRatio a).key ⟨s.serial (Row.position r).key, r⟩ = s.positionTime ev := by
    show toLex (r.eventMeta.timestampMs, s.serial (r.eventMeta.key .positionEvents)) = _
    rw [hmeta]
    rfl
  unfold Snapshot.Sequential at hseq
  rw [hkey, hkey'] at hle
  rw [hsplit] at hev' hseq
  rcases List.mem_append.mp hev' with hinit | hsame
  · have hlt := (List.pairwise_append.mp hseq).2.2 ev' hinit ev (List.mem_singleton_self ev)
    exact absurd hle hlt.not_ge
  · obtain rfl := List.mem_singleton.mp hsame
    have hget := Relation.mem_rows.mp hrow
    have hget' := Relation.mem_rows.mp hrow'
    have hsamekey : Schema.key (Row.position xrow) = Schema.key (Row.position r) := by
      show xrow.eventMeta.key _ = r.eventMeta.key _
      rw [hmeta, hmeta']
    rw [hsamekey, hget] at hget'
    obtain rfl := Row.position.inj (Option.some.inj hget')
    show Serial.mk xid r = Serial.mk (s.serial (r.eventMeta.key .positionEvents)) r
    rw [hid, hmeta]

/-- The pools of the accumulator of an asset, or nothing, are what was told. -/
theorem pools_of_asset (hw : Reachable w) (hasset : w.assets.get? asset.id = some asset) :
    (asset.accumulatorId = none ∧ poolsOf asset.id w.events = {}) ∨
      ∃ g acc, asset.accumulatorId = some g ∧ w.accumulators.get? g = some acc ∧
        acc.assetId = asset.id ∧ poolsOf asset.id w.events = acc.view.pools := by
  cases hg : asset.accumulatorId with
  | none =>
    refine Or.inl ⟨rfl, poolsOf_untold (untold hw (List.append_nil _).symm ?_)⟩
    rw [hw.replayed]
    show ¬ (w.ledger.accumulatorId asset.id).isSome
    rw [World.accumulatorId_ledger hasset, hg]
    exact Bool.false_ne_true
  | some g =>
    obtain ⟨acc, hacc, hid⟩ := hw.linked.acc hasset hg
    exact Or.inr ⟨g, acc, rfl, hacc, hid, hid ▸ (pools_told hw hacc).symm⟩

/-- Pools that hold something are those of the accumulator of the asset. -/
theorem pools_of_pos (hw : Reachable w) (hasset : w.assets.get? asset.id = some asset)
    (f : Pools → ℕ) (hempty : f {} = 0) (hpos : 0 < f (poolsOf asset.id w.events)) :
    ∃ g acc, asset.accumulatorId = some g ∧ w.accumulators.get? g = some acc ∧
      acc.assetId = asset.id ∧ poolsOf asset.id w.events = acc.view.pools := by
  rcases pools_of_asset hw hasset with ⟨-, hnone⟩ | hlinked
  · rw [hnone, hempty] at hpos
    cases hpos
  · exact hlinked

/-- What was told of the pools of an asset is what its accumulator has. -/
theorem pools_of_accumulator (hw : Reachable w) (hasset : w.assets.get? asset.id = some asset)
    {g : ID} {acc : GlobalYieldAccumulator} (hg : asset.accumulatorId = some g)
    (hacc : w.accumulators.get? g = some acc) :
    acc.assetId = asset.id ∧ poolsOf asset.id w.events = acc.view.pools := by
  rcases pools_of_asset hw hasset with ⟨hnone, -⟩ | ⟨g', acc', hg', hacc', hid, hpools⟩
  · rw [hg] at hnone
    cases hnone
  · obtain rfl := Option.some.inj (hg.symm.trans hg')
    obtain rfl := Option.some.inj (hacc.symm.trans hacc')
    exact ⟨hid, hpools⟩

/-- A column that may be missing is shown as zero. -/
theorem usdc_map (v : Option ℤ) :
    Explorer.usdc (v.map Decimal.ofInt) = ((v.getD 0 : ℤ) : ℚ) / Explorer.micro := by
  cases v with
  | none => simp [Explorer.usdc]
  | some v => exact Explorer.usdc_ofInt v

/-- A column is shown as positive exactly if what was told last is. -/
theorem usdc_map_pos {v : Option ℤ} {n : ℕ} (hserved : v.getD 0 = n) :
    0 < Explorer.usdc (v.map Decimal.ofInt) ↔ 0 < n := by
  rw [usdc_map, hserved, Int.cast_natCast, div_pos_iff_of_pos_right (by norm_num [Explorer.micro]),
    Nat.cast_pos]

/-! ## Disputes -/

/-- The detail of a dispute is that of its row. -/
theorem disputeDetail_row {d : ID} {r : DisputeRow}
    (hget : s.typed.get? (.dispute d) = some (.dispute r)) :
    ∃ l : ListedDispute, Explorer.disputeDetail s d = some l.json ∧ l.dispute = r := by
  have hid : r.disputeId = d := Key.dispute.inj (Relation.get?_eq_some.mp hget).2
  subst hid
  have hsome : ((listedDisputes s.typed).find? (·.dispute.disputeId = r.disputeId)).isSome := by
    rw [List.find?_isSome]
    -- the dispute is among those listed, so the search finds one, and its id fixes which
    exact ⟨_, List.mem_map_of_mem (mem_disputeRows.mpr hget), decide_eq_true (Eq.refl _)⟩
  obtain ⟨l, hl⟩ := Option.isSome_iff_exists.mp hsome
  have hsame : l.dispute.disputeId = r.disputeId := by simpa using List.find?_some hl
  obtain ⟨r', hr', rfl⟩ := List.mem_map.mp (List.mem_of_find?_eq_some hl)
  have hget' := mem_disputeRows.mp hr'
  rw [show r'.disputeId = r.disputeId from hsame, hget] at hget'
  obtain rfl := Row.dispute.inj (Option.some.inj hget')
  exact ⟨_, congrArg (Option.map ListedDispute.json) hl, rfl⟩

/-! ## Assets shown -/

/-- The page of an asset, its row and what they show. -/
theorem asset_shown (hr : w.Recorded h) (hc : Complete h ps) (hs : s.typed = typedTables h ps)
    (hasset : w.assets.get? asset.id = some asset) (b : AccumulatorBalances) :
    ∃ (shown : Explorer.Asset) (r : AssetRow),
      Explorer.getAsset (Explorer.assetResponses s b asset.id) = some shown ∧
      (Explorer.assetResponses s b asset.id).Shows ⟨r.json, some b.json⟩ shown ∧
      s.typed.get? (.asset asset.id) = some (.asset r) ∧ r.ShowsTerms asset ∧
      shown.raised = 0 ∧ shown.state = asset.state.named := by
  obtain ⟨r, hget, hrow⟩ := assetRow_served hr hc hasset
  have hterms := assetRow_terms hr hc hasset hget
  obtain ⟨shown, hshown, hraised, -⟩ := shown_raise hr hc hs hasset b
  rw [← hs] at hget
  -- the page is made from this row and the balances
  have hbase : (Explorer.assetResponses s b asset.id).asset =
      some { fields := r.json, accumulator := some b.json } := by
    show Explorer.assetDetail s b asset.id = _
    unfold Explorer.assetDetail
    rw [hget]
    rfl
  obtain ⟨shown', hshown', hshows⟩ := Explorer.getAsset_shows hbase
  obtain rfl := Option.some.inj (hshown.symm.trans hshown')
  refine ⟨shown, r, hshown, hshows, hget, hterms, hraised, ?_⟩
  have hstate : Explorer.stateOfByte (r.json.number? "current_state") = asset.state.named := by
    rw [← stateOfByte_code, ← hrow.currentState]
    rfl
  rw [hshows.state, hraised, hstate]
  -- the raised amount is shown as zero, so the page never takes the raise for filled
  unfold Explorer.deriveState
  rw [if_neg (fun ⟨_, hpos, hle⟩ => absurd hpos hle.not_gt), if_neg (by simp)]

end Indexer

end Gally

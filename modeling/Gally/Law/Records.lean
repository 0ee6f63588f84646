import Gally.Indexer.Schedules
import Gally.Law.Standing

/-!
# Rows of assets and disputes

The rows of objects are inserted once and then updated. Once every module is read to its end since
the last restart and every handler returned (`Complete`), a row holds what its owner inserted and,
in the columns that are updated, what the log told last (`assetRow_served`, `disputeRow_served`).
-/

namespace Gally.Indexer

open Relational Feed

variable {w : World} {h evs : List SuiEvent} {ps : List (Poll Module)} {ev : SuiEvent} {k : Key}
  {row first : Row} {a : ID}

/-- The schedule reads every module to its end since the last restart, and every handler
    returned without an error at some delivery. -/
structure Complete (h : List SuiEvent) (ps : List (Poll Module)) : Prop where
  caughtUp : (Reader.polls eventModule h ps).CaughtUp eventModule h
  ingested : ∀ ev ∈ h, Ingested (Reader.polls eventModule h ps).received ev

/-- The typed tables after a schedule of polls. -/
def typedTables (h : List SuiEvent) (ps : List (Poll Module)) : Relation Row :=
  tables.ingest ∅ (Reader.polls eventModule h ps).received

/-- A handler that ran through stored all its rows. -/
theorem stored_of_ingested (hi : Ingested evs ev) : stored (routeEvent ev) = routeEvent ev := by
  obtain ⟨_, _, -, hok⟩ := hi
  exact Relation.stored_of_execAll_ok hok

/-- A row holds what its owner inserted and all updates of the record. -/
theorem object_row (hr : w.Recorded h) (hc : Complete h ps) (hev : ev ∈ h)
    (hins : insertAt k (routeEvent ev) = some first) :
    (typedTables h ps).get? k = some (assignAll (tables.updates k h) first) := by
  obtain ⟨hmem, rfl⟩ := mem_of_insertAt hins
  obtain ⟨row, hrow⟩ := Option.isSome_iff_exists.mp (has_of_ingested (hc.ingested ev hev) hmem)
  obtain ⟨e, he, first', hins', rfl⟩ := row_delivered hr hc.caughtUp hrow
  -- the row is one of this event's, as keys name their event
  obtain rfl := owner_unique hr he hev (owner_of_inserts hins') (owner_of_insert hmem)
  have hsame : tables.inserts first.key e = some first := by
    show insertAt _ (stored (routeEvent e)) = _
    rw [stored_of_ingested (hc.ingested e he)]
    exact hins
  rw [hins'] at hsame
  obtain rfl := Option.some.inj hsame
  exact hrow

/-- Every row of an object is such a row. -/
theorem object_owner (hr : w.Recorded h) (hc : Complete h ps)
    (hrow : (typedTables h ps).get? k = some row) : ∃ ev ∈ h, ∃ first,
      insertAt k (routeEvent ev) = some first ∧ row = assignAll (tables.updates k h) first := by
  obtain ⟨e, he, first, hins, rfl⟩ := row_delivered hr hc.caughtUp hrow
  refine ⟨e, he, first, ?_, rfl⟩
  rw [← stored_of_ingested (hc.ingested e he)]
  exact hins

/-! ## Updated columns -/

/-- A row is updated as its table is. -/
theorem assignAll_row {ρ : Type} {c : ρ → Row} {g : ρ → Assignment → ρ}
    (hc : ∀ r b, (c r).assign b = c (g r b)) (as : List Assignment) (r : ρ) :
    assignAll as (c r) = c (as.foldl g r) := by
  induction as generalizing r with
  | nil => rfl
  | cons b as ih =>
    rw [List.foldl_cons, ← ih, ← hc]
    rfl

/-- An asset's row stays an asset's row. -/
theorem assignAll_asset (as : List Assignment) (r : AssetRow) :
    assignAll as (.asset r : Row) = .asset (as.foldl AssetRow.assign r) :=
  assignAll_row (fun _ _ => rfl) as r

/-- A dispute's row stays a dispute's row. -/
theorem assignAll_dispute (as : List Assignment) (r : DisputeRow) :
    assignAll as (.dispute r : Row) = .dispute (as.foldl DisputeRow.assign r) :=
  assignAll_row (fun _ _ => rfl) as r

/-- A column that no update sets. -/
theorem foldl_kept {ρ β : Type} {g : ρ → Assignment → ρ} {f : ρ → β}
    (hf : ∀ r b, f (g r b) = f r) (as : List Assignment) (r : ρ) : f (as.foldl g r) = f r := by
  induction as generalizing r with
  | nil => rfl
  | cons b as ih => exact (ih (g r b)).trans (hf r b)

/-- What is set is what the log tells, if that is so for each event. -/
theorem updates_told {β γ : Type} {g : Assignment → Option β} {of : Event → Option (ID × γ)}
    {conv : γ → β} (hof : ∀ ev : SuiEvent, (updatesAt k (stored (routeEvent ev))).filterMap g =
      (told of a [ev.event]).map conv) (h : List SuiEvent) :
    (tables.updates k h).filterMap g = (told of a (h.map SuiEvent.event)).map conv := by
  induction h with
  | nil => rfl
  | cons ev h ih =>
    rw [tables.updates_cons, List.filterMap_append, ih, List.map_cons, ← List.singleton_append,
      told_append, List.map_append]
    exact congrArg (· ++ _) (hof ev)

/-- The update of an event, if it has one. -/
theorem updatesAt_cases (ev : SuiEvent) (k : Key) :
    (updatesAt k (stored (routeEvent ev)) = [] ∧ ∀ b, .update k b ∉ routeEvent ev) ∨
      ∃ b, .update k b ∈ routeEvent ev ∧ updatesAt k (stored (routeEvent ev)) = [b] := by
  by_cases hu : ∃ b, .update k b ∈ routeEvent ev
  · obtain ⟨b, hb⟩ := hu
    exact Or.inr ⟨b, hb, updatesAt_routeEvent hb⟩
  · have hnone : ∀ b, .update k b ∉ routeEvent ev := fun b hb => hu ⟨b, hb⟩
    exact Or.inl ⟨updatesAt_eq_nil hnone, hnone⟩

/-- The columns set by a vouch. -/
def Assignment.vouched? : Assignment → Option (Option ID × Option ℤ)
  | .vouched p coverage => some (some p, some coverage)
  | _ => none

/-- The state set. -/
def Assignment.state? : Assignment → Option ℤ
  | .currentState state => some state
  | _ => none

/-- The columns set by a resolution. -/
def Assignment.resolution? : Assignment → Option (Option ℤ × Option ℤ × Option ℤ)
  | .resolution verdict slashed bounty _ _ => some (some verdict, some slashed, some bounty)
  | _ => none

/-- The handlers set an asset's pool and coverage as the events tell the vouch. -/
theorem vouched_told (ev : SuiEvent) (a : ID) :
    (updatesAt (.asset a) (stored (routeEvent ev))).filterMap Assignment.vouched? =
      (told Event.vouchOf a [ev.event]).map fun (p, coverage) =>
        (some p, some (asI64 coverage)) := by
  -- a handler assigns at most once to a row; without an assignment the event tells nothing of the
  -- asset
  rcases updatesAt_cases ev (.asset a) with ⟨hnil, hnone⟩ | ⟨b, hb, hone⟩
  · rw [hnil]
    obtain ⟨id, timestampMs, e⟩ := ev
    cases e <;> try rfl
    case assetVouched c p _ _ _ =>
      have hne : c ≠ a := fun heq => hnone _ (by rw [← heq]; exact List.mem_cons_self)
      simp [told, Event.vouchOf, hne]
  · rw [hone]
    obtain ⟨id, timestampMs, e⟩ := ev
    cases e <;> simp [routeEvent] at hb <;> obtain ⟨rfl, rfl⟩ := hb <;>
      simp [told, Event.vouchOf, Assignment.vouched?]

/-- The handlers set an asset's state as the events tell it. -/
theorem states_told (ev : SuiEvent) (a : ID) :
    (updatesAt (.asset a) (stored (routeEvent ev))).filterMap Assignment.state? =
      (told Event.stateOf a [ev.event]).map fun state => (state.code : ℤ) := by
  rcases updatesAt_cases ev (.asset a) with ⟨hnil, hnone⟩ | ⟨b, hb, hone⟩
  · rw [hnil]
    obtain ⟨id, timestampMs, e⟩ := ev
    cases e <;> try rfl
    case assetStateChanged c _ _ =>
      have hne : c ≠ a := fun heq => hnone _ (by
        rw [← heq]
        exact List.mem_cons_of_mem _ List.mem_cons_self)
      simp [told, Event.stateOf, hne]
  · rw [hone]
    obtain ⟨id, timestampMs, e⟩ := ev
    cases e <;> simp [routeEvent] at hb <;> obtain ⟨rfl, rfl⟩ := hb <;>
      simp [told, Event.stateOf, Assignment.state?]

/-- The handlers set a dispute's verdict and payouts as the events tell them. -/
theorem verdicts_told (ev : SuiEvent) (d : ID) :
    (updatesAt (.dispute d) (stored (routeEvent ev))).filterMap Assignment.resolution? =
      (told Event.resolutionOf d [ev.event]).map fun (verdict, slashed, bounty) =>
        (some (verdict.code : ℤ), some (asI64 slashed), some (asI64 bounty)) := by
  rcases updatesAt_cases ev (.dispute d) with ⟨hnil, hnone⟩ | ⟨b, hb, hone⟩
  · rw [hnil]
    obtain ⟨id, timestampMs, e⟩ := ev
    cases e <;> try rfl
    case disputeResolved c _ _ _ _ _ _ _ _ _ =>
      have hne : c ≠ d := fun heq => hnone _ (by rw [← heq]; exact List.mem_cons_self)
      simp [told, Event.resolutionOf, hne]
  · rw [hone]
    obtain ⟨id, timestampMs, e⟩ := ev
    cases e <;> simp [routeEvent] at hb
    obtain ⟨rfl, rfl⟩ := hb
    simp [told, Event.resolutionOf, Assignment.resolution?]

/-- The columns of a vouch hold the last vouch. -/
theorem foldl_vouched (r : AssetRow) (as : List Assignment) :
    ((as.foldl AssetRow.assign r).validatorPoolId, (as.foldl AssetRow.assign r).coverage) =
      (as.filterMap Assignment.vouched?).getLast?.getD (r.validatorPoolId, r.coverage) := by
  refine foldl_getLast? (f := fun r : AssetRow => (r.validatorPoolId, r.coverage)) ?_ r as
  intro r b
  cases b <;> rfl

/-- The state is the last one. -/
theorem foldl_state (r : AssetRow) (as : List Assignment) :
    (as.foldl AssetRow.assign r).currentState =
      (as.filterMap Assignment.state?).getLast?.getD r.currentState := by
  refine foldl_getLast? (f := AssetRow.currentState) ?_ r as
  intro r b
  cases b <;> rfl

/-- No update sets the ID of the asset. -/
theorem foldl_assetId (r : AssetRow) (as : List Assignment) :
    (as.foldl AssetRow.assign r).assetId = r.assetId := by
  refine foldl_kept (f := AssetRow.assetId) ?_ as r
  intro r b
  cases b <;> rfl

/-- The columns of a resolution hold the last one. -/
theorem foldl_resolution (r : DisputeRow) (as : List Assignment) :
    ((as.foldl DisputeRow.assign r).verdict, (as.foldl DisputeRow.assign r).slashed,
      (as.foldl DisputeRow.assign r).bounty) =
      (as.filterMap Assignment.resolution?).getLast?.getD (r.verdict, r.slashed, r.bounty) := by
  refine foldl_getLast? (f := fun r : DisputeRow => (r.verdict, r.slashed, r.bounty)) ?_ r as
  intro r b
  cases b <;> rfl

/-! ## Rows of assets -/

/-- The row of a new asset. -/
theorem insertAt_asset (hev : ev.event.creates = some (.asset a)) : ∃ r : AssetRow,
    insertAt (.asset a) (routeEvent ev) = some (.asset r) ∧ r.assetId = a ∧
    (r.validatorPoolId, r.coverage) = (none, none) ∧ r.currentState = 0 := by
  obtain ⟨id, timestampMs, e⟩ := ev
  cases e <;> cases hev
  exact ⟨_, insertAt_insert.trans (if_pos rfl), rfl, rfl, rfl⟩

/-- An asset of the world was created by an event of the record. -/
theorem asset_of_creates (hr : w.Recorded h) (hasset : (w.assets.get? a).isSome) :
    ∃ ev ∈ h, ev.event.creates = some (.asset a) := by
  obtain ⟨asset, hasset⟩ := Option.isSome_iff_exists.mp hasset
  obtain rfl : asset.id = a := Store.key_of_get? hasset
  have hknown := World.knows_asset hasset
  rw [← hr.reachable.replayed, Ledger.knows_replay, ← hr.events] at hknown
  obtain ⟨e, he, hcreates⟩ := hknown
  obtain ⟨ev, hev, rfl⟩ := List.mem_map.mp he
  exact ⟨ev, hev, hcreates⟩

/-- An event that creates an asset is followed by one in the world. -/
theorem asset_of_event (hr : w.Recorded h) (hev : ev ∈ h)
    (hcreates : ev.event.creates = some (.asset a)) : (w.assets.get? a).isSome := by
  have hknown : (Ledger.replay w.events).Knows (.asset a) :=
    Ledger.knows_replay.mpr ⟨_, hr.events ▸ List.mem_map_of_mem hev, hcreates⟩
  rw [hr.reachable.replayed] at hknown
  have hsome : ((w.assets.get? a).map Asset.view).isSome = true := hknown
  rwa [Option.isSome_map] at hsome

/-- The columns of an asset row. -/
structure AssetRow.Shows (r : AssetRow) (w : World) (asset : Asset) : Prop where
  assetId : r.assetId = asset.id
  validatorPoolId : r.validatorPoolId = asset.validatorPoolId
  currentState : r.currentState = asset.state.code
  coverage : r.coverage = (told Event.vouchOf asset.id w.events).getLast?.map fun v => asI64 v.2

/-- The state a row is inserted with. -/
theorem code_pendingVouch : (AssetState.pendingVouch.code : ℤ) = 0 := rfl

/-- The row of an asset shows its pool, its coverage and its state. -/
theorem assetRow_served (hr : w.Recorded h) (hc : Complete h ps) {asset : Asset}
    (hasset : w.assets.get? a = some asset) : ∃ r : AssetRow,
      (typedTables h ps).get? (.asset a) = some (.asset r) ∧ r.Shows w asset := by
  -- the row as inserted at the creation, with the assignments of all later events
  obtain rfl : asset.id = a := Store.key_of_get? hasset
  obtain ⟨ev, hev, hcreates⟩ := asset_of_creates hr (Option.isSome_iff_exists.mpr ⟨_, hasset⟩)
  obtain ⟨r, hins, hid, hvouch, hstate⟩ := insertAt_asset hcreates
  have hrow := object_row hr hc hev hins
  rw [assignAll_asset] at hrow
  have hold := hr.reachable.standing.vouches _ asset hasset
  have hvouched := foldl_vouched r (tables.updates (.asset asset.id) h)
  have hstates := foldl_state r (tables.updates (.asset asset.id) h)
  rw [updates_told (vouched_told · asset.id), hr.events, hvouch, List.getLast?_map] at hvouched
  rw [updates_told (states_told · asset.id), hr.events, hstate, List.getLast?_map,
    ← code_pendingVouch] at hstates
  -- the last told state is the state of the chain, and that of the insert is the first one
  have hcode : (asset.state.code : ℤ) =
      ((told Event.stateOf asset.id w.events).getLast?.map fun s => (s.code : ℤ)).getD
        AssetState.pendingVouch.code := by
    rw [Option.getD_map, ← hr.reachable.state_told hasset]
  have hpool : asset.validatorPoolId =
      (told Event.vouchOf asset.id w.events).getLast?.map Prod.fst := by
    rw [← List.getLast?_map, hold.pool]
    cases asset.validatorPoolId <;> rfl
  -- the three columns are the last of the assignments to them
  refine ⟨_, hrow, (foldl_assetId ..).trans hid, ?_, hstates.trans hcode.symm, ?_⟩
  · rw [hpool]
    have hfst := congrArg Prod.fst hvouched
    cases hlast : (told Event.vouchOf asset.id w.events).getLast? <;> simpa [hlast] using hfst
  · have hsnd := congrArg Prod.snd hvouched
    cases hlast : (told Event.vouchOf asset.id w.events).getLast? <;> simpa [hlast] using hsnd

/-! ## Rows of disputes -/

/-- The row of a new dispute. -/
theorem insertAt_dispute {d : ID} (hev : ev.event.creates = some (.dispute d)) :
    ∃ r : DisputeRow, insertAt (.dispute d) (routeEvent ev) = some (.dispute r) ∧
      r.disputeId = d ∧ ev.event.openingOf = some (d, r.targetPoolId) ∧
      (r.verdict, r.slashed, r.bounty) = (none, none, none) := by
  obtain ⟨id, timestampMs, e⟩ := ev
  cases e <;> cases hev
  exact ⟨_, insertAt_insert.trans (if_pos rfl), rfl, rfl, rfl⟩

/-- A dispute of the world was opened by an event of the record. -/
theorem dispute_of_creates (hr : w.Recorded h) {d : ID} (hdispute : (w.disputes.get? d).isSome) :
    ∃ ev ∈ h, ev.event.creates = some (.dispute d) := by
  obtain ⟨dispute, hdispute⟩ := Option.isSome_iff_exists.mp hdispute
  obtain rfl : dispute.id = d := Store.key_of_get? hdispute
  have hknown := World.knows_dispute hdispute
  rw [← hr.reachable.replayed, Ledger.knows_replay, ← hr.events] at hknown
  obtain ⟨e, he, hcreates⟩ := hknown
  obtain ⟨ev, hev, rfl⟩ := List.mem_map.mp he
  exact ⟨ev, hev, hcreates⟩

/-- An event that opens a dispute is followed by one in the world. -/
theorem dispute_of_event (hr : w.Recorded h) (hev : ev ∈ h) {d : ID}
    (hcreates : ev.event.creates = some (.dispute d)) : (w.disputes.get? d).isSome := by
  have hknown : (Ledger.replay w.events).Knows (.dispute d) :=
    Ledger.knows_replay.mpr ⟨_, hr.events ▸ List.mem_map_of_mem hev, hcreates⟩
  rw [hr.reachable.replayed] at hknown
  have hsome : ((w.disputes.get? d).map Dispute.bond).isSome = true := hknown
  rwa [Option.isSome_map] at hsome

/-- Assignments leave a dispute's id and target as they are. -/
theorem foldl_disputeId (r : DisputeRow) (as : List Assignment) :
    (as.foldl DisputeRow.assign r).disputeId = r.disputeId ∧
      (as.foldl DisputeRow.assign r).targetPoolId = r.targetPoolId := by
  refine Prod.mk.inj (foldl_kept (f := fun r : DisputeRow => (r.disputeId, r.targetPoolId)) ?_ as r)
  intro r b
  cases b <;> rfl

/-- The verdicts are those of the resolutions. -/
theorem verdicts_of_resolutions (d : ID) (es : List Event) :
    (told Event.resolutionOf d es).map Prod.fst = told Event.verdictOf d es := by
  simp only [told, Event.verdictOf, List.map_filterMap]
  refine List.filterMap_congr fun e _ => ?_
  cases e.resolutionOf with
  | none => rfl
  | some v =>
    obtain ⟨j, verdict, slashed, bounty⟩ := v
    by_cases hj : j = d <;> simp [hj]

/-- The columns of a dispute row. -/
structure DisputeRow.Shows (r : DisputeRow) (w : World) (dispute : Dispute) : Prop where
  disputeId : r.disputeId = dispute.id
  targetPoolId : r.targetPoolId = dispute.targetPoolId
  verdict : r.verdict = if dispute.status = .opened then none else some (dispute.status.code : ℤ)
  sums : (r.slashed, r.bounty) =
    ((told Event.resolutionOf dispute.id w.events).getLast?.map fun v =>
      (some (asI64 v.2.1), some (asI64 v.2.2))).getD (none, none)

/-- The row of a dispute shows its verdict and its payouts. -/
theorem disputeRow_served (hr : w.Recorded h) (hc : Complete h ps) {d : ID} {dispute : Dispute}
    (hdispute : w.disputes.get? d = some dispute) : ∃ r : DisputeRow,
      (typedTables h ps).get? (.dispute d) = some (.dispute r) ∧ r.Shows w dispute := by
  obtain rfl : dispute.id = d := Store.key_of_get? hdispute
  obtain ⟨ev, hev, hcreates⟩ := dispute_of_creates hr (Option.isSome_iff_exists.mpr ⟨_, hdispute⟩)
  obtain ⟨r, hins, hid, hopening, hempty⟩ := insertAt_dispute hcreates
  have hrow := object_row hr hc hev hins
  rw [assignAll_dispute] at hrow
  have hold := hr.reachable.standing.disputes _ dispute hdispute
  obtain ⟨hsameId, hsameTarget⟩ := foldl_disputeId r (tables.updates (.dispute dispute.id) h)
  have hresolved := foldl_resolution r (tables.updates (.dispute dispute.id) h)
  rw [updates_told (verdicts_told · dispute.id), hr.events, hempty, List.getLast?_map] at hresolved
  have htarget : r.targetPoolId = dispute.targetPoolId := by
    have hin : ev.event ∈ w.events := hr.events ▸ List.mem_map_of_mem hev
    have hmem := mem_told.mpr ⟨_, hin, hopening⟩
    rw [hold.opening] at hmem
    exact List.mem_singleton.mp hmem
  -- the verdict of the last resolution is the status
  have hverdict : (told Event.resolutionOf dispute.id w.events).map Prod.fst =
      if dispute.status = .opened then [] else [dispute.status] := by
    rw [← hold.verdict, verdicts_of_resolutions]
  refine ⟨_, hrow, hsameId.trans hid, hsameTarget.trans htarget, ?_, ?_⟩
  · have hfst := congrArg Prod.fst hresolved
    have hlast : (told Event.resolutionOf dispute.id w.events).getLast?.map Prod.fst =
        if dispute.status = .opened then none else some dispute.status := by
      rw [← List.getLast?_map, hverdict]
      split <;> rfl
    cases hres : (told Event.resolutionOf dispute.id w.events).getLast? with
    | none =>
      rw [hres, Option.map_none] at hlast
      rw [hres] at hfst
      split at hlast
      · next hopened => rw [if_pos hopened]; exact hfst
      · cases hlast
    | some v =>
      rw [hres, Option.map_some] at hlast
      rw [hres] at hfst
      split at hlast
      · cases hlast
      · next hdecided =>
        rw [if_neg hdecided, ← Option.some.inj hlast]
        exact hfst
  · have hsnd := congrArg Prod.snd hresolved
    cases hres : (told Event.resolutionOf dispute.id w.events).getLast? <;>
      simpa [hres] using hsnd

end Gally.Indexer

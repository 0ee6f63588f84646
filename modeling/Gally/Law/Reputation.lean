import Gally.Indexer.Reputation
import Gally.Law.Confluence
import Gally.Law.Grace
import Gally.Law.Records
import Gally.Law.Vouches

/-!
# Served track records

Once everything is ingested, the track record of a pool is what the chain says of it now
(`standing_served`): the assets that it vouched for, those of them that are in `COMPENSATING`, the
approvals in the log, and the disputes against it with those upheld. The coverage of an asset row
is what was vouched, and stays there when the chain releases or consumes it.
-/

namespace Gally

open Checked Indexer Relational Feed

/-! ## The standing on chain -/

/-- The pool that approved a milestone. -/
def Event.approvalOf : Event → Option ID
  | .milestoneApproved _ _ _ poolId => some poolId
  | _ => none

/-- The standing of a pool on chain. -/
def World.trackRecord (w : World) (poolId : ID) : ValidatorTrackRecord where
  assetsVouched := w.assets.entries.countP fun a => a.validatorPoolId = some poolId
  milestonesApproved := w.events.countP fun e => e.approvalOf = some poolId
  assetsDefaulted := w.assets.entries.countP fun a =>
    a.validatorPoolId = some poolId ∧ a.state = .compensating
  disputesFiledAgainst := w.disputes.entries.countP fun d => d.targetPoolId = poolId
  disputesUpheld := w.disputes.entries.countP fun d => d.targetPoolId = poolId ∧ d.status = .upheld

namespace Indexer

variable {w : World} {h : List SuiEvent} {ps : List (Poll Module)}

/-! ## Rows and objects -/

/-- Rows and objects that match by their ids are counted the same. -/
theorem countP_objects {α ρ β : Type} [Keyed α ID] {objects : Store α} {rows : List ρ}
    {idOf : ρ → ID} {f : ρ → β} {g : α → β} (hids : (rows.map idOf).Nodup)
    (hrows : ∀ r ∈ rows, ∃ x ∈ objects, Keyed.key x = idOf r ∧ g x = f r)
    (hobjects : ∀ x ∈ objects, ∃ r ∈ rows, idOf r = Keyed.key x ∧ f r = g x) (p : β → Bool) :
    rows.countP (fun r => p (f r)) = objects.entries.countP fun x => p (g x) := by
  have hnodup : (rows.map fun r => (idOf r, f r)).Nodup := by
    refine List.Nodup.of_map Prod.fst ?_
    rw [List.map_map]
    exact hids
  have hnodup' : (objects.entries.map fun x => (Keyed.key x, g x)).Nodup := by
    refine List.Nodup.of_map Prod.fst ?_
    rw [List.map_map]
    exact objects.nodup
  -- ids with what is counted: the same pairs on both sides, and each once
  have hperm : (rows.map fun r => (idOf r, f r)).Perm
      (objects.entries.map fun x => (Keyed.key x, g x)) := by
    refine (List.perm_ext_iff_of_nodup hnodup hnodup').mpr fun v => ?_
    rw [List.mem_map, List.mem_map]
    constructor
    · intro ⟨r, hr, hv⟩
      obtain ⟨x, hx, hid, hval⟩ := hrows r hr
      exact ⟨x, hx, by rw [hid, hval, hv]⟩
    · intro ⟨x, hx, hv⟩
      obtain ⟨r, hr, hid, hval⟩ := hobjects x hx
      exact ⟨r, hr, by rw [hid, hval, hv]⟩
  have hcount := hperm.countP_eq fun v => p v.2
  rw [List.countP_map, List.countP_map] at hcount
  exact hcount

/-- A row of an asset is that of an asset of the world, and shows it. -/
theorem asset_of_row (hr : w.Recorded h) (hc : Complete h ps) {r : AssetRow}
    (hrow : r ∈ assetRows (typedTables h ps)) :
    ∃ asset, w.assets.get? r.assetId = some asset ∧ r.Shows w asset := by
  have hget := mem_assetRows.mp hrow
  obtain ⟨ev, hev, first, hins, -⟩ := object_owner hr hc hget
  obtain ⟨hmem, hkey⟩ := mem_of_insertAt hins
  have howner : Owner ev (.asset r.assetId) := by
    have hinserted := owner_of_insert hmem
    rwa [show first.key = .asset r.assetId from hkey] at hinserted
  obtain ⟨asset, hasset⟩ := Option.isSome_iff_exists.mp (asset_of_event hr hev howner)
  obtain ⟨r', hget', hshows⟩ := assetRow_served hr hc hasset
  rw [hget] at hget'
  cases Option.some.inj hget'
  exact ⟨asset, hasset, hshows⟩

/-- A row of a dispute is that of a dispute of the world, and shows it. -/
theorem dispute_of_row (hr : w.Recorded h) (hc : Complete h ps) {r : DisputeRow}
    (hrow : r ∈ disputeRows (typedTables h ps)) :
    ∃ dispute, w.disputes.get? r.disputeId = some dispute ∧ r.Shows w dispute := by
  have hget := mem_disputeRows.mp hrow
  obtain ⟨ev, hev, first, hins, -⟩ := object_owner hr hc hget
  obtain ⟨hmem, hkey⟩ := mem_of_insertAt hins
  have howner : Owner ev (.dispute r.disputeId) := by
    have hinserted := owner_of_insert hmem
    rwa [show first.key = .dispute r.disputeId from hkey] at hinserted
  obtain ⟨dispute, hdispute⟩ := Option.isSome_iff_exists.mp (dispute_of_event hr hev howner)
  obtain ⟨r', hget', hshows⟩ := disputeRow_served hr hc hdispute
  rw [hget] at hget'
  cases Option.some.inj hget'
  exact ⟨dispute, hdispute, hshows⟩

/-! ## Counts -/

/-- The byte of COMPENSATING is 6, and no other's. -/
theorem code_eq_compensating {s : AssetState} : (s.code : ℤ) = 6 ↔ s = .compensating := by
  cases s <;> decide

/-- The byte of an upheld verdict is 1, and no other's. -/
theorem verdict_eq_upheld {s : DisputeStatus} :
    (if s = .opened then none else some (s.code : ℤ)) = some 1 ↔ s = .upheld := by
  cases s <;> decide

/-- The rows of assets are counted as the assets are. -/
theorem countP_assetRows (hr : w.Recorded h) (hc : Complete h ps) (p : Option ID × ℤ → Bool) :
    (assetRows (typedTables h ps)).countP (fun r => p (r.validatorPoolId, r.currentState)) =
      w.assets.entries.countP fun a => p (a.validatorPoolId, a.state.code) := by
  refine countP_objects (f := fun r : AssetRow => (r.validatorPoolId, r.currentState))
    (g := fun a : Asset => (a.validatorPoolId, (a.state.code : ℤ))) nodup_assetIds ?_ ?_ p
  · intro r hrow
    obtain ⟨asset, hasset, hshows⟩ := asset_of_row hr hc hrow
    exact ⟨asset, Store.mem_of_get? hasset, hshows.assetId.symm,
      by rw [hshows.validatorPoolId, hshows.currentState]⟩
  · intro asset hasset
    obtain ⟨r, hget, hshows⟩ := assetRow_served hr hc (Store.get?_key hasset)
    have hid : r.assetId = Keyed.key asset := hshows.assetId
    exact ⟨r, mem_assetRows.mpr (hid ▸ hget), hid,
      by rw [hshows.validatorPoolId, hshows.currentState]⟩

/-- The rows of disputes are counted as the disputes are. -/
theorem countP_disputeRows (hr : w.Recorded h) (hc : Complete h ps) (p : ID × Option ℤ → Bool) :
    (disputeRows (typedTables h ps)).countP (fun r => p (r.targetPoolId, r.verdict)) =
      w.disputes.entries.countP fun d =>
        p (d.targetPoolId, if d.status = .opened then none else some (d.status.code : ℤ)) := by
  refine countP_objects (f := fun r : DisputeRow => (r.targetPoolId, r.verdict))
    (g := fun d : Dispute =>
      (d.targetPoolId, if d.status = .opened then none else some (d.status.code : ℤ)))
    nodup_disputeIds ?_ ?_ p
  · intro r hrow
    obtain ⟨dispute, hdispute, hshows⟩ := dispute_of_row hr hc hrow
    exact ⟨dispute, Store.mem_of_get? hdispute, hshows.disputeId.symm,
      by rw [hshows.targetPoolId, hshows.verdict]⟩
  · intro dispute hdispute
    obtain ⟨r, hget, hshows⟩ := disputeRow_served hr hc (Store.get?_key hdispute)
    have hid : r.disputeId = Keyed.key dispute := hshows.disputeId
    exact ⟨r, mem_disputeRows.mpr (hid ▸ hget), hid,
      by rw [hshows.targetPoolId, hshows.verdict]⟩

/-- An event inserts an approval of the pool, if it is one. -/
theorem countP_insertedRows (ev : SuiEvent) (poolId : ID) :
    ((insertedRows ev).filterMap Row.trancheEvent?).countP
      (fun r => r.eventType = .approved ∧ r.poolId = some poolId) =
        if ev.event.approvalOf = some poolId then 1 else 0 := by
  obtain ⟨id, timestampMs, e⟩ := ev
  cases e <;> simp [insertedRows, routeEvent, Row.trancheEvent?, Event.approvalOf]

/-- Each approval in the log has one row. -/
theorem countP_trancheEventRows (hr : w.Recorded h) (hc : Complete h ps) (poolId : ID) :
    (trancheEventRows (typedTables h ps)).countP
      (fun r => r.eventType = .approved ∧ r.poolId = some poolId) =
        w.events.countP fun e => e.approvalOf = some poolId := by
  have hrows : (trancheEventRows (typedTables h ps)).Perm
      ((h.flatMap insertedRows).filterMap Row.trancheEvent?) := by
    refine perm_filterMap hr (fun _ hx => mem_of_received hx) hc.ingested fun row hrow => ?_
    cases row <;> first | rfl | cases hrow
  rw [hrows.countP_eq, ← hr.events, List.countP_map]
  clear hr hc hrows
  induction h with
  | nil => rfl
  | cons ev h ih =>
    rw [List.flatMap_cons, List.filterMap_append, List.countP_append, ih, countP_insertedRows,
      List.countP_cons, Nat.add_comm]
    simp

/-! ## The served standing -/

/-- The track record of a pool is its standing on chain. -/
theorem trackRecord_served (hr : w.Recorded h) (hc : Complete h ps) (poolId : ID) :
    validatorTrackRecord (typedTables h ps) poolId = w.trackRecord poolId := by
  have hvouched := countP_assetRows hr hc fun v => v.1 = some poolId
  have hdefaulted := countP_assetRows hr hc fun v => v.1 = some poolId ∧ v.2 = 6
  have hfiled := countP_disputeRows hr hc fun v => v.1 = poolId
  have hupheld := countP_disputeRows hr hc fun v => v.1 = poolId ∧ v.2 = some 1
  simp only [code_eq_compensating] at hdefaulted
  simp only [verdict_eq_upheld] at hupheld
  unfold validatorTrackRecord World.trackRecord
  rw [hvouched, hdefaulted, hfiled, hupheld, countP_trancheEventRows hr hc]

/-- What the coverage column of an asset shows. -/
structure AssetRow.ShowsCoverage (r : AssetRow) (w : World) (asset : Asset) : Prop where
  /-- Before the vouch nothing is covered. -/
  unvouched : asset.validatorPoolId = none → r.coverage = none ∧ asset.coverageLocked = 0
  /-- Then the column is what was vouched, and that is locked until it is released or consumed. -/
  vouched : ∀ poolId, asset.validatorPoolId = some poolId → ∃ coverage,
    told Event.vouchOf asset.id w.events = [(poolId, coverage)] ∧
    r.coverage = some (asI64 coverage) ∧
    (asset.coverageLocked = coverage ∨ asset.coverageLocked = 0)

/-- An asset that nobody vouches for has no coverage. -/
theorem uncovered_of_unvouched (hw : Reachable w) {asset : Asset} (hasset : asset ∈ w.assets)
    (hnone : asset.validatorPoolId = none) : asset.coverageLocked = 0 := by
  obtain ⟨L, htrace⟩ := hw.traced (H := vouchHistory) fun _ _ => ⟨_, rfl⟩
  have hfits := htrace.counted.fits asset hasset
  by_contra hpos
  have hlive := hfits.covered (Nat.pos_of_ne_zero hpos)
  rw [hfits.unvouched.mpr hnone] at hlive
  cases hlive

/-- The coverage of a row is the one told by the vouch. -/
theorem coverage_shown (hr : w.Recorded h) {a : ID} {asset : Asset}
    (hasset : w.assets.get? a = some asset) {r : AssetRow} (hshows : r.Shows w asset) :
    r.ShowsCoverage w asset := by
  obtain rfl : asset.id = a := Store.key_of_get? hasset
  have htold := hr.reachable.standing.vouches _ asset hasset
  constructor
  · intro hnone
    have hempty : told Event.vouchOf asset.id w.events = [] := by
      have hpool := htold.pool
      rw [hnone] at hpool
      exact List.map_eq_nil_iff.mp hpool
    rw [hshows.coverage, hempty]
    exact ⟨rfl, uncovered_of_unvouched hr.reachable (Store.mem_of_get? hasset) hnone⟩
  · intro poolId hpoolId
    have hpool := htold.pool
    rw [hpoolId] at hpool
    obtain ⟨⟨q, coverage⟩, hone, rfl⟩ := List.map_eq_singleton_iff.mp hpool
    refine ⟨coverage, hone, ?_, ?_⟩
    · rw [hshows.coverage, hone]
      rfl
    · exact htold.coverage (q, coverage) (by rw [hone]; exact List.mem_singleton_self _)

/-- Once everything is ingested, the track record of a pool is its standing on chain, and the
    coverage of an asset row is what was vouched. -/
theorem standing_served {w : World} {h : List SuiEvent} {ps : List (Poll Module)}
    (hr : w.Recorded h) (hc : Complete h ps) :
    (∀ poolId, validatorTrackRecord (typedTables h ps) poolId = w.trackRecord poolId) ∧
    ∀ a asset, w.assets.get? a = some asset → ∃ r : AssetRow,
      (typedTables h ps).get? (.asset a) = some (.asset r) ∧ r.ShowsCoverage w asset := by
  refine ⟨trackRecord_served hr hc, fun a asset hasset => ?_⟩
  obtain ⟨r, hget, hshows⟩ := assetRow_served hr hc hasset
  exact ⟨r, hget, coverage_shown hr hasset hshows⟩

end Indexer

namespace Sample

/-- The schedule reads everything and every handler returns. -/
def complete (h : List SuiEvent) (ps : List (Poll Module)) : Bool :=
  full h ps && handled ∅ (Reader.polls eventModule h ps).received &&
    h.all fun ev => ev ∈ (Reader.polls eventModule h ps).received

/-- What the check evaluates is completeness. -/
theorem complete_of_check {h : List SuiEvent} {ps : List (Poll Module)}
    (hcheck : complete h ps = true) : Complete h ps := by
  unfold complete at hcheck
  rw [Bool.and_eq_true, Bool.and_eq_true, List.all_eq_true] at hcheck
  obtain ⟨⟨hfull, hhandled⟩, hall⟩ := hcheck
  exact ⟨caughtUp_of_full hfull, fun ev hev =>
    ingested_of_handled hhandled (of_decide_eq_true (hall ev hev))⟩

/-- The compensation of the upheld challenge is swept, and asset 4 closed. -/
def compensated : List Entry :=
  Entry.ofActions 1000 (restituted ++ [.transaction 3
    [.accumulator (.sweepCompensation 8), .asset (.closeAfterCompensation 4 8)]])

end Sample

open Sample

/-- While asset 4 is in `COMPENSATING`, one of the vouched assets counts as defaulted. -/
theorem standing_served_restituted : ∃ (w : World) (h : List SuiEvent), w.Recorded h ∧
    (w.trackRecord 2).assetsDefaulted = 1 ∧
    validatorTrackRecord (typedTables h cycle) 2 = w.trackRecord 2 := by
  have hrun : returns (World.record (Entry.ofActions 1000 restituted)) (fun s =>
      complete s.2 cycle && (s.1.trackRecord 2).assetsDefaulted = 1) = true := by
    decide +kernel
  obtain ⟨s, hs, hq⟩ := returns_iff.mp hrun
  rw [Bool.and_eq_true, decide_eq_true_eq] at hq
  exact ⟨s.1, s.2, .of_record hs, hq.2,
    (standing_served (.of_record hs) (complete_of_check hq.1)).1 2⟩

/-- Once asset 4 is closed, the default is not counted any more and the reputation rises from 20
    to 23, while the asset row shows coverage that the chain has consumed. -/
theorem closed_default_uncounted : ∃ (w w' : World) (h h' : List SuiEvent) (asset : Asset)
    (r : AssetRow), w.Recorded h ∧ w'.Recorded h' ∧ h <+: h' ∧ Complete h cycle ∧
    Complete h' cycle ∧ w'.assets.get? 4 = some asset ∧ asset.validatorPoolId = some 2 ∧
    .compensating ∈ told Event.stateOf 4 w'.events ∧
    (validatorTrackRecord (typedTables h' cycle) 2).assetsDefaulted = 0 ∧
    computeReputation (validatorTrackRecord (typedTables h cycle) 2) = 20 ∧
    computeReputation (validatorTrackRecord (typedTables h' cycle) 2) = 23 ∧
    (typedTables h' cycle).get? (.asset 4) = some (.asset r) ∧ r.coverage = some 200000 ∧
    asset.coverageLocked = 0 := by
  have hrun : returns (World.record (Entry.ofActions 1000 restituted)) (fun s =>
      returns (World.record compensated) fun s' =>
        (s'.1.assets.get? 4).any (fun asset =>
          ((typedTables s'.2 cycle).get? (.asset 4)).any fun row => (Row.asset? row).any fun r =>
            (row = .asset r ∧ r.coverage = some 200000) ∧ asset.validatorPoolId = some 2 ∧
              asset.coverageLocked = 0) &&
        decide (s.2 <+: s'.2 ∧ complete s.2 cycle ∧ complete s'.2 cycle ∧
          .compensating ∈ told Event.stateOf 4 s'.1.events ∧
          (validatorTrackRecord (typedTables s'.2 cycle) 2).assetsDefaulted = 0 ∧
          computeReputation (validatorTrackRecord (typedTables s.2 cycle) 2) = 20 ∧
          computeReputation (validatorTrackRecord (typedTables s'.2 cycle) 2) = 23)) = true := by
    decide +kernel
  -- the two histories, before and after the close
  obtain ⟨s, hs, hq⟩ := returns_iff.mp hrun
  obtain ⟨s', hs', hq⟩ := returns_iff.mp hq
  simp only [Bool.and_eq_true, decide_eq_true_eq, Option.any_eq_true] at hq
  obtain ⟨⟨asset, hasset, row, hrow, r, -, ⟨rfl, hcoverage⟩, hpool, hzero⟩, hprefix, hc, hc',
    hentered,
    hdefaulted, hbefore, hafter⟩ := hq
  exact ⟨s.1, s'.1, s.2, s'.2, asset, r, .of_record hs, .of_record hs', hprefix,
    complete_of_check hc, complete_of_check hc', hasset, hpool, hentered, hdefaulted, hbefore,
    hafter, hrow, hcoverage, hzero⟩

end Gally

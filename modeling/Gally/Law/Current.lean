import Gally.Explorer.Live
import Gally.Law.Pages
import Gally.Law.Reputation

/-!
# Current values of the explorer

`getAsset` reads the series of the raise from the endpoint of the state changes, whose rows have
neither a contributor nor an amount. So it shows every asset with nothing raised and one
contributor (`shown_raise`), which no raise has (`raise_never_shown`).
-/

namespace Gally

open Checked Relational Indexer Feed

/-! ## Contributions in the log -/

/-- The asset, the contributor and the amount raised after a contribution. -/
def Event.contributionOf : Event → Option (ID × Address × ℕ)
  | .capitalContributed a contributor _ raisedAfter => some (a, contributor, raisedAfter)
  | _ => none

/-- Only a contribution tells one. -/
theorem kind_of_contributionOf {e : Event} {v : ID × Address × ℕ} (h : e.contributionOf = some v) :
    e.kind = .capitalContributed := by
  cases e <;> first | rfl | cases h

/-- No call leaves a contribution of nothing. -/
theorem World.contributions_call {w w' : World} {sender : Address} {c : Call}
    (h : w.call sender c = .ok w')
    (hw : ∀ e ∈ w.events, ∀ v, e.contributionOf = some v → 0 < v.2.2) :
    ∀ e ∈ w'.events, ∀ v, e.contributionOf = some v → 0 < v.2.2 := by
  obtain ⟨es, hevents, hkinds⟩ := World.emits h
  rw [hevents, List.forall_mem_append]
  refine ⟨hw, fun e he v hv => ?_⟩
  have hkind := hkinds e he
  rw [kind_of_contributionOf hv] at hkind
  -- only a contribution tells of one
  obtain ⟨a, payment, rfl⟩ : ∃ a payment, c = .asset (.contributeCapital a payment) := by
    obtain ⟨c, rfl, hk⟩ := Call.asset_of_kinds hkind (Or.inr (Or.inl rfl))
    cases c <;> first | exact ⟨_, _, rfl⟩ | simp [AssetCall.kinds] at hk
  have hstep : AssetStep w sender (.contributeCapital a payment) w' := World.assetCall_eq_ok.mp h
  cases hstep with
  | @contributeCapital _ _ asset _ _ _ guards run =>
    obtain ⟨-, ⟨⟩⟩ := contributeCapital_eq_ok.mp run
    obtain rfl := List.append_cancel_left hevents
    obtain rfl := List.mem_singleton.mp he
    obtain rfl := Option.some.inj hv
    have hunmet := guards.unmet
    have hpositive := guards.positive
    show 0 < asset.raised + min payment.val (asset.fundingGoal - asset.raised)
    omega

/-- Every contribution in a log has raised something. -/
theorem Reachable.raised_pos {w : World} (hw : Reachable w) {e : Event} (he : e ∈ w.events)
    {v : ID × Address × ℕ} (hv : e.contributionOf = some v) : 0 < v.2.2 := by
  refine hw.induct (P := fun w => ∀ e ∈ w.events, ∀ v, e.contributionOf = some v → 0 < v.2.2)
    ?_ (fun _ hold h => World.contributions_call h hold) (fun _ hold _ => hold) e he v hv
  intro admin e he v hv
  simp only [World.genesis, List.mem_singleton] at he
  subst he
  cases hv

/-! ## What the page should show -/

namespace Explorer

/-- The values after the last event of an asset. -/
structure Asset.ShowsCurrent (shown : Explorer.Asset) (w : World) (asset : Gally.Asset) : Prop where
  raised : shown.raised =
    (((told Event.contributionOf asset.id w.events).getLast?.elim 0 Prod.snd : ℕ) : ℚ) / micro
  /-- All contributions are counted. -/
  contributors : shown.contributors =
    ((told Event.contributionOf asset.id w.events).map Prod.fst).dedup.length
  accumulator : ∀ acc ∈ w.accumulators, acc.assetId = asset.id → ∃ a, shown.accumulator = some a ∧
    a.cumulativeIndex = (acc.cumulativeYieldIndex : ℚ) / indexScale / micro ∧
    a.totalWrappedShares = (acc.totalWrappedShares : ℚ) / micro
  tranches : shown.tranches.map (fun t => (t.released, t.approvedBy)) =
    asset.tranches.map fun t => (t.released, t.approvedBy.map Indexer.idText)

/-! ## What the page shows -/

/-- A list is read up to the limit of one page. -/
theorem getList_eq (L : Indexer.Listing) (json : L.Item → JsonObject) (s : Snapshot)
    (limit : Option ℤ) : getList L json s limit = (L.matching s).map fun rows =>
      (Keyset.page L.key rows none (clampLimit limit)).data.map json := by
  unfold getList Listing.respond Listing.query
  cases L.matching s with
  | none => rfl
  | some rows =>
    simp only [Option.elim_none, Option.map_some, Option.bind_eq_bind, Option.bind_some,
      Option.pure_def]
    rw [Keyset.Page.fromOverfetch_comp]
    rfl

/-- A list of one value has that one. -/
theorem eraseDups_constant {α : Type} [BEq α] [LawfulBEq α] {l : List α} {x : α} (hne : l ≠ [])
    (hall : ∀ y ∈ l, y = x) : l.eraseDups = [x] := by
  cases l with
  | nil => exact absurd rfl hne
  | cons y l =>
    obtain rfl := hall y List.mem_cons_self
    have hrest : l.filter (fun b => !b == y) = [] := by
      refine List.filter_eq_nil_iff.mpr fun b hb => ?_
      rw [hall b (List.mem_cons_of_mem _ hb)]
      simp
    rw [List.eraseDups_cons, hrest]
    rfl

/-- A raise read from rows that have neither amounts nor contributors. -/
theorem getAsset_raise {r : AssetResponses} {shown : Explorer.Asset} {raise : List JsonObject}
    (hhistory : r.history = some raise) (hne : raise ≠ [])
    (hrows : ∀ p ∈ raise, p.string? "raised_after" = none ∧ p.string? "contributor" = none)
    (h : getAsset r = some shown) : shown.raised = 0 ∧ shown.contributors = 1 := by
  -- the rows of the history have no column of the raise, so its last value is zero
  have hlast : (mapRaiseSeries raise).getLast?.map Point.v = some 0 := by
    obtain ⟨init, p, rfl⟩ := (List.eq_nil_or_concat' raise).resolve_left hne
    have hp := (hrows p (List.mem_append_right _ (List.mem_singleton_self p))).1
    simp [mapRaiseSeries, hp, usdc]
  have hcontributors : (raise.map fun p => p.string? "contributor").eraseDups = [none] := by
    refine eraseDups_constant (fun hnil => hne (List.map_eq_nil_iff.mp hnil)) fun y hy => ?_
    obtain ⟨p, hp, rfl⟩ := List.mem_map.mp hy
    exact (hrows p hp).2
  obtain ⟨base, -, rfl⟩ := Option.map_eq_some_iff.mp h
  simp only [hhistory, Option.getD_some, hlast, hcontributors]
  cases r.tranches with
  | none => exact ⟨rfl, rfl⟩
  | some env =>
    rw [Option.elim_some]
    by_cases hempty : env.schedule = []
    · rw [if_pos hempty]
      exact ⟨rfl, rfl⟩
    · rw [if_neg hempty]
      exact ⟨rfl, rfl⟩

end Explorer

namespace Indexer

variable {w : World} {h : List SuiEvent} {ps : List (Poll Module)} {s : Snapshot} {asset : Asset}

/-- An asset has a row in its history since it was created. -/
theorem history_created (hr : w.Recorded h) (hc : Complete h ps)
    (hasset : w.assets.get? asset.id = some asset) :
    ∃ r : AssetStateChangeRow, .stateChange r ∈ (typedTables h ps).rows ∧ r.assetId = asset.id := by
  obtain ⟨ev, hev, hcreates⟩ := asset_of_creates hr (Option.isSome_iff_exists.mpr ⟨_, hasset⟩)
  obtain ⟨r, hins, hid⟩ : ∃ r : AssetStateChangeRow,
      .insert (.stateChange r) ∈ routeEvent ev ∧ r.assetId = asset.id := by
    obtain ⟨id, timestampMs, e⟩ := ev
    cases e <;> cases hcreates
    refine ⟨_, List.mem_cons_of_mem _ (List.mem_append_right _ (List.mem_singleton_self _)), ?_⟩
    rfl
  refine ⟨r, ?_, hid⟩
  exact (mem_rows_iff hr (fun _ hx => mem_of_received hx) hc.ingested rfl).mpr ⟨ev, hev, hins⟩

/-- The page of an asset shows a raise of nothing by one contributor. -/
theorem shown_raise (hr : w.Recorded h) (hc : Complete h ps) (hs : s.typed = typedTables h ps)
    (hasset : w.assets.get? asset.id = some asset) (b : AccumulatorBalances) :
    ∃ shown, Explorer.getAsset (Explorer.assetResponses s b asset.id) = some shown ∧
      shown.raised = 0 ∧ shown.contributors = 1 := by
  obtain ⟨r, hget, -⟩ := assetRow_served hr hc hasset
  have hbase : Explorer.assetDetail s b asset.id =
      some { fields := r.json, accumulator := some b.json } := by
    unfold Explorer.assetDetail
    rw [hs, hget]
    rfl
  obtain ⟨shown, hshown⟩ : ∃ shown,
      Explorer.getAsset (Explorer.assetResponses s b asset.id) = some shown := by
    unfold Explorer.getAsset Explorer.assetResponses
    rw [hbase]
    exact ⟨_, rfl⟩
  obtain ⟨rows, hrows⟩ : ∃ rows, (listAssetHistory asset.id).matching s = some rows :=
    ⟨_, rfl⟩
  have hhistory := Explorer.getList_eq (listAssetHistory asset.id) (fun r => r.row.json) s
    (some 200)
  rw [hrows, Option.map_some] at hhistory
  -- the history of an asset has at least the row of its creation
  have hne : rows ≠ [] := by
    obtain ⟨c, hc', hid⟩ := history_created hr hc hasset
    obtain rfl := Option.some.inj hrows
    have hserial : ⟨s.serial (Row.stateChange c).key, c⟩ ∈ s.serials Row.stateChange? :=
      mem_serials.mpr ⟨.stateChange c, hs ▸ hc', rfl, rfl⟩
    exact List.ne_nil_of_mem (List.mem_filter.mpr ⟨hserial, decide_eq_true hid⟩)
  refine ⟨shown, hshown, Explorer.getAsset_raise hhistory ?_ ?_ hshown⟩
  · intro hnil
    exact Keyset.data_ne_nil hne (clampLimit_pos _) (List.map_eq_nil_iff.mp hnil)
  · intro p hp
    obtain ⟨x, -, rfl⟩ := List.mem_map.mp hp
    exact ⟨rfl, rfl⟩

/-- Every asset is shown with nothing raised and one contributor, which no asset has. -/
theorem raise_never_shown {w : World} {h : List SuiEvent} {ps : List (Poll Module)}
    (hr : w.Recorded h) (hc : Complete h ps) {s : Snapshot} (hs : s.typed = typedTables h ps)
    {asset : Asset} (hasset : w.assets.get? asset.id = some asset) (b : AccumulatorBalances) :
    ∃ shown, Explorer.getAsset (Explorer.assetResponses s b asset.id) = some shown ∧
      shown.raised = 0 ∧ shown.contributors = 1 ∧ ¬ shown.ShowsCurrent w asset := by
  obtain ⟨shown, hshown, hraised, hcontributors⟩ := shown_raise hr hc hs hasset b
  refine ⟨shown, hshown, hraised, hcontributors, fun hcurrent => ?_⟩
  have hnone := hcurrent.raised
  have hone := hcurrent.contributors
  rw [hraised] at hnone
  rw [hcontributors] at hone
  -- without contributions one contributor is shown for none; with one, zero for a positive amount
  rcases List.eq_nil_or_concat' (told Event.contributionOf asset.id w.events) with
    hempty | ⟨init, last, hlast⟩
  · -- no contributor
    rw [hempty] at hone
    exact absurd hone (by decide)
  · -- nothing raised
    have hmem : last ∈ told Event.contributionOf asset.id w.events :=
      hlast ▸ List.mem_append_right _ (List.mem_singleton_self _)
    obtain ⟨e, he, htold⟩ := mem_told.mp hmem
    have hpos : 0 < last.2 := hr.reachable.raised_pos he htold
    rw [hlast, List.getLast?_concat, Option.elim_some] at hnone
    have hzero := (div_eq_zero_iff.mp hnone.symm).resolve_right (by norm_num [Explorer.micro])
    exact hpos.ne' (Nat.cast_eq_zero.mp hzero)

end Indexer

namespace Sample

/-- The raise of asset 4 gets all it asks for. -/
def contributed : List Entry :=
  Entry.ofActions 1000 (vouched 1000000 100000 ++
    [.transaction 3 [.asset (.contributeCapital 4 1000000)]])

/-- The record of this run is read to its end. -/
theorem contributed_read : ∃ (w : World) (h : List SuiEvent) (s : Snapshot) (asset : Asset),
    w.Recorded h ∧ Complete h cycle ∧ s.typed = typedTables h cycle ∧
    w.assets.get? asset.id = some asset ∧
    told Event.contributionOf asset.id w.events = [(3, 1000000)] := by
  have hrun : returns (World.record contributed) (fun s =>
      complete s.2 cycle && (typedTables s.2 cycle).rows.length < 2 ^ 63 &&
        (s.1.assets.get? 4).any fun asset => asset.id = 4 ∧
          told Event.contributionOf 4 s.1.events = [(3, 1000000)]) = true := by
    decide +kernel
  obtain ⟨s, hs, hq⟩ := returns_iff.mp hrun
  simp only [Bool.and_eq_true, decide_eq_true_eq, Option.any_eq_true] at hq
  obtain ⟨⟨hc, hsmall⟩, asset, hasset, hid, htold⟩ := hq
  rw [← hid] at hasset htold
  exact ⟨s.1, s.2, .numbered (.of_record hs) (fun _ hx => mem_of_received hx) hsmall, asset,
    .of_record hs, complete_of_check hc, rfl, hasset, htold⟩

end Sample

/-- The page shows nothing of a raise of one USDC. -/
theorem raise_never_shown_contributed : ∃ (w : World) (asset : Asset) (shown : Explorer.Asset),
    told Event.contributionOf asset.id w.events = [(3, 1000000)] ∧ shown.raised = 0 ∧
    ¬ shown.ShowsCurrent w asset := by
  obtain ⟨w, h, s, asset, hr, hc, hs, hasset, htold⟩ := Sample.contributed_read
  obtain ⟨shown, -, hraised, -, hstale⟩ :=
    raise_never_shown hr hc hs hasset ⟨none, none, none, none, none⟩
  exact ⟨w, asset, shown, htold, hraised, hstale⟩

/-- Everything is ingested and every request succeeds, and a raise of one USDC is shown as 0. -/
theorem contribution_hidden : ∃ (w : World) (h : List SuiEvent) (s : Snapshot) (asset : Asset)
    (b : AccumulatorBalances) (shown : Explorer.Asset), w.Recorded h ∧ Complete h Sample.cycle ∧
    s.typed = typedTables h Sample.cycle ∧ w.assets.get? asset.id = some asset ∧
    CurrentAccumulatorBalances s.typed asset.id b ∧
    told Event.contributionOf asset.id w.events = [(3, 1000000)] ∧
    Explorer.getAsset (Explorer.assetResponses s b asset.id) = some shown ∧ shown.raised = 0 ∧
    ¬ shown.ShowsCurrent w asset := by
  obtain ⟨w, h, s, asset, hr, hc, hs, hasset, htold⟩ := Sample.contributed_read
  obtain ⟨b, hb⟩ := exists_balances s.typed asset.id
  obtain ⟨shown, hshown, hraised, -⟩ := shown_raise hr hc hs hasset b
  refine ⟨w, h, s, asset, b, shown, hr, hc, hs, hasset, hb, htold, hshown, hraised, ?_⟩
  intro hcurrent
  have hone := hcurrent.raised
  rw [hraised, htold] at hone
  norm_num [Explorer.micro] at hone

end Gally

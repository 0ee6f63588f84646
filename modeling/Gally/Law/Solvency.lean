import Gally.Law.Holders
import Gally.Law.Shown

/-!
# Displayed solvency

The index of an accumulator only grows, so no point of its curve is above it (`index_told_le`). The
explorer divides the index by the scale and by the units of one USDC, and then the shares by the
units of one share. So what it shows as owed is a millionth of the payouts, rounded for each holder:
nothing, as long as nobody has earned half a million USDC (`solvency_iff`).
-/

namespace Gally

open Checked Relational Indexer Feed

/-! ## The index in the log -/

/-- The asset and the index after a point of its curve. -/
def Event.indexOf : Event → Option (ID × ℕ)
  | .revenueDeposited a _ _ _ _ index _ _ _ => some (a, index)
  | .rolloverSwept a _ index _ _ _ => some (a, index)
  | .compensationSwept a _ index _ _ _ _ _ _ => some (a, index)
  | _ => none

/-- Three kinds of event tell an index. -/
theorem kind_of_indexOf {e : Event} (h : e.indexOf.isSome) :
    e.kind = .revenueDeposited ∨ e.kind = .rolloverSwept ∨ e.kind = .compensationSwept := by
  cases e <;> first
    | exact Or.inl rfl
    | exact Or.inr (Or.inl rfl)
    | exact Or.inr (Or.inr rfl)
    | cases h

/-- An event that tells an index is about an accumulator. -/
theorem accumulatorOf_indexOf (e : Event) (a : ID) (index : ℕ) (h : e.indexOf = some (a, index)) :
    e.accumulatorOf = some a := by
  cases e <;> cases h <;> rfl

/-- Only these events change the index of a view. -/
theorem index_edit (e : Event) (v : AccumulatorView) : (e.edit v).cumulativeYieldIndex =
    (e.indexOf.map Prod.snd).getD v.cumulativeYieldIndex := by
  cases e <;> rfl

namespace World

variable {w w' : World} {sender : Address}

/-- A call adds at most one point to the curves. -/
theorem index_call {c : Call} (h : w.call sender c = .ok w') : ∃ es, w'.events = w.events ++ es ∧
    (es.filterMap Event.indexOf).length ≤ 1 := by
  obtain ⟨es, hevents, hkinds⟩ := World.emits h
  refine ⟨es, hevents, ?_⟩
  -- a call with none of these kinds tells no index
  have hnone : (∀ k ∈ c.kinds, k ≠ .revenueDeposited ∧ k ≠ .rolloverSwept ∧
      k ≠ .compensationSwept) → (es.filterMap Event.indexOf).length ≤ 1 := by
    intro hc
    rw [List.filterMap_eq_nil_iff.mpr]
    · exact Nat.zero_le _
    · intro e he
      by_contra hsome
      obtain ⟨h₁, h₂, h₃⟩ := hc _ (hkinds e he)
      rcases kind_of_indexOf (Option.isSome_iff_ne_none.mpr hsome) with hk | hk | hk
      · exact h₁ hk
      · exact h₂ hk
      · exact h₃ hk
  -- the four calls that may tell one tell it once
  cases c with
  | asset c =>
    cases c
    case depositRevenue =>
      cases World.callAsset_eq_ok.mp h with
      | depositRevenue _ _ _ _ _ run =>
        obtain ⟨-, _, -, ⟨⟩⟩ := depositRevenue_eq_ok.mp run
        obtain rfl := List.append_cancel_left hevents
        exact Nat.le_refl _
    all_goals exact hnone (by simp [Call.kinds, AssetCall.kinds])
  | accumulator c =>
    cases c
    case sweepRollover =>
      cases World.callAccumulator_eq_ok.mp h with
      | sweepRollover _ _ _ run =>
        obtain ⟨-, -, heq⟩ := sweepRollover_eq_ok.mp run
        obtain ⟨-, rfl⟩ := Prod.mk.inj heq
        obtain rfl := List.append_cancel_left hevents
        exact Nat.le_refl _
    case sweepCompensation =>
      cases World.callAccumulator_eq_ok.mp h with
      | sweepCompensation _ _ _ _ run =>
        obtain ⟨-, -, -, -, rfl⟩ := sweepCompensation_eq_ok.mp run
        obtain rfl := List.append_cancel_left hevents
        exact Nat.le_refl _
    case unwrapCoins =>
      cases World.callAccumulator_eq_ok.mp h with
      | unwrapCoins _ _ _ _ _ _ run =>
        obtain ⟨-, -, swept, hswept, rfl⟩ := unwrapCoins_eq_ok.mp run
        obtain rfl := List.append_cancel_left hevents
        rcases hswept with ⟨-, hswept⟩ | ⟨-, -, rfl⟩
        · obtain ⟨-, -, rfl⟩ := sweepRolloverInternal_eq_ok.mp hswept
          exact Nat.le_refl _
        · exact Nat.zero_le _
    all_goals exact hnone (by simp [Call.kinds, AccumulatorCall.kinds])
  | protocol c => cases c <;> exact hnone (by simp [Call.kinds, ProtocolCall.kinds])
  | validator c => cases c <;> exact hnone (by simp [Call.kinds, ValidatorCall.kinds])
  | dispute c => cases c <;> exact hnone (by simp [Call.kinds, DisputeCall.kinds])
  | framework c => exact hnone (by simp [Call.kinds])

end World

/-- What is told of an accumulator is told of one that exists. -/
theorem accumulator_of_told {w : World} (hw : Reachable w) {e : Event} (he : e ∈ w.events) {a : ID}
    (ha : e.accumulatorOf = some a) :
    ∃ g acc, w.accumulators.get? g = some acc ∧ acc.assetId = a := by
  have hfinal : (Ledger.replay w.events).Finalized a := by
    by_contra hnot
    exact untold hw (List.append_nil _).symm hnot e he ha
  rw [hw.replayed] at hfinal
  obtain ⟨g, hg⟩ := Option.isSome_iff_exists.mp hfinal
  obtain ⟨view, hview, hid⟩ := Option.bind_eq_some_iff.mp hg
  obtain ⟨asset, hasset, rfl⟩ := Option.map_eq_some_iff.mp hview
  obtain ⟨acc, hacc, ha'⟩ := hw.linked.acc hasset hid
  exact ⟨g, acc, hacc, ha'⟩

/-- What is told of an ID is among all that is told. -/
theorem told_eq_filterMap {β : Type} (of : Event → Option (ID × β)) (k : ID) (es : List Event) :
    told of k es = (es.filterMap of).filterMap fun (j, v) => if j = k then some v else none :=
  (List.filterMap_filterMap ..).symm

/-- The index of every accumulator is at least every index told of it. -/
def World.IndexTold (w : World) : Prop :=
  ∀ g acc, w.accumulators.get? g = some acc →
    ∀ index ∈ told Event.indexOf acc.assetId w.events, index ≤ acc.cumulativeYieldIndex

/-- One call keeps the told indices below the one the accumulator has. -/
theorem World.IndexTold.call {w w' : World} (hw : Reachable w) (ht : w.IndexTold)
    {sender : Address} {c : Call} (h : w.call sender c = .ok w') : w'.IndexTold := by
  intro g acc' hacc' index hindex
  have hw' : Reachable w' := hw.call h
  obtain ⟨es, hevents, hone⟩ := World.index_call h
  obtain ⟨n, hview⟩ := view_told hw' hacc'
  have hlast := field_viewOf (f := AccumulatorView.cumulativeYieldIndex) accumulatorOf_indexOf
    index_edit acc'.assetId (newView n) w'.events
  rw [← hview] at hlast
  change acc'.cumulativeYieldIndex = _ at hlast
  rw [hevents, told_append] at hindex hlast
  -- an index told before the call, or by it
  rcases List.mem_append.mp hindex with hold | hnew
  · -- told before the call, of an accumulator that was there
    obtain ⟨e, he, hof⟩ := mem_told.mp hold
    obtain ⟨g₀, acc, hacc, hid⟩ := accumulator_of_told hw he (accumulatorOf_indexOf e _ _ hof)
    obtain ⟨x, hx, htouch⟩ := World.call_touchAcc hw.fresh h g₀ acc hacc
    obtain ⟨asset, hasset, hg⟩ := hw'.linked.asset hacc'
    obtain ⟨asset', hasset', hg'⟩ := hw'.linked.asset hx
    rw [htouch.assetId, hid, hasset] at hasset'
    obtain rfl := Option.some.inj hasset'
    obtain rfl : g = g₀ := Option.some.inj (hg.symm.trans hg')
    obtain rfl := Option.some.inj (hx.symm.trans hacc')
    exact (ht g acc hacc index (hid ▸ hold)).trans htouch.index_le
  · -- the one point that the call adds is where the index is
    have hsub : told Event.indexOf acc'.assetId es = [index] := by
      have hle : (told Event.indexOf acc'.assetId es).length ≤ 1 := by
        rw [told_eq_filterMap]
        exact (List.length_filterMap_le ..).trans hone
      obtain ⟨_, hsingle⟩ := List.length_eq_one_iff.mp
        (Nat.le_antisymm hle (List.length_pos_of_mem hnew))
      rw [hsingle] at hnew ⊢
      rw [List.mem_singleton.mp hnew]
    rw [hsub, List.getLast?_concat, Option.getD_some] at hlast
    exact Nat.le_of_eq hlast.symm

/-- In every reachable world no told index is above the one of its accumulator. -/
theorem Reachable.indexTold {w : World} (hw : Reachable w) : w.IndexTold :=
  hw.induct (fun _ _ _ hacc => nomatch hacc) (fun hw ht h => ht.call hw h) fun _ ht _ => ht

/-! ## What is owed -/

namespace World

/-- The index of an asset. -/
def indexOf (w : World) (asset : Asset) : ℕ :=
  (w.accOf asset).elim 0 GlobalYieldAccumulator.cumulativeYieldIndex

/-- The pool its yield is paid from. -/
def rewardPoolOf (w : World) (asset : Asset) : ℕ :=
  (w.accOf asset).elim 0 GlobalYieldAccumulator.rewardPool

/-- The sum of `pending_payout` over the deeds of an asset. -/
def pendingPayouts (w : World) (asset : Asset) : ℕ := (w.accOf asset).elim 0 fun acc =>
  (w.shares.group GallyShare.assetId asset.id).sum fun share =>
    (pendingPayout acc share).toOption.getD 0

end World

variable {w : World} {asset : Asset}

/-- The accumulator of an asset. -/
theorem Reachable.accOf_cases (hw : Reachable w) (hasset : w.assets.get? asset.id = some asset) :
    w.accOf asset = none ∨ ∃ g acc, w.accOf asset = some acc ∧
      w.accumulators.get? g = some acc ∧ acc.assetId = asset.id := by
  cases hg : asset.accumulatorId with
  | none =>
    left
    unfold World.accOf
    rw [hg, Option.bind_none]
  | some g =>
    obtain ⟨acc, hacc, hid⟩ := hw.linked.acc hasset hg
    exact Or.inr ⟨g, acc, World.accOf_eq hg hacc, hacc, hid⟩

/-- The pool covers what the deeds may claim. -/
theorem Reachable.pendingPayouts_le (hw : Reachable w)
    (hasset : w.assets.get? asset.id = some asset) :
    w.pendingPayouts asset ≤ w.rewardPoolOf asset := by
  unfold World.pendingPayouts World.rewardPoolOf
  rcases hw.accOf_cases hasset with hnone | ⟨g, acc, hacc, hget, hid⟩
  · rw [hnone]
    exact Nat.le_refl _
  · have hpays := (hw.replay hget).pays
    rw [hacc, Option.elim_some, Option.elim_some, ← hid]
    refine le_trans (Nat.le_of_eq ?_) hpays.payouts
    refine Store.sum_congr fun share hshare => ?_
    rw [show pendingPayout acc share = _ from hpays.pending share hshare]
    rfl

/-- No point of the curve of an asset is above its index. -/
theorem Reachable.index_told_le (hw : Reachable w) (hasset : w.assets.get? asset.id = some asset)
    {e : Event} (he : e ∈ w.events) {index : ℕ} (hof : e.indexOf = some (asset.id, index)) :
    index ≤ w.indexOf asset := by
  obtain ⟨g, acc, hacc, hid⟩ := accumulator_of_told hw he (accumulatorOf_indexOf e _ _ hof)
  obtain ⟨asset', hasset', hg⟩ := hw.linked.asset hacc
  rw [hid, hasset] at hasset'
  obtain rfl := Option.some.inj hasset'
  unfold World.indexOf
  rw [World.accOf_eq hg hacc, Option.elim_some]
  exact hw.indexTold g acc hacc index (hid ▸ mem_told.mpr ⟨e, he, hof⟩)

/-! ## What is shown -/

namespace Explorer

/-- No index is shown negative. -/
theorem indexHuman_nonneg (s : Option String) : 0 ≤ indexHuman s := by
  unfold indexHuman
  split
  · exact le_rfl
  · positivity

/-- Less than half a unit is rounded away. -/
theorem max_round_eq_zero {x : ℚ} (hx : x < 1 / 2) : max 0 (round x) = 0 := by
  have hround : round x < 1 := by
    unfold round
    rw [Int.floor_lt, Int.cast_one]
    linarith
  omega

/-- Nothing is shown as owed where every holder is owed less than half a unit. -/
theorem getSolvency_owed {asset : Option Asset} {envelope : Option HoldersEnvelope} {index : ℚ}
    (hindex : (asset.bind Asset.accumulator).elim 0 Accumulator.cumulativeIndex ≤ index)
    (hrows : ∀ x ∈ (getHolders envelope).entries, 0 ≤ x.yieldClaimedIndex ∧ 0 ≤ x.shareCount ∧
      index * x.shareCount < 1 / 2) : (getSolvency asset envelope).owed = 0 := by
  unfold getSolvency
  dsimp only
  split
  · rfl
  · rw [List.sum_eq_zero, Int.cast_zero]
    intro v hv
    obtain ⟨x, hx, rfl⟩ := List.mem_map.mp hv
    obtain ⟨hclaimed, hshares, hsmall⟩ := hrows x hx
    apply max_round_eq_zero
    refine lt_of_le_of_lt ?_ hsmall
    gcongr
    linarith

/-- The shown solvency is right: up to one unit for each holder it shows what the deeds may claim,
    and it is healthy exactly if the pool covers that. -/
structure Solvency.Sound (shown : Solvency) (pendingPayouts rewardPool holders : ℕ) : Prop where
  owed : |shown.owed - (pendingPayouts : ℚ) / micro| ≤ holders
  healthy : shown.healthy = true ↔ pendingPayouts ≤ rewardPool

end Explorer

namespace Indexer

variable {h : List SuiEvent} {ps : List (Poll Module)} {s : Snapshot}

/-- A row of the curve is a point of it. -/
theorem index_of_insert {ev : SuiEvent} {r : YieldIndexRow}
    (hins : .insert (.yieldIndex r) ∈ routeEvent ev) :
    ev.event.indexOf = some (r.assetId, r.indexAfter) := by
  obtain ⟨id, timestampMs, e⟩ := ev
  cases e <;> simp [routeEvent] at hins
  all_goals
    subst hins
    rfl

/-- A row that shows as a point of the yield curve is one. -/
theorem yieldIndex_of_some {row : Row} {r : YieldIndexRow} (hof : row.yieldIndex? = some r) :
    row = .yieldIndex r := by
  cases row <;> cases hof
  rfl

/-- No point shown is above the index. -/
theorem yieldCurve_le (hr : w.Recorded h) (hc : Complete h ps) (hs : s.typed = typedTables h ps)
    (hasset : w.assets.get? asset.id = some asset) {page : List JsonObject} {p : JsonObject}
    (hpage : Explorer.getList (listYieldIndex asset.id) (fun r => r.row.json) s (some 200) =
      some page) (hp : p ∈ page) :
    Explorer.indexHuman (p.string? "index_after") ≤
      (w.indexOf asset : ℚ) / Explorer.indexScale / Explorer.micro := by
  rw [Explorer.getList_eq] at hpage
  obtain ⟨rows, hrows, rfl⟩ := Option.map_eq_some_iff.mp hpage
  obtain ⟨x, hx, rfl⟩ := List.mem_map.mp hp
  -- a point of the page is a row of the table, and that comes of an event
  have hmem := Keyset.mem_page hx
  obtain rfl := Option.some.inj hrows
  obtain ⟨hserial, ha⟩ := List.mem_filter.mp hmem
  obtain ⟨row, hrow, hof, -⟩ := mem_serials.mp hserial
  obtain rfl := yieldIndex_of_some hof
  obtain ⟨ev, hev, hins⟩ := (mem_rows_iff hr (fun _ hx => mem_of_received hx) hc.ingested rfl).mp
    (hs ▸ hrow)
  have hof := index_of_insert hins
  rw [of_decide_eq_true ha] at hof
  have hle := hr.reachable.index_told_le hasset
    (hr.events ▸ List.mem_map_of_mem hev : ev.event ∈ w.events) hof
  have hshown : Explorer.indexHuman (x.row.json.string? "index_after") =
      (x.row.indexAfter : ℚ) / Explorer.indexScale / Explorer.micro :=
    Explorer.indexHuman_ofNat x.row.indexAfter
  rw [hshown]
  have hcast : (x.row.indexAfter : ℚ) ≤ (w.indexOf asset : ℚ) := Nat.cast_le.mpr hle
  gcongr

/-- The holders shown are those of the ledger. -/
theorem mem_shownHolders {a : ID} {rows : List HolderFoldRow}
    (hrows : holders s.typed a = some rows) {x : Explorer.HolderEntry}
    (hx : x ∈ (Explorer.getHolders (Explorer.holdersEnvelope s a)).entries) :
    ∃ r ∈ rows, x = Explorer.mapHolder r.json := by
  obtain ⟨o, ho, rfl⟩ := List.mem_map.mp hx
  cases henvelope : Explorer.holdersEnvelope s a with
  | none =>
    rw [henvelope] at ho
    cases ho
  | some env =>
    rw [henvelope, Option.elim_some] at ho
    unfold Explorer.holdersEnvelope at henvelope
    obtain ⟨row, -, henvelope⟩ := Option.bind_eq_some_iff.mp henvelope
    obtain ⟨page, hpage, heq⟩ := Option.bind_eq_some_iff.mp henvelope
    obtain rfl := Option.some.inj heq
    obtain ⟨rows', hrows', rfl⟩ := Option.map_eq_some_iff.mp
      ((Explorer.getList_eq (holdersList a) _ s _).symm.trans hpage)
    obtain ⟨r, hr, rfl⟩ := List.mem_map.mp ho
    -- the holders are served for an asset that is known
    have hrows' : (if (s.typed.get? (.asset a)).isSome then holders s.typed a else none) =
        some rows' := hrows'
    obtain ⟨-, hholders⟩ := Option.ite_none_right_eq_some.mp hrows'
    obtain rfl := Option.some.inj (hrows.symm.trans hholders)
    exact ⟨r, Keyset.mem_page hr, rfl⟩

/-- A pool that fits its column is not shown as a debt. -/
theorem rewardPool_nonneg (hr : w.Recorded h) (hc : Complete h ps) (hs : s.typed = typedTables h ps)
    {a : ID} (hpools : ∀ e ∈ w.events, ∀ n, (e.told a).rewardPool = some n → n < 2 ^ 63)
    {b : AccumulatorBalances} (hb : CurrentAccumulatorBalances s.typed a b) :
    0 ≤ b.rewardPool.getD 0 := by
  have hlatest := hb.rewardPool
  rw [hs] at hlatest
  rcases (rewardPoolColumn.latest_iff hr (fun _ hx => mem_of_received hx) hc.ingested).mp hlatest
    with ⟨hnone, -⟩ | ⟨ev, hgreatest, hv⟩
  · rw [hnone]
    exact le_rfl
  · rw [hv]
    have hev : ev.event ∈ w.events := hr.events ▸
      List.mem_map_of_mem (List.mem_filter.mp hgreatest.1).1
    cases htold : rewardPoolColumn.told (ev.event.told a) with
    -- the balance shown is the greatest report, which fits 64 bits
    | none => exact le_rfl
    | some n =>
      have hfits : asI64 n = n := asI64_eq_iff.mpr (hpools _ hev n htold)
      have hstore : rewardPoolColumn.store = asI64 := by
        unfold rewardPoolColumn amountColumn
        dsimp only
      rw [Option.map_some, Option.getD_some, hstore, hfits]
      exact Int.natCast_nonneg n

open Explorer in
/-- Nothing is shown as owed where nobody's deeds have earned half a million USDC. -/
theorem shown_owed (hserved : Served w h (Reader.polls eventModule h ps).received)
    (hc : Complete h ps) (hs : s.typed = typedTables h ps)
    (hasset : w.assets.get? asset.id = some asset) {b : AccumulatorBalances}
    {shown : Explorer.Asset} {base : WireAsset}
    (hshows : (assetResponses s b asset.id).Shows base shown) {rows : List HolderFoldRow}
    (hrows : holders s.typed asset.id = some rows) (hledger : w.HolderLedger asset.id rows)
    (hsmall : ∀ x, w.indexOf asset * w.deedsOf asset.id x < 5 * 10 ^ 20) :
    (getSolvency (some shown) (holdersEnvelope s asset.id)).owed = 0 := by
  have hr := hserved.recorded
  -- the index is not above the one on chain
  have hindex : ((some shown).bind Asset.accumulator).elim 0 Accumulator.cumulativeIndex ≤
      (w.indexOf asset : ℚ) / indexScale / micro := by
    have hnonneg : 0 ≤ (w.indexOf asset : ℚ) / indexScale / micro := by positivity
    rw [Option.bind_some]
    cases hacc : shown.accumulator with
    | none => exact hnonneg
    | some acc =>
      rw [Option.elim_some, hshows.index acc hacc]
      cases hlast : (((assetResponses s b asset.id).yieldCurve.getD []).filter fun p =>
          (p.string? "index_after").isSome).getLast? with
      | none => exact hnonneg
      | some p =>
        have hp := (List.mem_filter.mp (List.mem_of_getLast? hlast)).1
        rw [Option.elim_some]
        cases hpage : (assetResponses s b asset.id).yieldCurve with
        | none =>
          rw [hpage] at hp
          cases hp
        | some page =>
          rw [hpage, Option.getD_some] at hp
          exact yieldCurve_le hr hc hs hasset hpage hp
  refine getSolvency_owed hindex fun x hx => ?_
  obtain ⟨q, hq, rfl⟩ := mem_shownHolders hrows hx
  have hshares : (mapHolder q.json).shareCount = (w.deedsOf asset.id q.address : ℚ) / micro := by
    have hcount : (mapHolder q.json).shareCount = (q.shareCount : ℚ) / micro :=
      usdc_ofInt q.shareCount
    rw [hcount, hledger.shareCount q hq, Int.cast_natCast]
  refine ⟨indexHuman_nonneg _, ?_, ?_⟩
  · rw [hshares]
    positivity
  · have hcast : (w.indexOf asset : ℚ) * w.deedsOf asset.id q.address < 5 * 10 ^ 20 := by
      exact_mod_cast hsmall q.address
    rw [hshares]
    unfold indexScale micro
    push_cast
    linarith

end Indexer

open Explorer in
/-- In a run without transfers, with everything ingested, the shown solvency of an asset of which
    nobody's deeds have earned half a million USDC is right exactly if all that the deeds may claim
    is at most one USDC for each holder. -/
theorem solvency_iff {admin : Address} {actions : List Action} {h : List SuiEvent}
    {ps : List (Poll Module)} {s : Snapshot} {b : AccumulatorBalances}
    (hrun : (World.genesis admin).run actions = .ok w)
    (hstay : ∀ action ∈ actions, action.Obeys .staying)
    (hgoals : ∀ asset ∈ w.assets, asset.fundingGoal < 2 ^ 63) (hr : w.Recorded h)
    (hc : Complete h ps) (hs : s.typed = typedTables h ps)
    (hasset : w.assets.get? asset.id = some asset)
    (hb : CurrentAccumulatorBalances s.typed asset.id b)
    (hpools : ∀ e ∈ w.events, ∀ n, (e.told asset.id).rewardPool = some n → n < 2 ^ 63)
    (hsmall : ∀ x, w.indexOf asset * w.deedsOf asset.id x < 5 * 10 ^ 20) :
    ∃ rows, holders s.typed asset.id = some rows ∧ w.HolderLedger asset.id rows ∧
      ((getSolvency (getAsset (assetResponses s b asset.id)) (holdersEnvelope s asset.id)).Sound
        (w.pendingPayouts asset) (w.rewardPoolOf asset) rows.length ↔
      w.pendingPayouts asset ≤ micro * rows.length) := by
  have hserved : Served w h (Reader.polls eventModule h ps).received :=
    ⟨⟨admin, actions, hrun⟩, holdings_told hrun hstay, hgoals, hr,
      fun _ hx => mem_of_received hx, hc.ingested⟩
  -- the holders that are served and the page of the asset
  obtain ⟨rows, hrows, hledger⟩ := holders_served hserved asset.id
  have hrows : holders s.typed asset.id = some rows := hs ▸ hrows
  obtain ⟨shown, r, hshown, hshows, -⟩ := asset_shown hr hc hs hasset b
  refine ⟨rows, hrows, hledger, ?_⟩
  rw [hshown]
  have howed := shown_owed hserved hc hs hasset hshows hrows hledger hsmall
  -- the pool is shown as the column has it, which is not negative
  have hpool : 0 ≤ (getSolvency (some shown) (holdersEnvelope s asset.id)).rewardPool := by
    unfold getSolvency
    dsimp only
    rw [Option.bind_some]
    cases hacc : shown.accumulator with
    | none => exact le_rfl
    | some acc =>
      have hserved : acc.rewardPool = ((b.rewardPool.getD 0 : ℤ) : ℚ) / micro := by
        rw [← usdc_map]
        refine (hshows.rewardPool acc hacc).trans (congrArg usdc ?_)
        show Option.bind (Option.map Json.amount b.rewardPool) _ = _
        cases b.rewardPool <;> rfl
      have hnonneg : (0 : ℚ) ≤ ((b.rewardPool.getD 0 : ℤ) : ℚ) := by
        exact_mod_cast rewardPool_nonneg hr hc hs hpools hb
      rw [Option.elim_some, hserved]
      positivity
  have hcovered : w.pendingPayouts asset ≤ w.rewardPoolOf asset :=
    Reachable.pendingPayouts_le ⟨admin, actions, hrun⟩ hasset
  -- the owed amount is shown as zero, so the page finds the pool healthy
  have hhealthy : (getSolvency (some shown) (holdersEnvelope s asset.id)).healthy = true := by
    have heq : (getSolvency (some shown) (holdersEnvelope s asset.id)).healthy =
        decide ((getSolvency (some shown) (holdersEnvelope s asset.id)).owed ≤
          (getSolvency (some shown) (holdersEnvelope s asset.id)).rewardPool) := rfl
    rw [heq, howed]
    exact decide_eq_true hpool
  -- a millionth for each holder is how far the shown amount may be off
  have hunits : (w.pendingPayouts asset : ℚ) / micro ≤ rows.length ↔
      w.pendingPayouts asset ≤ micro * rows.length := by
    rw [div_le_iff₀ (by norm_num [micro]), mul_comm]
    exact_mod_cast Iff.rfl
  have habs : |(0 : ℚ) - (w.pendingPayouts asset : ℚ) / micro| =
      (w.pendingPayouts asset : ℚ) / micro := by
    rw [zero_sub, abs_neg]
    exact abs_of_nonneg (by positivity)
  rw [← hunits, ← habs, ← howed]
  constructor
  · intro hsound
    exact hsound.owed
  · intro howedLe
    exact ⟨howedLe, iff_of_true hhealthy hcovered⟩

/-- Nobody's deeds exceed the goal. -/
theorem deedsOf_le (hw : Reachable w) (hasset : w.assets.get? asset.id = some asset) (x : Address) :
    w.deedsOf asset.id x ≤ asset.fundingGoal := by
  by_cases hpos : 0 < w.holdingOf asset.id x
  · obtain ⟨asset', hasset', hle⟩ := World.holdingOf_le hw hpos
    obtain rfl := Option.some.inj (hasset.symm.trans hasset')
    exact (Nat.le_add_right _ _).trans hle
  · unfold World.holdingOf at hpos
    omega

namespace Sample

/-- The investor holds deed 9 and the entity deposits revenue. -/
def earningOf (revenue : U64) : List Action :=
  operational 1000000 100000 ++
  [.transaction 3 [.asset (.claimShares 4 8 6)],
   .transaction 2 [.asset (.depositRevenue 4 8 revenue)]]

/-- No call of the runs below moves a deed or a coin away from its holder. -/
theorem staying_earningOf : ∀ revenue, ∀ action ∈ earningOf revenue, action.Obeys .staying := by
  intro _
  simp [earningOf, operational, approved, executing, vouched, Action.Obeys, CallRule.staying,
    Call.StaysWith]

/-- The log is ingested in one cycle, deed 9 may claim `payouts`, and all numbers fit. -/
structure Earned (payouts : ℕ) (w : World) (h : List SuiEvent) (asset : Asset) : Prop where
  complete : Complete h cycle
  goals : ∀ asset ∈ w.assets, asset.fundingGoal < 2 ^ 63
  listed : w.assets.get? asset.id = some asset
  payouts : w.pendingPayouts asset = payouts
  rewardPools : ∀ e ∈ w.events, ∀ n, (e.told asset.id).rewardPool = some n → n < 2 ^ 63
  earnings : w.indexOf asset * asset.fundingGoal < 5 * 10 ^ 20
  deed : 0 < w.deedsOf asset.id 3

/-- The conditions, as a check of a world and its log. -/
def earned (payouts : ℕ) (s : World × List SuiEvent) : Bool :=
  Sample.complete s.2 cycle && s.1.assets.entries.all (fun asset => asset.fundingGoal < 2 ^ 63) &&
  (s.1.assets.get? 4).any fun asset => asset.id = 4 ∧ s.1.pendingPayouts asset = payouts ∧
    s.1.indexOf asset * asset.fundingGoal < 5 * 10 ^ 20 ∧ 0 < s.1.deedsOf asset.id 3 ∧
    s.1.events.all fun e => (e.told asset.id).rewardPool.all fun n => n < 2 ^ 63

/-- What the check evaluates. -/
theorem earned_of_check {payouts : ℕ} {s : World × List SuiEvent} (h : earned payouts s = true) :
    ∃ asset, Earned payouts s.1 s.2 asset := by
  simp only [earned, Bool.and_eq_true, List.all_eq_true, Option.any_eq_true, decide_eq_true_eq]
    at h
  obtain ⟨⟨hcomplete, hgoals⟩, asset, hasset, hid, hpayouts, hearnings, hdeed, hpools⟩ := h
  refine ⟨asset, complete_of_check hcomplete, hgoals, hid ▸ hasset, hpayouts, ?_, hearnings, hdeed⟩
  intro e he n htold
  have hall := hpools e he
  rw [htold] at hall
  exact of_decide_eq_true hall

end Sample

open Sample Explorer in
/-- Deed 9 may claim 49 raw units, and the only holder is shown as owed nothing. -/
theorem solvency_iff_earning : ∃ (w : World) (h : List SuiEvent) (s : Snapshot) (asset : Asset)
    (b : AccumulatorBalances) (n : ℕ), w.Recorded h ∧ s.typed = typedTables h cycle ∧
    w.pendingPayouts asset = 49 ∧
    (getSolvency (getAsset (assetResponses s b asset.id)) (holdersEnvelope s asset.id)).Sound 49
      (w.rewardPoolOf asset) n := by
  have hrun : returns (World.record (Entry.ofActions 1000 (earningOf 100))) (fun s =>
      earned 49 s && decide ((typedTables s.2 cycle).rows.length < 2 ^ 63)) = true := by
    decide +kernel
  -- 49 units are pending, for at least one holder
  obtain ⟨s, hs, hq⟩ := returns_iff.mp hrun
  obtain ⟨hearned, hlength⟩ := Bool.and_eq_true_iff.mp hq
  obtain ⟨asset, hearned⟩ := earned_of_check hearned
  have hactions := World.run_of_record hs
  rw [Entry.action_ofActions] at hactions
  have hr : s.1.Recorded s.2 := .of_record hs
  let t : Snapshot := .numbered hr (fun _ hx => mem_of_received hx) (of_decide_eq_true hlength)
  obtain ⟨b, hb⟩ := exists_balances t.typed asset.id
  have hsmall := fun x => lt_of_le_of_lt
    (Nat.mul_le_mul_left (s.1.indexOf asset) (deedsOf_le hr.reachable hearned.listed x))
    hearned.earnings
  obtain ⟨rows, -, hledger, hsound⟩ := solvency_iff hactions (staying_earningOf 100) hearned.goals
    hr hearned.complete (s := t) rfl hearned.listed hb hearned.rewardPools hsmall
  rw [hearned.payouts] at hsound
  have hlisted : 3 ∈ rows.map HolderFoldRow.address :=
    (hledger.listed 3).mpr (Nat.add_pos_left hearned.deed _)
  obtain ⟨r, hrow, -⟩ := List.mem_map.mp hlisted
  have hpos := List.length_pos_of_mem hrow
  refine ⟨s.1, s.2, t, asset, b, rows.length, hr, rfl, hearned.payouts, hsound.mpr ?_⟩
  unfold micro
  omega

open Sample Explorer in
/-- Deed 9 may claim 4.95 USDC, and its holder is shown as owed nothing. -/
theorem solvency_hidden : ∃ (w : World) (actions : List Action) (h : List SuiEvent)
    (ps : List (Poll Module)) (s : Snapshot) (asset : Asset) (b : AccumulatorBalances)
    (rows : List HolderFoldRow), (World.genesis 0).run actions = .ok w ∧
    (∀ action ∈ actions, action.Obeys .staying) ∧ w.Recorded h ∧ Complete h ps ∧
    s.typed = typedTables h ps ∧ w.assets.get? asset.id = some asset ∧
    CurrentAccumulatorBalances s.typed asset.id b ∧ w.HolderLedger asset.id rows ∧
    rows.length = 1 ∧ w.pendingPayouts asset = 4950000 ∧
    ¬ (getSolvency (getAsset (assetResponses s b asset.id)) (holdersEnvelope s asset.id)).Sound
      (w.pendingPayouts asset) (w.rewardPoolOf asset) rows.length := by
  have hrun : returns (World.record (Entry.ofActions 1000 (earningOf 10000000))) (fun s =>
      earned 4950000 s && decide ((typedTables s.2 cycle).rows.length < 2 ^ 63) &&
        s.1.assets.entries.all fun asset =>
          (holders (typedTables s.2 cycle) asset.id).all (·.length = 1)) = true := by
    decide +kernel
  -- almost five USDC are pending for one holder, and shown as nothing
  obtain ⟨s, hs, hq⟩ := returns_iff.mp hrun
  obtain ⟨hq, hcount⟩ := Bool.and_eq_true_iff.mp hq
  obtain ⟨hearned, hlength⟩ := Bool.and_eq_true_iff.mp hq
  obtain ⟨asset, hearned⟩ := earned_of_check hearned
  have hactions := World.run_of_record hs
  rw [Entry.action_ofActions] at hactions
  have hr : s.1.Recorded s.2 := .of_record hs
  let t : Snapshot := .numbered hr (fun _ hx => mem_of_received hx) (of_decide_eq_true hlength)
  obtain ⟨b, hb⟩ := exists_balances t.typed asset.id
  have hsmall := fun x => lt_of_le_of_lt
    (Nat.mul_le_mul_left (s.1.indexOf asset) (deedsOf_le hr.reachable hearned.listed x))
    hearned.earnings
  have hserved : Served s.1 s.2 (Reader.polls eventModule s.2 cycle).received :=
    ⟨hr.reachable, holdings_told hactions (staying_earningOf _), hearned.goals, hr,
      fun _ hx => mem_of_received hx, hearned.complete.ingested⟩
  obtain ⟨rows, hrows, hledger⟩ := holders_served hserved asset.id
  obtain ⟨shown, r, hshown, hshows, -⟩ :=
    asset_shown hr hearned.complete (s := t) rfl hearned.listed b
  have howed := shown_owed hserved hearned.complete (s := t) rfl hearned.listed hshows hrows
    hledger hsmall
  have hone : rows.length = 1 := by
    have hall := List.all_eq_true.mp hcount asset (Store.mem_of_get? hearned.listed)
    rw [show holders (typedTables s.2 cycle) asset.id = some rows from hrows] at hall
    exact of_decide_eq_true hall
  refine ⟨s.1, _, s.2, cycle, t, asset, b, rows, hactions, staying_earningOf _, hr,
    hearned.complete, rfl, hearned.listed, hb, hledger, hone, hearned.payouts, ?_⟩
  intro hsound
  have hfar := hsound.owed
  rw [hshown, howed, hearned.payouts, hone, zero_sub, abs_neg] at hfar
  norm_num [micro] at hfar

end Gally

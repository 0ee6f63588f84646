import Gally.Indexer.Queries
import Gally.Law.Trial

/-!
# Served accumulator balances

Seven events tell pools of an accumulator, each some of them; the accumulator holds of every pool
what was told last (`pools_told`). The query picks the report with the greatest time and number
within its transaction. That is the last one unless reports of several transactions share a time
(`balances_served_iff`).
-/

namespace Gally

open Checked Relational Indexer

/-! ## What events tell -/

/-- The pools an event tells of. -/
structure Reported where
  rewardPool : Option ℕ := none
  rolloverReserve : Option ℕ := none
  compensationPool : Option ℕ := none
  compensationUnlockMs : Option ℕ := none
  wrappingFrozen : Option Bool := none

/-- The pools of an accumulator. -/
structure Pools where
  rewardPool : ℕ := 0
  rolloverReserve : ℕ := 0
  compensationPool : ℕ := 0
  compensationUnlockMs : ℕ := 0
  wrappingFrozen : Bool := false

def AccumulatorView.pools (v : AccumulatorView) : Pools where
  rewardPool := v.rewardPool
  rolloverReserve := v.rolloverReserve
  compensationPool := v.compensationPool
  compensationUnlockMs := v.compensationUnlockMs
  wrappingFrozen := v.wrappingFrozen

/-- The pools after a report. -/
def Reported.onto (r : Reported) (p : Pools) : Pools where
  rewardPool := r.rewardPool.getD p.rewardPool
  rolloverReserve := r.rolloverReserve.getD p.rolloverReserve
  compensationPool := r.compensationPool.getD p.compensationPool
  compensationUnlockMs := r.compensationUnlockMs.getD p.compensationUnlockMs
  wrappingFrozen := r.wrappingFrozen.getD p.wrappingFrozen

def Event.reported : Event → Reported
  | .rolloverSwept _ _ _ _ rewardPool rolloverReserve =>
    { rewardPool := some rewardPool, rolloverReserve := some rolloverReserve }
  | .yieldClaimed _ _ _ _ rewardPool => { rewardPool := some rewardPool }
  | .compensationSwept _ _ _ _ _ rewardPool rolloverReserve compensationPool wrappingFrozen =>
    { rewardPool := some rewardPool, rolloverReserve := some rolloverReserve,
      compensationPool := some compensationPool, wrappingFrozen := some wrappingFrozen }
  | .dustSwept _ _ rewardPool rolloverReserve =>
    { rewardPool := some rewardPool, rolloverReserve := some rolloverReserve }
  | .entityDefaulted _ _ _ _ compensationPool compensationUnlockMs wrappingFrozen =>
    { compensationPool := some compensationPool,
      compensationUnlockMs := some compensationUnlockMs, wrappingFrozen := some wrappingFrozen }
  | .revenueDeposited _ _ _ _ _ _ _ rewardPool rolloverReserve =>
    { rewardPool := some rewardPool, rolloverReserve := some rolloverReserve }
  | .disputeResolved _ _ _ _ _ _ _ compensationPool compensationUnlockMs wrappingFrozen =>
    { compensationPool := some compensationPool,
      compensationUnlockMs := some compensationUnlockMs, wrappingFrozen := some wrappingFrozen }
  | _ => {}

/-- What an event about an accumulator changes of its view. -/
def Event.edit (e : Event) (v : AccumulatorView) : AccumulatorView :=
  match e with
  | .rolloverSwept _ _ index _ rewardPool rolloverReserve =>
    { v with cumulativeYieldIndex := index, rewardPool, rolloverReserve }
  | .yieldClaimed _ _ _ _ rewardPool => { v with rewardPool }
  | .compensationSwept _ _ index _ _ rewardPool rolloverReserve compensationPool wrappingFrozen =>
    { v with
      cumulativeYieldIndex := index, rewardPool, rolloverReserve, compensationPool
      wrappingFrozen }
  | .sharesWrapped _ _ _ totalWrappedShares => { v with totalWrappedShares }
  | .sharesUnwrapped _ _ _ _ totalWrappedShares => { v with totalWrappedShares }
  | .shareRedeemed _ _ _ totalMintedShares => { v with totalMintedShares }
  | .dustSwept _ _ rewardPool rolloverReserve => { v with rewardPool, rolloverReserve }
  | .entityDefaulted _ _ _ _ compensationPool compensationUnlockMs wrappingFrozen =>
    { v with compensationPool, compensationUnlockMs, wrappingFrozen }
  | .assetClosed _ _ => { v with closed := true }
  | .revenueDeposited _ _ _ investorPortion _ index _ rewardPool rolloverReserve =>
    { v with
      cumulativeYieldIndex := index, rewardPool, rolloverReserve
      lifetimeInvestorRevenue := v.lifetimeInvestorRevenue + investorPortion }
  | .disputeResolved _ _ _ _ _ _ _ compensationPool compensationUnlockMs wrappingFrozen =>
    { v with compensationPool, compensationUnlockMs, wrappingFrozen }
  | _ => v

/-- The view of an accumulator after all events about asset `a`. -/
def viewOf (a : ID) (v : AccumulatorView) (es : List Event) : AccumulatorView :=
  es.foldl (fun v e => if e.accumulatorOf = some a then e.edit v else v) v

/-- The last event edits the view if it is about the asset. -/
theorem viewOf_concat (a : ID) (v : AccumulatorView) (es : List Event) (e : Event) :
    viewOf a v (es ++ [e]) =
      if e.accumulatorOf = some a then e.edit (viewOf a v es) else viewOf a v es := by
  simp [viewOf]

/-- Events about other assets leave a view as it is. -/
theorem viewOf_eq_initial {a : ID} {v : AccumulatorView} {es : List Event}
    (h : ∀ e ∈ es, e.accumulatorOf ≠ some a) : viewOf a v es = v := by
  induction es using List.reverseRecOn with
  | nil => rfl
  | append_singleton es e ih =>
    rw [viewOf_concat, if_neg (h e (by simp))]
    exact ih fun x hx => h x (List.mem_append_left _ hx)

/-- The view of a new accumulator. -/
def newView (totalShares : ℕ) : AccumulatorView := ⟨0, totalShares, 0, 0, 0, 0, 0, false, false, 0⟩

/-- What the event tells of the accumulator of asset `a`. -/
def Event.told (a : ID) (e : Event) : Reported :=
  if e.accumulatorOf = some a then e.reported else {}

/-- The pools after all reports about asset `a`. -/
def poolsOf (a : ID) (es : List Event) : Pools := es.foldl (fun p e => (e.told a).onto p) {}

/-- The last event puts what it tells over the pools. -/
theorem poolsOf_concat (a : ID) (es : List Event) (e : Event) :
    poolsOf a (es ++ [e]) = (e.told a).onto (poolsOf a es) := by
  simp [poolsOf]

theorem told_of_ne {a : ID} {e : Event} (h : e.accumulatorOf ≠ some a) : e.told a = {} := if_neg h

/-- The pools of the view are those that the events told. -/
theorem pools_viewOf (a : ID) (n : ℕ) (es : List Event) :
    (viewOf a (newView n) es).pools = poolsOf a es := by
  induction es using List.reverseRecOn with
  | nil => rfl
  | append_singleton es e ih =>
    rw [viewOf_concat, poolsOf_concat, ← ih]
    by_cases h : e.accumulatorOf = some a
    · rw [if_pos h, Event.told, if_pos h]
      cases e <;> rfl
    · rw [if_neg h, told_of_ne h]
      rfl

/-! ## The ledger holds what was told last -/

namespace Ledger

variable {l : Ledger} {e : Event} {a b g : ID} {v : AccumulatorView}

/-- An edit of an accumulator, read at `g`. -/
theorem accumulators_onAccumulator {f : AccumulatorView → AccumulatorView}
    (hg : l.accumulatorId a = some g) (hinj : ∀ b, l.accumulatorId b = some g → b = a)
    (hv : l.accumulators g = some v) :
    (l.onAccumulator b f).accumulators g = some (if b = a then f v else v) := by
  by_cases hb : b = a
  · subst hb
    rw [onAccumulator, show (l.assets b).bind AssetView.accumulatorId = some g from hg]
    simp [amend, hv]
  · cases hb' : l.accumulatorId b with
    | none =>
      rw [onAccumulator, show (l.assets b).bind AssetView.accumulatorId = none from hb']
      simp [hb, hv]
    | some g' =>
      have hne : g ≠ g' := fun heq => hb (hinj b (heq ▸ hb'))
      rw [onAccumulator, show (l.assets b).bind AssetView.accumulatorId = some g' from hb']
      simp [amend, hb, hv, hne]

/-- What one event does to the accumulator `g` of asset `a`. -/
theorem view_apply (hallows : l.Allows e) (hg : l.accumulatorId a = some g)
    (hinj : ∀ b, (l.apply e).accumulatorId b = some g → b = a) (hv : l.accumulators g = some v) :
    (l.apply e).accumulators g = some (if e.accumulatorOf = some a then e.edit v else v) := by
  -- the finalization makes a new accumulator; the other events edit the one of their asset
  cases e
  case raiseFinalized b g' totalShares =>
    have hne : g ≠ g' := by
      rintro rfl
      have hb := hinj b (by rw [accumulatorId_raiseFinalized hallows, if_pos rfl])
      exact hallows.finalizes b rfl (hb ▸ Option.isSome_iff_exists.mpr ⟨g, hg⟩)
    simp [apply, onAsset, hv, hne, Event.accumulatorOf]
  case rolloverSwept | yieldClaimed | compensationSwept | sharesWrapped | sharesUnwrapped |
      shareRedeemed | dustSwept | entityDefaulted | assetClosed | revenueDeposited |
      disputeResolved =>
    have hinj' : ∀ b, l.accumulatorId b = some g → b = a := fun b hb =>
      hinj b ((accumulatorId_apply hallows rfl b).trans hb)
    refine (accumulators_onAccumulator hg hinj' hv).trans ?_
    simp only [Event.accumulatorOf, Option.some.injEq]
    rfl
  all_goals exact hv

end Ledger

/-! ## Over a whole log -/

section Log

variable {w : World} {a b g n n' : ID} {es rest : List Event}

/-- An accumulator serves one asset. -/
theorem accumulator_unique (hw : Reachable w) (ha : .raiseFinalized a g n ∈ w.events)
    (hb : .raiseFinalized b g n' ∈ w.events) : b = a := by
  have hacc : ∀ {a n}, .raiseFinalized a g n ∈ w.events →
      ∃ acc, w.accumulators.get? g = some acc ∧ acc.assetId = a := by
    intro a n ha
    have hid := (Ledger.accumulatorId_replay hw.lawful).mpr ⟨n, ha⟩
    rw [hw.replayed] at hid
    obtain ⟨view, hview, hg⟩ := Option.bind_eq_some_iff.mp hid
    obtain ⟨asset, hasset, rfl⟩ := Option.map_eq_some_iff.mp hview
    exact hw.linked.acc hasset hg
  obtain ⟨acc, hget, hfirst⟩ := hacc ha
  obtain ⟨acc', hget', hsecond⟩ := hacc hb
  rw [hget] at hget'
  rw [← hfirst, ← hsecond, Option.some.inj hget']

/-- Before its raise is finalized nothing is told of an asset's accumulator. -/
theorem untold (hw : Reachable w) (hes : w.events = es ++ rest)
    (hnot : ¬ (Ledger.replay es).Finalized a) : ∀ e ∈ es, e.accumulatorOf ≠ some a := by
  intro e he heq
  obtain ⟨before, after, rfl⟩ := List.append_of_mem he
  have hsplit : w.events = before ++ e :: (after ++ rest) := by simp [hes]
  obtain ⟨c, hc, hfinal⟩ := (log_ordered hw hsplit).accumulator a heq
  have hlawful := hw.lawful
  rw [hes, Ledger.lawful_append] at hlawful
  exact hnot ((Ledger.finalized_replay hlawful.1).mpr ⟨c, List.mem_append_left _ hc, hfinal⟩)

/-- The ledger of every prefix of the log holds what was told of an accumulator. -/
theorem view_replay (hw : Reachable w) (hes : w.events = es ++ rest)
    -- induction from the end of the log
    (hg : (Ledger.replay es).accumulatorId a = some g) :
    ∃ n, (Ledger.replay es).accumulators g = some (viewOf a (newView n) es) := by
  induction es using List.reverseRecOn generalizing rest with
  -- an event of the prefix is one of the whole log, so assets and accumulators belong together
  | nil => cases hg
  | append_singleton es e ih =>
    have hes' : w.events = es ++ e :: rest := by simp [hes]
    have hlawful := hw.lawful
    rw [hes', Ledger.lawful_append] at hlawful
    obtain ⟨hbefore, hallows, -⟩ := hlawful
    change (Ledger.replay es).Allows e at hallows
    have hstep : Ledger.replay (es ++ [e]) = (Ledger.replay es).apply e := Ledger.replay_append ..
    have hall : Ledger.empty.Lawful (es ++ [e]) := by
      rw [Ledger.lawful_append]
      exact ⟨hbefore, hallows, trivial⟩
    have hmem : ∀ {x}, x ∈ es ++ [e] → x ∈ w.events := fun hx => hes ▸ List.mem_append_left _ hx
    have hinj : ∀ b, ((Ledger.replay es).apply e).accumulatorId b = some g → b = a := by
      intro b hb
      rw [← hstep] at hb
      obtain ⟨n, hn⟩ := (Ledger.accumulatorId_replay hall).mp hg
      obtain ⟨n', hn'⟩ := (Ledger.accumulatorId_replay hall).mp hb
      exact accumulator_unique hw (hmem hn) (hmem hn')
    rw [hstep]
    by_cases hold : (Ledger.replay es).accumulatorId a = some g
    · obtain ⟨n, hv⟩ := ih hes' hold
      exact ⟨n, (Ledger.view_apply hallows hold hinj hv).trans
        (congrArg some (viewOf_concat a _ es e).symm)⟩
    · -- the raise is finalized by this very event
      rw [hstep] at hg
      cases e
      case raiseFinalized b g' totalShares =>
        rw [Ledger.accumulatorId_raiseFinalized hallows] at hg
        by_cases hb : b = a
        · subst hb
          rw [if_pos rfl] at hg
          cases hg
          refine ⟨totalShares, ?_⟩
          rw [viewOf_concat, viewOf_eq_initial (untold hw hes' (hallows.finalizes b rfl))]
          exact Function.update_self ..
        · rw [if_neg hb] at hg
          exact absurd hg hold
      all_goals
        rw [Ledger.accumulatorId_apply hallows rfl] at hg
        exact absurd hg hold

/-- An accumulator is as it was told. -/
theorem view_told (hw : Reachable w) {acc : GlobalYieldAccumulator}
    (hacc : w.accumulators.get? g = some acc) :
    ∃ n, acc.view = viewOf acc.assetId (newView n) w.events := by
  obtain ⟨asset, hasset, hg⟩ := hw.linked.asset hacc
  have hid : (Ledger.replay w.events).accumulatorId acc.assetId = some g := by
    rw [hw.replayed, World.accumulatorId_ledger hasset]
    exact hg
  obtain ⟨n, hv⟩ := view_replay hw (List.append_nil _).symm hid
  have hview : w.ledger.accumulators g = some acc.view := Store.table_of_get? hacc
  rw [hw.replayed, hview] at hv
  exact ⟨n, Option.some.inj hv⟩

/-- An accumulator holds of every pool what was told last. -/
theorem pools_told (hw : Reachable w) {acc : GlobalYieldAccumulator}
    (hacc : w.accumulators.get? g = some acc) : acc.view.pools = poolsOf acc.assetId w.events := by
  obtain ⟨n, hview⟩ := view_told hw hacc
  rw [hview, pools_viewOf]

end Log

/-! ## One column -/

/-- Half of the counters are kept by the cast to 64 bits. -/
theorem asI64_eq_iff {v : ℕ} : asI64 v = v ↔ v < 2 ^ 63 := by
  unfold asI64
  rw [Int.bmod_def]
  omega

/-- A cast to 64 bits is below two to the 63. -/
theorem asI64_lt (v : ℕ) : asI64 v < 2 ^ 63 := by
  unfold asI64
  rw [Int.bmod_def]
  omega

/-- The row an event leaves in `accumulator_balances`. -/
def Reported.row (r : Reported) (m : EventMeta) (assetId : ID) (eventType : BalanceKind) :
    AccumulatorBalanceRow where
  eventMeta := m
  assetId := assetId
  eventType := eventType
  rewardPoolAfter := r.rewardPool.map asI64
  rolloverReserveAfter := r.rolloverReserve.map asI64
  compensationPoolAfter := r.compensationPool.map asI64
  compensationUnlockMs := r.compensationUnlockMs.map asI64
  wrappingFrozen := r.wrappingFrozen

/-- A column of `accumulator_balances`: what events tell of it, what the accumulator holds, the cast
    into the column and the number that was meant. -/
structure BalanceColumn (γ δ : Type) where
  told : Reported → Option γ
  held : Pools → γ
  column : AccumulatorBalanceRow → Option δ
  store : γ → δ
  exact : γ → δ
  untold : told {} = none
  stored : ∀ (r : Reported) m a k, column (r.row m a k) = (told r).map store
  held_onto : ∀ r p, held (r.onto p) = (told r).getD (held p)
  range : ∀ x y, store y = exact x → store x = exact x

/-- The row tells what the event does. -/
theorem of_balance {ev : SuiEvent} {r : AccumulatorBalanceRow}
    (h : .insert (.accumulatorBalance r) ∈ routeEvent ev) :
    ev.event.accumulatorOf = some r.assetId ∧
      r = ev.event.reported.row (EventMeta.fromEvent ev) r.assetId r.eventType := by
  obtain ⟨id, timestampMs, e⟩ := ev
  cases e <;> simp [routeEvent] at h
  all_goals
    subst h
    exact ⟨rfl, rfl⟩

/-- An event that tells of a pool leaves a row. -/
theorem exists_balance {ev : SuiEvent} (h : ev.event.reported ≠ {}) :
    ∃ r, .insert (.accumulatorBalance r) ∈ routeEvent ev := by
  obtain ⟨id, timestampMs, e⟩ := ev
  cases e
  case rolloverSwept | yieldClaimed | compensationSwept | dustSwept | entityDefaulted |
      revenueDeposited | disputeResolved =>
    simp only [routeEvent, handleYieldIndex, handlePositionEvent, handleDustSwept,
      handleEntityDefaulted, handleDisputeResolved, insertAccumulatorBalance, List.mem_cons,
      Stmt.insert.injEq, Row.accumulatorBalance.injEq]
    first
    | exact ⟨_, .inl rfl⟩
    | exact ⟨_, .inr (.inl rfl)⟩
  all_goals exact absurd rfl h

namespace BalanceColumn

variable {γ δ : Type} (c : BalanceColumn γ δ) {w : World} {h : List SuiEvent} {a : ID}

/-- The events that tell of the column of asset `a`. -/
def reports (a : ID) (h : List SuiEvent) : List SuiEvent :=
  h.filter fun ev => (c.told (ev.event.told a)).isSome

/-- What was told last. -/
def lastReport (a : ID) (h : List SuiEvent) : Option γ :=
  (h.filterMap fun ev => c.told (ev.event.told a)).getLast?

/-- The accumulator holds what was told last. -/
theorem held_poolsOf : c.held (poolsOf a (h.map SuiEvent.event)) =
    (c.lastReport a h).getD (c.held {}) := by
  induction h using List.reverseRecOn with
  | nil => rfl
  | append_singleton h ev ih =>
    rw [List.map_append, List.map_singleton, poolsOf_concat, c.held_onto, ih, lastReport,
      lastReport, List.filterMap_append]
    cases htold : c.told (ev.event.told a) <;> simp [htold]

/-- Nothing is reported last exactly when nothing is reported. -/
theorem lastReport_eq_none : c.lastReport a h = none ↔ c.reports a h = [] := by
  unfold lastReport reports
  rw [List.getLast?_eq_none_iff, List.filterMap_eq_nil_iff, List.filter_eq_nil_iff]
  simp

/-- No report has a greater time and number than `ev`. -/
def Greatest (a : ID) (h : List SuiEvent) (ev : SuiEvent) : Prop :=
  ev ∈ c.reports a h ∧ ∀ ev' ∈ c.reports a h,
    (EventMeta.fromEvent ev').time ≤ (EventMeta.fromEvent ev).time

/-- The last report fits the column, and reports with the greatest time and number tell the
    same. -/
def InOrder (a : ID) (h : List SuiEvent) : Prop :=
  ∀ x, c.lastReport a h = some x → c.store x = c.exact x ∧
    ∀ ev, c.Greatest a h ev → (c.told (ev.event.told a)).map c.store = some (c.store x)

/-! ### The rows of the column -/

section Rows

variable {evs : List SuiEvent} {v : Option δ}

/-- After full ingestion every row stands for an event that tells of the asset … -/
theorem event_of_row (hr : w.Recorded h) (hevs : ∀ x ∈ evs, x ∈ h)
    (hfull : ∀ ev ∈ h, Ingested evs ev) {r : AccumulatorBalanceRow}
    (hmem : r ∈ balanceRows (tables.ingest ∅ evs) a) : ∃ ev ∈ h,
      r.eventMeta = EventMeta.fromEvent ev ∧
        c.column r = (c.told (ev.event.told a)).map c.store := by
  obtain ⟨hrow, rfl⟩ := mem_balanceRows.mp hmem
  obtain ⟨ev, hev, hinsert⟩ := (mem_rows_iff hr hevs hfull rfl).mp hrow
  obtain ⟨hof, heq⟩ := of_balance hinsert
  refine ⟨ev, hev, ?_, ?_⟩
  · rw [heq]
    rfl
  · rw [Event.told, if_pos hof, heq, c.stored]

/-- … and every event that tells of the column has a row. -/
theorem row_of_event (hr : w.Recorded h) (hevs : ∀ x ∈ evs, x ∈ h)
    (hfull : ∀ ev ∈ h, Ingested evs ev) {ev : SuiEvent} (hev : ev ∈ c.reports a h) :
    ∃ r ∈ balanceRows (tables.ingest ∅ evs) a, r.eventMeta = EventMeta.fromEvent ev ∧
      c.column r = (c.told (ev.event.told a)).map c.store := by
  obtain ⟨hin, hsome⟩ := List.mem_filter.mp hev
  have hof : ev.event.accumulatorOf = some a := by
    -- an event that tells the column is about the asset
    by_contra hne
    rw [told_of_ne hne, c.untold] at hsome
    cases hsome
  rw [Event.told, if_pos hof] at hsome ⊢
  have htells : ev.event.reported ≠ {} := by
    intro heq
    rw [heq, c.untold] at hsome
    cases hsome
  obtain ⟨r, hinsert⟩ := exists_balance htells
  obtain ⟨hof', heq⟩ := of_balance hinsert
  have hasset : r.assetId = a := Option.some.inj (hof'.symm.trans hof)
  have hrow := (mem_rows_iff hr hevs hfull rfl).mpr ⟨ev, hin, hinsert⟩
  refine ⟨r, mem_balanceRows.mpr ⟨hrow, hasset⟩, ?_, ?_⟩
  -- the row is the event's, with the columns as they were stored
  · rw [heq]
    rfl
  · rw [heq, c.stored]

/-- What the query can answer. -/
theorem latest_iff (hr : w.Recorded h) (hevs : ∀ x ∈ evs, x ∈ h)
    (hfull : ∀ ev ∈ h, Ingested evs ev) :
    Latest c.column (balanceRows (tables.ingest ∅ evs) a) v ↔ (v = none ∧ c.reports a h = []) ∨
      ∃ ev, c.Greatest a h ev ∧ v = (c.told (ev.event.told a)).map c.store := by
  -- what an event tells and what is reported are the same
  have hreports : ∀ {ev}, ev ∈ h → (c.told (ev.event.told a)).isSome = true →
      ev ∈ c.reports a h := fun hin hsome => List.mem_filter.mpr ⟨hin, hsome⟩
  have hsome : ∀ {ev}, ev ∈ c.reports a h → (c.told (ev.event.told a)).isSome = true :=
    fun hev => (List.mem_filter.mp hev).2
  -- no row has the column, or the greatest of those that have it
  cases v with
  | none =>
    have hnever : ¬ ∃ ev, c.Greatest a h ev ∧ none = (c.told (ev.event.told a)).map c.store := by
      intro ⟨ev, hgreatest, hnone⟩
      have htold := hsome hgreatest.1
      rw [Option.map_eq_none_iff.mp hnone.symm] at htold
      cases htold
    simp only [Latest, true_and, hnever, or_false]
    constructor
    · intro hnone
      rw [List.eq_nil_iff_forall_not_mem]
      intro ev hev
      obtain ⟨r, hr', -, hcol⟩ := c.row_of_event hr hevs hfull hev
      rw [hnone r hr', eq_comm, Option.map_eq_none_iff] at hcol
      have htold := hsome hev
      rw [hcol] at htold
      cases htold
    · intro hnil r hr'
      obtain ⟨ev, hev, -, hcol⟩ := c.event_of_row hr hevs hfull hr'
      by_contra hne
      rw [hcol] at hne
      have htold : (c.told (ev.event.told a)).isSome = true := by
        rw [Option.isSome_iff_ne_none]
        exact fun heq => hne (by rw [heq]; rfl)
      have hmem := hreports hev htold
      rw [hnil] at hmem
      cases hmem
  | some x =>
    simp only [Latest, reduceCtorEq, false_and, false_or]
    constructor
    · intro ⟨r, hr', hval, hmax⟩
      obtain ⟨ev, hev, htime, hcol⟩ := c.event_of_row hr hevs hfull hr'
      have htold : (c.told (ev.event.told a)).isSome = true := by
        rw [← Option.isSome_map (f := c.store), ← hcol, hval]
        rfl
      refine ⟨ev, ⟨hreports hev htold, fun ev' hev' => ?_⟩, by rw [← hcol, hval]⟩
      obtain ⟨q, hq, htime', hcol'⟩ := c.row_of_event hr hevs hfull hev'
      rw [← htime, ← htime']
      -- the greatest of the rows is that of the greatest report
      refine hmax q hq ?_
      rw [hcol', Option.isSome_map]
      exact hsome hev'
    · intro ⟨ev, hgreatest, hval⟩
      obtain ⟨r, hr', htime, hcol⟩ := c.row_of_event hr hevs hfull hgreatest.1
      refine ⟨r, hr', by rw [hcol, hval], fun q hq hqsome => ?_⟩
      obtain ⟨ev', hev', htime', hcol'⟩ := c.event_of_row hr hevs hfull hq
      rw [htime, htime']
      refine hgreatest.2 ev' (hreports hev' ?_)
      rwa [hcol', Option.isSome_map] at hqsome

/-- Some report is the greatest. -/
theorem exists_greatest (hne : c.reports a h ≠ []) : ∃ ev, c.Greatest a h ev := by
  obtain ⟨ev₀, hev₀⟩ := List.exists_mem_of_ne_nil _ hne
  obtain ⟨ev, hev, hmax⟩ := Finset.exists_max_image (c.reports a h).toFinset
    (fun ev => (EventMeta.fromEvent ev).time) ⟨ev₀, List.mem_toFinset.mpr hev₀⟩
  exact ⟨ev, List.mem_toFinset.mp hev, fun ev' hev' => hmax ev' (List.mem_toFinset.mpr hev')⟩

/-- The column is served as the accumulator holds it exactly when its reports are in order. -/
theorem served_iff (hr : w.Recorded h) (hevs : ∀ x ∈ evs, x ∈ h)
    (hfull : ∀ ev ∈ h, Ingested evs ev) :
    (∀ v, Latest c.column (balanceRows (tables.ingest ∅ evs) a) v →
      v.getD (c.exact (c.held {})) = c.exact (c.held (poolsOf a (h.map SuiEvent.event)))) ↔
      c.InOrder a h := by
  rw [c.held_poolsOf]
  constructor
  -- what is served is what the greatest report tells
  · intro hserved x hlast
    have hreports : c.reports a h ≠ [] := by
      rw [Ne, ← c.lastReport_eq_none, hlast]
      exact Option.some_ne_none x
    have hval : ∀ ev, c.Greatest a h ev →
        (c.told (ev.event.told a)).map c.store = some (c.exact x) := by
      intro ev hgreatest
      have hserves := hserved _ ((c.latest_iff hr hevs hfull).mpr (.inr ⟨ev, hgreatest, rfl⟩))
      obtain ⟨y, hy⟩ := Option.isSome_iff_exists.mp (List.mem_filter.mp hgreatest.1).2
      rw [hy, hlast] at hserves
      rw [hy]
      exact congrArg some hserves
    obtain ⟨ev, hgreatest⟩ := c.exists_greatest hreports
    obtain ⟨y, -, hy⟩ := Option.map_eq_some_iff.mp (hval ev hgreatest)
    have hexact := c.range x y hy
    exact ⟨hexact, fun ev' hev' => hexact ▸ hval ev' hev'⟩
  · intro horder v hv
    rcases (c.latest_iff hr hevs hfull).mp hv with ⟨rfl, hnil⟩ | ⟨ev, hgreatest, rfl⟩
    · rw [c.lastReport_eq_none.mpr hnil]
      rfl
    -- the last report is among the reports, so there is one
    · cases hlast : c.lastReport a h with
      | none =>
        have hmem := hgreatest.1
        rw [c.lastReport_eq_none.mp hlast] at hmem
        cases hmem
      | some x =>
        obtain ⟨hexact, hsame⟩ := horder x hlast
        rw [hsame ev hgreatest, hexact]
        rfl

end Rows

/-- Whether the reports are in order can be computed. -/
theorem inOrder_iff : c.InOrder a h ↔ ∀ x ∈ c.lastReport a h, c.store x = c.exact x ∧
    ∀ ev ∈ c.reports a h, (∀ ev' ∈ c.reports a h,
      (EventMeta.fromEvent ev').time ≤ (EventMeta.fromEvent ev).time) →
      (c.told (ev.event.told a)).map c.store = some (c.store x) := by
  unfold InOrder Greatest
  simp only [Option.mem_def, and_imp]

instance [DecidableEq δ] : Decidable (c.InOrder a h) := decidable_of_iff' _ c.inOrder_iff

end BalanceColumn

/-! ## All columns -/

/-- A column that holds an amount. -/
def amountColumn (told : Reported → Option ℕ) (held : Pools → ℕ)
    (column : AccumulatorBalanceRow → Option ℤ) (untold : told {} = none)
    (stored : ∀ (r : Reported) m a k, column (r.row m a k) = (told r).map asI64)
    (held_onto : ∀ r p, held (r.onto p) = (told r).getD (held p)) : BalanceColumn ℕ ℤ where
  told := told
  held := held
  column := column
  store := asI64
  exact v := v
  untold := untold
  stored := stored
  held_onto := held_onto
  range x y h := asI64_eq_iff.mpr (by have := asI64_lt y; omega)

def rewardPoolColumn : BalanceColumn ℕ ℤ :=
  amountColumn (·.rewardPool) (·.rewardPool) (·.rewardPoolAfter) rfl
    (fun _ _ _ _ => rfl) fun _ _ => rfl

def rolloverReserveColumn : BalanceColumn ℕ ℤ :=
  amountColumn (·.rolloverReserve) (·.rolloverReserve) (·.rolloverReserveAfter) rfl
    (fun _ _ _ _ => rfl) fun _ _ => rfl

def compensationPoolColumn : BalanceColumn ℕ ℤ :=
  amountColumn (·.compensationPool) (·.compensationPool) (·.compensationPoolAfter) rfl
    (fun _ _ _ _ => rfl) fun _ _ => rfl

def compensationUnlockMsColumn : BalanceColumn ℕ ℤ :=
  amountColumn (·.compensationUnlockMs) (·.compensationUnlockMs) (·.compensationUnlockMs) rfl
    (fun _ _ _ _ => rfl) fun _ _ => rfl

def wrappingFrozenColumn : BalanceColumn Bool Bool where
  told := (·.wrappingFrozen)
  held := (·.wrappingFrozen)
  column := (·.wrappingFrozen)
  store v := v
  exact v := v
  untold := rfl
  stored _ _ _ _ := Option.map_id'.symm
  held_onto _ _ := rfl
  range _ _ _ := rfl

/-- The answer shows what the accumulator holds; `NULL`, where no event told of a pool, stands for
    what the pool starts with. -/
structure Indexer.AccumulatorBalances.Shows (b : AccumulatorBalances)
    (acc : GlobalYieldAccumulator) : Prop where
  rewardPool : b.rewardPool.getD 0 = acc.rewardPool
  rolloverReserve : b.rolloverReserve.getD 0 = acc.rolloverReserve
  compensationPool : b.compensationPool.getD 0 = acc.compensationPool
  compensationUnlockMs : b.compensationUnlockMs.getD 0 = acc.compensationUnlockMs
  wrappingFrozen : b.wrappingFrozen.getD false = acc.wrappingFrozen

/-- After full ingestion, in any order, every answer shows what the accumulator holds exactly when
    the reports of every column are in order. -/
theorem balances_served_iff {w : World} {h evs : List SuiEvent} {g : ID}
    {acc : GlobalYieldAccumulator} (hr : w.Recorded h) (hacc : w.accumulators.get? g = some acc)
    (hevs : ∀ x ∈ evs, x ∈ h) (hfull : ∀ ev ∈ h, Ingested evs ev) :
    (∀ b, CurrentAccumulatorBalances (tables.ingest ∅ evs) acc.assetId b → b.Shows acc) ↔
      rewardPoolColumn.InOrder acc.assetId h ∧ rolloverReserveColumn.InOrder acc.assetId h ∧
      compensationPoolColumn.InOrder acc.assetId h ∧
      compensationUnlockMsColumn.InOrder acc.assetId h ∧
      wrappingFrozenColumn.InOrder acc.assetId h := by
  have hpools := pools_told hr.reachable hacc
  rw [← hr.events] at hpools
  simp only [← BalanceColumn.served_iff _ hr hevs hfull, ← hpools]
  obtain ⟨b₁, h₁⟩ := exists_latest (·.rewardPoolAfter)
    (balanceRows (tables.ingest ∅ evs) acc.assetId)
  obtain ⟨b₂, h₂⟩ := exists_latest (·.rolloverReserveAfter)
    (balanceRows (tables.ingest ∅ evs) acc.assetId)
  obtain ⟨b₃, h₃⟩ := exists_latest (·.compensationPoolAfter)
    (balanceRows (tables.ingest ∅ evs) acc.assetId)
  obtain ⟨b₄, h₄⟩ := exists_latest (·.compensationUnlockMs)
    (balanceRows (tables.ingest ∅ evs) acc.assetId)
  obtain ⟨b₅, h₅⟩ := exists_latest (·.wrappingFrozen)
    (balanceRows (tables.ingest ∅ evs) acc.assetId)
  constructor
  · intro hshows
    -- the columns are answered independently
    exact ⟨fun v hv => (hshows ⟨v, b₂, b₃, b₄, b₅⟩ ⟨hv, h₂, h₃, h₄, h₅⟩).rewardPool,
      fun v hv => (hshows ⟨b₁, v, b₃, b₄, b₅⟩ ⟨h₁, hv, h₃, h₄, h₅⟩).rolloverReserve,
      fun v hv => (hshows ⟨b₁, b₂, v, b₄, b₅⟩ ⟨h₁, h₂, hv, h₄, h₅⟩).compensationPool,
      fun v hv => (hshows ⟨b₁, b₂, b₃, v, b₅⟩ ⟨h₁, h₂, h₃, hv, h₅⟩).compensationUnlockMs,
      fun v hv => (hshows ⟨b₁, b₂, b₃, b₄, v⟩ ⟨h₁, h₂, h₃, h₄, hv⟩).wrappingFrozen⟩
  · intro ⟨i₁, i₂, i₃, i₄, i₅⟩ b hb
    exact ⟨i₁ _ hb.rewardPool, i₂ _ hb.rolloverReserve, i₃ _ hb.compensationPool,
      i₄ _ hb.compensationUnlockMs, i₅ _ hb.wrappingFrozen⟩

namespace Sample

/-- Revenue is deposited twice in one transaction, and the investor claims in the next one. -/
def claimed : List Entry := Entry.ofActions 1000 (earning ++
  [.transaction 2 [.asset (.depositRevenue 4 8 100), .asset (.depositRevenue 4 8 100)],
   .transaction 3 [.accumulator (.claimRewards 8 9)]])

end Sample

open Sample

/-- After one deposit the query shows what accumulator 8 holds. -/
theorem balances_served_earning :
    ∃ (w : World) (h : List SuiEvent) (acc : GlobalYieldAccumulator),
    w.accumulators.get? 8 = some acc ∧
    acc.rewardPool = 49 ∧
    ∀ b, CurrentAccumulatorBalances (tables.ingest ∅ h) 4 b → b.Shows acc := by
  have hrun : returns (World.record (Entry.ofActions 1000 earning)) (fun s =>
      handled ∅ s.2 && (s.1.accumulators.get? 8).any (fun acc =>
        acc.assetId = 4 && acc.rewardPool = 49) &&
      decide (rewardPoolColumn.InOrder 4 s.2 ∧ rolloverReserveColumn.InOrder 4 s.2 ∧
        compensationPoolColumn.InOrder 4 s.2 ∧ compensationUnlockMsColumn.InOrder 4 s.2 ∧
        wrappingFrozenColumn.InOrder 4 s.2)) = true := by
    decide +kernel
  obtain ⟨s, hs, hq⟩ := returns_iff.mp hrun
  simp only [Bool.and_eq_true, decide_eq_true_eq, Option.any_eq_true] at hq
  obtain ⟨⟨hhandled, acc, hacc, hasset, hpool⟩, horder⟩ := hq
  refine ⟨s.1, s.2, acc, hacc, hpool, ?_⟩
  rw [← hasset] at horder ⊢
  exact (balances_served_iff (.of_record hs) hacc (fun _ hx => hx)
    fun ev hev => ingested_of_handled hhandled hev).mpr horder

/-- The two deposits leave 147 in the reward pool, the second being event 1 of its transaction; the
    claim, event 0 of the next transaction at the same time, empties it. The query shows 147. -/
theorem balances_tied : ¬ ∀ {w : World} {h evs : List SuiEvent} {g : ID}
    {acc : GlobalYieldAccumulator}, w.Recorded h → w.accumulators.get? g = some acc →
    (∀ x ∈ evs, x ∈ h) → (∀ ev ∈ h, Ingested evs ev) →
    ∀ b, CurrentAccumulatorBalances (tables.ingest ∅ evs) acc.assetId b → b.Shows acc := by
  intro hclaim
  have hrun : returns (World.record claimed) (fun s =>
      handled ∅ s.2 && (s.1.accumulators.get? 8).any (fun acc =>
        acc.assetId = 4 && acc.rewardPool = 0) &&
      decide (Latest (·.rewardPoolAfter) (balanceRows (tables.ingest ∅ s.2) 4) (some 147)))
      = true := by
    decide +kernel
  obtain ⟨s, hs, hq⟩ := returns_iff.mp hrun
  simp only [Bool.and_eq_true, decide_eq_true_eq, Option.any_eq_true] at hq
  obtain ⟨⟨hhandled, acc, hacc, hasset, hpool⟩, hlatest⟩ := hq
  obtain ⟨b₂, h₂⟩ := exists_latest (·.rolloverReserveAfter) (balanceRows (tables.ingest ∅ s.2) 4)
  obtain ⟨b₃, h₃⟩ := exists_latest (·.compensationPoolAfter) (balanceRows (tables.ingest ∅ s.2) 4)
  obtain ⟨b₄, h₄⟩ := exists_latest (·.compensationUnlockMs) (balanceRows (tables.ingest ∅ s.2) 4)
  obtain ⟨b₅, h₅⟩ := exists_latest (·.wrappingFrozen) (balanceRows (tables.ingest ∅ s.2) 4)
  have hshows := hclaim (.of_record hs) hacc (fun _ hx => hx)
    (fun ev hev => ingested_of_handled hhandled hev) ⟨some 147, b₂, b₃, b₄, b₅⟩
    (by rw [hasset]; exact ⟨hlatest, h₂, h₃, h₄, h₅⟩)
  have hserved := hshows.rewardPool
  rw [hpool] at hserved
  cases hserved

end Gally

import Gally.Explorer.Cranks
import Gally.Law.Holdings
import Gally.Law.Raise
import Gally.Law.Rollover
import Gally.Law.Settlement
import Gally.Law.Shown

/-!
# The keeper view and the contract

When each of the permissionless calls can be made (`Reachable.canResolve_iff` and so on), when the
keeper view offers it (`offers_flag_iff` and so on), and exactly when these are the same
(`keeper_view`).
-/

namespace Gally

open Checked Relational Indexer Feed

/-! ## What can be called -/

namespace World

/-- Someone can make the call. -/
def CanResolve (w : World) (d : ID) : Prop :=
  ∃ sender p a g, Succeeds (w.call sender (.dispute (.resolveDispute d p a g)))

def CanFlag (w : World) (a : ID) : Prop :=
  ∃ sender g, Succeeds (w.call sender (.asset (.flagDefault a g)))

def CanAbort (w : World) (a : ID) : Prop :=
  ∃ sender p, Succeeds (w.call sender (.asset (.abortFailedRaise a p)))

def CanSweepRollover (w : World) (a : ID) : Prop :=
  ∃ sender g acc, w.accumulators.get? g = some acc ∧ acc.assetId = a ∧
    Succeeds (w.call sender (.accumulator (.sweepRollover g)))

def CanSweepCompensation (w : World) (a : ID) : Prop :=
  ∃ sender g acc, w.accumulators.get? g = some acc ∧ acc.assetId = a ∧
    Succeeds (w.call sender (.accumulator (.sweepCompensation g)))

end World

/-- The window is over, and the tally and an unlock time fit. -/
def World.Resolvable (w : World) (x : Dispute) : Prop :=
  x.votingDeadlineMs ≤ w.clockMs ∧ x.totalVotes ≤ maxU64 ∧
    (x.verdict w.config = .upheld → w.clockMs + w.config.compensationGraceMs ≤ maxU64)

namespace Reachable

variable {w : World} {a d g : ID} {asset : Asset} {acc : GlobalYieldAccumulator} {x : Dispute}

/-- A dispute can be resolved exactly when it is open, due, and its verdict has room. -/
theorem canResolve_iff (hw : Reachable w) (hx : w.disputes.get? d = some x) :
    w.CanResolve d ↔ x.status = .opened ∧ w.Resolvable x := by
  constructor
  · intro ⟨sender, p, a, g, hcall⟩
    obtain ⟨w', h⟩ := hcall
    cases World.callDispute_eq_ok.mp h with
    | resolveDispute hx' hpool hasset hacc guards =>
      obtain rfl := Option.some.inj (hx.symm.trans hx')
      have hp : p = x.targetPoolId := (Store.key_of_get? hpool).symm.trans guards.pool
      -- the objects that are passed in are those the dispute names
      have ha : a = x.assetId := (Store.key_of_get? hasset).symm.trans guards.asset
      have hg : g = x.accumulatorId := (Store.key_of_get? hacc).symm.trans guards.acc
      subst hp ha hg
      exact ⟨guards.opened, guards.due,
        (hw.resolve_iff hx guards.opened guards.due sender).mp ⟨_, h⟩⟩
  · intro ⟨hopen, hdue, hroom⟩
    exact ⟨0, _, _, _, (hw.resolve_iff hx hopen hdue 0).mpr hroom⟩

/-- A default can be flagged exactly when the asset executes, its next tranche is late and
    unapproved, and the grace period can be added to the clock. -/
theorem canFlag_iff (hw : Reachable w) (hasset : w.assets.get? a = some asset) :
    w.CanFlag a ↔ asset.state = .executing ∧ asset.InDefault w.clockMs ∧
      w.clockMs + w.config.compensationGraceMs ≤ maxU64 := by
  constructor
  · intro ⟨sender, g, w', h⟩
    cases World.callAsset_eq_ok.mp h with
    | flagDefault hasset' _ guards =>
      obtain rfl := Option.some.inj (hasset'.symm.trans hasset)
      exact ⟨guards.state, ⟨_, guards.tranche, guards.unapproved, guards.missed⟩, guards.unlock⟩
  · intro ⟨hstate, hmissed, hfits⟩
    obtain ⟨t, ht, hunapproved, hlate⟩ := hmissed
    obtain ⟨g, hflag⟩ := hw.flags hasset hstate ht hlate hunapproved hfits
    obtain ⟨w', hcall, -⟩ := hflag 0
    exact ⟨0, g, w', hcall⟩

/-- A raise can be aborted exactly when it is over and short of its goal. -/
theorem canAbort_iff (hw : Reachable w) (hasset : w.assets.get? a = some asset) :
    w.CanAbort a ↔ asset.state = .funding ∧ asset.fundingDeadlineMs < w.clockMs ∧
      asset.raised < asset.fundingGoal := by
  constructor
  · intro ⟨sender, p, w', h⟩
    cases World.callAsset_eq_ok.mp h with
    | abortFailedRaise hasset' _ guards =>
      obtain rfl := Option.some.inj (hasset'.symm.trans hasset)
      exact ⟨guards.state, guards.expired, guards.unmet⟩
  · intro ⟨hstate, hlate, hshort⟩
    -- a raise is vouched for
    obtain ⟨L, htrace⟩ := hw.traced (H := vouchHistory) fun _ _ => ⟨_, rfl⟩
    have hfits := htrace.counted.fits asset (Store.mem_of_get? hasset)
    obtain ⟨p, hp⟩ : ∃ p, asset.validatorPoolId = some p := by
      rw [← Option.isSome_iff_exists, Option.isSome_iff_ne_none]
      intro hnone
      have hstage := hfits.unvouched.mpr hnone
      rw [hfits.funding hstate] at hstage
      cases hstage
    exact ⟨0, p, (hw.abort_iff hasset hstate hlate hp 0).mpr hshort⟩

/-- Parked revenue cannot be swept: as long as there is some, nothing is unwrapped. -/
theorem not_canSweepRollover (hw : Reachable w) (a : ID) : ¬ w.CanSweepRollover a := by
  intro ⟨sender, g, acc, _, _, w', h⟩
  cases World.callAccumulator_eq_ok.mp h with
  | sweepRollover hacc hreserve guards =>
    exact guards.unwrapped (hw.idle hacc hreserve)

/-- A compensation pool can be swept exactly when it holds something, is due, and the sweep has
    room. -/
theorem canSweepCompensation_iff (hw : Reachable w) (hacc : w.accumulators.get? g = some acc) :
    w.CanSweepCompensation acc.assetId ↔ 0 < acc.compensationPool ∧
      acc.compensationUnlockMs ≤ w.clockMs ∧ acc.SweepRoom := by
  constructor
  · intro ⟨sender, g', acc', hacc', hsame, hcall⟩
    -- an asset has one accumulator
    obtain ⟨asset, hasset, hg⟩ := hw.linked.asset hacc
    obtain ⟨asset', hasset', hg'⟩ := hw.linked.asset hacc'
    rw [hsame, hasset] at hasset'
    obtain rfl := Option.some.inj hasset'
    obtain rfl : g = g' := Option.some.inj (hg.symm.trans hg')
    obtain rfl := Option.some.inj (hacc.symm.trans hacc')
    obtain ⟨w', h⟩ := hcall
    have hpool : 0 < acc.compensationPool := by
      cases World.callAccumulator_eq_ok.mp h with
      | sweepCompensation hacc'' _ positive =>
        obtain rfl := Option.some.inj (hacc''.symm.trans hacc)
        exact positive
    exact ⟨hpool, (hw.sweep_iff hacc hpool sender).mp ⟨w', h⟩⟩
  · intro ⟨hpool, hdue⟩
    exact ⟨0, g, acc, hacc, rfl, (hw.sweep_iff hacc hpool 0).mpr hdue⟩

end Reachable

/-! ## The pools that are told -/

/-- The compensation pool after a sweep of it. -/
def Event.sweptPool : Event → Option ℕ
  | .compensationSwept _ _ _ _ _ _ _ compensationPoolAfter _ => some compensationPoolAfter
  | _ => none

/-- Only a sweep of the compensation pool reports what it leaves there. -/
theorem kind_of_sweptPool {e : Event} {pool : ℕ} (h : e.sweptPool = some pool) :
    e.kind = .compensationSwept := by
  cases e <;> first | rfl | cases h

/-- Only a sweep of the compensation pool tells of one. -/
theorem Call.sweep_of_kinds {c : Call} (hk : .compensationSwept ∈ c.kinds) :
    ∃ g, c = .accumulator (.sweepCompensation g) := by
  cases c with
  | accumulator c =>
    cases c <;> first | exact ⟨_, rfl⟩ | simp [Call.kinds, AccumulatorCall.kinds] at hk
  | protocol c => cases c <;> simp [Call.kinds, ProtocolCall.kinds] at hk
  | validator c => cases c <;> simp [Call.kinds, ValidatorCall.kinds] at hk
  | asset c => cases c <;> simp [Call.kinds, AssetCall.kinds] at hk
  | dispute c => cases c <;> simp [Call.kinds, DisputeCall.kinds] at hk
  | framework c => cases hk

/-- Routing revenue leaves the compensation pool as it is. -/
theorem Routed.compensationPool {acc acc' : GlobalYieldAccumulator} {funds : ℕ}
    (h : Routed acc funds acc') : acc'.compensationPool = acc.compensationPool := by
  rcases h with ⟨-, -, rfl⟩ | ⟨-, -, rfl⟩ <;> rfl

/-- A sweep leaves nothing in the pool. -/
theorem World.swept_call {w w' : World} {sender : Address} {c : Call}
    (h : w.call sender c = .ok w')
    (hw : ∀ e ∈ w.events, ∀ pool, e.sweptPool = some pool → pool = 0) :
    ∀ e ∈ w'.events, ∀ pool, e.sweptPool = some pool → pool = 0 := by
  obtain ⟨es, hevents, hkinds⟩ := World.emits h
  rw [hevents, List.forall_mem_append]
  refine ⟨hw, fun e he pool hpool => ?_⟩
  -- only that sweep reports a pool, and it reports what it has left: nothing
  have hkind := hkinds e he
  rw [kind_of_sweptPool hpool] at hkind
  obtain ⟨g, rfl⟩ := Call.sweep_of_kinds hkind
  cases World.callAccumulator_eq_ok.mp h with
  | sweepCompensation _ _ _ route run =>
    obtain ⟨-, -, -, -, hsent⟩ := sweepCompensation_eq_ok.mp run
    obtain rfl := List.append_cancel_left hevents
    rw [hsent] at he
    obtain rfl := List.mem_singleton.mp he
    obtain rfl := Option.some.inj hpool
    exact route.compensationPool

/-- In every reachable world the sweeps of the log left nothing in the pool. -/
theorem Reachable.swept_zero {w : World} (hw : Reachable w) {e : Event} (he : e ∈ w.events)
    {pool : ℕ} (hpool : e.sweptPool = some pool) : pool = 0 := by
  refine hw.induct (P := fun w => ∀ e ∈ w.events, ∀ pool, e.sweptPool = some pool → pool = 0)
    ?_ (fun _ hold h => World.swept_call h hold) (fun _ hold _ => hold) e he pool hpool
  intro admin e he pool hpool
  simp only [World.genesis, List.mem_singleton] at he
  subst he
  cases hpool

/-- A pool that holds something was told with the time at which it is unlocked. -/
theorem unlock_told {a : ID} {es : List Event}
    (hes : ∀ e ∈ es, ∀ pool, e.sweptPool = some pool → pool = 0)
    (hpool : 0 < (poolsOf a es).compensationPool) :
    ∃ e ∈ es, ((e.told a).compensationUnlockMs).isSome := by
  -- induction from the end of the log
  induction es using List.reverseRecOn with
  | nil => cases hpool
  | append_singleton es e ih =>
    -- the last event told the time, or it is one before it that filled the pool
    by_cases hunlock : ((e.told a).compensationUnlockMs).isSome
    · exact ⟨e, List.mem_append_right _ (List.mem_singleton_self e), hunlock⟩
    · have hold : 0 < (poolsOf a es).compensationPool := by
        rw [poolsOf_concat] at hpool
        by_cases ha : e.accumulatorOf = some a
        · rw [Event.told, if_pos ha] at hpool hunlock
          cases e
          case compensationSwept =>
            have hzero := hes _ (List.mem_append_right _ (List.mem_singleton_self _)) _ rfl
            subst hzero
            cases hpool
          case entityDefaulted | disputeResolved => exact absurd rfl hunlock
          all_goals exact hpool
        · rwa [told_of_ne ha] at hpool
      obtain ⟨x, hx, hsome⟩ := ih (fun x hx => hes x (List.mem_append_left _ hx)) hold
      exact ⟨x, List.mem_append_left _ hx, hsome⟩

/-! ## What is offered -/

namespace Explorer

variable {a : Asset}

/-- The explorer offers to resolve the open disputes whose deadline is past. -/
theorem offers_resolve {d : Dispute} : Offers (cranksForDispute d) .resolveDispute ↔
    d.status = .opened ∧ d.votingDeadlineMs ≤ fixedNow := by
  unfold Offers cranksForDispute
  by_cases hopen : d.status = .opened <;> simp [hopen]

/-- The explorer offers to flag an executing asset whose first unreleased tranche is late and
    unapproved. -/
theorem offers_flag : Offers (cranksForAsset a) .flagDefault ↔ a.state = .executing ∧
    ∃ t, a.tranches.find? (fun t => !t.released) = some t ∧ t.deadlineMs < fixedNow ∧
      ¬ t.approvedBy.any (· ≠ "") := by
  unfold Offers cranksForAsset
  by_cases hexecuting : a.state = .executing
  · cases a.tranches.find? (fun t => !t.released) <;> simp [hexecuting]
  · by_cases hfunding : a.state = .funding <;> simp [hexecuting, hfunding]

/-- The explorer offers to abort a raise that is past its deadline and short of its goal. -/
theorem offers_abort : Offers (cranksForAsset a) .abortFailedRaise ↔ a.state = .funding ∧
    a.fundingDeadlineMs < fixedNow ∧ a.raised < a.fundingGoal := by
  unfold Offers cranksForAsset
  by_cases hexecuting : a.state = .executing
  · cases a.tranches.find? (fun t => !t.released) <;> simp [hexecuting]
  · by_cases hfunding : a.state = .funding <;> simp [hexecuting, hfunding]

/-- The explorer offers a rollover sweep when there is a reserve and something unwrapped. -/
theorem offers_rollover : Offers (cranksForAccumulator a) .sweepRollover ↔
    ∃ acc, a.accumulator = some acc ∧ 0 < acc.rolloverReserve ∧ 0 < unwrappedSupply a := by
  unfold Offers cranksForAccumulator
  cases hacc : a.accumulator with
  | none => simp
  | some acc =>
    by_cases hreserve : 0 < acc.rolloverReserve <;>
      by_cases hpool : 0 < acc.compensationPool <;> simp [hreserve, hpool]

/-- The explorer offers a compensation sweep when the pool holds something and is due. -/
theorem offers_compensation : Offers (cranksForAccumulator a) .sweepCompensation ↔
    ∃ acc unlock, a.accumulator = some acc ∧ 0 < acc.compensationPool ∧
      acc.compensationUnlockMs = some unlock ∧ unlock ≤ fixedNow := by
  unfold Offers cranksForAccumulator
  cases hacc : a.accumulator with
  | none => simp
  | some acc =>
    by_cases hreserve : 0 < acc.rolloverReserve <;>
      by_cases hpool : 0 < acc.compensationPool <;> simp [hreserve, hpool]

end Explorer

/-- The status as the explorer names it. -/
def DisputeStatus.named : DisputeStatus → Explorer.DisputeStatus
  | .opened => .opened
  | .upheld => .upheld
  | .rejected => .rejected
  | .expired => .expired

/-! ## Conditions -/

/-- What the page reads of an asset in its state fits the columns and the page, wraps are sorted as
    they happened, and pools are reported in order. -/
structure Asset.Readable (asset : Asset) (w : World) (s : Snapshot) (h : List SuiEvent) : Prop where
  raise : asset.state = .funding → asset.fundingGoal < 2 ^ 63 ∧ asset.fundingDeadlineMs < 2 ^ 63
  tranches : asset.state = .executing → asset.tranches.length ≤ 2 ^ 31 ∧
    (∀ t, asset.tranches[asset.nextTranche]? = some t → t.deadlineMs < 2 ^ 63) ∧
    ∀ rows, (listTranches asset.id).matching s = some rows → rows.length ≤ 100
  parked : ∀ acc ∈ w.accumulators, acc.assetId = asset.id → 0 < acc.rolloverReserve →
    asset.fundingGoal < 2 ^ 63 ∧ s.Sequential asset.id h ∧
      ∀ rows, (listWrapRatio asset.id).matching s = some rows → rows.length ≤ 100
  reserve : rolloverReserveColumn.InOrder asset.id h
  pool : compensationPoolColumn.InOrder asset.id h
  unlock : compensationUnlockMsColumn.InOrder asset.id h

/-- What is due by the clock of the page is due on chain, and nothing stands in the way that the
    page does not show. -/
structure Asset.OnTime (asset : Asset) (w : World) (s : Snapshot) : Prop where
  raise : asset.state = .funding → ((asset.fundingDeadlineMs : ℤ) < Explorer.fixedNow ↔
    asset.fundingDeadlineMs < w.clockMs ∧ asset.raised < asset.fundingGoal)
  tranche : asset.state = .executing → ∀ t, asset.tranches[asset.nextTranche]? = some t →
    ((t.deadlineMs : ℤ) < Explorer.fixedNow ↔ (t.approvedBy = none ∧ t.deadlineMs < w.clockMs) ∧
      w.clockMs + w.config.compensationGraceMs ≤ maxU64)
  /-- While revenue is parked and the holders are served, no deed was redeemed. -/
  parked : ∀ acc ∈ w.accumulators, acc.assetId = asset.id → 0 < acc.rolloverReserve →
    ((holdersList asset.id).matching s).isSome → acc.totalMintedShares = asset.fundingGoal
  pool : ∀ acc ∈ w.accumulators, acc.assetId = asset.id → 0 < acc.compensationPool →
    ((acc.compensationUnlockMs : ℤ) ≤ Explorer.fixedNow ↔
      acc.compensationUnlockMs ≤ w.clockMs ∧ acc.SweepRoom)

/-- So it is of every asset; and no dispute expired, and the open ones can be resolved. -/
structure World.OnTime (w : World) (s : Snapshot) : Prop where
  disputes : ∀ x ∈ w.disputes, x.status ≠ .expired ∧ (x.status = .opened → w.Resolvable x)
  assets : ∀ asset ∈ w.assets, asset.OnTime w s

/-- What is offered for an asset is what can be called. -/
structure World.MirroredBy (w : World) (a : ID) (shown : Explorer.Asset) : Prop where
  flag : Explorer.Offers (Explorer.cranksForAsset shown) .flagDefault ↔ w.CanFlag a
  abort : Explorer.Offers (Explorer.cranksForAsset shown) .abortFailedRaise ↔ w.CanAbort a
  rollover : Explorer.Offers (Explorer.cranksForAccumulator shown) .sweepRollover ↔
    w.CanSweepRollover a
  compensation : Explorer.Offers (Explorer.cranksForAccumulator shown) .sweepCompensation ↔
    w.CanSweepCompensation a

/-- The keeper view mirrors the contract. -/
structure World.Mirrored (w : World) (s : Snapshot) (b : ID → AccumulatorBalances) : Prop where
  disputes : ∀ d x, w.disputes.get? d = some x → ∃ row, Explorer.disputeDetail s d = some row ∧
    ∀ now, (Explorer.mapDispute now row).status = x.status.named ∧
      (Explorer.Offers (Explorer.cranksForDispute (Explorer.mapDispute now row)) .resolveDispute ↔
        w.CanResolve d)
  assets : ∀ a asset, w.assets.get? a = some asset → ∃ shown,
    Explorer.getAsset (Explorer.assetResponses s (b a) a) = some shown ∧ w.MirroredBy a shown

namespace Indexer

variable {w : World} {h : List SuiEvent} {ps : List (Poll Module)} {s : Snapshot} {asset : Asset}

/-- A dispute is shown with the verdict of its row and without a deadline. -/
theorem disputeDetail_served (hr : w.Recorded h) (hc : Complete h ps)
    (hs : s.typed = typedTables h ps) {d : ID} {x : Dispute} (hx : w.disputes.get? d = some x) :
    ∃ row, Explorer.disputeDetail s d = some row ∧ row.number? "voting_deadline_ms" = none ∧
      row.number? "verdict" = if x.status = .opened then none else some (x.status.code : ℤ) := by
  obtain ⟨r, hget, hshows⟩ := disputeRow_served hr hc hx
  obtain rfl : x.id = d := Store.key_of_get? hx
  rw [← hs] at hget
  obtain ⟨l, hdetail, rfl⟩ := disputeDetail_row hget
  refine ⟨_, hdetail, rfl, ?_⟩
  rw [← hshows.verdict]
  show Option.bind (Option.map Json.number l.dispute.verdict) _ = _
  cases l.dispute.verdict <;> rfl

/-- The status shown is the one on chain, as long as the dispute did not expire. -/
theorem status_shown (now : ℤ) {row : JsonObject} {x : Dispute}
    (hdeadline : row.number? "voting_deadline_ms" = none)
    (hverdict : row.number? "verdict" =
      if x.status = .opened then none else some (x.status.code : ℤ)) :
    (Explorer.mapDispute now row).status = x.status.named ↔ x.status ≠ .expired := by
  show Explorer.disputeStatus now row = _ ↔ _
  unfold Explorer.disputeStatus
  rw [hverdict, hdeadline]
  cases x.status <;> simp [DisputeStatus.named, DisputeStatus.code]

/-! ## Pools shown -/

/-- The answer of a column in order is what was told last. -/
theorem balance_shown (c : BalanceColumn ℕ ℤ) (hr : w.Recorded h) (hc : Complete h ps)
    (hs : s.typed = typedTables h ps) {a : ID} (horder : c.InOrder a h) {v : Option ℤ}
    (hv : Latest c.column (balanceRows s.typed a) v) :
    v.getD (c.exact (c.held {})) = c.exact (c.held (poolsOf a w.events)) := by
  rw [← hr.events]
  rw [hs] at hv
  exact (c.served_iff hr (fun _ hx => mem_of_received hx) hc.ingested).mpr horder v hv

/-- A time of unlock that was told is served. -/
theorem unlock_served (hr : w.Recorded h) (hc : Complete h ps) (hs : s.typed = typedTables h ps)
    {a : ID} (hpool : 0 < (poolsOf a w.events).compensationPool) {v : Option ℤ}
    (hv : Latest (·.compensationUnlockMs) (balanceRows s.typed a) v) : v.isSome := by
  obtain ⟨e, he, hsome⟩ := unlock_told (fun _ he _ => hr.reachable.swept_zero he) hpool
  rw [← hr.events] at he
  obtain ⟨ev, hev, rfl⟩ := List.mem_map.mp he
  have hreport : ev ∈ compensationUnlockMsColumn.reports a h := List.mem_filter.mpr ⟨hev, hsome⟩
  -- the column keeps the greatest of its reports, and here there is one
  rw [hs] at hv
  rcases (compensationUnlockMsColumn.latest_iff hr (fun _ hx => mem_of_received hx)
    hc.ingested).mp hv with ⟨-, hnil⟩ | ⟨ev', hgreatest, rfl⟩
  · rw [hnil] at hreport
    cases hreport
  · rw [Option.isSome_map]
    exact (List.mem_filter.mp hgreatest.1).2

section Offered

variable {shown : Explorer.Asset} {r : AssetRow} {b : AccumulatorBalances}

/-- The accumulator of an asset is shown. -/
theorem accumulator_shown (hterms : r.ShowsTerms asset)
    (hshows : (Explorer.assetResponses s b asset.id).Shows ⟨r.json, some b.json⟩ shown) {g : ID}
    (hg : asset.accumulatorId = some g) : ∃ a, shown.accumulator = some a := by
  refine Option.isSome_iff_exists.mp (hshows.accumulator ?_)
  have hid := hterms.accumulatorId (by rw [hg]; rfl)
  show (Option.bind (Option.map Json.id r.accumulatorId) _).isSome
  obtain ⟨id, hid⟩ := Option.isSome_iff_exists.mp hid
  rw [hid]
  rfl

/-- A default is offered where the next tranche is late by the clock of the page. -/
theorem offers_flag_iff (hr : w.Recorded h) (hc : Complete h ps) (hs : s.typed = typedTables h ps)
    (hasset : w.assets.get? asset.id = some asset) (hread : asset.Readable w s h)
    (hshows : (Explorer.assetResponses s b asset.id).Shows ⟨r.json, some b.json⟩ shown)
    (hstate : shown.state = asset.state.named) :
    Explorer.Offers (Explorer.cranksForAsset shown) .flagDefault ↔ asset.state = .executing ∧
      ∃ t, asset.tranches[asset.nextTranche]? = some t ∧
        (t.deadlineMs : ℤ) < Explorer.fixedNow := by
  rw [Explorer.offers_flag, hstate]
  -- the state is shown as the chain has it
  have hnamed : asset.state.named = .executing ↔ asset.state = .executing := by
    cases asset.state <;> simp [AssetState.named]
  rw [hnamed]
  refine and_congr_right fun hexecuting => ?_
  obtain ⟨hcount, hdeadlines, hreleases⟩ := hread.tranches hexecuting
  -- an executing asset has a next tranche, which the schedule lists
  have hstage := (hr.reachable.sound hasset).stage
  obtain ⟨-, hnext⟩ : asset.escrow = asset.unreleased ∧
      asset.nextTranche < asset.tranches.length := by
    simpa only [Site.Stage, World.site, hexecuting] using hstage
  have ht := List.getElem?_eq_getElem hnext
  obtain ⟨rows, hrows⟩ : ∃ rows, (listTranches asset.id).matching s = some rows := ⟨_, rfl⟩
  have hdata := getList_fits (L := listTranches asset.id) (fun r => r.row.json) hrows
    (hreleases rows hrows)
  have hschedule : (listTrancheSchedule s.typed asset.id).map (·.json) ≠ [] := by
    obtain ⟨x, hx, -⟩ := schedule_of_tranche hr hc hasset hnext
    exact List.ne_nil_of_mem (List.mem_map_of_mem (hs ▸ hx))
  have henv := congrArg (Option.map fun data => Explorer.TranchesEnvelope.mk data
    ((listTrancheSchedule s.typed asset.id).map (·.json))) hdata
  have htranches := hshows.tranches _ henv hschedule
  -- the shown tranches are in order, so the first unreleased one is the next of the chain
  obtain ⟨y, hfind, hdeadline, happroved⟩ := shown_tranche hr hc hs hasset hcount hrows
    (hreleases rows hrows) hdata ht (hdeadlines _ ht)
  rw [htranches, hfind, ht]
  simp [hdeadline, happroved]

/-- The abort of a raise is offered when its deadline is over by the clock of the page. -/
theorem offers_abort_iff (hr : w.Recorded h) (hasset : w.assets.get? asset.id = some asset)
    (hread : asset.Readable w s h) (hterms : r.ShowsTerms asset)
    (hshows : (Explorer.assetResponses s b asset.id).Shows ⟨r.json, some b.json⟩ shown)
    (hraised : shown.raised = 0) (hstate : shown.state = asset.state.named) :
    Explorer.Offers (Explorer.cranksForAsset shown) .abortFailedRaise ↔
      asset.state = .funding ∧ (asset.fundingDeadlineMs : ℤ) < Explorer.fixedNow := by
  have hnamed : asset.state.named = .funding ↔ asset.state = .funding := by
    cases asset.state <;> simp [AssetState.named]
  rw [Explorer.offers_abort, hstate, hnamed]
  refine and_congr_right fun hfunding => ?_
  obtain ⟨hgoalFits, hdeadlineFits⟩ := hread.raise hfunding
  have hdeadline : shown.fundingDeadlineMs = asset.fundingDeadlineMs := by
    rw [hshows.fundingDeadlineMs]
    show r.fundingDeadlineMs = _
    rw [hterms.fundingDeadlineMs, asI64_eq_iff.mpr hdeadlineFits]
  have hgoal : shown.fundingGoal = (asset.fundingGoal : ℚ) / Explorer.micro := by
    rw [hshows.fundingGoal]
    show Explorer.usdc (some (Decimal.ofInt r.goal)) = _
    rw [Explorer.usdc_ofInt, hterms.goal, asI64_eq_iff.mpr hgoalFits]
    simp
  -- nothing of the raise is served, so it always looks short of its goal
  have hshort : shown.raised < shown.fundingGoal := by
    rw [hraised, hgoal]
    have hpos := (hr.reachable.sound hasset).scheduled.goal
    exact div_pos (Nat.cast_pos.mpr hpos) (by norm_num [Explorer.micro])
  rw [hdeadline]
  exact and_iff_left hshort

/-- The wrapped supply is shown as it was told last, or as nothing. -/
theorem wrapped_shown (hr : w.Recorded h) (hc : Complete h ps) (hs : s.typed = typedTables h ps)
    (hseq : s.Sequential asset.id h)
    (hwraps : ∀ rows, (listWrapRatio asset.id).matching s = some rows → rows.length ≤ 100)
    {total : ℕ} (htold : (told Event.wrapOf asset.id w.events).getLast?.getD 0 = total)
    (hfits : total < 2 ^ 63) :
    ((Explorer.assetResponses s b asset.id).wrapRatio.getD []).getLast?.elim 0
      (fun p => Explorer.usdc (p.string? "total_wrapped_after")) =
        (total : ℚ) / Explorer.micro := by
  obtain ⟨rows, hrows⟩ : ∃ rows, (listWrapRatio asset.id).matching s = some rows := ⟨_, rfl⟩
  have hpage : (Explorer.assetResponses s b asset.id).wrapRatio = _ :=
    getList_fits (L := listWrapRatio asset.id) (fun r => r.row.wrapRatioJson) hrows
      (hwraps rows hrows)
  rw [hpage, Option.getD_some, List.getLast?_map]
  cases hlast : (told Event.wrapOf asset.id w.events).getLast? with
  | none =>
    -- nothing was wrapped, so the page has no row
    have hnil : rows = [] := by
      refine List.eq_nil_iff_forall_not_mem.mpr fun x hx => ?_
      obtain ⟨-, ev, hev, -⟩ := wrap_of_row hr hc hs hrows hx
      obtain ⟨hmem, n, hof⟩ := mem_wraps.mp hev
      rw [List.getLast?_eq_none_iff, ← hr.events, told_wraps, List.filterMap_eq_nil_iff] at hlast
      have hnone := hlast ev hev
      rw [hof] at hnone
      cases hnone
    rw [hlast, Option.getD_none] at htold
    rw [hnil, ← htold]
    simp [Keyset.ordered]
  | some n =>
    obtain ⟨x, hx, htotal⟩ := last_wrap hr hc hs hrows hseq hlast
    rw [hlast, Option.getD_some] at htold
    rw [htold, asI64_eq_iff.mpr hfits] at htotal
    have hfield : x.row.wrapRatioJson.string? "total_wrapped_after" =
        some (Decimal.ofInt (total : ℤ)) := by
      show Option.bind (Option.map Json.amount x.row.totalWrappedAfter) _ = _
      rw [htotal]
      rfl
    rw [hx, Option.map_some, Option.elim_some, hfield, Explorer.usdc_ofInt, Int.cast_natCast]

/-- What is shown as minted is the goal, or nothing where the request of the holders fails. -/
theorem minted_shown (hget : s.typed.get? (.asset asset.id) = some (.asset r))
    (hgoal : r.goal = asset.fundingGoal) :
    ((Explorer.assetResponses s b asset.id).holders.elim 0 fun env =>
      Explorer.usdc env.totalMintedShares) =
        if ((holdersList asset.id).matching s).isSome then (asset.fundingGoal : ℚ) / Explorer.micro
        else 0 := by
  have hlist : Explorer.getList (holdersList asset.id) HolderFoldRow.json s (some 200) =
      ((holdersList asset.id).matching s).map _ := Explorer.getList_eq ..
  show (Explorer.holdersEnvelope s asset.id).elim 0 _ = _
  unfold Explorer.holdersEnvelope
  rw [hget]
  -- the total is shown only where the list of holders is served; it is the goal of the row
  cases hmatching : (holdersList asset.id).matching s with
  | none =>
    rw [hmatching, Option.map_none] at hlist
    rw [hlist]
    rfl
  | some rows =>
    rw [hmatching, Option.map_some] at hlist
    rw [hlist]
    show Explorer.usdc (some (Decimal.ofInt r.goal)) = _
    rw [Explorer.usdc_ofInt, hgoal, Int.cast_natCast]
    rfl

/-- What is parked is shown. -/
theorem reserve_shown (hshows : (Explorer.assetResponses s b asset.id).Shows
      ⟨r.json, some b.json⟩ shown) {a : Explorer.Accumulator} (ha : shown.accumulator = some a) :
    a.rolloverReserve = Explorer.usdc (b.rolloverReserve.map Decimal.ofInt) := by
  refine (hshows.reserve a ha).trans (congrArg Explorer.usdc ?_)
  show Option.bind (Option.map Json.amount b.rolloverReserve) _ = _
  cases b.rolloverReserve <;> rfl

/-- What is set aside for compensation is shown. -/
theorem pool_shown (hshows : (Explorer.assetResponses s b asset.id).Shows
      ⟨r.json, some b.json⟩ shown) {a : Explorer.Accumulator} (ha : shown.accumulator = some a) :
    a.compensationPool = Explorer.usdc (b.compensationPool.map Decimal.ofInt) := by
  refine (hshows.pool a ha).trans (congrArg Explorer.usdc ?_)
  show Option.bind (Option.map Json.amount b.compensationPool) _ = _
  cases b.compensationPool <;> rfl

/-- So is the time of its unlock. -/
theorem unlock_shown (hshows : (Explorer.assetResponses s b asset.id).Shows
      ⟨r.json, some b.json⟩ shown) {a : Explorer.Accumulator} (ha : shown.accumulator = some a) :
    a.compensationUnlockMs = b.compensationUnlockMs := by
  rw [hshows.unlock a ha]
  show Option.bind (Option.map Json.number b.compensationUnlockMs) _ = _
  cases b.compensationUnlockMs <;> rfl

/-- While revenue is parked, everything that is minted is wrapped. So the page shows something
    unwrapped exactly when the holders are served and a deed was redeemed. -/
theorem unwrapped_shown (hr : w.Recorded h) (hc : Complete h ps) (hs : s.typed = typedTables h ps)
    (hasset : w.assets.get? asset.id = some asset) (hread : asset.Readable w s h)
    (hget : s.typed.get? (.asset asset.id) = some (.asset r)) (hterms : r.ShowsTerms asset)
    (hshows : (Explorer.assetResponses s b asset.id).Shows ⟨r.json, some b.json⟩ shown)
    {a : Explorer.Accumulator} (ha : shown.accumulator = some a) {g : ID}
    {acc : GlobalYieldAccumulator} (hacc : w.accumulators.get? g = some acc)
    (hid : acc.assetId = asset.id) (hpos : 0 < acc.rolloverReserve) :
    0 < Explorer.unwrappedSupply shown ↔ ((holdersList asset.id).matching s).isSome ∧
      acc.totalMintedShares ≠ asset.fundingGoal := by
  obtain ⟨hgoalFits, hseq, hwraps⟩ := hread.parked acc (Store.mem_of_get? hacc) hid hpos
  have hidle : acc.totalMintedShares - acc.totalWrappedShares = 0 := hr.reachable.idle hacc hpos
  have hsound : acc.totalWrappedShares ≤ acc.totalMintedShares :=
    (hr.reachable.replay hacc).sound.1.supply
  obtain ⟨asset', hasset', hminted⟩ := World.minted hr.reachable g acc hacc
  rw [hid, hasset] at hasset'
  obtain rfl := Option.some.inj hasset'
  -- the last wrap told the present wrapped supply
  obtain ⟨n, hview⟩ := view_told hr.reachable hacc
  have htold : (told Event.wrapOf asset.id w.events).getLast?.getD 0 =
      acc.totalWrappedShares := by
    have hlast := field_viewOf (f := AccumulatorView.totalWrappedShares) accumulatorOf_wrapOf
      wrapped_edit acc.assetId (newView n) w.events
    rw [← hview, hid] at hlast
    exact hlast.symm
  have hshownWrapped := (hshows.wrapped a ha).trans
    (wrapped_shown hr hc hs hseq hwraps htold (by omega))
  have hshownMinted := (hshows.minted a ha).trans
    (minted_shown hget (hterms.goal.trans (asI64_eq_iff.mpr hgoalFits)))
  have hmicro : (0 : ℚ) < Explorer.micro := by norm_num [Explorer.micro]
  unfold Explorer.unwrappedSupply
  rw [ha, Option.elim_some, hshownWrapped, hshownMinted, lt_max_iff, or_iff_right (lt_irrefl 0),
    sub_pos]
  split
  next hholders =>
    rw [div_lt_div_iff_of_pos_right hmicro, Nat.cast_lt]
    exact ⟨fun hlt => ⟨hholders, by omega⟩, fun hne => by omega⟩
  next hholders =>
    refine iff_of_false (not_lt.mpr ?_) fun h => hholders h.1
    exact div_nonneg (Nat.cast_nonneg _) hmicro.le

/-- A sweep of what is parked is offered when the holders are served and a deed was redeemed. -/
theorem offers_rollover_iff (hr : w.Recorded h) (hc : Complete h ps)
    (hs : s.typed = typedTables h ps) (hasset : w.assets.get? asset.id = some asset)
    (hread : asset.Readable w s h) (hb : CurrentAccumulatorBalances s.typed asset.id b)
    (hget : s.typed.get? (.asset asset.id) = some (.asset r)) (hterms : r.ShowsTerms asset)
    (hshows : (Explorer.assetResponses s b asset.id).Shows ⟨r.json, some b.json⟩ shown) :
    Explorer.Offers (Explorer.cranksForAccumulator shown) .sweepRollover ↔
      ∃ g acc, asset.accumulatorId = some g ∧ w.accumulators.get? g = some acc ∧
        0 < acc.rolloverReserve ∧ ((holdersList asset.id).matching s).isSome ∧
        acc.totalMintedShares ≠ asset.fundingGoal := by
  rw [Explorer.offers_rollover]
  have hserved : b.rolloverReserve.getD 0 = (poolsOf asset.id w.events).rolloverReserve :=
    balance_shown rolloverReserveColumn hr hc hs hread.reserve hb.rolloverReserve
  constructor
  -- each side names the accumulator, which is the asset's own
  · rintro ⟨a, ha, hparked, hsupply⟩
    rw [reserve_shown hshows ha] at hparked
    have hpos := (usdc_map_pos hserved).mp hparked
    obtain ⟨g, acc, hg, hacc, hid, hpools⟩ :=
      pools_of_pos hr.reachable hasset Pools.rolloverReserve rfl hpos
    rw [hpools] at hpos
    exact ⟨g, acc, hg, hacc, hpos,
      (unwrapped_shown hr hc hs hasset hread hget hterms hshows ha hacc hid hpos).mp hsupply⟩
  · rintro ⟨g, acc, hg, hacc, hpos, hredeemed⟩
    obtain ⟨hid, hpools⟩ := pools_of_accumulator hr.reachable hasset hg hacc
    obtain ⟨a, ha⟩ := accumulator_shown hterms hshows hg
    refine ⟨a, ha, ?_,
      (unwrapped_shown hr hc hs hasset hread hget hterms hshows ha hacc hid hpos).mpr hredeemed⟩
    rw [reserve_shown hshows ha, usdc_map_pos hserved, hpools]
    exact hpos

/-- The sweep of the compensation pool is offered once it is unlocked by the clock of the page. -/
theorem offers_compensation_iff (hr : w.Recorded h) (hc : Complete h ps)
    (hs : s.typed = typedTables h ps) (hasset : w.assets.get? asset.id = some asset)
    (hread : asset.Readable w s h) (hb : CurrentAccumulatorBalances s.typed asset.id b)
    (hterms : r.ShowsTerms asset)
    (hshows : (Explorer.assetResponses s b asset.id).Shows ⟨r.json, some b.json⟩ shown) :
    Explorer.Offers (Explorer.cranksForAccumulator shown) .sweepCompensation ↔
      ∃ g acc, asset.accumulatorId = some g ∧ w.accumulators.get? g = some acc ∧
        0 < acc.compensationPool ∧ (acc.compensationUnlockMs : ℤ) ≤ Explorer.fixedNow := by
  rw [Explorer.offers_compensation]
  -- the two columns of the pool are the amounts last told
  have hserved : b.compensationPool.getD 0 = (poolsOf asset.id w.events).compensationPool :=
    balance_shown compensationPoolColumn hr hc hs hread.pool hb.compensationPool
  have hunlock : b.compensationUnlockMs.getD 0 = (poolsOf asset.id w.events).compensationUnlockMs :=
    balance_shown compensationUnlockMsColumn hr hc hs hread.unlock hb.compensationUnlockMs
  constructor
  · rintro ⟨a, unlock, ha, hshown, hms, hdue⟩
    rw [pool_shown hshows ha] at hshown
    have hpos := (usdc_map_pos hserved).mp hshown
    obtain ⟨g, acc, hg, hacc, -, hpools⟩ :=
      pools_of_pos hr.reachable hasset Pools.compensationPool rfl hpos
    rw [unlock_shown hshows ha] at hms
    rw [hms, Option.getD_some, hpools] at hunlock
    rw [hpools] at hpos
    exact ⟨g, acc, hg, hacc, hpos, hunlock ▸ hdue⟩
  · rintro ⟨g, acc, hg, hacc, hpos, hdue⟩
    obtain ⟨-, hpools⟩ := pools_of_accumulator hr.reachable hasset hg hacc
    have hpos' : 0 < (poolsOf asset.id w.events).compensationPool := hpools ▸ hpos
    obtain ⟨a, ha⟩ := accumulator_shown hterms hshows hg
    obtain ⟨unlock, hms⟩ := Option.isSome_iff_exists.mp
      (unlock_served hr hc hs hpos' hb.compensationUnlockMs)
    rw [hms, Option.getD_some, hpools] at hunlock
    refine ⟨a, unlock, ha, ?_, (unlock_shown hshows ha).trans hms, hunlock ▸ hdue⟩
    rw [pool_shown hshows ha, usdc_map_pos hserved]
    exact hpos'

end Offered

/-! ## The keeper view -/

/-- An open dispute is always offered for resolution, since its deadline is not shown. -/
theorem offers_resolve_iff (now : ℤ) {row : JsonObject} {x : Dispute}
    (hdeadline : row.number? "voting_deadline_ms" = none)
    (hverdict : row.number? "verdict" =
      if x.status = .opened then none else some (x.status.code : ℤ)) :
    Explorer.Offers (Explorer.cranksForDispute (Explorer.mapDispute now row)) .resolveDispute ↔
      x.status = .opened := by
  -- the verdict column is empty as long as the dispute is open
  have hstatus : (Explorer.mapDispute now row).status = .opened ↔ x.status = .opened := by
    show Explorer.disputeStatus now row = _ ↔ _
    unfold Explorer.disputeStatus
    rw [hverdict, hdeadline]
    cases x.status <;> simp [DisputeStatus.code]
  -- no deadline is served, so it is read as the epoch, which is past
  have hnow : (Explorer.mapDispute now row).votingDeadlineMs ≤ Explorer.fixedNow := by
    show (row.number? "voting_deadline_ms").getD 0 ≤ _
    rw [hdeadline]
    decide
  rw [Explorer.offers_resolve, hstatus]
  exact and_iff_left hnow

section Mirrored

variable {shown : Explorer.Asset} {r : AssetRow} {b : AccumulatorBalances}

/-- The accumulator that belongs to an asset. -/
theorem accumulator_of_asset (hw : Reachable w) (hasset : w.assets.get? asset.id = some asset)
    {acc : GlobalYieldAccumulator} : acc ∈ w.accumulators ∧ acc.assetId = asset.id ↔
      ∃ g, asset.accumulatorId = some g ∧ w.accumulators.get? g = some acc := by
  constructor
  · intro ⟨hmem, hid⟩
    have hacc : w.accumulators.get? acc.id = some acc := Store.get?_eq_some.mpr ⟨hmem, rfl⟩
    -- both sides are about the accumulator that the asset links to
    obtain ⟨asset', hasset', hg⟩ := hw.linked.asset hacc
    rw [hid, hasset] at hasset'
    obtain rfl := Option.some.inj hasset'
    exact ⟨acc.id, hg, hacc⟩
  · intro ⟨g, hg, hacc⟩
    obtain ⟨acc', hacc', hid⟩ := hw.linked.acc hasset hg
    obtain rfl := Option.some.inj (hacc.symm.trans hacc')
    exact ⟨Store.mem_of_get? hacc, hid⟩

/-- The offer to flag is right exactly when the tranche's deadline is past for the explorer iff it
    is for the chain, unapproved and with room for the grace period. -/
theorem flag_mirrored_iff (hr : w.Recorded h) (hc : Complete h ps)
    (hs : s.typed = typedTables h ps) (hasset : w.assets.get? asset.id = some asset)
    (hread : asset.Readable w s h)
    (hshows : (Explorer.assetResponses s b asset.id).Shows ⟨r.json, some b.json⟩ shown)
    (hstate : shown.state = asset.state.named) :
    (Explorer.Offers (Explorer.cranksForAsset shown) .flagDefault ↔ w.CanFlag asset.id) ↔
      (asset.state = .executing → ∀ t, asset.tranches[asset.nextTranche]? = some t →
        ((t.deadlineMs : ℤ) < Explorer.fixedNow ↔
          (t.approvedBy = none ∧ t.deadlineMs < w.clockMs) ∧
            w.clockMs + w.config.compensationGraceMs ≤ maxU64)) := by
  rw [offers_flag_iff hr hc hs hasset hread hshows hstate, hr.reachable.canFlag_iff hasset,
    and_congr_right_iff]
  refine forall_congr' fun hexecuting => ?_
  obtain ⟨t, ht, -⟩ := (hr.reachable.custodied hasset).next hexecuting
  rw [ofOption_eq_ok] at ht
  -- there is one next tranche
  simp only [Asset.InDefault, ht, Option.some.injEq, exists_eq_left', forall_eq']

/-- The offer to sweep a rollover is right exactly when no unit of an asset with a reserve has been
    redeemed. -/
theorem rollover_mirrored_iff (hr : w.Recorded h) (hc : Complete h ps)
    (hs : s.typed = typedTables h ps) (hasset : w.assets.get? asset.id = some asset)
    (hread : asset.Readable w s h) (hb : CurrentAccumulatorBalances s.typed asset.id b)
    (hget : s.typed.get? (.asset asset.id) = some (.asset r)) (hterms : r.ShowsTerms asset)
    (hshows : (Explorer.assetResponses s b asset.id).Shows ⟨r.json, some b.json⟩ shown) :
    (Explorer.Offers (Explorer.cranksForAccumulator shown) .sweepRollover ↔
      w.CanSweepRollover asset.id) ↔
      ∀ acc ∈ w.accumulators, acc.assetId = asset.id → 0 < acc.rolloverReserve →
        ((holdersList asset.id).matching s).isSome →
          acc.totalMintedShares = asset.fundingGoal := by
  rw [iff_false_right (hr.reachable.not_canSweepRollover _),
    offers_rollover_iff hr hc hs hasset hread hb hget hterms hshows]
  constructor
  · intro hno acc hmem hid hpos hholders
    obtain ⟨g, hg, hacc⟩ := (accumulator_of_asset hr.reachable hasset).mp ⟨hmem, hid⟩
    by_contra hne
    exact hno ⟨g, acc, hg, hacc, hpos, hholders, hne⟩
  · rintro hall ⟨g, acc, hg, hacc, hpos, hholders, hne⟩
    obtain ⟨hmem, hid⟩ := (accumulator_of_asset hr.reachable hasset).mpr ⟨g, hg, hacc⟩
    exact hne (hall acc hmem hid hpos hholders)

/-- The offer to sweep a pool is right exactly when it is due for the explorer iff it is for the
    chain, with room. -/
theorem compensation_mirrored_iff (hr : w.Recorded h) (hc : Complete h ps)
    (hs : s.typed = typedTables h ps) (hasset : w.assets.get? asset.id = some asset)
    (hread : asset.Readable w s h) (hb : CurrentAccumulatorBalances s.typed asset.id b)
    (hterms : r.ShowsTerms asset)
    (hshows : (Explorer.assetResponses s b asset.id).Shows ⟨r.json, some b.json⟩ shown) :
    (Explorer.Offers (Explorer.cranksForAccumulator shown) .sweepCompensation ↔
      w.CanSweepCompensation asset.id) ↔
      ∀ acc ∈ w.accumulators, acc.assetId = asset.id → 0 < acc.compensationPool →
        ((acc.compensationUnlockMs : ℤ) ≤ Explorer.fixedNow ↔
          acc.compensationUnlockMs ≤ w.clockMs ∧ acc.SweepRoom) := by
  rw [offers_compensation_iff hr hc hs hasset hread hb hterms hshows]
  constructor
  -- a pool that holds something: the offer and the call have only the time between them
  · intro hmirrored acc hmem hid hpool
    obtain ⟨g, hg, hacc⟩ := (accumulator_of_asset hr.reachable hasset).mp ⟨hmem, hid⟩
    rw [← hid, hr.reachable.canSweepCompensation_iff hacc] at hmirrored
    constructor
    · intro hdue
      exact (hmirrored.mp ⟨g, acc, hg, hacc, hpool, hdue⟩).2
    · intro hdue
      obtain ⟨g', acc', hg', hacc', -, hdue'⟩ := hmirrored.mpr ⟨hpool, hdue⟩
      obtain rfl := Option.some.inj (hg.symm.trans hg')
      obtain rfl := Option.some.inj (hacc.symm.trans hacc')
      exact hdue'
  · intro hall
    constructor
    · intro ⟨g, acc, hg, hacc, hpool, hdue⟩
      obtain ⟨hmem, hid⟩ := (accumulator_of_asset hr.reachable hasset).mpr ⟨g, hg, hacc⟩
      rw [← hid, hr.reachable.canSweepCompensation_iff hacc]
      exact ⟨hpool, (hall acc hmem hid hpool).mp hdue⟩
    · intro hcan
      obtain ⟨_, g, acc, hacc, hid, -⟩ := id hcan
      have hmem := Store.mem_of_get? hacc
      rw [← hid, hr.reachable.canSweepCompensation_iff hacc] at hcan
      obtain ⟨g', hg', hacc'⟩ := (accumulator_of_asset hr.reachable hasset).mp ⟨hmem, hid⟩
      exact ⟨g', acc, hg', hacc', hcan.1, (hall acc hmem hid hcan.1).mpr hcan.2⟩

/-- What is offered for an asset is what can be called exactly when the asset is on time. -/
theorem mirroredBy_iff (hr : w.Recorded h) (hc : Complete h ps) (hs : s.typed = typedTables h ps)
    (hasset : w.assets.get? asset.id = some asset) (hread : asset.Readable w s h)
    (hb : CurrentAccumulatorBalances s.typed asset.id b)
    (hget : s.typed.get? (.asset asset.id) = some (.asset r)) (hterms : r.ShowsTerms asset)
    (hshows : (Explorer.assetResponses s b asset.id).Shows ⟨r.json, some b.json⟩ shown)
    (hraised : shown.raised = 0) (hstate : shown.state = asset.state.named) :
    w.MirroredBy asset.id shown ↔ asset.OnTime w s := by
  -- one condition an offer
  have hflag := flag_mirrored_iff hr hc hs hasset hread hshows hstate
  have habort : (Explorer.Offers (Explorer.cranksForAsset shown) .abortFailedRaise ↔
      w.CanAbort asset.id) ↔ (asset.state = .funding →
        ((asset.fundingDeadlineMs : ℤ) < Explorer.fixedNow ↔
          asset.fundingDeadlineMs < w.clockMs ∧ asset.raised < asset.fundingGoal)) := by
    rw [offers_abort_iff hr hasset hread hterms hshows hraised hstate,
      hr.reachable.canAbort_iff hasset, and_congr_right_iff]
  have hrollover := rollover_mirrored_iff hr hc hs hasset hread hb hget hterms hshows
  have hcompensation := compensation_mirrored_iff hr hc hs hasset hread hb hterms hshows
  constructor
  · intro hm
    exact ⟨habort.mp hm.abort, hflag.mp hm.flag, hrollover.mp hm.rollover,
      hcompensation.mp hm.compensation⟩
  · intro ht
    exact ⟨hflag.mpr ht.tranche, habort.mpr ht.raise, hrollover.mpr ht.parked,
      hcompensation.mpr ht.pool⟩

end Mirrored

/-- A dispute is mirrored exactly when it did not expire and can be resolved while it is open. -/
theorem dispute_mirrored_iff (hr : w.Recorded h) {d : ID} {x : Dispute}
    (hx : w.disputes.get? d = some x) {row : JsonObject}
    (hdeadline : row.number? "voting_deadline_ms" = none)
    (hverdict : row.number? "verdict" =
      if x.status = .opened then none else some (x.status.code : ℤ)) :
    (∀ now, (Explorer.mapDispute now row).status = x.status.named ∧
      (Explorer.Offers (Explorer.cranksForDispute (Explorer.mapDispute now row)) .resolveDispute ↔
        w.CanResolve d)) ↔ x.status ≠ .expired ∧ (x.status = .opened → w.Resolvable x) := by
  have heach : ∀ now, ((Explorer.mapDispute now row).status = x.status.named ∧
      (Explorer.Offers (Explorer.cranksForDispute (Explorer.mapDispute now row)) .resolveDispute ↔
        w.CanResolve d)) ↔ x.status ≠ .expired ∧ (x.status = .opened → w.Resolvable x) := by
    intro now
    rw [status_shown now hdeadline hverdict, offers_resolve_iff now hdeadline hverdict,
      hr.reachable.canResolve_iff hx, iff_self_and]
  exact ⟨fun hall => (heach 0).mp (hall 0), fun hx now => (heach now).mpr hx⟩

/-- Where everything is readable, the keeper view mirrors the contract exactly when everything is
    on time. -/
theorem keeper_view {w : World} {h : List SuiEvent} {ps : List (Poll Module)} (hr : w.Recorded h)
    (hc : Complete h ps) {s : Snapshot} (hs : s.typed = typedTables h ps)
    {b : ID → AccumulatorBalances} (hb : ∀ a, CurrentAccumulatorBalances s.typed a (b a))
    (hread : ∀ asset ∈ w.assets, asset.Readable w s h) : w.Mirrored s b ↔ w.OnTime s := by
  -- the disputes and the assets are asked about one by one
  have hdispute : ∀ d x, w.disputes.get? d = some x → ((∃ row,
      Explorer.disputeDetail s d = some row ∧
      ∀ now, (Explorer.mapDispute now row).status = x.status.named ∧
        (Explorer.Offers (Explorer.cranksForDispute (Explorer.mapDispute now row)) .resolveDispute ↔
          w.CanResolve d)) ↔ x.status ≠ .expired ∧ (x.status = .opened → w.Resolvable x)) := by
    intro d x hx
    obtain ⟨row, hrow, hdeadline, hverdict⟩ := disputeDetail_served hr hc hs hx
    simp only [hrow, Option.some.injEq, exists_eq_left']
    exact dispute_mirrored_iff hr hx hdeadline hverdict
  have hassets : ∀ a asset, w.assets.get? a = some asset → ((∃ shown,
      Explorer.getAsset (Explorer.assetResponses s (b a) a) = some shown ∧
        w.MirroredBy a shown) ↔ asset.OnTime w s) := by
    intro a asset hasset
    obtain rfl : asset.id = a := Store.key_of_get? hasset
    obtain ⟨shown, r, hshown, hshows, hget, hterms, hraised, hstate⟩ :=
      asset_shown hr hc hs hasset (b asset.id)
    simp only [hshown, Option.some.injEq, exists_eq_left']
    exact mirroredBy_iff hr hc hs hasset (hread asset (Store.mem_of_get? hasset)) (hb _) hget hterms
      hshows hraised hstate
  constructor
  · intro hm
    exact {
      disputes := fun x hmem => (hdispute x.id x (Store.get?_eq_some.mpr ⟨hmem, rfl⟩)).mp
        (hm.disputes _ _ (Store.get?_eq_some.mpr ⟨hmem, rfl⟩))
      assets := fun asset hmem => (hassets asset.id asset (Store.get?_eq_some.mpr ⟨hmem, rfl⟩)).mp
        (hm.assets _ _ (Store.get?_eq_some.mpr ⟨hmem, rfl⟩)) }
  · intro ht
    exact {
      disputes := fun d x hx => (hdispute d x hx).mpr (ht.disputes x (Store.mem_of_get? hx))
      assets := fun a asset hasset =>
        (hassets a asset hasset).mpr (ht.assets asset (Store.mem_of_get? hasset)) }

end Indexer

open Sample

/-- After the grace window the sweep of the compensation pool of asset 4 is offered and can be
    made. -/
theorem keeper_view_restituted : ∃ (w : World) (h : List SuiEvent) (s : Snapshot)
    (b : ID → AccumulatorBalances), w.Recorded h ∧ s.typed = typedTables h cycle ∧
    w.CanSweepCompensation 4 ∧ w.Mirrored s b := by
  -- the run has compensated asset 4; its disputes are upheld, and its times are all past
  have hrun : returns (World.record (Entry.ofActions 1000 restituted)) (fun s =>
      complete s.2 cycle && decide ((typedTables s.2 cycle).rows.length < 2 ^ 63) &&
      s.1.disputes.entries.all (fun x => x.status = .upheld) &&
      s.1.assets.entries.all (fun asset => asset.state = .compensating ∧
        rolloverReserveColumn.InOrder asset.id s.2 ∧ compensationPoolColumn.InOrder asset.id s.2 ∧
        compensationUnlockMsColumn.InOrder asset.id s.2) &&
      s.1.accumulators.entries.all (fun acc => acc.rolloverReserve = 0 ∧
        (acc.compensationUnlockMs : ℤ) ≤ Explorer.fixedNow ∧
        acc.compensationUnlockMs ≤ s.1.clockMs ∧
        (acc.unwrapped = 0 ∨ acc.dustBound + acc.unwrapped / scale + 1 ≤ maxU64)) &&
      (s.1.accumulators.get? 8).any fun acc => acc.assetId = 4 ∧ 0 < acc.compensationPool)
      = true := by
    decide +kernel
  obtain ⟨s, hs, hq⟩ := returns_iff.mp hrun
  simp only [Bool.and_eq_true, decide_eq_true_eq, Option.any_eq_true, List.all_eq_true] at hq
  obtain ⟨⟨⟨⟨⟨hc, hsmall⟩, hdisputes⟩, hassets⟩, haccs⟩, acc, hacc, hid, hpool⟩ := hq
  have hr : s.1.Recorded s.2 := .of_record hs
  choose b hb using exists_balances (typedTables s.2 cycle)
  obtain ⟨hreserve, hnow, hdue, hroom⟩ := haccs acc (Store.mem_of_get? hacc)
  let snapshot : Snapshot := .numbered hr (fun _ hx => mem_of_received hx) hsmall
  -- the reports of the pool are in order here, and the other conditions are about other states
  have hread : ∀ asset ∈ s.1.assets, asset.Readable s.1 snapshot s.2 := by
    intro asset hasset
    obtain ⟨hstate, hreserve, hpool, hunlock⟩ := hassets asset hasset
    refine ⟨?_, ?_, ?_, hreserve, hpool, hunlock⟩
    · intro hfunding
      rw [hstate] at hfunding
      cases hfunding
    · intro hexecuting
      rw [hstate] at hexecuting
      cases hexecuting
    · intro acc hacc _ hpos
      rw [(haccs acc hacc).1] at hpos
      cases hpos
  -- the one offer that matters is due on both sides
  have htime : s.1.OnTime snapshot := by
    constructor
    · intro x hx
      rw [hdisputes x hx]
      constructor <;> intro heq <;> cases heq
    · intro asset hasset
      have hstate := (hassets asset hasset).1
      constructor
      · intro hfunding
        rw [hstate] at hfunding
        cases hfunding
      · intro hexecuting
        rw [hstate] at hexecuting
        cases hexecuting
      · intro acc hacc _ hpos
        rw [(haccs acc hacc).1] at hpos
        cases hpos
      · intro acc hacc _ _
        obtain ⟨-, hnow, hdue, hroom⟩ := haccs acc hacc
        exact iff_of_true hnow ⟨hdue, hroom⟩
  refine ⟨s.1, s.2, snapshot, b, hr, rfl, ?_,
    (keeper_view hr (complete_of_check hc) rfl hb hread).mpr htime⟩
  rw [← hid, hr.reachable.canSweepCompensation_iff hacc]
  exact ⟨hpool, hdue, hroom⟩

/-- Dispute 11 is open until a deadline in the future, and its resolution is offered. -/
theorem resolution_offered_early : ¬ ∀ {w : World} {h : List SuiEvent} {ps : List (Poll Module)},
    w.Recorded h → Complete h ps → ∀ {s : Snapshot}, s.typed = typedTables h ps →
    ∀ {b : ID → AccumulatorBalances}, (∀ a, CurrentAccumulatorBalances s.typed a (b a)) →
      w.Mirrored s b := by
  intro hclaim
  -- the dispute of this run is open and its deadline is still ahead
  have hrun : returns (World.record challenged) (fun s =>
      complete s.2 cycle && decide ((typedTables s.2 cycle).rows.length < 2 ^ 63) &&
      (s.1.disputes.get? 11).any fun x => x.status = .opened ∧ s.1.clockMs < x.votingDeadlineMs)
      = true := by
    decide +kernel
  obtain ⟨s, hs, hq⟩ := returns_iff.mp hrun
  simp only [Bool.and_eq_true, decide_eq_true_eq, Option.any_eq_true] at hq
  obtain ⟨⟨hc, hsmall⟩, x, hx, hopen, hearly⟩ := hq
  have hr : s.1.Recorded s.2 := .of_record hs
  choose b hb using exists_balances (typedTables s.2 cycle)
  have hmirrored := hclaim hr (complete_of_check hc)
    (s := .numbered hr (fun _ hx => mem_of_received hx) hsmall) rfl hb
  obtain ⟨row, hrow, hshown⟩ := hmirrored.disputes 11 x hx
  obtain ⟨row', hrow', hdeadline, hverdict⟩ := disputeDetail_served hr (complete_of_check hc)
    (s := .numbered hr (fun _ hx => mem_of_received hx) hsmall) rfl hx
  obtain rfl := Option.some.inj (hrow.symm.trans hrow')
  -- the explorer offers to resolve it, while the contract would abort
  have hoffered := (offers_resolve_iff 0 hdeadline hverdict).mpr hopen
  obtain ⟨-, hdue, -⟩ := (hr.reachable.canResolve_iff hx).mp ((hshown 0).2.mp hoffered)
  exact absurd hdue (Nat.not_le.mpr hearly)

end Gally

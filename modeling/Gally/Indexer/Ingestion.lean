import Gally.Indexer.Handlers
import Gally.Library.Feed

/-!
# The ingestion loop (`ingestion/mod.rs`, `ws.rs`)

`processEvent` archives an event, runs its handler and pushes it to subscribers. A database error
in the handler leaves what was written before it; one while archiving stops the process. The loop
polls the modules in pages, so what is processed is what a `Feed.Reader` receives.

## Key results

- `tables`: the typed tables as a projection of the processed events
- `processAll_eq`: what the loop stores and sends for a sequence of events
-/

namespace Gally

open Relational

namespace Event

/-- The module that defines the event's struct (`MoveEventModule`). -/
def module : Event → Module
  | .protocolInitialized .. | .protocolParamChanged .. | .protocolTreasuryChanged ..
  | .emergencyStopTriggered .. | .protocolResumed .. => .protocol
  | .validatorRegistered .. | .stakeAdded .. | .stakeWithdrawn .. | .validatorStatusChanged .. =>
    .validator
  | .rolloverSwept .. | .yieldClaimed .. | .compensationSwept .. | .sharesWrapped ..
  | .sharesUnwrapped .. | .shareRedeemed .. | .dustSwept .. => .accumulator
  | .assetCreated .. | .assetStateChanged .. | .assetVouched .. | .assetCancelled ..
  | .capitalContributed .. | .raiseFinalized .. | .raiseAborted .. | .contributionRefunded ..
  | .sharesClaimed .. | .milestoneProofSubmitted .. | .milestoneApproved .. | .trancheReleased ..
  | .assetBecameOperational .. | .entityDefaulted .. | .assetClosed .. | .revenueDeposited .. =>
    .asset
  | .disputeOpened .. | .jurorVoted .. | .disputeResolved .. | .jurorRewardClaimed .. => .dispute

/-- The rows that the rows of an event refer to. -/
def needs : Event → List Indexer.Key
  | .stakeAdded p .. | .stakeWithdrawn p .. | .validatorStatusChanged p .. => [.validatorPool p]
  | .rolloverSwept a .. | .yieldClaimed a .. | .compensationSwept a .. | .sharesWrapped a ..
  | .sharesUnwrapped a .. | .shareRedeemed a .. | .dustSwept a .. => [.asset a]
  | .assetStateChanged a .. | .capitalContributed a .. | .contributionRefunded a ..
  | .sharesClaimed a .. | .milestoneProofSubmitted a .. | .milestoneApproved a ..
  | .trancheReleased a .. | .entityDefaulted a .. | .revenueDeposited a .. => [.asset a]
  | .disputeOpened _ a p .. => [.asset a, .validatorPool p]
  | .jurorVoted d .. | .jurorRewardClaimed d .. => [.dispute d]
  | .disputeResolved _ a .. => [.asset a]
  | _ => []

end Event

namespace Indexer

/-- The module a poll finds the event in. -/
def eventModule (ev : SuiEvent) : Module := ev.event.module

/-! ## Typed tables -/

/-- The rows of a new asset after the first refer to it only. -/
theorem tidy_assetCreated (m : EventMeta) (row : AssetRow) (amounts deadlinesMs : List ℕ)
    (descriptions : List Bytes) : Tidy [] (.insert (Row.asset row) ::
      insertTrancheSchedule row.assetId amounts deadlinesMs descriptions ++
      [insertStateChange m row.assetId 0 0]) := by
  -- the schedule and the state change are inserts that refer to the new asset
  have hshape : insertTrancheSchedule row.assetId amounts deadlinesMs descriptions ++
      [insertStateChange m row.assetId 0 0] =
      ((trancheSchedule amounts deadlinesMs descriptions).map (fun t => Row.trancheSchedule
        ⟨row.assetId, t.1, t.2.1, t.2.2.1, t.2.2.2⟩) ++
        [Row.stateChange ⟨m, row.assetId, 0, 0⟩]).map (.insert : Row → Statement) := by
    simp [insertTrancheSchedule, insertStateChange]
  rw [List.cons_append, hshape]
  refine tidy_insertAll rfl fun q hq => ?_
  rcases List.mem_append.mp hq with hq | hq
  · obtain ⟨t, -, rfl⟩ := List.mem_map.mp hq
    rfl
  · rw [List.mem_singleton.mp hq]
    rfl

/-- The statements of every event are tidy, given the rows it needs. -/
theorem tidy_routeEvent (ev : SuiEvent) : Tidy ev.event.needs (routeEvent ev) := by
  obtain ⟨id, timestampMs, e⟩ := ev
  cases e with
  | assetCreated => exact tidy_assetCreated ..
  | assetVouched | assetClosed | assetBecameOperational | raiseFinalized => exact tidy_update
  | assetCancelled | raiseAborted => exact tidy_nil
  | assetStateChanged | validatorStatusChanged => exact tidy_insert_update rfl nofun
  | yieldClaimed | revenueDeposited | rolloverSwept | compensationSwept | dustSwept =>
    exact tidy_insert_insert rfl rfl
  | disputeResolved => exact tidy_update_insert rfl nofun
  | _ => exact tidy_insert rfl

/-- The typed tables as a projection of the events. -/
def tables : Projection SuiEvent Row where
  batch := routeEvent
  needs ev := ev.event.needs
  tidy := tidy_routeEvent

/-! ## The archive -/

/-- A row of `raw_events`; `event` stands for its type and payload. -/
structure RawEventRow where
  txDigest : Digest
  eventSeq : ℤ
  checkpointSeq : ℤ
  timestampMs : ℤ
  event : Event
  deriving DecidableEq, Repr

instance : Schema RawEventRow (Digest × ℤ) Empty where
  key r := (r.txDigest, r.eventSeq)
  refs _ := []
  storable _ := true
  assign a := a.elim
  key_assign a := a.elim

/-- The archived form of an event. -/
def SuiEvent.raw (ev : SuiEvent) : RawEventRow where
  txDigest := ev.id.txDigest
  eventSeq := parseI32 ev.id.eventSeq
  checkpointSeq := 0
  timestampMs := parseI64 ev.timestampMs
  event := ev.event

/-- Archive one event. -/
def storeEvent (rawEvents : Relation RawEventRow) (ev : SuiEvent) :
    Option (Relation RawEventRow) := rawEvents.exec (.insert (SuiEvent.raw ev))

/-! ## Live push -/

/-- A WebSocket channel. -/
inductive Channel where
  | asset (id : ID)
  | address (addr : Address)
  | dispute (id : ID)
  deriving DecidableEq, Repr

/-- The channels an event is sent to: by its `asset_id`, its `holder` or `contributor`, and its
    `dispute_id`. -/
def channels : Event → List Channel
  | .protocolInitialized .. | .protocolParamChanged .. | .protocolTreasuryChanged ..
  | .emergencyStopTriggered .. | .protocolResumed .. | .validatorRegistered .. | .stakeAdded ..
  | .stakeWithdrawn .. => []
  | .validatorStatusChanged _ _ _ disputeId => disputeId.toList.map .dispute
  | .rolloverSwept a .. | .compensationSwept a .. | .dustSwept a .. | .assetCreated a ..
  | .assetStateChanged a .. | .assetVouched a .. | .assetCancelled a | .raiseFinalized a ..
  | .raiseAborted a .. | .milestoneProofSubmitted a .. | .milestoneApproved a ..
  | .trancheReleased a .. | .assetBecameOperational a .. | .entityDefaulted a ..
  | .assetClosed a .. | .revenueDeposited a .. => [.asset a]
  | .yieldClaimed a addr .. | .sharesWrapped a addr .. | .sharesUnwrapped a addr ..
  | .shareRedeemed a addr .. | .sharesClaimed a addr .. | .capitalContributed a addr ..
  | .contributionRefunded a addr .. => [.asset a, .address addr]
  | .disputeOpened d a .. | .disputeResolved d a .. => [.asset a, .dispute d]
  | .jurorVoted d .. | .jurorRewardClaimed d .. => [.dispute d]

/-- The subscribers of each channel. -/
structure Hub where
  subscribers : Channel → List ℕ

/-- The frames sent out for an event, each with the subscriber that gets it. -/
def Hub.publishEvent (hub : Hub) (ev : SuiEvent) : List (ℕ × SuiEvent) :=
  (channels ev.event).flatMap fun c => (hub.subscribers c).map fun s => (s, ev)

/-! ## Processing an event -/

/-- What the indexer has stored. -/
structure Database where
  rawEvents : Relation RawEventRow
  typed : Relation Row

instance : EmptyCollection Database := ⟨⟨∅, ∅⟩⟩

/-- A transient database error: while archiving, or at one statement of the handler. -/
inductive Fault where
  | store
  | statement (i : ℕ)
  deriving DecidableEq, Repr

/-- The statements of the handler before the error. -/
def reached (fault : Option Fault) (ss : List Statement) : List Statement :=
  match fault with
  | some (.statement i) => ss.take i
  | _ => ss

/-- Archive, route and broadcast one event. An error while archiving is returned; one in the
    handler is logged and skipped. -/
def processEvent (hub : Hub) (fault : Option Fault) (db : Database) (ev : SuiEvent) :
    Option (Database × List (ℕ × SuiEvent)) :=
  if fault = some .store then none
  else do
    let rawEvents ← storeEvent db.rawEvents ev
    let typed := (db.typed.execAll (reached fault (routeEvent ev))).1
    return (⟨rawEvents, typed⟩, hub.publishEvent ev)

/-- Archiving without an error never fails, and never changes an archived event. -/
theorem storeEvent_eq (rawEvents : Relation RawEventRow) (ev : SuiEvent) :
    ∃ rawEvents', storeEvent rawEvents ev = some rawEvents' ∧
      rawEvents'.Has (ev.id.txDigest, parseI32 ev.id.eventSeq) ∧
      ∀ k r, rawEvents.get? k = some r → rawEvents'.get? k = some r := by
  have hkey : Schema.key (SuiEvent.raw ev) = (ev.id.txDigest, parseI32 ev.id.eventSeq) := rfl
  by_cases h : rawEvents.get? (Schema.key (SuiEvent.raw ev)) = none
  · refine ⟨_, Relation.exec_insert_of_refs rfl h nofun, ?_, fun k r hr => ?_⟩
    · exact (Relation.has_append h).mpr (.inr hkey)
    · rw [Relation.get?_append, hr, Option.some_or]
  -- an event that was archived before is left as it is
  · have hhas := Option.isSome_iff_ne_none.mpr h
    exact ⟨_, Relation.exec_insert_of_has rfl hhas, hhas, fun _ _ hr => hr⟩

/-- What the loop does with an event while the database works. -/
theorem processEvent_eq (hub : Hub) (db : Database) (ev : SuiEvent) {fault : Option Fault}
    (hfault : fault ≠ some .store) :
    ∃ rawEvents, storeEvent db.rawEvents ev = some rawEvents ∧ processEvent hub fault db ev =
      some (⟨rawEvents, (db.typed.execAll (reached fault (routeEvent ev))).1⟩,
        hub.publishEvent ev) := by
  obtain ⟨rawEvents, hstore, -⟩ := storeEvent_eq db.rawEvents ev
  refine ⟨rawEvents, hstore, ?_⟩
  rw [processEvent, if_neg hfault, hstore]
  rfl

/-! ## Sequences of events -/

/-- An event and the error it is processed with. -/
abbrev Delivery := SuiEvent × Option Fault

/-- The typed tables as a projection of the deliveries. -/
def delivered : Projection Delivery Row where
  batch d := reached d.2 (routeEvent d.1)
  needs d := d.1.event.needs
  tidy := by
    intro ⟨ev, fault⟩
    cases fault with
    | none => exact tidy_routeEvent ev
    | some fault =>
      cases fault with
      | store => exact tidy_routeEvent ev
      | statement i => exact (tidy_routeEvent ev).take

/-- Events processed without an error. -/
abbrev sound (evs : List SuiEvent) : List Delivery := evs.map fun ev => (ev, none)

/-- Events without faults are ingested as the tables ingest them. -/
theorem delivered_sound (typed : Relation Row) (evs : List SuiEvent) :
    delivered.ingest typed (sound evs) = tables.ingest typed evs := by
  induction evs generalizing typed with
  | nil => rfl
  | cons ev evs ih => exact ih _

/-- Process the events of a run; an error while archiving ends it. -/
def processAll (hub : Hub) (db : Database) :
    List Delivery → Option (Database × List (ℕ × SuiEvent))
  | [] => some (db, [])
  | (ev, fault) :: ds => do
    let (db, frames) ← processEvent hub fault db ev
    let (db, frames') ← processAll hub db ds
    return (db, frames ++ frames')

/-- What a run stores and sends. -/
theorem processAll_eq (hub : Hub) (db : Database) {ds : List Delivery}
    (hfaults : ∀ d ∈ ds, d.2 ≠ some .store) :
    ∃ rawEvents, processAll hub db ds = some (⟨rawEvents, delivered.ingest db.typed ds⟩,
      ds.flatMap fun d => hub.publishEvent d.1) := by
  induction ds generalizing db with
  -- each event ends in its own state of the archive; the frames follow one another
  | nil => exact ⟨db.rawEvents, rfl⟩
  | cons d ds ih =>
    obtain ⟨ev, fault⟩ := d
    obtain ⟨first, -, hfirst⟩ := processEvent_eq hub db ev (hfaults _ List.mem_cons_self)
    obtain ⟨rest, hrest⟩ := ih ⟨first, (db.typed.execAll (reached fault (routeEvent ev))).1⟩
      fun d hd => hfaults d (List.mem_cons_of_mem _ hd)
    refine ⟨rest, ?_⟩
    simp only [processAll, hfirst, hrest, Option.bind_eq_bind, Option.bind_some]
    rfl

/-- Without errors. -/
theorem processAll_sound (hub : Hub) (db : Database) (evs : List SuiEvent) :
    ∃ rawEvents, processAll hub db (sound evs) = some (⟨rawEvents, tables.ingest db.typed evs⟩,
      evs.flatMap hub.publishEvent) := by
  have hfaults : ∀ d ∈ sound evs, d.2 ≠ some .store := by
    intro d hd
    obtain ⟨ev, -, rfl⟩ := List.mem_map.mp hd
    exact nofun
  obtain ⟨rawEvents, heq⟩ := processAll_eq hub db hfaults
  refine ⟨rawEvents, ?_⟩
  rw [heq, delivered_sound, List.flatMap_map]

/-- The loop under a schedule of polls and restarts, while the database works. A poll that fails
    is one that brings no event. -/
def run (hub : Hub) (h : List SuiEvent) (ps : List (Feed.Poll Module)) :
    Option (Database × List (ℕ × SuiEvent)) :=
  processAll hub ∅ (sound (Feed.Reader.polls eventModule h ps).received)

/-- What a run leaves in the tables is what the events it received write. -/
theorem run_typed {hub : Hub} {h : List SuiEvent} {ps : List (Feed.Poll Module)} {db : Database}
    {frames : List (ℕ × SuiEvent)} (hrun : run hub h ps = some (db, frames)) :
    db.typed = tables.ingest ∅ (Feed.Reader.polls eventModule h ps).received := by
  obtain ⟨rawEvents, heq⟩ := processAll_sound hub ∅ (Feed.Reader.polls eventModule h ps).received
  rw [run, heq] at hrun
  obtain ⟨rfl, -⟩ := Prod.mk.inj (Option.some.inj hrun)
  rfl

end Indexer

end Gally

import Gally.Law.Shown

/-!
# Numbers through the indexer

Every number that a handler stores is a `u64` or a `u128` of an event. It goes through a column and
comes out in a field of the object that is served of the row. A `BIGINT` column holds a `u64` as an
`i64`, an `INT` column as an `i32`, and the value of a `u128` is kept. So a number is served as it
was emitted exactly if it fits its column (`numbers_served`).
-/

namespace Gally

open Checked Relational Feed

namespace Indexer

/-! ## Numbers of an event -/

/-- How a number is stored and served: an amount in a `BIGINT` column and as a string, a time in a
    `BIGINT` column and as a number, a count in an `INT` column and as a number, and an index in a
    `NUMERIC(39,0)` column and as a string. -/
inductive NumberColumn where
  | amount | timeMs | count | index
  deriving DecidableEq, Repr

namespace NumberColumn

/-- What a column holds of a number. -/
def store : NumberColumn → ℕ → ℤ
  | .amount, v | .timeMs, v => asI64 v
  | .count, v => asI32 v
  | .index, v => v

/-- What is served of it. -/
def json : NumberColumn → ℕ → Json
  | .amount, v => .amount (asI64 v)
  | .timeMs, v => .number (asI64 v)
  | .count, v => .number (asI32 v)
  | .index, v => .index v

/-- The column can hold the number. -/
def Fits : NumberColumn → ℕ → Prop
  | .amount, v | .timeMs, v => v < 2 ^ 63
  | .count, v => v < 2 ^ 31
  | .index, _ => True

instance : ∀ (c : NumberColumn) (v : ℕ), Decidable (c.Fits v)
  | .amount, v | .timeMs, v => inferInstanceAs (Decidable (v < 2 ^ 63))
  | .count, v => inferInstanceAs (Decidable (v < 2 ^ 31))
  | .index, _ => inferInstanceAs (Decidable True)

end NumberColumn

/-- Half of the counters are kept by the cast to 32 bits. -/
theorem asI32_eq_iff {v : ℕ} : asI32 v = v ↔ v < 2 ^ 31 := by
  unfold asI32
  rw [Int.bmod_def]
  omega

/-- A column keeps a number exactly when it fits. -/
theorem NumberColumn.store_eq_iff (c : NumberColumn) (v : ℕ) : c.store v = v ↔ c.Fits v := by
  cases c with
  | amount => exact asI64_eq_iff
  | timeMs => exact asI64_eq_iff
  | count => exact asI32_eq_iff
  | index => exact iff_of_true rfl trivial

/-- A number of an event: the row that it is stored in, and the field that serves it. -/
structure StoredNumber where
  key : Key
  field : String
  column : NumberColumn
  value : ℕ

/-- The numbers that an event tells of what it is about. The amounts of `juror_rewards` and
    `dust_sweeps` are left out: no route reads these tables. -/
def numbersOf (ev : SuiEvent) : List StoredNumber :=
  let key := (EventMeta.fromEvent ev).key
  match ev.event with
  | .protocolParamChanged _ oldValue newValue =>
    [⟨key .governanceEvents, "old_value", .amount, oldValue⟩,
     ⟨key .governanceEvents, "new_value", .amount, newValue⟩]
  | .assetCreated a _ goal fundingDeadlineMs trancheCount revenueSplitBps collateral _ _ _ _ _ _ _
      isTermFinancing returnTarget _ _ _ =>
    [⟨.asset a, "goal", .amount, goal⟩,
     ⟨.asset a, "funding_deadline_ms", .timeMs, fundingDeadlineMs⟩,
     ⟨.asset a, "tranche_count", .count, trancheCount⟩,
     ⟨.asset a, "revenue_split_bps", .count, revenueSplitBps⟩,
     ⟨.asset a, "collateral", .amount, collateral⟩] ++
    if isTermFinancing then [⟨.asset a, "return_target", .amount, returnTarget⟩] else []
  | .assetVouched a _ _ coverage _ => [⟨.asset a, "coverage", .amount, coverage⟩]
  | .validatorRegistered p _ stake _ => [⟨.validatorPool p, "initial_stake", .amount, stake⟩]
  | .stakeAdded _ _ amount stakeAfter | .stakeWithdrawn _ _ amount stakeAfter =>
    [⟨key .validatorStakeEvents, "amount", .amount, amount⟩,
     ⟨key .validatorStakeEvents, "stake_after", .amount, stakeAfter⟩]
  | .capitalContributed _ _ amount raisedAfter =>
    [⟨key .raiseProgress, "amount", .amount, amount⟩,
     ⟨key .raiseProgress, "raised_after", .amount, raisedAfter⟩]
  | .sharesClaimed _ _ count _ | .shareRedeemed _ _ count _ =>
    [⟨key .positionEvents, "amount", .amount, count⟩]
  | .sharesWrapped _ _ count totalWrappedAfter | .sharesUnwrapped _ _ count _ totalWrappedAfter =>
    [⟨key .positionEvents, "amount", .amount, count⟩,
     ⟨key .positionEvents, "total_wrapped_after", .amount, totalWrappedAfter⟩]
  | .yieldClaimed _ _ amount indexAtClaim _ =>
    [⟨key .positionEvents, "amount", .amount, amount⟩,
     ⟨key .positionEvents, "index_at_claim", .index, indexAtClaim⟩]
  | .contributionRefunded _ _ amount => [⟨key .positionEvents, "amount", .amount, amount⟩]
  | .revenueDeposited _ gross fee investorPortion entityPortion indexAfter unwrappedSupply _ _ =>
    [⟨key .yieldIndexSeries, "gross", .amount, gross⟩,
     ⟨key .yieldIndexSeries, "fee", .amount, fee⟩,
     ⟨key .yieldIndexSeries, "investor_portion", .amount, investorPortion⟩,
     ⟨key .yieldIndexSeries, "entity_portion", .amount, entityPortion⟩,
     ⟨key .yieldIndexSeries, "index_after", .index, indexAfter⟩,
     ⟨key .yieldIndexSeries, "unwrapped_supply", .amount, unwrappedSupply⟩]
  | .rolloverSwept _ _ indexAfter unwrappedSupply _ _
  | .compensationSwept _ _ indexAfter unwrappedSupply _ _ _ _ _ =>
    [⟨key .yieldIndexSeries, "index_after", .index, indexAfter⟩,
     ⟨key .yieldIndexSeries, "unwrapped_supply", .amount, unwrappedSupply⟩]
  | .milestoneProofSubmitted _ tranche _ _ | .milestoneApproved _ tranche _ _ =>
    [⟨key .trancheEvents, "tranche_index", .count, tranche⟩]
  | .trancheReleased _ tranche amount escrowAfter =>
    [⟨key .trancheEvents, "tranche_index", .count, tranche⟩,
     ⟨key .trancheEvents, "amount", .amount, amount⟩,
     ⟨key .trancheEvents, "escrow_after", .amount, escrowAfter⟩]
  | .disputeOpened d _ _ _ bond _ _ => [⟨.dispute d, "bond", .amount, bond⟩]
  | .jurorVoted _ _ _ votesGuiltyAfter votesInnocentAfter =>
    [⟨key .juryVotes, "votes_guilty_after", .count, votesGuiltyAfter⟩,
     ⟨key .juryVotes, "votes_innocent_after", .count, votesInnocentAfter⟩]
  | .disputeResolved d _ _ _ slashed bounty _ _ _ _ =>
    [⟨.dispute d, "slashed", .amount, slashed⟩, ⟨.dispute d, "bounty", .amount, bounty⟩]
  | _ => []

/-- A number of a schedule: the asset, the tranche, and the field that serves it. -/
structure ScheduledNumber where
  assetId : ID
  tranche : ℕ
  field : String
  value : ℕ

/-- The amounts and deadlines of the tranches of a listing. -/
def scheduleOf (ev : SuiEvent) : List ScheduledNumber :=
  match ev.event with
  | .assetCreated a _ _ _ _ _ _ _ _ _ _ _ _ _ _ _ amounts deadlinesMs _ =>
    (amounts.zipIdx.map fun (amount, i) => ⟨a, i, "amount", amount⟩) ++
    deadlinesMs.zipIdx.map fun (deadlineMs, i) => ⟨a, i, "deadline_ms", deadlineMs⟩
  | _ => []

/-! ## Numbers served -/

/-- The integer that a JSON value denotes. -/
def Json.integer? : Json → Option ℤ
  | .string s => Decimal.parseInt s
  | .number v => some v
  | .boolean _ => none

/-- The integer in a field. -/
def JsonObject.integer? (o : JsonObject) (field : String) : Option ℤ :=
  (o.get? field).bind Json.integer?

seal asI64 asI32

/-- What is served denotes what is stored. -/
theorem NumberColumn.integer?_json (c : NumberColumn) (v : ℕ) :
    (c.json v).integer? = some (c.store v) := by
  cases c with
  | amount => exact Decimal.parseInt_ofInt _
  | timeMs => rfl
  | count => rfl
  | index => exact Decimal.parseInt_ofNat v

/-- The object that is served of a row, for all tables but `disputes`. -/
def Row.json? : Row → Option JsonObject
  | .governance r => some r.json
  | .asset r => some r.json
  | .trancheSchedule r => some r.json
  | .stateChange r => some r.json
  | .validatorPool r => some r.json
  | .stakeEvent r => some r.json
  | .statusChange r => some r.json
  | .raiseProgress r => some r.json
  | .position r => some r.json
  | .yieldIndex r => some r.json
  | .trancheEvent r => some r.json
  | .juryVote r => some r.json
  | .dispute _ | .jurorReward _ | .dustSweep _ | .accumulatorBalance _ => none

/-- The object that is served of the row under a key. -/
def Snapshot.object? (s : Snapshot) : Key → Option JsonObject
  | .dispute d => Explorer.disputeDetail s d
  | k => (s.typed.get? k).bind Row.json?

/-- A number is served as it was emitted. -/
def Snapshot.Serves (s : Snapshot) (key : Key) (field : String) (value : ℕ) : Prop :=
  (s.object? key).bind (·.integer? field) = some (value : ℤ)

variable {w : World} {h : List SuiEvent} {ps : List (Poll Module)} {s : Snapshot} {ev : SuiEvent}
  {key : Key} {o : JsonObject} {field : String} {v : ℕ}

/-- A field holds what its column stores. -/
theorem serves_iff (c : NumberColumn) (hobject : s.object? key = some o)
    (hfield : o.get? field = some (c.json v)) : s.Serves key field v ↔ c.Fits v := by
  unfold Snapshot.Serves JsonObject.integer?
  rw [hobject, Option.bind_some, hfield, Option.bind_some, c.integer?_json, Option.some_inj]
  exact c.store_eq_iff v

/-- An event leaves a number in a row of its own, unless it is about an object. -/
theorem number_inserted {n : StoredNumber} (hn : n ∈ numbersOf ev) :
    (∃ row o table d seq, .insert row ∈ routeEvent ev ∧ row.key = n.key ∧
      row.key = .event table d seq ∧ row.json? = some o ∧
      o.get? n.field = some (n.column.json n.value)) ∨
    ev.event.kind = .assetCreated ∨ ev.event.kind = .assetVouched ∨
    ev.event.kind = .validatorRegistered ∨ ev.event.kind = .disputeOpened ∨
    ev.event.kind = .disputeResolved := by
  obtain ⟨id, timestampMs, e⟩ := ev
  cases e
  case assetCreated | assetVouched | validatorRegistered | disputeOpened | disputeResolved =>
    right
    simp [Event.kind]
  all_goals
    left
    simp only [numbersOf, List.mem_cons, List.not_mem_nil, or_false] at hn
  all_goals
    rcases hn with rfl | rfl | rfl | rfl | rfl | rfl
  all_goals exact ⟨_, _, _, _, _, List.mem_cons_self, rfl, rfl, rfl, rfl⟩

/-- The row of an event is served. -/
theorem event_object (hr : w.Recorded h) (hc : Complete h ps) (hs : s.typed = typedTables h ps)
    (hev : ev ∈ h) {row : Row} (hins : .insert row ∈ routeEvent ev) {table : EventTable}
    {d : Digest} {seq : ℤ} (hkey : row.key = .event table d seq) :
    s.object? row.key = row.json? := by
  have hrow : row ∈ s.typed.rows := hs ▸
    (mem_rows_iff hr (fun _ hx => mem_of_received hx) hc.ingested hkey).mpr ⟨ev, hev, hins⟩
  have hget : s.typed.get? row.key = some row := Relation.mem_rows.mp hrow
  rw [hkey] at hget ⊢
  show (s.typed.get? (.event table d seq)).bind Row.json? = _
  rw [hget, Option.bind_some]

/-! ## Objects -/

/-- The object of an asset is its row. -/
theorem object_asset {a : ID} {r : AssetRow} (hrow : s.typed.get? (.asset a) = some (.asset r)) :
    s.object? (.asset a) = some r.json := by
  show (s.typed.get? (.asset a)).bind Row.json? = _
  rw [hrow]
  rfl

/-- The numbers of a listing are in the row of the asset, in columns that are not updated. -/
theorem number_listed {a : ID} (hcreates : ev.event.creates = some (.asset a)) : ∃ r : AssetRow,
    insertAt (.asset a) (routeEvent ev) = some (.asset r) ∧ ∀ n ∈ numbersOf ev, n.key = .asset a ∧
      r.json.get? n.field = some (n.column.json n.value) ∧
      ∀ (q : AssetRow) b, (q.assign b).json.get? n.field = q.json.get? n.field := by
  obtain ⟨id, timestampMs, e⟩ := ev
  cases e <;> cases hcreates
  refine ⟨_, insertAt_insert.trans (if_pos rfl), fun n hn => ?_⟩
  rcases List.mem_append.mp hn with hn | hn
  · simp only [List.mem_cons, List.not_mem_nil, or_false] at hn
    rcases hn with rfl | rfl | rfl | rfl | rfl
    all_goals
      refine ⟨rfl, rfl, fun q b => ?_⟩
      cases b <;> rfl
  · split at hn
    · next hterm =>
      obtain rfl := List.mem_singleton.mp hn
      refine ⟨rfl, ?_, fun q b => ?_⟩
      · subst hterm
        rfl
      · cases b <;> rfl
    · cases hn

/-- They are served with the asset. -/
theorem listing_served (hr : w.Recorded h) (hc : Complete h ps) (hs : s.typed = typedTables h ps)
    (hev : ev ∈ h) {a : ID} (hcreates : ev.event.creates = some (.asset a)) {n : StoredNumber}
    (hn : n ∈ numbersOf ev) : ∃ o, s.object? n.key = some o ∧
      o.get? n.field = some (n.column.json n.value) := by
  obtain ⟨r, hins, hnumbers⟩ := number_listed hcreates
  obtain ⟨hkey, hfield, hkept⟩ := hnumbers n hn
  have hrow := object_row hr hc hev hins
  rw [assignAll_asset, ← hs] at hrow
  rw [hkey]
  exact ⟨_, object_asset hrow, 
    (foldl_kept (f := fun r : AssetRow => r.json.get? n.field) hkept _ _).trans hfield⟩

/-- The coverage of a vouch is served with the asset. -/
theorem coverage_served (hr : w.Recorded h) (hc : Complete h ps) (hs : s.typed = typedTables h ps)
    (hev : ev ∈ h) {a p : ID} {coverage : ℕ} (hvouch : ev.event.vouchOf = some (a, p, coverage)) :
    ∃ o, s.object? (.asset a) = some o ∧
      o.get? "coverage" = some (NumberColumn.amount.json coverage) := by
  have htold : (p, coverage) ∈ told Event.vouchOf a w.events :=
    mem_told.mpr ⟨_, hr.events ▸ List.mem_map_of_mem hev, hvouch⟩
  cases hasset : w.assets.get? a with
  | none =>
    rw [hr.reachable.standing.unlisted a hasset] at htold
    cases htold
  | some asset =>
    obtain rfl : asset.id = a := Store.key_of_get? hasset
    obtain ⟨r, hrow, hshows⟩ := assetRow_served hr hc hasset
    rw [← hs] at hrow
    refine ⟨_, object_asset hrow, ?_⟩
    -- an asset is vouched for once
    have hpools := (hr.reachable.standing.vouches _ asset hasset).pool
    have hone : (told Event.vouchOf asset.id w.events).length ≤ 1 := by
      rw [← List.length_map (f := Prod.fst), hpools]
      cases asset.validatorPoolId <;> simp
    obtain ⟨v, hsingle⟩ := List.length_eq_one_iff.mp
      (Nat.le_antisymm hone (List.length_pos_of_mem htold))
    have hcoverage := hshows.coverage
    rw [hsingle] at htold hcoverage
    obtain rfl := List.mem_singleton.mp htold
    show r.coverage.map Json.amount = _
    rw [hcoverage]
    rfl

/-- The stake of a new pool is served with it. -/
theorem stake_served (hr : w.Recorded h) (hc : Complete h ps) (hs : s.typed = typedTables h ps)
    (hev : ev ∈ h) {p : ID} {validator : Address} {stake : ℕ} {name : Bytes}
    (he : ev.event = .validatorRegistered p validator stake name) :
    ∃ o, s.object? (.validatorPool p) = some o ∧
      o.get? "initial_stake" = some (NumberColumn.amount.json stake) := by
  obtain ⟨id, timestampMs, e⟩ := ev
  cases he
  have hrow := object_row hr hc hev (insertAt_insert.trans (if_pos rfl))
  rw [assignAll_row (c := Row.validatorPool) (g := ValidatorPoolRow.assign) fun _ _ => rfl,
    ← hs] at hrow
  refine ⟨_, (congrArg (Option.bind · Row.json?) hrow).trans (Option.bind_some _ _), ?_⟩
  refine foldl_kept (f := fun r : ValidatorPoolRow => r.json.get? "initial_stake") ?_ _ _
  intro r b
  cases b <;> rfl

/-- The bond of a new dispute is served with it. -/
theorem bond_served (hr : w.Recorded h) (hc : Complete h ps) (hs : s.typed = typedTables h ps)
    (hev : ev ∈ h) {d : ID} (hcreates : ev.event.creates = some (.dispute d)) {n : StoredNumber}
    (hn : n ∈ numbersOf ev) : ∃ o, s.object? n.key = some o ∧
      o.get? n.field = some (n.column.json n.value) := by
  obtain ⟨id, timestampMs, e⟩ := ev
  cases e <;> cases hcreates
  obtain rfl := List.mem_singleton.mp hn
  have hrow := object_row hr hc hev (insertAt_insert.trans (if_pos rfl))
  rw [assignAll_dispute, ← hs] at hrow
  obtain ⟨l, hdetail, heq⟩ := disputeDetail_row hrow
  refine ⟨_, hdetail, ?_⟩
  have hbond : l.dispute.bond = _ := (congrArg DisputeRow.bond heq).trans
    (foldl_kept (f := DisputeRow.bond) (fun r b => by cases b <;> rfl) _ _)
  show some (Json.amount l.dispute.bond) = _
  rw [hbond]
  rfl

/-- The slashed stake and the bounty are served with the dispute. -/
theorem resolution_served (hr : w.Recorded h) (hc : Complete h ps) (hs : s.typed = typedTables h ps)
    (hev : ev ∈ h) {d : ID} {verdict : DisputeStatus} {slashed bounty : ℕ}
    (hresolution : ev.event.resolutionOf = some (d, verdict, slashed, bounty)) :
    ∃ o, s.object? (.dispute d) = some o ∧
      o.get? "slashed" = some (NumberColumn.amount.json slashed) ∧
      o.get? "bounty" = some (NumberColumn.amount.json bounty) := by
  have htold : (verdict, slashed, bounty) ∈ told Event.resolutionOf d w.events :=
    mem_told.mpr ⟨_, hr.events ▸ List.mem_map_of_mem hev, hresolution⟩
  cases hdispute : w.disputes.get? d with
  | none =>
    have hnil := (hr.reachable.standing.unopened d hdispute).2
    rw [← verdicts_of_resolutions, List.map_eq_nil_iff] at hnil
    rw [hnil] at htold
    cases htold
  | some dispute =>
    obtain rfl : dispute.id = d := Store.key_of_get? hdispute
    obtain ⟨r, hrow, hshows⟩ := disputeRow_served hr hc hdispute
    rw [← hs] at hrow
    obtain ⟨l, hdetail, rfl⟩ := disputeDetail_row hrow
    -- a dispute is resolved once
    have hverdict := (hr.reachable.standing.disputes _ dispute hdispute).verdict
    have hone : (told Event.resolutionOf dispute.id w.events).length ≤ 1 := by
      rw [← List.length_map (f := Prod.fst), verdicts_of_resolutions, hverdict]
      split <;> simp
    obtain ⟨v, hsingle⟩ := List.length_eq_one_iff.mp
      (Nat.le_antisymm hone (List.length_pos_of_mem htold))
    have hsums := hshows.sums
    rw [hsingle] at htold hsums
    obtain rfl := List.mem_singleton.mp htold
    obtain ⟨hslashed, hbounty⟩ := Prod.mk.inj hsums
    refine ⟨_, hdetail, ?_, ?_⟩
    · show l.dispute.slashed.map Json.amount = _
      rw [hslashed]
      rfl
    · show l.dispute.bounty.map Json.amount = _
      rw [hbounty]
      rfl

/-- Every number of an event is in the object that is served of its row. -/
theorem number_object (hr : w.Recorded h) (hc : Complete h ps) (hs : s.typed = typedTables h ps)
    (hev : ev ∈ h) {n : StoredNumber} (hn : n ∈ numbersOf ev) : ∃ o, s.object? n.key = some o ∧
      o.get? n.field = some (n.column.json n.value) := by
  -- a row of the event itself, or a row of an object that later events assign to
  rcases number_inserted hn with ⟨row, o, table, d, seq, hins, hkey, hrow, hobject, hfield⟩ | hkind
  · refine ⟨o, ?_, hfield⟩
    rw [← hkey, event_object hr hc hs hev hins hrow, hobject]
  · obtain ⟨id, timestampMs, e⟩ := ev
    cases e
    case assetCreated => exact listing_served hr hc hs hev rfl hn
    case disputeOpened => exact bond_served hr hc hs hev rfl hn
    case assetVouched =>
      obtain rfl := List.mem_singleton.mp hn
      exact coverage_served hr hc hs hev rfl
    case validatorRegistered =>
      obtain rfl := List.mem_singleton.mp hn
      exact stake_served hr hc hs hev rfl
    case disputeResolved =>
      obtain ⟨o, hobject, hslashed, hbounty⟩ := resolution_served hr hc hs hev rfl
      rcases List.mem_pair.mp hn with rfl | rfl
      · exact ⟨o, hobject, hslashed⟩
      · exact ⟨o, hobject, hbounty⟩
    all_goals simp [Event.kind] at hkind

/-! ## Schedules -/

/-- A cast to 32 bits is below two to the 31. -/
theorem asI32_lt (v : ℕ) : asI32 v < 2 ^ 31 := by
  unfold asI32
  rw [Int.bmod_def]
  omega

/-- A number of a schedule is an amount or a deadline of the listing. -/
theorem mem_scheduleOf {m : ScheduledNumber} (hm : m ∈ scheduleOf ev) :
    ∃ terms, ev.event.termsOf = some (m.assetId, terms) ∧
      ((m.field = "amount" ∧ terms.amounts[m.tranche]? = some m.value) ∨
        (m.field = "deadline_ms" ∧ terms.deadlinesMs[m.tranche]? = some m.value)) := by
  obtain ⟨id, timestampMs, e⟩ := ev
  cases e <;> try cases hm
  rcases List.mem_append.mp hm with hm | hm
  · obtain ⟨⟨amount, i⟩, hmem, rfl⟩ := List.mem_map.mp hm
    exact ⟨_, rfl, Or.inl ⟨rfl, List.mem_zipIdx_iff_getElem?.mp hmem⟩⟩
  · obtain ⟨⟨deadlineMs, i⟩, hmem, rfl⟩ := List.mem_map.mp hm
    exact ⟨_, rfl, Or.inr ⟨rfl, List.mem_zipIdx_iff_getElem?.mp hmem⟩⟩

/-- The first row under the number of a tranche is the one of that tranche, as long as the number
    fits. -/
theorem insertAt_schedule {a : ID} {terms : Terms} (hterms : ev.event.termsOf = some (a, terms))
    {i : ℕ} (hsmall : i < 2 ^ 31) {amount : ℕ} (hi : terms.amounts[i]? = some amount) :
    ∃ r : TrancheScheduleRow,
      insertAt (.trancheSchedule a i) (routeEvent ev) = some (.trancheSchedule r) ∧
      r.amount = asI64 amount ∧ r.deadlineMs = asI64 (terms.deadlinesMs[i]?.getD 0) := by
  obtain ⟨id, timestampMs, e⟩ := ev
  cases e <;> cases hterms
  next amounts deadlinesMs descriptions =>
  -- small indices are their own casts, so the row of the tranche is found under its index
  have hindex : ∀ j < 2 ^ 31, asI32 j = j := fun j hj => asI32_eq_iff.mpr hj
  have hget : amounts.zipIdx[i]? = some (amount, i) := by
    rw [List.getElem?_zipIdx, show amounts[i]? = some amount from hi, Option.map_some, Nat.zero_add]
  obtain ⟨hlt, hget⟩ := List.getElem?_eq_some_iff.mp hget
  have hsplit : amounts.zipIdx =
      amounts.zipIdx.take i ++ (amount, i) :: amounts.zipIdx.drop (i + 1) := by
    rw [← hget, ← List.drop_eq_getElem_cons hlt, List.take_append_drop]
  refine ⟨⟨a, asI32 i, asI64 amount, asI64 (deadlinesMs[i]?.getD 0), descriptions[i]?.bind utf8Opt⟩,
    ?_, Eq.refl _, Eq.refl _⟩
  refine insertAt_insert.trans ((if_neg nofun).trans ?_)
  show insertAt _ (insertTrancheSchedule a amounts deadlinesMs descriptions ++ _) = _
  unfold insertTrancheSchedule trancheSchedule
  rw [List.map_map, hsplit, List.map_append, List.append_assoc, insertAt_append]
  · rw [List.map_cons, List.cons_append]
    refine insertAt_insert.trans (if_pos ?_)
    show Key.trancheSchedule a (asI32 i) = _
    rw [hindex i hsmall]
  · -- the tranches before have other numbers
    intro r hr
    obtain ⟨⟨b, j⟩, hmem, heq⟩ := List.mem_map.mp hr
    obtain ⟨k, hk, hkj⟩ := List.mem_take_iff_getElem.mp hmem
    rw [List.getElem_zipIdx, Prod.mk.injEq, Nat.zero_add] at hkj
    obtain ⟨-, rfl⟩ := hkj
    have hbefore : k < i := lt_of_lt_of_le hk (Nat.min_le_left _ _)
    obtain rfl := Stmt.insert.inj heq
    intro hsame
    obtain ⟨-, hnumber⟩ := Key.trancheSchedule.inj hsame
    rw [hindex k (by omega)] at hnumber
    dsimp only at hnumber
    omega

/-- A listing has as many deadlines as amounts. -/
theorem length_terms (hr : w.Recorded h) (hev : ev ∈ h) {a : ID} {terms : Terms}
    (hterms : ev.event.termsOf = some (a, terms)) :
    terms.amounts.length = terms.deadlinesMs.length := by
  have hcreates : ev.event.creates = some (.asset a) := by
    obtain ⟨id, timestampMs, e⟩ := ev
    cases e <;> cases hterms
    rfl
  obtain ⟨asset, hasset⟩ := Option.isSome_iff_exists.mp (asset_of_event hr hev hcreates)
  obtain rfl : asset.id = a := Store.key_of_get? hasset
  rw [terms_unique hr hasset hev hterms]
  simp [Asset.terms]

/-- The amount or deadline of a tranche is served as it was emitted exactly if it fits and the
    number of the tranche does. -/
theorem scheduled_served (hr : w.Recorded h) (hc : Complete h ps) (hs : s.typed = typedTables h ps)
    (hev : ev ∈ h) {m : ScheduledNumber} (hm : m ∈ scheduleOf ev) :
    s.Serves (.trancheSchedule m.assetId m.tranche) m.field m.value ↔
      m.tranche < 2 ^ 31 ∧ m.value < 2 ^ 63 := by
  obtain ⟨terms, hterms, hvalue⟩ := mem_scheduleOf hm
  by_cases hsmall : m.tranche < 2 ^ 31
  · rw [and_iff_right hsmall]
    have hlength := length_terms hr hev hterms
    have hlt : m.tranche < terms.amounts.length := by
      rcases hvalue with ⟨-, hvalue⟩ | ⟨-, hvalue⟩
      · exact (List.getElem?_eq_some_iff.mp hvalue).1
      · exact hlength ▸ (List.getElem?_eq_some_iff.mp hvalue).1
    obtain ⟨r, hins, hamount, hdeadline⟩ :=
      insertAt_schedule hterms hsmall (List.getElem?_eq_getElem hlt)
    have hrow := object_row hr hc hev hins
    rw [assignAll_schedule, ← hs] at hrow
    have hobject : s.object? (.trancheSchedule m.assetId m.tranche) = some r.json :=
      (congrArg (Option.bind · Row.json?) hrow).trans (Option.bind_some _ _)
    rcases hvalue with ⟨hfield, hvalue⟩ | ⟨hfield, hvalue⟩
    · refine serves_iff .amount hobject ?_
      rw [hfield]
      show some (Json.amount r.amount) = _
      rw [hamount, Option.some.inj ((List.getElem?_eq_getElem hlt).symm.trans hvalue)]
      rfl
    · refine serves_iff .timeMs hobject ?_
      rw [hfield]
      show some (Json.number r.deadlineMs) = _
      rw [hdeadline, hvalue]
      rfl
  · refine iff_of_false ?_ fun hfits => hsmall hfits.1
    intro hserves
    -- no row has such a number
    unfold Snapshot.Serves at hserves
    obtain ⟨o, hobject, -⟩ := Option.bind_eq_some_iff.mp hserves
    obtain ⟨row, hrow, -⟩ := Option.bind_eq_some_iff.mp hobject
    obtain ⟨ev', -, first, hins, -⟩ := object_owner hr hc (hs ▸ hrow)
    obtain ⟨hinsert, hkey⟩ := mem_of_insertAt hins
    obtain ⟨r, rfl⟩ : ∃ r, first = .trancheSchedule r := by
      cases first <;> first | exact ⟨_, rfl⟩ | exact nomatch hkey
    obtain ⟨-, -, i, -, hindex, -⟩ := terms_of_schedule hinsert
    obtain ⟨-, hnumber⟩ := Key.trancheSchedule.inj hkey
    have hlt := asI32_lt i
    omega

end Indexer

/-! ## Pools -/

open Indexer

variable {w : World} {h : List SuiEvent} {ps : List (Poll Module)} {s : Snapshot}

/-- What is served is the `i64` of what some event of the record told, which is the same exactly if
    it fits. -/
def BalanceColumn.Keeps (c : BalanceColumn ℕ ℤ) (a : ID) (h : List SuiEvent) (served : Option ℤ) :
    Prop :=
  ∀ v, served = some v → ∃ ev ∈ h, ∃ n, c.told (ev.event.told a) = some n ∧ v = asI64 n ∧
    (v = n ↔ n < 2 ^ 63)

/-- What is served of a pool column is what some event told. -/
theorem BalanceColumn.keeps_of_latest {c : BalanceColumn ℕ ℤ} (hstore : c.store = asI64)
    (hr : w.Recorded h) (hc : Complete h ps) (hs : s.typed = typedTables h ps) {a : ID}
    {answer : Option ℤ} (hanswer : Latest c.column (balanceRows s.typed a) answer) :
    c.Keeps a h answer := by
  intro v hv
  rw [hs, hv] at hanswer
  rcases (c.latest_iff hr (fun _ hx => mem_of_received hx) hc.ingested).mp hanswer
    with ⟨hnone, -⟩ | ⟨ev, hgreatest, htold⟩
  · cases hnone
  · obtain ⟨n, hn, heq⟩ := Option.map_eq_some_iff.mp htold.symm
    rw [hstore] at heq
    subst heq
    exact ⟨ev, (List.mem_filter.mp hgreatest.1).1, n, hn, rfl, asI64_eq_iff⟩

/-- The numbers of the pools in the answer about an accumulator. -/
structure Indexer.JsonObject.KeepsPools (o : JsonObject) (a : ID) (h : List SuiEvent) : Prop where
  rewardPool : rewardPoolColumn.Keeps a h (o.integer? "reward_pool")
  rolloverReserve : rolloverReserveColumn.Keeps a h (o.integer? "rollover_reserve")
  compensationPool : compensationPoolColumn.Keeps a h (o.integer? "compensation_pool")
  compensationUnlockMs : compensationUnlockMsColumn.Keeps a h (o.integer? "compensation_unlock_ms")

/-- An amount is read back from its text. -/
theorem Indexer.integer?_amounts (v : Option ℤ) : (v.map Json.amount).bind Json.integer? = v := by
  cases v with
  | none => rfl
  | some v => exact Decimal.parseInt_ofInt v

/-- The pools in the answer about an accumulator are kept. -/
theorem pools_served (hr : w.Recorded h) (hc : Complete h ps) (hs : s.typed = typedTables h ps)
    {a : ID} {b : AccumulatorBalances} (hb : CurrentAccumulatorBalances s.typed a b) :
    b.json.KeepsPools a h := by
  -- the four columns are stored by the cast to 64 bits
  have hstore : rewardPoolColumn.store = asI64 ∧ rolloverReserveColumn.store = asI64 ∧
      compensationPoolColumn.store = asI64 ∧ compensationUnlockMsColumn.store = asI64 := by
    unfold rewardPoolColumn rolloverReserveColumn compensationPoolColumn compensationUnlockMsColumn
      amountColumn
    simp only [and_self]
  obtain ⟨hstore₁, hstore₂, hstore₃, hstore₄⟩ := hstore
  have hunlock : b.json.integer? "compensation_unlock_ms" = b.compensationUnlockMs := by
    show (b.compensationUnlockMs.map Json.number).bind Json.integer? = _
    cases b.compensationUnlockMs <;> rfl
  constructor
  · rw [show b.json.integer? "reward_pool" = b.rewardPool from integer?_amounts _]
    exact BalanceColumn.keeps_of_latest hstore₁ hr hc hs hb.rewardPool
  · rw [show b.json.integer? "rollover_reserve" = b.rolloverReserve from integer?_amounts _]
    exact BalanceColumn.keeps_of_latest hstore₂ hr hc hs hb.rolloverReserve
  · rw [show b.json.integer? "compensation_pool" = b.compensationPool from integer?_amounts _]
    exact BalanceColumn.keeps_of_latest hstore₃ hr hc hs hb.compensationPool
  · rw [hunlock]
    exact BalanceColumn.keeps_of_latest hstore₄ hr hc hs hb.compensationUnlockMs

/-- After full ingestion every number is served as it was emitted exactly if it fits its column. -/
theorem numbers_served (hr : w.Recorded h) (hc : Complete h ps) (hs : s.typed = typedTables h ps) :
    (∀ ev ∈ h, ∀ n ∈ numbersOf ev, s.Serves n.key n.field n.value ↔ n.column.Fits n.value) ∧
    (∀ ev ∈ h, ∀ m ∈ scheduleOf ev,
      s.Serves (.trancheSchedule m.assetId m.tranche) m.field m.value ↔
        m.tranche < 2 ^ 31 ∧ m.value < 2 ^ 63) ∧
    ∀ a b, CurrentAccumulatorBalances s.typed a b → b.json.KeepsPools a h := by
  refine ⟨?_, ?_, ?_⟩
  · intro ev hev n hn
    obtain ⟨o, hobject, hfield⟩ := number_object hr hc hs hev hn
    exact serves_iff n.column hobject hfield
  · intro ev hev m hm
    exact scheduled_served hr hc hs hev hm
  · intro a b hb
    exact pools_served hr hc hs hb

namespace Sample

/-- The entity lists an asset whose deadlines do not fit an `i64`. -/
def distant : List Action :=
  [.transaction 0 [.framework (.mintUsdc 2 10000000000)],
   .transaction 2 [.asset (.createAsset
     { listing 1000000 with
       fundingDeadlineMs := 9223372036854775808, trancheDeadlinesMs := [9223372036854775809] }
     100000)]]

end Sample

open Sample in
/-- All numbers of the log fit, and are served as they were emitted. -/
theorem numbers_served_earning : ∃ (w : World) (h : List SuiEvent) (s : Snapshot),
    w.Recorded h ∧ s.typed = typedTables h cycle ∧
    (∃ ev ∈ h, ∃ n ∈ numbersOf ev, n.field = "index_after" ∧ n.value = 49000) ∧
    ∀ ev ∈ h, ∀ n ∈ numbersOf ev, s.Serves n.key n.field n.value := by
  have hrun : returns (World.record (Entry.ofActions 1000 earning)) (fun s =>
      complete s.2 cycle && decide ((typedTables s.2 cycle).rows.length < 2 ^ 63) &&
      s.2.any (fun ev => (numbersOf ev).any fun n => n.field = "index_after" ∧ n.value = 49000) &&
      s.2.all fun ev => (numbersOf ev).all fun n => n.column.Fits n.value) = true := by
    decide +kernel
  obtain ⟨s, hs, hq⟩ := returns_iff.mp hrun
  simp only [Bool.and_eq_true, List.any_eq_true, List.all_eq_true, decide_eq_true_eq] at hq
  obtain ⟨⟨⟨hcomplete, hlength⟩, hindex⟩, hfits⟩ := hq
  have hr : s.1.Recorded s.2 := .of_record hs
  have hserved := numbers_served hr (complete_of_check hcomplete)
    (s := .numbered hr (fun _ hx => mem_of_received hx) hlength) rfl
  exact ⟨s.1, s.2, _, hr, rfl, hindex, fun ev hev n hn =>
    (hserved.1 ev hev n hn).mpr (hfits ev hev n hn)⟩

open Sample in
/-- A deadline of the funding of 2^63 ms is served as a negative number. -/
theorem deadline_negative : ∃ (w : World) (h : List SuiEvent) (ps : List (Poll Module))
    (s : Snapshot) (ev : SuiEvent) (n : StoredNumber), w.Recorded h ∧ Complete h ps ∧
    s.typed = typedTables h ps ∧ ev ∈ h ∧ n ∈ numbersOf ev ∧ n.field = "funding_deadline_ms" ∧
    n.value = 2 ^ 63 ∧ (s.object? n.key).bind (·.integer? n.field) = some (-2 ^ 63) ∧
    ¬ s.Serves n.key n.field n.value := by
  have hrun : returns (World.record (Entry.ofActions 1000 distant)) (fun s =>
      complete s.2 cycle && decide ((typedTables s.2 cycle).rows.length < 2 ^ 63) &&
        s.2.any fun ev => (numbersOf ev).any fun n =>
          n.field = "funding_deadline_ms" ∧ n.value = 2 ^ 63 ∧ n.column = .timeMs) = true := by
    decide +kernel
  obtain ⟨s, hs, hq⟩ := returns_iff.mp hrun
  simp only [Bool.and_eq_true, List.any_eq_true, decide_eq_true_eq] at hq
  obtain ⟨⟨hcomplete, hlength⟩, ev, hev, n, hn, hfield, hvalue, hcolumn⟩ := hq
  have hr : s.1.Recorded s.2 := .of_record hs
  have hc := complete_of_check hcomplete
  let t : Snapshot := .numbered hr (fun _ hx => mem_of_received hx) hlength
  obtain ⟨o, hobject, hget⟩ := number_object hr hc (s := t) rfl hev hn
  have hinteger : (t.object? n.key).bind (·.integer? n.field) = some (-2 ^ 63) := by
    rw [hobject, Option.bind_some, JsonObject.integer?, hget, Option.bind_some,
      NumberColumn.integer?_json, hcolumn, hvalue]
    decide
  refine ⟨s.1, s.2, cycle, t, ev, n, hr, hc, rfl, hev, hn, hfield, hvalue, hinteger, ?_⟩
  unfold Snapshot.Serves
  rw [hinteger, hvalue]
  decide

end Gally

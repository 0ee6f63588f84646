import Gally.Indexer.Holders
import Gally.Law.Balances
import Gally.Law.Holdings

/-!
# The holder ledger matches the chain

After full ingestion the signed sums over `position_events` are the sums of what the log tells of an
address and an asset (`signedSum_served`). As long as deeds and coins stay with their holders, these
are what the address holds (`holdings_told`), so the ledger lists exactly the holders, with the
amounts they hold (`holders_served`, `holdings_served`).
-/

namespace Gally

open Checked Relational Indexer

/-! ## Rows of events -/

/-- What an event leaves in `position_events`: its kind, the asset, the actor and the amount. -/
def Event.position : Event → Option (PositionKind × ID × Address × ℕ)
  | .sharesClaimed a y n _ => some (.sharesClaimed, a, y, n)
  | .sharesWrapped a y n _ => some (.sharesWrapped, a, y, n)
  | .sharesUnwrapped a y n _ _ => some (.sharesUnwrapped, a, y, n)
  | .yieldClaimed a y n _ _ => some (.yieldClaimed, a, y, n)
  | .shareRedeemed a y n _ => some (.shareRedeemed, a, y, n)
  | .contributionRefunded a y n => some (.contributionRefunded, a, y, n)
  | _ => none

/-- What it adds to a signed sum over the rows of the assets and actors that `p` selects. -/
def Event.signed (sign : PositionKind → SignType) (p : ID → Address → Bool) (e : Event) : ℤ :=
  e.position.elim 0 fun (kind, b, y, n) => if p b y then sign kind * n else 0

/-- Asset `a` and address `x`. -/
def only (a : ID) (x : Address) (b : ID) (y : Address) : Bool := b = a ∧ y = x

/-- Counted by the sign of deeds, an event adds what it changes in deeds. -/
theorem signed_share (a : ID) (x : Address) (e : Event) :
    e.signed PositionKind.shareSign (only a x) = e.deedChange a x := by
  cases e <;>
    simp [Event.signed, Event.position, Event.deedChange, PositionKind.shareSign, only]

/-- Counted by the sign of coins, an event adds what it changes in coins. -/
theorem signed_wrap (a : ID) (x : Address) (e : Event) :
    e.signed PositionKind.wrapSign (only a x) = e.coinChange a x := by
  cases e <;>
    simp [Event.signed, Event.position, Event.coinChange, PositionKind.wrapSign, only]

/-- Counted by the sign of holdings, an event adds what it changes in both. -/
theorem signed_holding (a : ID) (x : Address) (e : Event) :
    e.signed PositionKind.holdingSign (only a x) = e.deedChange a x + e.coinChange a x := by
  cases e <;>
    simp [Event.signed, Event.position, Event.deedChange, Event.coinChange,
      PositionKind.holdingSign, only]
  all_goals split <;> omega

namespace Indexer

/-- What a row adds to a signed sum. -/
def PositionRow.value (sign : PositionKind → SignType) (r : PositionRow) : ℤ :=
  sign r.eventType * r.amount.getD 0

/-- The rows an event leaves. -/
theorem position_insertedRows (ev : SuiEvent) :
    ((insertedRows ev).filterMap Row.position?).map
      (fun r => (r.eventType, r.assetId, r.actor, r.amount)) =
    (ev.event.position.map fun (kind, a, y, n) => (kind, a, y, some (asI64 n))).toList := by
  obtain ⟨id, timestampMs, e⟩ := ev
  cases e
  case assetCreated =>
    rw [List.filterMap_eq_nil_iff.mpr]
    · rfl
    · intro row hrow
      have hinsert := mem_insertedRows.mp hrow
      simp [routeEvent] at hinsert
      rcases hinsert with rfl | ⟨_, _, _, _, -, rfl⟩ | rfl <;> rfl
  all_goals simp [insertedRows, routeEvent, Row.position?, Event.position]

/-! ## Sums of rows -/

variable {w : World} {h evs : List SuiEvent} {sign : PositionKind → SignType} {a : ID} {x : Address}
  {p : ID → Address → Bool}

/-- A sum of amounts in range. -/
theorem signedSum_eq {rows : List PositionRow}
    (hrows : ∀ r ∈ rows, sign r.eventType ≠ 0 → 0 ≤ r.amount.getD 0 ∧ r.amount.getD 0 < 2 ^ 63)
    {v : ℤ} (hsum : (rows.map (PositionRow.value sign)).sum = v) (h₀ : 0 ≤ v) (h₁ : v < 2 ^ 63) :
    signedSum sign rows = some v := by
  -- every term is computed within 64 bits, since only those with a sign are cast
  have hterms : rows.mapM (signedAmount sign) = some (rows.map (PositionRow.value sign)) := by
    clear hsum
    induction rows with
    | nil => rfl
    | cons r rows ih =>
      have hr := hrows r List.mem_cons_self
      have hterm : signedAmount sign r = some (r.value sign) := by
        unfold signedAmount PositionRow.value
        cases hs : sign r.eventType with
        | zero => simp
        | pos => simp
        | neg =>
          obtain ⟨hle, hlt⟩ := hr (by rw [hs]; exact SignType.noConfusion)
          rw [bigint_of_range (by omega) (by omega)]
          simp
      rw [List.mapM_cons, hterm, ih fun q hq => hrows q (List.mem_cons_of_mem _ hq)]
      rfl
  rw [signedSum, hterms, Option.bind_some, hsum]
  exact bigint_of_range (by omega) h₁

/-- The rows of the assets and actors that `p` selects. -/
def rowsOf (db : Relation Row) (p : ID → Address → Bool) : List PositionRow :=
  (positionRows db).filter fun r => p r.assetId r.actor

/-- A position row of the database is the row of an event. -/
theorem position_of_row (hr : w.Recorded h) (hevs : ∀ x ∈ evs, x ∈ h)
    (hfull : ∀ ev ∈ h, Ingested evs ev) {r : PositionRow}
    (hrow : r ∈ positionRows (tables.ingest ∅ evs)) : ∃ ev ∈ h, ∃ n,
      ev.event.position = some (r.eventType, r.assetId, r.actor, n) ∧
        r.amount = some (asI64 n) := by
  obtain ⟨row, hrow, hposition⟩ := List.mem_filterMap.mp hrow
  cases row <;> cases hposition
  obtain ⟨ev, hev, hinsert⟩ := (mem_rows_iff hr hevs hfull rfl).mp hrow
  have hmem : (r.eventType, r.assetId, r.actor, r.amount) ∈
      ((insertedRows ev).filterMap Row.position?).map
        (fun r => (r.eventType, r.assetId, r.actor, r.amount)) :=
    List.mem_map_of_mem (List.mem_filterMap.mpr ⟨_, mem_insertedRows.mpr hinsert, rfl⟩)
  rw [position_insertedRows, Option.mem_toList, Option.map_eq_some_iff] at hmem
  obtain ⟨⟨kind, b, y, n⟩, hposition, heq⟩ := hmem
  simp only [Prod.mk.injEq] at heq
  obtain ⟨rfl, rfl, rfl, hamount⟩ := heq
  exact ⟨ev, hev, n, hposition, hamount.symm⟩

/-- What the columns of a row add, where `store` keeps the amounts that count. -/
theorem sum_columns {c : Option (PositionKind × ID × Address × ℕ)} {store : ℕ → ℤ}
    (hstore : ∀ kind b y n, c = some (kind, b, y, n) → sign kind ≠ 0 → store n = n) :
    ((c.map fun (kind, b, y, n) => (kind, b, y, some (store n))).toList.map fun c =>
      if p c.2.1 c.2.2.1 then (sign c.1 : ℤ) * c.2.2.2.getD 0 else 0).sum =
        c.elim 0 fun (kind, b, y, n) => if p b y then (sign kind : ℤ) * n else 0 := by
  cases c with
  | none => rfl
  | some c =>
    obtain ⟨kind, b, y, n⟩ := c
    by_cases hsign : sign kind = 0
    · simp [hsign]
    · simp [hstore kind b y n rfl hsign]

/-- What the rows of an event add. -/
theorem sum_insertedRows {ev : SuiEvent}
    (hfits : ∀ kind b y n, ev.event.position = some (kind, b, y, n) → sign kind ≠ 0 →
      asI64 n = n) :
    (((insertedRows ev).filterMap Row.position?).map fun r =>
      if p r.assetId r.actor then r.value sign else 0).sum = ev.event.signed sign p := by
  have hcolumns : ∀ rows : List PositionRow,
      (rows.map fun r => if p r.assetId r.actor then r.value sign else 0) =
        (rows.map fun r => (r.eventType, r.assetId, r.actor, r.amount)).map fun c =>
          if p c.2.1 c.2.2.1 then (sign c.1 : ℤ) * c.2.2.2.getD 0 else 0 := by
    intro rows
    rw [List.map_map]
    exact List.map_congr_left fun _ _ => rfl
  rw [hcolumns, position_insertedRows]
  exact sum_columns hfits

/-- The sum over the rows is the sum over the log. -/
theorem sum_rowsOf (hr : w.Recorded h) (hevs : ∀ x ∈ evs, x ∈ h)
    (hfull : ∀ ev ∈ h, Ingested evs ev)
    (hfits : ∀ e ∈ w.events, ∀ kind b y n, e.position = some (kind, b, y, n) → sign kind ≠ 0 →
      n < 2 ^ 63) :
    ((rowsOf (tables.ingest ∅ evs) p).map (PositionRow.value sign)).sum =
      (w.events.map (Event.signed sign p)).sum := by
  -- what an event adds, whatever row carries it
  have hevent : ∀ ev ∈ h, (((insertedRows ev).filterMap Row.position?).map fun r =>
      if p r.assetId r.actor then r.value sign else 0).sum = ev.event.signed sign p := by
    intro ev hev
    have hin : ev.event ∈ w.events := hr.events ▸ List.mem_map_of_mem hev
    exact sum_insertedRows fun kind b y n hposition hsign =>
      asI64_eq_iff.mpr (hfits _ hin kind b y n hposition hsign)
  calc ((rowsOf (tables.ingest ∅ evs) p).map (PositionRow.value sign)).sum
      = ((positionRows (tables.ingest ∅ evs)).map fun r =>
          if p r.assetId r.actor then r.value sign else 0).sum := Grouping.sum_filter ..
    _ = (((h.flatMap insertedRows).filterMap Row.position?).map fun r =>
          if p r.assetId r.actor then r.value sign else 0).sum := by
        -- the position rows are those of the events, in another order
        refine ((perm_filterMap hr hevs hfull fun row hrow => ?_).map _).sum_eq
        cases row <;> first | rfl | cases hrow
    _ = (h.map fun ev => ev.event.signed sign p).sum := by
        rw [List.filterMap_flatMap, Grouping.sum_flatMap, List.map_congr_left hevent]
    _ = (w.events.map (Event.signed sign p)).sum := by
        rw [← hr.events, List.map_map]
        rfl

/-- The kinds of events that tell of holdings. -/
def PositionKind.Counts (sign : PositionKind → SignType) : Prop :=
  sign .yieldClaimed = 0 ∧ sign .contributionRefunded = 0

/-- They tell of units. -/
theorem PositionKind.Counts.units (hcounts : Counts sign) {e : Event} {kind : PositionKind}
    {y : Address} {n : ℕ} (hposition : e.position = some (kind, a, y, n)) (hsign : sign kind ≠ 0) :
    e.units = some (a, n) := by
  obtain ⟨hyield, hrefund⟩ := hcounts
  cases e <;> cases hposition <;>
    first | rfl | exact absurd hyield hsign | exact absurd hrefund hsign

/-! ## Sums that are served -/

/-- The amounts that count fit. -/
theorem amounts_fit (hw : Reachable w) (hgoals : ∀ asset ∈ w.assets, asset.fundingGoal < 2 ^ 63)
    (hcounts : PositionKind.Counts sign) : ∀ e ∈ w.events, ∀ kind b y n,
      e.position = some (kind, b, y, n) → sign kind ≠ 0 → n < 2 ^ 63 := by
  intro e he kind b y n hposition hsign
  obtain ⟨asset, hasset, hle⟩ := World.log_bounds hw e he b n (hcounts.units hposition hsign)
  exact lt_of_le_of_lt hle (hgoals asset (Store.mem_of_get? hasset))

/-- The signed sum over the rows is what the log tells, if that is in range. -/
theorem signedSum_served (hw : Reachable w) (hr : w.Recorded h) (hevs : ∀ x ∈ evs, x ∈ h)
    (hfull : ∀ ev ∈ h, Ingested evs ev) (hgoals : ∀ asset ∈ w.assets, asset.fundingGoal < 2 ^ 63)
    (hcounts : PositionKind.Counts sign) {v : ℤ}
    (htold : (w.events.map (Event.signed sign p)).sum = v) (h₀ : 0 ≤ v) (h₁ : v < 2 ^ 63) :
    signedSum sign (rowsOf (tables.ingest ∅ evs) p) = some v := by
  have hfits := amounts_fit hw hgoals hcounts
  refine signedSum_eq ?_ ((sum_rowsOf hr hevs hfull hfits).trans htold) h₀ h₁
  intro r hrow hsign
  obtain ⟨ev, hev, n, hposition, hamount⟩ :=
    position_of_row hr hevs hfull (List.mem_filter.mp hrow).1
  have hin : ev.event ∈ w.events := hr.events ▸ List.mem_map_of_mem hev
  have hlt := hfits _ hin _ _ _ n hposition hsign
  have hexact : asI64 n = n := asI64_eq_iff.mpr hlt
  rw [hamount, Option.getD_some, hexact]
  omega

end Indexer

/-! ## What an address holds is in range -/

namespace World

variable {w : World} {a : ID} {x : Address}

/-- What an address holds of an asset, in deeds and in coins. -/
def holdingOf (w : World) (a : ID) (x : Address) : ℕ := w.deedsOf a x + w.wrappedOf a x

/-- Nobody holds more than the goal of the asset. -/
theorem holdingOf_le (hw : Reachable w) (hpos : 0 < w.holdingOf a x) :
    ∃ asset, w.assets.get? a = some asset ∧ w.holdingOf a x ≤ asset.fundingGoal := by
  -- what is held belongs to the accumulator of the asset
  have hacc : ∃ g acc, w.accumulators.get? g = some acc ∧ acc.assetId = a := by
    rcases Nat.eq_zero_or_pos (w.deedsOf a x) with hdeeds | hdeeds
    · cases ht : w.tokenOf a with
      | none => simp [holdingOf, hdeeds, wrappedOf, ht] at hpos
      | some t =>
        obtain ⟨g, acc, hacc, ha, -⟩ := (tokenOf_eq_some hw.linked).mp ht
        exact ⟨g, acc, hacc, ha⟩
    · obtain ⟨share, hshare, ha, -⟩ := Store.exists_of_held_pos _ _ _ hdeeds
      obtain ⟨g, acc, hacc, ha'⟩ := hw.linked.deeds share hshare
      exact ⟨g, acc, hacc, ha'.trans ha⟩
  obtain ⟨g, acc, hacc, rfl⟩ := hacc
  obtain ⟨asset, hasset, hminted⟩ := minted hw g acc hacc
  obtain ⟨_, -, -, -, htied⟩ := hw.tied hacc
  have hunits := htied.balanced.units
  have hcoins := htied.balanced.coins.trans htied.balanced.wrapped
  have hdeeds := Store.held_le_group (w.owner .share) GallyShare.assetId GallyShare.shareCount
    (s := w.shares) acc.assetId x
  have hwrapped := Store.held_le_group (w.owner .coin) TokenCoin.token TokenCoin.value
    (s := w.coins) acc.treasuryCap.token x
  refine ⟨asset, hasset, ?_⟩
  rw [holdingOf, wrappedOf, tokenOf_acc hw.linked hacc, Option.elim_some]
  simp only [Engine.deedUnits, Engine.coinUnits, engine] at hunits hcoins
  unfold deedsOf coinsOf
  omega

/-- Nobody holds more than the goal of the raise. -/
theorem holdingOf_lt (hw : Reachable w) (hgoals : ∀ asset ∈ w.assets, asset.fundingGoal < 2 ^ 63)
    (a : ID) (x : Address) : w.holdingOf a x < 2 ^ 63 := by
  rcases Nat.eq_zero_or_pos (w.holdingOf a x) with hzero | hpos
  · omega
  · obtain ⟨asset, hasset, hle⟩ := holdingOf_le hw hpos
    exact lt_of_le_of_lt hle (hgoals asset (Store.mem_of_get? hasset))

end World

/-! ## The ledgers -/

/-- The claimed shares of asset `a`. -/
def claimedUnits (a : ID) (es : List Event) : ℕ :=
  (es.map fun | .sharesClaimed b _ n _ => if b = a then n else 0 | _ => 0).sum

/-- The redeemed shares. -/
def redeemedUnits (a : ID) (es : List Event) : ℕ :=
  (es.map fun | .shareRedeemed b _ n _ => if b = a then n else 0 | _ => 0).sum

namespace World

/-- The rows list who holds asset `a`, with what each of them holds. -/
structure HolderLedger (w : World) (a : ID) (rows : List HolderFoldRow) : Prop where
  distinct : (rows.map HolderFoldRow.address).Nodup
  listed : ∀ x, x ∈ rows.map HolderFoldRow.address ↔ 0 < w.holdingOf a x
  shareCount : ∀ r ∈ rows, r.shareCount = w.deedsOf a r.address
  wrapped : ∀ r ∈ rows, r.wrapped = w.wrappedOf a r.address
  holding : ∀ r ∈ rows, r.holding = w.holdingOf a r.address
  total : (rows.map HolderFoldRow.holding).sum =
    claimedUnits a w.events - redeemedUnits a w.events

/-- The rows list what address `x` holds. -/
structure AddressLedger (w : World) (x : Address) (rows : List HoldingRow) : Prop where
  distinct : (rows.map HoldingRow.assetId).Nodup
  listed : ∀ a, a ∈ rows.map HoldingRow.assetId ↔ 0 < w.holdingOf a x
  shareCount : ∀ r ∈ rows, r.shareCount = w.deedsOf r.assetId x
  wrapped : ∀ r ∈ rows, r.wrapped = w.wrappedOf r.assetId x

/-- The order of the rows does not matter. -/
theorem HolderLedger.perm {w : World} {a : ID} {rows rows' : List HolderFoldRow}
    (h : w.HolderLedger a rows) (hperm : rows'.Perm rows) : w.HolderLedger a rows' where
  distinct := (hperm.map _).nodup_iff.mpr h.distinct
  listed x := (hperm.map _).mem_iff.trans (h.listed x)
  shareCount r hr := h.shareCount r (hperm.mem_iff.mp hr)
  wrapped r hr := h.wrapped r (hperm.mem_iff.mp hr)
  holding r hr := h.holding r (hperm.mem_iff.mp hr)
  total := (hperm.map _).sum_eq.trans h.total

/-- The order of the rows does not matter to the ledger. -/
theorem AddressLedger.perm {w : World} {x : Address} {rows rows' : List HoldingRow}
    (h : w.AddressLedger x rows) (hperm : rows'.Perm rows) : w.AddressLedger x rows' where
  distinct := (hperm.map _).nodup_iff.mpr h.distinct
  listed a := (hperm.map _).mem_iff.trans (h.listed a)
  shareCount r hr := h.shareCount r (hperm.mem_iff.mp hr)
  wrapped r hr := h.wrapped r (hperm.mem_iff.mp hr)

end World

/-- The claims and redemptions of an asset. -/
theorem signed_claimed (a : ID) (es : List Event) :
    (es.map (Event.signed PositionKind.holdingSign fun b _ => b = a)).sum =
      claimedUnits a es - redeemedUnits a es := by
  induction es with
  | nil => rfl
  | cons e es ih =>
    unfold claimedUnits redeemedUnits at ih ⊢
    simp only [List.map_cons, List.sum_cons, ih]
    cases e <;> simp [Event.signed, Event.position, PositionKind.holdingSign]
    all_goals split <;> omega

namespace Indexer

section Served

variable {w : World} {h evs : List SuiEvent} {a : ID} {x : Address}

/-- A fully ingested log of a world in which everyone holds what it tells. -/
structure Served (w : World) (h evs : List SuiEvent) : Prop where
  reachable : Reachable w
  told : w.Told
  goals : ∀ asset ∈ w.assets, asset.fundingGoal < 2 ^ 63
  recorded : w.Recorded h
  delivered : ∀ x ∈ evs, x ∈ h
  full : ∀ ev ∈ h, Ingested evs ev

namespace Served

/-- The deeds of an address. -/
theorem shareCount (hs : Served w h evs) (a : ID) (x : Address) :
    signedSum PositionKind.shareSign (rowsOf (tables.ingest ∅ evs) (only a x)) =
      some (w.deedsOf a x : ℤ) := by
  have hlt := World.holdingOf_lt hs.reachable hs.goals a x
  unfold World.holdingOf at hlt
  refine signedSum_served hs.reachable hs.recorded hs.delivered hs.full hs.goals ⟨rfl, rfl⟩ ?_
    (Int.natCast_nonneg _) (by omega)
  rw [(hs.told a x).1, deedsTold, List.map_congr_left fun e _ => signed_share a x e]

/-- The coins. -/
theorem wrapped (hs : Served w h evs) (a : ID) (x : Address) :
    signedSum PositionKind.wrapSign (rowsOf (tables.ingest ∅ evs) (only a x)) =
      some (w.wrappedOf a x : ℤ) := by
  have hlt := World.holdingOf_lt hs.reachable hs.goals a x
  unfold World.holdingOf at hlt
  refine signedSum_served hs.reachable hs.recorded hs.delivered hs.full hs.goals ⟨rfl, rfl⟩ ?_
    (Int.natCast_nonneg _) (by omega)
  rw [(hs.told a x).2, coinsTold, List.map_congr_left fun e _ => signed_wrap a x e]

/-- Both. -/
theorem holding_told (hs : Served w h evs) (a : ID) (x : Address) :
    (w.events.map (Event.signed PositionKind.holdingSign (only a x))).sum = w.holdingOf a x := by
  rw [World.holdingOf, Nat.cast_add, (hs.told a x).1, (hs.told a x).2, deedsTold, coinsTold,
    ← List.sum_map_add, List.map_congr_left fun e _ => signed_holding a x e]

/-- What the rows of an address sum to is what it holds. -/
theorem holding (hs : Served w h evs) (a : ID) (x : Address) :
    signedSum PositionKind.holdingSign (rowsOf (tables.ingest ∅ evs) (only a x)) =
      some (w.holdingOf a x : ℤ) := by
  have hlt := World.holdingOf_lt hs.reachable hs.goals a x
  exact signedSum_served hs.reachable hs.recorded hs.delivered hs.full hs.goals ⟨rfl, rfl⟩
    (hs.holding_told a x) (Int.natCast_nonneg _) (by omega)

/-- The rows of the asset add up to its claims less its redemptions. -/
theorem value_sum (hs : Served w h evs) (p : ID → Address → Bool) :
    ((rowsOf (tables.ingest ∅ evs) p).map (PositionRow.value PositionKind.holdingSign)).sum =
      (w.events.map (Event.signed PositionKind.holdingSign p)).sum :=
  sum_rowsOf hs.recorded hs.delivered hs.full (amounts_fit hs.reachable hs.goals ⟨rfl, rfl⟩)

/-- Who holds something has a row. -/
theorem exists_row (hs : Served w h evs) (hpos : 0 < w.holdingOf a x) :
    ∃ r ∈ positionRows (tables.ingest ∅ evs), r.assetId = a ∧ r.actor = x := by
  by_contra hnone
  have hrows : rowsOf (tables.ingest ∅ evs) (only a x) = [] := by
    refine List.filter_eq_nil_iff.mpr fun r hr hsel => hnone ⟨r, hr, ?_⟩
    simpa [only] using hsel
  have hsum := hs.value_sum (only a x)
  rw [hrows, hs.holding_told] at hsum
  simp only [List.map_nil, List.sum_nil] at hsum
  omega

end Served

/-! ## The rows that are served -/

/-- The rows of an asset grouped by address. -/
theorem group_actor (db : Relation Row) (a : ID) (x : Address) :
    Grouping.group PositionRow.actor ((positionRows db).filter (·.assetId = a)) x =
      rowsOf db (only a x) := by
  simp only [Grouping.group, rowsOf, List.filter_filter, only, Bool.decide_and, Bool.and_comm]

/-- The rows of an address grouped by asset. -/
theorem group_asset (db : Relation Row) (a : ID) (x : Address) :
    Grouping.group PositionRow.assetId ((positionRows db).filter (·.actor = x)) a =
      rowsOf db (only a x) := by
  simp only [Grouping.group, rowsOf, List.filter_filter, only, Bool.decide_and]

/-- The row of address `x` in the ledger of asset `a`. -/
def holderRow (w : World) (db : Relation Row) (a : ID) (x : Address) : HolderFoldRow where
  address := x
  shareCount := w.deedsOf a x
  wrapped := w.wrappedOf a x
  holding := w.holdingOf a x
  acquiredAtMs := Indexer.acquiredAtMs (rowsOf db (only a x))
  yieldClaimedIndex := Indexer.yieldClaimedIndex (rowsOf db (only a x))

/-- The row of asset `a` in the holdings of address `x`. -/
def holdingRow (w : World) (db : Relation Row) (x : Address) (a : ID) : HoldingRow where
  assetId := a
  shareCount := w.deedsOf a x
  wrapped := w.wrappedOf a x
  yieldClaimedIndex := Indexer.yieldClaimedIndex (rowsOf db (only a x))

/-- Who holds asset `a`. -/
theorem holders_served (hs : Served w h evs) (a : ID) :
    ∃ rows, holders (tables.ingest ∅ evs) a = some rows ∧ w.HolderLedger a rows := by
  let db := tables.ingest ∅ evs
  let assetRows := (positionRows db).filter (·.assetId = a)
  -- each group folds to the row of its address
  have hfold : ∀ x ∈ Grouping.keys PositionRow.actor assetRows,
      holderFold x (Grouping.group PositionRow.actor assetRows x) = some (holderRow w db a x) := by
    intro x _
    rw [group_actor, holderFold, hs.shareCount a x, hs.wrapped a x, hs.holding a x]
    rfl
  have hrows : holders db a = some (((Grouping.keys PositionRow.actor assetRows).filter fun x =>
      0 < w.holdingOf a x).map (holderRow w db a)) := by
    rw [holders, Grouping.collect_eq hfold, Option.map_some, List.filter_map]
    simp [Function.comp_def, holderRow]
  -- only addresses that hold something are kept
  have haddress : ((((Grouping.keys PositionRow.actor assetRows).filter fun x =>
      0 < w.holdingOf a x).map (holderRow w db a)).map HolderFoldRow.address) =
      (Grouping.keys PositionRow.actor assetRows).filter fun x => 0 < w.holdingOf a x := by
    rw [List.map_map]
    exact List.map_id _
  refine ⟨_, hrows, ?_, ?_, ?_, ?_, ?_, ?_⟩
  · rw [haddress]
    exact Grouping.nodup_keys.filter _
  · intro x
    rw [haddress, List.mem_filter, decide_eq_true_eq, and_iff_right_iff_imp]
    intro hpos
    obtain ⟨r, hr, hasset, hactor⟩ := hs.exists_row hpos
    exact Grouping.mem_keys.mpr ⟨r, List.mem_filter.mpr ⟨hr, decide_eq_true hasset⟩, hactor⟩
  · intro r hr
    obtain ⟨x, -, rfl⟩ := List.mem_map.mp hr
    rfl
  · intro r hr
    obtain ⟨x, -, rfl⟩ := List.mem_map.mp hr
    rfl
  · intro r hr
    obtain ⟨x, -, rfl⟩ := List.mem_map.mp hr
    rfl
  · -- who is not listed holds nothing
    have hgroup : ∀ x, (if decide (0 < w.holdingOf a x) = true then (w.holdingOf a x : ℤ) else 0) =
        ((Grouping.group PositionRow.actor assetRows x).map
          (PositionRow.value PositionKind.holdingSign)).sum := by
      intro x
      rw [group_actor, hs.value_sum, hs.holding_told]
      by_cases hpos : 0 < w.holdingOf a x
      · rw [if_pos (decide_eq_true hpos)]
      · simp [Nat.eq_zero_of_not_pos hpos]
    rw [List.map_map]
    show ((_ : List Address).map fun x => (w.holdingOf a x : ℤ)).sum = _
    rw [Grouping.sum_filter, List.map_congr_left fun x _ => hgroup x, Grouping.sum_groups]
    show ((rowsOf db fun b _ => b = a).map _).sum = _
    rw [hs.value_sum, signed_claimed]

/-- What address `x` holds. -/
theorem holdings_served (hs : Served w h evs) (x : Address) :
    ∃ rows, addressHoldings (tables.ingest ∅ evs) x = some rows ∧ w.AddressLedger x rows := by
  let db := tables.ingest ∅ evs
  let actorRows := (positionRows db).filter (·.actor = x)
  -- each group folds to the row of its asset
  have hfold : ∀ a ∈ Grouping.keys PositionRow.assetId actorRows,
      holdingFold a (Grouping.group PositionRow.assetId actorRows a) =
        some (holdingRow w db x a, (w.holdingOf a x : ℤ)) := by
    intro a _
    have hlt := World.holdingOf_lt hs.reachable hs.goals a x
    rw [group_asset]
    refine holdingFold_eq (hs.shareCount a x) (hs.wrapped a x) ?_
    rw [← Nat.cast_add]
    exact bigint_of_range (by omega) (by exact_mod_cast hlt)
  have hrows : addressHoldings db x = some (((Grouping.keys PositionRow.assetId actorRows).filter
      fun a => 0 < w.holdingOf a x).map (holdingRow w db x)) := by
    rw [addressHoldings, Grouping.collect_eq hfold, Option.map_some, List.filter_map, List.map_map]
    simp [Function.comp_def]
  -- only assets of which something is held are kept
  have hasset : ((((Grouping.keys PositionRow.assetId actorRows).filter fun a =>
      0 < w.holdingOf a x).map (holdingRow w db x)).map HoldingRow.assetId) =
      (Grouping.keys PositionRow.assetId actorRows).filter fun a => 0 < w.holdingOf a x := by
    rw [List.map_map]
    exact List.map_id _
  refine ⟨_, hrows, ?_, ?_, ?_, ?_⟩
  · rw [hasset]
    exact Grouping.nodup_keys.filter _
  · intro a
    rw [hasset, List.mem_filter, decide_eq_true_eq, and_iff_right_iff_imp]
    intro hpos
    obtain ⟨r, hr, hasset, hactor⟩ := hs.exists_row hpos
    exact Grouping.mem_keys.mpr ⟨r, List.mem_filter.mpr ⟨hr, decide_eq_true hactor⟩, hasset⟩
  · intro r hr
    obtain ⟨a, -, rfl⟩ := List.mem_map.mp hr
    rfl
  · intro r hr
    obtain ⟨a, -, rfl⟩ := List.mem_map.mp hr
    rfl

end Served

end Indexer

open Indexer in
/-- The holder ledger matches the chain. As long as deeds and coins stay with their holders, a
    client that follows the pages of `list_holders` gets exactly the holders of the asset, and one
    that follows `list_address_holdings` exactly what the address holds. -/
theorem holder_ledger {w : World} {admin : Address} {actions : List Action} {h evs : List SuiEvent}
    (hrun : (World.genesis admin).run actions = .ok w)
    (hstay : ∀ action ∈ actions, action.Obeys .staying)
    (hgoals : ∀ asset ∈ w.assets, asset.fundingGoal < 2 ^ 63) (hr : w.Recorded h)
    (hevs : ∀ x ∈ evs, x ∈ h) (hfull : ∀ ev ∈ h, Ingested evs ev) :
    (∀ a, ∃ rows, w.HolderLedger a rows ∧ ∀ limit, 0 < limit → ∀ fuel, rows.length < fuel →
      Keyset.follow HolderFoldRow.rank (listHolders (tables.ingest ∅ evs) a · limit) limit fuel
        none = some rows) ∧
    ∀ x, ∃ rows, w.AddressLedger x rows ∧ ∀ limit, 0 < limit → ∀ fuel, rows.length < fuel →
      Keyset.follow HoldingRow.assetId (listAddressHoldings (tables.ingest ∅ evs) x · limit) limit
        fuel none = some rows := by
  have hs : Served w h evs := ⟨⟨admin, actions, hrun⟩, holdings_told hrun hstay, hgoals, hr, hevs,
    hfull⟩
  constructor
  · intro a
    obtain ⟨rows, hrows, hledger⟩ := holders_served hs a
    have hperm : (Keyset.ordered HolderFoldRow.rank rows).Perm rows := Keyset.perm_ordered
    -- the listing is by holding and address; the addresses alone are distinct
    have hkeys : (rows.map HolderFoldRow.rank).Nodup := by
      have haddress := hledger.distinct
      rw [show rows.map HolderFoldRow.address =
        (rows.map HolderFoldRow.rank).map fun k => (ofLex k).2 by rw [List.map_map]; rfl]
        at haddress
      exact haddress.of_map
    refine ⟨_, hledger.perm hperm, fun limit hlimit fuel hfuel => ?_⟩
    rw [hperm.length_eq] at hfuel
    exact Keyset.follow_ordered (fun cursor => by rw [listHolders, hrows, Option.map_some]) hkeys
      hlimit hfuel
  · intro x
    obtain ⟨rows, hrows, hledger⟩ := holdings_served hs x
    have hperm : (Keyset.ordered HoldingRow.assetId rows).Perm rows := Keyset.perm_ordered
    refine ⟨_, hledger.perm hperm, fun limit hlimit fuel hfuel => ?_⟩
    rw [hperm.length_eq] at hfuel
    exact Keyset.follow_ordered
      (fun cursor => by rw [listAddressHoldings, hrows, Option.map_some]) hledger.distinct
      hlimit hfuel

/-- The investor divides deed 9, and wraps the part of 300000 units after the cooldown. -/
def Sample.wrapped : List Action :=
  operational 1000000 100000 ++
  [.transaction 3 [.asset (.claimShares 4 8 6), .accumulator (.splitShare 9 300000)],
   .tick 3600000,
   .transaction 3 [.accumulator (.wrapShares 8 10)]]

open Indexer in
/-- The ledger shows the deed and the coin. -/
theorem holder_ledger_wrapped : ∃ (w : World) (h : List SuiEvent) (rows : List HolderFoldRow),
    w.deedsOf 4 3 = 700000 ∧ w.wrappedOf 4 3 = 300000 ∧ w.HolderLedger 4 rows ∧
    Keyset.follow HolderFoldRow.rank (listHolders (tables.ingest ∅ h) 4 · 20) 20 (rows.length + 1)
      none = some rows := by
  have hrun : returns (World.record (Entry.ofActions 1000 Sample.wrapped)) (fun s =>
      handled ∅ s.2 && decide (s.1.deedsOf 4 3 = 700000 ∧ s.1.wrappedOf 4 3 = 300000) &&
        s.1.assets.entries.all fun asset => asset.fundingGoal < 2 ^ 63) = true := by
    decide +kernel
  obtain ⟨s, hs, hq⟩ := returns_iff.mp hrun
  simp only [Bool.and_eq_true, decide_eq_true_eq, List.all_eq_true] at hq
  obtain ⟨⟨hhandled, hdeeds, hwrapped⟩, hgoals⟩ := hq
  have hactions := World.run_of_record hs
  rw [Entry.action_ofActions] at hactions
  -- no call of the run moves a deed or a coin away from its holder
  have hstay : ∀ action ∈ Sample.wrapped, action.Obeys .staying := by
    simp [Sample.wrapped, Sample.operational, Sample.approved, Sample.executing, Sample.vouched,
      Action.Obeys, CallRule.staying, Call.StaysWith]
  obtain ⟨rows, hledger, hpages⟩ := (holder_ledger hactions hstay hgoals (.of_record hs)
    (fun _ hx => hx) fun ev hev => ingested_of_handled hhandled hev).1 4
  exact ⟨s.1, s.2, rows, hdeeds, hwrapped, hledger, hpages 20 (by decide) _ (Nat.lt_succ_self _)⟩

end Gally

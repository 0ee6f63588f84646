import Gally.Indexer.Ingestion

/-!
# Which event owns a row

Every key is inserted by one event of a record: a row of an event table by the event itself, an
asset, pool or dispute by the event that announced it (`owner_unique`). Updates go to what the
event mentions, so they come after the insert and from the module that announced the row.
-/

namespace Gally

open Relational Indexer

/-- The key of the row of an object. -/
def Ref.key : Ref → Key
  | .asset a => .asset a
  | .pool p => .validatorPool p
  | .dispute d => .dispute d

/-- The module that announces the object. -/
def Ref.module : Ref → Module
  | .asset _ => .asset
  | .pool _ => .validator
  | .dispute _ => .dispute

/-- Different objects have different keys. -/
theorem Ref.key_injective {r r' : Ref} (h : r.key = r'.key) : r = r' := by
  cases r <;> cases r' <;> simp_all [Ref.key]

namespace Indexer

variable {ev : SuiEvent} {k : Key} {r : Ref} {row : Row} {a : Assignment}

/-- An event that creates an object comes from the module of the object. -/
theorem module_of_creates (h : ev.event.creates = some r) : eventModule ev = r.module := by
  obtain ⟨id, timestampMs, e⟩ := ev
  cases e <;> simp only [Event.creates, reduceCtorEq, Option.some.injEq] at h <;> subst h <;> rfl

/-- What an event needs, it mentions. -/
theorem mentions_of_needs (h : k ∈ ev.event.needs) : ∃ r ∈ ev.event.mentions, r.key = k := by
  obtain ⟨id, timestampMs, e⟩ := ev
  cases e <;> simp only [Event.needs, List.mem_cons, List.not_mem_nil, or_false] at h <;>
    first
    | exact h.elim
    | exact ⟨_, List.mem_cons_self, h.symm⟩
    | skip
  -- only the events about a dispute need rows that are not their first object's
  case disputeOpened d a p _ _ _ _ =>
    rcases h with rfl | rfl
    · exact ⟨.asset a, by simp [Event.mentions], rfl⟩
    · exact ⟨.pool p, by simp [Event.mentions], rfl⟩
  case disputeResolved d a p _ _ _ _ _ _ _ =>
    exact ⟨.asset a, by simp [Event.mentions], h.symm⟩

/-- The event that inserts rows under a key. -/
def Owner (ev : SuiEvent) : Key → Prop
  | .event _ txDigest eventSeq =>
    txDigest = ev.id.txDigest ∧ eventSeq = parseI32 ev.id.eventSeq
  | .asset a | .trancheSchedule a _ => ev.event.creates = some (.asset a)
  | .validatorPool p => ev.event.creates = some (.pool p)
  | .dispute d => ev.event.creates = some (.dispute d)

/-- What an event inserts, it owns. -/
theorem owner_of_insert (h : .insert row ∈ routeEvent ev) : Owner ev row.key := by
  obtain ⟨id, timestampMs, e⟩ := ev
  cases e <;> simp [routeEvent] at h
  case assetCreated =>
    rcases h with rfl | ⟨_, _, _, _, -, rfl⟩ | rfl
    · rfl
    · rfl
    · exact ⟨rfl, rfl⟩
  case validatorRegistered | disputeOpened =>
    subst h
    rfl
  case yieldClaimed | revenueDeposited | rolloverSwept | compensationSwept | dustSwept =>
    rcases h with rfl | rfl <;> exact ⟨rfl, rfl⟩
  all_goals
    subst h
    exact ⟨rfl, rfl⟩

/-- The row under the key of an asset is an asset. -/
theorem asset_of_key {assetId : ID} (h : row.key = .asset assetId) : ∃ r, row = .asset r := by
  cases row <;> first | exact ⟨_, rfl⟩ | exact nomatch h

/-- The row under the key of a pool is a pool. -/
theorem validatorPool_of_key {poolId : ID} (h : row.key = .validatorPool poolId) :
    ∃ r, row = .validatorPool r := by
  cases row <;> first | exact ⟨_, rfl⟩ | exact nomatch h

/-- The row under the key of a dispute is a dispute. -/
theorem dispute_of_key {disputeId : ID} (h : row.key = .dispute disputeId) :
    ∃ r, row = .dispute r := by
  cases row <;> first | exact ⟨_, rfl⟩ | exact nomatch h

/-- An update goes to an object that the event mentions, announced by the same module. -/
theorem target_of_update (h : .update k a ∈ routeEvent ev) :
    ∃ r ∈ ev.event.mentions, r.key = k ∧ eventModule ev = r.module := by
  obtain ⟨id, timestampMs, e⟩ := ev
  cases e <;> simp [routeEvent] at h
  -- the three kinds of updates, by the object they name first
  case validatorStatusChanged =>
    obtain ⟨rfl, -⟩ := h
    exact ⟨.pool _, List.mem_cons_self, rfl, rfl⟩
  case disputeResolved =>
    obtain ⟨rfl, -⟩ := h
    exact ⟨.dispute _, List.mem_cons_self, rfl, rfl⟩
  all_goals
    obtain ⟨rfl, -⟩ := h
    exact ⟨.asset _, List.mem_cons_self, rfl, rfl⟩

/-- The row updated has the columns. -/
theorem writable_of_update (h : .update k a ∈ routeEvent ev) (hkey : row.key = k) :
    row.Writable a := by
  obtain ⟨id, timestampMs, e⟩ := ev
  cases e <;> simp [routeEvent] at h
  case validatorStatusChanged =>
    obtain ⟨rfl, rfl⟩ := h
    obtain ⟨r, rfl⟩ := validatorPool_of_key hkey
    trivial
  case disputeResolved =>
    obtain ⟨rfl, rfl⟩ := h
    obtain ⟨r, rfl⟩ := dispute_of_key hkey
    trivial
  all_goals
    obtain ⟨rfl, rfl⟩ := h
    obtain ⟨r, rfl⟩ := asset_of_key hkey
    trivial

/-- An event makes at most one update, and always reaches it. -/
theorem updatesAt_routeEvent (h : .update k a ∈ routeEvent ev) :
    updatesAt k (stored (routeEvent ev)) = [a] := by
  obtain ⟨id, timestampMs, e⟩ := ev
  cases e <;> simp [routeEvent] at h
  all_goals
    obtain ⟨rfl, rfl⟩ := h
    simp [routeEvent, stored, List.takeWhile_cons, Stmt.storable, Schema.storable, Row.storable]

/-- An event without updates of a row stores none. -/
theorem updatesAt_eq_nil (h : ∀ a, .update k a ∉ routeEvent ev) :
    updatesAt k (stored (routeEvent ev)) = [] := by
  rw [List.eq_nil_iff_forall_not_mem]
  exact fun a ha => h a (mem_of_mem_stored (mem_updatesAt.mp ha))

/-- Assets and pools need nothing. -/
theorem needs_of_creates (h : ev.event.creates = some r) (hr : r.module ≠ .dispute) :
    ev.event.needs = [] := by
  obtain ⟨id, timestampMs, e⟩ := ev
  cases e <;> simp only [Event.creates, reduceCtorEq, Option.some.injEq] at h
  case assetCreated | validatorRegistered => rfl
  case disputeOpened =>
    subst h
    exact absurd rfl hr

/-- What needs a dispute needs nothing else. -/
theorem needs_dispute (h : r.key ∈ ev.event.needs) (hr : r.module = .dispute) :
    ev.event.needs = [r.key] ∧ eventModule ev = .dispute := by
  cases r with
  | asset a => cases hr
  | pool p => cases hr
  | dispute d =>
    obtain ⟨id, timestampMs, e⟩ := ev
    -- the events that name a dispute need nothing else
    cases e <;> simp only [Event.needs, Ref.key, List.mem_cons, List.not_mem_nil, or_false,
      reduceCtorEq, Key.dispute.injEq, or_self] at h
    all_goals
      subst h
      exact ⟨rfl, rfl⟩

/-! ## Positions in the record -/

section Recorded

variable {w : World} {h before after : List SuiEvent} {ev' : SuiEvent}

/-- The number of an event within its transaction survives the cast. -/
theorem parseI32_of_lt {n : ℕ} (hn : n < maxEventsPerTransaction) : parseI32 n = n := by
  have hlt : n < 2 ^ 31 := Nat.lt_trans hn (by decide)
  rw [parseI32, if_pos hlt]

/-- A key has one owner. -/
theorem owner_unique (hr : w.Recorded h) (he : ev ∈ h) (he' : ev' ∈ h) (ho : Owner ev k)
    (ho' : Owner ev' k) : ev = ev' := by
  cases k with
  | event table txDigest eventSeq =>
    -- the digest and the number of the row are those of the event
    refine hr.eq_of_id he he' (EventId.ext (ho.1.symm.trans ho'.1) ?_)
    have hseq := ho.2.symm.trans ho'.2
    rw [parseI32_of_lt (hr.bounds he).1, parseI32_of_lt (hr.bounds he').1] at hseq
    exact Int.ofNat_inj.mp hseq
  | asset a => exact hr.created_once he he' ho ho'
  | trancheSchedule a i => exact hr.created_once he he' ho ho'
  | validatorPool p => exact hr.created_once he he' ho ho'
  | dispute d => exact hr.created_once he he' ho ho'

/-- The event whose insert counts owns the row. -/
theorem owner_of_inserts (hins : tables.inserts k ev = some row) : Owner ev k := by
  obtain ⟨hmem, hkey⟩ := mem_of_insertAt hins
  have howner := owner_of_insert (mem_of_mem_stored hmem)
  rwa [show row.key = k from hkey] at howner

/-- The owner of an object's row is the event that announces it. -/
theorem creates_of_owner (ho : Owner ev r.key) : ev.event.creates = some r := by
  cases r <;> exact ho

/-- Updates of a row come from the module that announced it. -/
theorem module_of_update (hu : .update k a ∈ routeEvent ev) (ho : Owner ev' k) :
    eventModule ev = eventModule ev' := by
  obtain ⟨r, -, rfl, hmodule⟩ := target_of_update hu
  rw [hmodule, module_of_creates (creates_of_owner ho)]

/-- What an event updates was announced before it. -/
theorem updated_after (hr : w.Recorded h) (hh : h = before ++ ev :: after)
    (hu : .update k a ∈ routeEvent ev) (ho : Owner ev' k) (he' : ev' ∈ h) : ev' ∈ before := by
  obtain ⟨r, hmem, rfl, -⟩ := target_of_update hu
  obtain ⟨c, hc, hcreates⟩ := hr.mentioned hh hmem
  have hc' : c ∈ h := hh ▸ List.mem_append_left _ hc
  exact hr.created_once hc' he' hcreates (creates_of_owner ho) ▸ hc

/-! ## What is present, and what it holds -/

variable {evs : List SuiEvent} {ds : List Delivery}

/-- Ingestion in order misses no row that some ingestion of the same events stores. -/
theorem present_after_owner (hr : w.Recorded h) (hevs : ∀ e ∈ evs, e ∈ h)
    (hpresent : (tables.ingest ∅ evs).Has k) (hh : h = before ++ ev :: after) (ho : Owner ev k) :
    (tables.ingest ∅ (before ++ [ev])).Has k := by
  induction hlen : before.length using Nat.strongRecOn generalizing before after ev k evs with
  | ind n ih =>
    have hmem : ev ∈ h := hh ▸ List.mem_append_right _ List.mem_cons_self
    obtain ⟨pre, c, post, hsplit, hready, hins⟩ := tables.has_ingest_empty.mp hpresent
    obtain ⟨row, hrow⟩ := Option.isSome_iff_exists.mp hins
    have hc : c ∈ h := hevs c (hsplit ▸ List.mem_append_right _ List.mem_cons_self)
    obtain rfl := owner_unique hr hc hmem (owner_of_inserts hrow) ho
    have hpre : ∀ e ∈ pre, e ∈ h := fun e he => hevs e (hsplit ▸ List.mem_append_left _ he)
    refine tables.has_ingest_empty.mpr ⟨before, c, [], rfl, fun j hj => ?_, hins⟩
    -- what the owner needs was announced before it
    obtain ⟨r, hr', rfl⟩ := mentions_of_needs hj
    obtain ⟨x, hx, hcreates⟩ := hr.mentioned hh hr'
    obtain ⟨b₁, b₂, rfl⟩ := List.append_of_mem hx
    have hshort : b₁.length < n := by
      rw [← hlen, List.length_append, List.length_cons]
      omega
    have hx' : Owner x r.key := by cases r <;> exact hcreates
    have hh' : h = b₁ ++ x :: (b₂ ++ c :: after) := by simp [hh]
    have hbefore := ih _ hshort hpre (hready _ hj) hh' hx' rfl
    rw [show b₁ ++ x :: b₂ = (b₁ ++ [x]) ++ b₂ by simp, tables.ingest_append]
    exact tables.has_ingest hbefore

/-- A row that is present after some events of the history is present after all of them. -/
theorem present_in_order (hr : w.Recorded h) (hevs : ∀ e ∈ evs, e ∈ h)
    (hpresent : (tables.ingest ∅ evs).Has k) : (tables.ingest ∅ h).Has k := by
  obtain ⟨pre, c, post, hsplit, -, hins⟩ := tables.has_ingest_empty.mp hpresent
  obtain ⟨row, hrow⟩ := Option.isSome_iff_exists.mp hins
  obtain ⟨before, after, hh⟩ := List.append_of_mem
    (hevs c (hsplit ▸ List.mem_append_right _ List.mem_cons_self))
  -- the owner comes before, so its insert is executed in order as well
  have hafter := present_after_owner hr hevs hpresent hh (owner_of_inserts hrow)
  rw [hh, show before ++ c :: after = (before ++ [c]) ++ after by simp, tables.ingest_append]
  exact tables.has_ingest hafter

/-- No update of a key comes up to its owner. -/
theorem updates_upto_owner (hr : w.Recorded h) (hh : h = before ++ ev :: after)
    (ho : Owner ev k) : tables.updates k (before ++ [ev]) = [] := by
  have hmem : ev ∈ h := hh ▸ List.mem_append_right _ List.mem_cons_self
  -- an update before the owner would make the owner come twice
  refine tables.updates_eq_nil fun x hx => updatesAt_eq_nil fun a ha => ?_
  have htwice : ev ∈ before := by
    rcases List.mem_append.mp hx with hx | hx
    · obtain ⟨b₁, b₂, rfl⟩ := List.append_of_mem hx
      have hh' : h = b₁ ++ x :: (b₂ ++ ev :: after) := by simp [hh]
      exact List.mem_append_left _ (updated_after hr hh' ha ho hmem)
    · obtain rfl := List.mem_singleton.mp hx
      exact updated_after hr hh ha ho hmem
  have hnodup := hr.nodup
  rw [hh, List.nodup_append] at hnodup
  exact hnodup.2.2 ev htwice ev List.mem_cons_self rfl

/-- Updates of a row are found in the stream of the module that announced it. -/
theorem updates_stream (ho : Owner ev k) :
    tables.updates k (Feed.stream eventModule (eventModule ev) evs) = tables.updates k evs := by
  refine tables.updates_filter fun x _ hx => updatesAt_eq_nil fun a ha => ?_
  exact of_decide_eq_false hx (module_of_update ha ho)

/-- After an ingestion in order a row has seen every update of its key. -/
theorem row_in_order (hr : w.Recorded h) (hrow : (tables.ingest ∅ h).get? k = some row) :
    ∃ e ∈ h, ∃ first, tables.inserts k e = some first ∧
      row = assignAll (tables.updates k h) first := by
  obtain ⟨pre, e, post, first, hsplit, -, -, hins, heq⟩ := tables.get?_ingest_of_none rfl hrow
  have he : e ∈ h := hsplit ▸ List.mem_append_right _ List.mem_cons_self
  refine ⟨e, he, first, hins, ?_⟩
  have hbefore := updates_upto_owner hr hsplit (owner_of_inserts hins)
  rw [heq, hsplit, show pre ++ e :: post = (pre ++ [e]) ++ post by simp, tables.updates_append,
    hbefore, List.nil_append]

end Recorded

end Indexer

end Gally

import Gally.Indexer.Schedules
import Gally.Law.Trial

/-!
# Schedules of the ingestion loop

Two schedules that deliver every module fully agree on every row both have (`row_agrees`). They
agree on which rows there are exactly when they agree on which events come at some time after the
assets and pools their rows refer to (`confluent_iff`); delivering each module in order does not
ensure that.
-/

namespace Gally

open Checked Relational Indexer Feed

namespace Indexer

variable {evs a : List SuiEvent} {e : SuiEvent} {r : Ref}

/-- One of the events stores the row of an object. -/
def Announced (evs : List SuiEvent) (r : Ref) : Prop :=
  ∃ c ∈ evs, c.event.creates = some r ∧ (tables.inserts r.key c).isSome = true

/-- The event is delivered after the assets and pools that its rows refer to. -/
def Grounded (evs : List SuiEvent) (e : SuiEvent) : Prop :=
  ∃ a b, evs = a ++ e :: b ∧
    ∀ r : Ref, r.key ∈ e.event.needs → r.module ≠ .dispute → Announced a r

/-- The event stores a row. -/
def Stores (e : SuiEvent) : Prop := ∃ k, (tables.inserts k e).isSome = true

/-- The rows of the event refer to a dispute. -/
def NeedsDispute (e : SuiEvent) : Prop := ∃ r : Ref, r.key ∈ e.event.needs ∧ r.module = .dispute

/-- An asset or a pool is present as soon as its event was delivered. -/
theorem has_iff_announced (hr : r.module ≠ .dispute) :
    (tables.ingest ∅ evs).Has r.key ↔ Announced evs r := by
  rw [tables.has_ingest_empty]
  constructor
  · intro ⟨a, c, b, hsplit, _, hins⟩
    obtain ⟨row, hrow⟩ := Option.isSome_iff_exists.mp hins
    have hcreates := creates_of_owner (owner_of_inserts hrow)
    exact ⟨c, hsplit ▸ List.mem_append_right _ List.mem_cons_self, hcreates, hins⟩
  · intro ⟨c, hc, hcreates, hins⟩
    obtain ⟨a, b, hsplit⟩ := List.append_of_mem hc
    refine ⟨a, c, b, hsplit, ?_, hins⟩
    have hneeds : tables.needs c = [] := needs_of_creates hcreates hr
    rw [Projection.Ready, hneeds]
    exact nofun

/-- An event that needs no dispute is ready when the assets and pools it needs have been
    announced. -/
theorem ready_iff (hd : ¬ NeedsDispute e) : tables.Ready (tables.ingest ∅ a) e ↔
    ∀ r : Ref, r.key ∈ e.event.needs → r.module ≠ .dispute → Announced a r := by
  constructor
  · intro hready r hr hmodule
    exact (has_iff_announced hmodule).mp (hready _ hr)
  · intro hall k hk
    obtain ⟨r, -, rfl⟩ := mentions_of_needs hk
    have hmodule : r.module ≠ .dispute := fun heq => hd ⟨r, hk, heq⟩
    exact (has_iff_announced hmodule).mpr (hall r hk hmodule)

/-- What announces an object needs no dispute. -/
theorem not_needsDispute (h : e.event.creates = some r) : ¬ NeedsDispute e := by
  rintro ⟨r', hr', hmodule⟩
  obtain ⟨hneeds, hdispute⟩ := needs_dispute hr' hmodule
  by_cases hr : r.module = .dispute
  · -- a challenge refers to an asset and a pool
    obtain ⟨id, timestampMs, ev⟩ := e
    cases ev <;> simp [Event.creates] at h
    case assetCreated | validatorRegistered => cases hdispute
    case disputeOpened => simp [Event.needs] at hneeds
  · rw [needs_of_creates h hr] at hneeds
    cases hneeds

end Indexer

variable {w : World} {h : List SuiEvent} {ps ps' : List (Poll Module)} {hub hub' : Hub}
  {e : SuiEvent} {k : Key} {row row' : Row}

/-- What two full schedules both store is the same. -/
theorem row_agrees (hr : w.Recorded h)
    (hup : (Reader.polls eventModule h ps).CaughtUp eventModule h)
    (hup' : (Reader.polls eventModule h ps').CaughtUp eventModule h)
    (hrow : (tables.ingest ∅ (Reader.polls eventModule h ps).received).get? k = some row)
    (hrow' : (tables.ingest ∅ (Reader.polls eventModule h ps').received).get? k = some row') :
    row = row' := by
  obtain ⟨e, he, first, hins, rfl⟩ := row_delivered hr hup hrow
  obtain ⟨e', he', first', hins', rfl⟩ := row_delivered hr hup' hrow'
  obtain rfl := owner_unique hr he he' (owner_of_inserts hins) (owner_of_inserts hins')
  rw [hins] at hins'
  rw [Option.some.inj hins']

/-- An event that stored a row was delivered when what it needs was present. -/
theorem ready_of_has {evs : List SuiEvent} (hr : w.Recorded h) (hevs : ∀ x ∈ evs, x ∈ h)
    (he : e ∈ h) (hins : (tables.inserts k e).isSome = true) (hhas : (tables.ingest ∅ evs).Has k) :
    ∃ a b, evs = a ++ e :: b ∧ tables.Ready (tables.ingest ∅ a) e := by
  obtain ⟨a, c, b, hsplit, hready, hins'⟩ := tables.has_ingest_empty.mp hhas
  obtain ⟨_, hrow⟩ := Option.isSome_iff_exists.mp hins
  obtain ⟨_, hrow'⟩ := Option.isSome_iff_exists.mp hins'
  have hc : c ∈ h := hevs c (hsplit ▸ List.mem_append_right _ List.mem_cons_self)
  obtain rfl := owner_unique hr hc he (owner_of_inserts hrow') (owner_of_inserts hrow)
  exact ⟨a, b, hsplit, hready⟩

/-- Rows that refer to no dispute are stored by a schedule that grounds what another does. -/
theorem has_of_agree {evs evs' : List SuiEvent} (hevs : ∀ x ∈ evs, x ∈ h)
    (hagree : ∀ e ∈ h, Stores e → Grounded evs e → Grounded evs' e)
    (hhas : (tables.ingest ∅ evs).Has k)
    (hd : ∀ e ∈ evs, (tables.inserts k e).isSome = true → ¬ NeedsDispute e) :
    (tables.ingest ∅ evs').Has k := by
  obtain ⟨a, c, b, hsplit, hready, hins⟩ := tables.has_ingest_empty.mp hhas
  have hmem : c ∈ evs := hsplit ▸ List.mem_append_right _ List.mem_cons_self
  have hnot := hd c hmem hins
  obtain ⟨a', b', hsplit', hall⟩ := hagree c (hevs c hmem) ⟨k, hins⟩
    ⟨a, b, hsplit, (ready_iff hnot).mp hready⟩
  exact tables.has_ingest_empty.mpr ⟨a', c, b', hsplit', (ready_iff hnot).mpr hall, hins⟩

/-- So are those that refer to a dispute: they follow its opening in their module. -/
theorem has_of_agree_polls (hr : w.Recorded h) {evs : List SuiEvent} (hevs : ∀ x ∈ evs, x ∈ h)
    (hup : (Reader.polls eventModule h ps).CaughtUp eventModule h)
    (hagree : ∀ e ∈ h, Stores e → Grounded evs e →
      Grounded (Reader.polls eventModule h ps).received e)
    (hhas : (tables.ingest ∅ evs).Has k) :
    (tables.ingest ∅ (Reader.polls eventModule h ps).received).Has k := by
  obtain ⟨a, c, b, hsplit, hready, hins⟩ := tables.has_ingest_empty.mp hhas
  have hc : c ∈ h := hevs c (hsplit ▸ List.mem_append_right _ List.mem_cons_self)
  by_cases hd : NeedsDispute c
  · obtain ⟨r, hneeds, hmodule⟩ := hd
    obtain ⟨hsingle, hdispute⟩ := needs_dispute hneeds hmodule
    -- the dispute is present under both schedules
    have hopened : (tables.ingest ∅ evs).Has r.key := by
      rw [hsplit, tables.ingest_append]
      exact tables.has_ingest (hready _ hneeds)
    have hopened' := has_of_agree hevs hagree hopened fun e _ he => by
      obtain ⟨_, hrow⟩ := Option.isSome_iff_exists.mp he
      exact not_needsDispute (creates_of_owner (owner_of_inserts hrow))
    obtain ⟨a', o, b', hsplit', hready', hins'⟩ := tables.has_ingest_empty.mp hopened'
    obtain ⟨_, hrow'⟩ := Option.isSome_iff_exists.mp hins'
    have hcreates := creates_of_owner (owner_of_inserts hrow')
    have ho : o ∈ h := mem_of_received (hsplit' ▸ List.mem_append_right _ List.mem_cons_self)
    -- and the event comes after its opening
    obtain ⟨h₁, h₂, hh⟩ := List.append_of_mem hc
    obtain ⟨r', hr', hkey⟩ := mentions_of_needs hneeds
    obtain rfl := Ref.key_injective hkey
    obtain ⟨x, hx, hx'⟩ := hr.mentioned hh hr'
    obtain rfl := hr.created_once (hh ▸ List.mem_append_left _ hx) ho hx' hcreates
    obtain ⟨h₃, h₄, rfl⟩ := List.append_of_mem hx
    have hh' : h = h₃ ++ x :: (h₄ ++ c :: h₂) := by simp [hh]
    have hsource : eventModule c = eventModule x := by
      rw [hdispute, module_of_creates hcreates, hmodule]
    have hafter : c ∈ b' := (Reads.polls ps).mem_after hup hr.nodup hh' (by simp) hsource hsplit'
    obtain ⟨b₁, b₂, rfl⟩ := List.append_of_mem hafter
    refine tables.has_ingest_empty.mpr ⟨a' ++ x :: b₁, c, b₂, by simp [hsplit'], ?_, hins⟩
    intro n hn
    have hn' : n = r'.key := by
      rw [show tables.needs c = [r'.key] from hsingle] at hn
      exact List.mem_singleton.mp hn
    rw [hn']
    exact tables.has_ingest_empty.mpr ⟨a', x, b₁, rfl, hready', hins'⟩
  · refine has_of_agree hevs hagree hhas fun e he hins' => ?_
    obtain ⟨_, hrow⟩ := Option.isSome_iff_exists.mp hins
    obtain ⟨_, hrow'⟩ := Option.isSome_iff_exists.mp hins'
    obtain rfl := owner_unique hr (hevs e he) hc (owner_of_inserts hrow') (owner_of_inserts hrow)
    exact hd

/-- Equal tables ground the same events. -/
theorem grounded_of_has (hr : w.Recorded h)
    (hup : (Reader.polls eventModule h ps).CaughtUp eventModule h)
    {evs : List SuiEvent}
    (hhas : ∀ k, (tables.ingest ∅ evs).Has k →
      (tables.ingest ∅ (Reader.polls eventModule h ps).received).Has k)
    (he : e ∈ h) (hstores : Stores e) (hg : Grounded evs e) :
    Grounded (Reader.polls eventModule h ps).received e := by
  by_cases hd : NeedsDispute e
  · -- a dispute is no asset and no pool
    obtain ⟨r, hneeds, hmodule⟩ := hd
    obtain ⟨hsingle, -⟩ := needs_dispute hneeds hmodule
    have hreceived := List.mem_append_right (Reader.polls eventModule h ps).earlier
      ((Reads.polls ps).mem_of_caughtUp hup he)
    obtain ⟨a, b, hsplit⟩ := List.append_of_mem hreceived
    refine ⟨a, b, hsplit, fun r' hr' hmodule' => ?_⟩
    rw [hsingle, List.mem_singleton] at hr'
    exact absurd (Ref.key_injective hr' ▸ hmodule) hmodule'
  -- with the row present in both orders, the event was ready in both
  · obtain ⟨k, hins⟩ := hstores
    obtain ⟨a, b, hsplit, hall⟩ := hg
    have hpresent : (tables.ingest ∅ evs).Has k :=
      tables.has_ingest_empty.mpr ⟨a, e, b, hsplit, (ready_iff hd).mpr hall, hins⟩
    obtain ⟨a', b', hsplit', hready⟩ := ready_of_has hr (fun _ => mem_of_received) he hins
      (hhas k hpresent)
    exact ⟨a', b', hsplit', (ready_iff hd).mp hready⟩

/-- Two schedules that deliver every module fully end with the same rows exactly when they deliver
    the same events at some time after the assets and pools that their rows refer to. -/
theorem confluent_iff (hr : w.Recorded h) {db db' : Database} {frames frames' : List (ℕ × SuiEvent)}
    (hrun : run hub h ps = some (db, frames)) (hrun' : run hub' h ps' = some (db', frames'))
    (hup : (Reader.polls eventModule h ps).CaughtUp eventModule h)
    (hup' : (Reader.polls eventModule h ps').CaughtUp eventModule h) :
    (∀ k, db.typed.get? k = db'.typed.get? k) ↔
      ∀ e ∈ h, Stores e → (Grounded (Reader.polls eventModule h ps).received e ↔
        Grounded (Reader.polls eventModule h ps').received e) := by
  rw [run_typed hrun, run_typed hrun']
  constructor
  · intro heq e he hstores
    refine ⟨grounded_of_has hr hup' (fun k hk => ?_) he hstores,
      grounded_of_has hr hup (fun k hk => ?_) he hstores⟩
    · rwa [Relation.Has, ← heq]
    · rwa [Relation.Has, heq]
  · intro hagree k
    have hto := has_of_agree_polls (k := k) hr (fun _ => mem_of_received) hup'
      fun e he hs => (hagree e he hs).mp
    have hfrom := has_of_agree_polls (k := k) hr (fun _ => mem_of_received) hup
      fun e he hs => (hagree e he hs).mpr
    -- a row that both have is the same, and neither has one that the other lacks
    cases hrow : (tables.ingest ∅ (Reader.polls eventModule h ps).received).get? k with
    | some row =>
      obtain ⟨row', hrow'⟩ := Option.isSome_iff_exists.mp (hto (by rw [Relation.Has, hrow]; rfl))
      rw [hrow', row_agrees hr hup hup' hrow hrow']
    | none =>
      cases hrow' : (tables.ingest ∅ (Reader.polls eventModule h ps').received).get? k with
      | none => rfl
      | some row' =>
        have hhas := hfrom (by rw [Relation.Has, hrow']; rfl)
        rw [Relation.Has, hrow] at hhas
        cases hhas

namespace Sample

/-- The executing asset 4 is challenged. -/
def challenged : List Entry :=
  Entry.ofActions 1000 (executing 1000000 100000 ++ court ++ [.transaction 3 [challenge]])

/-- One cycle of the loop in which every poll brings what there is. -/
def cycle : List (Poll Module) :=
  [.page .protocol 50, .page .validator 50, .page .asset 50, .page .accumulator 50,
    .page .dispute 50]

/-- The poll of `asset` fails in the first cycle. -/
def lateAssets : List (Poll Module) :=
  [.page .protocol 50, .page .validator 50, .page .asset 0, .page .accumulator 50,
    .page .dispute 50] ++ cycle

/-- The schedule reads every module to its end; `share` emits no event. -/
def full (h : List SuiEvent) (ps : List (Poll Module)) : Bool :=
  [Module.protocol, .validator, .asset, .share, .accumulator, .dispute].all fun m =>
    (stream eventModule m h).length ≤ (Reader.polls eventModule h ps).cursor m

/-- What the check of a schedule evaluates. -/
theorem caughtUp_of_full {h : List SuiEvent} {ps : List (Poll Module)} (hfull : full h ps = true) :
    (Reader.polls eventModule h ps).CaughtUp eventModule h := by
  intro m
  rw [full, List.all_eq_true] at hfull
  cases m with
  | protocol => exact of_decide_eq_true (hfull .protocol (by decide))
  | validator => exact of_decide_eq_true (hfull .validator (by decide))
  | asset => exact of_decide_eq_true (hfull .asset (by decide))
  | share => exact of_decide_eq_true (hfull .share (by decide))
  | accumulator => exact of_decide_eq_true (hfull .accumulator (by decide))
  | dispute => exact of_decide_eq_true (hfull .dispute (by decide))

end Sample

open Sample

/-- A restart that reads everything again grounds the same events. -/
theorem confluent_restarted : ∃ h, (∀ e ∈ h, Stores e →
    (Grounded (Reader.polls eventModule h cycle).received e ↔
      Grounded (Reader.polls eventModule h (cycle ++ .restart :: cycle)).received e)) ∧
    (tables.ingest ∅ (Reader.polls eventModule h cycle).received).Has (.dispute 11) := by
  have hrun : returns (World.record challenged) (fun s =>
      full s.2 cycle && full s.2 (cycle ++ .restart :: cycle) &&
      (tables.ingest ∅ (Reader.polls eventModule s.2 cycle).received).rows =
        (tables.ingest ∅
          (Reader.polls eventModule s.2 (cycle ++ .restart :: cycle)).received).rows &&
      ((tables.ingest ∅ (Reader.polls eventModule s.2 cycle).received).get? (.dispute 11)).isSome)
      = true := by
    decide +kernel
  obtain ⟨s, hs, hq⟩ := returns_iff.mp hrun
  simp only [Bool.and_eq_true, decide_eq_true_eq] at hq
  obtain ⟨⟨⟨hup, hup'⟩, hrows⟩, hdispute⟩ := hq
  obtain ⟨_, hdb⟩ := processAll_sound ⟨fun _ => []⟩ ∅ (Reader.polls eventModule s.2 cycle).received
  obtain ⟨_, hdb'⟩ := processAll_sound ⟨fun _ => []⟩ ∅
    (Reader.polls eventModule s.2 (cycle ++ .restart :: cycle)).received
  refine ⟨s.2, (confluent_iff (.of_record hs) hdb hdb' (caughtUp_of_full hup)
    (caughtUp_of_full hup')).mp fun k => ?_, hdispute⟩
  exact congrArg (List.find? fun r => Schema.key r = k) hrows

/-- When the poll of `asset` fails once, the challenge of asset 4 is read before the asset, its row
    is refused, and the next cycle does not bring it again. -/
theorem schedules_disagree : ¬ ∀ {w : World} {h : List SuiEvent} {ps ps' : List (Poll Module)}
    {hub hub' : Hub} {db db' : Database} {frames frames' : List (ℕ × SuiEvent)}, w.Recorded h →
    run hub h ps = some (db, frames) → run hub' h ps' = some (db', frames') →
    (Reader.polls eventModule h ps).CaughtUp eventModule h →
    (Reader.polls eventModule h ps').CaughtUp eventModule h →
    ∀ k, db.typed.get? k = db'.typed.get? k := by
  intro hclaim
  have hrun : returns (World.record challenged) (fun s =>
      full s.2 cycle && full s.2 lateAssets &&
      (tables.ingest ∅ (Reader.polls eventModule s.2 cycle).received).get? (.dispute 11) ≠
        (tables.ingest ∅ (Reader.polls eventModule s.2 lateAssets).received).get? (.dispute 11))
      = true := by
    decide +kernel
  obtain ⟨s, hs, hq⟩ := returns_iff.mp hrun
  simp only [Bool.and_eq_true, decide_eq_true_eq] at hq
  obtain ⟨⟨hup, hup'⟩, hne⟩ := hq
  obtain ⟨_, hdb⟩ := processAll_sound ⟨fun _ => []⟩ ∅ (Reader.polls eventModule s.2 cycle).received
  obtain ⟨_, hdb'⟩ := processAll_sound ⟨fun _ => []⟩ ∅
    (Reader.polls eventModule s.2 lateAssets).received
  exact hne (hclaim (.of_record hs) hdb hdb' (caughtUp_of_full hup) (caughtUp_of_full hup') _)

end Gally

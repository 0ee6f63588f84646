import Mathlib.Data.List.Induction
import Gally.Law.EventLog

/-!
# The log refers to what it announced

Events name assets, pools and disputes. Each is announced by one event, `Event.creates`, and every
other event that names it (`Event.mentions`) comes later. Likewise a raise is finalized once
(`Event.finalizes`), before every event that tells of its accumulator (`Event.accumulatorOf`). A log
is `Lawful` when this holds of all its events, and the log of a reachable world is. `log_ordered`
reads it off as positions in the log.
-/

namespace Gally

open Checked

/-- What an event can refer to. -/
inductive Ref where
  | asset (id : ID)
  | pool (id : ID)
  | dispute (id : ID)
  deriving DecidableEq, Repr

namespace Event

/-- The object the event announces. -/
def creates : Event → Option Ref
  | .validatorRegistered p .. => some (.pool p)
  | .assetCreated a .. => some (.asset a)
  | .disputeOpened d .. => some (.dispute d)
  | _ => none

/-- The objects it takes for known. -/
def mentions : Event → List Ref
  -- protocol
  | .protocolInitialized .. | .protocolParamChanged .. | .protocolTreasuryChanged ..
  | .emergencyStopTriggered .. | .protocolResumed .. => []
  -- validator
  | .validatorRegistered .. => []
  | .stakeAdded p .. | .stakeWithdrawn p .. | .validatorStatusChanged p .. => [.pool p]
  -- accumulator
  | .rolloverSwept a .. | .yieldClaimed a .. | .compensationSwept a .. | .sharesWrapped a ..
  | .sharesUnwrapped a .. | .shareRedeemed a .. | .dustSwept a .. => [.asset a]
  -- asset
  | .assetCreated .. => []
  | .assetVouched a p .. | .milestoneApproved a _ _ p => [.asset a, .pool p]
  | .assetStateChanged a .. | .assetCancelled a | .capitalContributed a .. | .raiseFinalized a ..
  | .raiseAborted a .. | .contributionRefunded a .. | .sharesClaimed a ..
  | .milestoneProofSubmitted a .. | .trancheReleased a .. | .assetBecameOperational a ..
  | .entityDefaulted a .. | .assetClosed a .. | .revenueDeposited a .. => [.asset a]
  -- dispute
  | .disputeOpened _ a p .. => [.asset a, .pool p]
  | .jurorVoted d p .. | .jurorRewardClaimed d p _ => [.dispute d, .pool p]
  | .disputeResolved d a p .. => [.dispute d, .asset a, .pool p]

/-- The asset whose raise it finalizes. -/
def finalizes : Event → Option ID
  | .raiseFinalized a .. => some a
  | _ => none

/-- The asset whose accumulator it tells of. -/
def accumulatorOf : Event → Option ID
  | .rolloverSwept a .. | .yieldClaimed a .. | .compensationSwept a .. | .sharesWrapped a ..
  | .sharesUnwrapped a .. | .shareRedeemed a .. | .dustSwept a .. | .entityDefaulted a ..
  | .assetClosed a .. | .revenueDeposited a .. | .disputeResolved _ a .. => some a
  | _ => none

end Event

namespace Ledger

/-- The object is in the ledger. -/
def Knows (l : Ledger) : Ref → Prop
  | .asset a => (l.assets a).isSome = true
  | .pool p => (l.pools p).isSome = true
  | .dispute d => (l.bonds d).isSome = true

/-- An event about an accumulator changes the entries of accumulators and nothing else. -/
theorem onAccumulator_eq (l : Ledger) (a : ID) (f : AccumulatorView → AccumulatorView) :
    ∃ accumulators, l.onAccumulator a f = { l with accumulators } := by
  cases h : (l.assets a).bind AssetView.accumulatorId with
  | none => exact ⟨l.accumulators, by rw [onAccumulator, h]⟩
  | some g => exact ⟨_, by rw [onAccumulator, h]⟩

/-- An edit of the accumulators changes nothing that is known. -/
theorem knows_onAccumulator {l : Ledger} {a : ID} {f : AccumulatorView → AccumulatorView}
    {r : Ref} : (l.onAccumulator a f).Knows r ↔ l.Knows r := by
  obtain ⟨accumulators, h⟩ := onAccumulator_eq l a f
  rw [h]
  cases r <;> rfl

/-- Amending an entry neither makes nor removes one. -/
theorem isSome_amend {β : Type} {t : ID → Option β} {k j : ID} {f : β → β} :
    (amend t k f j).isSome = (t j).isSome := by
  rw [amend, Function.update_apply]
  split
  · next h => rw [h, Option.isSome_map]
  · rfl

/-- Amending an asset leaves what is known as it is. -/
theorem knows_onAsset {l : Ledger} {a : ID} {f : AssetView → AssetView} {r : Ref} :
    (l.onAsset a f).Knows r ↔ l.Knows r := by
  cases r <;> simp [Knows, onAsset, isSome_amend]

/-- Amending a pool leaves what is known as it is. -/
theorem knows_onPool {l : Ledger} {p : ID} {f : PoolView → PoolView} {r : Ref} :
    (l.onPool p f).Knows r ↔ l.Knows r := by
  cases r <;> simp [Knows, onPool, isSome_amend]

/-- An entry that is put makes one more key known. -/
theorem isSome_update {β : Type} {t : ID → Option β} {k j : ID} {v : β} :
    (Function.update t k (some v) j).isSome = true ↔ (t j).isSome = true ∨ k = j := by
  by_cases h : j = k
  · simp [h]
  · simp [Function.update_of_ne h, Ne.symm h]

/-- An event makes known what it announces, and nothing else. -/
theorem knows_apply {l : Ledger} {e : Event} {r : Ref} :
    (l.apply e).Knows r ↔ l.Knows r ∨ e.creates = some r := by
  -- the four events that make an object, the verdict that touches three tables, and all others
  cases e
  case validatorRegistered | assetCreated | disputeOpened =>
    cases r <;> simp [apply, Knows, Event.creates, isSome_update]
  case raiseFinalized a g totalShares =>
    have h := knows_onAsset (l := l) (a := a) (f := fun v => { v with accumulatorId := some g })
      (r := r)
    cases r <;> simpa [apply, Knows, Event.creates] using h
  case disputeResolved d a p verdict slashed bounty challenger pool unlock frozen =>
    obtain ⟨accumulators, h⟩ := onAccumulator_eq l a fun v => { v with
      compensationPool := pool, compensationUnlockMs := unlock, wrappingFrozen := frozen }
    cases r <;> simp [apply, Knows, Event.creates, h, isSome_amend]
  all_goals
    simp only [apply, Event.creates, knows_onAccumulator, knows_onAsset, knows_onPool, reduceCtorEq,
      or_false]

/-- Known after a log is what some event of it has created. -/
theorem knows_replay {es : List Event} {r : Ref} :
    (replay es).Knows r ↔ ∃ e ∈ es, e.creates = some r := by
  -- induction from the end of the log, where `apply` acts
  induction es using List.reverseRecOn with
  | nil => cases r <;> simp [replay, empty, Knows]
  | append_singleton es e ih =>
    rw [replay_append]
    simp only [List.foldl_cons, List.foldl_nil, knows_apply, ih, List.mem_append,
      List.mem_singleton]
    constructor
    · rintro (⟨c, hc, hr⟩ | hr)
      · exact ⟨c, .inl hc, hr⟩
      · exact ⟨e, .inr rfl, hr⟩
    · rintro ⟨c, hc | rfl, hr⟩
      · exact .inl ⟨c, hc, hr⟩
      · exact .inr hr

/-- The accumulator of the asset. -/
def accumulatorId (l : Ledger) (a : ID) : Option ID := (l.assets a).bind AssetView.accumulatorId

/-- The raise of the asset is finalized. -/
def Finalized (l : Ledger) (a : ID) : Prop := (l.accumulatorId a).isSome = true

/-- The event mentions what is known and announces what is not. -/
@[mk_iff] structure Allows (l : Ledger) (e : Event) : Prop where
  mentions : ∀ r ∈ e.mentions, l.Knows r
  creates : ∀ r, e.creates = some r → ¬ l.Knows r
  accumulatorOf : ∀ a, e.accumulatorOf = some a → l.Finalized a
  finalizes : ∀ a, e.finalizes = some a → ¬ l.Finalized a

/-- So do the events, one after another. -/
def Lawful : Ledger → List Event → Prop
  | _, [] => True
  | l, e :: es => l.Allows e ∧ Lawful (l.apply e) es

/-- An event about an asset that keeps its accumulator keeps everyone's. -/
theorem accumulatorId_onAsset {l : Ledger} {a b : ID} {f : AssetView → AssetView}
    (hf : ∀ v, (f v).accumulatorId = v.accumulatorId) :
    (l.onAsset a f).accumulatorId b = l.accumulatorId b := by
  by_cases h : b = a
  · cases hv : l.assets a <;> simp [accumulatorId, onAsset, amend, h, hv, hf]
  · simp [accumulatorId, onAsset, amend, h]

/-- An event about an accumulator keeps which one an asset has. -/
theorem accumulatorId_onAccumulator {l : Ledger} {a b : ID}
    {f : AccumulatorView → AccumulatorView} :
    (l.onAccumulator a f).accumulatorId b = l.accumulatorId b := by
  obtain ⟨accumulators, h⟩ := onAccumulator_eq l a f
  rw [h]
  rfl

/-- The end of its raise gives an asset its accumulator. -/
theorem accumulatorId_raiseFinalized {l : Ledger} {a g : ID} {n : ℕ}
    (h : l.Allows (.raiseFinalized a g n)) (b : ID) :
    (l.apply (.raiseFinalized a g n)).accumulatorId b =
      if a = b then some g else l.accumulatorId b := by
  have hknown := h.mentions (.asset a) List.mem_cons_self
  obtain ⟨v, hv⟩ := Option.isSome_iff_exists.mp hknown
  by_cases hb : a = b
  · subst hb
    simp [apply, accumulatorId, onAsset, amend, hv]
  · simp [apply, accumulatorId, onAsset, amend, hb, Ne.symm hb]

/-- No other event does. -/
theorem accumulatorId_apply {l : Ledger} {e : Event} (h : l.Allows e) (hnone : e.finalizes = none)
    (b : ID) : (l.apply e).accumulatorId b = l.accumulatorId b := by
  -- only the creation of the asset could change the field, and it makes a fresh entry
  cases e
  case assetCreated a _ _ _ _ _ _ _ _ _ _ _ _ _ _ _ _ _ _ =>
    have hnew := h.creates (.asset a) rfl
    by_cases hb : b = a
    · have hnot : l.assets a = none := by simpa [Knows] using hnew
      simp [apply, accumulatorId, hb, hnot]
    · simp [apply, accumulatorId, Function.update_of_ne hb]
  case raiseFinalized => cases hnone
  case assetStateChanged | capitalContributed | contributionRefunded | trancheReleased =>
    exact accumulatorId_onAsset fun _ => rfl
  case rolloverSwept | yieldClaimed | compensationSwept | sharesWrapped | sharesUnwrapped |
      shareRedeemed | dustSwept | entityDefaulted | assetClosed | revenueDeposited =>
    exact accumulatorId_onAccumulator
  case disputeResolved =>
    exact accumulatorId_onAccumulator
  all_goals rfl

/-- A longer log is lawful when its first part is, and the second from the ledger the first
    leaves. -/
theorem lawful_append {l : Ledger} {es es' : List Event} :
    l.Lawful (es ++ es') ↔ l.Lawful es ∧ Lawful (es.foldl apply l) es' := by
  induction es generalizing l with
  | nil => simp [Lawful]
  | cons e es ih => simp only [List.cons_append, Lawful, ih, List.foldl_cons, and_assoc]

/-- The accumulator of an asset is the one its raise was finalized with. -/
theorem accumulatorId_replay {es : List Event} {a g : ID} (h : empty.Lawful es) :
    (replay es).accumulatorId a = some g ↔ ∃ n, .raiseFinalized a g n ∈ es := by
  induction es using List.reverseRecOn with
  | nil => simp [replay, empty, accumulatorId]
  | append_singleton es e ih =>
    rw [lawful_append] at h
    obtain ⟨hes, hallows, -⟩ := h
    change (replay es).Allows e at hallows
    rw [replay_append, List.foldl_cons, List.foldl_nil]
    simp only [List.mem_append, List.mem_singleton]
    cases e
    case raiseFinalized b g' n' =>
      rw [accumulatorId_raiseFinalized hallows]
      by_cases hb : b = a
      · subst hb
        -- the raise is finalized for the first time
        have hnone : (replay es).accumulatorId b ≠ some g := fun hg =>
          hallows.finalizes b rfl (Option.isSome_iff_exists.mpr ⟨g, hg⟩)
        have hnot := (ih hes).not.mp hnone
        simp only [if_true, Option.some_inj, Event.raiseFinalized.injEq, true_and]
        constructor
        · rintro rfl
          exact ⟨n', .inr ⟨rfl, rfl⟩⟩
        · rintro ⟨n, hn | ⟨rfl, -⟩⟩
          · exact absurd ⟨n, hn⟩ hnot
          · rfl
      · simp [hb, Ne.symm hb, ih hes]
    all_goals
      rw [accumulatorId_apply hallows rfl]
      simpa using ih hes

/-- An asset has an accumulator after a lawful log exactly when its raise was finalized in it. -/
theorem finalized_replay {es : List Event} {a : ID} (h : empty.Lawful es) :
    (replay es).Finalized a ↔ ∃ e ∈ es, e.finalizes = some a := by
  rw [Finalized, Option.isSome_iff_exists]
  simp only [accumulatorId_replay h]
  constructor
  · intro ⟨g, n, hmem⟩
    exact ⟨_, hmem, rfl⟩
  · intro ⟨e, he, hfinal⟩
    cases e <;> simp only [Event.finalizes, reduceCtorEq, Option.some.injEq] at hfinal
    subst hfinal
    exact ⟨_, _, he⟩

/-- The event announces nothing and speaks of what is known. -/
@[mk_iff] structure Plain (l : Ledger) (e : Event) : Prop where
  creates : e.creates = none
  finalizes : e.finalizes = none
  mentions : ∀ r ∈ e.mentions, l.Knows r
  accumulatorOf : ∀ a, e.accumulatorOf = some a → l.Finalized a

/-- Plain events are allowed: they make nothing and finalize nothing. -/
theorem Plain.allows {l : Ledger} {e : Event} (h : l.Plain e) : l.Allows e where
  mentions := h.mentions
  creates r hr := by
    rw [h.creates] at hr
    cases hr
  accumulatorOf := h.accumulatorOf
  finalizes a ha := by
    rw [h.finalizes] at ha
    cases ha

/-- Events that announce nothing. -/
theorem lawful_of_plain {l : Ledger} {es : List Event} (h : ∀ e ∈ es, l.Plain e) :
    l.Lawful es := by
  induction es generalizing l with
  | nil => trivial
  | cons e es ih =>
    have hplain := h e List.mem_cons_self
    refine ⟨hplain.allows, ih fun x hx => ?_⟩
    have hx' := h x (List.mem_cons_of_mem _ hx)
    refine ⟨hx'.creates, hx'.finalizes, fun r hr => knows_apply.mpr (.inl (hx'.mentions r hr)),
      fun a ha => ?_⟩
    rw [Finalized, accumulatorId_apply hplain.allows hplain.finalizes]
    exact hx'.accumulatorOf a ha

end Ledger

/-! ## What one call refers to -/

attribute [local simp] Ledger.Lawful Ledger.allows_iff Ledger.plain_iff Event.creates Event.mentions
  Event.finalizes Event.accumulatorOf

/-- The events that `w'` has on top of those of `w` are lawful. -/
def World.Refers (w w' : World) : Prop :=
  ∃ events, w'.events = w.events ++ events ∧ w.ledger.Lawful events

namespace World

variable {w w' : World} {sender : Address}

/-- What is filed has an entry under its own key. -/
theorem isSome_table {α β : Type} [Keyed α ID] {view : α → β} {s : Store α} {k : ID} {x : α}
    (h : s.get? k = some x) : (s.table view (Keyed.key x)).isSome = true := by
  rw [Store.table_of_get? (Store.get?_key (Store.mem_of_get? h))]
  rfl

/-- The ledger knows every asset of the world. -/
theorem knows_asset {a : ID} {asset : Asset} (h : w.assets.get? a = some asset) :
    w.ledger.Knows (.asset asset.id) := isSome_table h

/-- The ledger knows every pool of the world. -/
theorem knows_pool {p : ID} {pool : ValidatorPool} (h : w.pools.get? p = some pool) :
    w.ledger.Knows (.pool pool.id) := isSome_table h

/-- The ledger knows every dispute of the world. -/
theorem knows_dispute {d : ID} {dispute : Dispute} (h : w.disputes.get? d = some dispute) :
    w.ledger.Knows (.dispute dispute.id) := isSome_table h

/-- An accumulator's events name its asset. -/
theorem knows_acc (hl : w.Linked) {g : ID} {acc : GlobalYieldAccumulator}
    (h : w.accumulators.get? g = some acc) : w.ledger.Knows (.asset acc.assetId) := by
  obtain ⟨asset, hasset, -⟩ := hl.asset h
  have hkey : asset.id = acc.assetId := Store.key_of_get? hasset
  exact hkey ▸ knows_asset hasset

/-- The ledger has the accumulator of every asset. -/
theorem accumulatorId_ledger {a : ID} {asset : Asset} (h : w.assets.get? a = some asset) :
    w.ledger.accumulatorId a = asset.accumulatorId := by
  have hentry : w.ledger.assets a = some asset.view := Store.table_of_get? h
  rw [Ledger.accumulatorId, hentry, Option.bind_some]
  rfl

/-- The raise of an asset with an accumulator is finalized. -/
theorem finalized_acc (hl : w.Linked) {g : ID} {acc : GlobalYieldAccumulator}
    (h : w.accumulators.get? g = some acc) : w.ledger.Finalized acc.assetId := by
  obtain ⟨asset, hasset, hg⟩ := hl.asset h
  rw [Ledger.Finalized, accumulatorId_ledger hasset, hg]
  rfl

/-- An asset with an accumulator of the world is finalized in the ledger. -/
theorem finalized_asset (hl : w.Linked) {g : ID} {acc : GlobalYieldAccumulator} {asset : Asset}
    (h : w.accumulators.get? g = some acc) (ha : acc.assetId = asset.id) :
    w.ledger.Finalized asset.id := ha ▸ finalized_acc hl h

/-- An asset whose raise is not through is not finalized in the ledger. -/
theorem not_finalized (hl : w.Linked) {a : ID} {asset : Asset}
    (h : w.assets.get? a = some asset) (hstate : asset.state.isFinalized = false) :
    ¬ w.ledger.Finalized asset.id := by
  have hkey : w.assets.get? asset.id = some asset := Store.get?_key (Store.mem_of_get? h)
  have hstaged := hl.staged h
  rw [Ledger.Finalized, accumulatorId_ledger hkey, hstaged, hstate]
  exact Bool.false_ne_true

/-- The ledger does not know the id that is handed out next. -/
theorem not_knows_nextId (hf : w.Fresh) : ¬ w.ledger.Knows (.asset w.nextId) ∧
    ¬ w.ledger.Knows (.pool w.nextId) ∧ ¬ w.ledger.Knows (.dispute w.nextId) := by
  have hasset := hf.assets.get?_eq_none (Nat.lt_irrefl _)
  have hpool := hf.pools.get?_eq_none (Nat.lt_irrefl _)
  have hdispute := hf.disputes.get?_eq_none (Nat.lt_irrefl _)
  simp [Ledger.Knows, World.ledger, Store.table, hasset, hpool, hdispute]

/-- The new listing is announced. -/
theorem listed_refers (hf : w.Fresh) {config : ProtocolConfig} {l : Listing} {isTerm : Bool}
    {target : U64} {collateral now : ℕ} {capId : ID} {asset : Asset} {cap : EntityCap}
    {events : List Event} (run : createAssetInternal config l isTerm target collateral now sender
      w.nextId capId = .ok (asset, cap, events)) :
    w.Refers (w.listed sender collateral asset cap events) := by
  simp only [createAssetInternal, seq_eq_ok, assertVersion_eq_ok, assertNotPaused_eq_ok,
    ensure_eq_ok, mulBps_eq_ok, return_eq_ok, Prod.mk.injEq] at run
  obtain ⟨-, -, -, -, -, -, -, -, -, -, -, -, -, -, -, -, -, -, -, -, -, -, -, -, _, -, -, -, _, -,
    -, -, rfl, rfl, rfl⟩ := run
  refine ⟨_, rfl, ?_⟩
  simp [not_knows_nextId hf]

/-- The events of a close refer to an asset that is known and finalized. -/
theorem closing_refers (hl : w.Linked) {a g : ID} {asset : Asset} {acc : GlobalYieldAccumulator}
    {reason : CloseReason} (hasset : w.assets.get? a = some asset)
    (hacc : w.accumulators.get? g = some acc) (guards : CloseGuards asset acc reason) :
    w.Refers (w.closing asset acc
      [.assetClosed asset.id reason, .assetStateChanged asset.id asset.state .closed]) := by
  refine ⟨_, rfl, Ledger.lawful_of_plain ?_⟩
  simp [knows_asset hasset, finalized_asset hl hacc guards.linked]

/-- The events of the asset module's calls refer only to what the log has created. -/
theorem asset_refers (hf : w.Fresh) (hl : w.Linked) {c : AssetCall} (h : AssetStep w sender c w') :
    w.Refers w' := by
  cases h with
  | createAsset _ _ run => exact listed_refers hf run
  | createTermAsset _ _ run => exact listed_refers hf run
  | cancelUnvouchedByEntity hasset _ _ _ _ run =>
    obtain ⟨-, -, ⟨⟩⟩ := cancelUnvouchedByEntity_eq_ok.mp run
    refine ⟨_, rfl, Ledger.lawful_of_plain ?_⟩
    simp [Asset.cancelEvents, Event.creates, Event.mentions, knows_asset hasset]
  | cancelUnvouchedTimeout hasset _ run =>
    obtain ⟨-, -, -, -, ⟨⟩⟩ := cancelUnvouchedTimeout_eq_ok.mp run
    refine ⟨_, rfl, Ledger.lawful_of_plain ?_⟩
    simp [Asset.cancelEvents, Event.creates, Event.mentions, knows_asset hasset]
  | vouchAssetLegals hasset hpool _ _ _ run =>
    obtain ⟨-, ⟨⟩⟩ := vouchAssetLegals_eq_ok.mp run
    refine ⟨_, rfl, Ledger.lawful_of_plain ?_⟩
    simp [knows_asset hasset, knows_pool hpool]
  | contributeCapital hasset _ _ run =>
    obtain ⟨-, ⟨⟩⟩ := contributeCapital_eq_ok.mp run
    refine ⟨_, rfl, Ledger.lawful_of_plain ?_⟩
    simp [knows_asset hasset]
  | finalizeSuccessfulRaise hasset _ _ _ guards run =>
    obtain ⟨-, ⟨⟩⟩ := finalizeSuccessfulRaise_eq_ok.mp run
    have hnot := not_finalized hl hasset (guards.state ▸ rfl)
    refine ⟨_, rfl, ?_⟩
    simp [Ledger.knows_apply, knows_asset hasset, hnot]
  | abortFailedRaise hasset hpool _ run =>
    obtain ⟨-, ⟨⟩⟩ := abortFailedRaise_eq_ok.mp run
    refine ⟨_, rfl, Ledger.lawful_of_plain ?_⟩
    simp [knows_asset hasset]
  | refundContribution hasset _ _ guards run =>
    obtain ⟨-, ⟨⟩⟩ := refundContribution_eq_ok.mp run
    refine ⟨_, rfl, Ledger.lawful_of_plain ?_⟩
    simp [guards.belongs, knows_asset hasset]
  | claimShares hasset _ _ _ _ _ belongs run =>
    obtain ⟨-, -, -, -, ⟨⟩⟩ := claimShares_eq_ok.mp run
    refine ⟨_, rfl, Ledger.lawful_of_plain ?_⟩
    simp [belongs, knows_asset hasset]
  | submitMilestoneProof hasset _ _ _ run =>
    obtain ⟨t, -, h⟩ := submitMilestoneProof_eq_ok.mp run
    obtain ⟨-, rfl⟩ := Prod.mk.inj h
    refine ⟨_, rfl, Ledger.lawful_of_plain ?_⟩
    simp [knows_asset hasset]
  | approveMilestone hasset hpool _ _ _ run =>
    obtain ⟨t, -, h⟩ := approveMilestone_eq_ok.mp run
    obtain ⟨-, rfl⟩ := Prod.mk.inj h
    refine ⟨_, rfl, Ledger.lawful_of_plain ?_⟩
    simp [knows_asset hasset, knows_pool hpool]
  | @releaseFundingTranche _ _ _ asset _ _ _ hasset _ _ guards run =>
    obtain ⟨t, htranche, h⟩ := releaseFundingTranche_eq_ok.mp run
    obtain rfl := Option.some.inj (htranche.tranche.symm.trans guards.tranche)
    cases h
    refine ⟨_, rfl, Ledger.lawful_of_plain ?_⟩
    by_cases hlast : asset.nextTranche + 1 = asset.tranches.length
    -- the last release announces the state as well
    · obtain ⟨g, hg⟩ := Option.ne_none_iff_exists'.mp (guards.linked hlast)
      simp [Asset.trancheEvents, hg, hlast, Event.creates, Event.mentions, knows_asset hasset]
    · simp [Asset.trancheEvents, hlast, Event.creates, Event.mentions, knows_asset hasset]
  | releaseVouchCoverage => exact ⟨[], (List.append_nil _).symm, trivial⟩
  | flagDefault hasset hacc guards run =>
    obtain ⟨_, -, h⟩ := flagDefault_eq_ok.mp run
    cases h
    refine ⟨_, rfl, Ledger.lawful_of_plain ?_⟩
    simp [knows_asset hasset, finalized_asset hl hacc guards.linked]
  | depositRevenue hasset hacc _ guards _ run =>
    obtain ⟨-, _, -, h⟩ := depositRevenue_eq_ok.mp run
    cases h
    refine ⟨_, rfl, Ledger.lawful_of_plain ?_⟩
    simp [knows_asset hasset, finalized_asset hl hacc guards.linked]
  | closeAtReturnTarget hasset hacc guards run =>
    obtain ⟨-, -, h⟩ := closeAtReturnTarget_eq_ok.mp run
    cases h
    exact closing_refers hl hasset hacc guards
  | closeAfterCompensation hasset hacc guards _ run =>
    obtain ⟨-, -, -, h⟩ := closeAfterCompensation_eq_ok.mp run
    cases h
    exact closing_refers hl hasset hacc guards
  | closeWindDown hasset hacc _ _ _ _ guards run =>
    obtain ⟨-, -, -, h⟩ := closeWindDown_eq_ok.mp run
    cases h
    exact closing_refers hl hasset hacc guards

/-- The events of the validator module's calls refer only to what the log has created. -/
theorem validator_refers (hf : w.Fresh) {c : ValidatorCall} (h : ValidatorStep w sender c w') :
    w.Refers w' := by
  cases h with
  | registerValidator _ _ run =>
    obtain ⟨-, ⟨⟩⟩ := registerValidator_eq_ok.mp run
    refine ⟨_, rfl, ?_⟩
    simp [not_knows_nextId hf]
  | addStake hpool _ _ run =>
    obtain ⟨-, ⟨⟩⟩ := addStake_eq_ok.mp run
    refine ⟨_, rfl, Ledger.lawful_of_plain ?_⟩
    simp [knows_pool hpool]
  | withdrawStake hpool _ _ _ run =>
    obtain ⟨-, ⟨⟩⟩ := withdrawStake_eq_ok.mp run
    refine ⟨_, rfl, Ledger.lawful_of_plain ?_⟩
    simp [knows_pool hpool]

/-- The events of the accumulator's calls refer only to assets whose raises are through. -/
theorem accumulator_refers (hl : w.Linked) {c : AccumulatorCall}
    (h : AccumulatorStep w sender c w') : w.Refers w' := by
  cases h with
  | claimRewards hacc _ _ _ run =>
    obtain ⟨-, ⟨⟩⟩ := claimRewards_eq_ok.mp run
    refine ⟨_, rfl, Ledger.lawful_of_plain ?_⟩
    simp [knows_acc hl hacc, finalized_acc hl hacc]
  | sweepRollover hacc _ _ run =>
    obtain ⟨-, -, ⟨⟩⟩ := sweepRollover_eq_ok.mp run
    refine ⟨_, rfl, Ledger.lawful_of_plain ?_⟩
    simp [knows_acc hl hacc, finalized_acc hl hacc]
  | sweepCompensation hacc _ _ route run =>
    obtain ⟨-, -, -, -, rfl⟩ := sweepCompensation_eq_ok.mp run
    refine ⟨_, rfl, Ledger.lawful_of_plain ?_⟩
    simp [knows_acc hl hacc, finalized_acc hl hacc, route.frame.assetId]
  | wrapShares hacc _ _ _ run =>
    obtain ⟨-, ⟨⟩⟩ := wrapShares_eq_ok.mp run
    refine ⟨_, rfl, Ledger.lawful_of_plain ?_⟩
    simp [knows_acc hl hacc, finalized_acc hl hacc]
  | unwrapCoins hacc _ _ _ _ sweep run =>
    -- a sweep goes before the unwrap if there is a reserve
    obtain ⟨-, -, swept, hsweep, rfl⟩ := unwrapCoins_eq_ok.mp run
    have hknown := List.forall_mem_singleton.mpr (knows_acc hl hacc)
    have hfinal := finalized_acc hl hacc
    refine ⟨_, rfl, Ledger.lawful_of_plain ?_⟩
    rcases hsweep with ⟨-, h⟩ | ⟨-, rfl, rfl⟩
    · obtain ⟨-, rfl, rfl⟩ := sweepRolloverInternal_eq_ok.mp h
      exact List.forall_mem_cons.mpr ⟨⟨rfl, rfl, hknown, by rintro _ ⟨⟩; exact hfinal⟩,
        List.forall_mem_singleton.mpr ⟨rfl, rfl, hknown, by rintro _ ⟨⟩; exact hfinal⟩⟩
    · exact List.forall_mem_singleton.mpr ⟨rfl, rfl, hknown, by rintro _ ⟨⟩; exact hfinal⟩
  | mergeShares hacc _ _ _ _ _ _ run =>
    obtain ⟨-, ⟨⟩⟩ := mergeShares_eq_ok.mp run
    refine ⟨_, rfl, Ledger.lawful_of_plain ?_⟩
    simp [knows_acc hl hacc, finalized_acc hl hacc]
  | redeemShare hacc _ _ _ run =>
    obtain ⟨-, ⟨⟩⟩ := redeemShare_eq_ok.mp run
    refine ⟨_, rfl, Ledger.lawful_of_plain ?_⟩
    simp [knows_acc hl hacc, finalized_acc hl hacc]
  | adminSweepDust _ hacc _ run =>
    obtain ⟨-, ⟨⟩⟩ := adminSweepDust_eq_ok.mp run
    refine ⟨_, rfl, Ledger.lawful_of_plain ?_⟩
    simp [knows_acc hl hacc, finalized_acc hl hacc]
  | splitShare => exact ⟨[], (List.append_nil _).symm, trivial⟩

/-- A verdict speaks of the pool and the asset at hand. -/
theorem decides_refers {p a : ID} {dispute : Dispute} {pool : ValidatorPool} {asset : Asset}
    {acc : GlobalYieldAccumulator} {v : Verdict} (hpool : w.pools.get? p = some pool)
    (hasset : w.assets.get? a = some asset)
    (decides : Decides dispute pool asset acc w.config w.clockMs v) :
    ∀ e ∈ v.events, w.ledger.Plain e := by
  cases decides with
  | expired => simp [expiredVerdict, knows_pool hpool]
  | rejected => simp [rejectedVerdict, knows_pool hpool]
  | upheld =>
    by_cases hstate : asset.state = .executing <;>
      simp [upheldVerdict, hstate, knows_pool hpool, knows_asset hasset]

/-- The events of the court's calls refer only to what the log has created. -/
theorem dispute_refers (hf : w.Fresh) (hl : w.Linked) {c : DisputeCall}
    (h : DisputeStep w sender c w') : w.Refers w' := by
  cases h with
  | initializeDispute hasset hpool _ _ _ run =>
    obtain ⟨-, ⟨⟩⟩ := initializeDispute_eq_ok.mp run
    refine ⟨_, rfl, ?_⟩
    simp [Ledger.knows_apply, not_knows_nextId hf,
      knows_asset hasset, knows_pool hpool]
  | voteOnDispute hdispute hpool _ _ _ run =>
    obtain ⟨-, ⟨⟩⟩ := voteOnDispute_eq_ok.mp run
    refine ⟨_, rfl, Ledger.lawful_of_plain ?_⟩
    simp [knows_dispute hdispute, knows_pool hpool]
  | resolveDispute hdispute hpool hasset hacc guards decides =>
    -- the accumulator of the verdict is the asset's own
    have hlinked := finalized_asset hl hacc (hl.disputed hdispute hacc guards)
    refine ⟨_, rfl, Ledger.lawful_of_plain (List.forall_mem_append.mpr
      ⟨decides_refers hpool hasset decides, ?_⟩)⟩
    simp [Verdict.closing, knows_dispute hdispute, ← guards.pool, knows_pool hpool, ← guards.asset,
      knows_asset hasset, hlinked]
  | claimJurorReward hdispute hpool _ _ _ _ _ run =>
    obtain ⟨-, -, -, -, ⟨⟩⟩ := claimJurorReward_eq_ok.mp run
    refine ⟨_, rfl, Ledger.lawful_of_plain ?_⟩
    simp [knows_dispute hdispute, knows_pool hpool]

/-- The setters speak of no object. -/
theorem protocol_refers {c : ProtocolCall} {config : ProtocolConfig} {events : List Event}
    (h : c.run w.config = .ok (config, events)) :
    ∀ e ∈ events, w.ledger.Plain e := by
  -- the one setter with several parameters, the switch, and the setters of one parameter
  cases c with
  | adminSetDisputeParams new =>
    simp only [ProtocolCall.run, adminSetDisputeParams, seq_eq_ok, return_eq_ok,
      Prod.mk.injEq] at h
    obtain ⟨-, -, -, -, -, -, -, -, -, -, -, -, -, -, -, -, -, rfl⟩ := h
    simp
  | adminSetTreasury =>
    simp only [ProtocolCall.run, adminSetTreasury, seq_eq_ok, return_eq_ok, Prod.mk.injEq] at h
    obtain ⟨-, -, -, rfl⟩ := h
    simp
  | adminEmergencyStop =>
    simp only [ProtocolCall.run, adminEmergencyStop, seq_eq_ok, return_eq_ok, Prod.mk.injEq] at h
    obtain ⟨-, -, -, rfl⟩ := h
    simp
  | adminResume =>
    simp only [ProtocolCall.run, adminResume, seq_eq_ok, return_eq_ok, Prod.mk.injEq] at h
    obtain ⟨-, -, -, rfl⟩ := h
    simp
  | _ =>
    obtain ⟨-, -, heq⟩ := setParam_eq_ok.mp h
    obtain ⟨-, rfl⟩ := Prod.mk.inj heq
    simp

/-- The events of a call refer only to what the log has created. -/
theorem refers (hf : w.Fresh) (hl : w.Linked) {c : Call} (h : w.call sender c = .ok w') :
    w.Refers w' := by
  cases c with
  | protocol c =>
    obtain ⟨-, _, events, hrun, rfl⟩ := World.protocolCall_eq_ok.mp h
    exact ⟨events, rfl, Ledger.lawful_of_plain (protocol_refers hrun)⟩
  | validator c => exact validator_refers hf (World.validatorCall_eq_ok.mp h)
  | asset c => exact asset_refers hf hl (World.assetCall_eq_ok.mp h)
  | accumulator c => exact accumulator_refers hl (World.accumulatorCall_eq_ok.mp h)
  | dispute c => exact dispute_refers hf hl (World.disputeCall_eq_ok.mp h)
  | framework c =>
    cases World.frameworkCall_eq_ok.mp h <;> exact ⟨[], (List.append_nil _).symm, trivial⟩

end World

/-! ## The whole log -/

/-- The log of a reachable world is lawful from the empty ledger. -/
theorem Reachable.lawful {w : World} (hw : Reachable w) : Ledger.empty.Lawful w.events := by
  refine hw.induct (P := fun w => Ledger.empty.Lawful w.events) ?_ ?_ fun _ h _ => h
  · intro admin
    simp [World.genesis, Ledger.Lawful, Event.creates, Event.mentions]
  · intro w sender c w' hw ih hcall
    obtain ⟨events, hevents, hlawful⟩ := World.refers hw.fresh hw.linked hcall
    have hreplayed : w.events.foldl Ledger.apply Ledger.empty = w.ledger := hw.replayed
    rw [hevents, Ledger.lawful_append, hreplayed]
    exact ⟨ih, hlawful⟩

/-- What an event mentions was announced before it, and what it announces was not. -/
structure Ordered (before : List Event) (e : Event) : Prop where
  mentioned : ∀ r ∈ e.mentions, ∃ c ∈ before, c.creates = some r
  first : ∀ r, e.creates = some r → ∀ c ∈ before, c.creates ≠ some r
  accumulator : ∀ a, e.accumulatorOf = some a → ∃ c ∈ before, c.finalizes = some a
  finalizedOnce : ∀ a, e.finalizes = some a → ∀ c ∈ before, c.finalizes ≠ some a

/-- In the log of a reachable world every event comes after those that create what it mentions. -/
theorem log_ordered {w : World} (hw : Reachable w) {before after : List Event} {e : Event}
    (h : w.events = before ++ e :: after) : Ordered before e := by
  have hlawful := hw.lawful
  rw [h, Ledger.lawful_append] at hlawful
  obtain ⟨hbefore, hallows, -⟩ := hlawful
  exact {
    mentioned := fun r hr => Ledger.knows_replay.mp (hallows.mentions r hr)
    first := fun r hr c hc heq => hallows.creates r hr (Ledger.knows_replay.mpr ⟨c, hc, heq⟩)
    accumulator := fun a ha =>
      (Ledger.finalized_replay hbefore).mp (hallows.accumulatorOf a ha)
    finalizedOnce := fun a ha c hc heq =>
      hallows.finalizes a ha ((Ledger.finalized_replay hbefore).mpr ⟨c, hc, heq⟩) }

end Gally

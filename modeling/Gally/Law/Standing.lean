import Gally.Chain.Touch
import Gally.Law.Mentions
import Gally.Law.Topics

/-!
# Vouches and verdicts by the log

An asset is vouched for at most once, by the pool it names ever after; a dispute is opened once and
decided at most once (`World.Standing`). The coverage an event of a vouch tells is what the asset
has locked, until it is released or consumed.
-/

namespace Gally

open Checked

/-! ## What the log tells of an object -/

namespace Event

/-- The asset, the pool that vouches for it and the coverage. -/
def vouchOf : Event → Option (ID × ID × ℕ)
  | .assetVouched a p _ coverage _ => some (a, p, coverage)
  | _ => none

/-- The dispute and the pool it is about. -/
def openingOf : Event → Option (ID × ID)
  | .disputeOpened d _ p .. => some (d, p)
  | _ => none

/-- The asset and its new state. -/
def stateOf : Event → Option (ID × AssetState)
  | .assetStateChanged a _ newState => some (a, newState)
  | _ => none

/-- The dispute, its verdict, and what was slashed and paid as a bounty. -/
def resolutionOf : Event → Option (ID × DisputeStatus × ℕ × ℕ)
  | .disputeResolved d _ _ verdict slashed bounty .. => some (d, verdict, slashed, bounty)
  | _ => none

/-- The dispute and its verdict. -/
def verdictOf (e : Event) : Option (ID × DisputeStatus) :=
  e.resolutionOf.map fun (d, verdict, _, _) => (d, verdict)

end Event

/-- What the events tell of object `k`. -/
def told {β : Type} (of : Event → Option (ID × β)) (k : ID) (es : List Event) : List β :=
  es.filterMap fun e => (of e).bind fun (j, v) => if j = k then some v else none

section Told

variable {β : Type} {of : Event → Option (ID × β)} {k : ID} {es : List Event} {t : Topic}

theorem told_append (es es' : List Event) : told of k (es ++ es') = told of k es ++ told of k es' :=
  List.filterMap_append

/-- What is told was told by some event. -/
theorem mem_told {v : β} : v ∈ told of k es ↔ ∃ e ∈ es, of e = some (k, v) := by
  simp only [told, List.mem_filterMap, Option.bind_eq_some_iff]
  constructor
  · intro ⟨e, he, ⟨j, u⟩, hof, hv⟩
    obtain ⟨rfl, heq⟩ := Option.ite_none_right_eq_some.mp hv
    exact ⟨e, he, Option.some.inj heq ▸ hof⟩
  · intro ⟨e, he, hof⟩
    exact ⟨e, he, (k, v), hof, if_pos rfl⟩

/-- Events of other topics tell nothing. -/
theorem told_eq_nil (hof : ∀ e, (of e).isSome → e.topic = t) (hes : ∀ e ∈ es, e.topic ≠ t) :
    told of k es = [] := by
  rw [List.eq_nil_iff_forall_not_mem]
  intro v hv
  obtain ⟨e, he, hsome⟩ := mem_told.mp hv
  exact hes e he (hof e (by rw [hsome]; rfl))

end Told

/-- Only events about vouching tell a vouch. -/
theorem topic_of_vouchOf {e : Event} (h : e.vouchOf.isSome) : e.topic = .vouch := by
  cases e <;> first | rfl | cases h

/-- Only events about openings tell one. -/
theorem topic_of_openingOf {e : Event} (h : e.openingOf.isSome) : e.topic = .opening := by
  cases e <;> first | rfl | cases h

/-- Only events about verdicts tell one. -/
theorem topic_of_verdictOf {e : Event} (h : e.verdictOf.isSome) : e.topic = .verdict := by
  cases e <;> first | rfl | cases h

/-! ## The invariant -/

/-- What the log tells of the vouch for an asset. -/
structure Asset.VouchTold (asset : Asset) (vouches : List (ID × ℕ)) : Prop where
  pending : asset.state = .pendingVouch → asset.validatorPoolId = none
  pool : vouches.map Prod.fst = asset.validatorPoolId.toList
  coverage : ∀ v ∈ vouches, asset.coverageLocked = v.2 ∨ asset.coverageLocked = 0

/-- What the log tells of a dispute. -/
structure Dispute.Told (dispute : Dispute) (openings : List ID) (verdicts : List DisputeStatus) :
    Prop where
  opening : openings = [dispute.targetPoolId]
  verdict : verdicts = if dispute.status = .opened then [] else [dispute.status]

/-- The log tells the vouches for all assets and the verdicts on all disputes. -/
structure World.Standing (w : World) : Prop where
  unlisted : ∀ a, w.assets.get? a = none → told Event.vouchOf a w.events = []
  vouches : ∀ a asset, w.assets.get? a = some asset →
    asset.VouchTold (told Event.vouchOf a w.events)
  unopened : ∀ d, w.disputes.get? d = none →
    told Event.openingOf d w.events = [] ∧ told Event.verdictOf d w.events = []
  disputes : ∀ d dispute, w.disputes.get? d = some dispute →
    dispute.Told (told Event.openingOf d w.events) (told Event.verdictOf d w.events)

/-- A verdict ends the dispute. -/
theorem Decides.status_ne {dispute : Dispute} {pool : ValidatorPool} {asset : Asset}
    {acc : GlobalYieldAccumulator} {config : ProtocolConfig} {now : ℕ} {v : Verdict}
    (h : Decides dispute pool asset acc config now v) : v.dispute.status ≠ .opened := by
  cases h <;> exact DisputeStatus.noConfusion

namespace World

variable {w w' : World} {sender : Address}

/-! ## Vouches -/

/-- Apart from vouching itself, a call keeps an asset's vouch or frees its coverage. -/
theorem touch_vouch {x x' : Asset} {c : Call} (h : x.Touch w sender c x') (hc : c.topic ≠ .vouch) :
    (x'.state = .pendingVouch → x.state = .pendingVouch) ∧
    x'.validatorPoolId = x.validatorPoolId ∧
    (x'.coverageLocked = x.coverageLocked ∨ x'.coverageLocked = 0) := by
  cases h with
  -- the vouch is excluded; a release, a verdict and an abort may free the coverage
  | vouch => exact absurd rfl hc
  | release =>
    refine ⟨?_, rfl, Or.inl rfl⟩
    unfold Asset.afterTranche
    split
    · intro h
      cases h
    · exact id
  | uncover => exact ⟨id, rfl, Or.inr rfl⟩
  | verdict _ _ _ _ decides =>
    refine ⟨?_, decides.keeps.vouching, ?_⟩
    all_goals
      cases decides with
      | expired => first | exact id | exact Or.inl rfl
      | rejected => first | exact id | exact Or.inl rfl
      | upheld =>
        unfold upheldVerdict Asset.upheld
        split
        · first | exact Or.inr rfl | exact fun h => nomatch h
        · first | exact Or.inr rfl | exact id
  | abort => exact ⟨fun h => (nomatch h), rfl, Or.inr rfl⟩
  | cancelByEntity | cancelTimeout | finalize | default | closeAtReturnTarget
  | closeAfterCompensation | closeWindDown =>
    exact ⟨fun h => (nomatch h), rfl, Or.inl rfl⟩
  | _ => exact ⟨id, rfl, Or.inl rfl⟩

/-- Only calls of the topic tell more. -/
theorem told_call {β : Type} {of : Event → Option (ID × β)} {t : Topic} (ht : t ≠ .other)
    (hof : ∀ e, (of e).isSome → e.topic = t) {c : Call} (h : w.call sender c = .ok w')
    (hc : c.topic ≠ t) (k : ID) : told of k w'.events = told of k w.events := by
  obtain ⟨es, hevents, htopics⟩ := topics h
  have hnone : told of k es = [] := by
    refine told_eq_nil hof fun e he htopic => ?_
    rcases htopics e he with hother | heq
    · exact ht (htopic.symm.trans hother)
    · exact hc (heq.symm.trans htopic)
  rw [hevents, told_append, hnone, List.append_nil]

/-- The event of a vouch for a pending asset is the first one. -/
theorem vouches_vouch (hs : w.Standing) {a p : ID} {asset : Asset}
    (hasset : w.assets.get? a = some asset) (hstate : asset.state = .pendingVouch)
    (docs : List WalrusRef) {coverage : ℕ} {es : List Event}
    (hes : ∀ b, told Event.vouchOf b es = if a = b then [(p, coverage)] else [])
    (hassets : w'.assets = w.assets.put (asset.vouched p coverage docs))
    (hevents : w'.events = w.events ++ es) :
    (∀ b, w'.assets.get? b = none → told Event.vouchOf b w'.events = []) ∧
    ∀ b x, w'.assets.get? b = some x → x.VouchTold (told Event.vouchOf b w'.events) := by
  obtain rfl : asset.id = a := Store.key_of_get? hasset
  have hget : ∀ b, w'.assets.get? b =
      if b = asset.id then some (asset.vouched p coverage docs) else w.assets.get? b := by
    intro b
    rw [hassets, Store.get?_put]
    exact if_congr eq_comm rfl rfl
  constructor
  · intro b hb
    rw [hget] at hb
    have hne : b ≠ asset.id := fun heq => by rw [if_pos heq] at hb; cases hb
    rw [if_neg hne] at hb
    rw [hevents, told_append, hes, if_neg (Ne.symm hne), List.append_nil]
    exact hs.unlisted b hb
  · intro b x hx
    rw [hget] at hx
    rw [hevents, told_append, hes]
    -- the vouched asset, which had no vouch before, or another one
    by_cases hb : b = asset.id
    · rw [if_pos hb] at hx
      obtain rfl := Option.some.inj hx
      subst hb
      have hold := hs.vouches _ asset hasset
      have hnone : told Event.vouchOf asset.id w.events = [] := by
        have hpool := hold.pool
        rw [hold.pending hstate] at hpool
        exact List.map_eq_nil_iff.mp hpool
      rw [hnone, if_pos rfl, List.nil_append]
      refine ⟨fun h => (nomatch h), rfl, fun v hv => Or.inl ?_⟩
      obtain rfl := List.mem_singleton.mp hv
      rfl
    · rw [if_neg hb] at hx
      rw [if_neg (Ne.symm hb), List.append_nil]
      exact hs.vouches b x hx

/-- One call keeps the vouches told. -/
theorem vouches_call (hf : w.Fresh) (hs : w.Standing) {c : Call}
    (h : w.call sender c = .ok w') :
    (∀ a, w'.assets.get? a = none → told Event.vouchOf a w'.events = []) ∧
    ∀ a asset, w'.assets.get? a = some asset →
      asset.VouchTold (told Event.vouchOf a w'.events) := by
  by_cases hc : c.topic = .vouch
  · obtain ⟨a, p, k, docs, rfl⟩ : ∃ a p k docs, c = .asset (.vouchAssetLegals a p k docs) := by
      unfold Call.topic at hc
      split at hc <;> first | exact ⟨_, _, _, _, rfl⟩ | exact nomatch hc
    have hstep : AssetStep w sender (.vouchAssetLegals a p k docs) w' := assetCall_eq_ok.mp h
    cases hstep with
    | @vouchAssetLegals _ _ _ _ asset _ _ _ hasset _ _ _ guards run =>
      obtain ⟨-, ⟨⟩⟩ := vouchAssetLegals_eq_ok.mp run
      refine vouches_vouch hs hasset guards.state docs (fun b => ?_) rfl rfl
      obtain rfl : asset.id = a := Store.key_of_get? hasset
      by_cases hb : asset.id = b <;> simp [told, Event.vouchOf, hb]
  · have hsame := told_call (by simp) (fun _ => topic_of_vouchOf) h hc
    have hkeeps := call_touch hf h
    constructor
    · intro a ha
      -- a call of another topic tells no vouch, so what was told stays
      rw [hsame]
      cases hold : w.assets.get? a with
      | none => exact hs.unlisted a hold
      | some x =>
        obtain ⟨x', hx', -⟩ := hkeeps a x hold
        rw [ha] at hx'
        cases hx'
    · intro a asset' hasset'
      rw [hsame]
      rcases call_assets h hasset' with hsome | ⟨rfl, -, collateral, -, hlisted⟩
      · obtain ⟨asset, hasset⟩ := Option.isSome_iff_exists.mp hsome
        obtain ⟨x, hx, htouch⟩ := hkeeps a asset hasset
        obtain rfl := Option.some.inj (hx.symm.trans hasset')
        obtain ⟨hstate, hpool, hcoverage⟩ := touch_vouch htouch hc
        have hold := hs.vouches a asset hasset
        refine ⟨fun h => hpool.trans (hold.pending (hstate h)), hpool ▸ hold.pool, fun v hv => ?_⟩
        rcases hcoverage with hcoverage | hcoverage
        · exact hcoverage ▸ hold.coverage v hv
        · exact Or.inr hcoverage
      · -- a new asset
        rw [hs.unlisted _ (hf.assets.get?_eq_none (Nat.lt_irrefl _))]
        exact ⟨fun _ => hlisted.pool, by rw [hlisted.pool]; rfl,
          fun _ hv => absurd hv List.not_mem_nil⟩

/-! ## Disputes -/

/-- Apart from the verdict, a call keeps a dispute's target and status. -/
theorem hearing_told {x x' : Dispute} {c : Call} (h : x.Hearing w sender c x')
    (hc : c.topic ≠ .verdict) : x'.targetPoolId = x.targetPoolId ∧ x'.status = x.status := by
  cases h with
  | verdict => exact absurd rfl hc
  | _ => exact ⟨rfl, rfl⟩

/-- A dispute that is not concerned keeps what is told of it. -/
theorem disputes_same (hf : w.Fresh) (hs : w.Standing) {c : Call} (h : w.call sender c = .ok w')
    (hopening : c.topic ≠ .opening) (hverdict : c.topic ≠ .verdict) :
    (∀ d, w'.disputes.get? d = none →
      told Event.openingOf d w'.events = [] ∧ told Event.verdictOf d w'.events = []) ∧
    ∀ d dispute, w'.disputes.get? d = some dispute →
      dispute.Told (told Event.openingOf d w'.events) (told Event.verdictOf d w'.events) := by
  have hopenings := told_call (by simp) (fun _ => topic_of_openingOf) h hopening
  have hverdicts := told_call (by simp) (fun _ => topic_of_verdictOf) h hverdict
  -- nothing is told of openings or verdicts, and the disputes keep both
  simp only [hopenings, hverdicts]
  constructor
  · intro d hd
    cases hold : w.disputes.get? d with
    | none => exact hs.unopened d hold
    | some x =>
      obtain ⟨x', hx', -⟩ := call_hearing hf h d x hold
      rw [hd] at hx'
      cases hx'
  · intro d dispute' hdispute'
    rcases call_disputes hf h hdispute' with
      ⟨dispute, hdispute, hhearing⟩ | ⟨-, _, _, _, _, _, _, rfl⟩
    · obtain ⟨htarget, hstatus⟩ := hearing_told hhearing hverdict
      have hold := hs.disputes d dispute hdispute
      exact ⟨htarget ▸ hold.opening, hstatus ▸ hold.verdict⟩
    · exact absurd rfl hopening

/-- What one dispute gains, where the others stay as they are. -/
theorem disputes_put (hs : w.Standing) {dispute : Dispute} {es : List Event}
    (hdisputes : w'.disputes = w.disputes.put dispute) (hevents : w'.events = w.events ++ es)
    (hothers : ∀ d, d ≠ dispute.id →
      told Event.openingOf d es = [] ∧ told Event.verdictOf d es = [])
    (htold : dispute.Told (told Event.openingOf dispute.id w'.events)
      (told Event.verdictOf dispute.id w'.events)) :
    (∀ d, w'.disputes.get? d = none →
      told Event.openingOf d w'.events = [] ∧ told Event.verdictOf d w'.events = []) ∧
    ∀ d x, w'.disputes.get? d = some x →
      x.Told (told Event.openingOf d w'.events) (told Event.verdictOf d w'.events) := by
  have hget : ∀ d, w'.disputes.get? d =
      if d = dispute.id then some dispute else w.disputes.get? d := by
    intro d
    rw [hdisputes, Store.get?_put]
    exact if_congr eq_comm rfl rfl
  constructor
  · intro d hd
    rw [hget] at hd
    have hne : d ≠ dispute.id := fun heq => by rw [if_pos heq] at hd; cases hd
    rw [if_neg hne] at hd
    obtain ⟨hopening, hverdict⟩ := hothers d hne
    rw [hevents, told_append, told_append, hopening, hverdict, List.append_nil, List.append_nil]
    exact hs.unopened d hd
  · intro d x hx
    rw [hget] at hx
    -- the dispute that is put, or another one
    by_cases hd : d = dispute.id
    · rw [if_pos hd] at hx
      obtain rfl := Option.some.inj hx
      exact hd ▸ htold
    · rw [if_neg hd] at hx
      obtain ⟨hopening, hverdict⟩ := hothers d hd
      rw [hevents, told_append, told_append, hopening, hverdict, List.append_nil, List.append_nil]
      exact hs.disputes d x hx

/-- One call keeps the disputes told. -/
theorem disputes_call (hf : w.Fresh) (hs : w.Standing) {c : Call} (h : w.call sender c = .ok w') :
    (∀ d, w'.disputes.get? d = none →
      told Event.openingOf d w'.events = [] ∧ told Event.verdictOf d w'.events = []) ∧
    ∀ d dispute, w'.disputes.get? d = some dispute →
      dispute.Told (told Event.openingOf d w'.events) (told Event.verdictOf d w'.events) := by
  by_cases hopening : c.topic = .opening
  · obtain ⟨a, p, g, bond, evidence, reason, rfl⟩ : ∃ a p g bond evidence reason,
        c = .dispute (.initializeDispute a p g bond evidence reason) := by
      unfold Call.topic at hopening
      split at hopening <;> first | exact ⟨_, _, _, _, _, _, rfl⟩ | cases hopening
    have hstep : DisputeStep w sender (.initializeDispute a p g bond evidence reason) w' :=
      disputeCall_eq_ok.mp h
    cases hstep with
    | @initializeDispute _ _ _ _ _ _ asset pool acc _ _ _ _ _ _ run =>
      obtain ⟨-, ⟨⟩⟩ := initializeDispute_eq_ok.mp run
      refine disputes_put hs rfl rfl (fun d hd => ?_) ?_
      · have hne : w.nextId ≠ d := fun heq => hd heq.symm
        simp [told, Event.openingOf, Event.verdictOf, Event.resolutionOf, hne]
      · obtain ⟨hopened, hdecided⟩ :=
          hs.unopened _ (hf.disputes.get?_eq_none (Nat.lt_irrefl _))
        -- the events of the opening tell it, and no verdict
        constructor
        · show told _ w.nextId (w.events ++ _) = _
          rw [told_append, hopened]
          simp [told, Event.openingOf, Dispute.opening]
        · show told _ w.nextId (w.events ++ _) = _
          rw [told_append, hdecided]
          simp [told, Event.verdictOf, Event.resolutionOf, Dispute.opening]
  · by_cases hverdict : c.topic = .verdict
    · obtain ⟨d, p, a, g, rfl⟩ : ∃ d p a g, c = .dispute (.resolveDispute d p a g) := by
        unfold Call.topic at hverdict
        split at hverdict <;> first | exact ⟨_, _, _, _, rfl⟩ | cases hverdict
      have hstep : DisputeStep w sender (.resolveDispute d p a g) w' := disputeCall_eq_ok.mp h
      cases hstep with
      | @resolveDispute _ _ _ _ dispute pool asset acc v hdispute _ _ _ guards decides run =>
        have hid : v.dispute.id = dispute.id := decides.keeps.disputeId
        obtain rfl : dispute.id = d := Store.key_of_get? hdispute
        have hold := hs.disputes _ dispute hdispute
        have hothers := decides_topics decides
        have hopenings : ∀ k, told Event.openingOf k (v.events ++ [v.closing dispute]) = [] := by
          intro k
          rw [told_append,
            told_eq_nil (fun _ => topic_of_openingOf) fun e he => by simp [hothers e he]]
          simp [told, Event.openingOf, Verdict.closing]
        have hverdicts : ∀ k, told Event.verdictOf k (v.events ++ [v.closing dispute]) =
            if dispute.id = k then [v.dispute.status] else [] := by
          intro k
          rw [told_append,
            told_eq_nil (fun _ => topic_of_verdictOf) fun e he => by simp [hothers e he]]
          by_cases hk : dispute.id = k <;>
            simp [told, Event.verdictOf, Event.resolutionOf, Verdict.closing, hk]
        refine disputes_put hs rfl rfl (fun k hk => ⟨hopenings k, ?_⟩) ?_
        · rw [hverdicts, if_neg fun heq => hk (hid.trans heq).symm]
        -- the verdict is told once; before it the dispute was open, so none was
        · rw [hid]
          constructor
          · show told _ dispute.id (w.events ++ _) = _
            rw [told_append, hopenings, List.append_nil, hold.opening, decides.keeps.target]
          · show told _ dispute.id (w.events ++ _) = _
            rw [told_append, hverdicts, if_pos rfl, hold.verdict, if_pos guards.opened,
              List.nil_append, if_neg decides.status_ne]
    · exact disputes_same hf hs h hopening hverdict

end World

/-- The log of a reachable world tells its vouches and verdicts. -/
theorem Reachable.standing {w : World} (hw : Reachable w) : w.Standing := by
  refine hw.induct (P := World.Standing) ?_ ?_ fun _ h _ => { h with }
  · intro admin
    exact ⟨fun _ _ => rfl, fun _ _ h => (nomatch h), fun _ _ => ⟨rfl, rfl⟩,
      fun _ _ h => (nomatch h)⟩
  · intro w sender c w' hw hs h
    obtain ⟨hunlisted, hvouches⟩ := World.vouches_call hw.fresh hs h
    obtain ⟨hunopened, hdisputes⟩ := World.disputes_call hw.fresh hs h
    exact ⟨hunlisted, hvouches, hunopened, hdisputes⟩


/-! ## States -/

namespace Ledger

/-- What a lawful log mentions it has announced. -/
theorem knows_of_mentions {es : List Event} (h : empty.Lawful es) {e : Event} (he : e ∈ es)
    {r : Ref} (hr : r ∈ e.mentions) : (replay es).Knows r := by
  obtain ⟨before, after, rfl⟩ := List.append_of_mem he
  rw [lawful_append] at h
  obtain ⟨c, hc, hcreates⟩ := knows_replay.mp (h.2.1.mentions r hr)
  exact knows_replay.mpr ⟨c, List.mem_append_left _ hc, hcreates⟩

/-- An event about an asset that keeps its state keeps everyone's. -/
theorem state_onAsset {l : Ledger} {a b : ID} {f : AssetView → AssetView}
    (hf : ∀ v, (f v).state = v.state) :
    ((l.onAsset a f).assets b).map AssetView.state = (l.assets b).map AssetView.state := by
  by_cases h : b = a
  · cases hv : l.assets a <;> simp [onAsset, amend, h, hv, hf]
  · simp [onAsset, amend, h]

/-- An event about an accumulator keeps the states. -/
theorem state_onAccumulator {l : Ledger} {a b : ID} {f : AccumulatorView → AccumulatorView} :
    ((l.onAccumulator a f).assets b).map AssetView.state = (l.assets b).map AssetView.state := by
  obtain ⟨accumulators, h⟩ := onAccumulator_eq l a f
  rw [h]

/-- Only its announcement and its transitions tell the state of an asset. -/
theorem state_apply {l : Ledger} {e : Event} {b : ID} (hcreates : e.creates ≠ some (.asset b))
    (hstate : ∀ s, e.stateOf ≠ some (b, s)) :
    ((l.apply e).assets b).map AssetView.state = (l.assets b).map AssetView.state := by
  -- only the creation of the asset and a change of its state could matter, and both are excluded
  cases e
  case assetCreated a _ _ _ _ _ _ _ _ _ _ _ _ _ _ _ _ _ _ =>
    have hne : b ≠ a := fun heq => hcreates (by rw [heq]; rfl)
    simp [apply, hne]
  case assetStateChanged a _ s =>
    have hne : b ≠ a := fun heq => hstate s (by rw [heq]; rfl)
    simp [apply, onAsset, amend, hne]
  case raiseFinalized | capitalContributed | contributionRefunded | trancheReleased =>
    exact state_onAsset fun _ => rfl
  case rolloverSwept | yieldClaimed | compensationSwept | sharesWrapped | sharesUnwrapped |
      shareRedeemed | dustSwept | entityDefaulted | assetClosed | revenueDeposited |
      disputeResolved =>
    exact state_onAccumulator
  all_goals rfl

/-- An asset is in the state the log told last. -/
theorem state_replay {es : List Event} (h : empty.Lawful es) {a : ID} {v : AssetView}
    (hv : (replay es).assets a = some v) :
    v.state = (told Event.stateOf a es).getLast?.getD .pendingVouch := by
  -- induction from the end of the log: the event creates the asset, changes its state, or does
  -- neither
  induction es using List.reverseRecOn generalizing v with
  | nil => cases hv
  | append_singleton es e ih =>
    have hlawful := h
    rw [lawful_append] at h
    obtain ⟨hes, hallows, -⟩ := h
    rw [replay_append, List.foldl_cons, List.foldl_nil] at hv
    rw [told_append]
    by_cases hcreates : e.creates = some (.asset a)
    · -- nothing was told of the asset before
      have hnew : ¬ (replay es).Knows (.asset a) := hallows.creates _ hcreates
      have hnone : told Event.stateOf a es = [] := by
        rw [List.eq_nil_iff_forall_not_mem]
        intro s hs
        obtain ⟨e', he', hof⟩ := mem_told.mp hs
        refine hnew (knows_of_mentions hes he' ?_)
        cases e' <;> cases hof
        exact List.mem_cons_self
      cases e <;> cases hcreates
      simp only [apply, Function.update_self, Option.some.injEq] at hv
      subst hv
      rw [hnone]
      rfl
    · by_cases hstate : ∃ s, e.stateOf = some (a, s)
      · obtain ⟨s, hof⟩ := hstate
        have htold : told Event.stateOf a [e] = [s] := by simp [told, hof]
        rw [htold, List.getLast?_concat, Option.getD_some]
        cases e <;> cases hof
        simp only [apply, onAsset, amend, Function.update_self, Option.map_eq_some_iff] at hv
        obtain ⟨u, -, rfl⟩ := hv
        rfl
      · have hsame := state_apply (l := replay es) hcreates fun s hs => hstate ⟨s, hs⟩
        rw [hv, Option.map_some] at hsame
        obtain ⟨u, hu, hstate'⟩ := Option.map_eq_some_iff.mp hsame.symm
        have htold : told Event.stateOf a [e] = [] := by
          rw [List.eq_nil_iff_forall_not_mem]
          intro s hs
          obtain ⟨e', he', hof⟩ := mem_told.mp hs
          obtain rfl := List.mem_singleton.mp he'
          exact hstate ⟨s, hof⟩
        rw [htold, List.append_nil, ← hstate']
        exact ih hes hu

end Ledger

/-- An asset is in the state its last transition told. -/
theorem Reachable.state_told {w : World} (hw : Reachable w) {a : ID} {asset : Asset}
    (hasset : w.assets.get? a = some asset) :
    asset.state = (told Event.stateOf a w.events).getLast?.getD .pendingVouch := by
  have hentry : (Ledger.replay w.events).assets a = some asset.view := by
    rw [hw.replayed]
    exact Store.table_of_get? hasset
  exact Ledger.state_replay hw.lawful hentry

end Gally

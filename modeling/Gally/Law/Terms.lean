import Gally.Law.Standing

/-!
# Terms of a listing

An asset keeps the goal, the deadline and the schedule that its listing told, and the log tells of
each release of a tranche once and in order (`Reachable.planned`).
-/

namespace Gally

open Checked

/-! ## What the log tells of a plan -/

/-- The terms of a raise and its schedule. -/
structure Terms where
  goal : ℕ
  fundingDeadlineMs : ℕ
  amounts : List ℕ
  deadlinesMs : List ℕ
  deriving DecidableEq, Repr

def Asset.terms (asset : Asset) : Terms where
  goal := asset.fundingGoal
  fundingDeadlineMs := asset.fundingDeadlineMs
  amounts := asset.tranches.map Tranche.amount
  deadlinesMs := asset.tranches.map Tranche.deadlineMs

namespace Event

/-- The asset and its terms. -/
def termsOf : Event → Option (ID × Terms)
  | .assetCreated a _ goal fundingDeadlineMs _ _ _ _ _ _ _ _ _ _ _ _ amounts deadlinesMs _ =>
    some (a, { goal, fundingDeadlineMs, amounts, deadlinesMs })
  | _ => none

/-- The asset and the tranche that was released. -/
def releaseOf : Event → Option (ID × ℕ)
  | .trancheReleased a i _ _ => some (a, i)
  | _ => none

end Event

/-- Only the creation of an asset tells its terms. -/
theorem kind_of_termsOf {e : Event} (h : e.termsOf.isSome) : e.kind = .assetCreated := by
  cases e <;> first | rfl | cases h

/-- Only the release of a tranche tells a release. -/
theorem kind_of_releaseOf {e : Event} (h : e.releaseOf.isSome) : e.kind = .trancheReleased := by
  cases e <;> first | rfl | cases h

/-- A call tells nothing more of what its events are not about. -/
theorem World.told_kinds {w w' : World} {sender : Address} {c : Call} {β : Type}
    {of : Event → Option (ID × β)} {kind : EventKind} (hof : ∀ e, (of e).isSome → e.kind = kind)
    (h : w.call sender c = .ok w') (hc : kind ∉ c.kinds) (k : ID) :
    told of k w'.events = told of k w.events := by
  obtain ⟨es, hevents, hkinds⟩ := World.emits h
  have hnone : told of k es = [] := by
    rw [List.eq_nil_iff_forall_not_mem]
    intro v hv
    obtain ⟨e, he, hsome⟩ := mem_told.mp hv
    exact hc (hof e (by rw [hsome]; rfl) ▸ hkinds e he)
  rw [hevents, told_append, hnone, List.append_nil]

/-! ## The invariant -/

/-- What the log tells of the plan of an asset. -/
structure Asset.PlanTold (asset : Asset) (terms : List Terms) (releases : List ℕ) : Prop where
  terms : terms = [asset.terms]
  releases : releases = List.range asset.nextTranche

/-- The log tells the plans of all assets. -/
structure World.Planned (w : World) : Prop where
  unlisted : ∀ a, w.assets.get? a = none →
    told Event.termsOf a w.events = [] ∧ told Event.releaseOf a w.events = []
  assets : ∀ a asset, w.assets.get? a = some asset →
    asset.PlanTold (told Event.termsOf a w.events) (told Event.releaseOf a w.events)

/-- A tranche is replaced by one with the same amount and deadline. -/
theorem terms_eq {x x' : Asset} {i : ℕ} {t t' : Tranche} (ht : x.tranches[i]? = some t)
    (htranches : x'.tranches = x.tranches.set i t') (hgoal : x'.fundingGoal = x.fundingGoal)
    (hdeadline : x'.fundingDeadlineMs = x.fundingDeadlineMs) (hamount : t'.amount = t.amount)
    (hdeadlineMs : t'.deadlineMs = t.deadlineMs) : x'.terms = x.terms := by
  obtain ⟨hlt, rfl⟩ := List.getElem?_eq_some_iff.mp ht
  have hset : ∀ {f : Tranche → ℕ}, f t' = f x.tranches[i] →
      (x.tranches.set i t').map f = x.tranches.map f := by
    intro f hf
    rw [List.map_set, hf, ← List.map_set, List.set_getElem_self]
  unfold Asset.terms
  rw [htranches, hset hamount, hset hdeadlineMs, hgoal, hdeadline]

namespace World

variable {w w' : World} {sender : Address}

/-- Only a release changes which tranche is the next, and nothing changes the terms. -/
theorem touch_terms {x x' : Asset} {c : Call} (h : x.Touch w sender c x') :
    x'.terms = x.terms ∧ (.trancheReleased ∉ c.kinds → x'.nextTranche = x.nextTranche) := by
  -- three calls replace a tranche, by one with the same amount and deadline
  cases h with
  | prove _ _ guards => exact ⟨terms_eq guards.tranche rfl rfl rfl rfl rfl, fun _ => rfl⟩
  | approve _ _ _ guards => exact ⟨terms_eq guards.tranche rfl rfl rfl rfl rfl, fun _ => rfl⟩
  | @release _ _ _ t _ _ guards =>
    have ht : x.tranches[x.nextTranche]? = some t := guards.next ▸ guards.tranche
    exact ⟨terms_eq ht rfl rfl rfl rfl rfl, fun hc => absurd List.mem_cons_self hc⟩
  | verdict _ _ _ _ decides =>
    cases decides with
    | expired => exact ⟨rfl, fun _ => rfl⟩
    | rejected => exact ⟨rfl, fun _ => rfl⟩
    | upheld =>
      unfold upheldVerdict Asset.upheld
      split
      · exact ⟨rfl, fun _ => rfl⟩
      · exact ⟨rfl, fun _ => rfl⟩
  | _ => exact ⟨rfl, fun _ => rfl⟩

/-- The loop that builds the schedule keeps the lists it is given. -/
theorem buildTranches_schedule {amounts deadlines : List U64} {descriptions : List Bytes}
    {sum prev total : ℕ} {ts : List Tranche}
    (h : buildTranches amounts descriptions deadlines sum prev = .ok (ts, total))
    (hd : descriptions.length = amounts.length) (hl : deadlines.length = amounts.length) :
    ts.map Tranche.amount = amounts.map (·.val) ∧
    ts.map Tranche.deadlineMs = deadlines.map (·.val) := by
  -- induction over the amounts, with the descriptions and deadlines along
  induction amounts generalizing descriptions deadlines sum prev ts total with
  | nil =>
    obtain rfl := List.length_eq_zero_iff.mp hl
    simp only [buildTranches, Except.ok.injEq, Prod.mk.injEq] at h
    obtain ⟨rfl, rfl⟩ := h
    exact ⟨rfl, rfl⟩
  | cons a amounts ih =>
    obtain _ | ⟨d, descriptions⟩ := descriptions
    · simp at hd
    obtain _ | ⟨l, deadlines⟩ := deadlines
    · simp at hl
    simp only [buildTranches, seq_eq_ok, ensure_eq_ok, add64_eq_ok, return_eq_ok,
      Prod.mk.injEq] at h
    obtain ⟨-, -, -, -, _, ⟨-, rfl⟩, ⟨rest, total'⟩, hrest, rfl, rfl⟩ := h
    obtain ⟨hamounts, hdeadlines⟩ := ih hrest (Nat.succ.inj hd) (Nat.succ.inj hl)
    exact ⟨congrArg (a.val :: ·) hamounts, congrArg (l.val :: ·) hdeadlines⟩

/-- A listing tells its terms. -/
theorem listing_told {config : ProtocolConfig} {l : Listing} {isTerm : Bool} {target : U64}
    {collateral now : ℕ} {assetId capId : ID} {asset : Asset} {cap : EntityCap}
    {events : List Event} (run : createAssetInternal config l isTerm target collateral now sender
      assetId capId = .ok (asset, cap, events)) :
    ∃ e, events = [e] ∧ e.termsOf = some (asset.id, asset.terms) ∧ e.releaseOf = none := by
  simp only [createAssetInternal, seq_eq_ok, assertVersion_eq_ok, assertNotPaused_eq_ok,
    ensure_eq_ok, mulBps_eq_ok, return_eq_ok, Prod.mk.injEq] at run
  obtain ⟨-, -, -, -, -, -, -, -, -, -, -, -, -, -, -, -, -, ⟨-, hd, hl⟩, -, -, -, -, -, -, _, -,
    -, -, ⟨ts, total⟩, hts, -, -, rfl, -, rfl⟩ := run
  obtain ⟨hamounts, hdeadlines⟩ := buildTranches_schedule hts hd hl
  refine ⟨_, rfl, ?_, rfl⟩
  simp only [Event.termsOf, Asset.terms, hamounts, hdeadlines]

/-- A new asset has the plan that its listing told. -/
theorem planned_listed (hf : w.Fresh) (hp : w.Planned) {l : Listing} {isTerm : Bool}
    {target : U64} {collateral : ℕ} {asset : Asset} {cap : EntityCap} {events : List Event}
    (run : createAssetInternal w.config l isTerm target collateral w.clockMs sender w.nextId
      (w.nextId + 1) = .ok (asset, cap, events)) :
    (w.listed sender collateral asset cap events).Planned := by
  obtain ⟨e, rfl, hterms, hrelease⟩ := listing_told run
  have created := createAssetInternal_ok run
  have htoldTerms : ∀ a, told Event.termsOf a [e] = if asset.id = a then [asset.terms] else [] := by
    intro a
    by_cases ha : asset.id = a <;> simp [told, hterms, ha]
  have htoldReleases : ∀ a, told Event.releaseOf a [e] = [] := by
    intro a
    simp [told, hrelease]
  have hget : ∀ a, (w.listed sender collateral asset cap [e]).assets.get? a =
      if asset.id = a then some asset else w.assets.get? a := fun _ => Store.get?_put ..
  -- the id is new, so nothing has been told of it
  have hnew : w.assets.get? asset.id = none := by
    rw [created.id]
    exact hf.assets.get?_eq_none (Nat.lt_irrefl _)
  constructor
  · intro a ha
    rw [hget] at ha
    split at ha
    · cases ha
    · next hne =>
      show told _ a (w.events ++ [e]) = [] ∧ told _ a (w.events ++ [e]) = []
      rw [told_append, told_append, htoldTerms, htoldReleases, if_neg hne, List.append_nil,
        List.append_nil]
      exact hp.unlisted a ha
  · intro a x hx
    rw [hget] at hx
    show x.PlanTold (told _ a (w.events ++ [e])) (told _ a (w.events ++ [e]))
    rw [told_append, told_append, htoldTerms, htoldReleases, List.append_nil]
    split at hx
    · next heq =>
      obtain rfl := Option.some.inj hx
      obtain rfl := heq
      obtain ⟨hnoTerms, hnoReleases⟩ := hp.unlisted _ hnew
      rw [hnoTerms, hnoReleases, if_pos rfl]
      exact ⟨rfl, by rw [created.listed.nextTranche]; rfl⟩
    · next hne =>
      rw [if_neg hne, List.append_nil]
      exact hp.assets a x hx

/-- The events of a release tell of that release only. -/
theorem told_trancheEvents (asset : Asset) (t : Tranche) (b : ID) :
    told Event.termsOf b (asset.trancheEvents t) = [] ∧
    told Event.releaseOf b (asset.trancheEvents t) =
      if asset.id = b then [asset.nextTranche] else [] := by
  -- what follows the release is about the state and the accumulator
  have hlater : ∀ e ∈ (asset.trancheEvents t).tail, e.termsOf = none ∧ e.releaseOf = none := by
    intro e he
    unfold Asset.trancheEvents at he
    rw [List.tail_cons] at he
    split at he
    · split at he
      · rcases List.mem_pair.mp he with rfl | rfl <;> exact ⟨rfl, rfl⟩
      · cases he
    · cases he
  have hnone : ∀ {β : Type} {of : Event → Option (ID × β)},
      (∀ e ∈ (asset.trancheEvents t).tail, of e = none) →
      told of b (asset.trancheEvents t).tail = [] := by
    intro β of hof
    rw [told, List.filterMap_eq_nil_iff]
    intro e he
    rw [hof e he]
    rfl
  have hsplit : asset.trancheEvents t = [.trancheReleased asset.id asset.nextTranche t.amount
    (asset.escrow - t.amount)] ++ (asset.trancheEvents t).tail := rfl
  rw [hsplit, told_append, told_append, hnone fun e he => (hlater e he).1,
    hnone fun e he => (hlater e he).2]
  by_cases hb : asset.id = b <;> simp [told, Event.termsOf, Event.releaseOf, hb]

/-- The next tranche of one asset is released. -/
theorem planned_release (hp : w.Planned) {asset : Asset} {t : Tranche} {es : List Event}
    (hasset : w.assets.get? asset.id = some asset)
    (ht : asset.tranches[asset.nextTranche]? = some t)
    (hassets : w'.assets = w.assets.put (asset.afterTranche t))
    (hevents : w'.events = w.events ++ es)
    (hterms : ∀ a, told Event.termsOf a es = []) (hreleases : ∀ a, told Event.releaseOf a es =
      if asset.id = a then [asset.nextTranche] else []) : w'.Planned := by
  have hget : ∀ a, w'.assets.get? a =
      if asset.id = a then some (asset.afterTranche t) else w.assets.get? a := by
    intro a
    rw [hassets, Store.get?_put]
    rfl
  constructor
  · intro a ha
    rw [hget] at ha
    split at ha
    · cases ha
    · next hne =>
      rw [hevents, told_append, told_append, hterms, hreleases, if_neg hne, List.append_nil,
        List.append_nil]
      exact hp.unlisted a ha
  · intro a x hx
    rw [hget] at hx
    rw [hevents, told_append, told_append, hterms, hreleases, List.append_nil]
    split at hx
    · next heq =>
      obtain rfl := Option.some.inj hx
      obtain rfl := heq
      have hold := hp.assets _ asset hasset
      rw [hold.terms, hold.releases, if_pos rfl]
      refine ⟨?_, (List.range_succ (n := asset.nextTranche)).symm⟩
      have hsame : (asset.afterTranche t).terms = asset.terms :=
        terms_eq ht rfl rfl rfl rfl rfl
      rw [hsame]
    · next hne =>
      rw [if_neg hne, List.append_nil]
      exact hp.assets a x hx

/-- A call that neither lists nor releases changes no plan. -/
theorem planned_same (hf : w.Fresh) (hp : w.Planned) {c : Call} (h : w.call sender c = .ok w')
    (hcreated : .assetCreated ∉ c.kinds) (hreleased : .trancheReleased ∉ c.kinds) :
    w'.Planned := by
  have hterms := told_kinds (fun _ => kind_of_termsOf) h hcreated
  have hreleases := told_kinds (fun _ => kind_of_releaseOf) h hreleased
  have hkeeps := call_touch hf h
  have hold : ∀ b x, w'.assets.get? b = some x → (w.assets.get? b).isSome := by
    rcases call_listing h with ⟨_, _, _, _, _, _, _, run, rfl⟩ | ⟨-, hold⟩
    · obtain ⟨e, rfl, htermsOf, -⟩ := listing_told run
      obtain ⟨es, hevents, hkinds⟩ := emits h
      obtain rfl := List.append_cancel_left hevents
      have hkind := hkinds e (List.mem_singleton_self e)
      rw [kind_of_termsOf (by rw [htermsOf]; rfl)] at hkind
      exact absurd hkind hcreated
    · exact hold
  constructor
  · intro a ha
    rw [hterms, hreleases]
    cases hget : w.assets.get? a with
    | none => exact hp.unlisted a hget
    | some x =>
      obtain ⟨x', hx', -⟩ := hkeeps a x hget
      rw [ha] at hx'
      cases hx'
  · intro a asset' hasset'
    rw [hterms, hreleases]
    obtain ⟨asset, hasset⟩ := Option.isSome_iff_exists.mp (hold a asset' hasset')
    obtain ⟨x, hx, htouch⟩ := hkeeps a asset hasset
    obtain rfl := Option.some.inj (hx.symm.trans hasset')
    -- neither created nor released: the terms and the counter stay
    obtain ⟨hsame, hnext⟩ := touch_terms htouch
    have htold := hp.assets a asset hasset
    exact ⟨hsame ▸ htold.terms, (hnext hreleased).symm ▸ htold.releases⟩

/-- A call tells every change of a plan. -/
theorem planned_call (hf : w.Fresh) (hp : w.Planned) {c : Call} (h : w.call sender c = .ok w') :
    w'.Planned := by
  by_cases hcreated : .assetCreated ∈ c.kinds
  · obtain ⟨c, rfl, hk⟩ := Call.asset_of_kinds hcreated (Or.inl rfl)
    have hstep : AssetStep w sender c w' := assetCall_eq_ok.mp h
    cases hstep with
    | createAsset _ _ run => exact planned_listed hf hp run
    | createTermAsset _ _ run => exact planned_listed hf hp run
    | _ => simp [AssetCall.kinds] at hk
  · by_cases hreleased : .trancheReleased ∈ c.kinds
    · obtain ⟨c, rfl, hk⟩ := Call.asset_of_kinds hreleased (Or.inr (Or.inr rfl))
      have hstep : AssetStep w sender c w' := assetCall_eq_ok.mp h
      cases hstep with
      | @releaseFundingTranche a _ _ asset _ _ _ hasset _ _ guards run =>
        obtain ⟨t, -, heq⟩ := releaseFundingTranche_eq_ok.mp run
        obtain ⟨-, heq⟩ := Prod.mk.inj heq
        obtain ⟨-, rfl⟩ := Prod.mk.inj heq
        obtain rfl : asset.id = a := Store.key_of_get? hasset
        exact planned_release hp hasset (guards.next ▸ guards.tranche) rfl rfl
          (fun b => (told_trancheEvents asset t b).1) fun b => (told_trancheEvents asset t b).2
      | _ => simp [AssetCall.kinds] at hk
    · exact planned_same hf hp h hcreated hreleased

end World

/-- The log tells the plan of every asset. -/
theorem Reachable.planned {w : World} (hw : Reachable w) : w.Planned := by
  refine hw.induct (P := World.Planned) ?_ ?_ fun _ h _ => { h with }
  · intro admin
    exact ⟨fun _ _ => ⟨rfl, rfl⟩, fun _ _ h => (nomatch h)⟩
  · intro w sender c w' hw hp h
    exact World.planned_call hw.fresh hp h

end Gally

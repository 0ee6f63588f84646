import Gally.Law.Default
import Gally.Law.Lifecycle

/-!
# Challenges that fail

While a dispute is OPEN, approvals and releases of its asset are halted, but deadlines run on
and `flag_default` does not ask for the flag of the asset. So a challenge that fails can still
put the asset into default: exactly if somebody flags it meanwhile, or afterwards for a tranche
that ran out meanwhile and is still unapproved.

## Key results

- `failed_challenge_harmless`: when a failed challenge leaves the asset as it was
-/

namespace Gally

open Checked

/-! ## The schedule -/

/-- The same deadlines; tranches are only released and approved, never the reverse. -/
structure Asset.Advances (asset asset' : Asset) : Prop where
  next : asset.nextTranche ≤ asset'.nextTranche
  tranche : ∀ (i : ℕ) (t' : Tranche), asset'.tranches[i]? = some t' →
    ∃ t : Tranche, asset.tranches[i]? = some t ∧
    t'.deadlineMs = t.deadlineMs ∧ (t'.approvedBy = none → t.approvedBy = none)

namespace Asset.Advances

theorem refl (asset : Asset) : asset.Advances asset :=
  ⟨Nat.le_refl _, fun _ t ht => ⟨t, ht, rfl, fun hu => hu⟩⟩

/-- Advances compose. -/
theorem trans {x y z : Asset} (h : x.Advances y) (h' : y.Advances z) : x.Advances z := by
  refine ⟨Nat.le_trans h.next h'.next, fun i t ht => ?_⟩
  obtain ⟨t', ht', hd, hu⟩ := h'.tranche i t ht
  obtain ⟨t'', ht'', hd', hu'⟩ := h.tranche i t' ht'
  exact ⟨t'', ht'', hd.trans hd', hu' ∘ hu⟩

/-- The tranches are the same. -/
theorem of_eq {x y : Asset} (hnext : y.nextTranche = x.nextTranche)
    (htranches : y.tranches = x.tranches) : x.Advances y :=
  ⟨Nat.le_of_eq hnext.symm, fun _ t ht => ⟨t, htranches ▸ ht, rfl, fun hu => hu⟩⟩

/-- One tranche was replaced by one with the same deadline. -/
theorem of_set {x y : Asset} {i : ℕ} {old new : Tranche} (hold : x.tranches[i]? = some old)
    (htranches : y.tranches = x.tranches.set i new) (hnext : x.nextTranche ≤ y.nextTranche)
    (hdeadline : new.deadlineMs = old.deadlineMs)
    (happroved : new.approvedBy = none → old.approvedBy = none) : x.Advances y := by
  refine ⟨hnext, fun j t ht => ?_⟩
  rw [htranches, List.getElem?_set] at ht
  split at ht
  · next hij =>
    subst hij
    split at ht
    · obtain rfl := Option.some.inj ht
      exact ⟨old, hold, hdeadline, happroved⟩
    · simp at ht
  · exact ⟨t, ht, rfl, fun hu => hu⟩

/-- No call takes an asset back. -/
theorem touch {w : World} {sender : Address} {asset asset' : Asset} {c : Call}
    (h : asset.Touch w sender c asset') : asset.Advances asset' := by
  cases h with
  | prove _ _ guards => exact of_set guards.tranche rfl (Nat.le_refl _) rfl fun hu => hu
  | approve _ _ _ guards =>
    exact of_set guards.tranche rfl (Nat.le_refl _) rfl fun h => absurd h (by simp)
  | @release c i cap t _ _ guards =>
    have ht : asset.tranches[asset.nextTranche]? = some t := guards.next ▸ guards.tranche
    exact of_set ht rfl (Nat.le_succ _) rfl fun hu => hu
  | verdict _ _ _ _ decides =>
    refine of_eq ?_ decides.tranches
    cases decides with
    | expired => rfl
    | rejected => rfl
    | upheld =>
      simp only [upheldVerdict, Asset.upheld]
      split <;> rfl
  | _ => exact of_eq rfl rfl

end Asset.Advances

/-- The asset holds and owes what it did. -/
structure Asset.AsBefore (asset asset' : Asset) : Prop where
  state : asset'.state = asset.state
  escrow : asset'.escrow = asset.escrow
  collateral : asset'.entityCollateral = asset.entityCollateral

theorem Asset.AsBefore.trans {x y z : Asset} (h : x.AsBefore y) (h' : y.AsBefore z) :
    x.AsBefore z :=
  ⟨h'.state.trans h.state, h'.escrow.trans h.escrow, h'.collateral.trans h.collateral⟩

/-- Collateral that has left does not come back in a call. -/
theorem Reachable.stays_gone {w w' : World} (hw : Reachable w) {sender : Address} {c : Call}
    (h : w.call sender c = .ok w') {a : ID} {asset : Asset} (hasset : w.assets.get? a = some asset)
    (hgone : asset.state.holdsCollateral = false) :
    ∃ asset', w'.assets.get? a = some asset' ∧ asset'.state.holdsCollateral = false := by
  obtain ⟨asset', hasset', hcustody⟩ := World.call_custody hw h a asset hasset
  refine ⟨asset', hasset', ?_⟩
  rcases hcustody.next with heq | hnext
  · rw [heq, hgone]
  · exact hnext.holdsCollateral hgone

/-! ## Runs that flag no default -/

/-- No default of asset `a` is flagged. -/
def CallRule.sparing (a : ID) : CallRule := fun _ _ c => ∀ g, c ≠ .asset (.flagDefault a g)

/-- A flagged default takes the collateral. -/
theorem World.flagDefault_gone {w w' : World} {sender : Address} {a g : ID}
    (h : w.call sender (.asset (.flagDefault a g)) = .ok w') :
    ∃ asset', w'.assets.get? a = some asset' ∧ asset'.state.holdsCollateral = false := by
  cases World.callAsset_eq_ok.mp h with
  | flagDefault hasset => exact ⟨_, Store.get?_replace (Asset.seized _) hasset rfl, rfl⟩

/-- Every run takes the collateral of the asset or spares it. -/
theorem World.Path.gone_or_sparing {w u : World} (hw : Reachable w) (h : w.Path .any u) (a : ID) :
    (∃ asset, u.assets.get? a = some asset ∧ asset.state.holdsCollateral = false) ∨
      w.Path (.sparing a) u := by
  induction h with
  | refl => exact Or.inr (.refl w)
  | @tail v u init last ih =>
    have hv : Reachable v := World.Path.reachable hw init
    -- a step of the clock, or a call: either the asset was given up already, or this call does it,
    -- or neither
    cases last with
    | @tick now le =>
      rcases ih with hgone | hpath
      · exact Or.inl hgone
      · exact Or.inr (hpath.trans (.tick le))
    | @call sender c u _ hcall =>
      rcases ih with ⟨asset, hasset, hgone⟩ | hpath
      · exact Or.inl (hv.stays_gone hcall hasset hgone)
      · by_cases hflag : ∃ g, c = .asset (.flagDefault a g)
        · obtain ⟨g, rfl⟩ := hflag
          exact Or.inl (World.flagDefault_gone hcall)
        · have hrule : CallRule.sparing a v sender c := fun g hc => hflag ⟨g, hc⟩
          exact Or.inr (hpath.trans (.call hrule hcall))

/-! ## While the dispute is OPEN -/

/-- While a dispute about an EXECUTING asset stays OPEN, a call that does not flag its default
    leaves escrow, collateral, state and the next tranche alone. -/
theorem Reachable.halted {w w' : World} (hw : Reachable w) {sender : Address} {c : Call}
    (h : w.call sender c = .ok w') {d : ID} {dispute dispute' : Dispute}
    (hdispute : w.disputes.get? d = some dispute) (hopen : dispute.status = .opened)
    (hdispute' : w'.disputes.get? d = some dispute') (hopen' : dispute'.status = .opened)
    (hrule : CallRule.sparing dispute.assetId w sender c)
    {asset : Asset} (hasset : w.assets.get? dispute.assetId = some asset)
    (hstate : asset.state = .executing) :
    ∃ asset', w'.assets.get? dispute.assetId = some asset' ∧
      asset.AsBefore asset' ∧ asset'.nextTranche = asset.nextTranche := by
  have hid : asset.id = dispute.assetId := Store.key_of_get? hasset
  have hflag : asset.disputed = true := by
    obtain ⟨x, hx, hdisputed⟩ := hw.tried.disputed dispute (Store.mem_of_get? hdispute) hopen
    exact Option.some.inj (hx.symm.trans hasset) ▸ hdisputed
  obtain ⟨asset', hasset', htouch⟩ := World.call_touch hw.fresh h _ asset hasset
  refine ⟨asset', hasset', ?_⟩
  -- of the calls that touch an EXECUTING asset only the default is not halted by the flag
  cases htouch.executing hstate with
  | keep => exact ⟨⟨rfl, rfl, rfl⟩, rfl⟩
  | prove => exact ⟨⟨rfl, rfl, rfl⟩, rfl⟩
  | approve _ _ _ guards => exact absurd hflag (by simp [guards.undisputed])
  | release _ _ guards => exact absurd hflag (by simp [guards.undisputed])
  | challenge _ _ guards => exact absurd hflag (by simp [guards.undisputed])
  | @default g => exact absurd (hid ▸ rfl) (hrule g)
  | verdict => exact absurd hid.symm (hw.no_other_verdict h hdispute hopen hdispute' hopen')

/-- While dispute `d` is OPEN, its asset is as it was at the opening. -/
def World.Meanwhile (asset : Asset) (d : ID) (u : World) : Prop :=
  ∃ dispute, u.disputes.get? d = some dispute ∧ (dispute.status = .opened →
    dispute.assetId = asset.id ∧ ∃ asset', u.assets.get? asset.id = some asset' ∧
      asset.AsBefore asset' ∧ asset'.nextTranche = asset.nextTranche ∧ asset.Advances asset')

/-- One call that spares the asset keeps it as it was, as long as the dispute is open. -/
theorem World.Meanwhile.call {asset : Asset} {d : ID} {u u' : World} (h : u.Meanwhile asset d)
    (hu : Reachable u) (hstate : asset.state = .executing) {sender : Address} {c : Call}
    (hrule : CallRule.sparing asset.id u sender c) (hcall : u.call sender c = .ok u') :
    u'.Meanwhile asset d := by
  obtain ⟨x, hx, hx'⟩ := h
  obtain ⟨z, hz, hkept⟩ := World.call_charge hu.fresh hcall hx
  refine ⟨z, hz, fun hopen => ?_⟩
  obtain ⟨hopen', hsame⟩ := hkept hopen
  obtain ⟨ha, y, hy, hbefore, hnext, hadv⟩ := hx' hopen'
  refine ⟨hsame.assetId.trans ha, ?_⟩
  obtain ⟨y', hy', hbefore', hnext'⟩ := hu.halted hcall hx hopen' hz hopen (ha.symm ▸ hrule)
    (ha.symm ▸ hy) (hbefore.state.trans hstate)
  obtain ⟨y'', hy'', htouch⟩ := World.call_touch hu.fresh hcall _ y hy
  rw [ha] at hy'
  obtain rfl := Option.some.inj (hy'.symm.trans hy'')
  exact ⟨y', hy', hbefore.trans hbefore', hnext'.trans hnext, hadv.trans (.touch htouch)⟩

/-- The opening of a dispute, and any run after it that flags no default of its asset. -/
theorem World.Path.meanwhile {w₀ w₁ u : World} (hw : Reachable w₀) {s : Address} {a p g : ID}
    {bond : U64} {evidence : WalrusRef} {reason : Bytes} {asset : Asset}
    (hasset : w₀.assets.get? a = some asset) (hstate : asset.state = .executing)
    (hopen : w₀.call s (.dispute (.initializeDispute a p g bond evidence reason)) = .ok w₁)
    (hpath : w₁.Path (.sparing a) u) : u.Meanwhile asset w₀.nextId := by
  obtain ⟨x, _, _, dispute, hx, -, -, -, hflagged, hdispute, -, ha, -⟩ := World.opening_eq hopen
  obtain rfl := Option.some.inj (hx.symm.trans hasset)
  have hid : x.id = a := Store.key_of_get? hx
  have hstart : w₁.Meanwhile x w₀.nextId := by
    refine ⟨dispute, hdispute, fun _ => ⟨ha.trans hid.symm, setDisputed x true, hid.symm ▸ hflagged,
      ⟨rfl, rfl, rfl⟩, rfl, .of_eq rfl rfl⟩⟩
  refine hpath.preserves (hw.call hopen) hstart ?_ fun _ hP _ => hP
  intro _ _ _ _ hu hP hrule hcall
  exact hP.call hu hstate (hid.symm ▸ hrule) hcall

/-- A failed challenge: it was opened about an EXECUTING asset, and after a run resolved as
    REJECTED or EXPIRED. -/
structure World.Fails (w₀ w₁ w₂ w₃ : World) (a : ID) (asset : Asset) : Prop where
  reachable : Reachable w₀
  listed : w₀.assets.get? a = some asset
  executing : asset.state = .executing
  opened : ∃ s p g bond evidence reason,
    w₀.call s (.dispute (.initializeDispute a p g bond evidence reason)) = .ok w₁
  path : w₁.Path .any w₂
  resolved : ∃ s p' a' g', w₂.call s (.dispute (.resolveDispute w₀.nextId p' a' g')) = .ok w₃
  failed : ∃ dispute, w₃.disputes.get? w₀.nextId = some dispute ∧
    (dispute.status = .rejected ∨ dispute.status = .expired)

namespace World.Fails

variable {w₀ w₁ w₂ w₃ : World} {a : ID} {asset : Asset}

/-- The verdict changes nothing of what the asset holds. -/
theorem acquits (h : w₀.Fails w₁ w₂ w₃ a asset) : ∃ asset₂ asset₃,
    w₂.assets.get? a = some asset₂ ∧ w₃.assets.get? a = some asset₃ ∧ asset₂.AsBefore asset₃ := by
  obtain ⟨_, _, _, _, _, _, hopen⟩ := h.opened
  obtain ⟨_, _, _, _, hresolve⟩ := h.resolved
  obtain ⟨final, hfinal, hstatus⟩ := h.failed
  obtain ⟨_, _, _, dispute, -, -, -, -, -, hdispute, -, ha, -⟩ := World.opening_eq hopen
  -- the dispute is still about asset `a`
  have hw₁ := h.reachable.call hopen
  have hcharge : ∃ x, w₂.disputes.get? w₀.nextId = some x ∧
      (x.status = .opened → x.assetId = a) := by
    refine h.path.preserves (P := fun u => ∃ x, u.disputes.get? w₀.nextId = some x ∧
      (x.status = .opened → x.assetId = a)) hw₁ ⟨dispute, hdispute, fun _ => ha⟩ ?_
      fun _ hP _ => hP
    intro u _ _ _ hu hP _ hcall
    obtain ⟨x, hx, hxa⟩ := hP
    obtain ⟨z, hz, hkept⟩ := World.call_charge hu.fresh hcall hx
    refine ⟨z, hz, fun hopen => ?_⟩
    obtain ⟨hopen', hsame⟩ := hkept hopen
    exact hsame.assetId.trans (hxa hopen')
  cases World.callDispute_eq_ok.mp hresolve with
  | @resolveDispute _ _ _ _ d pool y acc v hd hpool hy hacc guards decides =>
    obtain ⟨x, hx, hxa⟩ := hcharge
    obtain rfl := Option.some.inj (hx.symm.trans hd)
    have hy' : w₂.assets.get? a = some y := hxa guards.opened ▸ guards.asset_recorded hy
    have hv := Store.get?_replace v.dispute hd decides.keeps.disputeId
    obtain rfl := Option.some.inj (hv.symm.trans hfinal)
    refine ⟨y, v.asset, hy', Store.get?_replace v.asset hy' decides.keeps.assetId, ?_⟩
    -- an acquittal touches neither escrow nor collateral
    cases decides with
    | expired => exact ⟨rfl, rfl, rfl⟩
    | rejected => exact ⟨rfl, rfl, rfl⟩
    | upheld => simp [upheldVerdict] at hstatus

/-- The dispute is OPEN until its resolution. -/
theorem still_open (h : w₀.Fails w₁ w₂ w₃ a asset) : ∃ dispute,
    w₂.disputes.get? w₀.nextId = some dispute ∧ dispute.status = .opened := by
  obtain ⟨_, _, _, _, hresolve⟩ := h.resolved
  cases World.callDispute_eq_ok.mp hresolve with
  | resolveDispute hd _ _ _ guards => exact ⟨_, hd, guards.opened⟩

/-- The asset is as it was exactly if no default of it was flagged meanwhile. -/
theorem asBefore_iff (h : w₀.Fails w₁ w₂ w₃ a asset) :
    (∃ asset', w₃.assets.get? a = some asset' ∧ asset.AsBefore asset') ↔
      w₁.Path (.sparing a) w₂ := by
  obtain ⟨_, _, _, _, _, _, hopen⟩ := h.opened
  have hid : asset.id = a := Store.key_of_get? h.listed
  obtain ⟨asset₂, asset₃, hasset₂, hasset₃, hsame⟩ := h.acquits
  constructor
  · intro ⟨asset', hasset', hbefore⟩
    obtain rfl := Option.some.inj (hasset₃.symm.trans hasset')
    rcases h.path.gone_or_sparing (h.reachable.call hopen) a with ⟨x, hx, hgone⟩ | hpath
    · -- a flagged default is not taken back by the verdict
      obtain rfl := Option.some.inj (hx.symm.trans hasset₂)
      rw [← hsame.state, hbefore.state, h.executing] at hgone
      cases hgone
    · exact hpath
  · intro hpath
    obtain ⟨dispute, hd, hopened⟩ := h.still_open
    obtain ⟨x, hx, hx'⟩ := hpath.meanwhile h.reachable h.listed h.executing hopen
    obtain rfl := Option.some.inj (hx.symm.trans hd)
    obtain ⟨-, y, hy, hbefore, -⟩ := hx' hopened
    rw [hid] at hy
    obtain rfl := Option.some.inj (hy.symm.trans hasset₂)
    exact ⟨asset₃, hasset₃, hbefore.trans hsame⟩

/-- A default that is flagged while the dispute is OPEN is for a deadline that passed since its
    opening, unless the asset was in default before. -/
theorem flagged_meanwhile (h : w₀.Fails w₁ w₂ w₃ a asset) (hno : ¬ asset.InDefault w₀.clockMs)
    {u u' : World} (hu : w₁.Path .any u) {dispute : Dispute}
    (hdispute : u.disputes.get? w₀.nextId = some dispute) (hopened : dispute.status = .opened)
    {sender : Address} {g : ID} (hflag : u.call sender (.asset (.flagDefault a g)) = .ok u') :
    ∃ x t, u.assets.get? a = some x ∧ x.tranches[x.nextTranche]? = some t ∧
      w₀.clockMs ≤ t.deadlineMs ∧ t.deadlineMs < u.clockMs := by
  obtain ⟨_, _, _, _, _, _, hopen⟩ := h.opened
  have hid : asset.id = a := Store.key_of_get? h.listed
  cases World.callAsset_eq_ok.mp hflag with
  | @flagDefault _ _ z acc t _ hz _ guards =>
    refine ⟨z, t, hz, guards.tranche, ?_, guards.missed⟩
    rcases hu.gone_or_sparing (h.reachable.call hopen) a with ⟨x, hx, hgone⟩ | hpath
    · -- only an EXECUTING asset can be flagged
      obtain rfl := Option.some.inj (hx.symm.trans hz)
      rw [guards.state] at hgone
      cases hgone
    · obtain ⟨x, hx, hx'⟩ := hpath.meanwhile h.reachable h.listed h.executing hopen
      obtain rfl := Option.some.inj (hx.symm.trans hdispute)
      obtain ⟨-, y, hy, -, hnext, hadv⟩ := hx' hopened
      rw [hid] at hy
      obtain rfl := Option.some.inj (hy.symm.trans hz)
      obtain ⟨t₀, ht₀, hdeadline, happroved⟩ := hadv.tranche _ t guards.tranche
      rw [hnext] at ht₀
      rw [hdeadline]
      exact Nat.le_of_not_lt fun hlt => hno ⟨t₀, ht₀, happroved guards.unapproved, hlt⟩

end World.Fails

/-- A challenge of an EXECUTING asset that ends REJECTED or EXPIRED leaves what the asset holds
    and owes exactly if no default of it was flagged while the dispute was OPEN. Every default
    flagged then is for a tranche whose deadline passed meanwhile, unless the asset was in
    default at the opening. Afterwards a default for such a deadline can be flagged exactly as
    long as the tranche is unapproved (and the grace window ends within the range of the
    clock). -/
theorem failed_challenge_harmless {w₀ w₁ w₂ w₃ : World} {a : ID} {asset : Asset}
    (h : w₀.Fails w₁ w₂ w₃ a asset) :
    ((∃ asset', w₃.assets.get? a = some asset' ∧ asset.AsBefore asset') ↔
      w₁.Path (.sparing a) w₂) ∧
    (¬ asset.InDefault w₀.clockMs → ∀ u u' dispute sender g, w₁.Path .any u →
      u.disputes.get? w₀.nextId = some dispute → dispute.status = .opened →
      u.call sender (.asset (.flagDefault a g)) = .ok u' →
      ∃ x t, u.assets.get? a = some x ∧ x.tranches[x.nextTranche]? = some t ∧
        w₀.clockMs ≤ t.deadlineMs ∧ t.deadlineMs < u.clockMs) ∧
    ∀ u x t, w₃.Path .any u → u.assets.get? a = some x → x.state = .executing →
      x.tranches[x.nextTranche]? = some t → w₀.clockMs ≤ t.deadlineMs →
      t.deadlineMs < w₂.clockMs →
      ((∃ sender g u', u.call sender (.asset (.flagDefault a g)) = .ok u') ↔
        t.approvedBy = none ∧ u.clockMs + u.config.compensationGraceMs ≤ maxU64) := by
  refine ⟨h.asBefore_iff, fun hno u u' dispute sender g hu hdispute hopened hflag =>
    h.flagged_meanwhile hno hu hdispute hopened hflag, ?_⟩
  intro u x t hu hx hstate ht _ hpassed
  obtain ⟨_, _, _, _, _, _, hopen⟩ := h.opened
  obtain ⟨_, _, _, _, hresolve⟩ := h.resolved
  have hw₃ := (h.path.reachable (h.reachable.call hopen)).call hresolve
  constructor
  · intro ⟨sender, g, u', hflag⟩
    cases World.callAsset_eq_ok.mp hflag with
    | @flagDefault _ _ z acc t' _ hz _ guards =>
      obtain rfl := Option.some.inj (hx.symm.trans hz)
      obtain rfl := Option.some.inj (ht.symm.trans guards.tranche)
      exact ⟨guards.unapproved, guards.unlock⟩
  · intro ⟨hunapproved, hunlock⟩
    -- time has not gone back since the verdict
    have hclock : w₂.clockMs ≤ u.clockMs := by
      rw [← World.call_clock hresolve]
      exact hu.clock_le
    obtain ⟨g, hflag⟩ := (hu.reachable hw₃).flags hx hstate ht
      (Nat.lt_of_lt_of_le hpassed hclock) hunapproved hunlock
    obtain ⟨u', hcall, -⟩ := hflag 0
    exact ⟨0, g, u', hcall⟩

/-- The deadline of the only tranche passes while the dispute is OPEN, but nobody flags the
    default, and the dispute expires. -/
theorem failed_challenge_harmless_overdue : ∃ (w₀ w₁ w₂ w₃ : World) (asset asset' : Asset),
    w₀.Fails w₁ w₂ w₃ 4 asset ∧ asset.InDefault w₂.clockMs ∧
    w₃.assets.get? 4 = some asset' ∧ asset.AsBefore asset' := by
  have hrun : Sample.trial (Sample.executing 1000000 100000 ++ Sample.court) [.tick 604800000]
      (fun w₀ _ w₂ w₃ => w₀.nextId = 11 && Sample.verdictIs w₃ .expired && 2000 < w₂.clockMs &&
        (w₀.assets.get? 4).any (fun asset => asset.state = .executing ∧
          asset.tranches[asset.nextTranche]? = some ⟨1000000, [], 2000, false, none, none⟩)) =
      true := by
    decide +kernel
  obtain ⟨w₀, w₁, w₂, w₃, h₀, h₁, h₂, h₃, hq⟩ := Sample.trial_iff.mp hrun
  simp only [Bool.and_eq_true, Option.any_eq_true, decide_eq_true_eq] at hq
  obtain ⟨⟨⟨hnext, hany⟩, hclock⟩, asset, hasset, hstate, ht⟩ := hq
  obtain ⟨dispute, hd, hexpired⟩ := (Option.any_eq_true _ _).mp hany
  -- no call of the run flags anything, since it is one step of the clock
  have hpath : w₁.Path (.sparing 4) w₂ :=
    World.Path.of_run_rule (by simp [Action.Obeys]) h₂
  have hfails : w₀.Fails w₁ w₂ w₃ 4 asset := {
    reachable := ⟨0, _, h₀⟩
    listed := hasset
    executing := hstate
    opened := ⟨3, 2, 8, _, _, _, h₁⟩
    path := .of_run h₂
    resolved := ⟨3, 2, 4, 8, hnext.symm ▸ h₃⟩
    failed := ⟨dispute, hnext.symm ▸ hd, Or.inr (of_decide_eq_true hexpired)⟩ }
  obtain ⟨asset', hasset', hbefore⟩ := (failed_challenge_harmless hfails).1.mpr hpath
  exact ⟨w₀, w₁, w₂, w₃, asset, asset', hfails, ⟨_, ht, rfl, hclock⟩, hasset', hbefore⟩

/-- The deadline passes while approvals are halted: anybody flags the default, and the dispute
    expires without a vote. -/
theorem failed_challenge_defaults : ∃ w₀ w₁ w₂ w₃ asset asset',
    (World.genesis 0).run (Sample.executing 1000000 100000 ++ Sample.court) = .ok w₀ ∧
    w₀.call 3 Sample.challenge = .ok w₁ ∧
    w₁.run [.tick 2001, .transaction 3 [.asset (.flagDefault 4 8)], .tick 604800000] = .ok w₂ ∧
    w₂.call 3 Sample.resolution = .ok w₃ ∧ Sample.verdictIs w₃ .expired = true ∧
    w₀.assets.get? 4 = some asset ∧ asset.state = .executing ∧ ¬ asset.InDefault w₀.clockMs ∧
    asset.escrow = 1000000 ∧ w₃.assets.get? 4 = some asset' ∧ asset'.state = .compensating ∧
    asset'.escrow = 0 := by
  have hrun : Sample.trial (Sample.executing 1000000 100000 ++ Sample.court)
      [.tick 2001, .transaction 3 [.asset (.flagDefault 4 8)], .tick 604800000]
      (fun w₀ _ _ w₃ => Sample.verdictIs w₃ .expired && w₀.clockMs = 0 &&
        (w₀.assets.get? 4).any (fun asset => asset.state = .executing ∧ asset.escrow = 1000000) &&
        (w₃.assets.get? 4).any (fun asset => asset.state = .compensating ∧ asset.escrow = 0)) =
      true := by
    decide +kernel
  obtain ⟨w₀, w₁, w₂, w₃, h₀, h₁, h₂, h₃, hq⟩ := Sample.trial_iff.mp hrun
  simp only [Bool.and_eq_true, Option.any_eq_true, decide_eq_true_eq] at hq
  obtain ⟨⟨⟨hverdict, hclock⟩, asset, hasset, hstate, hescrow⟩, asset', hasset', hstate',
    hescrow'⟩ := hq
  -- nothing has missed its deadline at the start, where the clock is zero
  have hno : ¬ asset.InDefault w₀.clockMs := by
    rintro ⟨t, _, _, hmissed⟩
    rw [hclock] at hmissed
    exact Nat.not_lt_zero _ hmissed
  exact ⟨w₀, w₁, w₂, w₃, asset, asset', h₀, h₁, h₂, h₃, hverdict, hasset, hstate, hno, hescrow,
    hasset', hstate', hescrow'⟩

end Gally

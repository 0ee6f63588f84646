import Gally.Law.Freeze

/-!
# The interval between approval and withdrawal

A tranche is approved by the operator of the vouching pool and withdrawn by the entity.
Nothing keeps one address from being both: it proves, approves and withdraws in a single
transaction. Where the two are different addresses the withdrawal needs a transaction of
its own, and the state committed before it is open to a challenge unless the transaction
of the approval closed that door.

## Key results

- `capital_interval`: who can withdraw in the transaction of the approval, and what lies
  between the two otherwise
-/

namespace Gally

open Checked

/-! ## The promise -/

/-- Dispute `d` is OPEN, and while it is, nothing can be withdrawn from asset `a`. -/
def World.Halts (w : World) (d a : ID) : Prop :=
  (∃ x, w.disputes.get? d = some x ∧ x.status = .opened) ∧
    ∀ actions w' x, w.run actions = .ok w' → w'.disputes.get? d = some x → x.status = .opened →
      ∀ sender c i, ¬ Succeeds (w'.call sender (.asset (.releaseFundingTranche a c i)))

/-- Tranche `i` of asset `a` is approved and still in escrow, and anybody who holds the bond
    can open a dispute that halts the withdrawals. -/
def World.Contestable (w : World) (a : ID) (i : ℕ) : Prop :=
  ∃ asset t p g, w.assets.get? a = some asset ∧ asset.tranches[i]? = some t ∧
    t.approvedBy ≠ none ∧ t.released = false ∧ t.amount ≤ asset.escrow ∧
    ∀ (sender : Address) (bond : U64) (evidence : WalrusRef) (reason : Bytes),
      bond.val = w.config.challengerBond → bond.val ≤ w.wallets.balance sender →
      reason.length ≤ maxReasonBytes →
      ∃ w' d, w.call sender (.dispute (.initializeDispute a p g bond evidence reason)) = .ok w' ∧
        w'.Halts d a

/-- No dispute against pool `p` is OPEN or UPHELD. -/
def World.Unaccused (w : World) (p : ID) : Prop :=
  ∀ d ∈ w.disputes, d.targetPoolId = p → d.status ≠ .opened ∧ d.status ≠ .upheld

/-- The call opens no dispute against pool `p`, and sets no voting window that ends beyond
    the last `u64` from `now` on. -/
def Call.leavesOpen (p : ID) (now : ℕ) : Call → Prop
  | .dispute (.initializeDispute _ pool _ _ _ _) => pool ≠ p
  | .protocol (.adminSetDisputeParams new) => now + new.disputeWindowMs.val ≤ maxU64
  | _ => True

/-- Wherever the transaction approves a tranche, its signer is not the entity, the asset is
    covered, the voting window fits, and nothing after the approval stands in the way of a
    challenge. -/
def World.Separates (w : World) : Action → Prop
  | .tick _ => True
  | .transaction sender calls => ∀ before a p c i after u asset,
      calls = before ++ .asset (.approveMilestone a p c i) :: after →
      w.step (.transaction sender before) = .ok u → u.assets.get? a = some asset →
      asset.entity ≠ sender ∧ 0 < asset.coverageLocked ∧
        u.clockMs + u.config.disputeWindowMs ≤ maxU64 ∧ ∀ c ∈ after, c.leavesOpen p u.clockMs

/-! ## Waiting for the withdrawal -/

/-- Tranche `i` is next and approved; the asset was listed by `e`, is covered by pool `p` and
    undisputed. -/
structure Asset.Awaits (asset : Asset) (i : ℕ) (p : ID) (e : Address) : Prop where
  entity : asset.entity = e
  state : asset.state = .executing
  undisputed : asset.disputed = false
  vouching : asset.validatorPoolId = some p
  covered : 0 < asset.coverageLocked
  next : asset.nextTranche = i
  approved : ∃ t, asset.tranches[i]? = some t ∧ t.approvedBy ≠ none

/-- Asset `a` waits, and a challenge is possible. -/
structure World.Awaits (w : World) (a : ID) (i : ℕ) (p : ID) (e : Address) : Prop where
  asset : ∃ asset, w.assets.get? a = some asset ∧ asset.Awaits i p e
  unaccused : w.Unaccused p
  window : w.clockMs + w.config.disputeWindowMs ≤ maxU64

/-- Who listed an asset does not change. -/
theorem Asset.Touch.entity {w : World} {sender : Address} {asset asset' : Asset} {c : Call}
    (h : asset.Touch w sender c asset') : asset'.entity = asset.entity := by
  cases h with
  | verdict _ _ _ _ decides => exact decides.keeps.entity
  | _ => rfl

/-- Replacing a tranche by one that keeps `P` keeps it for every tranche. -/
theorem Asset.withTranche_keeps {asset : Asset} {P : Tranche → Prop} {i j : ℕ} {old new : Tranche}
    (h : ∃ t, asset.tranches[i]? = some t ∧ P t) (hold : asset.tranches[j]? = some old)
    (hP : P old → P new) : ∃ t, (asset.withTranche j new).tranches[i]? = some t ∧ P t := by
  obtain ⟨t, ht, hPt⟩ := h
  by_cases hj : j = i
  · subst hj
    obtain rfl := Option.some.inj (ht.symm.trans hold)
    have hlt := (List.getElem?_eq_some_iff.mp hold).1
    exact ⟨new, List.getElem?_set_self hlt, hP hPt⟩
  · exact ⟨t, (List.getElem?_set_ne hj).trans ht, hPt⟩

/-- Whoever is not the entity releases nothing. -/
theorem Asset.Touch.released {w : World} (hw : Reachable w) {sender : Address} {a : ID}
    {asset asset' : Asset} {c : Call} (h : asset.Touch w sender c asset')
    (hasset : w.assets.get? a = some asset) (hne : asset.entity ≠ sender) {i : ℕ}
    (hi : ∃ t, asset.tranches[i]? = some t ∧ t.released = false) :
    ∃ t, asset'.tranches[i]? = some t ∧ t.released = false := by
  cases h with
  | prove _ _ guards => exact Asset.withTranche_keeps hi guards.tranche fun hold => hold
  | approve _ _ _ guards => exact Asset.withTranche_keeps hi guards.tranche fun hold => hold
  | release own hcap guards =>
    -- only the holder of the `EntityCap` releases, and that is the entity
    exact absurd (hw.entity_of_cap own hcap hasset guards.cap).symm hne
  | verdict _ _ _ _ decides => exact decides.tranches ▸ hi
  | _ => exact hi

/-- A touch by anybody but the entity, other than a challenge of its pool, leaves the asset
    waiting. -/
theorem Asset.Awaits.touch {w : World} (hw : Reachable w) {sender : Address} {a : ID}
    {asset asset' : Asset} {i : ℕ} {p : ID} {e : Address} {c : Call} {now : ℕ}
    (h : asset.Awaits i p e) (htouch : asset.Touch w sender c asset')
    (hasset : w.assets.get? a = some asset) (hne : e ≠ sender) (hc : c.leavesOpen p now) :
    asset'.Awaits i p e := by
  cases htouch.executing h.state with
  | keep => exact h
  | prove _ _ guards =>
    exact { h with approved := Asset.withTranche_keeps h.approved guards.tranche fun hold => hold }
  | approve _ _ _ guards =>
    exact { h with
      approved := Asset.withTranche_keeps h.approved guards.tranche fun _ => Option.some_ne_none _ }
  | release own hcap guards =>
    exact absurd (h.entity.symm.trans (hw.entity_of_cap own hcap hasset guards.cap).symm) hne
  | default _ guards =>
    -- a default needs an unapproved next tranche, and it is approved
    obtain ⟨t, ht, happroved⟩ := h.approved
    rw [← h.next, guards.tranche] at ht
    exact absurd (Option.some.inj ht ▸ guards.unapproved) happroved
  | @challenge _ _ _ _ _ pool acc hpool _ guards =>
    -- a challenge of this asset is a challenge of its pool
    have hp : pool.id = p := Option.some.inj (guards.vouching.symm.trans h.vouching)
    exact absurd ((Store.key_of_get? hpool).symm.trans hp) hc
  | verdict hdispute _ _ guards =>
    -- the dispute that is decided would have flagged the asset
    obtain ⟨x, hx, hflag⟩ := hw.tried.disputed _ (Store.mem_of_get? hdispute) guards.opened
    have hself : w.assets.get? asset.id = some asset := Store.get?_key (Store.mem_of_get? hasset)
    rw [← guards.asset, hself] at hx
    rw [← Option.some.inj hx, h.undisputed] at hflag
    simp at hflag

/-- A call that opens no dispute against the pool leaves it unaccused. -/
theorem World.Unaccused.call {w w' : World} {p : ID} (h : w.Unaccused p) (hf : w.Fresh)
    {sender : Address} {c : Call} {now : ℕ} (hc : c.leavesOpen p now)
    (hcall : w.call sender c = .ok w') : w'.Unaccused p := by
  intro dispute' hmem htarget
  have hdispute' := Store.get?_key hmem
  rcases World.call_disputes hf hcall hdispute' with ⟨dispute, hdispute, hhear⟩ | hnew
  · have hold := h dispute (Store.mem_of_get? hdispute)
    cases hhear with
    | keep => exact hold htarget
    | vote => exact hold htarget
    | verdict _ _ _ guards decides =>
      exact absurd guards.opened (hold (decides.keeps.target.symm.trans htarget)).1
    | reward rejected => exact hold htarget
  · obtain ⟨hid, a, q, g, bond, evidence, reason, rfl⟩ := hnew
    cases World.callDispute_eq_ok.mp hcall with
    | @initializeDispute _ _ _ _ _ _ asset pool acc _ _ hpool =>
      -- the new dispute targets the pool named in the call
      have hput : dispute' = .opening asset pool acc w.config bond.val evidence reason w.clockMs
          sender w.nextId := by
        rw [hid] at hdispute'
        exact Option.some.inj (hdispute'.symm.trans (Store.get?_put_self _ _))
      have hpid : pool.id = p := by
        rw [hput] at htarget
        exact htarget
      exact absurd ((Store.key_of_get? hpool).symm.trans hpid) hc

/-- A window that fits still does, unless it is set beyond the last `u64`. -/
theorem World.call_window {w w' : World} {p : ID} {sender : Address} {c : Call}
    (h : w.clockMs + w.config.disputeWindowMs ≤ maxU64) (hc : c.leavesOpen p w.clockMs)
    (hcall : w.call sender c = .ok w') : w'.clockMs + w'.config.disputeWindowMs ≤ maxU64 := by
  rw [World.call_clock hcall]
  rcases World.call_config hcall with hsame | ⟨c, events, rfl, hrun⟩
  · exact hsame ▸ h
  · rcases ProtocolConfig.run_params hrun with hsame | ⟨new, rfl, hnew⟩
    · exact hsame.window ▸ h
    · exact hnew.window ▸ hc

/-- A call of somebody else that leaves the pool open keeps an approved tranche waiting. -/
theorem World.Awaits.call {w w' : World} {a p : ID} {i : ℕ} {e : Address} (h : w.Awaits a i p e)
    (hw : Reachable w) {sender : Address} {c : Call} (hne : e ≠ sender)
    (hc : c.leavesOpen p w.clockMs) (hcall : w.call sender c = .ok w') : w'.Awaits a i p e := by
  obtain ⟨asset, hasset, hawaits⟩ := h.asset
  obtain ⟨asset', hasset', htouch⟩ := World.call_touch hw.fresh hcall a asset hasset
  exact {
    asset := ⟨asset', hasset', hawaits.touch hw htouch hasset hne hc⟩
    unaccused := h.unaccused.call hw.fresh hc hcall
    window := World.call_window h.window hc hcall }

/-! ## What a challenge does -/

/-- Nothing is withdrawn from an asset under an OPEN dispute. -/
theorem Reachable.withdrawals_halted {w : World} (hw : Reachable w) {d : ID} {dispute : Dispute}
    (hdispute : w.disputes.get? d = some dispute) (hopen : dispute.status = .opened)
    (sender : Address) (c : ID) (i : U64) :
    ¬ Succeeds (w.call sender (.asset (.releaseFundingTranche dispute.assetId c i))) := by
  intro ⟨w', hcall⟩
  obtain ⟨x, hx, hflag⟩ := hw.tried.disputed dispute (Store.mem_of_get? hdispute) hopen
  cases World.callAsset_eq_ok.mp hcall with
  | releaseFundingTranche hasset _ _ guards =>
    rw [hx] at hasset
    rw [Option.some.inj hasset, guards.undisputed] at hflag
    simp at hflag

/-- An OPEN dispute halts the withdrawals until it is resolved. -/
theorem Reachable.halts {w : World} (hw : Reachable w) {d : ID} {dispute : Dispute}
    (hdispute : w.disputes.get? d = some dispute) (hopen : dispute.status = .opened) :
    w.Halts d dispute.assetId := by
  refine ⟨⟨dispute, hdispute, hopen⟩, fun actions w' x hrun hx hopen' sender c i => ?_⟩
  obtain ⟨x', hx', hcharge⟩ := (World.Path.of_run hrun).charge hw hdispute
  obtain rfl := Option.some.inj (hx.symm.trans hx')
  have hsame : x.assetId = dispute.assetId := (hcharge hopen').2.assetId
  exact hsame ▸ (hw.run hrun).withdrawals_halted hx hopen' sender c i

/-- The next tranche of an EXECUTING asset is in its escrow. -/
theorem Reachable.next_funded {w : World} (hw : Reachable w) {a : ID} {asset : Asset}
    (hasset : w.assets.get? a = some asset) (hstate : asset.state = .executing) {t : Tranche}
    (ht : asset.tranches[asset.nextTranche]? = some t) :
    t.released = false ∧ t.amount ≤ asset.escrow := by
  have hcustody := hw.custodied hasset
  refine ⟨((hcustody.executing hstate).2 _ t ht).mpr (Nat.le_refl _), ?_⟩
  obtain ⟨t', ht', _, htake⟩ := hcustody.next hstate
  rw [ofOption_eq_ok, ht] at ht'
  obtain rfl := Option.some.inj ht'
  exact (takeOut_eq_ok.mp htake).1

/-- A tranche that waits can be challenged. -/
theorem World.Awaits.contestable {w : World} {a p : ID} {i : ℕ} {e : Address}
    (h : w.Awaits a i p e) (hw : Reachable w) : w.Contestable a i := by
  obtain ⟨asset, hasset, hawaits⟩ := h.asset
  obtain ⟨t, ht, happroved⟩ := hawaits.approved
  obtain ⟨g, _, hg, -⟩ := hw.accumulator_of_asset hasset (hawaits.state ▸ rfl)
  obtain ⟨q, pool, hq, hpool⟩ := hw.pool_of_asset hasset (by simp [hawaits.state])
    (by simp [hawaits.state])
  obtain rfl := Option.some.inj (hq.symm.trans hawaits.vouching)
  obtain ⟨hunreleased, hescrow⟩ := hw.next_funded hasset hawaits.state (hawaits.next ▸ ht)
  refine ⟨asset, t, q, g, hasset, ht, happroved, hunreleased, hescrow,
    fun sender bond evidence reason hbond hfunds hreason => ?_⟩
  -- the challenge finds everything it needs, and its flag halts the release
  obtain ⟨acc, hacc, hguards⟩ := hw.challengeable hasset hg hpool hq (Or.inl hawaits.state)
    hawaits.covered hawaits.undisputed ((hw.active_iff hpool).mpr h.unaccused) h.window
  have guards := hguards bond.val reason hbond hreason
  have hstep : DisputeStep w sender (.initializeDispute a q g bond evidence reason) _ :=
    .initializeDispute hasset hpool hacc hfunds guards (initializeDispute_eq_ok.mpr ⟨guards, rfl⟩)
  have hcall := World.callDispute_eq_ok.mpr hstep
  obtain rfl := Store.key_of_get? hasset
  exact ⟨_, _, hcall, (hw.call hcall).halts (Store.get?_put_self _ _) rfl⟩

/-! ## Who brings a tranche to its withdrawal -/

/-- Tranche `i` of asset `a` is approved. -/
def World.ApprovedAt (w : World) (a : ID) (i : ℕ) : Prop :=
  ∃ asset, w.assets.get? a = some asset ∧ ∃ t, asset.tranches[i]? = some t ∧ t.approvedBy ≠ none

/-- A changed list has what it had, or the new entry. -/
theorem exists_of_set {ts : List Tranche} {P : Tranche → Prop} {i j : ℕ} {new : Tranche}
    (h : ∃ t, (ts.set j new)[i]? = some t ∧ P t) :
    j = i ∧ P new ∨ ∃ t, ts[i]? = some t ∧ P t := by
  obtain ⟨t, ht, hP⟩ := h
  by_cases hj : j = i
  · subst hj
    have hlt : j < ts.length := by
      have := (List.getElem?_eq_some_iff.mp ht).1
      rwa [List.length_set] at this
    rw [List.getElem?_set_self hlt] at ht
    exact Or.inl ⟨rfl, Option.some.inj ht ▸ hP⟩
  · exact Or.inr ⟨t, (List.getElem?_set_ne hj).symm.trans ht, hP⟩

/-- Only its approval approves a tranche. -/
theorem Asset.Touch.approves {w : World} {sender : Address} {asset asset' : Asset} {c : Call}
    (h : asset.Touch w sender c asset') {i : ℕ}
    (hno : ¬ ∃ t, asset.tranches[i]? = some t ∧ t.approvedBy ≠ none)
    (happroved : ∃ t, asset'.tranches[i]? = some t ∧ t.approvedBy ≠ none) :
    ∃ p cap j, c = .asset (.approveMilestone asset.id p cap j) ∧ j.val = i := by
  -- replacing a tranche without adding an approval adds none anywhere
  have hset : ∀ {j : ℕ} {old new : Tranche}, asset.tranches[j]? = some old →
      (new.approvedBy ≠ none → old.approvedBy ≠ none) →
      ¬ ∃ t, (asset.tranches.set j new)[i]? = some t ∧ t.approvedBy ≠ none := by
    intro j old new hold hkept h'
    rcases exists_of_set h' with ⟨hj, hnew⟩ | hexists
    · exact hno ⟨old, hj ▸ hold, hkept hnew⟩
    · exact hno hexists
  cases h with
  | @approve p cap j =>
    rcases exists_of_set happroved with ⟨hj, -⟩ | hexists
    · exact ⟨p, cap, j, rfl, hj⟩
    · exact absurd hexists hno
  | prove _ _ guards => exact absurd happroved (hset guards.tranche fun hnew => hnew)
  | @release c j cap old _ _ guards =>
    have hold : asset.tranches[asset.nextTranche]? = some old := guards.next ▸ guards.tranche
    exact absurd happroved (hset hold fun hnew => hnew)
  | verdict _ _ _ _ decides => exact absurd (decides.tranches ▸ happroved) hno
  | _ => exact absurd happroved hno

/-- A call that brings about the approval of a tranche is its approval. -/
theorem World.call_approves {w w' : World} (hw : Reachable w) {sender : Address} {c : Call}
    (h : w.call sender c = .ok w') {a : ID} {i : ℕ} (hno : ¬ w.ApprovedAt a i)
    (happroved : w'.ApprovedAt a i) :
    ∃ p cap j, c = .asset (.approveMilestone a p cap j) ∧ j.val = i := by
  obtain ⟨asset', hasset', t, ht, happroved⟩ := happroved
  rcases World.call_assets h hasset' with hold | ⟨-, -, _, -, hlisted⟩
  · obtain ⟨asset, hasset⟩ := Option.isSome_iff_exists.mp hold
    obtain ⟨x, hx, htouch⟩ := World.call_touch hw.fresh h a asset hasset
    obtain rfl := Option.some.inj (hx.symm.trans hasset')
    obtain rfl := Store.key_of_get? hasset
    exact htouch.approves (fun hexists => hno ⟨asset, hasset, hexists⟩) ⟨t, ht, happroved⟩
  · exact absurd (hlisted.fresh t (List.mem_of_getElem? ht)).unapproved happroved

/-- After its approval the tranche waits for the entity. -/
theorem World.Awaits.of_approval {w w' : World} (hw : Reachable w) {sender : Address} {a p cap : ID}
    {i : U64} (h : w.call sender (.asset (.approveMilestone a p cap i)) = .ok w') {asset : Asset}
    (hasset : w.assets.get? a = some asset) (hcovered : 0 < asset.coverageLocked)
    (hwindow : w.clockMs + w.config.disputeWindowMs ≤ maxU64) :
    w'.Awaits a i.val p asset.entity := by
  cases World.callAsset_eq_ok.mp h with
  | @approveMilestone _ _ _ _ x pool vcap t events hx hpool own hcap guards =>
    obtain rfl := Option.some.inj (hasset.symm.trans hx)
    have hlt := (List.getElem?_eq_some_iff.mp guards.tranche).1
    have hpid : pool.id = p := Store.key_of_get? hpool
    -- an active pool has no open and no upheld dispute
    have hunaccused : w.Unaccused p := (hw.active_iff hpool).mp guards.active
    exact {
      asset := ⟨_, Store.get?_replace _ hasset rfl, {
        entity := rfl
        state := guards.state
        undisputed := guards.undisputed
        vouching := guards.vouching.trans (congrArg some hpid)
        covered := hcovered
        next := guards.next.symm
        approved := ⟨_, List.getElem?_set_self hlt, Option.some_ne_none _⟩ }⟩
      unaccused := hunaccused
      window := hwindow }

/-- The calls of a transaction after an approval that keeps the interval leave the tranche
    waiting. -/
theorem World.Awaits.exec {w w' : World} {a p : ID} {i : ℕ} {e sender : Address}
    (h : w.Awaits a i p e) (hw : Reachable w) (hne : e ≠ sender) {calls : List Call}
    (hcalls : ∀ c ∈ calls, c.leavesOpen p w.clockMs)
    (hrun : w.step (.transaction sender calls) = .ok w') : w'.Awaits a i p e := by
  -- the clock stands still within a transaction, so the window keeps fitting
  suffices hinv : Reachable w' ∧ w'.clockMs = w.clockMs ∧ w'.Awaits a i p e from hinv.2.2
  refine Run.exec_preserves_of_mem
    (P := fun u => Reachable u ∧ u.clockMs = w.clockMs ∧ u.Awaits a i p e)
    (fun c hc u u' hu hcall => ?_) ⟨hw, rfl, h⟩ hrun
  obtain ⟨hr, hclock, hawaits⟩ := hu
  exact ⟨hr.call hcall, (World.call_clock hcall).trans hclock,
    hawaits.call hr hne (hclock ▸ hcalls c hc) hcall⟩

/-- A transaction that separates and in which a tranche becomes approved: the tranche waits
    for another address wherever the transaction has come to after that. -/
theorem World.Separates.awaits {w v : World} {sender : Address} {calls rest : List Call}
    (hsep : w.Separates (.transaction sender (calls ++ rest))) (hw : Reachable w)
    (hrun : w.step (.transaction sender calls) = .ok v) {a : ID} {i : ℕ}
    (hno : ¬ w.ApprovedAt a i) (happroved : v.ApprovedAt a i) :
    ∃ before p cap j after e, calls = before ++ .asset (.approveMilestone a p cap j) :: after ∧
      j.val = i ∧ e ≠ sender ∧ v.Awaits a i p e := by
  -- the first call after which the tranche is approved
  obtain ⟨before, c, after, x, x', rfl, hbefore, hcall, hafter, hx, hx'⟩ :=
    Run.exec_origin (P := fun u => u.ApprovedAt a i) hno hrun happroved
  have hstep : w.step (.transaction sender before) = .ok x := hbefore
  have hreach : Reachable x := hw.step hstep
  obtain ⟨p, cap, j, rfl, hj⟩ := World.call_approves hreach hcall hx hx'
  obtain ⟨asset, hasset⟩ : ∃ asset, x.assets.get? a = some asset := by
    cases World.callAsset_eq_ok.mp hcall with
    | approveMilestone hasset => exact ⟨_, hasset⟩
  obtain ⟨hne, hcovered, hwindow, hquiet⟩ :=
    hsep before a p cap j (after ++ rest) x asset (by simp) hstep hasset
  have hawaits := World.Awaits.of_approval hreach hcall hasset hcovered hwindow
  refine ⟨before, p, cap, j, after, asset.entity, rfl, hj, hne, ?_⟩
  refine hj ▸ hawaits.exec (hreach.call hcall) hne (fun c hc => ?_) hafter
  rw [World.call_clock hcall]
  exact hquiet c (List.mem_append_left rest hc)

/-! ## Within one transaction -/

/-- Tranche `i` of asset `a` was paid out. -/
def World.ReleasedAt (w : World) (a : ID) (i : ℕ) : Prop :=
  ∃ asset, w.assets.get? a = some asset ∧ ∃ t, asset.tranches[i]? = some t ∧ t.released = true

/-- What is next, approved and undisputed the entity can withdraw. -/
theorem Reachable.withdraws {w : World} (hw : Reachable w) {a : ID} {asset : Asset} {i : U64}
    (hasset : w.assets.get? a = some asset) (hpaused : w.config.paused = false)
    (hstate : asset.state = .executing) (hdisputed : asset.disputed = false)
    (hnext : i.val = asset.nextTranche) {t : Tranche} (ht : asset.tranches[i.val]? = some t)
    (happroved : t.approvedBy ≠ none) :
    ∃ c w', w.call asset.entity (.asset (.releaseFundingTranche a c i)) = .ok w' ∧
      w'.ReleasedAt a i.val := by
  obtain ⟨c, cap, hcap, hbelongs, hown⟩ := hw.entityCap hasset
  obtain ⟨hunreleased, hfunded⟩ := hw.next_funded hasset hstate (hnext ▸ ht)
  have hlt := (List.getElem?_eq_some_iff.mp ht).1
  obtain ⟨g, _, hg, -⟩ := hw.accumulator_of_asset hasset (hstate ▸ rfl)
  -- what the code asks of the release besides the assumptions holds of every reachable world
  have guards : ReleaseGuards asset cap w.config i.val t := {
    version := hw.withinCaps.version
    unpaused := hpaused
    state := hstate
    undisputed := hdisputed
    cap := hbelongs
    next := hnext
    tranche := ht
    approved := happroved
    unreleased := hunreleased
    counter := by
      have hcount := (hw.sound hasset).scheduled.count
      simp only [World.site] at hcount
      omega
    funded := hfunded
    linked := fun _ hnone => by simp [hnone] at hg }
  have hstep : AssetStep w asset.entity (.releaseFundingTranche a c i) _ :=
    .releaseFundingTranche hasset hown hcap guards
      (releaseFundingTranche_eq_ok.mpr ⟨t, guards, rfl⟩)
  refine ⟨c, _, World.callAsset_eq_ok.mpr hstep, asset.afterTranche t,
    Store.get?_replace _ hasset rfl, { t with released := true }, ?_, rfl⟩
  rw [hnext]
  exact List.getElem?_set_self (hnext ▸ hlt)

/-- After an approval the rest of its transaction can pay the tranche out exactly when its
    signer is the entity itself. -/
theorem approval_withdrawable {w w' : World} (hw : Reachable w) {sender : Address} {a p cap : ID}
    {i : U64} (h : w.call sender (.asset (.approveMilestone a p cap i)) = .ok w') {asset : Asset}
    (hasset : w.assets.get? a = some asset) :
    (∃ calls u, w'.step (.transaction sender calls) = .ok u ∧ u.ReleasedAt a i.val) ↔
      asset.entity = sender := by
  have hw' := hw.call h
  cases World.callAsset_eq_ok.mp h with
  | @approveMilestone _ _ _ _ x pool vcap t events hx hpool own hcap guards =>
    obtain rfl := Option.some.inj (hasset.symm.trans hx)
    have hlt := (List.getElem?_eq_some_iff.mp guards.tranche).1
    have hasset' := Store.get?_replace
      (asset.withTranche i.val { t with approvedBy := some sender }) hasset rfl
    have hnext : asset.tranches[asset.nextTranche]? = some t := guards.next ▸ guards.tranche
    constructor
    · rintro ⟨calls, u, hrun, y, hy, t', ht', hreleased⟩
      by_contra hne
      -- nobody else releases it, however many calls follow
      have hinv : Reachable u ∧ ∃ y, u.assets.get? a = some y ∧ y.entity = asset.entity ∧
          ∃ t, y.tranches[i.val]? = some t ∧ t.released = false := by
        refine Run.exec_preserves (P := fun u => Reachable u ∧ ∃ y, u.assets.get? a = some y ∧
          y.entity = asset.entity ∧ ∃ t, y.tranches[i.val]? = some t ∧ t.released = false)
          (fun v c v' hv hcall => ?_) ⟨hw', _, hasset', rfl, _, List.getElem?_set_self hlt, ?_⟩ hrun
        · obtain ⟨hr, y, hy, hentity, hi⟩ := hv
          obtain ⟨y', hy', htouch⟩ := World.call_touch hr.fresh hcall a y hy
          exact ⟨hr.call hcall, y', hy', htouch.entity.trans hentity,
            htouch.released hr hy (hentity ▸ hne) hi⟩
        · exact (hw.next_funded hasset guards.state hnext).1
      obtain ⟨-, z, hz, -, t'', ht'', hunreleased⟩ := hinv
      obtain rfl := Option.some.inj (hy.symm.trans hz)
      obtain rfl := Option.some.inj (ht'.symm.trans ht'')
      simp [hreleased] at hunreleased
    · rintro rfl
      obtain ⟨c, u, hcall, hreleased⟩ := hw'.withdraws hasset' guards.unpaused guards.state
        guards.undisputed guards.next (List.getElem?_set_self hlt) (Option.some_ne_none _)
      exact ⟨[.asset (.releaseFundingTranche a c i)], u, World.step_call hcall, hreleased⟩

/-! ## The interval -/

/-- In a run of separating transactions a tranche that became approved became so in a
    transaction that left it contestable. -/
theorem approval_contestable {w w' : World} (hw : Reachable w) {actions : List Action}
    (hsep : Run.Each World.step World.Separates w actions) (hrun : w.run actions = .ok w') {a : ID}
    {i : ℕ} (hno : ¬ w.ApprovedAt a i) (happroved : w'.ApprovedAt a i) :
    ∃ first sender before p cap j after later u, actions =
        first ++ .transaction sender (before ++ .asset (.approveMilestone a p cap j) :: after) ::
          later ∧ j.val = i ∧ w.run (first ++
        [.transaction sender (before ++ .asset (.approveMilestone a p cap j) :: after)]) = .ok u ∧
      u.Contestable a i := by
  -- the action that brings the approval
  obtain ⟨first, action, later, u, u', rfl, hfirst, hstep, -, hu, hu'⟩ :=
    Run.exec_origin (P := fun u => u.ApprovedAt a i) hno hrun happroved
  have hlast : w.run (first ++ [action]) = .ok u' := Run.exec_snoc_eq_ok.mpr ⟨u, hfirst, hstep⟩
  have hr : Reachable u := hw.run hfirst
  cases action with
  | tick now =>
    obtain ⟨-, rfl⟩ := guarded_eq_ok.mp hstep
    exact absurd hu' hu
  | transaction sender calls =>
    -- the whole transaction has to separate, with nothing left out
    have hhere : u.Separates (.transaction sender (calls ++ [])) :=
      (List.append_nil calls).symm ▸ hsep.here hfirst
    obtain ⟨before, p, cap, j, after, e, rfl, hj, -, hawaits⟩ := hhere.awaits hr hstep hu hu'
    exact ⟨first, sender, before, p, cap, j, after, later, u', rfl, hj, hlast,
      hawaits.contestable (hr.step hstep)⟩

/-- The transaction of an approval can go on to pay the tranche out exactly when its signer is
    the entity. In a run whose transactions all keep an interval, every withdrawal comes in a
    later transaction than the approval, which committed a state open to a challenge. -/
theorem capital_interval {admin : Address} {actions : List Action} {w : World}
    (hrun : (World.genesis admin).run actions = .ok w) :
    (∀ w' sender a p cap i asset,
      w.call sender (.asset (.approveMilestone a p cap i)) = .ok w' →
      w.assets.get? a = some asset →
      ((∃ calls u, w'.step (.transaction sender calls) = .ok u ∧ u.ReleasedAt a i.val) ↔
        asset.entity = sender)) ∧
    (Run.Each World.step World.Separates (World.genesis admin) actions →
      ∀ earlier entity before a c i after later, actions = earlier ++
          .transaction entity (before ++ .asset (.releaseFundingTranche a c i) :: after) :: later →
        ∃ first sender pre p cap post between u, earlier = first ++
            .transaction sender (pre ++ .asset (.approveMilestone a p cap i) :: post) :: between ∧
          (World.genesis admin).run (first ++ [.transaction sender
            (pre ++ .asset (.approveMilestone a p cap i) :: post)]) = .ok u ∧
          u.Contestable a i.val) := by
  refine ⟨fun w' sender a p cap i asset h hasset =>
    approval_withdrawable ⟨admin, actions, hrun⟩ h hasset, ?_⟩
  intro hsep earlier entity before a c i after later hactions
  subst hactions
  -- the states before the transaction, and before the release within it
  obtain ⟨u, hearlier, hrest⟩ := Run.exec_append_eq_ok.mp hrun
  obtain ⟨v, htx, -⟩ := Run.exec_cons_eq_ok.mp hrest
  obtain ⟨x, hbefore, hreleasing⟩ := Run.exec_append_eq_ok.mp htx
  obtain ⟨y, hcall, -⟩ := Run.exec_cons_eq_ok.mp hreleasing
  have hbeforeStep : u.step (.transaction entity before) = .ok x := hbefore
  have hu : Reachable u := ⟨admin, earlier, hearlier⟩
  have hx : Reachable x := hu.step hbeforeStep
  obtain ⟨happroved, hentity⟩ : x.ApprovedAt a i.val ∧
      ∀ asset, x.assets.get? a = some asset → entity = asset.entity := by
    cases World.callAsset_eq_ok.mp hcall with
    | releaseFundingTranche hasset own hcap guards =>
      refine ⟨⟨_, hasset, _, guards.tranche, guards.approved⟩, fun asset hasset' => ?_⟩
      exact hx.entity_of_cap own hcap hasset' (guards.cap.trans
        (congrArg Asset.id (Option.some.inj (hasset.symm.trans hasset'))))
  by_cases hold : u.ApprovedAt a i.val
  · -- approved in an earlier transaction
    have hgenesis : ¬ (World.genesis admin).ApprovedAt a i.val := by
      rintro ⟨asset, hasset, _⟩
      simp [World.genesis] at hasset
    obtain ⟨first, sender, pre, p, cap, j, post, between, u', hsplit, hj, hfirst, hcontest⟩ :=
      approval_contestable ⟨admin, [], World.run_nil _⟩ (Run.each_append.mp hsep).1 hearlier
        hgenesis hold
    obtain rfl := Fin.ext hj
    exact ⟨first, sender, pre, p, cap, post, between, u', hsplit, hfirst, hcontest⟩
  · -- approved in the same transaction, which the entity cannot sign
    obtain ⟨_, _, _, _, _, e, -, -, hne, hawaits⟩ :=
      (hsep.here hearlier).awaits hu hbeforeStep hold happroved
    obtain ⟨asset, hasset, hwaits⟩ := hawaits.asset
    exact absurd (hwaits.entity.symm.trans (hentity asset hasset).symm) hne

/-- The call approves a tranche. -/
def Call.isApproval : Call → Bool
  | .asset (.approveMilestone ..) => true
  | _ => false

/-- An action that approves nothing separates. -/
theorem World.Separates.of_no_approval {w : World} {action : Action}
    (h : action.all (fun c => !c.isApproval) = true) : w.Separates action := by
  cases action with
  | tick => trivial
  | transaction sender calls =>
    intro before a p c i after u asset hcalls
    have hmem : Call.asset (.approveMilestone a p c i) ∈ calls := by
      rw [hcalls]
      simp
    have hno := List.all_eq_true.mp h _ hmem
    simp [Call.isApproval] at hno

namespace Sample

/-- Up to the proof of the only tranche. -/
def proved : List Action :=
  executing 1000000 100000 ++ [.transaction 2 [.asset (.submitMilestoneProof 4 5 0 evidence)]]

/-- Approval and withdrawal in transactions of their own. -/
def withdrawal : List Action :=
  [.transaction 1 [.asset (.approveMilestone 4 2 3 0)],
   .transaction 2 [.asset (.releaseFundingTranche 4 5 0)]]

/-- Address 1 vouches with its own pool for its own listing, and the raise succeeds. -/
def insider : List Action :=
  [.transaction 0 [.framework (.mintUsdc 1 30000000000), .framework (.mintUsdc 3 10000000000)],
   .transaction 1 [.validator (.registerValidator 20000000000 [])],
   .transaction 1 [.asset (.createAsset (listing 1000000) 100000)],
   .transaction 1 [.asset (.vouchAssetLegals 4 2 3 [evidence])],
   .transaction 3 [.asset (.contributeCapital 4 1000000)],
   .transaction 1 [.framework (.publishToken 6)],
   .transaction 1 [.asset (.finalizeSuccessfulRaise 4 7)]]

/-- One transaction proves, approves and withdraws. -/
def grab : Action :=
  .transaction 1 [.asset (.submitMilestoneProof 4 5 0 evidence),
    .asset (.approveMilestone 4 2 3 0), .asset (.releaseFundingTranche 4 5 0)]

end Sample

/-- Every transaction of the sample run separates. -/
theorem Sample.withdrawn_separates :
    Run.Each World.step World.Separates (World.genesis 0) (Sample.proved ++ Sample.withdrawal) := by
  have hproved : returns ((World.genesis 0).run Sample.proved) (fun u =>
      (u.assets.get? 4).all (fun asset => asset.entity ≠ 1 ∧ 0 < asset.coverageLocked) &&
      decide (u.clockMs + u.config.disputeWindowMs ≤ 604800000)) = true := by
    decide +kernel
  -- the actions before hold no approval; the one that does is checked at its world
  refine Run.each_append.mpr ⟨Run.Each.of_mem fun action haction u => ?_, fun t ht => ⟨?_, ?_⟩⟩
  · have hno : Sample.proved.all (Action.all fun c => !c.isApproval) = true := by decide
    exact .of_no_approval (List.all_eq_true.mp hno action haction)
  · -- the transaction of the approval
    obtain ⟨v, hv, hq⟩ := returns_iff.mp hproved
    obtain rfl := Except.ok.inj (hv.symm.trans ht)
    intro before a p c i after u asset hcalls hstep hasset
    obtain ⟨rfl, hnil⟩ | ⟨-, hnil⟩ := List.singleton_eq_append_iff.mp hcalls
    · obtain ⟨⟨⟩, rfl⟩ := List.cons.inj hnil
      simp only [World.step, Run.exec_nil_eq_ok] at hstep
      subst hstep
      simp only [Bool.and_eq_true, decide_eq_true_eq] at hq
      rw [hasset, Option.all_some, decide_eq_true_eq] at hq
      exact ⟨hq.1.1, hq.1.2, Nat.le_trans hq.2 (by simp [maxU64]), by simp⟩
    · simp at hnil
  · intro u _
    exact ⟨.of_no_approval rfl, fun _ _ => trivial⟩

/-- The tranche of asset 4 is withdrawn after an interval. -/
theorem capital_interval_withdrawn : ∃ w first between u,
    (World.genesis 0).run (Sample.proved ++ Sample.withdrawal) = .ok w ∧
    Sample.proved ++ [.transaction 1 [.asset (.approveMilestone 4 2 3 0)]] = first ++ between ∧
    (World.genesis 0).run first = .ok u ∧ u.Contestable 4 0 := by
  have hrun : returns ((World.genesis 0).run (Sample.proved ++ Sample.withdrawal))
      (fun _ => true) = true := by
    decide +kernel
  obtain ⟨w, hw, -⟩ := returns_iff.mp hrun
  obtain ⟨first, sender, pre, p, cap, post, between, u, hsplit, hfirst, hcontest⟩ :=
    (capital_interval hw).2 Sample.withdrawn_separates
      (Sample.proved ++ [.transaction 1 [.asset (.approveMilestone 4 2 3 0)]]) 2 [] 4 5 0 [] []
      (by simp [Sample.withdrawal])
  exact ⟨w, _, between, u, hw, hsplit.trans (List.append_cons ..), hfirst, hcontest⟩

/-- Nothing was approved in the committed state, and the next transaction withdraws. -/
theorem capital_grabbed : ∃ w w', (World.genesis 0).run Sample.insider = .ok w ∧
    ¬ w.ApprovedAt 4 0 ∧ w.step Sample.grab = .ok w' ∧ w'.ReleasedAt 4 0 ∧
    w'.wallets.balance 1 = w.wallets.balance 1 + 1000000 := by
  have hrun : returns ((World.genesis 0).run Sample.insider) (fun w =>
      (w.assets.get? 4).all (fun asset => asset.tranches[0]?.all (·.approvedBy = none)) &&
      returns (w.step Sample.grab) fun w' =>
        (w'.assets.get? 4).any (fun asset => asset.tranches[0]?.any (·.released)) &&
        w'.wallets.balance 1 = w.wallets.balance 1 + 1000000) = true := by
    decide +kernel
  obtain ⟨w, hw, hq⟩ := returns_iff.mp hrun
  simp only [Bool.and_eq_true] at hq
  obtain ⟨hnone, hgrab⟩ := hq
  obtain ⟨w', hstep, hq⟩ := returns_iff.mp hgrab
  simp only [Bool.and_eq_true, decide_eq_true_eq] at hq
  obtain ⟨hany, hpaid⟩ := hq
  obtain ⟨asset, hasset, hany⟩ := (Option.any_eq_true _ _).mp hany
  obtain ⟨t, ht, hreleased⟩ := (Option.any_eq_true _ _).mp hany
  -- in the one transaction of `grab` the tranche is approved and paid out
  refine ⟨w, w', hw, ?_, hstep, ⟨asset, hasset, t, ht, hreleased⟩, hpaid⟩
  rintro ⟨asset, hasset, t, ht, happroved⟩
  rw [hasset, Option.all_some, ht, Option.all_some, decide_eq_true_eq] at hnone
  exact happroved hnone

end Gally

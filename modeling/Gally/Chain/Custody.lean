import Gally.Chain.Sites
import Gally.Engine.Exchange
import Gally.Engine.Solvency

/-!
# Custody of escrow and collateral

What an asset holds in each state of its lifecycle (`Site.Stage`), how its tranches
are kept (`Asset.Scheduled`), and how its engine is tied to it (`Site.Tied`).
Together they are `Site.Sound`, which every step of a site preserves.

## Key results

- `Site.Sound.step`, `Reachable.sound`: every asset of a reachable world is sound
-/

namespace Gally

open Checked

/-! ## Tranches -/

/-- Replacing a tranche by one of the same amount keeps all partial sums. -/
theorem trancheTotal_drop_set {ts : List Tranche} {i : ℕ} {t : Tranche} (t' : Tranche)
    (ht : ts[i]? = some t) (ha : t'.amount = t.amount) (n : ℕ) :
    trancheTotal ((ts.set i t').drop n) = trancheTotal (ts.drop n) := by
  have hmap : (ts.set i t').map Tranche.amount = ts.map Tranche.amount := by
    obtain ⟨hlt, rfl⟩ := List.getElem?_eq_some_iff.mp ht
    have hlt' : i < (ts.map Tranche.amount).length := by simpa using hlt
    rw [List.map_set, ha, ← List.getElem_map Tranche.amount (h := hlt'), List.set_getElem_self]
  rw [trancheTotal, trancheTotal, List.map_drop, List.map_drop, hmap]

/-- The next tranche is the head of what is left. -/
theorem trancheTotal_drop {ts : List Tranche} {i : ℕ} {t : Tranche} (ht : ts[i]? = some t) :
    trancheTotal (ts.drop i) = t.amount + trancheTotal (ts.drop (i + 1)) := by
  obtain ⟨hlt, rfl⟩ := List.getElem?_eq_some_iff.mp ht
  rw [List.drop_eq_getElem_cons hlt, trancheTotal_cons]

/-- The tranches add up to the goal and are released in order. -/
structure Asset.Scheduled (asset : Asset) : Prop where
  goal : 0 < asset.fundingGoal
  goalFits : asset.fundingGoal ≤ maxU64
  total : trancheTotal asset.tranches = asset.fundingGoal
  count : asset.tranches.length ≤ maxU64
  next : asset.nextTranche ≤ asset.tranches.length
  released : ∀ i t, asset.tranches[i]? = some t → (t.released = true ↔ i < asset.nextTranche)

namespace Asset.Scheduled

variable {asset : Asset}

/-- A fresh asset is soundly scheduled. -/
theorem listed {collateral : ℕ} (h : asset.Listed collateral) : asset.Scheduled where
  goal := h.goal
  goalFits := h.goalFits
  total := h.total
  count := h.count
  next := h.nextTranche ▸ Nat.zero_le _
  released i t ht := by
    simp [h.nextTranche, (h.fresh t (List.mem_of_getElem? ht)).unreleased]

/-- Changing a tranche's evidence or approval. -/
theorem withTranche (h : asset.Scheduled) {i : ℕ} {t t' : Tranche}
    (ht : asset.tranches[i]? = some t) (ha : t'.amount = t.amount)
    (hr : t'.released = t.released) : (asset.withTranche i t').Scheduled where
  goal := h.goal
  goalFits := h.goalFits
  total := (trancheTotal_drop_set t' ht ha 0).trans h.total
  count := by simpa [Asset.withTranche] using h.count
  next := by simpa [Asset.withTranche] using h.next
  released j u hu := by
    -- the tranche that changed keeps its flag, the others are untouched
    by_cases hj : i = j
    · subst hj
      have hlt := (List.getElem?_eq_some_iff.mp ht).1
      simp only [Asset.withTranche, List.getElem?_set_self hlt, Option.some.injEq] at hu
      rw [← hu, hr]
      exact h.released i t ht
    · simp only [Asset.withTranche, List.getElem?_set_ne hj] at hu
      exact h.released j u hu

/-- Releasing the next tranche. -/
theorem afterTranche (h : asset.Scheduled) {t : Tranche}
    (ht : asset.tranches[asset.nextTranche]? = some t) : (asset.afterTranche t).Scheduled := by
  have hlt := (List.getElem?_eq_some_iff.mp ht).1
  exact {
    goal := h.goal
    goalFits := h.goalFits
    total := (trancheTotal_drop_set { t with released := true } ht rfl 0).trans h.total
    count := by simpa [Asset.afterTranche] using h.count
    next := by simpa [Asset.afterTranche] using Nat.succ_le_of_lt hlt
    released := by
      intro j u hu
      -- exactly the next tranche becomes released
      by_cases hj : asset.nextTranche = j
      · subst hj
        simp only [Asset.afterTranche, List.getElem?_set_self hlt, Option.some.injEq] at hu
        simp [← hu, Asset.afterTranche]
      · simp only [Asset.afterTranche, List.getElem?_set_ne hj] at hu ⊢
        rw [h.released j u hu]
        omega }

end Asset.Scheduled

/-! ## What a site holds in each state -/

/-- The escrow that is still owed to the entity: the tranches from `nextTranche` on. -/
def Asset.unreleased (asset : Asset) : ℕ := trancheTotal (asset.tranches.drop asset.nextTranche)

/-- The units of the receipts. -/
def Site.receiptUnits (s : Site) : ℕ := s.receipts.sum ContributionReceipt.amount

/-- Escrow, principal and collateral in each state of the lifecycle. -/
def Site.Stage (s : Site) : Prop :=
  match s.asset.state with
  | .pendingVouch => s.asset.escrow = 0 ∧ s.asset.raised = 0 ∧ s.receiptUnits = 0 ∧
      s.asset.nextTranche = 0
  | .cancelled => s.asset.escrow = 0 ∧ s.asset.entityCollateral = 0
  | .funding => s.asset.escrow = s.asset.raised ∧ s.asset.raised = s.receiptUnits ∧
      s.asset.raised ≤ s.asset.fundingGoal ∧ s.asset.nextTranche = 0
  | .failed => s.asset.escrow = s.asset.raised ∧ s.asset.raised = s.receiptUnits ∧
      s.asset.raised ≤ s.asset.fundingGoal ∧ s.asset.entityCollateral = 0
  | .executing => s.asset.escrow = s.asset.unreleased ∧
      s.asset.nextTranche < s.asset.tranches.length
  | .operational => s.asset.escrow = 0 ∧ s.asset.nextTranche = s.asset.tranches.length
  | .compensating => s.asset.escrow = 0 ∧ s.asset.entityCollateral = 0
  | .closed => s.asset.escrow = 0 ∧ s.asset.entityCollateral = 0

/-- How an engine is tied to its asset. -/
structure Site.Tied (s : Site) (e : Engine) : Prop where
  receipts : e.receipts = s.receipts
  asset : e.acc.assetId = s.asset.id
  accumulator : s.asset.accumulatorId = some e.acc.id
  closed : e.acc.closed = true ↔ s.asset.state = .closed
  balanced : e.Balanced
  solvent : e.Solvent

/-- Everything that holds of a site at all times. -/
structure Site.Sound (s : Site) : Prop where
  scheduled : s.asset.Scheduled
  stage : s.Stage
  belongs : ∀ r ∈ s.receipts, r.assetId = s.asset.id
  engine : s.engine.isSome = s.asset.state.isFinalized
  tied : ∀ e, s.engine = some e → s.Tied e

namespace Site.Sound

variable {s s' : Site} {e : Engine}

/-- A site with an engine is past its raise. -/
theorem finalized (h : s.Sound) (he : s.engine = some e) : s.asset.state.isFinalized = true := by
  rw [← h.engine, he, Option.isSome_some]

/-- Without an engine there is nothing tied. -/
theorem no_engine (h : s.Sound) (hst : s.asset.state.isFinalized = false) : s.engine = none := by
  have := h.engine
  rwa [hst, Option.isSome_eq_false_iff, Option.isNone_iff_eq_none] at this

/-- Replacing the asset of a site that has no engine. -/
theorem of_raising (h : s.Sound) (hst : s.asset.state.isFinalized = false) {s' : Site}
    (hid : s'.asset.id = s.asset.id) (hst' : s'.asset.state.isFinalized = false)
    (hengine : s'.engine = s.engine) (hscheduled : s'.asset.Scheduled) (hstage : s'.Stage)
    (hbelongs : ∀ r ∈ s'.receipts, r.assetId = s.asset.id) : s'.Sound where
  scheduled := hscheduled
  stage := hstage
  belongs r hr := (hbelongs r hr).trans hid.symm
  engine := by rw [hengine, h.no_engine hst, hst', Option.isSome_none]
  tied e he := by rw [hengine, h.no_engine hst] at he; simp at he

/-- Replacing the asset of a site without changing what ties it to its engine. -/
theorem of_asset (h : s.Sound) {asset' : Asset} (hid : asset'.id = s.asset.id)
    (hg : asset'.accumulatorId = s.asset.accumulatorId)
    (hfin : asset'.state.isFinalized = s.asset.state.isFinalized)
    (hclosed : asset'.state = .closed ↔ s.asset.state = .closed) (hscheduled : asset'.Scheduled)
    (hstage : Stage { s with asset := asset' }) : Sound { s with asset := asset' } where
  scheduled := hscheduled
  stage := hstage
  belongs r hr := (h.belongs r hr).trans hid.symm
  engine := h.engine.trans hfin.symm
  tied e he := by
    -- the engine is not touched, so only what ties it to the asset is to be shown
    have ht := h.tied e he
    exact { ht with
      asset := ht.asset.trans hid.symm
      accumulator := hg.trans ht.accumulator
      closed := ht.closed.trans hclosed.symm }

/-- A cancelled asset is sound. -/
theorem cancel (h : s.Sound) (state : s.asset.state = .pendingVouch) :
    Sound { s with asset := s.asset.cancelled } := by
  have hstage := h.stage
  simp only [Stage, state] at hstage
  exact h.of_raising (state ▸ rfl) rfl rfl rfl { h.scheduled with } ⟨hstage.1, rfl⟩ h.belongs

/-- An asset that was vouched for is sound. -/
theorem vouch (h : s.Sound) {pool : ValidatorPool} {cap : ValidatorCap} {config : ProtocolConfig}
    {docs : List WalrusRef} (guards : VouchGuards s.asset pool cap config docs) :
    Sound { s with asset := s.asset.vouched pool.id (s.asset.coverageFor config) docs } := by
  have hstage := h.stage
  simp only [Stage, guards.state] at hstage
  obtain ⟨hescrow, hraised, hunits, hnext⟩ := hstage
  exact h.of_raising (guards.state ▸ rfl) rfl rfl rfl { h.scheduled with }
    ⟨hescrow.trans hraised.symm, hraised.trans hunits.symm, hraised ▸ Nat.zero_le _, hnext⟩
    h.belongs

/-- A contribution keeps the asset sound. -/
theorem contribute (h : s.Sound) {config : ProtocolConfig} {now payment : ℕ} {newId : ID}
    (guards : ContributeGuards s.asset config now payment)
    (fresh : s.receipts.get? newId = none) :
    Sound { s with
      asset := s.asset.afterContribution (s.asset.accepts payment)
      receipts := s.receipts.put ⟨newId, s.asset.id, s.asset.accepts payment⟩ } := by
  have hstage := h.stage
  simp only [Stage, guards.state] at hstage
  obtain ⟨hescrow, hraised, hgoal, hnext⟩ := hstage
  -- the acceptance is what keeps `raised` within the goal
  have hle : s.asset.accepts payment ≤ s.asset.fundingGoal - s.asset.raised := Nat.min_le_right ..
  have hput := Store.sum_put_of_fresh
    (x := (⟨newId, s.asset.id, s.asset.accepts payment⟩ : ContributionReceipt)) fresh
    ContributionReceipt.amount
  refine h.of_raising (guards.state ▸ rfl) rfl (guards.state ▸ rfl) rfl { h.scheduled with } ?_
    (Store.forall_put rfl h.belongs)
  simp only [Stage, Asset.afterContribution, guards.state, receiptUnits] at hraised hput ⊢
  omega

/-- An aborted raise leaves the asset sound. -/
theorem abort (h : s.Sound) {pool : ValidatorPool} {config : ProtocolConfig} {now : ℕ}
    (guards : AbortGuards s.asset pool config now) : Sound { s with asset := s.asset.failed } := by
  have hstage := h.stage
  simp only [Stage, guards.state] at hstage
  obtain ⟨hescrow, hraised, hgoal, -⟩ := hstage
  exact h.of_raising (guards.state ▸ rfl) rfl rfl rfl { h.scheduled with }
    ⟨hescrow, hraised, hgoal, rfl⟩ h.belongs

/-- A refund keeps the asset sound. -/
theorem refund (h : s.Sound) {config : ProtocolConfig} {receipt : ContributionReceipt}
    (mem : s.receipts.get? receipt.id = some receipt)
    (guards : RefundGuards s.asset config receipt) :
    Sound { s with
      asset := s.asset.afterRefund receipt.amount
      receipts := s.receipts.delete receipt.id } := by
  have hstage := h.stage
  simp only [Stage, guards.state] at hstage
  obtain ⟨hescrow, hraised, hgoal, hcollateral⟩ := hstage
  -- the receipt leaves the store as its amount leaves the escrow
  have hdel := Store.sum_delete_of_get? mem ContributionReceipt.amount
  refine h.of_raising (guards.state ▸ rfl) rfl (guards.state ▸ rfl) rfl { h.scheduled with } ?_
    (Store.forall_delete h.belongs)
  simp only [Stage, Asset.afterRefund, guards.state, receiptUnits] at hraised ⊢
  omega

/-- A finalized asset is sound, with its fresh engine. -/
theorem finalize (h : s.Sound) {config : ProtocolConfig} {cap : TreasuryCap}
    {metadata : CoinMetadata} {now : ℕ} {accId : ID}
    (guards : FinalizeGuards s.asset config cap metadata now)
    (acc : e.acc = s.asset.newAccumulator cap accId) (receipts : e.receipts = s.receipts)
    (shares : e.shares = ∅) (coins : e.coinUnits = 0) :
    Sound { s with asset := s.asset.finalized accId, engine := some e } := by
  have hstage := h.stage
  simp only [Stage, guards.state] at hstage
  obtain ⟨hescrow, hraised, -, hnext⟩ := hstage
  -- the goal is met and the schedule adds up to the goal
  have htotal : s.asset.unreleased = s.asset.raised := by
    rw [Asset.unreleased, hnext, List.drop_zero, h.scheduled.total, guards.met]
  -- a schedule that adds up to a positive goal is not empty
  have hlength : s.asset.nextTranche < s.asset.tranches.length := by
    rw [hnext, List.length_pos_iff]
    intro hnil
    have := h.scheduled.total
    rw [hnil, trancheTotal_nil] at this
    have := h.scheduled.goal
    omega
  -- the receipts of the raise are the units the accumulator counts
  have hinitial : e.Initial :=
    { created := ⟨s.asset.id, s.asset.fundingGoal, cap, accId, by
        rw [newAccumulator_eq_ok, acc]
        exact ⟨guards.virgin, rfl⟩⟩
      receipts := by
        rw [receipts, acc]
        exact h.belongs
      units := by
        rw [acc, Engine.receiptUnits, receipts]
        exact hraised.symm.trans guards.met
      shares, coins }
  exact {
    scheduled := { h.scheduled with }
    stage := ⟨hescrow.trans htotal.symm, hlength⟩
    belongs := h.belongs
    engine := rfl
    tied := by
      intro e' heq
      obtain rfl := Option.some.inj heq
      exact ⟨receipts, by rw [acc]; rfl, by rw [acc]; rfl, by rw [acc]; simp [Asset.finalized,
        Asset.newAccumulator], .initial hinitial, .initial hinitial⟩ }

/-- Evidence or an approval for a tranche of an asset under execution. -/
theorem withTranche (h : s.Sound) {i : ℕ} {t t' : Tranche} (state : s.asset.state = .executing)
    (ht : s.asset.tranches[i]? = some t) (ha : t'.amount = t.amount)
    (hr : t'.released = t.released) :
    Sound { s with asset := s.asset.withTranche i t' } := by
  have hstage := h.stage
  simp only [Stage, state] at hstage
  refine h.of_asset rfl rfl rfl Iff.rfl (h.scheduled.withTranche ht ha hr) ?_
  -- the amount is what it was, so the same escrow is owed
  have hleft : (s.asset.withTranche i t').unreleased = s.asset.unreleased :=
    trancheTotal_drop_set t' ht ha _
  simp only [Stage, show (s.asset.withTranche i t').state = .executing from state, hleft]
  exact ⟨hstage.1, by simpa [Asset.withTranche] using hstage.2⟩

/-- The release of a tranche keeps the asset sound. -/
theorem release (h : s.Sound) {t : Tranche} (state : s.asset.state = .executing)
    (ht : s.asset.tranches[s.asset.nextTranche]? = some t) :
    Sound { s with asset := s.asset.afterTranche t } := by
  have hstage := h.stage
  simp only [Stage, state] at hstage
  obtain ⟨hescrow, hlt⟩ := hstage
  -- the rest of the escrow is the rest of the schedule
  have hrest : s.asset.escrow - t.amount =
      trancheTotal (s.asset.tranches.drop (s.asset.nextTranche + 1)) := by
    rw [hescrow, Asset.unreleased, trancheTotal_drop ht, Nat.add_sub_cancel_left]
  have hleft : (s.asset.afterTranche t).unreleased =
      trancheTotal (s.asset.tranches.drop (s.asset.nextTranche + 1)) :=
    trancheTotal_drop_set { t with released := true } ht rfl _
  -- after the last tranche nothing is owed and nothing is held
  by_cases hlast : s.asset.nextTranche + 1 = s.asset.tranches.length
  · have hstate : (s.asset.afterTranche t).state = .operational := by
      simp [Asset.afterTranche, hlast]
    refine h.of_asset rfl rfl (by rw [hstate, state]; rfl) (by simp [hstate, state])
      (h.scheduled.afterTranche ht) ?_
    simp only [Stage, hstate]
    refine ⟨hrest.trans ?_, by simpa [Asset.afterTranche] using hlast⟩
    rw [hlast, List.drop_length, trancheTotal_nil]
  · have hstate : (s.asset.afterTranche t).state = .executing := by
      simp [Asset.afterTranche, hlast, state]
    refine h.of_asset rfl rfl (by rw [hstate, state]) (by simp [hstate, state])
      (h.scheduled.afterTranche ht) ?_
    simp only [Stage, hstate]
    refine ⟨hrest.trans hleft.symm, ?_⟩
    simp only [Asset.afterTranche, List.length_set]
    omega

/-- Funds enter the compensation pool, and the asset changes along. -/
theorem compensate (h : s.Sound) (he : s.engine = some e) {asset' : Asset} (funds unlockMs : ℕ)
    (hid : asset'.id = s.asset.id) (hg : asset'.accumulatorId = s.asset.accumulatorId)
    (hfin : asset'.state.isFinalized = true)
    (hclosed : asset'.state = .closed ↔ s.asset.state = .closed) (hscheduled : asset'.Scheduled)
    (hstage : Stage { s with asset := asset' }) :
    Sound { s with
      asset := asset'
      engine := some { e with acc := e.acc.compensated funds unlockMs } } := by
  have ht := h.tied e he
  -- parking funds is no operation on deeds: owed, pool and index stay
  have hmove : Move e [] { e with acc := e.acc.compensated funds unlockMs } :=
    .rebook ⟨⟨rfl, rfl, rfl, rfl, rfl⟩, rfl, rfl, rfl⟩
  exact {
    scheduled := hscheduled
    stage := hstage
    belongs := fun r hr => (h.belongs r hr).trans hid.symm
    engine := hfin.symm
    tied := by
      intro e' heq
      obtain rfl := Option.some.inj heq
      exact ⟨ht.receipts, ht.asset.trans hid.symm, hg.trans ht.accumulator,
        ht.closed.trans hclosed.symm, ht.balanced.move hmove,
        Engine.Solvent.move ht.balanced ht.solvent hmove⟩ }

/-- A default leaves the asset sound. -/
theorem default (h : s.Sound) (he : s.engine = some e) (state : s.asset.state = .executing)
    (funds unlockMs : ℕ) :
    Sound { s with
      asset := s.asset.seized
      engine := some { e with acc := e.acc.compensated funds unlockMs } } :=
  h.compensate he funds unlockMs rfl rfl rfl (by simp [Asset.seized, state]) { h.scheduled with }
    ⟨rfl, rfl⟩

/-- An upheld dispute leaves the asset sound. -/
theorem uphold (h : s.Sound) (he : s.engine = some e) (funds unlockMs : ℕ) :
    Sound { s with
      asset := s.asset.upheld
      engine := some { e with acc := e.acc.compensated funds unlockMs } } := by
  -- seized under execution, otherwise only cleared of the challenge
  by_cases state : s.asset.state = .executing
  · have hup : s.asset.upheld = (clearCoverage s.asset).seized := if_pos state
    rw [hup]
    exact h.compensate he funds unlockMs rfl rfl rfl (by simp [Asset.seized, state])
      { h.scheduled with } ⟨rfl, rfl⟩
  · have hup : s.asset.upheld = setDisputed (clearCoverage s.asset) false := if_neg state
    rw [hup]
    exact h.compensate he funds unlockMs rfl rfl (h.finalized he) Iff.rfl { h.scheduled with }
      h.stage

/-- A close leaves the asset sound. -/
theorem close (h : s.Sound) (he : s.engine = some e) {reason : CloseReason}
    (guards : CloseGuards s.asset e.acc reason) :
    Sound { s with
      asset := s.asset.closed
      engine := some { e with acc := markClosed e.acc } } := by
  have ht := h.tied e he
  -- each trigger fires in a state that holds no escrow
  have hescrow : s.asset.escrow = 0 := by
    have hstage := h.stage
    cases guards with
    | returnTarget state => simp only [Stage, state] at hstage; exact hstage.1
    | compensation state => simp only [Stage, state] at hstage; exact hstage.1
    | windDown state => simp only [Stage, state] at hstage; exact hstage.1
  have hmove : Move e [] { e with acc := markClosed e.acc } :=
    .rebook ⟨⟨rfl, rfl, rfl, rfl, rfl⟩, rfl, rfl, rfl⟩
  exact {
    scheduled := { h.scheduled with }
    stage := ⟨hescrow, rfl⟩
    belongs := h.belongs
    engine := rfl
    tied := by
      intro e' heq
      obtain rfl := Option.some.inj heq
      exact ⟨ht.receipts, ht.asset, ht.accumulator, by simp [markClosed, Asset.closed],
        ht.balanced.move hmove, Engine.Solvent.move ht.balanced ht.solvent hmove⟩ }

/-- What holders and depositors do with the engine keeps the asset sound. -/
theorem exchange (h : s.Sound) (he : s.engine = some e) {op : EngineOp} {e' : Engine}
    {payouts : List Payout} (hop : op.isExchange = true) (run : e.apply op = .ok (e', payouts)) :
    Sound { s with receipts := e'.receipts, engine := some e' } := by
  have ht := h.tied e he
  have hex := Engine.apply_exchanged hop run
  -- solvency needs the balance before each move, so both go together
  have hboth : e'.Balanced ∧ e'.Solvent :=
    (apply_moves run).preserves (P := fun e => e.Balanced ∧ e.Solvent)
      (fun hP m => ⟨hP.1.move m, Engine.Solvent.move hP.1 hP.2 m⟩) ⟨ht.balanced, ht.solvent⟩
  have hasset : e'.acc.assetId = s.asset.id := hex.assetId.trans ht.asset
  exact {
    scheduled := h.scheduled
    -- past the raise, the stage does not look at the receipts
    stage := by
      have hstage := h.stage
      have hfin := h.finalized he
      cases state : s.asset.state <;>
        simp only [state, AssetState.isFinalized, Bool.false_eq_true] at hfin <;>
        simpa only [Stage, state] using hstage
    belongs := fun r hr => (hboth.1.receipts r hr).trans hasset
    engine := (h.finalized he).symm
    tied := by
      intro e'' heq
      obtain rfl := Option.some.inj heq
      exact ⟨rfl, hasset, ht.accumulator.trans (congrArg some hex.id.symm),
        hex.closed ▸ ht.closed, hboth.1, hboth.2⟩ }

/-- Every step of a site keeps it sound. -/
theorem step (h : s.Sound) (hs : Site.Step s s') : s'.Sound := by
  cases hs with
  | cancel state => exact h.cancel state
  | vouch guards => exact h.vouch guards
  | contribute guards fresh => exact h.contribute guards fresh
  | finalize guards acc receipts shares coins => exact h.finalize guards acc receipts shares coins
  | abort guards => exact h.abort guards
  | refund mem guards => exact h.refund mem guards
  | prove guards => exact h.withTranche guards.state guards.tranche rfl rfl
  | approve guards => exact h.withTranche guards.state guards.tranche rfl rfl
  | release guards => exact h.release guards.state (guards.next ▸ guards.tranche)
  -- the coverage and the dispute flag are not part of the invariant
  | uncover => exact h.of_asset rfl rfl rfl Iff.rfl { h.scheduled with } h.stage
  | challenge => exact h.of_asset rfl rfl rfl Iff.rfl { h.scheduled with } h.stage
  | acquit => exact h.of_asset rfl rfl rfl Iff.rfl { h.scheduled with } h.stage
  | uphold he => exact h.uphold he _ _
  | default he guards => exact h.default he guards.state _ _
  | close he guards => exact h.close he guards
  | exchange he hop run => exact h.exchange he hop run

/-- A listing is sound. -/
theorem listed {asset : Asset} {collateral : ℕ} (h : asset.Listed collateral) :
    Sound ⟨asset, ∅, none⟩ where
  scheduled := .listed h
  stage := by
    simp only [Stage, h.state, receiptUnits, Store.sum_empty]
    exact ⟨h.escrow, h.raised, trivial, h.nextTranche⟩
  belongs := by simp
  engine := by simp only [h.state]; rfl
  tied := by simp

end Site.Sound

/-! ## Every asset of a reachable world -/

namespace World

variable {w w' : World} {sender : Address}

/-- A call lists a new asset, or it adds neither an asset nor an `EntityCap`. -/
theorem call_listing {c : Call} (h : w.call sender c = .ok w') :
    (∃ (l : Listing) (isTerm : Bool) (target collateral : U64) (asset : Asset) (cap : EntityCap)
      (events : List Event), createAssetInternal w.config l isTerm target collateral.val w.clockMs
        sender w.nextId (w.nextId + 1) = .ok (asset, cap, events) ∧
      w' = w.listed sender collateral.val asset cap events) ∨
    w'.entityCaps = w.entityCaps ∧
      ∀ b x, w'.assets.get? b = some x → (w.assets.get? b).isSome := by
  have hold : ∀ b x, w.assets.get? b = some x → (w.assets.get? b).isSome := by
    intro b x hx
    rw [hx, Option.isSome_some]
  cases c with
  | protocol c =>
    obtain ⟨-, _, _, -, rfl⟩ := World.protocolCall_eq_ok.mp h
    exact Or.inr ⟨rfl, hold⟩
  | validator c => cases World.validatorCall_eq_ok.mp h <;> exact Or.inr ⟨rfl, hold⟩
  | asset c =>
    cases World.assetCall_eq_ok.mp h with
    -- a listing is the only call that files an asset under a new ID
    | createAsset _ _ run => exact Or.inl ⟨_, _, _, _, _, _, _, run, rfl⟩
    | createTermAsset _ _ run => exact Or.inl ⟨_, _, _, _, _, _, _, run, rfl⟩
    | claimShares => exact Or.inr ⟨rfl, hold⟩
    | depositRevenue => exact Or.inr ⟨rfl, hold⟩
    | _ hasset => exact Or.inr ⟨rfl, fun _ _ hx => Store.isSome_of_replace hasset hx rfl⟩
  | accumulator c => cases World.accumulatorCall_eq_ok.mp h <;> exact Or.inr ⟨rfl, hold⟩
  | dispute c =>
    cases World.disputeCall_eq_ok.mp h with
    | initializeDispute hasset =>
      exact Or.inr ⟨rfl, fun _ _ hx => Store.isSome_of_replace hasset hx rfl⟩
    | resolveDispute _ _ hasset _ _ decides =>
      exact Or.inr ⟨rfl, fun _ _ hx => Store.isSome_of_replace hasset hx decides.keeps.assetId⟩
    | _ => exact Or.inr ⟨rfl, hold⟩
  | framework c => cases World.frameworkCall_eq_ok.mp h <;> exact Or.inr ⟨rfl, hold⟩

/-- What a call can do to the set of assets: a listing adds one, all other calls add none. -/
theorem call_listed {c : Call} (h : w.call sender c = .ok w') :
    (∃ (asset : Asset) (cap : EntityCap) (collateral : U64) (events : List Event),
      asset.CreatedBy cap sender collateral.val w.clockMs w.nextId (w.nextId + 1) ∧
      w' = w.listed sender collateral.val asset cap events) ∨
    w'.entityCaps = w.entityCaps ∧
      ∀ b x, w'.assets.get? b = some x → (w.assets.get? b).isSome := by
  rcases call_listing h with ⟨_, _, _, _, _, _, _, run, rfl⟩ | hold
  · exact Or.inl ⟨_, _, _, _, createAssetInternal_ok run, rfl⟩
  · exact Or.inr hold

/-- An asset is old or a new listing. -/
theorem call_assets {c : Call} (h : w.call sender c = .ok w') {b : ID} {x : Asset}
    (hx : w'.assets.get? b = some x) :
    (w.assets.get? b).isSome ∨ b = w.nextId ∧ w'.receipts = w.receipts ∧
      ∃ collateral ≤ maxU64, x.Listed collateral := by
  -- an asset that was not there is the listed one, which is fresh
  rcases call_listed h with ⟨asset, cap, collateral, events, created, rfl⟩ | ⟨-, hold⟩
  · simp only [World.listed, Store.get?_put] at hx
    split at hx
    · next hb =>
      obtain rfl := Option.some.inj hx
      exact Or.inr ⟨hb.symm.trans created.id, rfl, collateral.val, U64.val_le collateral,
        created.listed⟩
    · exact Or.inl (by rw [hx, Option.isSome_some])
  · exact Or.inl (hold b x hx)

/-- A new listing has neither receipts nor an engine. -/
theorem site_listed (hl : w.Linked) (hf : w.Fresh) {asset : Asset} {collateral : ℕ}
    (hid : asset.id = w.nextId) (hlisted : asset.Listed collateral)
    (hreceipts : w'.receipts = w.receipts) : w'.site asset = ⟨asset, ∅, none⟩ := by
  rw [site_raising hlisted.accumulator, hreceipts]
  congr 1
  refine Store.eq_empty fun receipt hr => ?_
  obtain ⟨hmem, ha⟩ := Store.mem_group.mp hr
  obtain ⟨x, hx⟩ := hl.receipts receipt hmem
  -- a receipt names an asset that is filed, hence older than this one
  have hlt := hf.assets.get?_lt hx
  rw [ha, hid] at hlt
  exact Nat.lt_irrefl _ hlt

end World

/-- What holds of every new listing, and what every step of a site preserves, holds of
    every asset of a reachable world. -/
theorem Reachable.site_induct {P : Site → Prop}
    (listed : ∀ {asset : Asset} {collateral : ℕ}, collateral ≤ maxU64 →
      asset.Listed collateral → P ⟨asset, ∅, none⟩)
    (step : ∀ {s s' : Site}, P s → Site.Step s s' → P s')
    {w : World} (hw : Reachable w) {a : ID} {asset : Asset}
    (hasset : w.assets.get? a = some asset) : P (w.site asset) := by
  suffices h : ∀ a asset, w.assets.get? a = some asset → P (w.site asset) from h a asset hasset
  refine hw.induct (P := fun w => ∀ a asset, w.assets.get? a = some asset → P (w.site asset))
    ?_ ?_ fun _ hs _ => hs
  · intro admin a asset hasset
    simp [World.genesis] at hasset
  · intro w sender c w' hw hs h b x hx
    -- an asset that was there takes at most one step, any other is a listing
    rcases World.call_assets h hx with hold | ⟨rfl, hreceipts, collateral, hfits, hlisted⟩
    · obtain ⟨y, hy⟩ := Option.isSome_iff_exists.mp hold
      obtain ⟨y', hy', hstep⟩ := World.call_sites hw h b y hy
      obtain rfl : y' = x := Option.some.inj (hy'.symm.trans hx)
      rcases hstep with heq | hstep
      · exact heq ▸ hs b y hy
      · exact step (hs b y hy) hstep
    · rw [World.site_listed hw.linked hw.fresh (Store.key_of_get? hx) hlisted hreceipts]
      exact listed hfits hlisted

/-- Every asset of a reachable world is sound. -/
theorem Reachable.sound {w : World} (hw : Reachable w) {a : ID} {asset : Asset}
    (hasset : w.assets.get? a = some asset) : (w.site asset).Sound :=
  hw.site_induct (fun _ h => .listed h) (fun h hs => h.step hs) hasset

/-- The engine of every accumulator of a reachable world. -/
theorem Reachable.tied {w : World} (hw : Reachable w) {g : ID} {acc : GlobalYieldAccumulator}
    (hacc : w.accumulators.get? g = some acc) : ∃ asset,
      w.assets.get? acc.assetId = some asset ∧ asset.accumulatorId = some g ∧
      (w.site asset).Sound ∧ (w.site asset).Tied (w.engine acc) := by
  obtain ⟨asset, hasset, hg⟩ := hw.linked.asset hacc
  have hs := hw.sound hasset
  exact ⟨asset, hasset, hg, hs, hs.tied _ (World.site_engine hg hacc)⟩

end Gally

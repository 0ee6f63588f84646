import Gally.Engine.Moves
import Gally.Engine.Solvency

/-!
# The lazy index refines eager payment

A *position* is a set of units that objects carry wholly or not at all: a colouring
`inside` of object IDs that every move of units respects (`Closed`). An eager ledger
would pay the position, at each distribution of `funds` over `supply` units, its
exact rational share `funds * held / supply`. The lazy index pays at most that, and
falls short of it by less than one raw unit for each settled claim and each live
deed, and `held / scale` for each distribution.

`paid` adds up the coins the calls of a run returned. The rest of the books is read
off the history of the run: `settledClaims` from its claims, `eager` and `slack` from
its index advances. `run_paid` says that the coins are worth what the claims round
down to.

## Key results

- `run_paid`: the coins a run returned are the floors of its claims
- `Moves.booked`: the scaled books are exact
- `Engine.Booked.refines`: both sides of the refinement
-/

namespace Gally

open Checked

/-! ## The books of a position -/

/-- The scaled entitlement of a deed at `index`. -/
def GallyShare.accrued (share : GallyShare) (index : ℕ) : ℕ :=
  (index - share.yieldClaimedIndex) * share.shareCount

/-- The entitlement of a deed is what it has accrued up to the current index. -/
theorem GlobalYieldAccumulator.entitlement_eq (acc : GlobalYieldAccumulator) (share : GallyShare) :
    acc.entitlement share = share.accrued acc.cumulativeYieldIndex := rfl

section Position

variable (inside : ID → Bool)

/-- The units of a deed that belong to the position. -/
def GallyShare.held (share : GallyShare) : ℕ := if inside share.id then share.shareCount else 0

/-- The deed units of the position. -/
def Engine.heldUnits (e : Engine) : ℕ := e.shares.sum (GallyShare.held inside)

/-- The number of live deeds of the position. -/
def Engine.liveDeeds (e : Engine) : ℕ := e.shares.sum fun s => if inside s.id then 1 else 0

/-- The `pending_payout`s of the position. -/
def Engine.pending (e : Engine) : ℕ :=
  e.shares.sum fun s => if inside s.id then e.acc.payout s else 0

/-- The USDC a call returned to the position. -/
def Payout.paid (payout : Payout) : ℕ := if inside payout.share then payout.value else 0

/-- What a claim of the position rounds down to. -/
def Record.floored : Record → ℕ
  | .settled share index => if inside share.id then share.accrued index / scale else 0
  | _ => 0

/-- Whether the record is a claim of the position with a nonzero index delta. -/
def Record.settledClaim : Record → ℕ
  | .settled share index => if inside share.id ∧ share.yieldClaimedIndex < index then 1 else 0
  | _ => 0

/-- The exact rational share of the position in a distribution. -/
def Record.eager : Record → ℚ
  | .advanced funds before =>
    LazyIndex.exactShare funds (before.heldUnits inside) before.acc.unwrapped
  | _ => 0

/-- What the floor of the index can keep back in a distribution. -/
def Record.slack : Record → ℚ
  | .advanced _ before => (before.heldUnits inside : ℚ) / scale
  | _ => 0

/-- All USDC that calls returned to the position. -/
def paid (payouts : List Payout) : ℕ := (payouts.map (Payout.paid inside)).sum

/-- What the claims of the position round down to. -/
def floored (h : List Record) : ℕ := (h.map (Record.floored inside)).sum

/-- The number of claims of the position with a nonzero index delta. -/
def settledClaims (h : List Record) : ℕ := (h.map (Record.settledClaim inside)).sum

/-- What an eager ledger would have paid the position. -/
def eager (h : List Record) : ℚ := (h.map (Record.eager inside)).sum

/-- What the floors of the index can have kept back. -/
def slack (h : List Record) : ℚ := (h.map (Record.slack inside)).sum

/-- No object of the position hands units to an object outside it, or takes any. -/
def Closed (h : List Record) : Prop := ∀ src dst, .moved src dst ∈ h → inside src = inside dst

/-! ## The scaled books -/

/-- What is accrued on the units a deed holds for the position. -/
def GallyShare.heldAccrued (index : ℕ) (share : GallyShare) : ℕ :=
  LazyIndex.accrued (GallyShare.held inside) GallyShare.yieldClaimedIndex index share

/-- The scaled entitlements of the position. -/
def Engine.heldOwed (e : Engine) : ℕ :=
  e.shares.sum (GallyShare.heldAccrued inside e.acc.cumulativeYieldIndex)

/-- What a claim of the position rounded away, scaled. -/
def Record.residue : Record → ℕ
  | .settled share index => if inside share.id then share.accrued index % scale else 0
  | _ => 0

/-- What an advance credited to the position, scaled. -/
def Record.credited : Record → ℕ
  | .advanced funds before => before.acc.increment funds * before.heldUnits inside
  | _ => 0

/-- All that claims of the position rounded away, scaled. -/
def residue (h : List Record) : ℕ := (h.map (Record.residue inside)).sum

/-- All that advances credited to the position, scaled. -/
def credited (h : List Record) : ℕ := (h.map (Record.credited inside)).sum

/-- The scaled books are exact: what was credited was claimed, rounded away, or is still
    owed. -/
def Engine.Booked (e : Engine) (h : List Record) : Prop :=
  scale * floored inside h + residue inside h + e.heldOwed inside = credited inside h

end Position

variable {inside : ID → Bool} {e e' : Engine} {h h' : List Record}

theorem paid_append {ps ps' : List Payout} :
    paid inside (ps ++ ps') = paid inside ps + paid inside ps' := by
  simp [paid]

theorem floored_append : floored inside (h ++ h') = floored inside h + floored inside h' := by
  simp [floored]

theorem residue_append : residue inside (h ++ h') = residue inside h + residue inside h' := by
  simp [residue]

theorem credited_append : credited inside (h ++ h') = credited inside h + credited inside h' := by
  simp [credited]

/-- A colouring that a history respects is respected by its first part. -/
theorem Closed.left (hc : Closed inside (h ++ h')) : Closed inside h :=
  fun src dst hm => hc src dst (List.mem_append_left _ hm)

/-- A colouring that a history respects is respected by its second part. -/
theorem Closed.right (hc : Closed inside (h ++ h')) : Closed inside h' :=
  fun src dst hm => hc src dst (List.mem_append_right _ hm)

/-- Held units accrue if the deed is in the position, and nothing else does. -/
theorem GallyShare.heldAccrued_eq (share : GallyShare) (index : ℕ) :
    share.heldAccrued inside index = if inside share.id then share.accrued index else 0 := by
  unfold GallyShare.heldAccrued LazyIndex.accrued GallyShare.held GallyShare.accrued
  split <;> simp

/-- A settled deed has nothing accrued for the position. -/
theorem heldAccrued_eq_zero {share : GallyShare} {index : ℕ}
    (hs : share.yieldClaimedIndex = index) : share.heldAccrued inside index = 0 :=
  LazyIndex.accrued_eq_zero _ _ (Nat.le_of_eq hs.symm)

/-- What a move of units leaves makes no entry. -/
theorem moved_quiet {src dst : ID} : floored inside [.moved src dst] = 0 ∧
    residue inside [.moved src dst] = 0 ∧ credited inside [.moved src dst] = 0 := by
  simp [floored, residue, credited, Record.floored, Record.residue, Record.credited]

/-- A claim pays the quotient of what the deed has accrued and rounds the remainder away. -/
theorem settled_split (share : GallyShare) (index : ℕ) :
    scale * floored inside [.settled share index] + residue inside [.settled share index] =
      share.heldAccrued inside index := by
  rw [GallyShare.heldAccrued_eq]
  by_cases hin : inside share.id
  · simp [floored, residue, Record.floored, Record.residue, hin, Nat.div_add_mod]
  · simp [floored, residue, Record.floored, Record.residue, hin]

/-- Two parts of a deed on its side of the position share what it has accrued. -/
theorem heldAccrued_parts (index : ℕ) {share : GallyShare} {amount : ℕ} {newId : ID}
    (hsame : inside share.id = inside newId) (hle : amount ≤ share.shareCount) :
    GallyShare.heldAccrued inside index
        { share with shareCount := share.shareCount - amount } +
      GallyShare.heldAccrued inside index { share with id := newId, shareCount := amount } =
    share.heldAccrued inside index := by
  simp only [GallyShare.heldAccrued_eq, GallyShare.accrued, ← hsame]
  by_cases hin : inside share.id
  · simp only [hin, if_true]
    rw [← Nat.mul_add, Nat.sub_add_cancel hle]
  · simp [hin]

/-- The books of one move balance: what it credits is claimed, rounded away or owed. -/
theorem Move.booked (hb : e.Balanced) (hc : Closed inside h) (m : Move e h e') :
    scale * floored inside h + residue inside h + e'.heldOwed inside =
      e.heldOwed inside + credited inside h := by
  -- only claims and advances make entries; every other move keeps what is owed
  have hnone : floored inside [] = 0 ∧ residue inside [] = 0 ∧ credited inside [] = 0 := by
    simp [floored, residue, credited]
  cases m with
  | @convert receipt newId now hr hbel hfresh =>
    have hput := Store.sum_put_of_fresh
      (x := receipt.deed newId e.acc.cumulativeYieldIndex now) hfresh
      (GallyShare.heldAccrued inside e.acc.cumulativeYieldIndex)
    -- the new deed starts at the current index
    have hzero : (receipt.deed newId e.acc.cumulativeYieldIndex now).heldAccrued inside
        e.acc.cumulativeYieldIndex = 0 := heldAccrued_eq_zero rfl
    simp only [hnone, Engine.heldOwed, hput, hzero]
    omega
  | @rebook acc hacc =>
    simp only [hnone, Engine.heldOwed, hacc.index]
    omega
  | @settle share hk hg =>
    have hput := Store.sum_put_of_get?
      (x := share.settledAt e.acc.cumulativeYieldIndex) hk
      (GallyShare.heldAccrued inside e.acc.cumulativeYieldIndex)
    have hzero : (share.settledAt e.acc.cumulativeYieldIndex).heldAccrued inside
        e.acc.cumulativeYieldIndex = 0 := heldAccrued_eq_zero rfl
    have howed : (e.settle share).heldOwed inside =
        (e.shares.put (share.settledAt e.acc.cumulativeYieldIndex)).sum
          (GallyShare.heldAccrued inside e.acc.cumulativeYieldIndex) := rfl
    have hcred : credited inside [.settled share e.acc.cumulativeYieldIndex] = 0 := by
      simp [credited, Record.credited]
    rw [hzero] at hput
    rw [settled_split, howed, hcred]
    simp only [Engine.heldOwed] at hput ⊢
    omega
  | @advance funds hg =>
    -- each held unit accrues the increment of the index
    have howed : Engine.heldOwed inside { e with acc := e.acc.afterAdvance funds } =
        e.heldOwed inside + e.acc.increment funds * e.heldUnits inside :=
      LazyIndex.owed_advance (GallyShare.held inside) GallyShare.yieldClaimedIndex hb.snapshots
        (e.acc.increment funds)
    rw [howed]
    simp [floored, residue, credited, Record.floored, Record.residue, Record.credited]
  | @split share amount newId hk hfresh hpos hlt =>
    have hsame : inside share.id = inside newId := hc _ _ (by simp)
    have hne : newId ≠ share.id := by
      rintro rfl
      simp [hk] at hfresh
    have hparent := Store.sum_put_of_get?
      (x := { share with shareCount := share.shareCount - amount }) hk
      (GallyShare.heldAccrued inside e.acc.cumulativeYieldIndex)
    have hchild := Store.sum_put_of_fresh
      (s := e.shares.put { share with shareCount := share.shareCount - amount })
      (x := { share with id := newId, shareCount := amount })
      ((Store.get?_put_ne hne.symm).trans hfresh)
      (GallyShare.heldAccrued inside e.acc.cumulativeYieldIndex)
    -- parent and child are on the same side, so the entitlement is divided within it
    have hdiv := heldAccrued_parts e.acc.cumulativeYieldIndex hsame (Nat.le_of_lt hlt)
    simp only [moved_quiet, Engine.heldOwed]
    omega
  | @join target victim acquired ht hv hne hst hsv =>
    have ht' : (e.shares.delete victim.id).get? target.id = some target := by
      rw [Store.get?_delete_ne hne, ht]
    have hdel := Store.sum_delete_of_get? hv
      (GallyShare.heldAccrued inside e.acc.cumulativeYieldIndex)
    have hput := Store.sum_put_of_get? (x := { target with
      shareCount := target.shareCount + victim.shareCount, acquiredAtMs := acquired }) ht'
      (GallyShare.heldAccrued inside e.acc.cumulativeYieldIndex)
    -- the merged deed carries the index of its claims
    have hzero : GallyShare.heldAccrued inside e.acc.cumulativeYieldIndex { target with
        shareCount := target.shareCount + victim.shareCount, acquiredAtMs := acquired } = 0 :=
      heldAccrued_eq_zero hst
    rw [heldAccrued_eq_zero hst, hzero] at hput
    rw [heldAccrued_eq_zero hsv] at hdel
    simp only [moved_quiet, Engine.heldOwed]
    omega
  | @wrap share newId hk hfresh hset =>
    have hdel := Store.sum_delete_of_get? hk
      (GallyShare.heldAccrued inside e.acc.cumulativeYieldIndex)
    rw [heldAccrued_eq_zero hset, Nat.zero_add] at hdel
    simp only [moved_quiet, Engine.heldOwed, hdel]
    omega
  | @unwrap coin newId now hk hfresh hsup hw =>
    have hput := Store.sum_put_of_fresh (x := e.acc.freshShare newId coin.value now) hfresh
      (GallyShare.heldAccrued inside e.acc.cumulativeYieldIndex)
    have hzero : (e.acc.freshShare newId coin.value now).heldAccrued inside
        e.acc.cumulativeYieldIndex = 0 := heldAccrued_eq_zero rfl
    simp only [moved_quiet, Engine.heldOwed, GlobalYieldAccumulator.afterBurn, hput, hzero]
    omega
  | @burn share hk hset hm =>
    have hdel := Store.sum_delete_of_get? hk
      (GallyShare.heldAccrued inside e.acc.cumulativeYieldIndex)
    rw [heldAccrued_eq_zero hset, Nat.zero_add] at hdel
    simp only [hnone, Engine.heldOwed, hdel]
    omega
  | sweepDust => simp only [hnone, Engine.heldOwed]; omega
  | zeroCoin => simp only [hnone, Engine.heldOwed]; omega
  | destroyZero => simp only [hnone, Engine.heldOwed]; omega
  | splitCoin => simp only [moved_quiet, Engine.heldOwed]; omega
  | joinCoins => simp only [moved_quiet, Engine.heldOwed]; omega

/-- The scaled books stay exact along moves. -/
theorem Moves.booked (m : Moves e h e') (hb : e.Balanced) (h0 : e.heldOwed inside = 0)
    (hc : Closed inside h) : e'.Booked inside h := by
  induction m with
  | refl =>
    -- no deed is held yet, so nothing is owed to the position
    simpa [Engine.Booked, floored, residue, credited] using h0
  | tail init last ih =>
    -- what the history adds and what the last move adds, in one equation
    have hbooked := ih hc.left
    have hlast := last.booked (init.preserves Engine.Balanced.move hb) hc.right
    unfold Engine.Booked at hbooked ⊢
    rw [floored_append, residue_append, credited_append, Nat.mul_add]
    omega

/-! ## What the calls return -/

/-- The coins an operation returns are the floors of its claims. A merge returns one coin for
    two claims, so the position has to hold both deeds or none. -/
theorem apply_paid {op : EngineOp} {payouts : List Payout}
    (happly : e.apply op = .ok (e', payouts)) (hc : Closed inside (e.records op)) :
    paid inside payouts = floored inside (e.records op) := by
  have hroute : ∀ (e : Engine) (funds : ℕ), floored inside (e.routeRecord funds) = 0 := by
    intro e funds
    unfold Engine.routeRecord
    split <;> rfl
  -- a claim on a deed records the floor of the deed's entitlement
  have hclaim : ∀ {k : ID} {share : GallyShare}, e.shares.get? k = some share →
      floored inside (e.claimRecord k) = if inside k then e.acc.payout share else 0 := by
    intro k share hk
    obtain rfl : share.id = k := Store.key_of_get? hk
    rw [Engine.claimRecord, hk]
    simp [floored, Record.floored, GlobalYieldAccumulator.payout,
      GlobalYieldAccumulator.entitlement_eq]
  cases Engine.apply_eq_ok.mp happly with
  | claimRewards hs =>
    rw [Engine.records, hclaim hs]
    simp [paid, Payout.paid]
  | @mergeShares t v sender target victim ht hv =>
    have hsame : inside v = inside t := hc v t (by simp [Engine.records])
    rw [Engine.records, floored_append, floored_append, hclaim ht, hclaim hv, hsame]
    by_cases hin : inside t
    · simp [paid, Payout.paid, floored, Record.floored, hin]
    · simp [paid, Payout.paid, floored, Record.floored, hin]
  | wrapShares hs =>
    rw [Engine.records, floored_append, hclaim hs]
    simp [paid, Payout.paid, floored, Record.floored]
  | redeemShare hs =>
    rw [Engine.records, hclaim hs]
    simp [paid, Payout.paid]
  -- the other calls return nothing, and their records are no claims
  | addRevenue => exact (hroute _ _).symm
  | sweepCompensation => exact (hroute _ _).symm
  | unwrapCoins hk =>
    simp only [Engine.records, hk, Engine.sweepRecord]
    split <;> rfl
  | _ => rfl

/-- The coins a run returned are the floors of its claims. -/
theorem run_paid {ops : List EngineOp} (hrun : e.run ops = .ok e')
    (hc : Closed inside (e.history ops)) :
    paid inside (e.returned ops) = floored inside (e.history ops) := by
  induction ops generalizing e with
  | nil => rfl
  -- each operation pays what the records of its own step say
  | cons op ops ih =>
    obtain ⟨e₁, hop, hops⟩ := Run.exec_cons_eq_ok.mp hrun
    obtain ⟨payouts, happly⟩ := Engine.step_eq_ok.mp hop
    rw [Engine.history, hop] at hc
    rw [Engine.history, Engine.returned, hop, happly]
    simp only [paid_append, floored_append]
    rw [apply_paid happly hc.left, ih hops hc.right]

/-! ## Rounding -/

/-- The scale is positive, as a rational. -/
theorem scale_pos_rat : (0 : ℚ) < scale := by exact_mod_cast scale_pos

/-- Every claim with a nonzero delta rounds less than one raw unit away; the others
    round nothing away. -/
theorem residue_add_le (inside : ID → Bool) (h : List Record) :
    residue inside h + settledClaims inside h ≤ scale * settledClaims inside h := by
  induction h with
  | nil => simp [residue, settledClaims]
  | cons r h ih =>
    have hr : r.residue inside + r.settledClaim inside ≤ scale * r.settledClaim inside := by
      -- only the claim of a deed of the position leaves a residue, less than one scaled unit
      cases r with
      | settled share index =>
        have hlt : share.accrued index % scale < scale := Nat.mod_lt _ scale_pos
        by_cases hin : inside share.id
        · by_cases hidx : share.yieldClaimedIndex < index
          · simp only [Record.residue, Record.settledClaim, hin, hidx, and_self, if_true]
            omega
          · have hzero : share.accrued index = 0 := by
              -- a deed at the index has accrued nothing
              rw [GallyShare.accrued, Nat.sub_eq_zero_of_le (Nat.not_lt.mp hidx), Nat.zero_mul]
            simp [Record.residue, Record.settledClaim, hidx, hzero]
        · simp [Record.residue, Record.settledClaim, hin]
      | advanced => simp [Record.residue, Record.settledClaim]
      | moved => simp [Record.residue, Record.settledClaim]
    simp only [residue, settledClaims, List.map_cons, List.sum_cons, Nat.mul_add] at ih ⊢
    omega

/-- An advance divides by a positive supply. -/
def Divides (h : List Record) : Prop :=
  ∀ funds before, .advanced funds before ∈ h → 0 < before.acc.unwrapped

/-- A history of moves only advances with something unwrapped. -/
theorem Moves.divides (m : Moves e h e') : Divides h := by
  induction m with
  | refl => simp [Divides]
  | tail init last ih =>
    intro funds before hm
    rcases List.mem_append.mp hm with hm | hm
    · exact ih funds before hm
    · cases last with
      | advance hg =>
        obtain ⟨-, rfl⟩ := Record.advanced.inj (List.mem_singleton.mp hm)
        exact Nat.pos_of_ne_zero hg.unwrapped
      | _ => simp at hm

/-- The slack of a record is not negative. -/
theorem slack_nonneg (inside : ID → Bool) (r : Record) : 0 ≤ r.slack inside := by
  cases r with
  | advanced => exact div_nonneg (Nat.cast_nonneg _) scale_pos_rat.le
  | settled => exact le_refl _
  | moved => exact le_refl _

/-- One distribution credits at most the exact share, and less than `held` scaled units
    below it. -/
theorem Record.credited_bounds (inside : ID → Bool) (r : Record) (hd : Divides [r]) :
    (r.credited inside : ℚ) ≤ scale * r.eager inside ∧
    scale * r.eager inside ≤ r.credited inside + scale * r.slack inside ∧
    (0 < r.slack inside →
      scale * r.eager inside < r.credited inside + scale * r.slack inside) := by
  cases r with
  | advanced funds before =>
    have hu : 0 < before.acc.unwrapped := hd funds before (by simp)
    -- the slack is one scaled unit per held unit, so the scale cancels
    have hcancel : (scale : ℚ) * ((before.heldUnits inside : ℚ) / scale) =
        before.heldUnits inside := by
      rw [mul_div_cancel₀ _ scale_pos_rat.ne']
    simp only [Record.credited, Record.eager, Record.slack, hcancel]
    refine ⟨LazyIndex.increment_mul_le_exact hu, ?_⟩
    -- without held units both sides are zero
    rcases Nat.eq_zero_or_pos (before.heldUnits inside) with h0 | hpos
    · simp [h0, LazyIndex.exactShare_zero]
    · have hlt : _ < ((before.acc.increment funds * before.heldUnits inside : ℕ) : ℚ) + _ :=
        LazyIndex.exact_lt_increment_mul_add hu hpos
      exact ⟨hlt.le, fun _ => hlt⟩
  | settled => simp [Record.credited, Record.eager, Record.slack]
  | moved => simp [Record.credited, Record.eager, Record.slack]

/-- The same bounds for a whole history. -/
theorem credited_bounds (inside : ID → Bool) (hd : Divides h) :
    (credited inside h : ℚ) ≤ scale * eager inside h ∧
    scale * eager inside h ≤ credited inside h + scale * slack inside h ∧
    0 ≤ slack inside h ∧
    (0 < slack inside h →
      scale * eager inside h < credited inside h + scale * slack inside h) := by
  induction h with
  | nil => simp [credited, eager, slack]
  | cons r h ih =>
    obtain ⟨hle, hge, hnn, hlt⟩ := ih fun f b hm => hd f b (List.mem_cons_of_mem _ hm)
    obtain ⟨hle', hge', hlt'⟩ := r.credited_bounds inside
      fun f b hm => hd f b (by simp_all)
    have hnn' := slack_nonneg inside r
    simp only [credited, eager, slack, List.map_cons, List.sum_cons, Nat.cast_add, mul_add]
      at hle hge hnn hlt ⊢
    refine ⟨by linarith, by linarith, by linarith, fun hpos => ?_⟩
    -- the strict bound needs one record that is strict: the first one or one of the rest
    rcases hnn'.eq_or_lt with h0 | h0
    · have := hlt (by linarith)
      linarith
    · have := hlt' h0
      linarith

/-- The pending payouts round less than one raw unit away for each live deed. -/
theorem pending_bounds (inside : ID → Bool) (e : Engine) :
    scale * e.pending inside ≤ e.heldOwed inside ∧ e.heldOwed inside + e.liveDeeds inside ≤
      scale * e.pending inside + scale * e.liveDeeds inside := by
  -- deed by deed, the floor loses less than one unit
  have hpoint : ∀ s : GallyShare,
      scale * (if inside s.id then e.acc.payout s else 0) ≤
        s.heldAccrued inside e.acc.cumulativeYieldIndex ∧
      s.heldAccrued inside e.acc.cumulativeYieldIndex + (if inside s.id then 1 else 0) ≤
        scale * (if inside s.id then e.acc.payout s else 0) +
          scale * (if inside s.id then 1 else 0) := by
    intro s
    rw [GallyShare.heldAccrued_eq]
    by_cases hin : inside s.id
    · simp only [hin, if_true, Nat.mul_one, GlobalYieldAccumulator.payout,
        GlobalYieldAccumulator.entitlement_eq]
      have hdiv := Nat.div_add_mod (s.accrued e.acc.cumulativeYieldIndex) scale
      have hmod := Nat.mod_lt (s.accrued e.acc.cumulativeYieldIndex) scale_pos
      omega
    · simp [hin]
  constructor
  · rw [Engine.pending, ← Store.sum_mul_left]
    exact Store.sum_le_sum fun s _ => (hpoint s).1
  · rw [Engine.pending, Engine.liveDeeds, Engine.heldOwed, ← Store.sum_mul_left,
      ← Store.sum_mul_left, ← Store.sum_add, ← Store.sum_add]
    exact Store.sum_le_sum fun s _ => (hpoint s).2

/-! ## The two sides of the refinement -/

/-- What the eager ledger is ahead of the payments and the pending payouts. -/
def shortfall (inside : ID → Bool) (e : Engine) (h : List Record) (payouts : List Payout) : ℚ :=
  eager inside h - (paid inside payouts + e.pending inside : ℕ)

/-- The most the lazy index can keep back. -/
def shortfallBound (inside : ID → Bool) (e : Engine) (h : List Record) : ℚ :=
  (settledClaims inside h + e.liveDeeds inside : ℕ) + slack inside h

/-- Exact scaled books and the rounding bounds give both sides. -/
theorem Engine.Booked.refines (hb : e.Booked inside h) (hd : Divides h) {payouts : List Payout}
    (hpaid : paid inside payouts = floored inside h) :
    0 ≤ shortfall inside e h payouts ∧
    shortfall inside e h payouts ≤ shortfallBound inside e h ∧
    (0 < shortfallBound inside e h →
      shortfall inside e h payouts < shortfallBound inside e h) := by
  obtain ⟨hle, hge, hnn, hlt⟩ := credited_bounds inside hd
  obtain ⟨hplo, hphi⟩ := pending_bounds inside e
  have hres := residue_add_le inside h
  -- in natural numbers: what was credited lies between the floors
  have hlo : scale * (floored inside h + e.pending inside) ≤ credited inside h := by
    rw [← hb, Nat.mul_add]
    omega
  have hhi : credited inside h + (settledClaims inside h + e.liveDeeds inside) ≤
      scale * (floored inside h + e.pending inside) +
        scale * (settledClaims inside h + e.liveDeeds inside) := by
    rw [← hb, Nat.mul_add, Nat.mul_add]
    omega
  have hs := scale_pos_rat
  have hloQ : (scale : ℚ) * (floored inside h + e.pending inside : ℕ) ≤ credited inside h := by
    exact_mod_cast hlo
  have hhiQ : (credited inside h : ℚ) + (settledClaims inside h + e.liveDeeds inside : ℕ) ≤
      scale * (floored inside h + e.pending inside : ℕ) +
        scale * (settledClaims inside h + e.liveDeeds inside : ℕ) := by
    exact_mod_cast hhi
  have hcount : (0 : ℚ) ≤ (settledClaims inside h + e.liveDeeds inside : ℕ) := Nat.cast_nonneg _
  simp only [shortfall, shortfallBound, hpaid]
  refine ⟨?_, ?_, fun hpos => ?_⟩
  · have := le_of_mul_le_mul_left (hloQ.trans hle) hs
    linarith
  · have hmul : (scale : ℚ) * eager inside h ≤ scale * ((floored inside h + e.pending inside : ℕ) +
        ((settledClaims inside h + e.liveDeeds inside : ℕ) + slack inside h)) := by
      rw [mul_add, mul_add]
      linarith
    have := le_of_mul_le_mul_left hmul hs
    linarith
  · have hmul : (scale : ℚ) * eager inside h < scale * ((floored inside h + e.pending inside : ℕ) +
        ((settledClaims inside h + e.liveDeeds inside : ℕ) + slack inside h)) := by
      rw [mul_add, mul_add]
      rcases hnn.eq_or_lt with h0 | h0
      · -- without slack some claim or live deed rounds
        have : (0 : ℚ) < (settledClaims inside h + e.liveDeeds inside : ℕ) := by linarith
        linarith
      · have := hlt h0
        linarith
    have := lt_of_mul_lt_mul_left hmul hs.le
    linarith

end Gally

import Gally.Engine.Basic

/-!
# Operations are sequences of moves

`apply_moves` turns every step of the engine into moves, with the records
`Engine.records` promises; `run_moves` does the same for a run.
-/

namespace Gally

open Checked

namespace Moves

variable {e e' : Engine}

/-- Replacing the accumulator by one that is only rebooked. -/
theorem rebook {acc : GlobalYieldAccumulator} (h : e.acc.Rebooked acc) :
    Moves e [] { e with acc } :=
  single (.rebook h)

/-- Inflows are parked or advance the index. -/
theorem routed {funds : ℕ} {acc : GlobalYieldAccumulator} (h : Routed e.acc funds acc) :
    Moves e (e.routeRecord funds) { e with acc } := by
  rcases h with ⟨h0, -, rfl⟩ | ⟨h0, hg, rfl⟩
  · rw [Engine.routeRecord, if_pos h0]
    exact rebook ⟨⟨rfl, rfl, rfl, rfl, rfl⟩, rfl, rfl, rfl⟩
  · rw [Engine.routeRecord, if_neg h0]
    exact single (.advance hg)

/-- A sweep takes the reserve out and advances the index by it. -/
theorem swept {acc : GlobalYieldAccumulator} {events : List Event}
    (h : sweepRolloverInternal e.acc = .ok (acc, events)) :
    Moves e [.advanced e.acc.rolloverReserve e.drained] { e with acc } := by
  obtain ⟨hg, rfl, -⟩ := sweepRolloverInternal_eq_ok.mp h
  have hdrain : Moves e [] e.drained := rebook ⟨⟨rfl, rfl, rfl, rfl, rfl⟩, rfl, rfl, rfl⟩
  exact hdrain.trans (single (.advance (advanceGuards_drained.mpr hg)))

/-- The sweep after an unwrap is a sequence of moves, with the records promised for a sweep. -/
theorem autoSwept {acc : GlobalYieldAccumulator} {events : List Event}
    (h : AutoSwept e.acc acc events) : Moves e e.sweepRecord { e with acc } := by
  rcases h with ⟨hc, hs⟩ | ⟨hc, rfl, -⟩
  · rw [Engine.sweepRecord, if_pos hc]
    exact swept hs
  · rw [Engine.sweepRecord, if_neg hc]
    exact refl e

/-- A claim settles the deed it is made on. -/
theorem settled {share : GallyShare} (hk : e.shares.get? share.id = some share)
    (hg : ClaimGuards e.acc share) : Moves e (e.claimRecord share.id) (e.settle share) := by
  rw [Engine.claimRecord, hk]
  exact single (.settle hk hg)

end Moves

section Apply

variable {e e' : Engine} {payouts : List Payout}

/-- A merge settles both deeds and joins them. -/
theorem mergeShares_moves {target victim : GallyShare}
    (ht : e.shares.get? target.id = some target) (hv : e.shares.get? victim.id = some victim)
    (hne : target.id ≠ victim.id) (guards : MergeGuards e.acc target victim) :
    Moves e (e.claimRecord target.id ++ e.claimRecord victim.id ++
      [.moved victim.id target.id]) { e with
        acc := (e.acc.afterClaim target).afterClaim victim
        shares := (e.shares.delete victim.id).put
          (target.mergedWith victim e.acc.cumulativeYieldIndex) } := by
  -- the victim is still there after the claim on the target
  have hv' : (e.settle target).shares.get? victim.id = some victim := by
    rw [Engine.settle, Store.get?_put_ne hne, hv]
  have ht' : ((e.settle target).settle victim).shares.get? target.id =
      some (target.settledAt e.acc.cumulativeYieldIndex) := by
    rw [Engine.settle, Store.get?_put_ne hne.symm]
    exact Store.get?_put_self _ _
  have hrec : (e.settle target).claimRecord victim.id = e.claimRecord victim.id := by
    simp only [Engine.claimRecord, hv', hv]
    rfl
  have hclaims := (Moves.settled ht guards.claim).trans (Moves.settled hv' guards.claim')
  have hjoin := hclaims.tail (@Move.join _ (target.settledAt e.acc.cumulativeYieldIndex)
    (victim.settledAt e.acc.cumulativeYieldIndex) (max target.acquiredAtMs victim.acquiredAtMs)
    ht' (Store.get?_put_self _ _) hne rfl rfl)
  have hstore : (((e.settle target).settle victim).shares.delete victim.id).put
      (target.mergedWith victim e.acc.cumulativeYieldIndex) =
      (e.shares.delete victim.id).put (target.mergedWith victim e.acc.cumulativeYieldIndex) := by
    have hv'' : (((e.settle target).settle victim).shares.delete victim.id) =
        (e.settle target).shares.delete victim.id := Store.delete_put_self _ _
    rw [hv'', Engine.settle, Store.delete_put_ne hne]
    exact Store.put_put_self rfl
  rw [hrec] at hjoin
  rw [← hstore]
  exact hjoin

/-- A wrap settles the deed and turns it into a coin. -/
theorem wrapShares_moves {share : GallyShare} {newId : ID}
    (hs : e.shares.get? share.id = some share) (hfresh : e.coins.get? newId = none)
    (hclaim : ClaimGuards e.acc share) :
    Moves e (e.claimRecord share.id ++ [.moved share.id newId]) { e with
      acc := e.acc.afterWrap share
      shares := e.shares.delete share.id
      coins := e.coins.put ⟨newId, e.acc.treasuryCap.token, share.shareCount⟩ } := by
  -- the deed that is wrapped is the settled one
  have hwrap := (Moves.settled hs hclaim).tail (@Move.wrap (e.settle share)
    (share.settledAt e.acc.cumulativeYieldIndex) newId (Store.get?_put_self _ _) hfresh rfl)
  have hstore : (e.settle share).shares.delete share.id = e.shares.delete share.id :=
    Store.delete_put_self _ _
  rw [← hstore]
  exact hwrap

/-- A redemption settles the deed and burns it. -/
theorem redeemShare_moves {share : GallyShare} (hs : e.shares.get? share.id = some share)
    (guards : RedeemGuards e.acc share) :
    Moves e (e.claimRecord share.id) { e with
      acc := e.acc.afterRedeem share
      shares := e.shares.delete share.id } := by
  -- the deed that is burned is the settled one
  have hburn := (Moves.settled hs guards.claim).tail (@Move.burn (e.settle share)
    (share.settledAt e.acc.cumulativeYieldIndex) (Store.get?_put_self _ _) rfl guards.minted)
  have hstore : (e.settle share).shares.delete share.id = e.shares.delete share.id :=
    Store.delete_put_self _ _
  rw [List.append_nil] at hburn
  rw [← hstore]
  exact hburn

/-- A sweep of compensation takes the pool, routes it and lifts the freeze; only the routing is
    an entry. -/
theorem sweepCompensation_moves {routed : GlobalYieldAccumulator}
    (route : Routed { e.acc with compensationPool := 0 } e.acc.compensationPool routed) :
    Moves e (({ e with acc := { e.acc with compensationPool := 0 } } : Engine).routeRecord
      e.acc.compensationPool) { e with acc := { routed with wrappingFrozen := false } } := by
  have htake : Moves e [] { e with acc := { e.acc with compensationPool := 0 } } :=
    .rebook ⟨⟨rfl, rfl, rfl, rfl, rfl⟩, rfl, rfl, rfl⟩
  have hroute := htake.trans (Moves.routed (e := { e with acc := { e.acc with
    compensationPool := 0 } }) route)
  have hfreeze : Moves { e with acc := routed } []
      { e with acc := { routed with wrappingFrozen := false } } :=
    .rebook ⟨⟨rfl, rfl, rfl, rfl, rfl⟩, rfl, rfl, rfl⟩
  have hall := hroute.trans hfreeze
  rw [List.nil_append, List.append_nil] at hall
  exact hall

/-- Every operation is the sequence of moves its records tell. -/
theorem apply_moves {op : EngineOp} (h : e.apply op = .ok (e', payouts)) :
    Moves e (e.records op) e' := by
  cases Engine.apply_eq_ok.mp h with
  | claimShares hr belongs fresh =>
    obtain rfl := Store.key_of_get? hr
    exact .single (.convert hr belongs fresh)
  | @addRevenue funds acc deposited =>
    -- the lifetime counter first, then the funds
    have hbook : Moves e [] { e with acc := e.acc.counted funds } :=
      .rebook ⟨⟨rfl, rfl, rfl, rfl, rfl⟩, rfl, rfl, rfl⟩
    exact hbook.trans (Moves.routed (e := { e with acc := e.acc.counted funds })
      deposited.routed)
  | addToCompensationPool => exact .rebook ⟨⟨rfl, rfl, rfl, rfl, rfl⟩, rfl, rfl, rfl⟩
  | markClosed => exact .rebook ⟨⟨rfl, rfl, rfl, rfl, rfl⟩, rfl, rfl, rfl⟩
  | claimRewards hs guards =>
    obtain rfl := Store.key_of_get? hs
    exact .settled hs guards
  | splitShare hs fresh positive less =>
    obtain rfl := Store.key_of_get? hs
    exact .single (.split hs fresh positive less)
  | mergeShares ht hv distinct guards =>
    obtain rfl := Store.key_of_get? ht
    obtain rfl := Store.key_of_get? hv
    exact mergeShares_moves ht hv distinct guards
  | wrapShares hs fresh guards =>
    obtain rfl := Store.key_of_get? hs
    exact wrapShares_moves hs fresh guards.claim
  | @unwrapCoins k newId now sender coin acc swept hk fresh guards sweep =>
    obtain rfl : coin.id = k := Store.key_of_get? hk
    -- the coin becomes a deed, then the reserve may be swept
    have hunwrap : Moves e [.moved coin.id newId] (e.unwrapped coin newId now) :=
      .single (.unwrap hk fresh guards.supply guards.wrapped)
    have hall := hunwrap.trans (Moves.autoSwept (e := e.unwrapped coin newId now) sweep)
    simp only [Engine.records, hk]
    exact hall
  | redeemShare hs guards =>
    obtain rfl := Store.key_of_get? hs
    exact redeemShare_moves hs guards
  | sweepRollover _ guards => exact .swept (sweepRolloverInternal_eq_ok.mpr ⟨guards, rfl, rfl⟩)
  | sweepCompensation _ _ _ route => exact sweepCompensation_moves route
  | adminSweepDust guards => exact .single (.sweepDust guards.minted)
  | zeroCoin fresh => exact .single (.zeroCoin fresh rfl)
  | destroyZero hk zero =>
    obtain rfl := Store.key_of_get? hk
    exact .single (.destroyZero hk zero)
  | splitCoin hk fresh le =>
    obtain rfl := Store.key_of_get? hk
    exact .single (.splitCoin hk fresh le)
  | joinCoins hk hj distinct =>
    obtain rfl := Store.key_of_get? hk
    obtain rfl := Store.key_of_get? hj
    exact .single (.joinCoins hk hj distinct)

/-- A run is the sequence of moves its history tells. -/
theorem run_moves {ops : List EngineOp} (h : e.run ops = .ok e') : Moves e (e.history ops) e' := by
  -- on the operations; the records of the run are those of its steps in order
  induction ops generalizing e with
  | nil =>
    obtain rfl := Run.exec_nil_eq_ok.mp h
    exact .refl e
  | cons op ops ih =>
    obtain ⟨e₁, hop, hops⟩ := Run.exec_cons_eq_ok.mp h
    obtain ⟨_, happly⟩ := Engine.step_eq_ok.mp hop
    rw [Engine.history, hop]
    exact (apply_moves happly).trans (ih hops)

/-- What every move preserves, every run preserves. -/
theorem run_preserves {P : Engine → Prop} (hmove : ∀ {e h e'}, P e → Move e h e' → P e')
    {ops : List EngineOp} (he : P e) (h : e.run ops = .ok e') : P e' :=
  (run_moves h).preserves hmove he

end Apply

end Gally

import Gally.Chain.History
import Gally.Law.Yield
import Mathlib.Data.Multiset.AddSub
import Mathlib.Data.Multiset.Replicate

/-!
# The wrap cooldown

A deed carries one timestamp, but its units may have entered deed form at different times. The
history of this module dates every unit: a conversion and an unwrap date theirs with the clock,
a split hands on any part of the dates, a merge joins them, and a wrap or a redemption ends them.

## Key results

- `World.Traced.dated`: no unit of a deed entered after the timestamp of the deed
- `cooldown_kept`: a wrap moves only units that sat out the cooldown in deed form
-/

namespace Gally

open Checked

/-- When the units of each deed last entered deed form. -/
abbrev EntryTimes := ID → Multiset ℕ

/-- What a call makes of the dates. A split may divide them in any way. -/
def World.MovesUnits (w : World) (c : Call) (E E' : EntryTimes) : Prop :=
  match c with
  | .asset (.claimShares _ _ r) => ∀ receipt, w.receipts.get? r = some receipt →
    E' = Function.update E w.nextId (Multiset.replicate receipt.amount w.clockMs)
  | .accumulator (.unwrapCoins _ k) => ∀ coin, w.coins.get? k = some coin →
    E' = Function.update E w.nextId (Multiset.replicate coin.value w.clockMs)
  | .accumulator (.splitShare s amount) => ∃ kept moved, E s = kept + moved ∧
    moved.card = amount.val ∧
    E' = Function.update (Function.update E s kept) w.nextId moved
  | .accumulator (.mergeShares _ t v) =>
    E' = Function.update (Function.update E t (E t + E v)) v 0
  | .accumulator (.wrapShares _ s) | .accumulator (.redeemShare _ s) =>
    E' = Function.update E s 0
  | _ => E' = E

/-- The dates of all units in deed form. -/
def deedHistory : History EntryTimes where
  start _ := 0
  Becomes := World.MovesUnits

/-- There is a date for every unit of the deed, and none is later than its timestamp. -/
structure GallyShare.Dated (share : GallyShare) (times : Multiset ℕ) : Prop where
  units : times.card = share.shareCount
  entered : ∀ t ∈ times, t ≤ share.acquiredAtMs

namespace GallyShare.Dated

variable {share target victim : GallyShare} {times times' kept moved : Multiset ℕ}

/-- A deed that was just minted. -/
theorem fresh {n now : ℕ} (hunits : share.shareCount = n) (hnow : share.acquiredAtMs = now) :
    share.Dated (Multiset.replicate n now) where
  units := by rw [Multiset.card_replicate, hunits]
  entered t ht := by rw [Multiset.eq_of_mem_replicate ht, hnow]

/-- The units that a split leaves keep their dates. -/
theorem parent {amount : ℕ} (h : share.Dated (kept + moved)) (hcard : moved.card = amount) :
    Dated { share with shareCount := share.shareCount - amount } kept where
  units := by
    have hunits := h.units
    rw [Multiset.card_add] at hunits
    simp only
    omega
  entered t ht := h.entered t (Multiset.mem_add.mpr (Or.inl ht))

/-- The units that a split moves keep their dates. -/
theorem child {amount newId : ℕ} (h : share.Dated (kept + moved)) (hcard : moved.card = amount) :
    Dated { share with id := newId, shareCount := amount } moved where
  units := hcard
  entered t ht := h.entered t (Multiset.mem_add.mpr (Or.inr ht))

/-- The later timestamp survives a merge. -/
theorem merged (h : target.Dated times) (h' : victim.Dated times') (index : ℕ) :
    (target.mergedWith victim index).Dated (times + times') where
  units := by
    rw [Multiset.card_add, h.units, h'.units]
    rfl
  entered t ht := by
    rcases Multiset.mem_add.mp ht with ht | ht
    · exact Nat.le_trans (h.entered t ht) (Nat.le_max_left _ _)
    · exact Nat.le_trans (h'.entered t ht) (Nat.le_max_right _ _)

end GallyShare.Dated

/-- All deeds are dated. -/
def EntryTimes.Date (E : EntryTimes) (shares : Store GallyShare) : Prop :=
  ∀ share ∈ shares, share.Dated (E share.id)

namespace EntryTimes.Date

variable {w w' : World} {E E' : EntryTimes} {shares : Store GallyShare} {sender : Address}

/-- A deed that is put down brings its own dates. -/
theorem put (h : E.Date shares) (share : GallyShare) {times : Multiset ℕ}
    (hshare : share.Dated times) : Date (Function.update E share.id times) (shares.put share) := by
  intro x hx
  rcases Store.mem_put.mp hx with rfl | ⟨hx, hne⟩
  · rw [Function.update_self]
    exact hshare
  · have hid : x.id ≠ share.id := hne
    rw [Function.update_of_ne hid]
    exact h x hx

/-- A deed that is gone takes its dates along. -/
theorem delete (h : E.Date shares) (s : ID) (times : Multiset ℕ) :
    Date (Function.update E s times) (shares.delete s) := by
  intro x hx
  obtain ⟨hx, hne⟩ := Store.mem_delete.mp hx
  have hid : x.id ≠ s := hne
  rw [Function.update_of_ne hid]
  exact h x hx

/-- The accumulator's calls keep the deeds dated. -/
theorem accumulatorStep (h : E.Date w.shares) {c : AccumulatorCall}
    (hstep : AccumulatorStep w sender c w') (hmoves : w.MovesUnits (.accumulator c) E E') :
    E'.Date w'.shares := by
  cases hstep with
  | @claimRewards _ s _ share _ _ _ hshare =>
    obtain rfl : E' = E := hmoves
    have hold := h share (Store.mem_of_get? hshare)
    -- only the yield snapshot of the deed moves
    exact Store.forall_put ⟨hold.units, hold.entered⟩ h
  | sweepRollover | sweepCompensation | adminSweepDust =>
    obtain rfl : E' = E := hmoves
    exact h
  | wrapShares | redeemShare =>
    obtain rfl := hmoves
    exact h.delete _ 0
  | @unwrapCoins _ _ acc _ coin _ _ _ _ hcoin =>
    obtain rfl := hmoves coin hcoin
    exact h.put (acc.freshShare w.nextId coin.value w.clockMs) (.fresh rfl rfl)
  | @mergeShares _ t v acc target victim _ _ _ htarget _ hvictim distinct =>
    obtain rfl := hmoves
    obtain rfl : target.id = t := Store.key_of_get? htarget
    obtain rfl : victim.id = v := Store.key_of_get? hvictim
    have hboth := (h target (Store.mem_of_get? htarget)).merged
      (h victim (Store.mem_of_get? hvictim)) acc.cumulativeYieldIndex
    -- the victim leaves before the target is filed
    rw [Function.update_comm distinct]
    exact (h.delete victim.id 0).put _ hboth
  | @splitShare s amount share _ hshare =>
    obtain ⟨kept, moved, hparts, hcard, rfl⟩ := hmoves
    obtain rfl : share.id = s := Store.key_of_get? hshare
    have hold := h share (Store.mem_of_get? hshare)
    rw [hparts] at hold
    exact (h.put _ (hold.parent hcard)).put _ (hold.child hcard)

/-- One call keeps the deeds dated. -/
theorem call (h : E.Date w.shares) {c : Call} (hcall : w.call sender c = .ok w')
    (hmoves : w.MovesUnits c E E') : E'.Date w'.shares := by
  cases c with
  | protocol c =>
    obtain ⟨-, _, _, -, rfl⟩ := World.protocolCall_eq_ok.mp hcall
    exact hmoves ▸ h
  | validator c => cases World.validatorCall_eq_ok.mp hcall <;> exact hmoves ▸ h
  | asset c =>
    cases World.assetCall_eq_ok.mp hcall with
    | @claimShares _ _ _ _ acc receipt _ _ _ _ hreceipt =>
      obtain rfl := hmoves receipt hreceipt
      exact h.put (receipt.deed w.nextId acc.cumulativeYieldIndex w.clockMs) (.fresh rfl rfl)
    | _ => exact hmoves ▸ h
  | accumulator c => exact h.accumulatorStep (World.accumulatorCall_eq_ok.mp hcall) hmoves
  | dispute c => cases World.disputeCall_eq_ok.mp hcall <;> exact hmoves ▸ h
  | framework c => cases World.frameworkCall_eq_ok.mp hcall <;> exact hmoves ▸ h

end EntryTimes.Date

/-- In every traced run the deeds are dated. -/
theorem World.Traced.dated {w : World} {E : EntryTimes} {Q : World → EntryTimes → Call → Prop}
    (h : w.Traced deedHistory Q E) : E.Date w.shares :=
  h.preserves (P := fun w E => E.Date w.shares) (fun _ => by simp [EntryTimes.Date, World.genesis])
    (fun _ hE _ hcall hmoves => hE.call hcall hmoves) fun hE _ => hE

/-- Any number of dates can be split off. -/
theorem exists_part {times : Multiset ℕ} {n : ℕ} (h : n ≤ times.card) :
    ∃ kept moved, times = kept + moved ∧ moved.card = n := by
  revert h
  refine Quotient.inductionOn times fun l h => ?_
  have hparts : (l : Multiset ℕ) = (l.drop n : List ℕ) + (l.take n : List ℕ) := by
    rw [Multiset.add_comm, Multiset.coe_add, List.take_append_drop]
  exact ⟨_, _, hparts, List.length_take_of_le h⟩

/-- However the calls went, the units have dates. -/
theorem Reachable.deedTraced {w : World} (hw : Reachable w) :
    ∃ E, w.Traced deedHistory (fun _ _ _ => True) E := by
  refine hw.traced fun {w E sender c w'} hE hcall => ?_
  show ∃ E', w.MovesUnits c E E'
  unfold World.MovesUnits
  split
  -- a conversion or an unwrap of something that is not there constrains nothing
  · next r =>
    cases hreceipt : w.receipts.get? r with
    | none => exact ⟨E, by simp⟩
    | some receipt => exact ⟨_, fun x hx => by rw [← Option.some.inj hx]⟩
  · next k =>
    cases hcoin : w.coins.get? k with
    | none => exact ⟨E, by simp⟩
    | some coin => exact ⟨_, fun x hx => by rw [← Option.some.inj hx]⟩
  · next s amount =>
    cases World.callAccumulator_eq_ok.mp hcall with
    | @splitShare _ _ share _ hshare _ less =>
      have hunits := (hE.dated share (Store.mem_of_get? hshare)).units
      rw [show share.id = s from Store.key_of_get? hshare] at hunits
      -- some part of that size is split off
      obtain ⟨kept, moved, hparts, hcard⟩ := exists_part (hunits ▸ Nat.le_of_lt less)
      exact ⟨_, kept, moved, hparts, hcard, rfl⟩
  · exact ⟨_, rfl⟩
  · exact ⟨_, rfl⟩
  · exact ⟨_, rfl⟩
  · exact ⟨_, rfl⟩

/-- The dates of the deeds, and what a wrap asks of them. -/
structure World.KeepsCooldown (w : World) (E : EntryTimes) : Prop where
  units : ∀ share ∈ w.shares, (E share.id).card = share.shareCount
  entered : ∀ share ∈ w.shares, ∀ t ∈ E share.id, t ≤ share.acquiredAtMs
  wrap : ∀ sender g s w', w.call sender (.accumulator (.wrapShares g s)) = .ok w' →
    (∃ coin, w'.coins.get? w.nextId = some coin ∧ coin.value = (E s).card) ∧
    ∀ t ∈ E s, t + w.config.minWrapDurationMs ≤ w.clockMs

/-- However the units are divided, merged, wrapped and unwrapped: their entry is dated, no deed
    is older than its units, and a wrap at time `t` moves only units that entered by `t - d`. -/
theorem cooldown_kept {w : World} (hw : Reachable w) :
    (∃ E, w.Traced deedHistory (fun _ _ _ => True) E) ∧
    ∀ E, w.Traced deedHistory (fun _ _ _ => True) E → w.KeepsCooldown E := by
  refine ⟨hw.deedTraced, fun E hE => ⟨?_, ?_, ?_⟩⟩
  · exact fun share hshare => (hE.dated share hshare).units
  · exact fun share hshare => (hE.dated share hshare).entered
  · intro sender g s w' hcall
    cases World.callAccumulator_eq_ok.mp hcall with
    | @wrapShares _ _ acc share _ _ _ hshare guards =>
      obtain rfl : share.id = s := Store.key_of_get? hshare
      have hdated := hE.dated share (Store.mem_of_get? hshare)
      refine ⟨⟨_, Store.get?_put_self _ _, hdated.units.symm⟩, fun t ht => ?_⟩
      have hentered := hdated.entered t ht
      have hcooldown := guards.cooldown
      omega

/-- Part of the deed is split off, wrapped after the cooldown, unwrapped and merged back. -/
def Sample.rewrapped : List Action :=
  operational 1000000 100000 ++
  [.transaction 3 [.asset (.claimShares 4 8 6), .accumulator (.splitShare 9 300000)],
   .tick 3600000,
   .transaction 3 [.accumulator (.wrapShares 8 10), .accumulator (.unwrapCoins 8 11),
    .accumulator (.mergeShares 8 9 12)]]

/-- The merged deed is as young as its youngest units. -/
theorem cooldown_kept_rewrapped : ∃ w share E, (World.genesis 0).run Sample.rewrapped = .ok w ∧
    w.shares.get? 9 = some share ∧ share.shareCount = 1000000 ∧ share.acquiredAtMs = 3600000 ∧
    w.KeepsCooldown E := by
  have hrun : returns ((World.genesis 0).run Sample.rewrapped) (fun w =>
      (w.shares.get? 9).any fun share => share.shareCount = 1000000 ∧
        share.acquiredAtMs = 3600000) = true := by
    decide +kernel
  obtain ⟨w, hw, hq⟩ := returns_iff.mp hrun
  simp only [Option.any_eq_true, decide_eq_true_eq] at hq
  obtain ⟨share, hshare, hcount, hage⟩ := hq
  obtain ⟨⟨E, hE⟩, hkept⟩ := cooldown_kept ⟨0, _, hw⟩
  exact ⟨w, share, E, hw, hshare, hcount, hage, hkept E hE⟩

end Gally

import Gally.Law.Docket

/-!
# One stake, one vote

A juror's stake is asked for once, when the pool votes. While the window runs the pool
may be emptied again, and the same USDC registers the next pool: one stake casts as many
votes as it likes. Without such withdrawals every vote of a coalition stays backed by a
stake of its own until the window closes.

## Key results

- `Reachable.recycles`: whoever can register a juror has one more vote, and its money back
- `recycled_stake_votes_twice`
- `votes_le_holdings`: the votes of a coalition are covered by what it holds, on runs in
  which no voter leaves the floor before the deadline
-/

namespace Gally

open Checked

/-! ## Coalitions -/

/-- The stake in the pools that the coalition `C` registered. -/
def World.stakes (w : World) (C : Address → Bool) : ℕ :=
  w.pools.sum fun pool => if C pool.validator then pool.stake else 0

/-- The USDC of the coalition: in its wallets, and in its pools. -/
def World.holdings (w : World) (C : Address → Bool) : ℕ :=
  w.wallets.sum (fun x => if C x.owner then x.value else 0) + w.stakes C

/-- Pool `p` was registered by the coalition. -/
def World.registeredBy (w : World) (C : Address → Bool) (p : ID) : Bool :=
  (w.pools.get? p).any fun pool => C pool.validator

/-- The votes counted from pools of the coalition. -/
def World.votesOf (w : World) (C : Address → Bool) (dispute : Dispute) : ℕ :=
  dispute.voted.countP (w.registeredBy C)

/-- Who registered a pool does not change. -/
theorem World.call_registeredBy {w w' : World} (hf : w.Fresh) {sender : Address} {c : Call}
    (h : w.call sender c = .ok w') (C : Address → Bool) {p : ID} {pool : ValidatorPool}
    (hpool : w.pools.get? p = some pool) : w'.registeredBy C p = w.registeredBy C p := by
  obtain ⟨pool', hpool', hv⟩ := World.call_pools hf h p pool hpool
  simp only [registeredBy, hpool, hpool', Option.any_some, hv]

/-- Voters with a stake of `m` each are worth no more than the stakes of the coalition. -/
theorem World.countP_mul_le {w : World} {C : Address → Bool} {m : ℕ} {voters : List ID}
    (hnodup : voters.Nodup)
    (h : ∀ p ∈ voters, ∃ pool, w.pools.get? p = some pool ∧ m ≤ pool.stake) :
    voters.countP (w.registeredBy C) * m ≤ w.stakes C := by
  rw [List.countP_eq_length_filter]
  refine Store.length_mul_le_sum (hnodup.filter _) fun p hp => ?_
  obtain ⟨hvoter, hours⟩ := List.mem_filter.mp hp
  obtain ⟨pool, hpool, hm⟩ := h p hvoter
  refine ⟨pool, hpool, ?_⟩
  simp only [registeredBy, hpool, Option.any_some] at hours
  rw [if_pos hours]
  exact hm

/-! ## Voters that stay -/

/-- The configuration is fixed. -/
def CallRule.configFixed : CallRule := fun _ _ c => ∀ p, c ≠ .protocol p

/-- The coalition never holds more than `S`. -/
def CallRule.within (C : Address → Bool) (S : ℕ) : CallRule := fun w _ _ => w.holdings C ≤ S

/-- Before the deadline of dispute `d` no withdrawal takes a pool that voted below the floor. -/
def CallRule.stakeKept (d : ID) : CallRule := fun w _ c => ∀ p k amount dispute pool,
  c = .validator (.withdrawStake p k amount) → w.disputes.get? d = some dispute →
  p ∈ dispute.voted → w.clockMs < dispute.votingDeadlineMs → w.pools.get? p = some pool →
  w.config.juryMinStake ≤ pool.stake - amount.val

/-- The rules of a ballot under a fixed configuration. -/
def CallRule.ballot (C : Address → Bool) (S : ℕ) (d : ID) : CallRule := fun w sender c =>
  configFixed w sender c ∧ within C S w sender c ∧ stakeKept d w sender c

/-- Before the deadline of `x` its voters have their stake, and no dispute about them ends. -/
structure World.Seated (w : World) (x : Dispute) : Prop where
  staked : w.clockMs < x.votingDeadlineMs → ∀ p ∈ x.voted,
    ∃ pool, w.pools.get? p = some pool ∧ w.config.juryMinStake ≤ pool.stake
  later : ∀ e ∈ w.disputes, e.status = .opened → e.targetPoolId ∈ x.voted →
    x.votingDeadlineMs ≤ e.votingDeadlineMs
  window : x.votingDeadlineMs ≤ w.clockMs + w.config.disputeWindowMs

/-- No call moves the deadline of a dispute. -/
theorem Dispute.Hearing.deadline {w : World} {sender : Address} {c : Call} {x x' : Dispute}
    (h : x.Hearing w sender c x') : x'.votingDeadlineMs = x.votingDeadlineMs := by
  cases h with
  | verdict _ _ _ _ decides => cases decides <;> rfl
  | _ => rfl

/-- A voter of `x'` was one before, or just voted. -/
theorem Dispute.Hearing.voter {w : World} {sender : Address} {c : Call} {x x' : Dispute}
    (h : x.Hearing w sender c x') {p : ID} (hp : p ∈ x'.voted) : p ∈ x.voted ∨
      ∃ k guilty pool cap, c = .dispute (.voteOnDispute x.id p k guilty) ∧
        w.pools.get? p = some pool ∧ VoteGuards x pool cap w.config guilty w.clockMs := by
  cases h with
  | keep => exact Or.inl hp
  | @vote q k guilty pool cap hpool guards =>
    rcases List.mem_cons.mp hp with rfl | hold
    · obtain rfl := Store.key_of_get? hpool
      exact Or.inr ⟨k, guilty, pool, cap, rfl, hpool, guards⟩
    · exact Or.inl hold
  | verdict _ _ _ _ decides => exact Or.inl (decides.voted ▸ hp)
  | reward => exact Or.inl (List.mem_of_mem_erase hp)

namespace World.Seated

variable {w w' : World} {sender : Address} {c : Call} {d : ID} {x x' : Dispute}

/-- The stake of a voter stays above the floor: only a withdrawal and a verdict lower it. -/
theorem kept (hs : w.Seated x) (hw : Reachable w) (h : w.call sender c = .ok w')
    (hx : w.disputes.get? d = some x) (hrule : CallRule.stakeKept d w sender c)
    (htime : w.clockMs < x.votingDeadlineMs) {p : ID} (hp : p ∈ x.voted) :
    ∃ pool', w'.pools.get? p = some pool' ∧ w.config.juryMinStake ≤ pool'.stake := by
  obtain ⟨pool, hpool, hstake⟩ := hs.staked htime p hp
  obtain ⟨pool', hpool', htouch⟩ := World.call_touchPool hw.fresh h p pool hpool
  have hid : pool.id = p := Store.key_of_get? hpool
  refine ⟨pool', hpool', ?_⟩
  cases htouch with
  | add => exact Nat.le_trans hstake (Nat.le_add_right ..)
  | withdraw => exact hrule pool.id _ _ x pool rfl hx (hid ▸ hp) htime (hid ▸ hpool)
  | @verdict e _ _ dispute _ _ _ he _ _ guards =>
    -- a dispute that is resolved now was due before the ballot closes
    have htarget : dispute.targetPoolId ∈ x.voted := by
      rw [← guards.pool, hid]
      exact hp
    have hlater := hs.later dispute (Store.mem_of_get? he) guards.opened htarget
    have hdue := guards.due
    omega
  | _ => exact hstake

/-- One call keeps the voters of a dispute seated. -/
theorem call (hs : w.Seated x) (hw : Reachable w) (h : w.call sender c = .ok w')
    (hx : w.disputes.get? d = some x) (hhear : x.Hearing w sender c x')
    (hfixed : CallRule.configFixed w sender c) (hrule : CallRule.stakeKept d w sender c) :
    w'.Seated x' := by
  have hclock := World.call_clock h
  have hdeadline := hhear.deadline
  -- the rule excludes the setters
  have hconfig : w'.config = w.config := by
    rcases World.call_config h with hsame | ⟨p, _, rfl, -⟩
    · exact hsame
    · exact absurd rfl (hfixed p)
  constructor
  · rw [hclock, hdeadline, hconfig]
    intro htime p hp
    rcases hhear.voter hp with hold | ⟨k, guilty, pool, cap, rfl, hpool, guards⟩
    · exact hs.kept hw h hx hrule htime hold
    · -- a vote leaves the pools alone
      obtain ⟨pool', hpool', htouch⟩ := World.call_touchPool hw.fresh h p pool hpool
      cases htouch
      exact ⟨pool, hpool', guards.stake⟩
  · rw [hdeadline]
    intro e he hopen htarget
    rcases World.call_disputes hw.fresh h (Store.get?_key he) with
      ⟨y, hy, hhear'⟩ | ⟨hid, a, p, g, bond, evidence, reason, rfl⟩
    · rw [hhear'.deadline]
      obtain ⟨z, hz, hkept⟩ := World.call_charge hw.fresh h hy
      obtain rfl := Option.some.inj (hz.symm.trans (Store.get?_key he))
      obtain ⟨hopen', hcharge⟩ := hkept hopen
      rcases hhear.voter htarget with hold | ⟨k, guilty, pool, cap, rfl, hpool, guards⟩
      · exact hs.later y (Store.mem_of_get? hy) hopen' (hcharge.target ▸ hold)
      · -- a pool that votes is ACTIVE, so nobody contests it
        obtain ⟨q, hq, hfrozen⟩ := hw.tried.frozen y (Store.mem_of_get? hy) hopen'
        rw [← hcharge.target, hpool] at hq
        rw [← Option.some.inj hq, guards.active] at hfrozen
        simp at hfrozen
    · -- a dispute opened now runs at least as long
      obtain ⟨_, _, _, y, -, -, -, -, -, hy, hopening, -⟩ := World.opening_eq h
      have hself : w'.disputes.get? e.id = some e := Store.get?_key he
      rw [show e.id = w.nextId from hid, hy] at hself
      rw [← Option.some.inj hself, hopening]
      exact hs.window
  · rw [hclock, hdeadline, hconfig]
    exact hs.window

/-- The clock keeps the voters of a dispute seated. -/
theorem tick (hs : w.Seated x) {now : U64} (le : w.clockMs ≤ now.val) :
    World.Seated { w with clockMs := now.val } x where
  staked htime := hs.staked (Nat.lt_of_le_of_lt le htime)
  later := hs.later
  window := Nat.le_trans hs.window (Nat.add_le_add_right le _)

end World.Seated

/-! ## The bound -/

/-- A call that obeys the rules keeps the votes of the coalition within what it holds. -/
theorem World.Seated.votes {w w' : World} {sender : Address} {c : Call} {d : ID} {x x' : Dispute}
    (hs : w.Seated x) (hw : Reachable w) (h : w.call sender c = .ok w')
    (hx : w.disputes.get? d = some x) (hhear : x.Hearing w sender c x') {C : Address → Bool}
    {S : ℕ} (hwithin : w.holdings C ≤ S)
    (hold : w.votesOf C x * w.config.juryMinStake ≤ S) :
    w'.votesOf C x' * w.config.juryMinStake ≤ S := by
  obtain ⟨htallied, hvoters⟩ := hw.polled x (Store.mem_of_get? hx)
  have hsame : w'.votesOf C x' = w.votesOf C x' := by
    refine List.countP_congr fun p hp => ?_
    have hknown : ∃ pool, w.pools.get? p = some pool := by
      rcases hhear.voter hp with hold | ⟨_, _, pool, _, -, hpool, -⟩
      · exact hvoters p hold
      · exact ⟨pool, hpool⟩
    obtain ⟨pool, hpool⟩ := hknown
    rw [World.call_registeredBy hw.fresh h C hpool]
  rw [hsame]
  cases hhear with
  | keep => exact hold
  | @vote q k guilty pool cap hpool guards =>
    -- right now every voter has its stake, the new one included
    have hle : w.votesOf C (x.afterVote pool.id guilty) * w.config.juryMinStake ≤ w.stakes C := by
      refine World.countP_mul_le (List.nodup_cons.mpr ⟨guards.fresh, htallied.voters⟩) ?_
      intro p hp
      rcases List.mem_cons.mp hp with rfl | hp
      · exact ⟨pool, Store.get?_key (Store.mem_of_get? hpool), guards.stake⟩
      · exact hs.staked guards.inTime p hp
    exact Nat.le_trans hle (Nat.le_trans (Nat.le_add_left ..) hwithin)
  | verdict _ _ _ _ decides =>
    simp only [World.votesOf, decides.voted]
    exact hold
  | @reward _ _ pool =>
    have hle : w.votesOf C (x.afterReward pool.id) ≤ w.votesOf C x :=
      List.erase_sublist.countP_le
    exact Nat.le_trans (Nat.mul_le_mul_right _ hle) hold

/-- One stake, one vote, on runs in which no voter is taken below the floor before the deadline:
    a coalition that never holds more than `S` has at most `S` divided by the floor votes. -/
theorem votes_le_holdings {w₀ w₁ w₂ : World} (hw : Reachable w₀) {s : Address} {a p g : ID}
    {bond : U64} {evidence : WalrusRef} {reason : Bytes}
    (hopen : w₀.call s (.dispute (.initializeDispute a p g bond evidence reason)) = .ok w₁)
    {C : Address → Bool} {S : ℕ} (hpath : w₁.Path (.ballot C S w₀.nextId) w₂) :
    ∃ dispute, w₂.disputes.get? w₀.nextId = some dispute ∧
      w₂.votesOf C dispute ≤ S / w₀.config.juryMinStake := by
  obtain ⟨_, _, _, x, -, -, -, -, -, hx, hopening, -, -, -, hclock⟩ := World.opening_eq hopen
  have hconfig : w₁.config = w₀.config := by
    rcases World.call_config hopen with hsame | ⟨_, _, hc, -⟩
    · exact hsame
    · simp at hc
  have hvoted : x.voted = [] := by rw [hopening, Dispute.opening]
  have hseated : w₁.Seated x := by
    refine ⟨fun _ p hp => ?_, fun e _ _ he => ?_, ?_⟩
    · simp [hvoted] at hp
    · simp [hvoted] at he
    · rw [hclock, hconfig, hopening, Dispute.opening]
  -- the invariant of the run: the voters are seated, and the bound holds
  have hinv : ∃ y, w₂.disputes.get? w₀.nextId = some y ∧ w₂.Seated y ∧
      w₂.config = w₀.config ∧ w₂.votesOf C y * w₀.config.juryMinStake ≤ S := by
    refine hpath.preserves (P := fun u => ∃ y, u.disputes.get? w₀.nextId = some y ∧ u.Seated y ∧
      u.config = w₀.config ∧ u.votesOf C y * w₀.config.juryMinStake ≤ S) (hw.call hopen)
      ⟨x, hx, hseated, hconfig, by simp [World.votesOf, hvoted]⟩ ?_ ?_
    · intro u sender c u' hu hP hrule hcall
      obtain ⟨y, hy, hs, hsame, hvotes⟩ := hP
      obtain ⟨hfixed, hwithin, hkept⟩ := hrule
      obtain ⟨y', hy', hhear⟩ := World.call_hearing hu.fresh hcall _ y hy
      have hsame' : u'.config = u.config := by
        rcases World.call_config hcall with heq | ⟨q, _, rfl, -⟩
        · exact heq
        · exact absurd rfl (hfixed q)
      rw [← hsame] at hvotes ⊢
      exact ⟨y', hy', hs.call hu hcall hy hhear hfixed hkept, hsame',
        hs.votes hu hcall hy hhear hwithin hvotes⟩
    · intro u now _ hP le
      obtain ⟨y, hy, hs, hsame, hvotes⟩ := hP
      exact ⟨y, hy, hs.tick le, hsame, hvotes⟩
  obtain ⟨y, hy, -, -, hvotes⟩ := hinv
  exact ⟨y, hy, (Nat.le_div_iff_mul_le hw.juryMinStake_pos).mpr hvotes⟩

namespace Sample

/-- The juror, address 4, on its own. -/
def juror (a : Address) : Bool := a = 4

/-- No setter, no withdrawal, and the juror holds at most its stake. -/
def patient (w : World) (_ : Address) : Call → Bool
  | .protocol _ | .validator (.withdrawStake ..) => false
  | _ => w.holdings juror ≤ 10000000000

/-- No setter, and the juror holds at most its stake. -/
def steady (w : World) (_ : Address) : Call → Bool
  | .protocol _ => false
  | _ => w.holdings juror ≤ 10000000000

/-- The challenge and the calls of a ballot, each where `ok` allows it. -/
def ballot (ok : World → Address → Call → Bool) (calls : List (Address × Call))
    (check : World → World → Dispute → Bool) : Bool :=
  returns ((World.genesis 0).run (executing 1000000 100000 ++ court)) fun w₀ =>
    returns (w₀.call 3 challenge) fun w₁ => returns (w₁.obey ok calls) fun w₂ =>
      (w₂.disputes.get? 11).any fun x => check w₀ w₂ x

/-- What the check of a ballot evaluates. -/
theorem ballot_iff {ok : World → Address → Call → Bool} {calls : List (Address × Call)}
    {check : World → World → Dispute → Bool} :
    ballot ok calls check = true ↔ ∃ w₀ w₁ w₂ x,
      (World.genesis 0).run (executing 1000000 100000 ++ court) = .ok w₀ ∧
      w₀.call 3 challenge = .ok w₁ ∧ w₁.obey ok calls = .ok w₂ ∧
      w₂.disputes.get? 11 = some x ∧ check w₀ w₂ x = true := by
  simp only [ballot, returns_iff, Option.any_eq_true]
  constructor
  · rintro ⟨w₀, h₀, w₁, h₁, w₂, h₂, x, hx, hq⟩
    exact ⟨w₀, w₁, w₂, x, h₀, h₁, h₂, hx, hq⟩
  · rintro ⟨w₀, w₁, w₂, x, h₀, h₁, h₂, hx, hq⟩
    exact ⟨w₀, h₀, w₁, h₁, w₂, h₂, x, hx, hq⟩

end Sample

/-- The juror votes once. -/
theorem votes_le_holdings_once : ∃ (w : World) (x : Dispute), w.disputes.get? 11 = some x ∧
    w.votesOf Sample.juror x = 1 ∧ w.votesOf Sample.juror x ≤ 10000000000 / 10000000000 := by
  have hrun : Sample.ballot Sample.patient [(4, .dispute (.voteOnDispute 11 9 10 true))]
      (fun w₀ w₂ x => w₀.nextId = 11 && w₀.config.juryMinStake = 10000000000 &&
        w₂.votesOf Sample.juror x = 1) = true := by
    decide +kernel
  obtain ⟨w₀, w₁, w₂, x, h₀, h₁, h₂, hx, hq⟩ := Sample.ballot_iff.mp hrun
  simp only [Bool.and_eq_true, decide_eq_true_eq] at hq
  obtain ⟨⟨hnext, hmin⟩, hvotes⟩ := hq
  -- every call of the run obeys the rule, by the check that was made on it
  have hpath : w₁.Path (.ballot Sample.juror 10000000000 w₀.nextId) w₂ := by
    refine World.Path.of_obey (fun w sender c hok => ?_) h₂
    refine ⟨?_, ?_, ?_⟩
    · rintro p rfl
      simp [Sample.patient] at hok
    · unfold Sample.patient at hok
      split at hok <;> simp_all [CallRule.within]
    · rintro p k amount _ _ rfl
      simp [Sample.patient] at hok
  obtain ⟨y, hy, hle⟩ := votes_le_holdings ⟨0, _, h₀⟩ h₁ hpath
  rw [hnext] at hy
  obtain rfl := Option.some.inj (hy.symm.trans hx)
  exact ⟨w₂, y, hx, hvotes, hmin ▸ hle⟩

/-! ## Recycled stakes -/

/-- `a` registers a pool with `stake`. -/
theorem World.call_register {w : World} {a : Address} {stake : U64}
    (guards : RegisterGuards w.config stake.val []) (hfunds : stake.val ≤ w.wallets.balance a) :
    ∃ w', w.call a (.validator (.registerValidator stake [])) = .ok w' ∧
      w'.pools.get? w.nextId = some (.registered w.nextId a [] stake.val w.clockMs) ∧
      w'.validatorCaps.get? (w.nextId + 1) = some ⟨w.nextId + 1, w.nextId⟩ ∧
      w'.owner .soulbound (w.nextId + 1) = a ∧ w'.disputes = w.disputes ∧
      w'.config = w.config ∧ w'.clockMs = w.clockMs ∧
      w'.wallets.balance a = w.wallets.balance a - stake.val := by
  refine ⟨_, World.validatorCall_eq_ok.mpr (.registerValidator hfunds guards
      (registerValidator_eq_ok.mpr ⟨guards, rfl⟩)),
    Store.get?_put_self _ (ValidatorPool.registered w.nextId a [] stake.val w.clockMs),
    Store.get?_put_self _ (⟨w.nextId + 1, w.nextId⟩ : ValidatorCap), if_pos ⟨rfl, rfl⟩, rfl, rfl,
    rfl, ?_⟩
  rw [Wallets.balance_spend, if_pos rfl]

/-- `a` votes with its pool. -/
theorem World.call_vote {w : World} {a : Address} {d p k : ID} {x : Dispute}
    {pool : ValidatorPool} {cap : ValidatorCap} {guilty : Bool}
    (hx : w.disputes.get? d = some x) (hpool : w.pools.get? p = some pool)
    (hcap : w.validatorCaps.get? k = some cap) (hown : w.owner .soulbound k = a)
    (guards : VoteGuards x pool cap w.config guilty w.clockMs) :
    ∃ w', w.call a (.dispute (.voteOnDispute d p k guilty)) = .ok w' ∧
      w'.disputes.get? d = some (x.afterVote pool.id guilty) ∧ w'.pools = w.pools ∧
      w'.validatorCaps = w.validatorCaps ∧ w'.owner = w.owner ∧ w'.config = w.config ∧
      w'.clockMs = w.clockMs ∧ w'.wallets = w.wallets := by
  have hrun := voteOnDispute_eq_ok.mpr ⟨guards, rfl⟩
  exact ⟨_, World.callDispute_eq_ok.mpr (.voteOnDispute hx hpool hown hcap guards hrun),
    Store.get?_replace (x.afterVote pool.id guilty) hx rfl, rfl, rfl, rfl, rfl, rfl, rfl⟩

/-- `a` empties its pool. -/
theorem World.call_withdraw {w : World} {a : Address} {p k : ID} {pool : ValidatorPool}
    {cap : ValidatorCap} {amount : U64} (hpool : w.pools.get? p = some pool)
    (hcap : w.validatorCaps.get? k = some cap) (hown : w.owner .soulbound k = a)
    (guards : WithdrawGuards pool cap w.config amount.val) :
    ∃ w', w.call a (.validator (.withdrawStake p k amount)) = .ok w' ∧
      w'.disputes = w.disputes ∧ w'.config = w.config ∧ w'.clockMs = w.clockMs ∧
      w'.wallets.balance a = w.wallets.balance a + amount.val := by
  have hrun := withdrawStake_eq_ok.mpr ⟨guards, rfl⟩
  exact ⟨_, World.validatorCall_eq_ok.mpr (.withdrawStake hpool hown hcap guards hrun), rfl, rfl,
    rfl, World.balance_credit_self ..⟩

/-- A pool that is registered now can vote in an OPEN dispute. -/
theorem Reachable.eligible {w : World} (hw : Reachable w) {d : ID} {x : Dispute}
    (hx : w.disputes.get? d = some x) (hopen : x.status = .opened) :
    w.nextId ≠ x.targetPoolId ∧ w.nextId ∉ x.voted := by
  have hknown : ∀ q pool, w.pools.get? q = some pool → w.nextId ≠ q :=
    fun q pool hq => Nat.ne_of_gt (hw.fresh.pools.get?_lt hq)
  constructor
  · obtain ⟨pool, hpool, -⟩ := hw.tried.frozen x (Store.mem_of_get? hx) hopen
    exact hknown _ pool hpool
  · intro hmem
    obtain ⟨pool, hpool⟩ := (hw.polled x (Store.mem_of_get? hx)).2 _ hmem
    exact hknown _ pool hpool rfl

/-- With one stake anybody casts one more vote in an OPEN dispute, and has the stake back. -/
theorem Reachable.recycles {w : World} (hw : Reachable w) {d : ID} {x : Dispute}
    (hx : w.disputes.get? d = some x) (hopen : x.status = .opened)
    (htime : w.clockMs < x.votingDeadlineMs) (hunpaused : w.config.paused = false) {a : Address}
    {stake : U64} (hmin : w.config.minValidatorStake ≤ stake.val)
    (hjury : w.config.juryMinStake ≤ stake.val) (hfunds : stake.val ≤ w.wallets.balance a)
    (guilty : Bool) (hguilty : guilty = true → x.votesGuilty + 1 ≤ maxU64)
    (hinnocent : guilty = false → x.votesInnocent + 1 ≤ maxU64) :
    ∃ actions w', w.run actions = .ok w' ∧
      w'.disputes.get? d = some (x.afterVote w.nextId guilty) ∧ w'.config = w.config ∧
      w'.clockMs = w.clockMs ∧ w'.wallets.balance a = w.wallets.balance a := by
  have hversion := hw.withinCaps.version
  obtain ⟨htarget, hfresh⟩ := hw.eligible hx hopen
  obtain ⟨w₁, h₁, hpool, hcap, hown, hd₁, hc₁, ht₁, hb₁⟩ :=
    World.call_register ⟨hversion, hunpaused, hmin, Nat.zero_le _⟩ hfunds
  have hvote : VoteGuards x (.registered w.nextId a [] stake.val w.clockMs)
      ⟨w.nextId + 1, w.nextId⟩ w₁.config guilty w₁.clockMs := by
    rw [hc₁, ht₁]
    exact ⟨hversion, hopen, htime, rfl, htarget, rfl, hjury, hfresh, hguilty, hinnocent⟩
  obtain ⟨w₂, h₂, hx₂, hp₂, hk₂, ho₂, hc₂, ht₂, hb₂⟩ :=
    World.call_vote (hd₁ ▸ hx) hpool hcap hown hvote
  -- the vote did not bind the stake
  have hwithdraw : WithdrawGuards (.registered w.nextId a [] stake.val w.clockMs)
      ⟨w.nextId + 1, w.nextId⟩ w₂.config stake.val := by
    rw [hc₂, hc₁]
    exact ⟨hversion, rfl, rfl, Nat.le_refl _, Nat.zero_le _, fun hno => absurd hno (by
      simp [ValidatorPool.registered])⟩
  obtain ⟨w₃, h₃, hd₃, hc₃, ht₃, hb₃⟩ := World.call_withdraw (hp₂ ▸ hpool) (hk₂ ▸ hcap)
    (by rw [ho₂, hown]) hwithdraw
  refine ⟨_, w₃, World.run_call h₁ (World.run_call h₂ (World.run_call h₃ w₃.run_nil)), ?_, ?_, ?_,
    ?_⟩
  · rw [hd₃]
    exact hx₂
  · rw [hc₃, hc₂, hc₁]
  · rw [ht₃, ht₂, ht₁]
  · rw [hb₃, hb₂, hb₁]
    exact Nat.sub_add_cancel hfunds

/-- The juror votes, empties its pool, registers the next one with the same USDC and votes again:
    two votes in one ballot for the stake of one. -/
def Sample.recycling : List (Address × Call) :=
  [(4, .dispute (.voteOnDispute 11 9 10 true)),
   (4, .validator (.withdrawStake 9 10 10000000000)),
   (4, .validator (.registerValidator 10000000000 [])),
   (4, .dispute (.voteOnDispute 11 12 13 true))]

/-- Stake that is withdrawn after a vote and registered anew votes a second time. -/
theorem recycled_stake_votes_twice : ∃ w₀ w₁ w₂ x,
    (World.genesis 0).run (Sample.executing 1000000 100000 ++ Sample.court) = .ok w₀ ∧
    w₀.call 3 Sample.challenge = .ok w₁ ∧
    w₁.Path (fun w sender c => CallRule.configFixed w sender c ∧
      CallRule.within Sample.juror 10000000000 w sender c) w₂ ∧
    w₂.holdings Sample.juror ≤ 10000000000 ∧ w₂.disputes.get? 11 = some x ∧
    w₂.votesOf Sample.juror x = 2 ∧ 10000000000 / w₂.config.juryMinStake = 1 := by
  have hrun : Sample.ballot Sample.steady Sample.recycling (fun _ w₂ x =>
      w₂.holdings Sample.juror ≤ 10000000000 && w₂.votesOf Sample.juror x = 2 &&
        w₂.config.juryMinStake = 10000000000) = true := by
    decide +kernel
  obtain ⟨w₀, w₁, w₂, x, h₀, h₁, h₂, hx, hq⟩ := Sample.ballot_iff.mp hrun
  simp only [Bool.and_eq_true, decide_eq_true_eq] at hq
  obtain ⟨⟨hholds, hvotes⟩, hmin⟩ := hq
  refine ⟨w₀, w₁, w₂, x, h₀, h₁, ?_, hholds, hx, hvotes, by rw [hmin]⟩
  -- the calls obey everything but the rule about the stake of voters
  refine World.Path.of_obey (fun w sender c hok => ⟨?_, ?_⟩) h₂
  · rintro p rfl
    simp [Sample.steady] at hok
  · unfold Sample.steady at hok
    split at hok <;> simp_all [CallRule.within]

end Gally

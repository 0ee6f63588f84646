import Gally.Law.Trial

/-!
# The docket

What the disputes of a world have in common with the pools they target and the assets
they are about, how their votes are counted, and where their money goes: to the
challenger, the target, the jurors and the holders, with nothing left over but a residue
smaller than the number of votes.

## Key results

- `court_agrees`: dispute, asset and pool record the same openings
- `verdict_sound`: one verdict, by a majority of a quorum, that gives away what it takes
- `jurors_paid`: a rejected challenger's bond pays every juror once
-/

namespace Gally

open Checked

/-! ## Three records of one fact -/

/-- What disputes, pools and assets say about the disputes that are OPEN. -/
structure World.Agrees (w : World) : Prop where
  frozen : ∀ pool ∈ w.pools, pool.status = .frozen ↔
    ∃! d, d ∈ w.disputes ∧ d.status = .opened ∧ d.targetPoolId = pool.id
  slashed : ∀ pool ∈ w.pools, pool.status = .slashed →
    ∀ d ∈ w.disputes, d.status = .opened → d.targetPoolId ≠ pool.id
  single : ∀ d ∈ w.disputes, ∀ e ∈ w.disputes, d.status = .opened → e.status = .opened →
    d.assetId = e.assetId → d = e
  flagged : ∀ d ∈ w.disputes, d.status = .opened →
    ∃ asset, w.assets.get? d.assetId = some asset ∧ asset.disputed = true
  opened : ∀ asset ∈ w.assets, asset.state = .executing ∨ asset.state = .operational →
    asset.disputed = true → ∃ d ∈ w.disputes, d.status = .opened ∧ d.assetId = asset.id
  bound : ∀ d ∈ w.disputes, d.status = .opened →
    ∃ asset, w.assets.get? d.assetId = some asset ∧
      asset.validatorPoolId = some d.targetPoolId ∧ asset.accumulatorId = some d.accumulatorId

/-- Two OPEN disputes against one pool are the same. -/
theorem Reachable.open_unique {w : World} (hw : Reachable w) {d e : Dispute}
    (hd : d ∈ w.disputes) (he : e ∈ w.disputes) (hopen : d.status = .opened)
    (hopen' : e.status = .opened) (htarget : d.targetPoolId = e.targetPoolId) : d = e :=
  Store.eq_of_key_eq hd he (hw.tried.unique d hd e he hopen hopen' htarget)

/-- The parties of a dispute are those of its asset. -/
theorem Reachable.parties {w : World} (hw : Reachable w) {d : Dispute} (hd : d ∈ w.disputes) :
    ∃ asset, w.assets.get? d.assetId = some asset ∧
      asset.validatorPoolId = some d.targetPoolId ∧
      asset.accumulatorId = some d.accumulatorId := by
  obtain ⟨asset, hasset, hpool⟩ := hw.covered.disputes d hd
  obtain ⟨acc, hacc, ha⟩ := hw.linked.disputes d hd
  have hid : asset.id = d.assetId := Store.key_of_get? hasset
  exact ⟨asset, hasset, hpool, hw.linked.accumulatorId hasset hacc (ha.trans hid.symm)⟩

/-- Court, asset and pool agree in every reachable world. -/
theorem court_agrees {w : World} (hw : Reachable w) : w.Agrees where
  frozen pool hpool := by
    have hself : w.pools.get? pool.id = some pool := Store.get?_key hpool
    -- the open dispute of a frozen pool is unique, and an open dispute freezes its pool
    constructor
    · intro hfrozen
      obtain ⟨d, hd, hopen, htarget⟩ := hw.tried.opened pool hpool hfrozen
      refine ⟨d, ⟨hd, hopen, htarget⟩, ?_⟩
      intro e ⟨he, hopen', htarget'⟩
      exact hw.open_unique he hd hopen' hopen (htarget'.trans htarget.symm)
    · intro ⟨d, ⟨hd, hopen, htarget⟩, _⟩
      obtain ⟨x, hx, hfrozen⟩ := hw.tried.frozen d hd hopen
      rw [htarget, hself] at hx
      exact Option.some.inj hx ▸ hfrozen
  slashed pool hpool hslashed d hd hopen htarget := by
    have hself : w.pools.get? pool.id = some pool := Store.get?_key hpool
    obtain ⟨x, hx, hfrozen⟩ := hw.tried.frozen d hd hopen
    rw [htarget, hself] at hx
    rw [Option.some.inj hx, hfrozen] at hslashed
    simp at hslashed
  single d hd e he hopen hopen' ha :=
    Store.eq_of_key_eq hd he (hw.tried.one_of_asset hw.covered hd he hopen hopen' ha)
  flagged d hd hopen := hw.tried.disputed d hd hopen
  opened asset hasset hstate hflag := by
    obtain ⟨d, dispute, hd, hopen, ha⟩ :=
      (hw.disputed_iff (Store.get?_key hasset) hstate).mp hflag
    exact ⟨dispute, Store.mem_of_get? hd, hopen, ha⟩
  bound d hd _ := hw.parties hd

/-- A project is challenged. -/
theorem court_agrees_challenged : ∃ w pool, (World.genesis 0).run
      (Sample.executing 1000000 100000 ++ Sample.court ++ [.transaction 3 [Sample.challenge]]) =
        .ok w ∧ w.Agrees ∧ w.pools.get? 2 = some pool ∧ pool.status = .frozen := by
  have hrun : returns ((World.genesis 0).run (Sample.executing 1000000 100000 ++ Sample.court ++
      [.transaction 3 [Sample.challenge]])) (fun w =>
        (w.pools.get? 2).any (·.status = .frozen)) = true := by
    decide +kernel
  obtain ⟨w, hw, hq⟩ := returns_iff.mp hrun
  obtain ⟨pool, hpool, hfrozen⟩ := (Option.any_eq_true _ _).mp hq
  exact ⟨w, pool, hw, court_agrees ⟨0, _, hw⟩, hpool, of_decide_eq_true hfrozen⟩

/-! ## Tallies -/

/-- The ballot of a dispute and its two balances. -/
structure Dispute.Tallied (d : Dispute) : Prop where
  voters : d.voted.Nodup
  target : d.targetPoolId ∉ d.voted
  tally : d.status = .opened → d.totalVotes = d.voted.length
  unrewarded : d.status ≠ .rejected → d.jurorRewardPool = 0
  paidOut : d.status ≠ .opened → d.bond = 0
  funded : d.status = .rejected → d.jurorRewardPerVote * d.voted.length ≤ d.jurorRewardPool

namespace Dispute.Tallied

variable {d : Dispute}

/-- A dispute that opens has no votes. -/
theorem opening (asset : Asset) (pool : ValidatorPool) (acc : GlobalYieldAccumulator)
    (config : ProtocolConfig) (bond : ℕ) (evidence : WalrusRef) (reason : Bytes) (now : ℕ)
    (sender : Address) (disputeId : ID) :
    (Dispute.opening asset pool acc config bond evidence reason now sender disputeId).Tallied where
  voters := List.nodup_nil
  target := List.not_mem_nil
  tally _ := rfl
  unrewarded _ := rfl
  paidOut hno := absurd rfl hno
  funded hno := absurd hno (by simp [Dispute.opening])

/-- A vote adds a pool to the list and one to the tally. -/
theorem vote (h : d.Tallied) {pool : ValidatorPool} {vcap : ValidatorCap}
    {config : ProtocolConfig} {guilty : Bool} {now : ℕ}
    (guards : VoteGuards d pool vcap config guilty now) : (d.afterVote pool.id guilty).Tallied where
  voters := List.nodup_cons.mpr ⟨guards.fresh, h.voters⟩
  target := by
    intro hmem
    -- the voter is none of the old ones, and not the target
    rcases List.mem_cons.mp hmem with heq | hold
    · exact guards.notTarget heq.symm
    · exact h.target hold
  tally _ := by
    have hold := h.tally guards.opened
    simp only [Dispute.totalVotes] at hold
    simp only [Dispute.afterVote, Dispute.totalVotes, List.length_cons]
    cases guilty <;> simp <;> omega
  unrewarded := h.unrewarded
  paidOut := h.paidOut
  funded hrejected := absurd (guards.opened.symm.trans hrejected) (by simp)

/-- The half of the bond that a rejection leaves to the jurors covers one reward a vote. -/
theorem verdict (h : d.Tallied) {pool : ValidatorPool} {asset : Asset}
    {acc : GlobalYieldAccumulator} {config : ProtocolConfig} {now : ℕ} {v : Verdict}
    (hopen : d.status = .opened) (decides : Decides d pool asset acc config now v) :
    v.dispute.Tallied := by
  have hzero : d.jurorRewardPool = 0 := h.unrewarded (by simp [hopen])
  cases decides with
  | expired =>
    exact { h with
      tally := fun hno => absurd hno (by simp [expiredVerdict])
      unrewarded := fun _ => hzero
      paidOut := fun _ => rfl
      funded := fun hno => absurd hno (by simp [expiredVerdict]) }
  | upheld =>
    exact { h with
      tally := fun hno => absurd hno (by simp [upheldVerdict])
      unrewarded := fun _ => hzero
      paidOut := fun _ => rfl
      funded := fun hno => absurd hno (by simp [upheldVerdict]) }
  | rejected =>
    exact { h with
      tally := fun hno => absurd hno (by simp [rejectedVerdict])
      unrewarded := fun hno => absurd rfl hno
      paidOut := fun _ => rfl
      funded := fun _ => by
        -- the votes divide what is left of the bond, rounded down
        have hfloor := Nat.div_mul_le_self (d.bond - d.bond / 2) d.totalVotes
        simp only [rejectedVerdict]
        rw [← h.tally hopen]
        omega }

/-- A claim takes one reward and one name off the list. -/
theorem reward (h : d.Tallied) {p : ID} (hrejected : d.status = .rejected) (hp : p ∈ d.voted) :
    (d.afterReward p).Tallied where
  voters := h.voters.erase p
  target hmem := h.target (List.mem_of_mem_erase hmem)
  tally hno := absurd (hrejected.symm.trans hno) (by simp)
  unrewarded hno := absurd hrejected hno
  paidOut := h.paidOut
  funded _ := by
    have hfunded := h.funded hrejected
    have hlength : (d.voted.erase p).length + 1 = d.voted.length := by
      rw [List.length_erase_of_mem hp]
      exact Nat.sub_add_cancel (List.length_pos_of_mem hp)
    rw [← hlength, Nat.mul_succ] at hfunded
    exact Nat.le_sub_of_add_le hfunded

end Dispute.Tallied

/-- A verdict leaves the list of voters as it is. -/
theorem Decides.voted {d : Dispute} {pool : ValidatorPool} {asset : Asset}
    {acc : GlobalYieldAccumulator} {config : ProtocolConfig} {now : ℕ} {v : Verdict}
    (h : Decides d pool asset acc config now v) : v.dispute.voted = d.voted := by
  cases h <;> rfl

/-- Every dispute is tallied, and its voters are pools. -/
def World.Polled (w : World) : Prop :=
  ∀ d ∈ w.disputes, d.Tallied ∧ ∀ p ∈ d.voted, ∃ pool, w.pools.get? p = some pool

/-- One call keeps the disputes tallied. -/
theorem World.Polled.call {w w' : World} (hp : w.Polled) (hf : w.Fresh) {sender : Address}
    {c : Call} (h : w.call sender c = .ok w') : w'.Polled := by
  -- pools stay filed
  have hold : ∀ d ∈ w.disputes, d.Tallied ∧ ∀ p ∈ d.voted, ∃ pool, w'.pools.get? p = some pool := by
    intro d hd
    refine ⟨(hp d hd).1, fun p hvoted => ?_⟩
    obtain ⟨pool, hpool⟩ := (hp d hd).2 p hvoted
    obtain ⟨pool', hpool', -⟩ := World.call_pools hf h p pool hpool
    exact ⟨pool', hpool'⟩
  cases c with
  | protocol c =>
    obtain ⟨-, _, _, -, rfl⟩ := World.protocolCall_eq_ok.mp h
    exact hold
  | validator c => cases World.validatorCall_eq_ok.mp h <;> exact hold
  | asset c => cases World.assetCall_eq_ok.mp h <;> exact hold
  | accumulator c => cases World.accumulatorCall_eq_ok.mp h <;> exact hold
  | framework c => cases World.frameworkCall_eq_ok.mp h <;> exact hold
  | dispute c =>
    cases World.disputeCall_eq_ok.mp h with
    | initializeDispute => exact Store.forall_put ⟨.opening .., by simp [Dispute.opening]⟩ hold
    | voteOnDispute hdispute hpool _ _ guards =>
      obtain ⟨htallied, hvoters⟩ := hold _ (Store.mem_of_get? hdispute)
      refine Store.forall_put ⟨htallied.vote guards, fun p hvoted => ?_⟩ hold
      rcases List.mem_cons.mp hvoted with rfl | hvoted
      · exact ⟨_, Store.get?_key (Store.mem_of_get? hpool)⟩
      · exact hvoters p hvoted
    | @resolveDispute _ _ _ _ _ _ _ _ v hdispute _ _ _ guards decides =>
      obtain ⟨htallied, hvoters⟩ := hold _ (Store.mem_of_get? hdispute)
      have hvoted := decides.voted
      exact Store.forall_put ⟨htallied.verdict guards.opened decides, hvoted ▸ hvoters⟩ hold
    | claimJurorReward hdispute _ _ _ rejected juror =>
      obtain ⟨htallied, hvoters⟩ := hold _ (Store.mem_of_get? hdispute)
      exact Store.forall_put ⟨htallied.reward rejected juror,
        fun p hvoted => hvoters p (List.mem_of_mem_erase hvoted)⟩ hold

/-- In every reachable world the disputes are tallied, and their voters are pools. -/
theorem Reachable.polled {w : World} (hw : Reachable w) : w.Polled :=
  hw.induct (fun _ d hd => by simp [World.genesis] at hd) (fun hw hp h => hp.call hw.fresh h)
    fun _ hp _ => hp

/-! ## The verdict -/

/-- The verdict on the votes cast. -/
def Dispute.verdict (d : Dispute) (config : ProtocolConfig) : DisputeStatus :=
  if d.totalVotes < config.juryQuorum then .expired
  else if isUpheld d config d.totalVotes then .upheld
  else .rejected

/-- The verdict gives the dispute the status that its tally says. -/
theorem Decides.status {d : Dispute} {pool : ValidatorPool} {asset : Asset}
    {acc : GlobalYieldAccumulator} {config : ProtocolConfig} {now : ℕ} {v : Verdict}
    (h : Decides d pool asset acc config now v) : v.dispute.status = d.verdict config := by
  unfold Dispute.verdict
  cases h with
  | expired quorum => rw [if_pos quorum, expiredVerdict]
  | upheld quorum threshold =>
    rw [if_neg (Nat.not_lt.mpr quorum), if_pos (isUpheld_iff.mpr ⟨quorum, threshold⟩),
      upheldVerdict]
  | rejected quorum threshold =>
    have hno : ¬ isUpheld d config d.totalVotes = true := fun hu =>
      Nat.not_le.mpr threshold (isUpheld_iff.mp hu).2
    rw [if_neg (Nat.not_lt.mpr quorum), if_neg hno, rejectedVerdict]

/-- A verdict is one of three. -/
theorem Dispute.verdict_cases (d : Dispute) (config : ProtocolConfig) :
    d.verdict config = .upheld ∨ d.verdict config = .rejected ∨ d.verdict config = .expired := by
  unfold verdict
  split
  · simp
  · split <;> simp

/-- Who is found guilty is so by a majority of a quorum. -/
theorem ProtocolConfig.WithinCaps.majority {config : ProtocolConfig} (h : config.WithinCaps)
    {d : Dispute} (hupheld : d.verdict config = .upheld) :
    1 ≤ config.juryQuorum ∧ config.juryQuorum ≤ d.totalVotes ∧
      d.votesInnocent < d.votesGuilty := by
  unfold Dispute.verdict at hupheld
  split at hupheld
  · simp at hupheld
  · next hquorum =>
    split at hupheld
    · next hguilty =>
      obtain ⟨-, hle⟩ := isUpheld_iff.mp hguilty
      refine ⟨h.quorum, Nat.not_lt.mp hquorum, ?_⟩
      have hpos := h.quorum
      -- no threshold the setters accept is at most one half
      have hthreshold : 5001 * d.totalVotes ≤ 10000 * d.votesGuilty :=
        Nat.le_trans (Nat.mul_le_mul_right _ h.threshold) hle
      simp only [Dispute.totalVotes] at hquorum hthreshold
      omega
    · simp at hupheld

/-- What a verdict moves: the stake slashed and the funds seized from the asset, and what
    challenger, target, jurors and holders get. The bounty is part of what the challenger gets. -/
structure Sentence where
  slashed : ℕ
  seized : ℕ
  bounty : ℕ
  challenger : ℕ
  target : ℕ
  jurors : ℕ
  holders : ℕ
  deriving DecidableEq, Repr

/-- The sentence over a dispute about `asset`. -/
def Dispute.sentence (d : Dispute) (asset : Asset) (config : ProtocolConfig) : Sentence :=
  let bounty := config.bounty asset.coverageLocked
  match d.verdict config with
  | .upheld =>
    { slashed := asset.coverageLocked, seized := asset.seizable, bounty,
      challenger := d.bond + bounty, target := 0, jurors := 0,
      holders := asset.coverageLocked - bounty + asset.seizable }
  | .rejected =>
    { slashed := 0, seized := 0, bounty := 0, challenger := 0, target := d.bond / 2,
      jurors := d.bond - d.bond / 2, holders := 0 }
  | .expired | .opened =>
    { slashed := 0, seized := 0, bounty := 0, challenger := d.bond, target := 0, jurors := 0,
      holders := 0 }

/-- From `w` to `w'` the sentence `s` over `dispute` was carried out. -/
structure World.Executes (w w' : World) (dispute : Dispute) (s : Sentence) : Prop where
  bond : ∃ dispute', w'.disputes.get? dispute.id = some dispute' ∧ dispute'.bond = 0 ∧
    dispute'.jurorRewardPool = dispute.jurorRewardPool + s.jurors
  pool : ∃ pool pool', w.pools.get? dispute.targetPoolId = some pool ∧
    w'.pools.get? dispute.targetPoolId = some pool' ∧
    pool'.stake + s.slashed = pool.stake + s.target
  asset : ∃ asset asset', w.assets.get? dispute.assetId = some asset ∧
    w'.assets.get? dispute.assetId = some asset' ∧ asset'.funds + s.seized = asset.funds
  acc : ∃ acc acc', w.accumulators.get? dispute.accumulatorId = some acc ∧
    w'.accumulators.get? dispute.accumulatorId = some acc' ∧
    acc'.compensationPool = acc.compensationPool + s.holders
  challenger : w'.wallets.balance dispute.challenger =
    w.wallets.balance dispute.challenger + s.challenger
  others : ∀ a, a ≠ dispute.challenger → w'.wallets.balance a = w.wallets.balance a

/-- What is fair about a sentence over `bond`. -/
structure Sentence.Fair (s : Sentence) (bond : ℕ) (verdict : DisputeStatus) : Prop where
  upheld : verdict = .upheld → s.challenger = bond + s.bounty ∧ 2 * s.bounty ≤ s.slashed
  expired : verdict = .expired → s.challenger = bond
  rejected : verdict = .rejected → s.challenger = 0
  balanced : bond + s.slashed + s.seized = s.challenger + s.target + s.jurors + s.holders

/-- The bounty is at most half of the coverage. -/
theorem ProtocolConfig.WithinCaps.two_mul_bounty_le {config : ProtocolConfig}
    (h : config.WithinCaps) (coverage : ℕ) : 2 * config.bounty coverage ≤ coverage := by
  have hbps := Nat.mul_le_mul_left coverage h.bounty
  have hfloor := Nat.div_mul_le_self (coverage * config.challengerBountyBps) bpsDenominator
  simp only [maxChallengerBountyBps, bpsDenominator] at hbps hfloor
  simp only [ProtocolConfig.bounty, bpsDenominator]
  omega

/-- The sentence of every verdict is fair under a configuration within its caps. -/
theorem ProtocolConfig.WithinCaps.fair {config : ProtocolConfig} (h : config.WithinCaps)
    (d : Dispute) (asset : Asset) :
    (d.sentence asset config).Fair d.bond (d.verdict config) := by
  have hbounty := h.two_mul_bounty_le asset.coverageLocked
  rcases d.verdict_cases config with hv | hv | hv
  · simp only [Dispute.sentence, hv]
    exact ⟨fun _ => ⟨rfl, hbounty⟩, by simp, by simp, by simp only; omega⟩
  · simp only [Dispute.sentence, hv]
    exact ⟨by simp, by simp, by simp, by simp only; omega⟩
  · simp only [Dispute.sentence, hv]
    exact ⟨by simp, by simp, by simp, rfl⟩

/-- Who is paid by a verdict. -/
theorem Decides.balance {d : Dispute} {pool : ValidatorPool} {asset : Asset}
    {acc : GlobalYieldAccumulator} {config : ProtocolConfig} {now : ℕ} {v : Verdict}
    (h : Decides d pool asset acc config now v) (ws : Wallets) (a : Address) :
    (ws.pay v.transfers).balance a = ws.balance a +
      if a = d.challenger then (d.sentence asset config).challenger else 0 := by
  -- every payment of a verdict goes to the challenger
  have hpay : ∀ x : ℕ, (ws.pay [(d.challenger, x)]).balance a =
      ws.balance a + if a = d.challenger then x else 0 := by
    intro x
    rw [Wallets.pay, List.foldl_cons, List.foldl_nil, Wallets.balance_credit]
    by_cases ha : a = d.challenger
    · rw [if_pos ha.symm, if_pos ha, ha]
    · rw [if_neg fun he => ha he.symm, if_neg ha, Nat.add_zero]
  have hstatus := h.status
  cases h with
  | expired => simp only [Dispute.sentence, ← hstatus, expiredVerdict, hpay]
  | upheld =>
    simp only [Dispute.sentence, ← hstatus, upheldVerdict, hpay]
    rw [Nat.add_comm (config.bounty _)]
  | rejected => simp [Dispute.sentence, ← hstatus, rejectedVerdict, Wallets.pay]

/-- What the four objects of a verdict have after it. -/
theorem Decides.moves {d : Dispute} {pool : ValidatorPool} {asset : Asset}
    {acc : GlobalYieldAccumulator} {config : ProtocolConfig} {now : ℕ} {v : Verdict}
    (h : Decides d pool asset acc config now v) :
    v.dispute.bond = 0 ∧
    v.dispute.jurorRewardPool = d.jurorRewardPool + (d.sentence asset config).jurors ∧
    v.pool.stake + (d.sentence asset config).slashed =
      pool.stake + (d.sentence asset config).target ∧
    v.asset.funds + (d.sentence asset config).seized = asset.funds ∧
    v.acc.compensationPool = acc.compensationPool + (d.sentence asset config).holders := by
  have hstatus := h.status
  cases h with
  | expired =>
    simp [Dispute.sentence, ← hstatus, expiredVerdict, ValidatorPool.withStatus, Asset.funds,
      setDisputed]
  | rejected =>
    simp [Dispute.sentence, ← hstatus, rejectedVerdict, ValidatorPool.withStatus, Asset.funds,
      setDisputed]
  | upheld _ _ guards =>
    have hstake := Nat.sub_add_cancel guards.stake
    simp [Dispute.sentence, ← hstatus, upheldVerdict, hstake, asset.funds_upheld,
      ValidatorPool.slashed, GlobalYieldAccumulator.compensated]

/-- A resolution carries out the sentence. -/
theorem World.call_executes {w w' : World} {sender : Address} {d p a g : ID}
    (h : w.call sender (.dispute (.resolveDispute d p a g)) = .ok w') {dispute : Dispute}
    (hdispute : w.disputes.get? d = some dispute) :
    ∃ asset dispute', w.assets.get? dispute.assetId = some asset ∧
      w'.disputes.get? d = some dispute' ∧ dispute.status = .opened ∧
      dispute'.status = dispute.verdict w.config ∧
      w.Executes w' dispute (dispute.sentence asset w.config) := by
  cases World.callDispute_eq_ok.mp h with
  | @resolveDispute _ _ _ _ x pool asset acc v hx hpool hasset hacc guards decides =>
    obtain rfl := Option.some.inj (hx.symm.trans hdispute)
    have hkeeps := decides.keeps
    have hid : x.id = d := Store.key_of_get? hx
    have hdispute' := Store.get?_replace v.dispute hx hkeeps.disputeId
    -- the objects passed are the recorded ones
    have hpoolSelf := guards.pool_recorded hpool
    have hassetSelf := guards.asset_recorded hasset
    have haccSelf := guards.acc_recorded hacc
    have hpaid := decides.balance w.wallets
    obtain ⟨hbond, hjurors, hstake, hseized, hholders⟩ := decides.moves
    exact ⟨asset, v.dispute, hassetSelf, hdispute', guards.opened, decides.status, {
      bond := ⟨v.dispute, hid.symm ▸ hdispute', hbond, hjurors⟩
      pool := ⟨pool, v.pool, hpoolSelf,
        Store.get?_replace v.pool hpoolSelf hkeeps.poolId, hstake⟩
      asset := ⟨asset, v.asset, hassetSelf,
        Store.get?_replace v.asset hassetSelf hkeeps.assetId, hseized⟩
      acc := ⟨acc, v.acc, haccSelf, Store.get?_replace v.acc haccSelf hkeeps.accId, hholders⟩
      challenger := by rw [hpaid, if_pos rfl]
      others := fun b hb => by rw [hpaid, if_neg hb, Nat.add_zero] }⟩

/-- A sound verdict: every vote counts once and none is the target's, the verdict is one of three,
    the guilty are so by a majority of a quorum, and all the money taken is given to somebody. -/
theorem verdict_sound {w : World} (hw : Reachable w) {d : ID} {dispute : Dispute}
    (hdispute : w.disputes.get? d = some dispute) :
    dispute.voted.Nodup ∧ dispute.targetPoolId ∉ dispute.voted ∧
    (dispute.status = .opened →
      dispute.votesGuilty + dispute.votesInnocent = dispute.voted.length) ∧
    ∀ sender p a g w', w.call sender (.dispute (.resolveDispute d p a g)) = .ok w' →
      ∃ asset dispute' verdict sentence, w.assets.get? dispute.assetId = some asset ∧
        w'.disputes.get? d = some dispute' ∧ dispute'.status = verdict ∧
        verdict = dispute.verdict w.config ∧ sentence = dispute.sentence asset w.config ∧
        (verdict = .upheld ∨ verdict = .rejected ∨ verdict = .expired) ∧
        (verdict = .upheld → 1 ≤ w.config.juryQuorum ∧
          w.config.juryQuorum ≤ dispute.voted.length ∧
          dispute.votesInnocent < dispute.votesGuilty) ∧
        w.Executes w' dispute sentence ∧ sentence.Fair dispute.bond verdict := by
  obtain ⟨htallied, -⟩ := hw.polled dispute (Store.mem_of_get? hdispute)
  refine ⟨htallied.voters, htallied.target, htallied.tally, ?_⟩
  intro sender p a g w' h
  obtain ⟨asset, dispute', hasset, hdispute', hopen, hstatus, hexecutes⟩ :=
    World.call_executes h hdispute
  have htally := htallied.tally hopen
  refine ⟨asset, dispute', _, _, hasset, hdispute', hstatus, rfl, rfl,
    dispute.verdict_cases w.config, fun hupheld => ?_, hexecutes, hw.withinCaps.fair dispute asset⟩
  rw [← htally]
  exact hw.withinCaps.majority hupheld

/-- The verdict over a challenge is UPHELD by the one vote cast. -/
theorem verdict_sound_challenged : ∃ (w w' : World) (dispute dispute' : Dispute),
    w.disputes.get? 11 = some dispute ∧ dispute.voted.length = 1 ∧
    w.call 3 Sample.resolution = .ok w' ∧ w'.disputes.get? 11 = some dispute' ∧
    dispute'.status = .upheld ∧ 1 ≤ w.config.juryQuorum := by
  have hrun : Sample.trial (Sample.executing 1000000 100000 ++ Sample.court) Sample.voting
      (fun _ _ w w' => (w.disputes.get? 11).any (·.voted.length = 1) &&
        Sample.verdictIs w' .upheld) = true := by
    decide +kernel
  obtain ⟨w₀, w₁, w, w', h₀, h₁, h, hresolve, hq⟩ := Sample.trial_iff.mp hrun
  rw [Bool.and_eq_true] at hq
  obtain ⟨dispute, hdispute, hlength⟩ := (Option.any_eq_true _ _).mp hq.1
  obtain ⟨final, hfinal, hupheld⟩ := (Option.any_eq_true _ _).mp hq.2
  have hw₁ : Reachable w₁ := Reachable.call ⟨0, _, h₀⟩ h₁
  obtain ⟨-, -, -, hsound⟩ := verdict_sound (hw₁.run h) hdispute
  obtain ⟨-, dispute', verdict, -, -, hdispute', hstatus, -, -, -, hguilty, -⟩ :=
    hsound 3 2 4 8 w' hresolve
  obtain rfl := Option.some.inj (hdispute'.symm.trans hfinal)
  have hverdict := hstatus.symm.trans (of_decide_eq_true hupheld)
  exact ⟨w, w', dispute, dispute', hdispute, of_decide_eq_true hlength, hresolve, hdispute',
    of_decide_eq_true hupheld, (hguilty hverdict).1⟩

/-! ## Juror rewards -/

/-- Pool `q` claims nothing from dispute `d`. -/
def CallRule.unclaimed (d q : ID) : CallRule := fun _ _ c =>
  ∀ k, c ≠ .dispute (.claimJurorReward d q k)

/-- After its rejection a dispute only changes by the claim of a voter. -/
theorem World.call_rejected {w w' : World} (hf : w.Fresh) {sender : Address} {c : Call}
    (h : w.call sender c = .ok w') {d : ID} {dispute : Dispute}
    (hdispute : w.disputes.get? d = some dispute) (hrejected : dispute.status = .rejected) :
    w'.disputes.get? d = some dispute ∨
    ∃ q k, c = .dispute (.claimJurorReward d q k) ∧
      w'.disputes.get? d = some (dispute.afterReward q) := by
  obtain ⟨dispute', hdispute', hhear⟩ := World.call_hearing hf h d dispute hdispute
  have hid : dispute.id = d := Store.key_of_get? hdispute
  -- a dispute that was rejected is no longer open, so only a reward can change it
  cases hhear with
  | keep => exact Or.inl hdispute'
  | vote _ guards => exact absurd (guards.opened.symm.trans hrejected) (by simp)
  | verdict _ _ _ guards => exact absurd (guards.opened.symm.trans hrejected) (by simp)
  | @reward q k pool =>
    refine Or.inr ⟨q, k, by rw [hid], ?_⟩
    cases World.callDispute_eq_ok.mp h with
    | @claimJurorReward _ _ _ x juror _ _ hx hjuror =>
      obtain rfl : x = dispute := Option.some.inj (hx.symm.trans (hid.symm ▸ hdispute))
      have hq : juror.id = q := Store.key_of_get? hjuror
      rw [← hq]
      exact Store.get?_replace (x.afterReward juror.id) hdispute rfl

/-- A claim takes the name of the claimant off the list, and pays one reward. -/
theorem World.claim_eq {w w' : World} {sender : Address} {d q k : ID}
    (h : w.call sender (.dispute (.claimJurorReward d q k)) = .ok w') {dispute : Dispute}
    (hdispute : w.disputes.get? d = some dispute) :
    dispute.status = .rejected ∧ q ∈ dispute.voted ∧
      w'.disputes.get? d = some (dispute.afterReward q) ∧
      w'.wallets.balance sender = w.wallets.balance sender + dispute.jurorRewardPerVote := by
  cases World.callDispute_eq_ok.mp h with
  | @claimJurorReward _ _ _ x juror _ _ hx hjuror _ _ rejected voted =>
    obtain rfl : x = dispute := Option.some.inj (hx.symm.trans hdispute)
    have hq : juror.id = q := Store.key_of_get? hjuror
    rw [← hq]
    exact ⟨rejected, voted, Store.get?_replace (x.afterReward juror.id) hdispute rfl,
      World.balance_credit_self ..⟩

/-- A rejected dispute stays so, with the reward it set; no voter joins, and `q` stays one as long
    as it claims nothing. -/
theorem World.Path.rejected {Q : CallRule} {w w' : World} (hw : Reachable w) (h : w.Path Q w')
    {d : ID} {dispute : Dispute} (hdispute : w.disputes.get? d = some dispute)
    (hrejected : dispute.status = .rejected) :
    ∃ dispute', w'.disputes.get? d = some dispute' ∧ dispute'.status = .rejected ∧
      dispute'.jurorRewardPerVote = dispute.jurorRewardPerVote ∧
      (∀ q ∈ dispute'.voted, q ∈ dispute.voted) ∧
      ∀ q ∈ dispute.voted, (∀ u sender c, Q u sender c → CallRule.unclaimed d q u sender c) →
        q ∈ dispute'.voted := by
  refine h.preserves (P := fun u => ∃ x, u.disputes.get? d = some x ∧ x.status = .rejected ∧
    x.jurorRewardPerVote = dispute.jurorRewardPerVote ∧ (∀ q ∈ x.voted, q ∈ dispute.voted) ∧
    ∀ q ∈ dispute.voted, (∀ u sender c, Q u sender c → CallRule.unclaimed d q u sender c) →
      q ∈ x.voted) hw
    ⟨dispute, hdispute, hrejected, rfl, fun _ hq => hq, fun _ hq _ => hq⟩ ?_ fun _ hP _ => hP
  intro u sender c u' hu hP hrule hcall
  obtain ⟨x, hx, hstatus, hreward, hless, hmore⟩ := hP
  rcases World.call_rejected hu.fresh hcall hx hstatus with hsame | ⟨p, k, rfl, hclaimed⟩
  · exact ⟨x, hsame, hstatus, hreward, hless, hmore⟩
  · refine ⟨_, hclaimed, hstatus, hreward, fun q hq => hless q (List.mem_of_mem_erase hq), ?_⟩
    intro q hq hno
    -- the claimant is another pool
    have hne : q ≠ p := fun heq => hno u sender _ hrule k (by rw [heq])
    exact (List.mem_erase_of_ne hne).mpr (hmore q hq hno)

/-- From `w` on the jurors of `dispute` are paid, each once. -/
structure World.PaysJurors (w : World) (d : ID) (dispute : Dispute) : Prop where
  funded : ∀ w', w.Path .any w' → ∃ dispute', w'.disputes.get? d = some dispute' ∧
    dispute'.jurorRewardPerVote = dispute.jurorRewardPerVote ∧
    dispute'.jurorRewardPerVote * dispute'.voted.length ≤ dispute'.jurorRewardPool
  claimable : ∀ q ∈ dispute.voted, ∀ w', w.Path (.unclaimed d q) w' →
    ∃ pool k, w'.pools.get? q = some pool ∧
      Succeeds (w'.call pool.validator (.dispute (.claimJurorReward d q k)))
  voter : ∀ w' w'' sender q k, w.Path .any w' →
    w'.call sender (.dispute (.claimJurorReward d q k)) = .ok w'' → q ∈ dispute.voted ∧
      w''.wallets.balance sender = w'.wallets.balance sender + dispute.jurorRewardPerVote
  once : ∀ w' w'' u sender sender' q k k', w.Path .any w' →
    w'.call sender (.dispute (.claimJurorReward d q k)) = .ok w'' → w''.Path .any u →
    ¬ Succeeds (u.call sender' (.dispute (.claimJurorReward d q k')))

/-- From a rejected dispute on, the jurors are paid. -/
theorem Reachable.paysJurors {w : World} (hw : Reachable w) {d : ID} {dispute : Dispute}
    (hdispute : w.disputes.get? d = some dispute) (hrejected : dispute.status = .rejected) :
    w.PaysJurors d dispute where
  funded w' hpath := by
    obtain ⟨x, hx, hstatus, hreward, -⟩ := hpath.rejected hw hdispute hrejected
    obtain ⟨htallied, -⟩ := (hpath.reachable hw).polled x (Store.mem_of_get? hx)
    exact ⟨x, hx, hreward, htallied.funded hstatus⟩
  claimable q hq w' hpath := by
    obtain ⟨x, hx, hstatus, -, -, hstays⟩ := hpath.rejected hw hdispute hrejected
    have hvoted : q ∈ x.voted := hstays q hq fun _ _ _ hrule => hrule
    have hw' := hpath.reachable hw
    obtain ⟨htallied, hvoters⟩ := hw'.polled x (Store.mem_of_get? hx)
    obtain ⟨pool, hpool⟩ := hvoters q hvoted
    obtain ⟨k, cap, hcap, hbelongs, hown⟩ := hw'.validatorCap hpool
    have hid : pool.id = q := Store.key_of_get? hpool
    -- one reward is left for each name on the list
    have hfunded : x.jurorRewardPerVote ≤ x.jurorRewardPool :=
      Nat.le_trans (Nat.le_mul_of_pos_right _ (List.length_pos_of_mem hvoted))
        (htallied.funded hstatus)
    have hrun := claimJurorReward_eq_ok.mpr ⟨hstatus, hbelongs, hid.symm ▸ hvoted, hfunded, rfl⟩
    exact ⟨pool, k, hpool, _, World.callDispute_eq_ok.mpr (.claimJurorReward hx hpool hown hcap
      hstatus (hid.symm ▸ hvoted) hfunded hrun)⟩
  voter w' w'' sender q k hpath hclaim := by
    obtain ⟨x, hx, -, hreward, hless, -⟩ := hpath.rejected hw hdispute hrejected
    obtain ⟨-, hvoted, -, hpaid⟩ := World.claim_eq hclaim hx
    exact ⟨hless q hvoted, hreward ▸ hpaid⟩
  once w' w'' u sender sender' q k k' hpath hclaim hpath' := by
    intro ⟨u', hagain⟩
    obtain ⟨x, hx, hstatus, -⟩ := hpath.rejected hw hdispute hrejected
    have hw' := hpath.reachable hw
    obtain ⟨htallied, -⟩ := hw'.polled x (Store.mem_of_get? hx)
    obtain ⟨-, -, hafter, -⟩ := World.claim_eq hclaim hx
    -- the name is off the list, and the list never grows again
    obtain ⟨y, hy, -, -, hless, -⟩ := hpath'.rejected (hw'.call hclaim) hafter hstatus
    obtain ⟨-, hvoted, -⟩ := World.claim_eq hagain hy
    exact htallied.voters.not_mem_erase (hless q hvoted)

/-- Rewards after a rejection: the bond is split between the target, the jurors and a residue
    smaller than the number of votes, and each juror can take its reward once. -/
theorem jurors_paid {w w' : World} (hw : Reachable w) {sender : Address} {d p a g : ID}
    (h : w.call sender (.dispute (.resolveDispute d p a g)) = .ok w') {dispute dispute' : Dispute}
    (hdispute : w.disputes.get? d = some dispute) (hdispute' : w'.disputes.get? d = some dispute')
    (hrejected : dispute'.status = .rejected) :
    w'.PaysJurors d dispute' ∧ dispute'.voted = dispute.voted ∧
    ∃ pool pool' half residue, w.pools.get? dispute.targetPoolId = some pool ∧
      w'.pools.get? dispute.targetPoolId = some pool' ∧ pool'.stake = pool.stake + half ∧
      half = dispute.bond / 2 ∧ residue < dispute.voted.length ∧
      dispute.bond = half + dispute'.jurorRewardPerVote * dispute.voted.length + residue := by
  refine ⟨(hw.call h).paysJurors hdispute' hrejected, ?_⟩
  obtain ⟨htallied, -⟩ := hw.polled dispute (Store.mem_of_get? hdispute)
  cases World.callDispute_eq_ok.mp h with
  | @resolveDispute _ _ _ _ x pool asset acc v hx hpool hasset hacc guards decides =>
    obtain rfl := Option.some.inj (hx.symm.trans hdispute)
    have hv := Store.get?_replace v.dispute hx decides.keeps.disputeId
    obtain rfl := Option.some.inj (hv.symm.trans hdispute')
    refine ⟨decides.voted, ?_⟩
    have hpoolSelf := guards.pool_recorded hpool
    have hpool' := Store.get?_replace v.pool hpoolSelf decides.keeps.poolId
    cases decides with
    | expired => simp [expiredVerdict] at hrejected
    | upheld => simp [upheldVerdict] at hrejected
    | rejected _ _ reject =>
      -- the votes are those counted, and rejection has some
      have htally := htallied.tally guards.opened
      refine ⟨pool, _, x.bond / 2, (x.bond - x.bond / 2) % x.totalVotes, hpoolSelf, hpool', rfl,
        rfl, ?_, ?_⟩
      · rw [← htally]
        exact Nat.mod_lt _ (Nat.pos_of_ne_zero reject.votes)
      · have hdivides := Nat.div_add_mod' (x.bond - x.bond / 2) x.totalVotes
        rw [← htally]
        simp only [rejectedVerdict]
        omega

/-- Pool 9 votes for the target, and the window passes. -/
def Sample.acquittal : List Action :=
  [.transaction 4 [.dispute (.voteOnDispute 11 9 10 false)], .tick 604800000]

/-- A challenge is rejected by the one vote cast. -/
theorem jurors_paid_acquitted : ∃ (w : World) (dispute : Dispute),
    w.disputes.get? 11 = some dispute ∧ dispute.status = .rejected ∧
    dispute.jurorRewardPerVote = 500000000 ∧ w.PaysJurors 11 dispute := by
  have hrun : Sample.trial (Sample.executing 1000000 100000 ++ Sample.court) Sample.acquittal
      (fun _ _ w w' => (w.disputes.get? 11).isSome && (w'.disputes.get? 11).any fun d =>
        d.status = .rejected && d.jurorRewardPerVote = 500000000) = true := by
    decide +kernel
  obtain ⟨w₀, w₁, w, w', h₀, h₁, h, hresolve, hq⟩ := Sample.trial_iff.mp hrun
  simp only [Bool.and_eq_true, Option.any_eq_true, decide_eq_true_eq] at hq
  obtain ⟨hsome, dispute', hdispute', hrejected, hreward⟩ := hq
  obtain ⟨dispute, hdispute⟩ := Option.isSome_iff_exists.mp hsome
  have hw₁ : Reachable w₁ := Reachable.call ⟨0, _, h₀⟩ h₁
  obtain ⟨hpays, -⟩ := jurors_paid (hw₁.run h) hresolve hdispute hdispute' hrejected
  exact ⟨w', dispute', hdispute', hrejected, hreward, hpays⟩

end Gally

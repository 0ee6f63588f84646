import Gally.Chain.Touch
import Gally.Law.Mentions
import Gally.Law.Topics
import Gally.Library.Holdings

/-!
# Holdings by the log

The events of the position ledger say by how much the deeds and the wrapped coins of an address
change. As long as no deed and no coin is transferred to another address, they say it right: what
an address holds is the sum of what the events told (`World.Accounted`, `holdings_told`). Merging
and dividing objects emit none of these events and change no holdings.
-/

namespace Gally

open Checked

/-! ## What events tell -/

namespace Event

/-- The units of deeds of asset `a` that `x` gains by the event. -/
def deedChange (a : ID) (x : Address) : Event → ℤ
  | .sharesClaimed b y n _ | .sharesUnwrapped b y n _ _ => if b = a ∧ y = x then n else 0
  | .sharesWrapped b y n _ | .shareRedeemed b y n _ => if b = a ∧ y = x then -n else 0
  | _ => 0

/-- The units of coins that wrap shares of `a`. -/
def coinChange (a : ID) (x : Address) : Event → ℤ
  | .sharesWrapped b y n _ => if b = a ∧ y = x then n else 0
  | .sharesUnwrapped b y n _ _ => if b = a ∧ y = x then -n else 0
  | _ => 0

/-- The event tells of no holdings. -/
def Quiet : Event → Prop
  | .sharesClaimed .. | .sharesWrapped .. | .sharesUnwrapped .. | .shareRedeemed .. => False
  | _ => True

/-- An event is quiet exactly when its topic is not the holdings. -/
theorem quiet_iff {e : Event} : e.Quiet ↔ e.topic ≠ .holdings := by
  cases e <;> simp [Quiet, topic]

/-- The asset and the units the event tells of. -/
def units : Event → Option (ID × ℕ)
  | .sharesClaimed a _ n _ | .sharesWrapped a _ n _ | .sharesUnwrapped a _ n _ _
  | .shareRedeemed a _ n _ => some (a, n)
  | _ => none

variable {e : Event}

/-- A quiet event tells of no deed. -/
theorem Quiet.deedChange (h : e.Quiet) (a : ID) (x : Address) : e.deedChange a x = 0 := by
  cases e <;> first | rfl | exact h.elim

/-- A quiet event tells of no coin. -/
theorem Quiet.coinChange (h : e.Quiet) (a : ID) (x : Address) : e.coinChange a x = 0 := by
  cases e <;> first | rfl | exact h.elim

/-- A quiet event counts no units. -/
theorem Quiet.units (h : e.Quiet) : e.units = none := by
  cases e <;> first | rfl | exact h.elim

end Event

/-- The deeds `x` gained over a log. -/
def deedsTold (a : ID) (x : Address) (es : List Event) : ℤ := (es.map (Event.deedChange a x)).sum

/-- The coins. -/
def coinsTold (a : ID) (x : Address) (es : List Event) : ℤ := (es.map (Event.coinChange a x)).sum

@[simp] theorem deedsTold_singleton (a : ID) (x : Address) (e : Event) :
    deedsTold a x [e] = e.deedChange a x := by
  simp [deedsTold]

@[simp] theorem coinsTold_singleton (a : ID) (x : Address) (e : Event) :
    coinsTold a x [e] = e.coinChange a x := by
  simp [coinsTold]

theorem deedsTold_cons (a : ID) (x : Address) (e : Event) (es : List Event) :
    deedsTold a x (e :: es) = e.deedChange a x + deedsTold a x es := by
  simp [deedsTold]

theorem coinsTold_cons (a : ID) (x : Address) (e : Event) (es : List Event) :
    coinsTold a x (e :: es) = e.coinChange a x + coinsTold a x es := by
  simp [coinsTold]

theorem deedsTold_append (a : ID) (x : Address) (es es' : List Event) :
    deedsTold a x (es ++ es') = deedsTold a x es + deedsTold a x es' := by
  simp [deedsTold]

theorem coinsTold_append (a : ID) (x : Address) (es es' : List Event) :
    coinsTold a x (es ++ es') = coinsTold a x es + coinsTold a x es' := by
  simp [coinsTold]

/-- Quiet events tell of no deed. -/
theorem deedsTold_quiet {es : List Event} (h : ∀ e ∈ es, e.Quiet) (a : ID) (x : Address) :
    deedsTold a x es = 0 :=
  List.sum_eq_zero fun n hn => by
    obtain ⟨e, he, rfl⟩ := List.mem_map.mp hn
    exact (h e he).deedChange a x

/-- Quiet events tell of no coin. -/
theorem coinsTold_quiet {es : List Event} (h : ∀ e ∈ es, e.Quiet) (a : ID) (x : Address) :
    coinsTold a x es = 0 :=
  List.sum_eq_zero fun n hn => by
    obtain ⟨e, he, rfl⟩ := List.mem_map.mp hn
    exact (h e he).coinChange a x

/-- The calls that emit an event about holdings. -/
def Call.announcesHoldings : Call → Bool
  | .asset (.claimShares ..) | .accumulator (.wrapShares ..) | .accumulator (.unwrapCoins ..)
  | .accumulator (.redeemShare ..) => true
  | _ => false

/-- The calls that announce holdings are those whose events have that topic. -/
theorem Call.announcesHoldings_iff {c : Call} :
    c.announcesHoldings = true ↔ c.topic = .holdings := by
  unfold Call.announcesHoldings Call.topic
  split <;> first | exact iff_of_true rfl rfl | skip
  -- a deed transfer and a claim depend on more than the constructor
  split <;> simp_all

/-- The call hands no deed and no coin to another address. -/
def Call.StaysWith (sender : Address) : Call → Prop
  | .framework (.transferCoin _ recipient) | .framework (.transferShare _ recipient) =>
    recipient = sender
  | _ => True

/-- The rule that deeds and coins stay with their holders. -/
def CallRule.staying : CallRule := fun _ sender c => c.StaysWith sender

/-! ## What addresses hold -/

namespace World

variable {w w' : World} {sender x : Address} {a g : ID} {t : TypeTag}
  {acc acc' : GlobalYieldAccumulator}

/-- The units of the deeds of asset `a` that `x` owns. -/
def deedsOf (w : World) (a : ID) (x : Address) : ℕ :=
  w.shares.held (w.owner .share) GallyShare.assetId GallyShare.shareCount a x

/-- The coins of token `t` that `x` owns. -/
def coinsOf (w : World) (t : TypeTag) (x : Address) : ℕ :=
  w.coins.held (w.owner .coin) TokenCoin.token TokenCoin.value t x

/-- The token of an asset, from the end of its raise on. -/
def tokenOf (w : World) (a : ID) : Option TypeTag :=
  ((w.assets.get? a).bind w.accOf).map fun acc => acc.treasuryCap.token

/-- The coins that wrap shares of asset `a`. -/
def wrappedOf (w : World) (a : ID) (x : Address) : ℕ := (w.tokenOf a).elim 0 fun t => w.coinsOf t x

/-- An asset's token is the one its accumulator holds the treasury of. -/
theorem tokenOf_eq_some (hl : w.Linked) : w.tokenOf a = some t ↔
    ∃ g acc, w.accumulators.get? g = some acc ∧ acc.assetId = a ∧ acc.treasuryCap.token = t := by
  simp only [tokenOf, accOf, Option.map_eq_some_iff, Option.bind_eq_some_iff]
  constructor
  · rintro ⟨acc, ⟨asset, hasset, g, hg, hacc⟩, htoken⟩
    obtain ⟨acc', hacc', ha⟩ := hl.acc hasset hg
    obtain rfl := Option.some.inj (hacc.symm.trans hacc')
    exact ⟨g, acc, hacc, ha, htoken⟩
  · rintro ⟨g, acc, hacc, ha, htoken⟩
    obtain ⟨asset, hasset, hg⟩ := hl.asset hacc
    exact ⟨acc, ⟨asset, ha ▸ hasset, g, hg, hacc⟩, htoken⟩

/-- The accumulator of an asset gives its token. -/
theorem tokenOf_acc (hl : w.Linked) (hacc : w.accumulators.get? g = some acc) :
    w.tokenOf acc.assetId = some acc.treasuryCap.token :=
  (tokenOf_eq_some hl).mpr ⟨g, acc, hacc, rfl, rfl⟩

/-- Two assets have different tokens. -/
theorem token_iff (hl : w.Linked) (hacc : w.accumulators.get? g = some acc)
    (ht : w.tokenOf a = some t) : acc.treasuryCap.token = t ↔ acc.assetId = a := by
  constructor
  · rintro rfl
    obtain ⟨g', acc', hacc', rfl, htoken⟩ := (tokenOf_eq_some hl).mp ht
    obtain rfl := hl.tokens hacc' hacc htoken
    rw [Option.some.inj (hacc'.symm.trans hacc)]
  · rintro rfl
    exact Option.some.inj ((tokenOf_acc hl hacc).symm.trans ht)

/-- A custodied token has no free cap. -/
theorem custodied_tokenOf (hl : w.Linked) (h : w.tokenOf a = some t) :
    w.treasuryCaps.get? t = none := by
  obtain ⟨g, acc, hacc, -, rfl⟩ := (tokenOf_eq_some hl).mp h
  exact hl.custodied hacc

/-- A give moves the one object among those of its kind. -/
theorem give_self (kind : OwnedKind) (k : ID) (x : Address) :
    w.give kind k x kind = Function.update (w.owner kind) k x := by
  funext j
  simp [give, Function.update_apply]

/-- What an address holds in deeds, read off the table and the owners of deeds. -/
theorem deedsOf_eq {shares : Store GallyShare} {owner : ID → Address} (hshares : w'.shares = shares)
    (howner : w'.owner .share = owner) (a : ID) (x : Address) :
    w'.deedsOf a x = shares.held owner GallyShare.assetId GallyShare.shareCount a x := by
  rw [deedsOf, hshares, howner]

/-- What an address holds in coins, read off the table and the owners of coins. -/
theorem coinsOf_eq {coins : Store TokenCoin} {owner : ID → Address} (hcoins : w'.coins = coins)
    (howner : w'.owner .coin = owner) (t : TypeTag) (x : Address) :
    w'.coinsOf t x = coins.held owner TokenCoin.token TokenCoin.value t x := by
  rw [coinsOf, hcoins, howner]

/-! ## Calls that announce no change of holdings -/

/-- The call only adds quiet events. -/
def Hushed (w w' : World) : Prop := ∃ es, w'.events = w.events ++ es ∧ ∀ e ∈ es, e.Quiet

/-- A call that announces nothing of holdings emits quiet events only. -/
theorem hushed {c : Call} (h : w.call sender c = .ok w') (hc : c.announcesHoldings = false) :
    w.Hushed w' := by
  obtain ⟨es, hevents, htopics⟩ := topics h
  refine ⟨es, hevents, fun e he => Event.quiet_iff.mpr fun hholdings => ?_⟩
  have htopic : c.topic = .holdings :=
    (htopics e he).elim (fun hother => nomatch hholdings.symm.trans hother)
      fun heq => heq.symm.trans hholdings
  rw [Call.announcesHoldings_iff.mpr htopic] at hc
  cases hc

/-! ## Calls that change no holdings -/

/-- A call of `asset.move` that announces nothing touches neither deeds nor coins. -/
theorem asset_owners {c : AssetCall} (h : AssetStep w sender c w')
    (hc : Call.announcesHoldings (.asset c) = false) :
    w'.shares = w.shares ∧ w'.coins = w.coins ∧ w'.owner .share = w.owner .share ∧
      w'.owner .coin = w.owner .coin := by
  cases h with
  | claimShares => cases hc
  | _ => exact ⟨rfl, rfl, rfl, rfl⟩

/-- The accumulator's calls that announce nothing leave every holding in deeds as it is. -/
theorem accumulator_deeds (hf : w.Fresh) {c : AccumulatorCall} (h : AccumulatorStep w sender c w')
    (hc : Call.announcesHoldings (.accumulator c) = false) (a : ID) (x : Address) :
    w'.deedsOf a x = w.deedsOf a x := by
  cases h with
  | wrapShares | unwrapCoins | redeemShare => cases hc
  -- a claim only moves the index of the deed
  | @claimRewards _ _ acc share _ _ _ hshare =>
    have hsettle := Store.held_replace (w.owner .share) GallyShare.assetId GallyShare.shareCount
      hshare (y := share.settledAt acc.cumulativeYieldIndex) rfl a x
    exact Nat.add_left_cancel hsettle
  -- a merge joins two deeds of one owner and one asset
  | @mergeShares _ _ _ acc target victim _ _ own htarget own' hvictim distinct guards =>
    have hasset := guards.claim'.asset.trans guards.claim.asset.symm
    exact Store.held_join _ _ GallyShare.shareCount (y := target.mergedWith victim
      acc.cumulativeYieldIndex) htarget hvictim distinct rfl rfl hasset (own'.trans own.symm)
      rfl a x
  -- a split gives the sender a second deed with the units that the first lost
  | @splitShare s amount share own hshare _ less =>
    have hfresh : w.shares.get? w.nextId = none := hf.shares.get?_eq_none (Nat.lt_irrefl _)
    have hcount : share.shareCount - amount.val + amount.val = share.shareCount := by omega
    rw [deedsOf_eq rfl (give_self ..), ← own]
    exact Store.held_split _ _ GallyShare.shareCount (y := { share with
      shareCount := share.shareCount - amount.val }) (z := { share with
      id := w.nextId, shareCount := amount.val }) hshare rfl hfresh rfl rfl hcount a x
  | _ => rfl

/-- The framework's calls leave every holding in deeds as it is, as long as no deed changes
    hands. -/
theorem framework_deeds {c : FrameworkCall} (h : FrameworkStep w sender c w')
    (hstay : Call.StaysWith sender (.framework c)) (a : ID) (x : Address) :
    w'.deedsOf a x = w.deedsOf a x := by
  cases h with
  | @transferShare s recipient share own hshare =>
    obtain rfl : recipient = sender := hstay
    obtain rfl : share.id = s := Store.key_of_get? hshare
    rw [deedsOf_eq rfl (give_self ..), ← own, Function.update_eq_self]
    rfl
  | _ => rfl

/-- Any other call leaves all deeds with their holders. -/
theorem deeds_still (hf : w.Fresh) {c : Call} (hstay : c.StaysWith sender)
    (h : w.call sender c = .ok w') (hc : c.announcesHoldings = false) (a : ID) (x : Address) :
    w'.deedsOf a x = w.deedsOf a x := by
  cases c with
  | protocol c =>
    obtain ⟨-, _, _, -, rfl⟩ := World.protocolCall_eq_ok.mp h
    rfl
  | validator c => cases World.validatorCall_eq_ok.mp h <;> rfl
  | asset c =>
    obtain ⟨hshares, -, howner, -⟩ := asset_owners (World.assetCall_eq_ok.mp h) hc
    exact deedsOf_eq hshares howner a x
  | accumulator c => exact accumulator_deeds hf (World.accumulatorCall_eq_ok.mp h) hc a x
  | dispute c => cases World.disputeCall_eq_ok.mp h <;> rfl
  | framework c => exact framework_deeds (World.frameworkCall_eq_ok.mp h) hstay a x

/-- The framework's calls keep the holdings of a token whose treasury nobody owns any more. -/
theorem framework_coins (hf : w.Fresh) {c : FrameworkCall} (h : FrameworkStep w sender c w')
    (hstay : Call.StaysWith sender (.framework c)) (ht : w.treasuryCaps.get? t = none)
    (x : Address) : w'.coinsOf t x = w.coinsOf t x := by
  have hfresh : w.coins.get? w.nextId = none := hf.coins.get?_eq_none (Nat.lt_irrefl _)
  have hput := fun {token v} => Store.held_put_of_fresh (w.owner .coin) TokenCoin.token
    TokenCoin.value (x := ⟨w.nextId, token, v⟩) hfresh sender t x
  have hdelete := fun {k coin} (hcoin : w.coins.get? k = some coin) =>
    Store.held_delete (w.owner .coin) TokenCoin.token TokenCoin.value hcoin t x
  -- a mint and a burn need the treasury, which has gone into the accumulator; the others move no
  -- units between owners
  cases h with
  | mintToken _ hcap =>
    rw [coinsOf_eq rfl (give_self ..)]
    refine hput.trans ?_
    rw [if_neg, Nat.zero_add, coinsOf]
    rintro ⟨rfl, -⟩
    rw [hcap] at ht
    cases ht
  | burnToken _ hcap _ hcoin same =>
    have hgone := hdelete hcoin
    rw [if_neg, Nat.zero_add] at hgone
    · exact hgone
    rintro ⟨rfl, -⟩
    rw [same, hcap] at ht
    cases ht
  | zeroCoin =>
    rw [coinsOf_eq rfl (give_self ..)]
    refine hput.trans ?_
    rw [ite_self, Nat.zero_add, coinsOf]
  | destroyZero _ hcoin zero =>
    have hgone := hdelete hcoin
    rw [zero, ite_self, Nat.zero_add] at hgone
    exact hgone
  | @splitCoin k amount coin own hcoin funds =>
    have hvalue : coin.value - amount.val + amount.val = coin.value := by omega
    rw [coinsOf_eq rfl (give_self ..), ← own]
    exact Store.held_split _ _ TokenCoin.value (y := { coin with
      value := coin.value - amount.val }) (z := ⟨w.nextId, coin.token, amount.val⟩) hcoin rfl
      hfresh rfl rfl hvalue t x
  | @joinCoins _ _ coin other own hcoin own' hother distinct same =>
    exact Store.held_join _ _ TokenCoin.value (y := { coin with
      value := coin.value + other.value }) hcoin hother distinct rfl rfl same
      (own'.trans own.symm) rfl t x
  -- a coin that stays with its sender
  | @transferCoin k recipient coin own hcoin =>
    obtain rfl : recipient = sender := hstay
    obtain rfl : coin.id = k := Store.key_of_get? hcoin
    rw [coinsOf_eq rfl (give_self ..), ← own, Function.update_eq_self]
    rfl
  | _ => rfl

/-- And so it leaves the coins of a custodied token. -/
theorem coins_still (hf : w.Fresh) {c : Call} (hstay : c.StaysWith sender)
    (h : w.call sender c = .ok w') (hc : c.announcesHoldings = false)
    (ht : w.treasuryCaps.get? t = none) (x : Address) : w'.coinsOf t x = w.coinsOf t x := by
  cases c with
  | protocol c =>
    obtain ⟨-, _, _, -, rfl⟩ := World.protocolCall_eq_ok.mp h
    rfl
  | validator c => cases World.validatorCall_eq_ok.mp h <;> rfl
  | asset c =>
    obtain ⟨-, hcoins, -, howner⟩ := asset_owners (World.assetCall_eq_ok.mp h) hc
    exact coinsOf_eq hcoins howner t x
  | accumulator c =>
    cases World.accumulatorCall_eq_ok.mp h with
    | wrapShares | unwrapCoins | redeemShare => cases hc
    | _ => rfl
  | dispute c => cases World.disputeCall_eq_ok.mp h <;> rfl
  | framework c => exact framework_coins hf (World.frameworkCall_eq_ok.mp h) hstay ht x

/-! ## Calls that announce a change -/

/-- Deeds and wrapped coins change as the new events tell. -/
structure Accounted (w w' : World) (es : List Event) : Prop where
  events : w'.events = w.events ++ es
  deeds : ∀ a x, (w'.deedsOf a x : ℤ) = w.deedsOf a x + deedsTold a x es
  coins : ∀ a t, w.tokenOf a = some t → ∀ x,
    (w'.coinsOf t x : ℤ) = w.coinsOf t x + coinsTold a x es
  untold : ∀ a, w.tokenOf a = none → ∀ x, coinsTold a x es = 0

/-- A call that announces nothing. -/
theorem hushed_accounted (hf : w.Fresh) (hl : w.Linked) {c : Call} (hstay : c.StaysWith sender)
    (h : w.call sender c = .ok w') (hc : c.announcesHoldings = false) :
    ∃ es, w.Accounted w' es := by
  obtain ⟨es, hevents, hquiet⟩ := hushed h hc
  refine ⟨es, hevents, fun a x => ?_, fun a t ht x => ?_, fun a _ x => coinsTold_quiet hquiet a x⟩
  · rw [deeds_still hf hstay h hc, deedsTold_quiet hquiet, add_zero]
  · rw [coins_still hf hstay h hc (custodied_tokenOf hl ht), coinsTold_quiet hquiet, add_zero]

/-- A deed that is put down counts for the sender. -/
theorem deedsOf_put (hf : w.Fresh) {d : GallyShare} (hid : d.id = w.nextId) (a : ID)
    (x : Address) :
    (((w.shares.put d).held (w.give .share w.nextId sender .share) GallyShare.assetId
      GallyShare.shareCount a x : ℕ) : ℤ) =
      w.deedsOf a x + if d.assetId = a ∧ sender = x then (d.shareCount : ℤ) else 0 := by
  have hkey : Keyed.key d = w.nextId := hid
  have hfresh : w.shares.get? (Keyed.key d) = none :=
    hkey ▸ hf.shares.get?_eq_none (Nat.lt_irrefl _)
  have hput := Store.held_put_of_fresh (w.owner .share) GallyShare.assetId GallyShare.shareCount
    hfresh sender a x
  rw [hkey] at hput
  rw [give_self, hput, add_comm]
  push_cast
  rfl

/-- A deed that is consumed counts no longer for the sender. -/
theorem deedsOf_delete {s : ID} {share : GallyShare} (own : w.owner .share s = sender)
    (hshare : w.shares.get? s = some share) (a : ID) (x : Address) :
    (((w.shares.delete s).held (w.owner .share) GallyShare.assetId GallyShare.shareCount a x : ℕ) :
      ℤ) = w.deedsOf a x +
        if share.assetId = a ∧ sender = x then -(share.shareCount : ℤ) else 0 := by
  have hgone := Store.held_delete (w.owner .share) GallyShare.assetId GallyShare.shareCount
    hshare a x
  rw [own] at hgone
  rw [deedsOf, ← hgone]
  split <;> push_cast <;> ring

/-- A coin that is put down counts for the sender. -/
theorem coinsOf_put (hf : w.Fresh) {k : TokenCoin} (hid : k.id = w.nextId) (t : TypeTag)
    (x : Address) :
    (((w.coins.put k).held (w.give .coin w.nextId sender .coin) TokenCoin.token TokenCoin.value
      t x : ℕ) : ℤ) =
      w.coinsOf t x + if k.token = t ∧ sender = x then (k.value : ℤ) else 0 := by
  have hkey : Keyed.key k = w.nextId := hid
  have hfresh : w.coins.get? (Keyed.key k) = none :=
    hkey ▸ hf.coins.get?_eq_none (Nat.lt_irrefl _)
  have hput := Store.held_put_of_fresh (w.owner .coin) TokenCoin.token TokenCoin.value
    hfresh sender t x
  rw [hkey] at hput
  rw [give_self, hput, add_comm]
  push_cast
  rfl

/-- A coin that is consumed counts no longer for the sender. -/
theorem coinsOf_delete {k : ID} {coin : TokenCoin} (own : w.owner .coin k = sender)
    (hcoin : w.coins.get? k = some coin) (t : TypeTag) (x : Address) :
    (((w.coins.delete k).held (w.owner .coin) TokenCoin.token TokenCoin.value t x : ℕ) : ℤ) =
      w.coinsOf t x + if coin.token = t ∧ sender = x then -(coin.value : ℤ) else 0 := by
  have hgone := Store.held_delete (w.owner .coin) TokenCoin.token TokenCoin.value hcoin t x
  rw [own] at hgone
  rw [coinsOf, ← hgone]
  split <;> push_cast <;> ring

/-- A claim: a new deed. -/
theorem asset_accounted (hf : w.Fresh) {c : AssetCall} (h : AssetStep w sender c w')
    (hc : Call.announcesHoldings (.asset c) = true) : ∃ es, w.Accounted w' es := by
  cases h with
  | @claimShares _ _ _ _ acc receipt _ _ _ _ _ _ _ _ run =>
    obtain ⟨-, -, -, -, ⟨⟩⟩ := claimShares_eq_ok.mp run
    refine ⟨_, rfl, fun a x => ?_, fun a t _ x => ?_, fun a _ x => coinsTold_singleton ..⟩
    · rw [deedsTold_singleton]
      exact deedsOf_put hf (d := receipt.deed w.nextId acc.cumulativeYieldIndex w.clockMs) rfl
        a x
    · rw [coinsTold_singleton]
      exact (add_zero _).symm
  | _ => cases hc

/-- The events of an automatic sweep are quiet. -/
theorem swept_quiet {swept : List Event} (h : AutoSwept acc acc' swept) (e : Event)
    (he : e ∈ swept) : e.Quiet := by
  rw [Event.quiet_iff, swept_topics h e he]
  exact Topic.noConfusion

/-- Wrapping, unwrapping and redemption. -/
theorem accumulator_accounted (hf : w.Fresh) (hl : w.Linked) {c : AccumulatorCall}
    (h : AccumulatorStep w sender c w') (hc : Call.announcesHoldings (.accumulator c) = true) :
    ∃ es, w.Accounted w' es := by
  -- the coins of an asset that has no token yet are those of no accumulator
  have hother : ∀ {g acc a}, w.accumulators.get? g = some acc → w.tokenOf a = none →
      acc.assetId ≠ a := by
    rintro g acc a hacc ht rfl
    rw [tokenOf_acc hl hacc] at ht
    cases ht
  cases h with
  -- the deed of the sender turns into a coin of as many units
  | @wrapShares _ _ acc share _ hacc own hshare guards run =>
    obtain ⟨-, ⟨⟩⟩ := wrapShares_eq_ok.mp run
    have hasset : share.assetId = acc.assetId := guards.claim.asset
    refine ⟨_, rfl, fun a x => ?_, fun a t ht x => ?_, fun a ht x => ?_⟩
    · rw [deedsTold_cons, deedsTold_singleton, ← hasset]
      refine (deedsOf_delete own hshare a x).trans ?_
      simp [Event.deedChange]
    · rw [coinsTold_cons, coinsTold_singleton]
      refine (coinsOf_put hf (k := ⟨w.nextId, _, _⟩) rfl t x).trans ?_
      simp [Event.coinChange, token_iff hl hacc ht]
    · simp [coinsTold, Event.coinChange, hother hacc ht]
  -- the old deed is gone, and a coin of the same units is there
  | @unwrapCoins _ _ acc acc' coin swept _ hacc own hcoin token guards sweep run =>
    obtain ⟨-, -, swept, hsweep, rfl⟩ := unwrapCoins_eq_ok.mp run
    have hasset : acc'.assetId = acc.assetId := sweep.frame.assetId
    have hquiet := swept_quiet hsweep
    refine ⟨_, rfl, fun a x => ?_, fun a t ht x => ?_, fun a ht x => ?_⟩
    · rw [deedsTold_append, deedsTold_quiet hquiet, deedsTold_singleton, zero_add, hasset]
      exact deedsOf_put hf (d := acc.freshShare w.nextId coin.value w.clockMs) rfl a x
    · rw [coinsTold_append, coinsTold_quiet hquiet, coinsTold_singleton, zero_add, hasset]
      refine (coinsOf_delete own hcoin t x).trans ?_
      rw [token]
      simp [Event.coinChange, token_iff hl hacc ht]
    · rw [coinsTold_append, coinsTold_quiet hquiet, coinsTold_singleton, zero_add, hasset]
      simp [Event.coinChange, hother hacc ht]
  -- a redeemed deed is burned, and no coin comes of it
  | @redeemShare _ _ acc share _ hacc own hshare guards run =>
    obtain ⟨-, ⟨⟩⟩ := redeemShare_eq_ok.mp run
    have hasset : share.assetId = acc.assetId := guards.claim.asset
    refine ⟨_, rfl, fun a x => ?_, fun a t ht x => ?_, fun a ht x => rfl⟩
    · rw [deedsTold_cons, deedsTold_singleton, ← hasset]
      refine (deedsOf_delete own hshare a x).trans ?_
      simp [Event.deedChange]
    · exact (add_zero _).symm
  | _ => cases hc

/-- Every call that keeps objects with their sender changes the holdings by what its events tell. -/
theorem accounted (hf : w.Fresh) (hl : w.Linked) {c : Call} (hstay : c.StaysWith sender)
    (h : w.call sender c = .ok w') : ∃ es, w.Accounted w' es := by
  cases hc : c.announcesHoldings with
  | false => exact hushed_accounted hf hl hstay h hc
  | true =>
    cases c with
    | asset c => exact asset_accounted hf (World.assetCall_eq_ok.mp h) hc
    | accumulator c => exact accumulator_accounted hf hl (World.accumulatorCall_eq_ok.mp h) hc
    | protocol | validator | dispute | framework => cases hc

/-! ## Bounds -/

/-- No call changes the goal of a raise. -/
theorem touch_goal {asset asset' : Asset} {c : Call} (h : asset.Touch w sender c asset') :
    asset'.fundingGoal = asset.fundingGoal := by
  cases h with
  | verdict _ _ _ _ decides =>
    cases decides with
    | upheld =>
      simp only [upheldVerdict, Asset.upheld]
      split <;> rfl
    | _ => rfl
  | _ => rfl

/-- Units are minted once, at the finalization; later they are only burned. -/
theorem touch_minted {c : Call} (h : acc.Touch w sender c acc') :
    acc'.totalMintedShares ≤ acc.totalMintedShares := by
  cases h with
  | unwrap _ _ _ sweep =>
    rw [sweep.frame.minted]
    exact Nat.le_refl _
  | sweepCompensation _ _ route =>
    exact Nat.le_of_eq route.frame.minted
  | deposit _ _ deposited =>
    rw [deposited.routed.frame.minted]
    exact Nat.le_refl _
  | redeem => exact Nat.sub_le _ _
  | _ => exact Nat.le_refl _

/-- The goal of an asset stays. -/
theorem call_goal (hf : w.Fresh) {c : Call} (h : w.call sender c = .ok w') {asset : Asset}
    (hasset : w.assets.get? a = some asset) :
    ∃ asset', w'.assets.get? a = some asset' ∧ asset'.fundingGoal = asset.fundingGoal := by
  obtain ⟨asset', hasset', htouch⟩ := call_touch hf h a asset hasset
  exact ⟨asset', hasset', touch_goal htouch⟩

/-- An accumulator has at most the goal of its asset in shares. -/
def Minted (w : World) : Prop := ∀ g acc, w.accumulators.get? g = some acc →
  ∃ asset, w.assets.get? acc.assetId = some asset ∧ acc.totalMintedShares ≤ asset.fundingGoal

/-- In every reachable world no asset has more units than its goal. -/
theorem minted (hw : Reachable w) : w.Minted := by
  refine hw.induct (P := World.Minted) ?_ ?_ fun _ h _ => h
  · intro admin g acc hacc
    cases hacc
  -- an accumulator that was there before, or the one of a raise that is finalized now
  · intro w sender c w' hw ih h g acc' hacc'
    rcases call_accumulators hw.fresh h hacc' with ⟨acc, hacc, htouch⟩ |
      ⟨a, asset, cap, hasset, -, hnew⟩
    · obtain ⟨asset, hasset, hle⟩ := ih g acc hacc
      obtain ⟨asset', hasset', hgoal⟩ := call_goal hw.fresh h hasset
      refine ⟨asset', htouch.assetId ▸ hasset', ?_⟩
      exact (touch_minted htouch).trans (hgoal ▸ hle)
    · obtain ⟨asset', hasset', hgoal⟩ := call_goal hw.fresh h hasset
      obtain rfl : asset.id = a := Store.key_of_get? hasset
      subst hnew
      exact ⟨asset', hasset', Nat.le_of_eq hgoal.symm⟩

/-- The event tells of no more units than the goal of its asset. -/
def Bounds (w : World) (e : Event) : Prop := ∀ a n, e.units = some (a, n) →
  ∃ asset, w.assets.get? a = some asset ∧ n ≤ asset.fundingGoal

/-- A quiet event counts no units, so nothing bounds it. -/
theorem Bounds.of_quiet {e : Event} (h : e.Quiet) : w.Bounds e := by
  intro a n hunits
  rw [h.units] at hunits
  cases hunits

/-- What an accumulator bounds, its asset's goal bounds. -/
theorem Bounds.of_acc (hw : Reachable w) (hacc : w.accumulators.get? g = some acc) {e : Event}
    {n : ℕ} (hunits : e.units = some (acc.assetId, n)) (hle : n ≤ acc.totalMintedShares) :
    w.Bounds e := by
  intro a m h
  obtain ⟨rfl, rfl⟩ := Prod.mk.inj (Option.some.inj (hunits.symm.trans h))
  obtain ⟨asset, hasset, hminted⟩ := minted hw g acc hacc
  exact ⟨asset, hasset, hle.trans hminted⟩

/-- The new events of a call. -/
theorem call_bounds (hw : Reachable w) {c : Call} (h : w.call sender c = .ok w') :
    ∃ es, w'.events = w.events ++ es ∧ ∀ e ∈ es, w.Bounds e := by
  -- only the four calls that announce holdings report units at all
  cases hc : c.announcesHoldings with
  | false =>
    obtain ⟨es, hevents, hquiet⟩ := hushed h hc
    exact ⟨es, hevents, fun e he => .of_quiet (hquiet e he)⟩
  | true =>
    cases c with
    | asset c =>
      cases World.assetCall_eq_ok.mp h with
      | @claimShares _ g _ asset acc receipt _ _ hacc _ hreceipt _ linked belongs run =>
        obtain ⟨-, -, -, -, ⟨⟩⟩ := claimShares_eq_ok.mp run
        obtain ⟨_, -, -, -, htied⟩ := hw.tied hacc
        have hunits := htied.balanced.units
        have hasset : receipt.assetId = acc.assetId := belongs.trans linked.symm
        -- a receipt that is held is part of the units not claimed yet
        have hle : receipt.amount ≤ (w.engine acc).receiptUnits :=
          Store.le_sum (Store.mem_group.mpr ⟨Store.mem_of_get? hreceipt, hasset⟩) _
        refine ⟨_, rfl, List.forall_mem_singleton.mpr (.of_acc hw hacc (n := receipt.amount) ?_ ?_)⟩
        · rw [← hasset]
          rfl
        · change _ ≤ (w.engine acc).acc.totalMintedShares
          omega
      | _ => cases hc
    | accumulator c =>
      cases World.accumulatorCall_eq_ok.mp h with
      | @wrapShares _ _ acc share _ hacc _ hshare guards run =>
        obtain ⟨-, ⟨⟩⟩ := wrapShares_eq_ok.mp run
        obtain ⟨_, -, -, -, htied⟩ := hw.tied hacc
        have hunits := htied.balanced.units
        -- a wrapped deed is part of the units that are deeds
        have hle : share.shareCount ≤ (w.engine acc).deedUnits :=
          Store.le_sum (Store.mem_group.mpr ⟨Store.mem_of_get? hshare, guards.claim.asset⟩) _
        refine ⟨_, rfl, List.forall_mem_cons.mpr ⟨.of_quiet trivial,
          List.forall_mem_singleton.mpr (.of_acc hw hacc rfl ?_)⟩⟩
        change _ ≤ (w.engine acc).acc.totalMintedShares
        omega
      | @unwrapCoins _ _ acc acc' coin swept _ hacc _ _ _ guards sweep run =>
        obtain ⟨-, -, swept, hsweep, rfl⟩ := unwrapCoins_eq_ok.mp run
        obtain ⟨_, -, -, -, htied⟩ := hw.tied hacc
        -- what is unwrapped had been wrapped
        have hle : coin.value ≤ acc.totalMintedShares :=
          guards.wrapped.trans htied.balanced.supply
        refine ⟨_, rfl, List.forall_mem_append.mpr ⟨fun e he => .of_quiet (swept_quiet hsweep e he),
          List.forall_mem_singleton.mpr (.of_acc hw hacc (n := coin.value) ?_ hle)⟩⟩
        have hasset : acc'.assetId = acc.assetId := sweep.frame.assetId
        rw [hasset]
        rfl
      | redeemShare hacc _ _ guards run =>
        obtain ⟨-, ⟨⟩⟩ := redeemShare_eq_ok.mp run
        exact ⟨_, rfl, List.forall_mem_cons.mpr ⟨.of_quiet trivial,
          List.forall_mem_singleton.mpr (.of_acc hw hacc rfl guards.minted)⟩⟩
      | _ => cases hc
    | protocol | validator | dispute | framework => cases hc

/-- No event of the log tells of more units than the goal of its asset. -/
theorem log_bounds (hw : Reachable w) : ∀ e ∈ w.events, w.Bounds e := by
  refine hw.induct (P := fun w => ∀ e ∈ w.events, World.Bounds w e) ?_ ?_ fun _ h _ => h
  · intro admin e he
    obtain rfl := List.mem_singleton.mp he
    exact .of_quiet trivial
  · intro w sender c w' hw ih h e he a n hunits
    obtain ⟨es, hevents, hnew⟩ := call_bounds hw h
    rw [hevents] at he
    -- an event of the log before, or one of this call; the goal of the asset is still the same
    have hbounds : w.Bounds e := (List.mem_append.mp he).elim (ih e) (hnew e)
    obtain ⟨asset, hasset, hle⟩ := hbounds a n hunits
    obtain ⟨asset', hasset', hgoal⟩ := call_goal hw.fresh h hasset
    exact ⟨asset', hasset', hgoal ▸ hle⟩

/-! ## Whole runs -/

/-- An accumulator keeps its token. -/
theorem touch_token {c : Call} (h : acc.Touch w sender c acc') :
    acc'.treasuryCap.token = acc.treasuryCap.token := by
  cases h with
  | unwrap _ _ _ sweep =>
    rw [sweep.frame.cap]
    rfl
  | sweepCompensation _ _ route => exact congrArg TreasuryCap.token route.frame.cap
  | deposit _ _ deposited => exact congrArg TreasuryCap.token deposited.routed.frame.cap
  | _ => rfl

/-- Nobody has wrapped before the raise is finalized. -/
theorem wrappedOf_new (hw' : Reachable w') (hacc : w'.accumulators.get? g = some acc)
    (hnew : acc.totalWrappedShares = 0) (x : Address) : w'.coinsOf acc.treasuryCap.token x = 0 := by
  obtain ⟨_, -, -, -, htied⟩ := hw'.tied hacc
  have hsupply : (w'.engine acc).coinUnits = 0 :=
    (htied.balanced.coins.trans htied.balanced.wrapped).trans hnew
  have hle := Store.held_le_group (w'.owner .coin) TokenCoin.token TokenCoin.value
    (s := w'.coins) acc.treasuryCap.token x
  exact Nat.le_zero.mp (hsupply ▸ hle)

/-- Everyone holds what the log tells. -/
def Told (w : World) : Prop := ∀ a x, (w.deedsOf a x : ℤ) = deedsTold a x w.events ∧
  (w.wrappedOf a x : ℤ) = coinsTold a x w.events

/-- One call keeps the holdings told. -/
theorem Told.call (hw : Reachable w) (htold : w.Told) {c : Call} (hstay : c.StaysWith sender)
    (h : w.call sender c = .ok w') : w'.Told := by
  obtain ⟨es, hes⟩ := accounted hw.fresh hw.linked hstay h
  have hl' := (hw.call h).linked
  intro a x
  obtain ⟨hdeeds, hcoins⟩ := htold a x
  rw [hes.events, deedsTold_append, coinsTold_append, ← hdeeds, ← hcoins]
  refine ⟨hes.deeds a x, ?_⟩
  -- an asset with a token before the call, or with none yet
  cases ht : w.tokenOf a with
  | some t =>
    obtain ⟨g, acc, hacc, rfl, rfl⟩ := (tokenOf_eq_some hw.linked).mp ht
    obtain ⟨acc', hacc', htouch⟩ := call_touchAcc hw.fresh h g acc hacc
    have ht' : w'.tokenOf acc.assetId = some acc.treasuryCap.token :=
      (tokenOf_eq_some hl').mpr ⟨g, acc', hacc', htouch.assetId, touch_token htouch⟩
    rw [wrappedOf, wrappedOf, ht, ht']
    exact hes.coins _ _ ht x
  | none =>
    rw [hes.untold a ht x, add_zero, wrappedOf, wrappedOf, ht]
    cases ht' : w'.tokenOf a with
    | none => rfl
    | some t =>
      -- the raise has just been finalized
      obtain ⟨g, acc', hacc', rfl, rfl⟩ := (tokenOf_eq_some hl').mp ht'
      rcases call_accumulators hw.fresh h hacc' with ⟨acc, hacc, htouch⟩ | ⟨_, _, _, -, -, hnew⟩
      · have hold := (tokenOf_eq_some hw.linked).mpr ⟨g, acc, hacc, rfl, rfl⟩
        rw [← htouch.assetId, ht] at hold
        cases hold
      · have hzero := wrappedOf_new (hw.call h) hacc' (by rw [hnew]; rfl) x
        simp [hzero]

end World

/-- As long as deeds and coins stay with their holders, everyone holds what the log tells. -/
theorem holdings_told {w : World} {admin : Address} {actions : List Action}
    (hrun : (World.genesis admin).run actions = .ok w)
    (hstay : ∀ action ∈ actions, action.Obeys .staying) : w.Told := by
  have hgenesis : Reachable (World.genesis admin) := ⟨admin, [], World.run_nil _⟩
  refine (World.Path.of_run_rule hstay hrun).preserves hgenesis ?_
    (fun hw htold hstay h => htold.call hw hstay h) fun _ htold _ => htold
  -- in the first world nobody holds anything and the log is empty
  intro a x
  exact ⟨rfl, rfl⟩

end Gally

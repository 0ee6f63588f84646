import Gally.Chain.Touch

/-!
# Who owns the capabilities

Capabilities and receipts cannot be transferred, so an `EntityCap` stays with the entity
of its asset and a `ValidatorCap` with the validator of its pool.

## Key results

- `Reachable.titled`, `Reachable.entityCap`, `Reachable.validatorCap`
-/

namespace Gally

open Checked

/-- A step of a site keeps who listed the asset. -/
theorem Site.Step.entity {s s' : Site} (h : Site.Step s s') :
    s'.asset.entity = s.asset.entity := by
  cases h with
  | uphold =>
    simp only [Asset.upheld]
    split <;> rfl
  | _ => rfl

/-- Every capability is owned by whom its object names. -/
structure World.Titled (w : World) : Prop where
  entity : ∀ cap ∈ w.entityCaps, ∃ asset, w.assets.get? cap.assetId = some asset ∧
    w.owner .soulbound cap.id = asset.entity
  validator : ∀ cap ∈ w.validatorCaps, ∃ pool, w.pools.get? cap.poolId = some pool ∧
    w.owner .soulbound cap.id = pool.validator

namespace World

variable {w w' : World} {sender : Address}

/-- Handing out a new object leaves the owners of old ones alone. -/
theorem give_of_lt {kind : OwnedKind} {n k : ID} {a : Address}
    (h : w'.owner = w.give kind n a) (hk : k < n) :
    w'.owner .soulbound k = w.owner .soulbound k := by
  rw [h]
  unfold give
  rw [if_neg]
  intro hkey
  exact Nat.ne_of_lt hk hkey.2

/-- A transfer of something transferable leaves the owners of the rest alone. -/
theorem give_of_ne {kind : OwnedKind} {n k : ID} {a : Address}
    (h : w'.owner = w.give kind n a) (hkind : kind ≠ .soulbound) :
    w'.owner .soulbound k = w.owner .soulbound k := by
  rw [h]
  unfold give
  rw [if_neg]
  intro hkey
  exact hkind hkey.1.symm

/-- Nobody hands over what cannot be transferred. -/
theorem call_owner {c : Call} (h : w.call sender c = .ok w') {k : ID} (hk : k < w.nextId) :
    w'.owner .soulbound k = w.owner .soulbound k := by
  -- the call gives only IDs from `nextId` on, or objects of another kind
  have hk1 : k < w.nextId + 1 := Nat.lt_succ_of_lt hk
  cases c with
  | protocol c =>
    obtain ⟨-, _, _, -, rfl⟩ := World.protocolCall_eq_ok.mp h
    rfl
  | validator c =>
    cases World.validatorCall_eq_ok.mp h with
    | registerValidator => exact give_of_lt rfl hk1
    | _ => rfl
  | asset c =>
    cases World.assetCall_eq_ok.mp h with
    | createAsset _ created => exact give_of_lt rfl (created.cap ▸ hk1)
    | createTermAsset _ created => exact give_of_lt rfl (created.cap ▸ hk1)
    | contributeCapital => exact give_of_lt rfl hk
    | claimShares => exact give_of_lt rfl hk
    | _ => rfl
  | accumulator c =>
    cases World.accumulatorCall_eq_ok.mp h with
    | wrapShares => exact give_of_lt rfl hk
    | unwrapCoins => exact give_of_lt rfl hk
    | splitShare => exact give_of_lt rfl hk
    | _ => rfl
  | dispute c => cases World.disputeCall_eq_ok.mp h <;> rfl
  | framework c =>
    cases World.frameworkCall_eq_ok.mp h with
    | publishToken => exact give_of_lt rfl hk
    | mintToken => exact give_of_lt rfl hk
    | zeroCoin => exact give_of_lt rfl hk
    | splitCoin => exact give_of_lt rfl hk
    -- transfers reach no soulbound object
    | transferCoin => exact give_of_ne rfl (by decide)
    | transferShare => exact give_of_ne rfl (by decide)
    | transferTreasuryCap => exact give_of_ne rfl (by decide)
    | _ => rfl

/-- Every pool stays with its validator. -/
theorem call_pools (hf : w.Fresh) {c : Call} (h : w.call sender c = .ok w') :
    w.pools.Keeps (fun pool pool' => pool'.validator = pool.validator) w'.pools := by
  -- every pool that is replaced keeps its validator; a new one lies under a fresh ID
  have hr : ∀ pool : ValidatorPool, pool.validator = pool.validator := fun _ => rfl
  cases c with
  | protocol c =>
    obtain ⟨-, _, _, -, rfl⟩ := World.protocolCall_eq_ok.mp h
    exact .refl hr _
  | validator c =>
    cases World.validatorCall_eq_ok.mp h with
    | registerValidator => exact .fresh hr _ (hf.pools.get?_eq_none (Nat.lt_irrefl _))
    | addStake hpool => exact .replace hr _ hpool rfl rfl
    | withdrawStake hpool => exact .replace hr _ hpool rfl rfl
  | asset c =>
    cases World.assetCall_eq_ok.mp h with
    | vouchAssetLegals _ hpool => exact .replace hr _ hpool rfl rfl
    | abortFailedRaise _ hpool => exact .replace hr _ hpool rfl rfl
    | releaseVouchCoverage _ hpool => exact .replace hr _ hpool rfl rfl
    | _ => exact .refl hr _
  | accumulator c => cases World.accumulatorCall_eq_ok.mp h <;> exact .refl hr _
  | dispute c =>
    cases World.disputeCall_eq_ok.mp h with
    | initializeDispute _ hpool => exact .replace hr _ hpool rfl rfl
    | resolveDispute _ hpool _ _ _ decides =>
      exact .replace hr _ hpool decides.keeps.poolId decides.keeps.validator
    | _ => exact .refl hr _
  | framework c => cases World.frameworkCall_eq_ok.mp h <;> exact .refl hr _

/-- A capability is old, or was handed to whom its new object names. -/
theorem call_caps {c : Call} (h : w.call sender c = .ok w') :
    (w'.entityCaps = w.entityCaps ∧ w'.validatorCaps = w.validatorCaps) ∨
    (∃ cap asset, w'.entityCaps = w.entityCaps.put cap ∧ w'.validatorCaps = w.validatorCaps ∧
      w'.assets.get? cap.assetId = some asset ∧ w'.owner .soulbound cap.id = asset.entity) ∨
    ∃ cap pool, w'.validatorCaps = w.validatorCaps.put cap ∧ w'.entityCaps = w.entityCaps ∧
      w'.pools.get? cap.poolId = some pool ∧ w'.owner .soulbound cap.id = pool.validator := by
  -- a listing files the asset with its cap, both under fresh IDs
  have hlisted : ∀ {asset : Asset} {cap : EntityCap} {collateral now : ℕ} {events : List Event},
      asset.CreatedBy cap sender collateral now w.nextId (w.nextId + 1) →
      (w.listed sender collateral asset cap events).assets.get? cap.assetId = some asset ∧
        (w.listed sender collateral asset cap events).owner .soulbound cap.id = asset.entity := by
    intro asset cap collateral now events hc
    refine ⟨?_, ?_⟩
    · have hkey : cap.assetId = asset.id := by rw [hc.cap, hc.id]
      rw [hkey]
      exact Store.get?_put_self _ asset
    · simp [World.listed, give, hc.entity]
  cases c with
  | protocol c =>
    obtain ⟨-, _, _, -, rfl⟩ := World.protocolCall_eq_ok.mp h
    exact Or.inl ⟨rfl, rfl⟩
  | validator c =>
    cases World.validatorCall_eq_ok.mp h with
    | @registerValidator stake name =>
      refine Or.inr (Or.inr ⟨_, _, rfl, rfl, Store.get?_put_self _ (ValidatorPool.registered
        w.nextId sender name stake.val w.clockMs), ?_⟩)
      simp [give, ValidatorPool.registered]
    | _ => exact Or.inl ⟨rfl, rfl⟩
  | asset c =>
    cases World.assetCall_eq_ok.mp h with
    | createAsset _ created => exact Or.inr (Or.inl ⟨_, _, rfl, rfl, hlisted created⟩)
    | createTermAsset _ created => exact Or.inr (Or.inl ⟨_, _, rfl, rfl, hlisted created⟩)
    | _ => exact Or.inl ⟨rfl, rfl⟩
  | accumulator c => cases World.accumulatorCall_eq_ok.mp h <;> exact Or.inl ⟨rfl, rfl⟩
  | dispute c => cases World.disputeCall_eq_ok.mp h <;> exact Or.inl ⟨rfl, rfl⟩
  | framework c => cases World.frameworkCall_eq_ok.mp h <;> exact Or.inl ⟨rfl, rfl⟩

end World

/-- A call keeps the caps with the parties they were made for. -/
theorem World.Titled.call {w w' : World} {sender : Address} (ht : w.Titled) (hw : Reachable w)
    {c : Call} (h : w.call sender c = .ok w') : w'.Titled := by
  have hf := hw.fresh
  -- the assets and the owners of old caps stay, so old caps are still right
  have hentity : ∀ cap ∈ w.entityCaps, ∃ asset, w'.assets.get? cap.assetId = some asset ∧
      w'.owner .soulbound cap.id = asset.entity := by
    intro cap hcap
    obtain ⟨asset, hasset, howner⟩ := ht.entity cap hcap
    obtain ⟨asset', hasset', hstep⟩ := World.call_sites hw h _ asset hasset
    refine ⟨asset', hasset', ?_⟩
    have hold : cap.id < w.nextId := hf.entityCaps cap hcap
    rw [World.call_owner h hold, howner]
    rcases hstep with heq | hstep
    · rw [show asset' = asset from congrArg Site.asset heq]
    · exact hstep.entity.symm
  have hvalidator : ∀ cap ∈ w.validatorCaps, ∃ pool, w'.pools.get? cap.poolId = some pool ∧
      w'.owner .soulbound cap.id = pool.validator := by
    intro cap hcap
    obtain ⟨pool, hpool, howner⟩ := ht.validator cap hcap
    obtain ⟨pool', hpool', hv⟩ := World.call_pools hf h _ pool hpool
    have hold : cap.id < w.nextId := hf.validatorCaps cap hcap
    exact ⟨pool', hpool', by rw [World.call_owner h hold, howner, hv]⟩
  -- the only new caps are those of a listing and of a registration
  rcases World.call_caps h with ⟨he, hv⟩ | ⟨cap, asset, he, hv, hnew⟩ | ⟨cap, pool, hv, he, hnew⟩
  · exact ⟨he ▸ hentity, hv ▸ hvalidator⟩
  · exact ⟨he ▸ Store.forall_put ⟨asset, hnew⟩ hentity, hv ▸ hvalidator⟩
  · exact ⟨he ▸ hentity, hv ▸ Store.forall_put ⟨pool, hnew⟩ hvalidator⟩

/-- Every asset has an `EntityCap`. -/
def World.Capped (w : World) : Prop := ∀ a asset, w.assets.get? a = some asset →
  ∃ c cap, w.entityCaps.get? c = some cap ∧ cap.assetId = a

/-- A call keeps every asset with its cap. -/
theorem World.Capped.call {w w' : World} {sender : Address} (hc : w.Capped) (hf : w.Fresh)
    {c : Call} (h : w.call sender c = .ok w') : w'.Capped := by
  intro b asset' hasset'
  -- a new asset comes with its cap, and no old cap is removed
  rcases World.call_listed h with ⟨asset, cap, collateral, events, created, rfl⟩ | ⟨heq, hold⟩
  · simp only [World.listed, Store.get?_put] at hasset'
    split at hasset'
    · next hb =>
      refine ⟨cap.id, cap, Store.get?_put_self _ cap, ?_⟩
      rw [created.cap, ← show asset.id = b from hb, created.id]
    · obtain ⟨k, x, hx, ha⟩ := hc b asset' hasset'
      have hne : cap.id ≠ k := by
        have hlt : k < w.nextId := hf.entityCaps.get?_lt hx
        rw [created.cap]
        exact Nat.ne_of_gt (Nat.lt_succ_of_lt hlt)
      exact ⟨k, x, (Store.get?_put_ne (show Keyed.key cap ≠ k from hne)).trans hx, ha⟩
  · obtain ⟨asset, hasset⟩ := Option.isSome_iff_exists.mp (hold b asset' hasset')
    exact heq ▸ hc b asset hasset

/-- In a reachable world every asset has a cap. -/
theorem Reachable.capped {w : World} (hw : Reachable w) : w.Capped :=
  hw.induct (fun _ _ _ hasset => by simp [World.genesis] at hasset)
    (fun hw hc h => hc.call hw.fresh h) fun _ hc _ => hc

/-- In a reachable world the caps belong to the parties they were made for. -/
theorem Reachable.titled {w : World} (hw : Reachable w) : w.Titled := by
  refine hw.induct ?_ (fun hw ht h => ht.call hw h) fun _ ht _ => { ht with }
  intro admin
  exact ⟨by simp [World.genesis], by simp [World.genesis]⟩

/-- Every pool has a `ValidatorCap`. -/
def World.Commissioned (w : World) : Prop := ∀ p pool, w.pools.get? p = some pool →
  ∃ c cap, w.validatorCaps.get? c = some cap ∧ cap.poolId = p

/-- A call keeps every pool with its cap. -/
theorem World.Commissioned.call {w w' : World} {sender : Address} (hc : w.Commissioned)
    (hf : w.Fresh) {c : Call} (h : w.call sender c = .ok w') : w'.Commissioned := by
  intro p pool' hpool'
  -- a new pool comes with its cap, and no old cap is removed
  rcases World.call_registered h with ⟨_, _, -, hpools, hcaps⟩ | ⟨hcaps, hold⟩
  · rw [hpools, Store.get?_put] at hpool'
    rw [hcaps]
    split at hpool'
    · next hp => exact ⟨w.nextId + 1, ⟨w.nextId + 1, w.nextId⟩, Store.get?_put_self _ _, hp⟩
    · obtain ⟨k, x, hx, hpoolId⟩ := hc p pool' hpool'
      have hlt : k < w.nextId := hf.validatorCaps.get?_lt hx
      refine ⟨k, x, (Store.get?_put_ne ?_).trans hx, hpoolId⟩
      exact Nat.ne_of_gt (Nat.lt_succ_of_lt hlt)
  · obtain ⟨pool, hpool⟩ := Option.isSome_iff_exists.mp (hold p pool' hpool')
    exact hcaps ▸ hc p pool hpool

/-- In a reachable world every pool has a cap. -/
theorem Reachable.commissioned {w : World} (hw : Reachable w) : w.Commissioned :=
  hw.induct (fun _ _ _ hpool => by simp [World.genesis] at hpool)
    (fun hw hc h => hc.call hw.fresh h) fun _ hc _ => hc

/-! ## The admin -/

/-- The address that holds the `AdminCap`. -/
def World.admin (w : World) : Address := w.owner .soulbound w.adminCap.id

/-- No call replaces the admin cap or reuses an ID. -/
theorem World.call_adminCap {w w' : World} {sender : Address} {c : Call}
    (h : w.call sender c = .ok w') : w'.adminCap = w.adminCap ∧ w.nextId ≤ w'.nextId := by
  cases c with
  | protocol c =>
    obtain ⟨-, _, _, -, rfl⟩ := World.protocolCall_eq_ok.mp h
    exact ⟨rfl, Nat.le_refl _⟩
  | validator c =>
    cases World.validatorCall_eq_ok.mp h <;> exact ⟨rfl, by simp⟩
  | asset c =>
    cases World.assetCall_eq_ok.mp h <;> exact ⟨rfl, by simp [World.listed, World.closing]⟩
  | accumulator c => cases World.accumulatorCall_eq_ok.mp h <;> exact ⟨rfl, by simp⟩
  | dispute c => cases World.disputeCall_eq_ok.mp h <;> exact ⟨rfl, by simp⟩
  | framework c => cases World.frameworkCall_eq_ok.mp h <;> exact ⟨rfl, by simp⟩

/-- The ID of the admin cap was given out. -/
theorem Reachable.adminCap_lt {w : World} (hw : Reachable w) : w.adminCap.id < w.nextId := by
  refine hw.induct (P := fun w => w.adminCap.id < w.nextId) (fun admin => by simp [World.genesis])
    (fun _ hlt h => ?_) fun _ hlt _ => hlt
  obtain ⟨heq, hle⟩ := World.call_adminCap h
  exact heq ▸ Nat.lt_of_lt_of_le hlt hle

/-- The admin stays the admin. -/
theorem Reachable.call_admin {w w' : World} (hw : Reachable w) {sender : Address} {c : Call}
    (h : w.call sender c = .ok w') : w'.admin = w.admin := by
  rw [World.admin, (World.call_adminCap h).1, World.call_owner h hw.adminCap_lt, World.admin]

/-! ## Who can use a capability -/

/-- Whoever uses an `EntityCap` of an asset is its entity. -/
theorem Reachable.entity_of_cap {w : World} (hw : Reachable w) {c a : ID} {cap : EntityCap}
    {asset : Asset} {sender : Address} (own : w.owner .soulbound c = sender)
    (hcap : w.entityCaps.get? c = some cap) (hasset : w.assets.get? a = some asset)
    (belongs : cap.assetId = asset.id) : sender = asset.entity := by
  obtain ⟨x, hx, howner⟩ := hw.titled.entity cap (Store.mem_of_get? hcap)
  have hself : w.assets.get? asset.id = some asset := Store.get?_key (Store.mem_of_get? hasset)
  rw [belongs, hself] at hx
  obtain rfl := Option.some.inj hx
  rw [← own, ← show cap.id = c from Store.key_of_get? hcap, howner]

/-- The entity of an asset can use its `EntityCap`. -/
theorem Reachable.entityCap {w : World} (hw : Reachable w) {a : ID} {asset : Asset}
    (hasset : w.assets.get? a = some asset) : ∃ c cap, w.entityCaps.get? c = some cap ∧
      cap.assetId = asset.id ∧ w.owner .soulbound c = asset.entity := by
  obtain ⟨c, cap, hcap, ha⟩ := hw.capped a asset hasset
  have hid : asset.id = a := Store.key_of_get? hasset
  have hbelongs := ha.trans hid.symm
  exact ⟨c, cap, hcap, hbelongs, hw.entity_of_cap rfl hcap hasset hbelongs⟩

/-- Whoever uses a `ValidatorCap` of a pool is its validator. -/
theorem Reachable.validator_of_cap {w : World} (hw : Reachable w) {c p : ID} {cap : ValidatorCap}
    {pool : ValidatorPool} {sender : Address} (own : w.owner .soulbound c = sender)
    (hcap : w.validatorCaps.get? c = some cap) (hpool : w.pools.get? p = some pool)
    (belongs : cap.poolId = pool.id) : sender = pool.validator := by
  obtain ⟨x, hx, howner⟩ := hw.titled.validator cap (Store.mem_of_get? hcap)
  have hself : w.pools.get? pool.id = some pool := Store.get?_key (Store.mem_of_get? hpool)
  rw [belongs, hself] at hx
  obtain rfl := Option.some.inj hx
  rw [← own, ← show cap.id = c from Store.key_of_get? hcap, howner]

/-- The validator of a pool can use its `ValidatorCap`. -/
theorem Reachable.validatorCap {w : World} (hw : Reachable w) {p : ID} {pool : ValidatorPool}
    (hpool : w.pools.get? p = some pool) : ∃ c cap, w.validatorCaps.get? c = some cap ∧
      cap.poolId = pool.id ∧ w.owner .soulbound c = pool.validator := by
  obtain ⟨c, cap, hcap, hp⟩ := hw.commissioned p pool hpool
  have hid : pool.id = p := Store.key_of_get? hpool
  have hbelongs := hp.trans hid.symm
  exact ⟨c, cap, hcap, hbelongs, hw.validator_of_cap rfl hcap hpool hbelongs⟩

end Gally

import Gally.Chain.Treasury

/-!
# The test faucet (`faucet.move`)

A shared reservoir of test USDC from which any address may draw one fixed allocation. The faucet
never mints: whoever holds the treasury cap of the test USDC mints to some address, and anybody can
refill the reservoir.

## Key results

- `FaucetWorld.call_eq_ok`: what a successful call checked and did
- `faucet_accounts`: the books of the faucet, its table of claimants, its parameters and its event
  log agree
-/

namespace Gally.Simulation

open Checked

/-! ## Errors and constants -/

/-- Why a transaction on the faucet aborts: an `assert!` of the module, the virtual machine or the
    framework. -/
inductive FaucetAbort where
  | code (code : ℕ)
  | arithmetic
  | notEnough
  | supplyOverflow
  | notOwner
  deriving DecidableEq, Repr

/-- The sender already drew their one allocation. -/
def eAlreadyClaimed : FaucetAbort := .code 0
/-- The reservoir is below the allocation. -/
def eReservoirEmpty : FaucetAbort := .code 1
/-- A refill or a parameter setter was given a zero value. -/
def eZeroAmount : FaucetAbort := .code 2

/-- Fixed payout per claim: 25,000 USDC. -/
def defaultAllocation : ℕ := 25000000000
/-- The bot re-seeds when the reservoir drops below this: 100,000 USDC. -/
def defaultLowWaterMark : ℕ := 100000000000

/-! ## State -/

/-- An entry of the table of claimants. -/
structure Claimant where
  who : Address
  amount : ℕ
  deriving DecidableEq, Repr

instance : Keyed Claimant Address := ⟨Claimant.who⟩

/-- The single shared treasury of the simulation. -/
structure MockFaucet where
  id : ID
  reservoir : ℕ
  allocation : ℕ
  lowWaterMark : ℕ
  totalClaimed : ℕ
  claimCount : ℕ
  claimants : Store Claimant

/-- The events of the module. -/
inductive FaucetEvent where
  | created (faucetId : ID) (operator : Address) (allocation lowWaterMark : ℕ)
  | claimed (faucetId : ID) (recipient : Address) (amount reservoirAfter : ℕ)
  | refilled (faucetId : ID) (depositor : Address) (amount reservoirAfter : ℕ)
  | paramChanged (faucetId : ID) (name : String) (oldValue newValue : ℕ)
  deriving DecidableEq, Repr

/-- `init`: the faucet as published, with an empty reservoir. -/
def MockFaucet.init (id : ID) : MockFaucet where
  id := id
  reservoir := 0
  allocation := defaultAllocation
  lowWaterMark := defaultLowWaterMark
  totalClaimed := 0
  claimCount := 0
  claimants := ∅

/-! ## Functions -/

/-- Draw the one fixed allocation for the sender; returns the coin. -/
def claim (faucet : MockFaucet) (sender : Address) :
    Except FaucetAbort (MockFaucet × ℕ × List FaucetEvent) := do
  ensure (faucet.claimants.get? sender = none) eAlreadyClaimed
  ensure (faucet.allocation ≤ faucet.reservoir) eReservoirEmpty
  let amount := faucet.allocation
  let reservoir ← guarded (amount ≤ faucet.reservoir) .notEnough (faucet.reservoir - amount)
  let claimants := faucet.claimants.put ⟨sender, amount⟩
  let totalClaimed ← guarded (faucet.totalClaimed + amount ≤ maxU64) .arithmetic
    (faucet.totalClaimed + amount)
  let claimCount ← guarded (faucet.claimCount + 1 ≤ maxU64) .arithmetic (faucet.claimCount + 1)
  return ({ faucet with reservoir, claimants, totalClaimed, claimCount }, amount,
    [.claimed faucet.id sender amount reservoir])

/-- Permissionless top-up. -/
def refill (faucet : MockFaucet) (amount : ℕ) (sender : Address) :
    Except FaucetAbort (MockFaucet × List FaucetEvent) := do
  ensure (0 < amount) eZeroAmount
  let reservoir ← guarded (faucet.reservoir + amount ≤ maxU64) .arithmetic
    (faucet.reservoir + amount)
  return ({ faucet with reservoir }, [.refilled faucet.id sender amount reservoir])

def adminSetAllocation (faucet : MockFaucet) (new : ℕ) :
    Except FaucetAbort (MockFaucet × List FaucetEvent) := do
  ensure (0 < new) eZeroAmount
  return ({ faucet with allocation := new },
    [.paramChanged faucet.id "allocation" faucet.allocation new])

def adminSetLowWaterMark (faucet : MockFaucet) (new : ℕ) :
    Except FaucetAbort (MockFaucet × List FaucetEvent) := do
  ensure (0 < new) eZeroAmount
  return ({ faucet with lowWaterMark := new },
    [.paramChanged faucet.id "low_water_mark" faucet.lowWaterMark new])

/-- Whether `who` has already drawn their one allocation. -/
def hasClaimed (faucet : MockFaucet) (who : Address) : Bool := (faucet.claimants.get? who).isSome

/-! ## The chain around the faucet -/

/-- The faucet, who holds its operator cap and the treasury cap of the test USDC, and the USDC of
    each address. -/
structure FaucetWorld where
  faucet : MockFaucet
  operator : Address
  issuer : Address
  wallets : Wallets
  usdcSupply : ℕ
  events : List FaucetEvent

/-- The world after `publisher` published the faucet, before any test USDC was minted. -/
def FaucetWorld.genesis (id : ID) (publisher issuer : Address) : FaucetWorld where
  faucet := .init id
  operator := publisher
  issuer := issuer
  wallets := ∅
  usdcSupply := 0
  events := [.created id publisher defaultAllocation defaultLowWaterMark]

/-- What an address can do: the functions of the module, mint and burn test USDC, and pay USDC. -/
inductive FaucetCall where
  | claim
  | refill (amount : U64)
  | adminSetAllocation (new : U64)
  | adminSetLowWaterMark (new : U64)
  | mintUsdc (recipient : Address) (value : U64)
  | burnUsdc (value : U64)
  | payUsdc (recipient : Address) (value : U64)

/-- Execute one call signed by `sender`; a claim is transferred to the sender. -/
def FaucetWorld.call (w : FaucetWorld) (sender : Address) :
    FaucetCall → Except FaucetAbort FaucetWorld
  | .claim => do
    let (faucet, payout, events) ← claim w.faucet sender
    return { w with
      faucet, wallets := w.wallets.credit sender payout, events := w.events ++ events }
  | .refill amount => do
    ensure (amount.val ≤ w.wallets.balance sender) .notEnough
    let (faucet, events) ← refill w.faucet amount.val sender
    return { w with
      faucet, wallets := w.wallets.spend sender amount.val, events := w.events ++ events }
  | .adminSetAllocation new => do
    ensure (w.operator = sender) .notOwner
    let (faucet, events) ← adminSetAllocation w.faucet new.val
    return { w with faucet, events := w.events ++ events }
  | .adminSetLowWaterMark new => do
    ensure (w.operator = sender) .notOwner
    let (faucet, events) ← adminSetLowWaterMark w.faucet new.val
    return { w with faucet, events := w.events ++ events }
  | .mintUsdc recipient value => do
    ensure (w.issuer = sender) .notOwner
    ensure (value.val < maxU64 - w.usdcSupply) .supplyOverflow
    return { w with
      usdcSupply := w.usdcSupply + value.val, wallets := w.wallets.credit recipient value.val }
  | .burnUsdc value => do
    ensure (w.issuer = sender) .notOwner
    ensure (value.val ≤ w.wallets.balance sender) .notEnough
    let usdcSupply ← guarded (value.val ≤ w.usdcSupply) .arithmetic (w.usdcSupply - value.val)
    return { w with usdcSupply, wallets := w.wallets.spend sender value.val }
  | .payUsdc recipient value => do
    ensure (value.val ≤ w.wallets.balance sender) .notEnough
    return { w with wallets := (w.wallets.spend sender value.val).credit recipient value.val }

/-- Execute calls one after the other. -/
def FaucetWorld.run (w : FaucetWorld) (calls : List (Address × FaucetCall)) :
    Except FaucetAbort FaucetWorld :=
  Run.exec (fun w l => w.call l.1 l.2) w calls

/-! ## What a successful call did -/

/-- Everything `claim` checks. -/
structure ClaimGuards (faucet : MockFaucet) (sender : Address) : Prop where
  first : faucet.claimants.get? sender = none
  covered : faucet.allocation ≤ faucet.reservoir
  total : faucet.totalClaimed + faucet.allocation ≤ maxU64
  count : faucet.claimCount + 1 ≤ maxU64

/-- The faucet after a claim. -/
def MockFaucet.afterClaim (faucet : MockFaucet) (sender : Address) : MockFaucet :=
  { faucet with
    reservoir := faucet.reservoir - faucet.allocation
    claimants := faucet.claimants.put ⟨sender, faucet.allocation⟩
    totalClaimed := faucet.totalClaimed + faucet.allocation
    claimCount := faucet.claimCount + 1 }

/-- A claim under its guards pays the allocation, and reports itself with what the reservoir has
    left. -/
theorem claim_eq_ok {faucet : MockFaucet} {sender : Address}
    {r : MockFaucet × ℕ × List FaucetEvent} : claim faucet sender = .ok r ↔
      ClaimGuards faucet sender ∧ r = (faucet.afterClaim sender, faucet.allocation,
        [.claimed faucet.id sender faucet.allocation (faucet.reservoir - faucet.allocation)]) := by
  simp only [claim, seq_eq_ok, ensure_eq_ok, guarded_eq_ok, return_eq_ok]
  constructor
  · rintro ⟨-, hfirst, -, hcovered, _, ⟨-, rfl⟩, _, ⟨htotal, rfl⟩, _, ⟨hcount, rfl⟩, rfl⟩
    exact ⟨⟨hfirst, hcovered, htotal, hcount⟩, rfl⟩
  · rintro ⟨⟨hfirst, hcovered, htotal, hcount⟩, rfl⟩
    exact ⟨(), hfirst, (), hcovered, _, ⟨hcovered, rfl⟩, _, ⟨htotal, rfl⟩, _, ⟨hcount, rfl⟩, rfl⟩

/-- The faucet after a refill. -/
def MockFaucet.afterRefill (faucet : MockFaucet) (amount : ℕ) : MockFaucet :=
  { faucet with reservoir := faucet.reservoir + amount }

/-- Anyone may refill with a positive amount that the reservoir can count. -/
theorem refill_eq_ok {faucet : MockFaucet} {amount : ℕ} {sender : Address}
    {r : MockFaucet × List FaucetEvent} : refill faucet amount sender = .ok r ↔
      0 < amount ∧ faucet.reservoir + amount ≤ maxU64 ∧ r = (faucet.afterRefill amount,
        [.refilled faucet.id sender amount (faucet.reservoir + amount)]) := by
  simp only [refill, seq_eq_ok, ensure_eq_ok, guarded_eq_ok, return_eq_ok]
  constructor
  · rintro ⟨-, hpos, _, ⟨hfits, rfl⟩, rfl⟩
    exact ⟨hpos, hfits, rfl⟩
  · rintro ⟨hpos, hfits, rfl⟩
    exact ⟨(), hpos, _, ⟨hfits, rfl⟩, rfl⟩

/-- The successful calls. -/
inductive FaucetStep (w : FaucetWorld) (sender : Address) : FaucetCall → FaucetWorld → Prop where
  | claim (guards : ClaimGuards w.faucet sender) : FaucetStep w sender .claim { w with
      faucet := w.faucet.afterClaim sender
      wallets := w.wallets.credit sender w.faucet.allocation
      events := w.events ++ [.claimed w.faucet.id sender w.faucet.allocation
        (w.faucet.reservoir - w.faucet.allocation)] }
  | refill {amount : U64} (funds : amount.val ≤ w.wallets.balance sender)
      (positive : 0 < amount.val) (fits : w.faucet.reservoir + amount.val ≤ maxU64) :
      FaucetStep w sender (.refill amount) { w with
        faucet := w.faucet.afterRefill amount.val
        wallets := w.wallets.spend sender amount.val
        events := w.events ++ [.refilled w.faucet.id sender amount.val
          (w.faucet.reservoir + amount.val)] }
  | adminSetAllocation {new : U64} (operator : w.operator = sender) (positive : 0 < new.val) :
      FaucetStep w sender (.adminSetAllocation new) { w with
        faucet := { w.faucet with allocation := new.val }
        events := w.events ++ [.paramChanged w.faucet.id "allocation" w.faucet.allocation new.val] }
  | adminSetLowWaterMark {new : U64} (operator : w.operator = sender) (positive : 0 < new.val) :
      FaucetStep w sender (.adminSetLowWaterMark new) { w with
        faucet := { w.faucet with lowWaterMark := new.val }
        events := w.events ++ [.paramChanged w.faucet.id "low_water_mark" w.faucet.lowWaterMark
          new.val] }
  | mintUsdc {recipient : Address} {value : U64} (issuer : w.issuer = sender)
      (supply : value.val < maxU64 - w.usdcSupply) :
      FaucetStep w sender (.mintUsdc recipient value) { w with
        usdcSupply := w.usdcSupply + value.val
        wallets := w.wallets.credit recipient value.val }
  | burnUsdc {value : U64} (issuer : w.issuer = sender)
      (funds : value.val ≤ w.wallets.balance sender) (supply : value.val ≤ w.usdcSupply) :
      FaucetStep w sender (.burnUsdc value) { w with
        usdcSupply := w.usdcSupply - value.val
        wallets := w.wallets.spend sender value.val }
  | payUsdc {recipient : Address} {value : U64} (funds : value.val ≤ w.wallets.balance sender) :
      FaucetStep w sender (.payUsdc recipient value) { w with
        wallets := (w.wallets.spend sender value.val).credit recipient value.val }

/-- Every call that succeeds is one of the steps. -/
theorem FaucetWorld.call_eq_ok {w w' : FaucetWorld} {sender : Address} {c : FaucetCall} :
    w.call sender c = .ok w' ↔ FaucetStep w sender c w' := by
  constructor
  · cases c with
    | claim =>
      simp only [FaucetWorld.call, seq_eq_ok, return_eq_ok]
      -- what the caller hands over is what the guards of the function see
      rintro ⟨_, hclaim, rfl⟩
      obtain ⟨guards, rfl⟩ := claim_eq_ok.mp hclaim
      exact .claim guards
    | refill amount =>
      simp only [FaucetWorld.call, seq_eq_ok, ensure_eq_ok, return_eq_ok]
      rintro ⟨-, funds, _, hrefill, rfl⟩
      obtain ⟨positive, fits, rfl⟩ := refill_eq_ok.mp hrefill
      exact .refill funds positive fits
    | adminSetAllocation new =>
      simp only [FaucetWorld.call, Simulation.adminSetAllocation, seq_eq_ok, ensure_eq_ok,
        return_eq_ok]
      rintro ⟨-, operator, _, ⟨-, positive, rfl⟩, rfl⟩
      exact .adminSetAllocation operator positive
    | adminSetLowWaterMark new =>
      simp only [FaucetWorld.call, Simulation.adminSetLowWaterMark, seq_eq_ok, ensure_eq_ok,
        return_eq_ok]
      rintro ⟨-, operator, _, ⟨-, positive, rfl⟩, rfl⟩
      exact .adminSetLowWaterMark operator positive
    | mintUsdc recipient value =>
      simp only [FaucetWorld.call, seq_eq_ok, ensure_eq_ok, return_eq_ok]
      rintro ⟨-, issuer, -, supply, rfl⟩
      exact .mintUsdc issuer supply
    | burnUsdc value =>
      simp only [FaucetWorld.call, seq_eq_ok, ensure_eq_ok, guarded_eq_ok, return_eq_ok]
      rintro ⟨-, issuer, -, funds, _, ⟨supply, rfl⟩, rfl⟩
      exact .burnUsdc issuer funds supply
    | payUsdc recipient value =>
      simp only [FaucetWorld.call, seq_eq_ok, ensure_eq_ok, return_eq_ok]
      rintro ⟨-, funds, rfl⟩
      exact .payUsdc funds
  · intro h
    cases h with
    | claim guards =>
      simp only [FaucetWorld.call, seq_eq_ok, return_eq_ok]
      exact ⟨_, claim_eq_ok.mpr ⟨guards, rfl⟩, rfl⟩
    | refill funds positive fits =>
      simp only [FaucetWorld.call, seq_eq_ok, ensure_eq_ok, return_eq_ok]
      exact ⟨(), funds, _, refill_eq_ok.mpr ⟨positive, fits, rfl⟩, rfl⟩
    | _ =>
      simp only [FaucetWorld.call, Simulation.adminSetAllocation, Simulation.adminSetLowWaterMark,
        seq_eq_ok, ensure_eq_ok, guarded_eq_ok, return_eq_ok]
      simp [*]

/-- A claim that the reservoir covers does not find it empty. -/
theorem FaucetWorld.claim_avoids_empty {w : FaucetWorld}
    (h : w.faucet.allocation ≤ w.faucet.reservoir) (a : Address) :
    Avoids (w.call a .claim) eReservoirEmpty := by
  simp [-bind_pure_comp, FaucetWorld.call, claim, avoids_seq, eAlreadyClaimed, eReservoirEmpty, h]

/-! ## The books -/

/-- The claim an event tells of. -/
def FaucetEvent.claim? : FaucetEvent → Option Claimant
  | .claimed _ recipient amount _ => some ⟨recipient, amount⟩
  | _ => none

/-- The refill an event tells of. -/
def FaucetEvent.refill? : FaucetEvent → Option ℕ
  | .refilled _ _ amount _ => some amount
  | _ => none

/-- The drawdown series. -/
def FaucetEvent.reservoirAfter? : FaucetEvent → Option ℕ
  | .claimed _ _ _ reservoirAfter | .refilled _ _ _ reservoirAfter => some reservoirAfter
  | _ => none

/-- The two parameters of the faucet, as an observer of its events knows them. -/
structure FaucetParams where
  allocation : ℕ
  lowWaterMark : ℕ
  deriving DecidableEq, Repr

/-- The parameters `init` sets and announces. -/
def FaucetParams.init : FaucetParams := ⟨defaultAllocation, defaultLowWaterMark⟩

/-- The parameters of a faucet. -/
def MockFaucet.params (faucet : MockFaucet) : FaucetParams :=
  ⟨faucet.allocation, faucet.lowWaterMark⟩

/-- What an observer makes of one more event; `none` when it contradicts what the observer knows: a
    change has to start from the known value of the parameter and to set a positive one. -/
def FaucetParams.replay (params : FaucetParams) : FaucetEvent → Option FaucetParams
  | .created .. => none
  | .paramChanged _ "allocation" oldValue newValue =>
    if oldValue = params.allocation ∧ 0 < newValue then
      some { params with allocation := newValue }
    else none
  | .paramChanged _ "low_water_mark" oldValue newValue =>
    if oldValue = params.lowWaterMark ∧ 0 < newValue then
      some { params with lowWaterMark := newValue }
    else none
  | .paramChanged .. => none
  | .claimed .. | .refilled .. => some params

namespace FaucetWorld

/-- The claims of the log, in order. -/
def claims (w : FaucetWorld) : List Claimant := w.events.filterMap FaucetEvent.claim?

/-- The refills of the log, in order. -/
def refills (w : FaucetWorld) : List ℕ := w.events.filterMap FaucetEvent.refill?

/-- The drawdown series of the log. -/
def drawdown (w : FaucetWorld) : List ℕ := w.events.filterMap FaucetEvent.reservoirAfter?

/-- The books of the faucet agree with its log. -/
structure Accounts (w : FaucetWorld) : Prop where
  /-- the table lists the claims of the log, the latest first -/
  claimants : w.faucet.claimants.entries.reverse = w.claims
  once : (w.claims.map Claimant.who).Nodup
  totalClaimed : w.faucet.totalClaimed = (w.claims.map Claimant.amount).sum
  claimCount : w.faucet.claimCount = w.claims.length
  flow : w.faucet.reservoir + w.faucet.totalClaimed = w.refills.sum
  latest : w.drawdown.getLast?.getD 0 = w.faucet.reservoir
  supply : w.faucet.reservoir + w.wallets.funds = w.usdcSupply
  positive : 0 < w.faucet.allocation ∧ 0 < w.faucet.lowWaterMark
  /-- from the defaults the log announces first, its changes lead to the present parameters, each
      starting from the value before it -/
  history : ∃ operator log,
    w.events = .created w.faucet.id operator defaultAllocation defaultLowWaterMark :: log ∧
      log.foldlM FaucetParams.replay FaucetParams.init = some w.faucet.params

variable {w w' : FaucetWorld} {sender : Address} {c : FaucetCall}

/-- The faucet is published empty, with positive parameters. -/
theorem accounts_genesis (id : ID) (publisher issuer : Address) :
    (genesis id publisher issuer).Accounts where
  claimants := rfl
  once := List.nodup_nil
  totalClaimed := rfl
  claimCount := rfl
  flow := rfl
  latest := rfl
  supply := rfl
  positive := by simp [genesis, MockFaucet.init, defaultAllocation, defaultLowWaterMark]
  history := ⟨publisher, [], rfl, rfl⟩

/-- One more event: a filter of the log keeps it or drops it. -/
theorem filterMap_snoc {α β : Type} (f : α → Option β) (l : List α) (a : α) :
    (l ++ [a]).filterMap f = l.filterMap f ++ (f a).toList := by
  rw [List.filterMap_append]
  cases h : f a <;> simp [h]

/-- One more event: an observer who knew the parameters reads it and knows the new ones. -/
theorem Accounts.history_snoc (ha : w.Accounts) {e : FaucetEvent}
    (hid : w'.faucet.id = w.faucet.id) (hevents : w'.events = w.events ++ [e])
    (hread : w.faucet.params.replay e = some w'.faucet.params) :
    ∃ operator log,
      w'.events = .created w'.faucet.id operator defaultAllocation defaultLowWaterMark :: log ∧
        log.foldlM FaucetParams.replay FaucetParams.init = some w'.faucet.params := by
  obtain ⟨operator, log, hlog, hreplay⟩ := ha.history
  refine ⟨operator, log ++ [e], ?_, ?_⟩
  · rw [hevents, hlog, hid, List.cons_append]
  · rw [List.foldlM_append, hreplay]
    simp [hread]

/-- A claim enters the table and the log, and the reservoir pays for it. -/
theorem Accounts.claim (ha : w.Accounts) (guards : ClaimGuards w.faucet sender)
    (hfaucet : w'.faucet = w.faucet.afterClaim sender)
    (hevents : w'.events = w.events ++ [.claimed w.faucet.id sender w.faucet.allocation
      (w.faucet.reservoir - w.faucet.allocation)])
    (hsupply : w'.wallets.funds + w.usdcSupply =
      w.wallets.funds + w.faucet.allocation + w'.usdcSupply) : w'.Accounts := by
  have hentries : (w.faucet.afterClaim sender).claimants.entries =
      ⟨sender, w.faucet.allocation⟩ :: w.faucet.claimants.entries :=
    Store.entries_put_of_fresh (x := (⟨sender, w.faucet.allocation⟩ : Claimant)) guards.first
  have hclaims : w'.claims = w.claims ++ [⟨sender, w.faucet.allocation⟩] := by
    rw [claims, hevents, filterMap_snoc]
    rfl
  -- the guard against a second claim is the only thing that keeps the claimants distinct
  have hnew : sender ∉ w.claims.map Claimant.who := by
    rw [← ha.claimants, List.mem_map]
    rintro ⟨x, hx, hwho⟩
    exact Store.get?_eq_none.mp guards.first x (List.mem_reverse.mp hx) hwho
  have hcovered := guards.covered
  have hflow := ha.flow
  have hbefore := ha.supply
  -- the clauses in their order: claimants, once, totalClaimed, claimCount, flow, latest, supply,
  -- positive, history
  constructor
  · rw [hfaucet, hentries, List.reverse_cons, ha.claimants, hclaims]
  · have honce := ha.once.concat hnew
    rw [hclaims, List.map_append]
    rwa [List.concat_eq_append] at honce
  · rw [hfaucet, hclaims, List.map_append, List.sum_append, ← ha.totalClaimed]
    rfl
  · rw [hfaucet, hclaims, List.length_append, ← ha.claimCount]
    rfl
  · have hrefills : w'.refills = w.refills := by
      rw [refills, hevents, filterMap_snoc]
      exact List.append_nil _
    simp only [hfaucet, hrefills, MockFaucet.afterClaim]
    omega
  · rw [hfaucet, drawdown, hevents, filterMap_snoc]
    simp [FaucetEvent.reservoirAfter?, MockFaucet.afterClaim]
  · simp only [hfaucet, MockFaucet.afterClaim]
    omega
  · rw [hfaucet]
    exact ha.positive
  · refine ha.history_snoc ?_ hevents ?_ <;> rw [hfaucet] <;> rfl

/-- A refill enters the log and the reservoir. -/
theorem Accounts.refill (ha : w.Accounts) {amount : ℕ}
    (hfaucet : w'.faucet = w.faucet.afterRefill amount)
    (hevents : w'.events = w.events ++ [.refilled w.faucet.id sender amount
      (w.faucet.reservoir + amount)])
    (hsupply : w'.wallets.funds + amount + w.usdcSupply = w.wallets.funds + w'.usdcSupply) :
    w'.Accounts := by
  have hclaims : w'.claims = w.claims := by
    rw [claims, hevents, filterMap_snoc]
    exact List.append_nil _
  have hrefills : w'.refills = w.refills ++ [amount] := by
    rw [refills, hevents, filterMap_snoc]
    rfl
  have hflow := ha.flow
  have hbefore := ha.supply
  -- only the flow, the reservoir last reported and the supply see a refill
  constructor
  · rw [hfaucet, hclaims]
    exact ha.claimants
  · rw [hclaims]
    exact ha.once
  · rw [hfaucet, hclaims]
    exact ha.totalClaimed
  · rw [hfaucet, hclaims]
    exact ha.claimCount
  · rw [hrefills, List.sum_append, List.sum_singleton]
    simp only [hfaucet, MockFaucet.afterRefill]
    omega
  · rw [hfaucet, drawdown, hevents, filterMap_snoc]
    simp [FaucetEvent.reservoirAfter?, MockFaucet.afterRefill]
  · simp only [hfaucet, MockFaucet.afterRefill]
    omega
  · rw [hfaucet]
    exact ha.positive
  · refine ha.history_snoc ?_ hevents ?_ <;> rw [hfaucet] <;> rfl

/-- A setter changes its parameter only, and its event says from what to what. -/
theorem Accounts.setter (ha : w.Accounts) {name : String} {old new allocation lowWaterMark : ℕ}
    (hpos : 0 < allocation ∧ 0 < lowWaterMark)
    (hfaucet : w'.faucet = { w.faucet with allocation, lowWaterMark })
    (hevents : w'.events = w.events ++ [.paramChanged w.faucet.id name old new])
    (hread : w.faucet.params.replay (.paramChanged w.faucet.id name old new) =
      some ⟨allocation, lowWaterMark⟩)
    (hwallets : w'.wallets = w.wallets) (hsupply : w'.usdcSupply = w.usdcSupply) :
    w'.Accounts := by
  have hclaims : w'.claims = w.claims := by
    rw [claims, hevents, filterMap_snoc]
    exact List.append_nil _
  have hrefills : w'.refills = w.refills := by
    rw [refills, hevents, filterMap_snoc]
    exact List.append_nil _
  have hdrawdown : w'.drawdown = w.drawdown := by
    rw [drawdown, hevents, filterMap_snoc]
    exact List.append_nil _
  -- a setter moves no money and reports no reservoir
  constructor
  · rw [hfaucet, hclaims]
    exact ha.claimants
  · rw [hclaims]
    exact ha.once
  · rw [hfaucet, hclaims]
    exact ha.totalClaimed
  · rw [hfaucet, hclaims]
    exact ha.claimCount
  · rw [hfaucet, hrefills]
    exact ha.flow
  · rw [hfaucet, hdrawdown]
    exact ha.latest
  · rw [hfaucet, hwallets, hsupply]
    exact ha.supply
  · rw [hfaucet]
    exact hpos
  · refine ha.history_snoc ?_ hevents ?_ <;> rw [hfaucet]
    exact hread

/-- Every call keeps the books. -/
theorem Accounts.call (ha : w.Accounts) (h : w.call sender c = .ok w') : w'.Accounts := by
  have hsupply := ha.supply
  cases call_eq_ok.mp h with
  | claim guards =>
    refine ha.claim guards rfl rfl ?_
    simp only [Wallets.funds_credit]
  | refill funds =>
    have hspend := Wallets.funds_spend funds
    refine ha.refill rfl rfl ?_
    simp only
    omega
  | adminSetAllocation _ positive =>
    refine ha.setter ⟨positive, ha.positive.2⟩ rfl rfl ?_ rfl rfl
    simp [FaucetParams.replay, MockFaucet.params, positive]
  | adminSetLowWaterMark _ positive =>
    refine ha.setter ⟨ha.positive.1, positive⟩ rfl rfl ?_ rfl rfl
    simp [FaucetParams.replay, MockFaucet.params, positive]
  | mintUsdc =>
    -- the coin's own calls touch nothing but the wallets and the supply
    refine { ha with supply := ?_ }
    simp only [Wallets.funds_credit]
    omega
  | burnUsdc _ funds =>
    have hspend := Wallets.funds_spend funds
    refine { ha with supply := ?_ }
    simp only
    omega
  | payUsdc funds =>
    have hspend := Wallets.funds_spend funds
    refine { ha with supply := ?_ }
    simp only [Wallets.funds_credit]
    omega

/-- Every run keeps the books. -/
theorem Accounts.run (ha : w.Accounts) {calls : List (Address × FaucetCall)}
    (h : w.run calls = .ok w') : w'.Accounts :=
  Run.exec_preserves (P := Accounts) (fun _ _ _ ha hc => ha.call hc) ha h

/-- An address is in the table exactly when the log tells of its claim. -/
theorem Accounts.get?_eq_none (ha : w.Accounts) {a : Address} :
    w.faucet.claimants.get? a = none ↔ a ∉ w.claims.map Claimant.who := by
  rw [Store.get?_eq_none, ← ha.claimants]
  simp [Store.mem_def, Keyed.key]

/-- The view tells the wallets whose claim the log has. -/
theorem Accounts.hasClaimed_iff (ha : w.Accounts) {a : Address} :
    hasClaimed w.faucet a = true ↔ a ∈ w.claims.map Claimant.who := by
  rw [hasClaimed, Option.isSome_iff_ne_none, ne_eq, ha.get?_eq_none, not_not]

end FaucetWorld

/-- Whatever is called in whatever order, the books of the faucet are its event log: no address
    ever claims twice, what was refilled was paid out or is in the reservoir, the changes the log
    tells lead from the defaults to the present parameters, and an address can claim exactly when
    it has not yet and the reservoir holds an allocation (and the totals fit). -/
theorem faucet_accounts {id : ID} {publisher issuer : Address}
    {calls : List (Address × FaucetCall)} {w : FaucetWorld}
    (hrun : (FaucetWorld.genesis id publisher issuer).run calls = .ok w) :
    w.Accounts ∧ ∀ a, (hasClaimed w.faucet a = true ↔ a ∈ w.claims.map Claimant.who) ∧
      (Succeeds (w.call a .claim) ↔
        a ∉ w.claims.map Claimant.who ∧ w.faucet.allocation ≤ w.faucet.reservoir ∧
        (w.claims.map Claimant.amount).sum + w.faucet.allocation ≤ maxU64 ∧
        w.claims.length + 1 ≤ maxU64) := by
  have ha := (FaucetWorld.accounts_genesis id publisher issuer).run hrun
  refine ⟨ha, fun a => ⟨ha.hasClaimed_iff, ?_⟩⟩
  -- the conditions on the claims, in the words of the guards
  rw [← ha.get?_eq_none, ← ha.totalClaimed, ← ha.claimCount]
  constructor
  · intro ⟨w', h⟩
    cases FaucetWorld.call_eq_ok.mp h with
    | claim guards => exact ⟨guards.first, guards.covered, guards.total, guards.count⟩
  · intro ⟨hfirst, hcovered, htotal, hcount⟩
    exact ⟨_, FaucetWorld.call_eq_ok.mpr (.claim ⟨hfirst, hcovered, htotal, hcount⟩)⟩

namespace Sample

/-- The issuer mints for itself and refills, two addresses claim. -/
def drawing : List (Address × FaucetCall) :=
  [(1, .mintUsdc 1 500000000000), (1, .refill 500000000000), (5, .claim),
    (0, .adminSetAllocation 7), (6, .claim)]

end Sample

/-- The second address gets the new allocation. -/
theorem faucet_accounts_drawing : ∃ w, (FaucetWorld.genesis 9 0 1).run Sample.drawing = .ok w ∧
    w.claims = [⟨5, 25000000000⟩, ⟨6, 7⟩] ∧ w.Accounts ∧ ¬ Succeeds (w.call 5 .claim) := by
  have hrun : returns ((FaucetWorld.genesis 9 0 1).run Sample.drawing) (fun w =>
      w.claims = [⟨5, 25000000000⟩, ⟨6, 7⟩]) = true := by
    decide +kernel
  obtain ⟨w, hw, hq⟩ := returns_iff.mp hrun
  have hclaims : w.claims = [⟨5, 25000000000⟩, ⟨6, 7⟩] := of_decide_eq_true hq
  obtain ⟨ha, hiff⟩ := faucet_accounts hw
  refine ⟨w, hw, hclaims, ha, fun h => ?_⟩
  have hnew := ((hiff 5).2.mp h).1
  rw [hclaims] at hnew
  simp at hnew

end Gally.Simulation

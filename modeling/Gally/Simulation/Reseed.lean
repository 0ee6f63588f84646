import Gally.Simulation.Faucet

/-!
# Re-seeding the faucet (`reseed.rs`)

One tick of the bot reads the faucet and, when the reservoir is below the low-water mark, mints and
refills. Each of the three is a request of its own: other addresses act in between, and each can
fail, which ends the tick. Still the reservoir stays between what the last complete tick guarantees
and what one re-seed on top of the mark can make of it.

## Key results

- `BotStep.watched`: what one step of anybody does to the reservoir
- `reseed_bounds`: the bounds on the reservoir in every run
-/

namespace Gally.Simulation

open Checked

/-- Re-seed exactly when the reservoir has dropped below the low-water mark. -/
def shouldReseed (reservoir lowWaterMark : ℕ) : Bool := reservoir < lowWaterMark

/-- The part of the configuration a tick uses. -/
structure ReseedConfig where
  operator : Address
  reseedAmount : U64

/-- Where the bot is in a tick. -/
inductive TickPhase where
  | idle | low | minted
  deriving DecidableEq, Repr

/-- History of a run: the mark at the last complete tick, or the amount re-seeded if that was
    less; what was claimed since; what others refilled; and the highest mark so far. -/
structure Watch where
  mark : ℕ
  drawn : ℕ
  gifts : ℕ
  peak : ℕ

/-- The chain and the bot. -/
structure BotWorld where
  world : FaucetWorld
  phase : TickPhase
  watch : Watch

/-- What happens next: somebody calls, the bot makes the next request of its tick, or that request
    fails and ends the tick. -/
inductive BotAction where
  | call (sender : Address) (c : FaucetCall)
  | request
  | fail

/-- What a call adds to the history. -/
def Watch.after (h : Watch) (w : FaucetWorld) : FaucetCall → Watch
  | .claim => { h with drawn := h.drawn + w.faucet.allocation }
  | .refill amount => { h with gifts := h.gifts + amount.val }
  | .adminSetLowWaterMark new => { h with peak := max h.peak new.val }
  | _ => h

/-- The last request of a tick succeeded. -/
def BotWorld.complete (cfg : ReseedConfig) (w : BotWorld) : BotWorld :=
  { w with
    phase := .idle
    watch := { w.watch with
      mark := min w.world.faucet.lowWaterMark cfg.reseedAmount.val, drawn := 0 } }

/-- The next request of the tick: read the faucet, mint to the operator, refill. -/
def BotWorld.request (cfg : ReseedConfig) (w : BotWorld) : Except FaucetAbort BotWorld :=
  match w.phase with
  | .idle =>
    if shouldReseed w.world.faucet.reservoir w.world.faucet.lowWaterMark then
      .ok { w with phase := .low }
    else .ok (w.complete cfg)
  | .low => do
    let world ← w.world.call cfg.operator (.mintUsdc cfg.operator cfg.reseedAmount)
    return { w with world, phase := .minted }
  | .minted => do
    let world ← w.world.call cfg.operator (.refill cfg.reseedAmount)
    return { w with world }.complete cfg

/-- One step. A call or a request that aborts changes nothing, so only the successful ones are
    steps. -/
def BotWorld.step (cfg : ReseedConfig) (w : BotWorld) : BotAction → Except FaucetAbort BotWorld
  | .call sender c => do
    let world ← w.world.call sender c
    return { w with world, watch := w.watch.after w.world c }
  | .request => w.request cfg
  | .fail => .ok { w with phase := .idle }

/-- The faucet was just published. -/
def BotWorld.genesis (id : ID) (publisher issuer : Address) : BotWorld where
  world := .genesis id publisher issuer
  phase := .idle
  watch := { mark := 0, drawn := 0, gifts := 0, peak := defaultLowWaterMark }

def BotWorld.run (cfg : ReseedConfig) (w : BotWorld) (actions : List BotAction) :
    Except FaucetAbort BotWorld :=
  Run.exec (BotWorld.step cfg) w actions

/-! ## The bounds -/

/-- What the history tells about the reservoir. -/
structure BotWorld.Watched (cfg : ReseedConfig) (w : BotWorld) : Prop where
  /-- the claims since the last complete tick started from its mark -/
  atLeast : w.watch.mark ≤ w.world.faucet.reservoir + w.watch.drawn
  /-- a re-seed was decided on below the mark -/
  deciding : w.phase ≠ .idle → w.world.faucet.reservoir < w.watch.peak + w.watch.gifts
  atMost : w.world.faucet.reservoir < w.watch.peak + w.watch.gifts + cfg.reseedAmount.val
  peak : w.world.faucet.lowWaterMark ≤ w.watch.peak

namespace BotWorld

variable {cfg : ReseedConfig} {w w' : BotWorld}

/-- A call of anybody. -/
theorem Watched.call (hw : w.Watched cfg) {sender : Address} {c : FaucetCall} {world : FaucetWorld}
    (h : w.world.call sender c = .ok world) :
    Watched cfg { w with world, watch := w.watch.after w.world c } := by
  obtain ⟨hleast, hdeciding, hmost, hpeak⟩ := hw
  cases FaucetWorld.call_eq_ok.mp h with
  -- a claim draws what it takes from the reservoir
  | claim guards =>
    have hcovered := guards.covered
    constructor
    · simp only [Watch.after, MockFaucet.afterClaim]
      omega
    · intro hphase
      have hbefore := hdeciding hphase
      simp only [Watch.after, MockFaucet.afterClaim]
      omega
    · simp only [Watch.after, MockFaucet.afterClaim]
      omega
    · exact hpeak
  -- a refill counts as a gift
  | @refill amount _ _ _ =>
    constructor
    · simp only [Watch.after, MockFaucet.afterRefill]
      omega
    · intro hphase
      have hbefore := hdeciding hphase
      simp only [Watch.after, MockFaucet.afterRefill]
      omega
    · simp only [Watch.after, MockFaucet.afterRefill]
      omega
    · exact hpeak
  -- a raised mark raises the peak
  | @adminSetLowWaterMark new _ _ =>
    have hmax : w.watch.peak ≤ max w.watch.peak new.val := Nat.le_max_left _ _
    constructor
    · exact hleast
    · intro hphase
      exact Nat.lt_of_lt_of_le (hdeciding hphase) (Nat.add_le_add_right hmax _)
    · exact Nat.lt_of_lt_of_le hmost (Nat.add_le_add_right (Nat.add_le_add_right hmax _) _)
    · exact Nat.le_max_right _ _
  | adminSetAllocation => exact ⟨hleast, hdeciding, hmost, hpeak⟩
  | mintUsdc => exact ⟨hleast, hdeciding, hmost, hpeak⟩
  | burnUsdc => exact ⟨hleast, hdeciding, hmost, hpeak⟩
  | payUsdc => exact ⟨hleast, hdeciding, hmost, hpeak⟩

/-- The next request of the tick. -/
theorem Watched.request (hw : w.Watched cfg) (h : w.request cfg = .ok w') : w'.Watched cfg := by
  obtain ⟨hleast, hdeciding, hmost, hpeak⟩ := hw
  unfold BotWorld.request at h
  split at h
  next hphase =>
    -- the reading
    by_cases hlow : w.world.faucet.reservoir < w.world.faucet.lowWaterMark
    · rw [if_pos (by simpa [shouldReseed] using hlow)] at h
      obtain rfl := Except.ok.inj h
      exact ⟨hleast, fun _ => by simp only; omega, hmost, hpeak⟩
    · rw [if_neg (by simpa [shouldReseed] using hlow)] at h
      obtain rfl := Except.ok.inj h
      have hmin := Nat.min_le_left w.world.faucet.lowWaterMark cfg.reseedAmount.val
      exact ⟨by simp only [complete]; omega, fun hne => absurd rfl hne, hmost, hpeak⟩
  next hphase =>
    obtain ⟨world, hmint, hret⟩ := seq_eq_ok.mp h
    obtain rfl := Except.ok.inj hret
    cases FaucetWorld.call_eq_ok.mp hmint with
    | mintUsdc => exact ⟨hleast, fun _ => hdeciding (by rw [hphase]; decide), hmost, hpeak⟩
  next hphase =>
    obtain ⟨world, hrefill, hret⟩ := seq_eq_ok.mp h
    obtain rfl := Except.ok.inj hret
    have hbefore := hdeciding (by rw [hphase]; decide)
    cases FaucetWorld.call_eq_ok.mp hrefill with
    | refill =>
      have hmin := Nat.min_le_right w.world.faucet.lowWaterMark cfg.reseedAmount.val
      constructor
      · simp only [complete, MockFaucet.afterRefill]
        omega
      · exact fun hne => absurd rfl hne
      · simp only [complete, MockFaucet.afterRefill]
        omega
      · exact hpeak

/-- One step of anybody. -/
theorem Watched.step (hw : w.Watched cfg) {action : BotAction} (h : w.step cfg action = .ok w') :
    w'.Watched cfg := by
  cases action with
  | call sender c =>
    obtain ⟨world, hcall, hret⟩ := seq_eq_ok.mp h
    obtain rfl := Except.ok.inj hret
    exact hw.call hcall
  | request => exact hw.request h
  | fail =>
    obtain rfl := Except.ok.inj h
    exact ⟨hw.atLeast, fun hne => absurd rfl hne, hw.atMost, hw.peak⟩

/-- Before the first tick nothing is drawn and nothing given. -/
theorem watched_genesis (id : ID) (publisher issuer : Address) :
    (genesis id publisher issuer).Watched cfg where
  atLeast := Nat.le_refl _
  deciding hne := absurd rfl hne
  atMost := by
    simp only [genesis, FaucetWorld.genesis, MockFaucet.init, defaultLowWaterMark]
    omega
  peak := Nat.le_refl _

end BotWorld

/-- However the requests of the bot fall between the calls of others, and whichever of them fail:
    the reservoir holds what the last complete tick left for claims and was not claimed since, so
    no claim covered by that finds it empty; and it never reaches the highest mark by more than one
    re-seed and what others gave. -/
theorem reseed_bounds {cfg : ReseedConfig} {id : ID} {publisher issuer : Address}
    {actions : List BotAction} {w : BotWorld}
    (hrun : (BotWorld.genesis id publisher issuer).run cfg actions = .ok w) :
    w.watch.mark ≤ w.world.faucet.reservoir + w.watch.drawn ∧
    (w.watch.drawn + w.world.faucet.allocation ≤ w.watch.mark →
      ∀ a, Avoids (w.world.call a .claim) eReservoirEmpty) ∧
    w.world.faucet.reservoir < w.watch.peak + w.watch.gifts + cfg.reseedAmount.val := by
  have hw : w.Watched cfg := Run.exec_preserves (P := BotWorld.Watched cfg)
    (fun _ _ _ hw hs => hw.step hs) (BotWorld.watched_genesis id publisher issuer) hrun
  have hleast := hw.atLeast
  refine ⟨hleast, fun hcovered a => ?_, hw.atMost⟩
  exact FaucetWorld.claim_avoids_empty (by omega) a

namespace Sample

/-- The operator 1 re-seeds while another address gives a unit and a third claims. -/
def reseeding : List BotAction :=
  [.request, .request, .call 1 (.mintUsdc 2 1), .call 2 (.refill 1), .request, .call 5 .claim]

end Sample

/-- After a tick and one claim the reservoir still pays every other wallet. -/
theorem reseed_bounds_reseeding : ∃ w,
    (BotWorld.genesis 9 0 1).run ⟨1, 500000000000⟩ Sample.reseeding = .ok w ∧
    w.watch.mark = 100000000000 ∧ w.watch.drawn = 25000000000 ∧
    (∀ a, Avoids (w.world.call a .claim) eReservoirEmpty) ∧
    w.world.faucet.reservoir < w.watch.peak + w.watch.gifts + 500000000000 := by
  have hrun : returns ((BotWorld.genesis 9 0 1).run ⟨1, 500000000000⟩ Sample.reseeding) (fun w =>
      w.watch.mark = 100000000000 ∧ w.watch.drawn = 25000000000 ∧
        w.world.faucet.allocation = 25000000000) = true := by
    decide +kernel
  obtain ⟨w, hw, hq⟩ := returns_iff.mp hrun
  obtain ⟨hmark, hdrawn, hallocation⟩ := of_decide_eq_true hq
  obtain ⟨-, hclaims, hmost⟩ := reseed_bounds hw
  exact ⟨w, hw, hmark, hdrawn, hclaims (by omega), hmost⟩

end Gally.Simulation

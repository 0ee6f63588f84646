import Gally.Spec.ChainSpec
import Mathlib.Logic.Relation

/-!
# Runs call by call

A law about an interval of a run speaks about the calls made in it. `World.Path Q`
relates two worlds between which only calls were made that `Q` allows in the state they
are made in, with time passing in between. Without a restriction these are the runs of
transactions, taken apart into their calls (`World.Path.of_run`, `World.Path.run`).
-/

namespace Gally

open Checked

/-- Which calls may be made where, and by whom. -/
abbrev CallRule := World → Address → Call → Prop

/-- One step of the chain: a call that `Q` allows, or time passing. -/
inductive World.Stride (Q : CallRule) (w : World) : World → Prop where
  | call {sender : Address} {c : Call} {w' : World} (allowed : Q w sender c)
      (run : w.call sender c = .ok w') : Stride Q w w'
  | tick {now : U64} (le : w.clockMs ≤ now.val) : Stride Q w { w with clockMs := now.val }

/-- From one world to another by calls that `Q` allows. -/
def World.Path (Q : CallRule) : World → World → Prop := Relation.ReflTransGen (World.Stride Q)

/-- Every call is allowed. -/
def CallRule.any : CallRule := fun _ _ _ => True

/-- The calls of the action are allowed wherever they are made. -/
def Action.Obeys (Q : CallRule) : Action → Prop
  | .transaction sender calls => ∀ c ∈ calls, ∀ w, Q w sender c
  | .tick _ => True

/-- Every call of the action has property `p`. -/
def Action.all (p : Call → Bool) : Action → Bool
  | .transaction _ calls => calls.all p
  | .tick _ => true

/-- A call takes no time. -/
theorem World.call_clock {w w' : World} {sender : Address} {c : Call}
    (h : w.call sender c = .ok w') : w'.clockMs = w.clockMs := by
  -- calls read the clock, only a tick moves it
  cases c with
  | protocol c =>
    obtain ⟨-, _, _, -, rfl⟩ := World.protocolCall_eq_ok.mp h
    rfl
  | validator c => cases World.validatorCall_eq_ok.mp h <;> rfl
  | asset c => cases World.assetCall_eq_ok.mp h <;> rfl
  | accumulator c => cases World.accumulatorCall_eq_ok.mp h <;> rfl
  | dispute c => cases World.disputeCall_eq_ok.mp h <;> rfl
  | framework c => cases World.frameworkCall_eq_ok.mp h <;> rfl

namespace World.Path

variable {Q : CallRule} {w u v : World}

theorem refl (w : World) : w.Path Q w := Relation.ReflTransGen.refl

theorem trans (h : w.Path Q u) (h' : u.Path Q v) : w.Path Q v := Relation.ReflTransGen.trans h h'

/-- An allowed call is a path. -/
theorem call {sender : Address} {c : Call} (allowed : Q w sender c)
    (run : w.call sender c = .ok u) : w.Path Q u :=
  .single (.call allowed run)

/-- A tick is a path. -/
theorem tick {now : U64} (le : w.clockMs ≤ now.val) : w.Path Q { w with clockMs := now.val } :=
  .single (.tick le)

/-- The calls of a path, each a transaction of its own. -/
theorem run (h : w.Path Q u) : ∃ actions, w.run actions = .ok u := by
  induction h with
  | refl => exact ⟨[], World.run_nil w⟩
  | @tail u v _ hs ih =>
    obtain ⟨actions, hrun⟩ := ih
    cases hs with
    | call allowed run =>
      -- a path of single calls is a run of transactions with one call each
      have hlast := World.run_call run v.run_nil
      exact ⟨_, Run.exec_append_eq_ok.mpr ⟨u, hrun, hlast⟩⟩
    | @tick now le =>
      have hlast : u.run [.tick now] = .ok { u with clockMs := now.val } := by
        simp [World.run, World.step, guarded, le]
      exact ⟨_, Run.exec_append_eq_ok.mpr ⟨u, hrun, hlast⟩⟩

/-- A path from a reachable world leads to reachable worlds. -/
theorem reachable (hw : Reachable w) (h : w.Path Q u) : Reachable u := by
  obtain ⟨actions, hrun⟩ := h.run
  exact hw.run hrun

end World.Path

/-- Time passes. -/
theorem Reachable.tick {w : World} (hw : Reachable w) {now : U64} (le : w.clockMs ≤ now.val) :
    Reachable { w with clockMs := now.val } :=
  (World.Path.tick (Q := .any) le).reachable hw

namespace World.Path

variable {Q : CallRule} {w u v : World}

/-- The calls of a transaction, each of which `Q` allows wherever it is made. -/
theorem of_exec {sender : Address} {calls : List Call} (hQ : ∀ c ∈ calls, ∀ w, Q w sender c)
    (h : Run.exec (fun w c => World.call w sender c) w calls = .ok u) : w.Path Q u := by
  induction calls generalizing w with
  | nil =>
    obtain rfl := Run.exec_nil_eq_ok.mp h
    exact refl w
  | cons c calls ih =>
    obtain ⟨v, hc, hcalls⟩ := Run.exec_cons_eq_ok.mp h
    exact (call (hQ c (by simp) w) hc).trans (ih (fun c' hc' => hQ c' (by simp [hc'])) hcalls)

/-- A run of transactions is a path, if `Q` allows their calls wherever they are made. -/
theorem of_run_rule {actions : List Action} (hQ : ∀ action ∈ actions, action.Obeys Q)
    (h : w.run actions = .ok u) : w.Path Q u := by
  induction actions generalizing w with
  | nil =>
    obtain rfl := Run.exec_nil_eq_ok.mp h
    exact refl w
  | cons action actions ih =>
    obtain ⟨v, ha, hactions⟩ := Run.exec_cons_eq_ok.mp h
    have hrest := ih (fun action' h' => hQ action' (by simp [h'])) hactions
    -- a transaction is a path of its calls
    cases action with
    | transaction sender calls =>
      exact (of_exec (hQ (.transaction sender calls) (by simp)) ha).trans hrest
    | tick now =>
      obtain ⟨le, rfl⟩ := guarded_eq_ok.mp ha
      exact (tick le).trans hrest

/-- A run all calls of which have a property that `Q` asks for is a path. -/
theorem of_run_all {p : Call → Bool} (hp : ∀ c, p c = true → ∀ w sender, Q w sender c)
    {actions : List Action} (hall : actions.all (Action.all p) = true)
    (h : w.run actions = .ok u) : w.Path Q u := by
  refine of_run_rule (fun action haction => ?_) h
  have haction' := List.all_eq_true.mp hall action haction
  cases action with
  | tick => trivial
  | transaction sender calls =>
    intro c hc v
    exact hp c (List.all_eq_true.mp haction' c hc) v sender

/-- A run of transactions is a path. -/
theorem of_run {actions : List Action} (h : w.run actions = .ok u) : w.Path .any u := by
  refine of_run_rule (fun action _ => ?_) h
  cases action with
  | transaction => exact fun _ _ _ => trivial
  | tick => trivial

/-- What every allowed call and every tick preserve from a reachable world on holds at the
    end of the path. -/
theorem preserves {P : World → Prop} (hw : Reachable w) (h : w.Path Q u) (hP : P w)
    (call : ∀ {w sender c w'}, Reachable w → P w → Q w sender c → World.call w sender c = .ok w' →
      P w')
    (tick : ∀ {w : World} {now : U64}, Reachable w → P w → w.clockMs ≤ now.val →
      P { w with clockMs := now.val }) : P u := by
  induction h with
  | refl => exact hP
  | tail init last ih =>
    have hr := reachable hw init
    cases last with
    | call allowed run => exact call hr ih allowed run
    | tick le => exact tick hr ih le

/-- Time never goes back. -/
theorem clock_le (h : w.Path Q u) : w.clockMs ≤ u.clockMs := by
  induction h with
  | refl => exact Nat.le_refl _
  | tail _ last ih =>
    cases last with
    | call _ run => exact World.call_clock run ▸ ih
    | tick le => exact Nat.le_trans ih le

end World.Path

/-- Calls made one after the other, each where `ok` allows it. -/
def World.obey (ok : World → Address → Call → Bool) (w : World) (calls : List (Address × Call)) :
    Except Abort World :=
  Run.exec (fun w l => ensure (ok w l.1 l.2 = true) .notOwner >>= fun _ => w.call l.1 l.2) w calls

/-- They are a path under any rule that `ok` decides. -/
theorem World.Path.of_obey {Q : CallRule} {ok : World → Address → Call → Bool}
    (hQ : ∀ w sender c, ok w sender c = true → Q w sender c) {w u : World}
    {calls : List (Address × Call)} (h : w.obey ok calls = .ok u) : w.Path Q u := by
  -- on the calls; each of them was checked in the world it started from
  induction calls generalizing w with
  | nil =>
    obtain rfl := Run.exec_nil_eq_ok.mp h
    exact refl w
  | cons l calls ih =>
    obtain ⟨v, hl, hcalls⟩ := Run.exec_cons_eq_ok.mp h
    obtain ⟨_, hok, hcall⟩ := seq_eq_ok.mp hl
    exact (call (hQ _ _ _ (ensure_eq_ok.mp hok)) hcall).trans (ih hcalls)

end Gally

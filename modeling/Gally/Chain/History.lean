import Gally.Chain.Path

/-!
# History variables

Some laws speak about more than the world holds: what became of a vouch, or since when a unit
has been in a deed. A `History` adds a value that every call updates from the state it is made
in. `World.Traced` pairs the worlds of a run with that value, and may restrict the calls by what
the value is.
-/

namespace Gally

open Checked

variable {γ : Type}

/-- A value carried along a run: where it starts and what a call may make of it. -/
structure History (γ : Type) where
  start : γ
  Becomes : World → Call → γ → γ → Prop

/-- A history in which every call has one outcome. -/
def History.of (start : γ) (after : World → Call → γ → γ) : History γ :=
  ⟨start, fun w c g g' => g' = after w c g⟩

/-- A run by calls that `Q` allows, and a history of it. -/
inductive World.Traced (H : History γ) (Q : World → γ → Call → Prop) : World → γ → Prop where
  | genesis (admin : Address) : Traced H Q (World.genesis admin) H.start
  | call {w w' : World} {g g' : γ} {sender : Address} {c : Call} (init : Traced H Q w g)
      (allowed : Q w g c) (run : w.call sender c = .ok w') (becomes : H.Becomes w c g g') :
      Traced H Q w' g'
  | tick {w : World} {g : γ} {now : U64} (init : Traced H Q w g) (le : w.clockMs ≤ now.val) :
      Traced H Q { w with clockMs := now.val } g

namespace World.Traced

variable {H : History γ} {Q : World → γ → Call → Prop} {w : World} {g : γ}

/-- A traced world is reachable. -/
theorem reachable (h : w.Traced H Q g) : Reachable w := by
  induction h with
  | genesis admin => exact ⟨admin, [], World.run_nil _⟩
  | call _ _ run _ ih => exact ih.call run
  | tick _ le ih => exact ih.tick le

/-- What every allowed call and every tick preserve holds at the end. -/
theorem preserves {P : World → γ → Prop} (h : w.Traced H Q g)
    (genesis : ∀ admin, P (World.genesis admin) H.start)
    (call : ∀ {w g g' sender c w'}, Reachable w → P w g → Q w g c →
      World.call w sender c = .ok w' → H.Becomes w c g g' → P w' g')
    (tick : ∀ {w : World} {g : γ} {now : U64}, P w g → w.clockMs ≤ now.val →
      P { w with clockMs := now.val } g) : P w g := by
  induction h with
  | genesis admin => exact genesis admin
  | call init allowed run becomes ih => exact call init.reachable ih allowed run becomes
  | tick _ le ih => exact tick ih le

end World.Traced

/-- Every reachable world has a history, if every call leaves one. -/
theorem Reachable.traced {H : History γ} {w : World} (hw : Reachable w)
    (htotal : ∀ {w g sender c w'}, w.Traced H (fun _ _ _ => True) g → w.call sender c = .ok w' →
      ∃ g', H.Becomes w c g g') : ∃ g, w.Traced H (fun _ _ _ => True) g := by
  refine hw.induct (P := fun w => ∃ g, w.Traced H (fun _ _ _ => True) g)
    (fun admin => ⟨_, .genesis admin⟩) ?_ fun _ ⟨_, hg⟩ le => ⟨_, hg.tick le⟩
  intro w sender c w' _ ⟨g, hg⟩ h
  obtain ⟨g', hbecomes⟩ := htotal hg h
  exact ⟨g', hg.call trivial h hbecomes⟩

/-! ## Computing a history -/

section Compute

variable (start : γ) (after : World → Call → γ → γ) (ok : World → γ → Call → Bool)

/-- An action on a world and its history, each call made where `ok` allows it. -/
def History.step (s : World × γ) : Action → Except Abort (World × γ)
  | .transaction sender calls => Run.exec (fun s c => do
      ensure (ok s.1 s.2 c = true) .notOwner
      let w ← s.1.call sender c
      return (w, after s.1 c s.2)) s calls
  | .tick now => guarded (s.1.clockMs ≤ now.val) .clockBackwards
      ({ s.1 with clockMs := now.val }, s.2)

/-- The run of the actions from genesis. -/
def History.run (actions : List Action) : Except Abort (World × γ) :=
  Run.exec (History.step after ok) (World.genesis 0, start) actions

variable {start after ok}

/-- What was computed is a run under any rule that `ok` decides. -/
theorem World.Traced.of_run {H : History γ} {Q : World → γ → Call → Prop}
    (hstart : H.start = start) (hafter : ∀ w c g, H.Becomes w c g (after w c g))
    (hQ : ∀ w g c, ok w g c = true → Q w g c) {actions : List Action} {s : World × γ}
    (h : History.run start after ok actions = .ok s) : s.1.Traced H Q s.2 := by
  subst hstart
  refine Run.exec_preserves (P := fun s => World.Traced H Q s.1 s.2) ?_ (.genesis 0) h
  -- a transaction is traced call by call, a tick leaves the history alone
  rintro s (⟨sender, calls⟩ | now) s' hs hstep
  · refine Run.exec_preserves (P := fun s => World.Traced H Q s.1 s.2) ?_ hs hstep
    intro t c t' ht hcall
    simp only [seq_eq_ok, ensure_eq_ok, return_eq_ok] at hcall
    obtain ⟨_, hok, w', hw', rfl⟩ := hcall
    exact ht.call (hQ _ _ _ hok) hw' (hafter _ _ _)
  · obtain ⟨le, rfl⟩ := guarded_eq_ok.mp hstep
    exact hs.tick le

end Compute

end Gally

import Mathlib.Logic.Function.Basic
import Mathlib.Logic.Relation
import Gally.Library.Store

/-!
# Read-through caches

Requests look up keys of a cache whose entries live for `ttl`; what they do not find they fetch
from a source, put into the cache and go on with. A request may need several keys, one after
another. It takes at most `timeout`, and anything may happen between two of its steps: others
fetch the same key, entries expire, a slow fetch replaces the entry of a faster one.

## Key results

- `Cache.answered`: what is answered is what the source said, at most `ttl + timeout` before the
  request came; that a key is unknown, or that the source failed, it said no earlier than the
  request came. A request may also find nothing in a value, which is as old as any it could answer
- `Cache.spared`: a request fetches no key that was stored less than `ttl` ago
-/

namespace ReadThrough

variable {ρ κ β : Type}

/-- What a request does with a value. -/
inductive Next (κ β : Type) where
  | answer (v : β)
  | goOn (k : κ)
  | missing

/-- What a request is answered. -/
inductive Outcome (β : Type) where
  | found (v : β)
  | missing
  | failed

/-- Which keys a request needs, and the source; `none` is a key the source does not know. -/
structure Api (ρ κ β : Type) where
  first : ρ → κ
  next : ρ → κ → β → Next κ β
  source : ℕ → κ → Except Unit (Option β)
  ttl : ℕ
  timeout : ℕ

/-- Where a request stands. The clock is read before the cache is looked at. -/
inductive Stage (κ β : Type) where
  | lookup (k : κ)
  | check (k : κ) (sampled : ℕ)
  | fetch (k : κ)
  | store (k : κ) (v : β) (read : ℕ)

structure Task (ρ κ β : Type) where
  id : ℕ
  request : ρ
  started : ℕ
  stage : Stage κ β

instance : Keyed (Task ρ κ β) ℕ := ⟨Task.id⟩

structure Answer (ρ β : Type) where
  request : ρ
  started : ℕ
  finished : ℕ
  outcome : Outcome β

/-- The cache with the requests under way; what was answered, stored and read so far. -/
structure Cache (ρ κ β : Type) where
  now : ℕ
  entries : κ → Option (ℕ × β)
  tasks : Store (Task ρ κ β)
  nextId : ℕ
  answers : List (Answer ρ β)
  stores : List (κ × ℕ)
  reads : List (κ × ℕ × ℕ)

/-- Time passes, a request comes, goes on by a step, or is given up. -/
inductive Act (ρ : Type) where
  | wait (d : ℕ)
  | request (r : ρ)
  | advance (id : ℕ)
  | drop (id : ℕ)

namespace Cache

/-- An empty cache. -/
def start : Cache ρ κ β := ⟨0, fun _ => none, ∅, 0, [], [], []⟩

variable (api : Api ρ κ β)

/-- The request has come to a stage. -/
def goTo (c : Cache ρ κ β) (t : Task ρ κ β) (stage : Stage κ β) : Cache ρ κ β :=
  { c with tasks := c.tasks.put { t with stage } }

/-- The request is answered. -/
def answer (c : Cache ρ κ β) (t : Task ρ κ β) (outcome : Outcome β) : Cache ρ κ β :=
  { c with
    tasks := c.tasks.delete t.id
    answers := c.answers ++ [⟨t.request, t.started, c.now, outcome⟩] }

/-- The request has a value for a key. -/
def proceed (c : Cache ρ κ β) (t : Task ρ κ β) (k : κ) (v : β) : Cache ρ κ β :=
  match api.next t.request k v with
  | .answer w => c.answer t (.found w)
  | .goOn k' => c.goTo t (.lookup k')
  | .missing => c.answer t .missing

/-- The source is asked for a key, and answers as it is now. -/
def fetch (c : Cache ρ κ β) (t : Task ρ κ β) (k : κ) : Cache ρ κ β :=
  match api.source c.now k with
  | .error _ => c.answer t .failed
  | .ok none => c.answer t .missing
  | .ok (some v) => c.goTo t (.store k v c.now)

variable [DecidableEq κ]

/-- A step of a request. -/
def advance (c : Cache ρ κ β) (t : Task ρ κ β) : Cache ρ κ β :=
  match t.stage with
  | .lookup k => c.goTo t (.check k c.now)
  | .check k sampled =>
    match c.entries k with
    | some (since, v) =>
      if sampled - since < api.ttl then c.proceed api t k v
      else { c with entries := Function.update c.entries k none }.goTo t (.fetch k)
    | none => c.goTo t (.fetch k)
  | .fetch k => { c with reads := c.reads ++ [(k, t.started, c.now)] }.fetch api t k
  | .store k v _ =>
    { c with
      entries := Function.update c.entries k (some (c.now, v))
      stores := c.stores ++ [(k, c.now)] }.proceed api t k v

def step (c : Cache ρ κ β) : Act ρ → Cache ρ κ β
  | .wait d => { c with now := c.now + d }
  | .request r =>
    { c with
      nextId := c.nextId + 1
      tasks := c.tasks.put ⟨c.nextId, r, c.now, .lookup (api.first r)⟩ }
  | .advance id =>
    match c.tasks.get? id with
    | some t => if c.now ≤ t.started + api.timeout then c.advance api t else c
    | none => c
  | .drop id => { c with tasks := c.tasks.delete id }

def run (acts : List (Act ρ)) : Cache ρ κ β := acts.foldl (step api) start

end Cache

/-! ## What is true of a value -/

namespace Api

variable (api : Api ρ κ β)

/-- The source said so while the request was under way, or at most `ttl + timeout` before. -/
def Recent (started now : ℕ) (k : κ) (v : β) : Prop :=
  ∃ read ≤ now, started ≤ read + api.ttl + api.timeout ∧ api.source read k = .ok (some v)

/-- The source said so while the request was under way. -/
def Said (started now : ℕ) (k : κ) (reply : Except Unit (Option β)) : Prop :=
  ∃ read ≤ now, started ≤ read ∧ api.source read k = reply

/-- A recent value leads the request from one key to the next. -/
def Leads (r : ρ) (started now : ℕ) (k k' : κ) : Prop :=
  ∃ v, api.Recent started now k v ∧ api.next r k v = .goOn k'

/-- The request needs the key. -/
def Needs (r : ρ) (started now : ℕ) (k : κ) : Prop :=
  Relation.ReflTransGen (api.Leads r started now) (api.first r) k

/-- The answer follows from what the source said. -/
def Right (a : Answer ρ β) : Prop :=
  ∃ k, api.Needs a.request a.started a.finished k ∧
    match a.outcome with
    | .found w => ∃ v, api.Recent a.started a.finished k v ∧ api.next a.request k v = .answer w
    | .missing => api.Said a.started a.finished k (.ok none) ∨
      ∃ v, api.Recent a.started a.finished k v ∧ api.next a.request k v = .missing
    | .failed => api.Said a.started a.finished k (.error ())

variable {api} {r : ρ} {started now now' : ℕ} {k : κ} {v : β}

/-- What was recent at one time is recent at any later time. -/
theorem Recent.later (h : api.Recent started now k v) (hle : now ≤ now') :
    api.Recent started now' k v := by
  obtain ⟨read, hread, hrest⟩ := h
  exact ⟨read, hread.trans hle, hrest⟩

/-- A key that was needed at one time is needed at any later time. -/
theorem Needs.later (h : api.Needs r started now k) (hle : now ≤ now') :
    api.Needs r started now' k := by
  have hmono : ∀ k k', api.Leads r started now k k' → api.Leads r started now' k k' := by
    intro k k' ⟨v, hv, hnext⟩
    exact ⟨v, hv.later hle, hnext⟩
  exact Relation.ReflTransGen.mono hmono _ _ h

end Api

/-! ## What holds at every point -/

/-- The key a request is at. -/
def Stage.key : Stage κ β → κ
  | .lookup k | .check k _ | .fetch k | .store k .. => k

namespace Cache

variable (api : Api ρ κ β) {c c' : Cache ρ κ β} {t : Task ρ κ β}

/-- What is known where a request stands. -/
def StageSound (c : Cache ρ κ β) (started : ℕ) : Stage κ β → Prop
  | .lookup _ => True
  | .check _ sampled => started ≤ sampled ∧ sampled ≤ c.now
  | .fetch k => ∀ since, (k, since) ∈ c.stores → since < started → since + api.ttl ≤ c.now
  | .store k v read => started ≤ read ∧ read ≤ c.now ∧ api.source read k = .ok (some v)

structure TaskSound (c : Cache ρ κ β) (t : Task ρ κ β) : Prop where
  started : t.started ≤ c.now
  needs : api.Needs t.request t.started c.now t.stage.key
  stage : c.StageSound api t.started t.stage

structure Sound (c : Cache ρ κ β) : Prop where
  /-- An entry is what the source said shortly before it was stored. -/
  entries : ∀ k since v, c.entries k = some (since, v) → since ≤ c.now ∧
    ∃ read ≤ since, since ≤ read + api.timeout ∧ api.source read k = .ok (some v)
  /-- What was stored is there until it has expired, or something newer is. -/
  stores : ∀ k since, (k, since) ∈ c.stores → since ≤ c.now ∧
    (since + api.ttl ≤ c.now ∨ ∃ since' v, c.entries k = some (since', v) ∧ since ≤ since')
  reads : ∀ k started read, (k, started, read) ∈ c.reads → started ≤ read ∧ read ≤ c.now ∧
    ∀ since, (k, since) ∈ c.stores → since < started → since + api.ttl ≤ read
  tasks : ∀ t ∈ c.tasks, c.TaskSound api t
  answers : ∀ a ∈ c.answers, api.Right a

variable {api}

/-- An empty cache without requests is sound. -/
theorem sound_start : (start : Cache ρ κ β).Sound api where
  entries k since v h := by cases h
  stores k since h := by cases h
  reads k started read h := by cases h
  tasks t ht := absurd ht (Store.not_mem_empty t)
  answers a ha := by cases ha

/-- A cache with the same clock and the same stores bears out the same requests. -/
theorem TaskSound.of_eq (h : c.TaskSound api t) (hnow : c'.now = c.now)
    (hstores : c'.stores = c.stores) : c'.TaskSound api t where
  started := hnow ▸ h.started
  needs := hnow ▸ h.needs
  stage := by
    have hstage := h.stage
    cases hs : t.stage <;> simp only [hs, StageSound, hnow, hstores] at hstage ⊢ <;> exact hstage

/-- Requests that are all sound take the place of others. -/
theorem Sound.tasks_of (hc : c.Sound api) {tasks : Store (Task ρ κ β)} {nextId : ℕ}
    (h : ∀ t ∈ tasks, c.TaskSound api t) :
    Sound api { c with tasks := tasks, nextId := nextId } where
  entries := hc.entries
  stores := hc.stores
  reads := hc.reads
  tasks t ht := (h t ht).of_eq rfl rfl
  answers := hc.answers

/-- Moving a request to a stage that the cache bears out keeps the cache sound. -/
theorem Sound.goTo (hc : c.Sound api) {stage : Stage κ β}
    (ht : c.TaskSound api { t with stage }) : (c.goTo t stage).Sound api :=
  hc.tasks_of (Store.forall_put ht hc.tasks)

/-- A right answer keeps the cache sound. -/
theorem Sound.answer (hc : c.Sound api) {outcome : Outcome β}
    (h : api.Right ⟨t.request, t.started, c.now, outcome⟩) : (c.answer t outcome).Sound api where
  entries := hc.entries
  stores := hc.stores
  reads := hc.reads
  tasks u hu := (Store.forall_delete hc.tasks u hu).of_eq rfl rfl
  answers := by
    intro a ha
    -- the answers are the old ones and this one
    obtain ha | ha := List.mem_append.mp ha
    · exact hc.answers a ha
    · obtain rfl := List.mem_singleton.mp ha
      exact h

/-- Going on with a recent value keeps the cache sound, whatever `next` makes of it. -/
theorem Sound.proceed (hc : c.Sound api) {k : κ} {v : β} (hstarted : t.started ≤ c.now)
    (hneeds : api.Needs t.request t.started c.now k)
    (hrecent : api.Recent t.started c.now k v) : (c.proceed api t k v).Sound api := by
  unfold Cache.proceed
  cases hnext : api.next t.request k v with
  | answer w => exact hc.answer ⟨k, hneeds, v, hrecent, hnext⟩
  | missing => exact hc.answer ⟨k, hneeds, .inr ⟨v, hrecent, hnext⟩⟩
  -- the next key is needed because this value was recent
  | goOn k' =>
    have hneeds' : api.Needs t.request t.started c.now k' :=
      Relation.ReflTransGen.tail hneeds ⟨v, hrecent, hnext⟩
    exact hc.goTo ⟨hstarted, hneeds', trivial⟩

/-- A key is read from the source. -/
theorem Sound.read (hc : c.Sound api) {k : κ} {started : ℕ} (hstarted : started ≤ c.now)
    (hspared : ∀ since, (k, since) ∈ c.stores → since < started → since + api.ttl ≤ c.now) :
    Sound api { c with reads := c.reads ++ [(k, started, c.now)] } where
  entries := hc.entries
  stores := hc.stores
  reads := by
    -- the reads are the old ones and this one
    intro j s r hj
    obtain hj | hj := List.mem_append.mp hj
    · exact hc.reads j s r hj
    · simp only [List.mem_singleton, Prod.mk.injEq] at hj
      obtain ⟨rfl, rfl, rfl⟩ := hj
      exact ⟨hstarted, Nat.le_refl _, hspared⟩
  tasks u hu := (hc.tasks u hu).of_eq rfl rfl
  answers := hc.answers

/-- Asking the source keeps the cache sound. -/
theorem Sound.fetch (hc : c.Sound api) {k : κ} (hstarted : t.started ≤ c.now)
    (hneeds : api.Needs t.request t.started c.now k) : (c.fetch api t k).Sound api := by
  unfold Cache.fetch
  -- a failed read and an empty one are answered at once, a value is to be stored first
  cases hsource : api.source c.now k with
  | error e =>
    apply hc.answer
    exact ⟨k, hneeds, c.now, Nat.le_refl _, hstarted, hsource⟩
  | ok found =>
    cases found with
    | none =>
      apply hc.answer
      exact ⟨k, hneeds, .inl ⟨c.now, Nat.le_refl _, hstarted, hsource⟩⟩
    | some v =>
      apply hc.goTo
      exact ⟨hstarted, hneeds, hstarted, Nat.le_refl _, hsource⟩

/-- A key without an entry was stored long ago, if at all. -/
theorem Sound.absent (hc : c.Sound api) {k : κ} (hk : c.entries k = none) {since : ℕ}
    (hsince : (k, since) ∈ c.stores) : since + api.ttl ≤ c.now := by
  obtain ⟨-, hexpired | ⟨since', v, hentry, -⟩⟩ := hc.stores k since hsince
  · exact hexpired
  · rw [hk] at hentry
    cases hentry

/-- Time passes. -/
theorem Sound.wait (hc : c.Sound api) (d : ℕ) : Sound api { c with now := c.now + d } where
  entries := by
    intro k since v hk
    -- the bounds by the clock only get weaker
    obtain ⟨hsince, hrest⟩ := hc.entries k since v hk
    exact ⟨Nat.le_add_right_of_le hsince, hrest⟩
  stores := by
    intro k since hk
    obtain ⟨hle, hentry⟩ := hc.stores k since hk
    exact ⟨Nat.le_add_right_of_le hle, hentry.imp_left Nat.le_add_right_of_le⟩
  reads := by
    intro k started read hk
    obtain ⟨hstart, hnow, hspared⟩ := hc.reads k started read hk
    exact ⟨hstart, Nat.le_add_right_of_le hnow, hspared⟩
  tasks := by
    intro u hu
    obtain ⟨hstarted, hneeds, hstage⟩ := hc.tasks u hu
    refine ⟨Nat.le_add_right_of_le hstarted, hneeds.later (Nat.le_add_right _ _), ?_⟩
    cases hs : u.stage with
    | lookup k => trivial
    -- the bounds of a stage are bounds by the clock as well
    | check k sampled =>
      rw [hs] at hstage
      exact ⟨hstage.1, Nat.le_add_right_of_le hstage.2⟩
    | fetch k =>
      rw [hs] at hstage
      exact fun since hsince hlt => Nat.le_add_right_of_le (hstage since hsince hlt)
    | store k v read =>
      rw [hs] at hstage
      exact ⟨hstage.1, Nat.le_add_right_of_le hstage.2.1, hstage.2.2⟩
  answers := hc.answers

variable [DecidableEq κ]

/-- An expired entry is removed. -/
theorem Sound.expire (hc : c.Sound api) {k : κ} {since : ℕ} {v : β}
    (hk : c.entries k = some (since, v)) (hold : since + api.ttl ≤ c.now) :
    Sound api { c with entries := Function.update c.entries k none } where
  entries := by
    intro j since' v' hj
    by_cases hjk : j = k
    · simp [hjk] at hj
    · simp only [Function.update_of_ne hjk] at hj
      exact hc.entries j since' v' hj
  stores := by
    intro j since' hj
    obtain ⟨hle, hentry⟩ := hc.stores j since' hj
    -- another key keeps its entry; of this one only the expired entry is lost
    apply And.intro hle
    by_cases hjk : j = k
    · left
      obtain hexpired | ⟨since'', v', hj', hnewer⟩ := hentry
      · exact hexpired
      · obtain ⟨rfl, -⟩ : since = since'' ∧ v = v' := by
          -- the two entries are read under one key, so they are one
          rw [hjk, hk] at hj'
          simpa using hj'
        show since' + api.ttl ≤ c.now
        omega
    · simp only [Function.update_of_ne hjk]
      exact hentry
  reads := hc.reads
  tasks u hu := (hc.tasks u hu).of_eq rfl rfl
  answers := hc.answers

/-- A value that was read within the timeout is stored. -/
theorem Sound.store (hc : c.Sound api) {k : κ} {v : β} {read : ℕ} (hread : read ≤ c.now)
    (hprompt : c.now ≤ read + api.timeout) (hsource : api.source read k = .ok (some v)) :
    Sound api { c with
      entries := Function.update c.entries k (some (c.now, v))
      stores := c.stores ++ [(k, c.now)] } where
  entries := by
    -- the new entry was just read, the others are as they were
    intro j since v' hj
    by_cases hjk : j = k
    · subst hjk
      simp only [Function.update_self, Option.some.injEq, Prod.mk.injEq] at hj
      obtain ⟨rfl, rfl⟩ := hj
      exact ⟨Nat.le_refl _, read, hread, hprompt, hsource⟩
    · simp only [Function.update_of_ne hjk] at hj
      exact hc.entries j since v' hj
  stores := by
    intro j since hj
    obtain hj | hj := List.mem_append.mp hj
    · obtain ⟨hle, hentry⟩ := hc.stores j since hj
      apply And.intro hle
      by_cases hjk : j = k
      · right
        -- the new entry of the key is not older than any store into it
        exact ⟨c.now, v, by simp [hjk], hle⟩
      · simp only [Function.update_of_ne hjk]
        exact hentry
    · simp only [List.mem_singleton, Prod.mk.injEq] at hj
      obtain ⟨rfl, rfl⟩ := hj
      exact ⟨Nat.le_refl _, .inr ⟨c.now, v, by simp, Nat.le_refl _⟩⟩
  reads := by
    intro j s r hj
    obtain ⟨hstart, hnow, hspared⟩ := hc.reads j s r hj
    apply And.intro hstart
    apply And.intro hnow
    intro since hsince hlt
    obtain hsince | hsince := List.mem_append.mp hsince
    · exact hspared since hsince hlt
    · -- what is stored now is not older than a request that has read
      simp only [List.mem_singleton, Prod.mk.injEq] at hsince
      have hnow' : r ≤ c.now := hnow
      omega
  tasks := by
    intro u hu
    have hold := hc.tasks u hu
    have hstage := hold.stage
    refine ⟨hold.started, hold.needs, ?_⟩
    cases hs : u.stage with
    | fetch j =>
      rw [hs] at hstage
      intro since hsince hlt
      obtain hsince | hsince := List.mem_append.mp hsince
      · exact hstage since hsince hlt
      · simp only [List.mem_singleton, Prod.mk.injEq] at hsince
        have hstarted := hold.started
        omega
    | lookup j => trivial
    | check j sampled =>
      rw [hs] at hstage
      exact hstage
    | store j v' r =>
      rw [hs] at hstage
      exact hstage
  answers := hc.answers

/-- One move of a request that is not too late keeps the cache sound. -/
theorem Sound.advance (hc : c.Sound api) (ht : c.TaskSound api t)
    (htime : c.now ≤ t.started + api.timeout) : (c.advance api t).Sound api := by
  obtain ⟨hstarted, hneeds, hstage⟩ := ht
  unfold Cache.advance
  cases hs : t.stage with
  | lookup k =>
    have hneeds : api.Needs t.request t.started c.now k := by rwa [hs] at hneeds
    exact hc.goTo ⟨hstarted, hneeds, hstarted, Nat.le_refl _⟩
  | check k sampled =>
    have hneeds : api.Needs t.request t.started c.now k := by rwa [hs] at hneeds
    rw [hs] at hstage
    obtain ⟨hsampled, hpast⟩ := hstage
    cases hk : c.entries k with
    -- no entry: what was stored since has expired, so nothing is spared
    | none =>
      have hspared : c.StageSound api t.started (.fetch k) := fun _ h _ => hc.absent hk h
      simp only [hk]
      exact hc.goTo ⟨hstarted, hneeds, hspared⟩
    | some entry =>
      obtain ⟨since, v⟩ := entry
      obtain ⟨hsince, read, hread, hprompt, hsource⟩ := hc.entries k since v hk
      by_cases hfresh : sampled - since < api.ttl
      -- a fresh entry answers, and its value was read within the lifetime and the timeout
      · simp only [hk, if_pos hfresh]
        apply hc.proceed hstarted hneeds
        exact ⟨read, hread.trans hsince, by omega, hsource⟩
      · simp only [hk, if_neg hfresh]
        -- an old entry is dropped before the source is asked
        have hexpired := hc.expire hk (by omega)
        apply hexpired.goTo
        have hspared : StageSound api { c with entries := Function.update c.entries k none }
            t.started (.fetch k) := fun _ h _ => hexpired.absent (Function.update_self ..) h
        exact ⟨hstarted, hneeds, hspared⟩
  | fetch k =>
    have hneeds : api.Needs t.request t.started c.now k := by rwa [hs] at hneeds
    rw [hs] at hstage
    exact (hc.read hstarted hstage).fetch hstarted hneeds
  | store k v read =>
    have hneeds : api.Needs t.request t.started c.now k := by rwa [hs] at hneeds
    rw [hs] at hstage
    obtain ⟨hearly, hpast, hsource⟩ := hstage
    -- the value is stored, then the request goes on with it
    have hstored := hc.store hpast (by omega) hsource
    apply hstored.proceed hstarted hneeds
    exact ⟨read, hpast, by omega, hsource⟩

/-- Every step keeps the cache sound. -/
theorem Sound.step (hc : c.Sound api) (a : Act ρ) : (c.step api a).Sound api := by
  cases a with
  | wait d => exact hc.wait d
  | request r =>
    -- a new request needs its first key and has not read anything
    have hnew : c.TaskSound api ⟨c.nextId, r, c.now, .lookup (api.first r)⟩ :=
      ⟨Nat.le_refl _, Relation.ReflTransGen.refl, trivial⟩
    exact hc.tasks_of (Store.forall_put hnew hc.tasks)
  | advance id =>
    simp only [Cache.step]
    cases ht : c.tasks.get? id with
    | none => exact hc
    | some t =>
      show (if c.now ≤ t.started + api.timeout then c.advance api t else c).Sound api
      by_cases htime : c.now ≤ t.started + api.timeout
      · rw [if_pos htime]
        exact hc.advance (hc.tasks t (Store.mem_of_get? ht)) htime
      · rw [if_neg htime]
        exact hc
  | drop id => exact hc.tasks_of (Store.forall_delete hc.tasks)

/-- The cache is sound after any run. -/
theorem sound_run (acts : List (Act ρ)) : (run api acts).Sound api := by
  have hrun : ∀ c : Cache ρ κ β, c.Sound api → (acts.foldl (Cache.step api) c).Sound api := by
    induction acts with
    | nil => exact fun c hc => hc
    | cons a acts ih => exact fun c hc => ih _ (hc.step a)
  exact hrun start sound_start

/-! ## Runs -/

/-- Every answer follows from what the source said recently. -/
theorem answered {acts : List (Act ρ)} {a : Answer ρ β} (ha : a ∈ (run api acts).answers) :
    api.Right a := (sound_run acts).answers a ha

/-- A request reads no key from the source that was stored less than `ttl` ago when the request
    came. -/
theorem spared {acts : List (Act ρ)} {k : κ} {started read since : ℕ}
    (hread : (k, started, read) ∈ (run api acts).reads)
    (hstored : (k, since) ∈ (run api acts).stores) (hlt : since < started) :
    since + api.ttl ≤ read := ((sound_run acts).reads k started read hread).2.2 since hstored hlt

end Cache

end ReadThrough

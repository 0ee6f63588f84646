import Mathlib.Order.MinMax
import Mathlib.Order.Nat

/-!
# Bounded broadcast channels

A channel is the list of the messages sent on it, of which it keeps the last `cap`. A receiver is a
position in that list: it gets what is sent after it subscribed, in order. One that falls more than
`cap` messages behind is told how many it missed and goes on with the oldest message kept.

## Key results

- `Follows.subscribe`, `Follows.send`, `Follows.pull`: what a receiver got, and how much it missed
- `Follows.complete`: a receiver that missed nothing got everything up to its position
- `Follows.recent`: one that has caught up got at least the last `cap` messages
-/

namespace Broadcast

variable {α : Type*} {cap : ℕ} {sent ms : List α}

/-- The position of the oldest message kept. -/
def oldest (cap : ℕ) (sent : List α) : ℕ := sent.length - cap

/-- What a receiver gets. -/
inductive Received (α : Type*) where
  | empty
  | lagged (missed : ℕ)
  | message (m : α)

/-- Receive at a position, and the position after it. -/
def recv (cap : ℕ) (sent : List α) (next : ℕ) : Received α × ℕ :=
  if next < oldest cap sent then (.lagged (oldest cap sent - next), oldest cap sent)
  else match sent[next]? with
    | none => (.empty, next)
    | some m => (.message m, next + 1)

/-- A receiver with what it has got, and the number of messages it has missed. -/
structure Receiver (α : Type*) where
  start : ℕ
  next : ℕ
  got : List α
  missed : ℕ
  deriving DecidableEq, Repr

/-- A new receiver. -/
def subscribe (sent : List α) : Receiver α := ⟨sent.length, sent.length, [], 0⟩

/-- Receive once. -/
def Receiver.pull (cap : ℕ) (sent : List α) (r : Receiver α) : Receiver α :=
  match recv cap sent r.next with
  | (.empty, _) => r
  | (.lagged n, next) => { r with next := next, missed := r.missed + n }
  | (.message m, next) => { r with next := next, got := r.got ++ [m] }

/-- Nothing is left to receive. -/
def Receiver.CaughtUp (sent : List α) (r : Receiver α) : Prop := r.next = sent.length

instance (r : Receiver α) : Decidable (r.CaughtUp sent) := inferInstanceAs (Decidable (_ = _))

variable {r : Receiver α}

/-! ## Receiving once -/

/-- The cases of `pull`. -/
theorem pull_cases (cap : ℕ) (sent : List α) (r : Receiver α) :
    (r.next < oldest cap sent ∧ r.pull cap sent =
      { r with next := oldest cap sent, missed := r.missed + (oldest cap sent - r.next) }) ∨
    (sent.length ≤ r.next ∧ r.pull cap sent = r) ∨
    ∃ m, sent[r.next]? = some m ∧ oldest cap sent ≤ r.next ∧
      r.pull cap sent = { r with next := r.next + 1, got := r.got ++ [m] } := by
  -- a receiver that is too far behind skips, otherwise it reads the message at its position, if
  -- there is one
  by_cases hlag : r.next < oldest cap sent
  · exact .inl ⟨hlag, by simp [Receiver.pull, recv, hlag]⟩
  · right
    cases hm : sent[r.next]? with
    | none =>
      exact .inl ⟨List.getElem?_eq_none_iff.mp hm, by simp [Receiver.pull, recv, hlag, hm]⟩
    | some m =>
      exact .inr ⟨m, rfl, Nat.le_of_not_lt hlag, by simp [Receiver.pull, recv, hlag, hm]⟩

/-- A channel that has dropped something has kept something. -/
theorem oldest_lt (hcap : 0 < cap) (h : 0 < oldest cap sent) : oldest cap sent < sent.length := by
  unfold oldest at *
  omega

@[simp] theorem start_pull : (r.pull cap sent).start = r.start := by
  obtain ⟨-, h⟩ | ⟨-, h⟩ | ⟨m, -, -, h⟩ := pull_cases cap sent r <;> rw [h]

/-! ## What a receiver follows -/

/-- The part of what was sent that lies between two positions. -/
def between (sent : List α) (i j : ℕ) : List α := (sent.drop i).take (j - i)

/-- Messages sent later do not change what was sent between two positions. -/
theorem between_append {i j : ℕ} (hj : j ≤ sent.length) :
    between (sent ++ ms) i j = between sent i j := by
  have htake : (sent ++ ms).take j = sent.take j := List.take_append_of_le_length hj
  rw [between, between, ← List.drop_take, ← List.drop_take, htake]

/-- What is between two positions is a prefix of what is between the first and a later one. -/
theorem between_mono {i j k : ℕ} (hjk : j ≤ k) : between sent i j <+: between sent i k :=
  List.take_prefix_take_left (Nat.sub_le_sub_right hjk i)

/-- One more position is one more message. -/
theorem between_succ {i j : ℕ} {m : α} (hij : i ≤ j) (hm : sent[j]? = some m) :
    between sent i (j + 1) = between sent i j ++ [m] := by
  have hget : (sent.drop i)[j - i]? = some m := by
    rw [List.getElem?_drop, Nat.add_sub_cancel' hij, hm]
  rw [between, Nat.succ_sub hij, Nat.succ_eq_add_one, List.take_add_one, hget]
  rfl

/-- From a position to the end. -/
theorem between_length {i : ℕ} : between sent i sent.length = sent.drop i :=
  List.take_of_length_le (Nat.le_of_eq List.length_drop)

/-- What the receiver has got and missed of the messages sent. -/
structure Follows (cap : ℕ) (sent : List α) (r : Receiver α) : Prop where
  start_le : r.start ≤ r.next
  next_le : r.next ≤ sent.length
  sublist : r.got.Sublist (between sent r.start r.next)
  count : r.got.length + r.missed = r.next - r.start
  suffix : ∃ gap ≤ max r.start (oldest cap sent), between sent gap r.next <:+ r.got

/-- A receiver that has just subscribed follows the channel. -/
theorem Follows.subscribe : Follows cap sent (subscribe sent) where
  start_le := Nat.le_refl _
  next_le := Nat.le_refl _
  sublist := List.nil_sublist _
  count := by simp [Broadcast.subscribe]
  suffix := ⟨sent.length, Nat.le_max_left _ _, by simp [between, Broadcast.subscribe]⟩

/-- Sending keeps it. -/
theorem Follows.send (h : Follows cap sent r) : Follows cap (sent ++ ms) r where
  start_le := h.start_le
  next_le := h.next_le.trans (by simp)
  sublist := by
    rw [between_append h.next_le]
    exact h.sublist
  count := h.count
  suffix := by
    obtain ⟨gap, hgap, hsuffix⟩ := h.suffix
    have hold : oldest cap sent ≤ oldest cap (sent ++ ms) := by
      simp only [oldest, List.length_append]
      omega
    exact ⟨gap, hgap.trans (max_le_max_left _ hold), by rwa [between_append h.next_le]⟩

/-- Receiving keeps it. -/
theorem Follows.pull (h : Follows cap sent r) : Follows cap sent (r.pull cap sent) := by
  obtain ⟨hlag, heq⟩ | ⟨-, heq⟩ | ⟨m, hm, hkept, heq⟩ := pull_cases cap sent r
  -- the messages that were skipped are counted as missed, and the gap moves up to the oldest one
  -- kept
  · have hstart := h.start_le
    have hcount := h.count
    rw [heq]
    exact {
      start_le := hstart.trans hlag.le
      next_le := Nat.sub_le _ _
      sublist := h.sublist.trans (between_mono hlag.le).sublist
      count := by
        show r.got.length + (r.missed + (oldest cap sent - r.next)) = oldest cap sent - r.start
        omega
      suffix := ⟨oldest cap sent, le_max_right _ _, by simp [between]⟩ }
  · rw [heq]
    exact h
  -- one message is taken; it continues the sublist and the part after the last gap
  · obtain ⟨gap, hgap, hsuffix⟩ := h.suffix
    have hlt : r.next < sent.length := (List.getElem?_eq_some_iff.mp hm).1
    have hnext : gap ≤ r.next := hgap.trans (max_le h.start_le hkept)
    have hcount := h.count
    have hstart := h.start_le
    rw [heq]
    exact {
      start_le := Nat.le_succ_of_le hstart
      next_le := hlt
      sublist := by
        show (r.got ++ [m]).Sublist (between sent r.start (r.next + 1))
        rw [between_succ hstart hm]
        exact h.sublist.append (List.Sublist.refl _)
      count := by
        simp only [List.length_append, List.length_singleton]
        omega
      suffix := by
        obtain ⟨older, holder⟩ := hsuffix
        exact ⟨gap, hgap, older, by rw [between_succ hnext hm, ← List.append_assoc, holder]⟩ }

/-! ## What was received -/

/-- What a receiver gets keeps its order, and each message comes once at most. -/
theorem Follows.got_sublist (h : Follows cap sent r) : r.got.Sublist (sent.drop r.start) :=
  h.sublist.trans (List.take_sublist _ _)

/-- A receiver that has missed nothing has got everything up to its position. -/
theorem Follows.complete (h : Follows cap sent r) (hmissed : r.missed = 0) :
    r.got <+: sent.drop r.start := by
  have hnext := h.next_le
  have hcount := h.count
  -- with nothing missed the sublist has the length of the whole
  have hgot : r.got = between sent r.start r.next := by
    apply h.sublist.eq_of_length
    simp only [between, List.length_take, List.length_drop]
    omega
  rw [hgot]
  exact List.take_prefix _ _

/-- A receiver that has caught up has got the last `cap` messages sent since it subscribed. -/
theorem Follows.recent (h : Follows cap sent r) (hup : r.CaughtUp sent) :
    sent.drop (max r.start (oldest cap sent)) <:+ r.got := by
  obtain ⟨gap, hgap, hsuffix⟩ := h.suffix
  rw [show r.next = sent.length from hup, between_length] at hsuffix
  exact (List.drop_suffix_drop_left sent hgap).trans hsuffix

end Broadcast

import Gally.Indexer.Ingestion
import Gally.Library.Broadcast
import Gally.Library.Store

/-!
# Live push beside the ingestion (`ws.rs`, `api/routes/ws.rs`, `ingestion/mod.rs`)

The ingestion loop writes an event one statement at a time and then sends it to the channels of the
hub. Sockets subscribe, receive and close, and their clients read the tables, between any two of
these steps; the indexer may stop at any of them and start again, which closes every socket.

A client that reads the tables and listens does not know which came first. `Server.Sound` says what
holds at every point: the tables are a projection of what was processed, up to the event being
written, and every socket follows its channel from the event at which it subscribed.
-/

namespace Gally

namespace Indexer

open Relational Broadcast

/-- `CHANNEL_CAPACITY`. -/
@[irreducible] def channelCapacity : ℕ := 256

/-- A channel can hold a frame. -/
theorem channelCapacity_pos : 0 < channelCapacity := by
  unfold channelCapacity
  omega

/-- An event of the ingestion loop: the statements of its handler that are done, and with which
    error the handler ended. -/
structure Work where
  ev : SuiEvent
  done : ℕ
  ended : Option (Option Fault)
  deriving DecidableEq, Repr

/-- The event as it would be left by a stop. -/
def Work.delivery (w : Work) : Delivery := (w.ev, w.ended.getD (some (.statement w.done)))

/-- An upgraded socket. Its client counts the frames (`useLiveTicks`): `ticked` since it last read
    the tables. -/
structure Connection where
  id : ℕ
  key : Channel
  receiver : Receiver SuiEvent
  ticked : Bool
  view : Option Database
  /-- How many events were processed when it subscribed. -/
  opened : ℕ

instance : Keyed Connection ℕ := ⟨Connection.id⟩

/-- The indexer process with its database and sockets. -/
structure Server where
  db : Database
  work : Option Work
  /-- What was sent on each channel. -/
  channels : Channel → List SuiEvent
  connections : Store Connection
  nextId : ℕ
  /-- The events that were written, with the errors of their handlers. -/
  processed : List Delivery

namespace Server

/-- An empty database, and no sockets. -/
def start : Server := ⟨∅, none, fun _ => [], ∅, 1, []⟩

/-- A step of the ingestion loop, of a socket or of its client. -/
inductive Act where
  | store (ev : SuiEvent)
  | statement
  | fail
  | publish
  | restart
  | connect (key : Channel)
  | recv (id : ℕ)
  | fetch (id : ℕ)
  | close (id : ℕ)

/-- `store_event`: the event is archived before its handler runs. -/
def storeEvent (s : Server) (ev : SuiEvent) : Server :=
  match Indexer.storeEvent s.db.rawEvents ev with
  | none => s
  | some rawEvents => { s with db := { s.db with rawEvents }, work := some ⟨ev, 0, none⟩ }

/-- The handler has come to `w`. -/
def write (s : Server) (typed : Relation Row) (w : Work) : Server :=
  { s with db := { s.db with typed }, work := some w }

/-- The next statement of the handler (`route_event`); one that is rejected ends it. -/
def statement (s : Server) (w : Work) : Server :=
  match (routeEvent w.ev)[w.done]? with
  | none => s.write s.db.typed { w with ended := some none }
  | some st =>
    match s.db.typed.exec st with
    | none => s.write s.db.typed { w with ended := some none }
    | some typed => s.write typed { w with done := w.done + 1 }

/-- A database error ends the handler. -/
def fail (s : Server) (w : Work) : Server :=
  s.write s.db.typed { w with ended := some (some (.statement w.done)) }

/-- `send`: without a receiver on the channel the frame is dropped. -/
def send (s : Server) (key : Channel) (ev : SuiEvent) : Server :=
  if s.connections.entries.any (fun c => c.key = key) then
    { s with channels := Function.update s.channels key (s.channels key ++ [ev]) }
  else s

/-- `publish_event`, after which the event is processed. -/
def publishEvent (s : Server) (w : Work) : Server :=
  let s := (Indexer.channels w.ev.event).foldl (fun s key => s.send key w.ev) s
  { s with work := none, processed := s.processed ++ [w.delivery] }

/-- The process starts again: its hub is new and its sockets are closed. -/
def restart (s : Server) : Server :=
  { s with
    work := none, channels := fun _ => [], connections := ∅, nextId := 1
    processed := s.processed ++ (s.work.map Work.delivery).toList }

/-- `run` up to the handshake. -/
def connect (s : Server) (key : Channel) : Server :=
  { s with
    nextId := s.nextId + 1
    connections := s.connections.put
      ⟨s.nextId, key, subscribe (s.channels key), false, none, s.processed.length⟩ }

/-- One turn of the loop of `run`: a frame is forwarded, a gap is skipped. -/
def recv (s : Server) (c : Connection) : Connection :=
  let receiver := c.receiver.pull channelCapacity (s.channels c.key)
  { c with receiver, ticked := c.ticked || c.receiver.got.length < receiver.got.length }

/-- The client reads the tables. -/
def fetch (s : Server) (c : Connection) : Connection :=
  { c with view := some s.db, ticked := false }

/-- Change one socket. -/
def modify (s : Server) (id : ℕ) (f : Connection → Connection) : Server :=
  match s.connections.get? id with
  | none => s
  | some c => { s with connections := s.connections.put (f c) }

/-- A step; one that is not possible changes nothing. -/
def step (s : Server) : Act → Server
  | .store ev => if s.work = none then s.storeEvent ev else s
  | .statement =>
    match s.work with
    | some w => if w.ended = none then s.statement w else s
    | none => s
  | .fail =>
    match s.work with
    | some w => if w.ended = none then s.fail w else s
    | none => s
  | .publish =>
    match s.work with
    | some w => if w.ended = none then s else s.publishEvent w
    | none => s
  | .restart => s.restart
  | .connect key => s.connect key
  | .recv id => s.modify id s.recv
  | .fetch id => s.modify id s.fetch
  | .close id => { s with connections := s.connections.delete id }

/-- A run from the start. -/
def run (acts : List Act) : Server := acts.foldl step start

/-! ## What holds at every point -/

variable {s : Server} {c : Connection}

/-- The event being written. -/
def inFlight (s : Server) : List Delivery := (s.work.map Work.delivery).toList

/-- The loop writes one event at a time. -/
theorem length_inFlight_le (s : Server) : s.inFlight.length ≤ 1 := by
  cases h : s.work <;> simp [inFlight, h]

/-- The frames due on a channel for some events. -/
def due (key : Channel) (ds : List Delivery) : List SuiEvent :=
  (ds.map Prod.fst).filter fun ev => key ∈ Indexer.channels ev.event

/-- The view holds the events `before`, and a part of the next one if that was being written. -/
structure Shows (s : Server) (view : Database) (before part after : List Delivery) : Prop where
  split : s.processed = before ++ after
  next : part.map Prod.fst <+: (after ++ s.inFlight).map Prod.fst
  one : part.length ≤ 1
  typed : view.typed = delivered.ingest ∅ (before ++ part)
  archived : ∀ d ∈ before,
    view.rawEvents.Has (d.1.id.txDigest, parseI32 d.1.id.eventSeq)

/-- The socket follows its channel from the event at which it subscribed. A client that has read
    the tables since its last frame has read them at the position of its receiver, or its receiver
    has more to get. -/
structure Followed (s : Server) (c : Connection) : Prop where
  receiver : Follows channelCapacity (s.channels c.key) c.receiver
  opened : c.opened ≤ s.processed.length
  frames : (s.channels c.key).drop c.receiver.start = due c.key (s.processed.drop c.opened)
  view : ∀ view, c.view = some view → ∃ before part after, Shows s view before part after ∧
    c.opened ≤ before.length ∧ (c.ticked = false → c.receiver.CaughtUp (s.channels c.key) →
      c.receiver.next ≤ c.receiver.start + (due c.key (before.drop c.opened)).length)

/-- What holds at every point of a run. -/
structure Sound (s : Server) : Prop where
  typed : s.db.typed = delivered.ingest ∅ (s.processed ++ s.inFlight)
  running : ∀ w, s.work = some w → w.ended = none →
    ((delivered.ingest ∅ s.processed).execAll ((routeEvent w.ev).take w.done)).2 = true
  archived : ∀ d ∈ s.processed ++ s.inFlight,
    s.db.rawEvents.Has (d.1.id.txDigest, parseI32 d.1.id.eventSeq)
  connections : ∀ c ∈ s.connections, s.Followed c

/-- A server that has just started is sound: nothing is processed, and nobody is connected. -/
theorem sound_start : start.Sound where
  typed := rfl
  running w hw := by cases hw
  archived d hd := by cases hd
  connections c hc := absurd hc (Store.not_mem_empty c)

@[simp] theorem due_nil (key : Channel) : due key [] = [] := rfl

theorem due_append (key : Channel) (ds es : List Delivery) :
    due key (ds ++ es) = due key ds ++ due key es := by
  simp [due]

theorem due_eq_nil {key : Channel} {ds : List Delivery} :
    due key ds = [] ↔ ∀ d ∈ ds, key ∉ Indexer.channels d.1.event := by
  simp [due]

/-- A socket sees only what was sent on its channel and what was processed. -/
theorem Followed.of_eq {s' : Server} (h : s.Followed c)
    (hchannels : s'.channels c.key = s.channels c.key) (hprocessed : s'.processed = s.processed)
    (hnext : s.inFlight.map Prod.fst <+: s'.inFlight.map Prod.fst) : s'.Followed c where
  receiver := hchannels ▸ h.receiver
  opened := hprocessed ▸ h.opened
  frames := by rw [hchannels, hprocessed, h.frames]
  view view hview := by
    obtain ⟨before, part, after, hshows, hrest⟩ := h.view view hview
    -- a view may have caught a part of the event in flight, which is still a prefix of what follows
    have hprefix : part.map Prod.fst <+: (after ++ s'.inFlight).map Prod.fst := by
      have hlonger : (after ++ s.inFlight).map Prod.fst <+:
          (after ++ s'.inFlight).map Prod.fst := by
        rw [List.map_append, List.map_append]
        exact (List.prefix_append_right_inj _).mpr hnext
      exact hshows.next.trans hlonger
    exact ⟨before, part, after, ⟨hprocessed.trans hshows.split, hprefix, hshows.one, hshows.typed,
      hshows.archived⟩, hchannels ▸ hrest⟩

/-! ## The sockets -/

/-- Every connection of a sound server is followed. -/
theorem Sound.followed (h : s.Sound) {id : ℕ} (hc : s.connections.get? id = some c) :
    s.Followed c :=
  h.connections c (Store.get?_eq_some.mp hc).1

/-- A socket that opens now has nothing to receive and no view. -/
theorem Followed.connect (s : Server) (key : Channel) : s.Followed
    ⟨s.nextId, key, subscribe (s.channels key), false, none, s.processed.length⟩ where
  receiver := Follows.subscribe
  opened := Nat.le_refl _
  frames := by simp [subscribe]
  view view hview := by cases hview

/-- A socket that receives shows no tick if it showed none and got no frame. -/
theorem recv_ticked : (s.recv c).ticked = false ↔ c.ticked = false ∧
    (c.receiver.pull channelCapacity (s.channels c.key)).got.length ≤ c.receiver.got.length := by
  simp [Server.recv]

/-- Receiving takes frames from the channel; the view stays what it was. -/
theorem Followed.recv (h : s.Followed c) : s.Followed (s.recv c) where
  receiver := h.receiver.pull
  opened := h.opened
  frames := by
    simp only [Server.recv, start_pull]
    exact h.frames
  view view hview := by
    obtain ⟨before, part, after, hshows, hopened, hfresh⟩ := h.view view hview
    apply Exists.intro before
    apply Exists.intro part
    apply Exists.intro after
    apply And.intro hshows
    apply And.intro hopened
    rw [recv_ticked]
    intro ⟨hticked, hgot⟩ hup
    simp only [Server.recv, start_pull] at hup ⊢
    obtain ⟨hlag, heq⟩ | ⟨-, heq⟩ | ⟨m, hm, -, heq⟩ :=
      pull_cases channelCapacity (s.channels c.key) c.receiver
    · -- after a gap there is something left to receive
      have hlt := oldest_lt channelCapacity_pos (Nat.zero_lt_of_lt hlag)
      rw [heq] at hup
      exact absurd hup hlt.ne
    · rw [heq] at hup ⊢
      exact hfresh hticked hup
    · -- a frame is a tick
      rw [heq] at hgot
      simp at hgot

/-- A client that reads the tables sees the processed events and the statements of the one in
    flight. -/
theorem Followed.fetch (hs : s.Sound) (h : s.Followed c) : s.Followed (s.fetch c) where
  receiver := h.receiver
  opened := h.opened
  frames := h.frames
  view view hview := by
    obtain rfl := Option.some.inj hview
    -- the tables of now, with the event in flight for the part
    have hshows : Shows s s.db s.processed s.inFlight [] :=
      { split := (List.append_nil _).symm
        next := List.prefix_refl _
        one := length_inFlight_le s
        typed := hs.typed
        archived := fun d hd => hs.archived d (List.mem_append_left _ hd) }
    apply Exists.intro s.processed
    apply Exists.intro s.inFlight
    apply Exists.intro []
    apply And.intro hshows
    apply And.intro h.opened
    intro _ hup
    -- the socket has received everything sent since it opened, so all frames of its view
    have hlength := congrArg List.length h.frames
    have hstart := h.receiver.start_le
    have hnext : c.receiver.next = (s.channels c.key).length := hup
    rw [List.length_drop] at hlength
    show c.receiver.next ≤ c.receiver.start + (due c.key (s.processed.drop c.opened)).length
    omega

/-! ## Sending -/

/-- A send reaches the one channel it names, and only if somebody listens there. -/
theorem send_eq (s : Server) (key : Channel) (ev : SuiEvent) : s.send key ev =
    { s with channels := fun k =>
        if k = key ∧ s.connections.entries.any (fun c => c.key = k) then s.channels k ++ [ev]
        else s.channels k } := by
  have hfun : ∀ k, (if s.connections.entries.any (fun c => c.key = key) then
      Function.update s.channels key (s.channels key ++ [ev]) else s.channels) k =
      if k = key ∧ s.connections.entries.any (fun c => c.key = k) then s.channels k ++ [ev]
      else s.channels k := by
    intro k
    -- the channel that is sent to, or another one
    by_cases hk : k = key
    · subst hk
      split <;> simp_all
    · split <;> simp [hk]
  rw [send, ← funext hfun]
  split <;> rfl

/-- Sends to distinct channels reach each of them once. -/
theorem foldl_send {keys : List Channel} (hkeys : keys.Nodup) (ev : SuiEvent) (s : Server) :
    keys.foldl (fun s key => s.send key ev) s =
      { s with channels := fun k =>
          if k ∈ keys ∧ s.connections.entries.any (fun c => c.key = k) then s.channels k ++ [ev]
          else s.channels k } := by
  -- induction over the channels; a later send leaves the earlier channel alone, as they differ
  induction keys generalizing s with
  | nil => simp
  | cons key keys ih =>
    obtain ⟨hkey, hkeys⟩ := List.nodup_cons.mp hkeys
    rw [List.foldl_cons, ih hkeys, send_eq]
    congr 1
    funext k
    by_cases hk : k = key
    · subst hk
      simp [hkey]
    · simp [hk]

/-- No event is sent twice on one channel. -/
theorem channels_nodup (e : Event) : (Indexer.channels e).Nodup := by
  cases e with
  | validatorStatusChanged _ _ _ disputeId => cases disputeId <;> simp [Indexer.channels]
  | _ => simp [Indexer.channels]

/-- What a socket gets to see of a processed event. -/
theorem channels_publishEvent (s : Server) (w : Work) (hc : c ∈ s.connections) :
    (s.publishEvent w).channels c.key = s.channels c.key ++ due c.key [w.delivery] := by
  have hany : s.connections.entries.any (fun x => x.key = c.key) = true :=
    List.any_eq_true.mpr ⟨c, hc, decide_eq_true rfl⟩
  simp only [publishEvent, foldl_send (channels_nodup _), hany, and_true]
  by_cases hkey : c.key ∈ Indexer.channels w.ev.event
  · simp [due, Work.delivery, hkey]
  · simp [due, Work.delivery, hkey]

/-- Publishing moves the event in flight to the processed ones and touches only the channels. -/
theorem publishEvent_eq (s : Server) (w : Work) : ∃ channels, s.publishEvent w =
    { s with channels := channels, work := none, processed := s.processed ++ [w.delivery] } := by
  rw [publishEvent, foldl_send (channels_nodup _)]
  exact ⟨_, rfl⟩

/-- Publishing the event in flight keeps every socket followed. -/
theorem Followed.publishEvent {w : Work} (hw : s.work = some w) (hc : c ∈ s.connections)
    (h : s.Followed c) : (s.publishEvent w).Followed c := by
  obtain ⟨channels, heq⟩ := publishEvent_eq s w
  have hchannels := channels_publishEvent s w hc
  have hprocessed : (s.publishEvent w).processed = s.processed ++ [w.delivery] := by rw [heq]
  have hflight : (s.publishEvent w).inFlight = [] := by
    rw [heq]
    rfl
  exact {
    receiver := hchannels ▸ h.receiver.send
    opened := by
      rw [hprocessed, List.length_append]
      exact Nat.le_add_right_of_le h.opened
    frames := by
      have hstart : c.receiver.start ≤ (s.channels c.key).length :=
        h.receiver.start_le.trans h.receiver.next_le
      rw [hchannels, hprocessed, List.drop_append_of_le_length hstart,
        List.drop_append_of_le_length h.opened, due_append, h.frames]
    view := by
      intro view hview
      obtain ⟨before, part, after, hshows, hopened, hfresh⟩ := h.view view hview
      -- the part that the view caught is of the event that is processed now
      have hnext : part.map Prod.fst <+: (after ++ [w.delivery] ++ []).map Prod.fst := by
        have hpart := hshows.next
        rw [inFlight, hw] at hpart
        rwa [List.append_nil]
      have hshows' : Shows (s.publishEvent w) view before part (after ++ [w.delivery]) :=
        { split := by rw [hprocessed, hshows.split, List.append_assoc]
          next := hflight ▸ hnext
          one := hshows.one
          typed := hshows.typed
          archived := hshows.archived }
      apply Exists.intro before
      apply Exists.intro part
      apply Exists.intro (after ++ [w.delivery])
      apply And.intro hshows'
      apply And.intro hopened
      intro hticked hup
      -- a receiver that has caught up had done so before the frame, and it was no frame for it
      have hnext := h.receiver.next_le
      have hlength : c.receiver.next = (s.channels c.key ++ due c.key [w.delivery]).length :=
        hchannels ▸ hup
      rw [List.length_append] at hlength
      apply hfresh hticked
      show c.receiver.next = (s.channels c.key).length
      omega }

/-! ## The ingestion loop -/

/-- The tables hold what the handler has done so far. -/
theorem Sound.typed_work (hs : s.Sound) {w : Work} (hw : s.work = some w) : s.db.typed =
    ((delivered.ingest ∅ s.processed).execAll (reached w.delivery.2 (routeEvent w.ev))).1 := by
  rw [hs.typed, Projection.ingest_append, inFlight, hw]
  rfl

/-- The handler goes on with its event; the sockets see nothing of it. -/
theorem Sound.write (hs : s.Sound) {w w' : Work} {typed : Relation Row} (hw : s.work = some w)
    (hev : w'.ev = w.ev) (htyped : typed =
      ((delivered.ingest ∅ s.processed).execAll (reached w'.delivery.2 (routeEvent w.ev))).1)
    (hrunning : w'.ended = none →
      ((delivered.ingest ∅ s.processed).execAll ((routeEvent w.ev).take w'.done)).2 = true) :
    (s.write typed w').Sound := by
  -- the event in flight stays the same one; only how far its handler got changes
  have hevents : (s.write typed w').inFlight.map Prod.fst = s.inFlight.map Prod.fst := by
    simp [Server.write, inFlight, hw, Work.delivery, hev]
  exact {
    typed := by
      rw [Projection.ingest_append, inFlight]
      show typed = ((delivered.ingest ∅ s.processed).execAll
        (reached w'.delivery.2 (routeEvent w'.ev))).1
      rw [hev, htyped]
    running := by
      intro w'' hw'' hended
      obtain rfl := Option.some.inj hw''
      exact hev ▸ hrunning hended
    archived := by
      intro d hd
      have hmem : d.1 ∈ (s.processed ++ s.inFlight).map Prod.fst := by
        rw [List.map_append, ← hevents, ← List.map_append]
        exact List.mem_map_of_mem hd
      obtain ⟨d', hd', heq⟩ := List.mem_map.mp hmem
      rw [← heq]
      exact hs.archived d' hd'
    connections := by
      intro c hc
      have hnext : s.inFlight.map Prod.fst <+: (s.write typed w').inFlight.map Prod.fst :=
        hevents.symm ▸ List.prefix_refl _
      have hfollowed : (s.write typed w').Followed c :=
        (hs.connections c hc).of_eq rfl rfl hnext
      exact hfollowed }

/-- The handler ends with its event as far as it has come. -/
theorem Sound.ended (hs : s.Sound) {w : Work} {fault : Option Fault} (hw : s.work = some w)
    (htyped : s.db.typed =
      ((delivered.ingest ∅ s.processed).execAll (reached fault (routeEvent w.ev))).1) :
    (s.write s.db.typed { w with ended := some fault }).Sound := by
  apply hs.write hw
  · rfl
  · exact htyped
  · intro hended
    cases hended

/-- The next statement of the handler keeps the server sound. -/
theorem Sound.statement (hs : s.Sound) {w : Work} (hw : s.work = some w) (hended : w.ended = none) :
    (s.statement w).Sound := by
  have hreached : reached w.delivery.2 (routeEvent w.ev) = (routeEvent w.ev).take w.done := by
    rw [Work.delivery, hended]
    rfl
  have htyped := hs.typed_work hw
  have hrunning := hs.running w hw hended
  rw [hreached] at htyped
  unfold Server.statement
  -- no statement is left, or the next one is refused, or it is executed
  cases hst : (routeEvent w.ev)[w.done]? with
  | none =>
    have htake := List.take_of_length_le (List.getElem?_eq_none_iff.mp hst)
    apply hs.ended hw
    rw [htyped, htake]
    rfl
  | some st =>
    have hsplit : (routeEvent w.ev).take w.done ++ st :: (routeEvent w.ev).drop (w.done + 1) =
        routeEvent w.ev := by
      obtain ⟨hlt, hget⟩ := List.getElem?_eq_some_iff.mp hst
      rw [← hget, List.getElem_cons_drop, List.take_append_drop]
    cases hexec : s.db.typed.exec st with
    | none =>
      have hstop : ((delivered.ingest ∅ s.processed).execAll (routeEvent w.ev)).1 =
          s.db.typed := by
        rw [← hsplit, Relation.execAll_append hrunning, ← htyped,
          Relation.execAll_cons_of_none hexec]
      simp only [hexec]
      exact hs.ended hw hstop.symm
    | some typed =>
      have hnext : (delivered.ingest ∅ s.processed).execAll ((routeEvent w.ev).take (w.done + 1)) =
          (typed, true) := by
        rw [List.take_add_one, hst, Option.toList_some, Relation.execAll_append hrunning,
          ← htyped, Relation.execAll_cons_of_some hexec, Relation.execAll_nil]
      simp only [hexec]
      apply hs.write hw
      · rfl
      · have hreached' : reached (Work.delivery { w with done := w.done + 1 }).2
            (routeEvent w.ev) = (routeEvent w.ev).take (w.done + 1) := by
          rw [Work.delivery, hended]
          rfl
        rw [hreached', hnext]
      · intro _
        rw [hnext]

/-- A handler that stops with an error keeps the server sound. -/
theorem Sound.fail (hs : s.Sound) {w : Work} (hw : s.work = some w) (hended : w.ended = none) :
    (s.fail w).Sound := by
  apply hs.ended hw
  rw [hs.typed_work hw, Work.delivery, hended]
  rfl

/-- Archiving a new event keeps the server sound; nothing of it is in the tables yet. -/
theorem Sound.storeEvent (hs : s.Sound) (hw : s.work = none) (ev : SuiEvent) :
    (s.storeEvent ev).Sound := by
  obtain ⟨rawEvents, hstore, hhas, hkeep⟩ := storeEvent_eq s.db.rawEvents ev
  have hflight : s.inFlight = [] := by
    rw [inFlight, hw]
    rfl
  -- storing puts the raw event down and starts its handler
  have heq : s.storeEvent ev =
      { s with db := { s.db with rawEvents := rawEvents }, work := some ⟨ev, 0, none⟩ } := by
    rw [Server.storeEvent, hstore]
  rw [heq]
  exact {
    typed := by
      have htyped := hs.typed
      rw [hflight, List.append_nil] at htyped
      rw [Projection.ingest_append, ← htyped]
      rfl
    running := by
      intro w hw _
      obtain rfl := Option.some.inj hw
      rfl
    archived := by
      intro d hd
      -- hd := List.mem_append| what was archived before, or the new event
      obtain hd | hd := List.mem_append.mp hd
      · have hold := hs.archived d (List.mem_append_left _ hd)
        obtain ⟨row, hrow⟩ := Option.isSome_iff_exists.mp hold
        exact Option.isSome_iff_exists.mpr ⟨row, hkeep _ _ hrow⟩
      · obtain rfl := List.mem_singleton.mp hd
        exact hhas
    connections := by
      intro c hc
      have hnext : s.inFlight.map Prod.fst <+: (s.storeEvent ev).inFlight.map Prod.fst := by
        rw [hflight]
        exact List.nil_prefix
      rw [heq] at hnext
      exact (hs.connections c hc).of_eq rfl rfl hnext }

/-- Publishing keeps the server sound: the event only moves from in flight to processed. -/
theorem Sound.publishEvent (hs : s.Sound) {w : Work} (hw : s.work = some w) :
    (s.publishEvent w).Sound := by
  obtain ⟨channels, heq⟩ := publishEvent_eq s w
  have hsplit : (s.publishEvent w).processed ++ (s.publishEvent w).inFlight =
      s.processed ++ s.inFlight := by
    rw [heq, inFlight, inFlight, hw]
    exact List.append_nil _
  have hdb : (s.publishEvent w).db = s.db := by rw [heq]
  have hconnections : (s.publishEvent w).connections = s.connections := by rw [heq]
  exact {
    typed := by rw [hsplit, hdb, hs.typed]
    running := by
      intro w' hw'
      rw [heq] at hw'
      cases hw'
    archived := by
      rw [hsplit, hdb]
      exact hs.archived
    connections := by
      intro c hc
      rw [hconnections] at hc
      exact (hs.connections c hc).publishEvent hw hc }

/-- A restart counts the event in flight as processed: what it wrote stays written. -/
theorem processed_restart (s : Server) :
    s.restart.processed ++ s.restart.inFlight = s.processed ++ s.inFlight := List.append_nil _

/-- A restart closes every socket and keeps the tables. -/
theorem Sound.restart (hs : s.Sound) : s.restart.Sound where
  typed := by
    rw [processed_restart]
    exact hs.typed
  running w hw := by cases hw
  archived := by
    rw [processed_restart]
    exact hs.archived
  connections c hc := absurd hc (Store.not_mem_empty c)

/-! ## Runs -/

/-- A change of the sockets that keeps every one of them following. -/
theorem Sound.connections_of (hs : s.Sound) {connections : Store Connection} {nextId : ℕ}
    (h : ∀ c ∈ connections, s.Followed c) :
    Sound { s with connections := connections, nextId := nextId } where
  typed := hs.typed
  running := hs.running
  archived := hs.archived
  connections c hc := (h c hc).of_eq rfl rfl (List.prefix_refl _)

/-- Whatever keeps every connection followed may be done to one of them. -/
theorem Sound.modify (hs : s.Sound) {id : ℕ} {f : Connection → Connection}
    (hf : ∀ c, s.Followed c → s.Followed (f c)) : (s.modify id f).Sound := by
  unfold Server.modify
  cases hc : s.connections.get? id with
  | none => exact hs
  | some c =>
    apply hs.connections_of
    intro c' hc'
    -- either the changed connection or one that was there
    obtain rfl | ⟨hmem, -⟩ := Store.mem_put.mp hc'
    · exact hf c (hs.followed hc)
    · exact hs.connections c' hmem

/-- An act on the event in flight does nothing when there is none. -/
theorem Sound.of_work (hs : s.Sound) {next : Work → Server}
    (h : ∀ w, s.work = some w → (next w).Sound) :
    (match s.work with
      | some w => next w
      | none => s).Sound := by
  cases hw : s.work with
  | none => exact hs
  | some w => exact h w hw

/-- One act keeps the server sound. -/
theorem Sound.step (hs : s.Sound) (a : Act) : (s.step a).Sound := by
  cases a with
  | store ev =>
    show (if s.work = none then s.storeEvent ev else s).Sound
    -- the loop takes a new event only when it is done with the last
    by_cases hw : s.work = none
    · rw [if_pos hw]
      exact hs.storeEvent hw ev
    · rw [if_neg hw]
      exact hs
  | statement =>
    apply hs.of_work
    intro w hw
    by_cases hended : w.ended = none
    · rw [if_pos hended]
      exact hs.statement hw hended
    · rw [if_neg hended]
      exact hs
  | fail =>
    apply hs.of_work
    intro w hw
    by_cases hended : w.ended = none
    · rw [if_pos hended]
      exact hs.fail hw hended
    · rw [if_neg hended]
      exact hs
  | publish =>
    apply hs.of_work
    intro w hw
    by_cases hended : w.ended = none
    · rw [if_pos hended]
      exact hs
    · rw [if_neg hended]
      exact hs.publishEvent hw
  | restart => exact hs.restart
  | connect key =>
    apply hs.connections_of
    intro c hc
    obtain rfl | ⟨hmem, -⟩ := Store.mem_put.mp hc
    · exact Followed.connect s key
    · exact hs.connections c hmem
  | recv id => exact hs.modify fun c hc => hc.recv
  | fetch id => exact hs.modify fun c hc => hc.fetch hs
  | close id =>
    apply hs.connections_of
    intro c hc
    exact hs.connections c (Store.mem_delete.mp hc).1

/-- In every run the server is sound. -/
theorem sound_run (acts : List Act) : (run acts).Sound := by
  -- from any sound server on, by induction on the acts
  have hrun : ∀ s : Server, s.Sound → (acts.foldl Server.step s).Sound := by
    induction acts with
    | nil => exact fun s hs => hs
    | cons a acts ih => exact fun s hs => ih _ (hs.step a)
  exact hrun start sound_start

/-- What was sent on a channel since a position, and the last `channelCapacity` of it. -/
theorem drop_recent {α : Type} (sent : List α) (start : ℕ) :
    (sent.drop start).drop ((sent.drop start).length - channelCapacity) =
      sent.drop (max start (oldest channelCapacity sent)) := by
  rw [List.drop_drop, List.length_drop, oldest]
  congr 1
  omega

/-- What a client has of the events, between its reads of the tables and its socket. -/
structure Gapless (s : Server) (c : Connection) : Prop where
  /-- Its views hold the events processed before it subscribed. -/
  earlier : ∀ view, c.view = some view → ∀ d ∈ s.processed.take c.opened,
    view.rawEvents.Has (d.1.id.txDigest, parseI32 d.1.id.eventSeq)
  /-- Its frames are later events of its channel, in order and each once. -/
  later : c.receiver.got.Sublist (due c.key (s.processed.drop c.opened))
  /-- What it has not got it has missed, or has yet to get. -/
  accounted : c.receiver.got.length + c.receiver.missed +
    ((s.channels c.key).length - c.receiver.next) =
      (due c.key (s.processed.drop c.opened)).length
  complete : c.receiver.missed = 0 → c.receiver.got <+: due c.key (s.processed.drop c.opened)
  /-- A socket that has caught up has got the last 256 at least. -/
  recent : c.receiver.CaughtUp (s.channels c.key) →
    (due c.key (s.processed.drop c.opened)).drop
      ((due c.key (s.processed.drop c.opened)).length - channelCapacity) <:+ c.receiver.got

/-- Somebody looks at asset 4 between its two events, and reads the tables while an event of the
    protocol is being written. -/
def Sample.watching : List Act :=
  [.store ⟨⟨1, 0⟩, 1000, .assetCancelled 4⟩, .statement, .publish, .connect (.asset 4),
    .store ⟨⟨1, 1⟩, 1000, .assetStateChanged 4 .pendingVouch .cancelled⟩, .statement, .statement,
    .publish, .recv 1, .store ⟨⟨2, 0⟩, 2000, .emergencyStopTriggered 0⟩, .statement, .fetch 1,
    .statement, .publish, .recv 1]

/-- The socket is there and has got its frame; its client has read the tables since. -/
theorem watching_caughtUp : ∃ c view, c ∈ (run Sample.watching).connections ∧
    c.receiver.got.length = 1 ∧ c.view = some view ∧ c.ticked = false ∧
      c.receiver.CaughtUp ((run Sample.watching).channels c.key) := by
  have hwatcher : ((run Sample.watching).connections.get? 1).any (fun c =>
      decide (c.receiver.got.length = 1) && c.view.isSome && !c.ticked &&
        decide (c.receiver.CaughtUp ((run Sample.watching).channels c.key))) = true := by
    decide +kernel
  -- what was evaluated, as a statement about the one connection
  cases hc : (run Sample.watching).connections.get? 1 with
  | none => simp [hc] at hwatcher
  | some c =>
    simp only [hc, Option.any_some, Bool.and_eq_true, decide_eq_true_eq,
      Bool.not_eq_true'] at hwatcher
    obtain ⟨view, hview⟩ := Option.isSome_iff_exists.mp hwatcher.1.1.2
    exact ⟨c, view, (Store.get?_eq_some.mp hc).1, hwatcher.1.1.1, hview, hwatcher.1.2, hwatcher.2⟩

/-- In every run no socket leaves a gap between what its client reads and what it is sent. -/
theorem sockets_gapless (acts : List Act) (hc : c ∈ (run acts).connections) :
    Gapless (run acts) c := by
  have hfollowed := (sound_run acts).connections c hc
  have hreceiver := hfollowed.receiver
  exact {
    earlier := by
      intro view hview d hd
      obtain ⟨before, part, after, hshows, hopened, -⟩ := hfollowed.view view hview
      rw [hshows.split, List.take_append_of_le_length hopened] at hd
      exact hshows.archived d (List.mem_of_mem_take hd)
    later := by
      rw [← hfollowed.frames]
      exact hreceiver.got_sublist
    accounted := by
      have hcount := hreceiver.count
      have hstart := hreceiver.start_le
      have hnext := hreceiver.next_le
      rw [← hfollowed.frames, List.length_drop]
      omega
    complete := by
      rw [← hfollowed.frames]
      exact hreceiver.complete
    recent := by
      rw [← hfollowed.frames, drop_recent]
      exact hreceiver.recent }

/-- The socket of the run above is one. -/
theorem sockets_gapless_watching : ∃ c ∈ (run Sample.watching).connections,
    c.receiver.got.length = 1 ∧ Gapless (run Sample.watching) c := by
  obtain ⟨c, view, hc, hgot, -⟩ := watching_caughtUp
  exact ⟨c, hc, hgot, sockets_gapless Sample.watching hc⟩

/-- In every run a client whose socket has caught up, and that has read the tables since its last
    frame, has read them at a point after which no event of its channel was processed: its view is
    the projection of the events before that point, and of a part of the one then being written. -/
theorem view_current (acts : List Act) (hc : c ∈ (run acts).connections) {view : Database}
    (hview : c.view = some view) (hticked : c.ticked = false)
    (hup : c.receiver.CaughtUp ((run acts).channels c.key)) :
    ∃ before part after, Shows (run acts) view before part after ∧
      ∀ d ∈ after, c.key ∉ Indexer.channels d.1.event := by
  have hfollowed := (sound_run acts).connections c hc
  obtain ⟨before, part, after, hshows, hopened, hfresh⟩ := hfollowed.view view hview
  have hseen := hfresh hticked hup
  have hlength := congrArg List.length hfollowed.frames
  have hstart := hfollowed.receiver.start_le
  have hnext : c.receiver.next = ((run acts).channels c.key).length := hup
  rw [hshows.split, List.drop_append_of_le_length hopened, due_append, List.length_append,
    List.length_drop] at hlength
  have hnone : (due c.key after).length = 0 := by omega
  exact ⟨before, part, after, hshows, due_eq_nil.mp (List.length_eq_zero_iff.mp hnone)⟩

theorem view_current_watching : ∃ c ∈ (run Sample.watching).connections,
    ∃ view, c.view = some view ∧ ∃ before part after,
      Shows (run Sample.watching) view before part after ∧
        ∀ d ∈ after, c.key ∉ Indexer.channels d.1.event := by
  obtain ⟨c, view, hc, -, hview, hticked, hup⟩ := watching_caughtUp
  exact ⟨c, hc, view, hview, view_current Sample.watching hc hview hticked hup⟩

end Server

end Indexer

end Gally

import ContextBudget.Telemetry.Envelope
import ContextBudget.Text.Digest

/-!
# The hub

Each subscriber watches one session and receives the envelopes of that session in order. A
subscriber has a *channel* to its connected observer, which holds a bounded number of envelopes,
and a *backlog* behind it, also bounded, where envelopes wait while the channel is full or nobody
is connected. At capacity the backlog evicts its oldest envelope. Reading from a channel moves
waiting envelopes into it first.

A subscriber that comes back gets a new channel, of the next *generation*; what was left in the
old one can still be read from there.
-/

namespace ContextBudget

/-- The sizes of a hub. -/
structure HubConfig where
  /-- How many envelopes a backlog holds. -/
  backlog : Nat
  /-- How many envelopes a channel holds, at least one. -/
  channel : Nat
  deriving DecidableEq, Repr

/-- The sizes where none are given. -/
def HubConfig.standard : HubConfig := ⟨256, 64⟩

/-- One connection of a subscriber, as the observer holds it. -/
structure Channel where
  subscriber : String
  generation : Nat
  queue : List Envelope
  /-- Whether the observer still holds it. -/
  held : Bool
  deriving Repr

/-- One that watches a session. -/
structure Subscriber where
  id : String
  session : String
  /-- Whether envelopes are sent to the channel of the generation. -/
  connected : Bool
  backlog : List Envelope
  /-- When the subscriber lost its connection, if it has none. -/
  idleSince : Option Span
  /-- How often the subscriber came back. -/
  generation : Nat
  deriving Repr

/-- Counters of a hub that only grow. -/
structure HubCounters where
  published : Nat
  delivered : Nat
  queued : Nat
  evicted : Nat
  malformed : Nat
  deriving DecidableEq, Repr

/-- A hub. -/
structure Hub where
  config : HubConfig
  subscribers : List Subscriber
  channels : List Channel
  counters : HubCounters
  /-- The number behind the next id. -/
  next : Nat
  /-- The time that has passed. -/
  time : Span
  deriving Repr

/-- What an observer knows of its connection. -/
structure Subscription where
  id : String
  session : String
  /-- How many envelopes waited when the connection was made. -/
  replayed : Nat
  generation : Nat
  deriving DecidableEq, Repr

/-- The JSON form of what an observer knows. -/
def Subscription.toJson (s : Subscription) : Json :=
  .obj [("id", .str s.id), ("session", .str s.session), ("replayed", .ofNat s.replayed),
    ("generation", .ofNat s.generation)]

/-- What reading from a channel gives. -/
inductive Received where
  | envelope (e : Envelope)
  /-- Nothing is there yet. -/
  | pending
  /-- Nothing is there, nor will be. -/
  | closed
  deriving Repr

/-- The name of what reading gives. -/
def Received.text : Received → String
  | envelope _ => "envelope"
  | pending => "pending"
  | closed => "closed"

/-- What a channel says to an envelope. -/
inductive Sent where
  | accepted
  | full
  | gone
  deriving DecidableEq, Repr

namespace Hub

/-- A hub without subscribers. -/
def empty (config : HubConfig) (next : Nat) : Hub :=
  ⟨config, [], [], ⟨0, 0, 0, 0, 0⟩, next, .zero⟩

/-- The id that a number stands for. -/
def subscriberId (n : Nat) : String := "sub_" ++ hexDigits 32 n

/-- The subscriber of an id. -/
def find? (h : Hub) (id : String) : Option Subscriber := h.subscribers.find? (·.id == id)

/-- The hub with a subscriber changed. -/
def update (h : Hub) (id : String) (f : Subscriber → Subscriber) : Hub :=
  { h with subscribers := h.subscribers.map fun s => if s.id = id then f s else s }

/-- The channel of a subscriber's generation. -/
def channel? (h : Hub) (id : String) (generation : Nat) : Option Channel :=
  h.channels.find? fun c => c.subscriber == id && c.generation == generation

/-- The hub with a channel changed. -/
def updateChannel (h : Hub) (id : String) (generation : Nat) (f : Channel → Channel) : Hub :=
  { h with channels := h.channels.map fun c =>
      if c.subscriber = id ∧ c.generation = generation then f c else c }

/-- How many envelopes a channel holds. -/
def room (h : Hub) : Nat := Nat.max h.config.channel 1

/-- What a subscriber's channel says to one more envelope. -/
def offer (h : Hub) (s : Subscriber) : Sent :=
  match h.channel? s.id s.generation with
  | none => .gone
  | some c =>
    if !c.held then .gone
    else if h.room ≤ c.queue.length then .full
    else .accepted

/-- The hub with an envelope at the end of a subscriber's channel. -/
def send (h : Hub) (s : Subscriber) (e : Envelope) : Hub :=
  let h := h.updateChannel s.id s.generation fun c => { c with queue := c.queue ++ [e] }
  { h with counters := { h.counters with delivered := h.counters.delivered + 1 } }

/-- The subscriber without its connection; when it lost one first is kept. -/
def unplug (h : Hub) (s : Subscriber) : Subscriber :=
  { s with connected := false, idleSince := s.idleSince.or (some h.time) }

/-- The hub with an envelope at the end of a subscriber's backlog. The oldest ones make room; a
backlog that holds nothing evicts the envelope itself. -/
def enqueue (h : Hub) (id : String) (e : Envelope) : Hub :=
  match h.find? id with
  | none => h
  | some s =>
    let capacity := h.config.backlog
    if capacity = 0 then
      { h with counters := { h.counters with evicted := h.counters.evicted + 1 } }
    else
      let excess := s.backlog.length + 1 - capacity
      let h := h.update id fun s => { s with backlog := s.backlog.drop excess ++ [e] }
      { h with counters := { h.counters with
          queued := h.counters.queued + 1, evicted := h.counters.evicted + excess } }

/-- Moves envelopes of a backlog into the channel while it accepts them; tells how many moved. -/
def flushFrom (h : Hub) (id : String) : List Envelope → Nat × Hub
  | [] => (0, h)
  | e :: rest =>
    match h.find? id with
    | none => (0, h)
    | some s =>
      if !s.connected then (0, h)
      else match h.offer s with
        | .full => (0, h)
        | .gone => (0, h.update id h.unplug)
        | .accepted =>
          let h := (h.send s e).update id fun s => { s with backlog := rest }
          let (n, h) := h.flushFrom id rest
          (n + 1, h)

/-- Moves as much of a subscriber's backlog into its channel as the channel accepts. -/
def flush (h : Hub) (id : String) : Nat × Hub :=
  match h.find? id with
  | none => (0, h)
  | some s => h.flushFrom id s.backlog

/-- Gives an envelope to a subscriber: into the channel if nothing waits before it and there is
room, else into the backlog. Tells whether something was sent. -/
def deliver (h : Hub) (id : String) (e : Envelope) : Bool × Hub :=
  match h.find? id with
  | none => (false, h)
  | some s =>
    if s.backlog.isEmpty && s.connected then
      match h.offer s with
      | .accepted => (true, h.send s e)
      | .full => (false, h.enqueue id e)
      | .gone => (false, (h.update id h.unplug).enqueue id e)
    else
      let (n, h) := (h.enqueue id e).flush id
      (decide (0 < n), h)

/-- Gives an envelope to subscribers one after another; tells to how many something was sent. -/
def deliverAll (h : Hub) (e : Envelope) : List String → Nat × Hub
  | [] => (0, h)
  | id :: rest =>
    let (sent, h) := h.deliver id e
    let (n, h) := h.deliverAll e rest
    ((if sent then n + 1 else n), h)

/-- Gives an envelope to every subscriber of its session; tells to how many something was sent at
once. -/
def publish (h : Hub) (e : Envelope) : Nat × Hub :=
  let h := { h with counters := { h.counters with published := h.counters.published + 1 } }
  h.deliverAll e ((h.subscribers.filter (·.session == e.session)).map (·.id))

/-- A new subscriber of a session. -/
def subscribe (h : Hub) (session : String) : Subscription × Hub :=
  let id := subscriberId h.next
  (⟨id, session, 0, 0⟩,
    { h with
      subscribers := h.subscribers ++ [⟨id, session, true, [], none, 0⟩]
      channels := h.channels ++ [⟨id, 0, [], true⟩]
      next := h.next + 1 })

/-- A new connection of a known subscriber, into which what waited is moved. -/
def reconnect (h : Hub) (id : String) : Option Subscription × Hub :=
  match h.find? id with
  | none => (none, h)
  | some s =>
    let generation := s.generation + 1
    let added : Channel := ⟨id, generation, [], true⟩
    let h := h.update id fun s => { s with connected := true, idleSince := none, generation }
    let h := { h with channels := h.channels ++ [added] }
    (some ⟨id, s.session, s.backlog.length, generation⟩, (h.flush id).2)

/-- Ends the connection of a generation, unless a later one has taken its place. -/
def disconnect (h : Hub) (id : String) (generation : Nat) : Bool × Hub :=
  match h.find? id with
  | none => (false, h)
  | some s => if s.generation = generation then (true, h.update id h.unplug) else (false, h)

/-- Forgets a subscriber and what waits for it. -/
def unsubscribe (h : Hub) (id : String) : Bool × Hub :=
  ((h.find? id).isSome, { h with subscribers := h.subscribers.filter (·.id != id) })

/-- Points a subscriber at another session; what waits for it is dropped. -/
def switchSession (h : Hub) (id session : String) : Bool × Hub :=
  ((h.find? id).isSome, h.update id fun s => { s with session, backlog := [] })

/-- The session that a subscriber watches. -/
def sessionOf (h : Hub) (id : String) : Option String := (h.find? id).map (·.session)

/-- What an observer drops with its end of a channel. -/
def release (h : Hub) (id : String) (generation : Nat) : Hub :=
  h.updateChannel id generation fun c => { c with held := false, queue := [] }

/-- Whether more can come into a channel. -/
def isOpen (h : Hub) (id : String) (generation : Nat) : Bool :=
  match h.find? id with
  | some s => s.connected && s.generation == generation
  | none => false

/-- Takes the next envelope out of a channel, as it is. -/
def take (h : Hub) (id : String) (generation : Nat) : Received × Hub :=
  match h.channel? id generation with
  | none => (.closed, h)
  | some c =>
    match c.queue with
    | e :: rest => (.envelope e, h.updateChannel id generation fun c => { c with queue := rest })
    | [] => (if h.isOpen id generation then .pending else .closed, h)

/-- Moves waiting envelopes into a channel if it is that of the subscriber's generation. -/
def refill (h : Hub) (id : String) (generation : Nat) : Hub :=
  match h.find? id with
  | some s => if s.generation = generation then (h.flush id).2 else h
  | none => h

/-- Receives the next envelope of a connection. -/
def receive (h : Hub) (id : String) (generation : Nat) : Received × Hub :=
  (h.refill id generation).take id generation

/-- Reads a connection until `most` envelopes came or none is there; tells what came, and what
the reading ended with if it was no envelope. -/
def readAll (read : Hub → Received × Hub) (h : Hub) : Nat → (List Envelope × Option Received) × Hub
  | 0 => (([], none), h)
  | most + 1 =>
    match read h with
    | (.envelope e, h) =>
      let ((rest, ending), h) := h.readAll read most
      ((e :: rest, ending), h)
    | (ending, h) => (([], some ending), h)

/-- Applies a control message of a subscriber; gives the reply, if there is one. -/
def control (h : Hub) (id text : String) (time : Moment) : Option Envelope × Hub :=
  match Control.read? text with
  | none =>
    (none, { h with counters := { h.counters with malformed := h.counters.malformed + 1 } })
  | some (.switchSession session) =>
    let (known, h) := h.switchSession id session
    (if known then some (.sessionSwitched session time) else none, h)
  | some .ping => ((h.sessionOf id).map fun session => .pong session time, h)

/-- Forgets the subscribers that have been without connection for longer than a span; tells how
many. -/
def reap (h : Hub) (idle : Span) : Nat × Hub :=
  let stays (s : Subscriber) : Bool := match s.idleSince with
    | some since => decide (h.time.sub since ≤ idle)
    | none => true
  let left := h.subscribers.filter stays
  (h.subscribers.length - left.length, { h with subscribers := left })

/-- The JSON form of a hub's statistics. -/
def statsJson (h : Hub) : Json :=
  let sessions := (h.subscribers.map (·.session)).eraseDups
  .obj [("subscribers", .ofNat h.subscribers.length),
    ("connected", .ofNat (h.subscribers.countP (·.connected))),
    ("sessions", .ofNat sessions.length), ("published", .ofNat h.counters.published),
    ("delivered", .ofNat h.counters.delivered), ("queued", .ofNat h.counters.queued),
    ("evicted", .ofNat h.counters.evicted), ("malformed", .ofNat h.counters.malformed)]

end Hub
end ContextBudget

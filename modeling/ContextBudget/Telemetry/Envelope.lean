import ContextBudget.Run.Event

/-!
# Envelopes and control messages

Observers receive envelopes: events, and replies to the control messages that they send. A
control message is an object with its kind under `type`, or an array that opens with the kind.
-/

namespace ContextBudget

/-- What is sent to an observer. -/
structure Envelope where
  kind : String
  session : String
  time : Moment
  payload : Json
  deriving Repr

namespace Envelope

/-- The envelope of an event. -/
def ofEvent (e : Event) : Envelope := ⟨e.kind, e.session, e.time, e.toJson⟩

/-- The first envelope on a connection: the id to resume with, and how many envelopes waited. -/
def subscribed (id session : String) (replayed : Nat) (time : Moment) : Envelope :=
  ⟨"subscribed", session, time,
    .obj [("subscriber_id", .str id), ("replayed", .ofNat replayed)]⟩

/-- The reply to a switch. -/
def sessionSwitched (session : String) (time : Moment) : Envelope :=
  ⟨"session_switched", session, time, .null⟩

/-- The reply to a ping. -/
def pong (session : String) (time : Moment) : Envelope := ⟨"pong", session, time, .null⟩

/-- The JSON form of an envelope. -/
def toJson (e : Envelope) : Json :=
  .obj [("type", .str e.kind), ("session_id", .str e.session), ("timestamp", .str e.time.text),
    ("payload", e.payload)]

end Envelope

/-- What an observer may ask for. -/
inductive Control where
  | switchSession (session : String)
  | ping
  deriving DecidableEq, Repr

namespace Control

/-- The control message of a kind whose fields are `rest`, by name or in order. -/
def ofKind (rest : Json) : String → Option Control
  | "switch_session" => do
    let r ← Record.ofJson? ["session_id"] rest
    return .switchSession (← r.required "session_id" Json.text?)
  | "ping" => match rest with
    | .arr (_ :: _) => none
    | _ => some .ping
  | _ => none

/-- The control message that a JSON value denotes. The kind is given once. -/
def ofJson? : Json → Option Control
  | .obj fields =>
    match fields.filter (·.1 == "type") with
    | [(_, .str kind)] => ofKind (.obj (fields.filter (·.1 != "type"))) kind
    | _ => none
  | .arr (.str kind :: rest) => ofKind (.arr rest) kind
  | _ => none

/-- The control message that a text denotes. -/
def read? (text : String) : Option Control := (Json.read? text).bind ofJson?

end Control
end ContextBudget

import ContextBudget.Telemetry.Hub

/-!
# Routes

What the telemetry server answers. An observer connects to watch a session or to resume a
subscription, a producer posts events, and anyone may ask for the hub's statistics. Every answer
may be read from any origin.
-/

namespace ContextBudget

/-- A reply to a request. -/
structure WebReply where
  status : Nat
  body : Json
  deriving Repr

namespace Hub

/-- The origins that may read a reply. -/
def allowedOrigin : String := "*"

/-- Connects an observer: resumes a known subscriber, else watches the session that is named. The
first envelope on the connection comes with it. -/
def connect (h : Hub) (session resume : Option String) (time : Moment) :
    Except WebReply (Subscription × Envelope) × Hub :=
  let greet (s : Subscription) := (s, Envelope.subscribed s.id s.session s.replayed time)
  match resume.map h.reconnect with
  | some (some s, h) => (.ok (greet s), h)
  | _ => match session with
    | some session =>
      let (s, h) := h.subscribe session
      (.ok (greet s), h)
    | none =>
      let text := "session_id is required unless resuming a known subscriber_id"
      (.error ⟨400, .str text⟩, h)

/-- Whether a content type is that of JSON. -/
def isJsonType (contentType : String) : Bool :=
  let kind := Text.lowerAscii (Text.trim ((contentType.toList).takeWhile (· != ';')))
  kind == "application/json".toList
    || ("application/".toList.isPrefixOf kind && "+json".toList.isSuffixOf kind)

/-- Publishes a posted event and tells to how many observers it was sent at once. A body of
another type, one that is no JSON, and JSON that is no event are refused. -/
def postEvent (h : Hub) (contentType body : String) : WebReply × Hub :=
  if !isJsonType contentType then (⟨415, .null⟩, h)
  else match Json.read? body with
    | none => (⟨400, .null⟩, h)
    | some v => match Event.ofJson? v with
      | none => (⟨422, .null⟩, h)
      | some e =>
        let (n, h) := h.publish (.ofEvent e)
        (⟨202, .obj [("delivered", .ofNat n)]⟩, h)

/-- Answers a request for a path. -/
def getPath (h : Hub) (path : String) : WebReply :=
  if path = "/api/health" then ⟨200, h.statsJson⟩
  else if path = "/api/events" then ⟨405, .null⟩
  else if path = "/ws" then ⟨400, .null⟩
  else ⟨404, .null⟩

end Hub
end ContextBudget

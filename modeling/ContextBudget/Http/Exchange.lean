import ContextBudget.Json.Reader
import ContextBudget.Service

/-!
# HTTP exchanges

The clients of this library post a JSON body to one address and read the reply as a text. What
lies between is a `Transport`: a service that gives for each request what came of it.
-/

namespace ContextBudget

/-- A request to an address. -/
structure HttpRequest where
  /-- The `Authorization` header. -/
  authorization : Option String
  body : Json
  deriving Repr

/-- What came of a request. -/
inductive Exchange where
  | reply (status : Nat) (body : String)
  /-- The reply could not be read as a text. -/
  | garbled (detail : String)
  /-- No reply came in time. -/
  | timedOut (detail : String)
  /-- No reply came at all. -/
  | failed (detail : String)
  deriving DecidableEq, Repr

/-- Sends requests to one address, each with a limit of its own on the time it may take. -/
abbrev Transport (σ : Type) := HttpRequest → StateM σ (Pending Exchange)

/-- The name under which the clients send. -/
def userAgent : String := "tokengate/0.1.0"

/-- The header that carries a key. -/
def bearer (key : String) : String := "Bearer " ++ key

/-- The body of a reply whose status tells of success. -/
def Exchange.body : Exchange → Except ServiceError String
  | reply status body =>
    if 200 ≤ status ∧ status < 300 then .ok body else .error (.ofStatus status body)
  | garbled detail => .error (.malformed detail)
  | timedOut detail => .error (.transport ("request timed out: " ++ detail))
  | failed detail => .error (.transport detail)

/-- The value of a reply's body, read by `decode`. -/
def Exchange.decoded {α : Type} (decode : Json → Option α) (x : Exchange) :
    Except ServiceError α := do
  match (Json.read? (← x.body)).bind decode with
  | some value => return value
  | none => throw (ServiceError.malformed "the reply is not of the expected form")

end ContextBudget

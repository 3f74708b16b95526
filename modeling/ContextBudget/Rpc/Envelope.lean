import ContextBudget.Json.Decode

/-!
# JSON-RPC envelopes

Requests and responses of JSON-RPC 2.0. A response carries a result or an error.
-/

namespace ContextBudget
namespace Rpc

/-- The version that requests name. -/
def version : String := "2.0"

/-- A request. -/
structure Request where
  version : String
  id : Json
  method : String
  params : Json
  deriving Repr

/-- Why a request has no result. -/
structure Error where
  code : Int
  message : String
  deriving DecidableEq, Repr

/-- A response to a request. -/
structure Response where
  id : Json
  result : Except Error Json

/-- A response as a client reads it. -/
structure Reply where
  result : Option Json
  error : Option Error

/-- The request that a JSON value denotes. -/
def Request.ofJson? (v : Json) : Option Request := do
  let r ← Record.ofJson? ["jsonrpc", "id", "method", "params"] v
  return {
    version := ← r.required "jsonrpc" Json.text?
    id := ← r.withDefault "id" .null some
    method := ← r.required "method" Json.text?
    params := ← r.withDefault "params" .null some }

/-- The JSON form of a request. -/
def Request.toJson (r : Request) : Json :=
  .obj [("jsonrpc", .str r.version), ("id", r.id), ("method", .str r.method), ("params", r.params)]

/-- The JSON form of an error. -/
def Error.toJson (e : Error) : Json := .obj [("code", .int e.code), ("message", .str e.message)]

/-- The error that a JSON value denotes, what else it carries left aside. -/
def Error.ofJson? (v : Json) : Option Error := do
  let r ← Record.ofJson? ["code", "message", "data"] v
  let code ← r.required "code" Json.signedWord?
  let message ← r.required "message" Json.text?
  let _ ← r.withDefault "data" .null some
  return ⟨code, message⟩

/-- The JSON form of a response. -/
def Response.toJson (r : Response) : Json :=
  .obj ([("jsonrpc", .str version), ("id", r.id)] ++ match r.result with
    | .ok result => [("result", result)]
    | .error e => [("error", e.toJson)])

/-- The response that a JSON value denotes. Null stands for a result or error that is not there. -/
def Reply.ofJson? (v : Json) : Option Reply := do
  let r ← Record.ofJson? ["jsonrpc", "id", "result", "error"] v
  let _ ← r.required "jsonrpc" Json.text?
  let _ ← r.required "id" some
  return {
    result := ← r.withDefault "result" none (Record.nullable fun v => some v.settle)
    error := ← r.withDefault "error" none (Record.nullable Error.ofJson?) }

end Rpc
end ContextBudget

import ContextBudget.Prune.Pruner
import ContextBudget.Rpc.Envelope

/-!
# The pruning service

A pruner behind JSON-RPC. `prune_text` prunes, `recover_text` and `recover_range` recover, and
`health` reports. Every body gets a response, and the response to an object bears its id.
-/

namespace ContextBudget

/-- What the service reports about itself. -/
structure HealthReport where
  status : String
  version : String
  uptimeSeconds : Nat
  /-- The name of the reranker, if there is one. -/
  reranker : Option String
  records : Nat
  cacheEntries : Nat
  cacheHits : Nat
  cacheMisses : Nat
  capabilities : List String
  deriving DecidableEq, Repr

namespace HealthReport

/-- The JSON form of a report. -/
def toJson (h : HealthReport) : Json :=
  .obj [("status", .str h.status), ("version", .str h.version),
    ("uptime_secs", .ofNat h.uptimeSeconds), ("reranker", .ofText? h.reranker),
    ("records", .ofNat h.records),
    ("rerank_cache", .obj [("entries", .ofNat h.cacheEntries), ("hits", .ofNat h.cacheHits),
      ("misses", .ofNat h.cacheMisses)]),
    ("capabilities", .ofTexts h.capabilities)]

/-- The report that a JSON value denotes. -/
def ofJson? (v : Json) : Option HealthReport := do
  let r ← Record.ofJson? ["status", "version", "uptime_secs", "reranker", "records",
    "rerank_cache", "capabilities"] v
  let cache ← r.required "rerank_cache" (Record.ofJson? ["entries", "hits", "misses"])
  return {
    status := ← r.required "status" Json.text?
    version := ← r.required "version" Json.text?
    uptimeSeconds := ← r.required "uptime_secs" Json.word?
    reranker := ← r.optional "reranker" Json.text?
    records := ← r.required "records" Json.word?
    cacheEntries := ← cache.required "entries" Json.word?
    cacheHits := ← cache.required "hits" Json.word?
    cacheMisses := ← cache.required "misses" Json.word?
    capabilities := ← r.required "capabilities" (Json.list? Json.text?) }

end HealthReport

/-- A pruner as a service. -/
structure PruneService (σ : Type) where
  pruner : Pruner σ
  /-- The options of requests that name none. -/
  defaults : PruneOptions
  /-- When the service started, on the clock of elapsed time. -/
  started : Span

namespace PruneService

variable {σ : Type}

/-- A call of the service, its parameters read. -/
inductive Command where
  | prune (request : PruneRequest)
  | recover (request : RecoverRequest)
  | health
  deriving Repr

/-- The body is no JSON text. -/
def parseError : Rpc.Error := ⟨-32700, "parse error"⟩

/-- The body is no request. -/
def invalidRequest : Rpc.Error := ⟨-32600, "invalid request"⟩

/-- The request is of another version. -/
def wrongVersion : Rpc.Error := ⟨-32600, "jsonrpc must be \"2.0\""⟩

/-- The service has no such method. -/
def unknownMethod (name : String) : Rpc.Error := ⟨-32601, "method not found: " ++ name⟩

/-- The parameters are not those of the method. -/
def invalidParams : Rpc.Error := ⟨-32602, "invalid params"⟩

/-- The code for a record that was never made. -/
def recordUnknownCode : Int := -32004

/-- The code for a record that has expired. -/
def recordExpiredCode : Int := -32010

/-- The error that a failure to recover becomes. -/
def recoverError (e : BudgetError) : Rpc.Error :=
  match e with
  | .recordUnknown _ => ⟨recordUnknownCode, e.message⟩
  | .recordExpired _ => ⟨recordExpiredCode, e.message⟩
  | _ => ⟨-32603, e.message⟩

/-- The prune request that parameters denote. -/
def pruneParams? (defaults : PruneOptions) (v : Json) : Option PruneRequest := do
  let r ← Record.ofJson? ["text", "goal_hint", "source_type", "options"] v
  return {
    text := ← r.required "text" Json.text?
    goal := ← r.withDefault "goal_hint" "" Json.text?
    kind := ← r.withDefault "source_type" .auto SourceKind.ofJson?
    options := (← r.optional "options" PruneOptions.ofJson?).getD defaults }

/-- The command that a method and its parameters mean. -/
def command (defaults : PruneOptions) (method : String) (params : Json) :
    Except Rpc.Error Command :=
  if method = "prune_text" then
    match pruneParams? defaults params with
    | some request => .ok (.prune request)
    | none => .error invalidParams
  else if method = "recover_text" ∨ method = "recover_range" then
    match RecoverRequest.ofJson? params with
    | some request => .ok (.recover request)
    | none => .error invalidParams
  else if method = "health" then .ok .health
  else .error (unknownMethod method)

/-- What the service can do. -/
def capabilities (reranker : Option String) : List String :=
  ["prune_text", "recover_text", "recover_range", "annotate_lines", "include_markers"]
    ++ (reranker.map fun _ => "rerank").toList

/-- The report on the service. -/
def health (s : PruneService σ) : PrunerM σ HealthReport := do
  let name := s.pruner.reranker.map (·.name)
  let up := (← s.pruner.clock.elapsed).sub s.started
  let memory ← get
  return {
    status := "ok"
    version := "0.1.0"
    uptimeSeconds := up.wholeSeconds
    reranker := name
    records := memory.records.size
    cacheEntries := memory.cache.size
    cacheHits := memory.cache.hits
    cacheMisses := memory.cache.misses
    capabilities := capabilities name }

/-- Carries a command out. -/
def perform (s : PruneService σ) : Command → PrunerM σ (Except Rpc.Error Json)
  | .prune request => do return .ok (← s.pruner.prune request).toJson
  | .recover request => do
    match ← s.pruner.recover request with
    | .ok text => return .ok (.obj [("text", .str text)])
    | .error e => return .error (recoverError e)
  | .health => do return .ok (← s.health).toJson

/-- What a body asks for, and the id that its response bears. -/
def requestOf (defaults : PruneOptions) (body : String) : Json × Except Rpc.Error Command :=
  match Json.read? body with
  | none => (.null, .error parseError)
  | some value =>
    let value := value.settle
    let id := (value.field? "id").getD .null
    match Rpc.Request.ofJson? value with
    | none => (id, .error invalidRequest)
    | some request =>
      if request.version = Rpc.version then
        (request.id, command defaults request.method request.params)
      else (id, .error wrongVersion)

/-- Answers one body. -/
def answer (s : PruneService σ) (body : String) : PrunerM σ Rpc.Response := do
  match requestOf s.defaults body with
  | (id, .error e) => return ⟨id, .error e⟩
  | (id, .ok command) => return ⟨id, ← s.perform command⟩

end PruneService
end ContextBudget

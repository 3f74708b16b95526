import ContextBudget.Http.Exchange
import ContextBudget.Rpc.Service
import ContextBudget.Run.Pipeline

/-!
# The remote pruner

Asks a pruning service over HTTP. When the service cannot be reached, or its reply cannot be
read, a text is recorded here and given back as it was; what was recorded here is recovered here.
-/

namespace ContextBudget

/-- Why a call has no result. -/
inductive CallFailure where
  | service (error : ServiceError)
  | remote (error : Rpc.Error)
  deriving Repr

/-- The text of a failure. -/
def CallFailure.message : CallFailure → String
  | service e => e.message
  | remote e => "RPC error " ++ toString e.code ++ ": " ++ e.message

/-- A client of a pruning service. -/
structure RemotePruner (σ : Type) where
  send : Transport σ
  /-- Records what could not be pruned. -/
  fallback : Pruner σ

/-- What a client remembers. -/
structure RemoteState where
  /-- The id of the next call. -/
  next : Nat
  records : PrunerState
  deriving Repr

/-- A computation of a client. -/
abbrev RemoteM (σ : Type) := StateT RemoteState (StateM σ)

namespace RemotePruner

variable {σ : Type}

/-- The failure of a reply that is not of the expected form. -/
def malformed (detail : String) : CallFailure := .service (.malformed detail)

/-- The result in a reply. -/
def resultOf {α : Type} (decode : Json → Option α) (reply : Exchange) : Except CallFailure α :=
  match reply.decoded Rpc.Reply.ofJson? with
  | .error e => .error (.service e)
  | .ok ⟨_, some e⟩ => .error (.remote e)
  | .ok ⟨none, none⟩ => .error (malformed "missing result")
  | .ok ⟨some v, none⟩ =>
    match decode v with
    | some a => .ok a
    | none => .error (malformed "the result is not of the expected form")

/-- Calls a method of the service. -/
def call {α : Type} (c : RemotePruner σ) (method : String) (params : Json)
    (decode : Json → Option α) : RemoteM σ (Pending (Except CallFailure α)) := do
  let s ← get
  set { s with next := Word.add s.next 1 }
  let request : Rpc.Request := ⟨Rpc.version, .ofNat s.next, method, params⟩
  return (← c.send ⟨none, request.toJson⟩).map (resultOf decode)

/-- Runs a computation of the local pruner. -/
def locally {α : Type} (m : PrunerM σ α) : RemoteM σ α := do
  let s ← get
  let (a, records) ← m.run s.records
  set { s with records }
  return a

/-- Gives a text back as it was, recorded here. -/
def passThrough (c : RemotePruner σ) (text : String) (failure : CallFailure) :
    RemoteM σ PruneResponse :=
  locally (c.fallback.passThrough text ⟨"redactor_unreachable", failure.message⟩)

/-- Prunes a text. -/
def prune (c : RemotePruner σ) (request : PruneRequest) : RemoteM σ (Pending PruneResponse) := do
  match ← c.call "prune_text" request.toJson PruneResponse.ofJson? with
  | .never => return .never
  | .done after (.ok response) => return .done after response
  | .done after (.error failure) => return .done after (← c.passThrough request.text failure)

/-- The text in a result. -/
def textOf? (v : Json) : Option String := do
  (← Record.ofJson? ["text"] v).required "text" Json.text?

/-- The failure to recover the text of an id. -/
def recoverFailure (id : String) : CallFailure → BudgetError
  | .service e => .serviceFailed e
  | .remote e =>
    if e.code = PruneService.recordUnknownCode then .recordUnknown id
    else if e.code = PruneService.recordExpiredCode then .recordExpired id
    else .serviceFailed (.malformed e.message)

/-- The full lines that a request wants: from here if the record is known here. -/
def recover (c : RemotePruner σ) (request : RecoverRequest) :
    RemoteM σ (Pending (Except BudgetError String)) := do
  match ← locally (c.fallback.recover request) with
  | .error (.recordUnknown _) =>
    let reply ← c.call "recover_text" request.toJson textOf?
    return reply.map fun r => r.mapError (recoverFailure request.id)
  | known => return .done .zero known

/-- The service's report on itself. -/
def health (c : RemotePruner σ) : RemoteM σ (Pending (Except ServiceError HealthReport)) := do
  let reply ← c.call "health" .null HealthReport.ofJson?
  return reply.map fun r => r.mapError fun
    | .service e => e
    | .remote e => .malformed e.message

end RemotePruner
end ContextBudget

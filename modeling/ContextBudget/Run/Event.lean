import ContextBudget.Prune.Response
import ContextBudget.Time.Moment

/-!
# Events

Each stage of a run leaves one event: what the stage did, the tokens before and after it, the
model and budget it worked for, and a payload of its own.
-/

namespace ContextBudget

/-- A stage of a run. -/
inductive Stage where
  | account
  | sanitize
  /-- The move to a larger model. -/
  | fallback
  | redact
  | compact
  /-- The verdict at the end. -/
  | done
  deriving DecidableEq, Repr

/-- The name of a stage. -/
def Stage.text : Stage → String
  | account => "account"
  | sanitize => "sanitize"
  | fallback => "fallback"
  | redact => "redact"
  | compact => "compact"
  | done => "done"

/-- What a stage did. -/
inductive Outcome where
  /-- The conversation fits. -/
  | fits
  /-- The conversation does not fit. -/
  | overBudget
  /-- The stage reduced the conversation. -/
  | reduced
  /-- The stage changed nothing. -/
  | unchanged
  /-- The stage met a failure; the warnings tell which. -/
  | degraded
  /-- The stage did not run. -/
  | skipped
  /-- A larger model was chosen. -/
  | fallbackRequested
  deriving DecidableEq, Repr

/-- The name of an outcome. -/
def Outcome.text : Outcome → String
  | fits => "fits"
  | overBudget => "over_budget"
  | reduced => "reduced"
  | unchanged => "unchanged"
  | degraded => "degraded"
  | skipped => "skipped"
  | fallbackRequested => "fallback_requested"

/-- The outcome of a stage that reduces: what it did counts more than what went wrong. -/
def Outcome.of (reduced : Bool) (warnings : List Warning) : Outcome :=
  if reduced then .reduced
  else if warnings.isEmpty then .unchanged
  else .degraded

/-- The record of one stage. -/
structure Event where
  stage : Stage
  session : String
  time : Moment
  tokensBefore : Nat
  tokensAfter : Nat
  outcome : Outcome
  model : String
  limit : Nat
  reserved : Nat
  warnings : List Warning
  detail : Json
  deriving Repr

namespace Event

/-- The name under which observers see the event. -/
def kind (e : Event) : String :=
  match e.stage, e.outcome with
  | .account, _ => "budget_event"
  | .sanitize, _ => "masking_event"
  | .fallback, _ => "fallback_event"
  | .redact, _ => "redaction_event"
  | .compact, _ => "compaction_event"
  | .done, .overBudget => "over_budget_event"
  | .done, _ => "budget_event"

/-- The tokens that the stage saved. -/
def saved (e : Event) : Nat := e.tokensBefore - e.tokensAfter

/-- The stages by name. -/
def stages : List (String × Stage) :=
  [Stage.account, .sanitize, .fallback, .redact, .compact, .done].map fun s => (s.text, s)

/-- The outcomes by name. -/
def outcomes : List (String × Outcome) :=
  [Outcome.fits, .overBudget, .reduced, .unchanged, .degraded, .skipped, .fallbackRequested].map
    fun o => (o.text, o)

/-- The JSON form of an event; no warnings and no payload are left out. -/
def toJson (e : Event) : Json :=
  .obj ([("stage", .str e.stage.text), ("session_id", .str e.session),
    ("timestamp", .str e.time.text), ("tokens_before", .ofNat e.tokensBefore),
    ("tokens_after", .ofNat e.tokensAfter), ("outcome", .str e.outcome.text),
    ("model", .str e.model), ("limit", .ofNat e.limit), ("reserved", .ofNat e.reserved)]
    ++ (if e.warnings.isEmpty then [] else [("warnings", .arr (e.warnings.map Warning.toJson))])
    ++ (if e.detail.isNull then [] else [("detail", e.detail)]))

/-- The event that a JSON value denotes. -/
def ofJson? (v : Json) : Option Event := do
  let r ← Record.ofJson? ["stage", "session_id", "timestamp", "tokens_before", "tokens_after",
    "outcome", "model", "limit", "reserved", "warnings", "detail"] v
  return {
    stage := ← r.required "stage" (Json.choice? stages)
    session := ← r.required "session_id" Json.text?
    time := ← r.required "timestamp" fun t => t.text?.bind Moment.read?
    tokensBefore := ← r.required "tokens_before" Json.word?
    tokensAfter := ← r.required "tokens_after" Json.word?
    outcome := ← r.required "outcome" (Json.choice? outcomes)
    model := ← r.required "model" Json.text?
    limit := ← r.required "limit" Json.word?
    reserved := ← r.required "reserved" Json.word?
    warnings := ← r.withDefault "warnings" [] (Json.list? Warning.ofJson?)
    detail := ← r.withDefault "detail" .null fun d => some d.settle }

end Event
end ContextBudget

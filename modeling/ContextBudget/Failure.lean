import ContextBudget.Json.Decode
import ContextBudget.Text.Blank
import ContextBudget.Time.Span

/-!
# Failures

What an outside service may report, what a run or a look-up may fail with, and the warnings that
the recoverable failures become. Each is a cause; its text is stated once, in `message`.
-/

namespace ContextBudget

/-- A failure that an outside service reports. -/
inductive ServiceError where
  | unavailable (detail : String)
  | timedOut (after : Span)
  | unauthorized (detail : String)
  | throttled (detail : String)
  | malformed (detail : String)
  | transport (detail : String)
  | storage (detail : String)
  deriving DecidableEq, Repr

namespace ServiceError

/-- The stable name of a failure. -/
def kind : ServiceError → String
  | unavailable _ => "unavailable"
  | timedOut _ => "timeout"
  | unauthorized _ => "auth"
  | throttled _ => "rate_limited"
  | malformed _ => "malformed"
  | transport _ => "transport"
  | storage _ => "storage"

/-- The text of a failure. -/
def message : ServiceError → String
  | unavailable detail => "capability unavailable: " ++ detail
  | timedOut after => "timed out after " ++ after.text
  | unauthorized detail => "authentication rejected: " ++ detail
  | throttled detail => "rate limited: " ++ detail
  | malformed detail => "malformed response: " ++ detail
  | transport detail => "transport error: " ++ detail
  | storage detail => "storage error: " ++ detail

/-- The failure that an unsuccessful status of a reply means. The detail quotes at most two
hundred characters of the reply. -/
def ofStatus (status : Nat) (body : String) : ServiceError :=
  let detail := "HTTP " ++ Nat.repr status ++ ": " ++ Text.excerpt body 200
  if status = 401 ∨ status = 403 then unauthorized detail
  else if status = 429 then throttled detail
  else transport detail

end ServiceError

/-- A failure of a run or of a look-up. -/
inductive BudgetError where
  | tokenizerUnavailable (family reason : String)
  | storageFailure (detail : String)
  | serviceFailed (error : ServiceError)
  | recordUnknown (id : String)
  | recordExpired (id : String)
  | unsatisfiable (ratio : Double) (keep lines : Nat)
  | modelUnknown (name : String)
  deriving DecidableEq, Repr

namespace BudgetError

/-- The stable name of a failure. -/
def code : BudgetError → String
  | tokenizerUnavailable _ _ => "tokenizer_unavailable"
  | storageFailure _ => "storage_failure"
  | serviceFailed _ => "remote_capability_failure"
  | recordUnknown _ => "record_not_found"
  | recordExpired _ => "record_expired"
  | unsatisfiable _ _ _ => "constraint_unsatisfiable"
  | modelUnknown _ => "unknown_model"

/-- The text of a failure. -/
def message : BudgetError → String
  | tokenizerUnavailable family reason =>
    "tokenizer unavailable for model family '" ++ family ++ "': " ++ reason
  | storageFailure detail => "storage failure: " ++ detail
  | serviceFailed error => "remote capability failed: " ++ error.message
  | recordUnknown id => "no redaction record for prune_id '" ++ id ++ "'"
  | recordExpired id => "redaction record '" ++ id ++ "' has expired"
  | unsatisfiable ratio keep lines =>
    Nat.repr lines ++ " lines cannot keep " ++ Nat.repr keep ++ " within max_prune_ratio="
      ++ ratio.text
  | modelUnknown name => "unknown model '" ++ name ++ "'"

end BudgetError

/-- A recoverable problem that a stage reports. -/
structure Warning where
  /-- A stable name. -/
  code : String
  message : String
  deriving DecidableEq, Repr

/-- The warning that a failure becomes. -/
def BudgetError.warning (e : BudgetError) : Warning := ⟨e.code, e.message⟩

namespace Warning

/-- The JSON form of a warning. -/
def toJson (w : Warning) : Json := .obj [("code", .str w.code), ("message", .str w.message)]

/-- The warning that a JSON value denotes. -/
def ofJson? (v : Json) : Option Warning := do
  let r ← Record.ofJson? ["code", "message"] v
  return ⟨← r.required "code" Json.text?, ← r.required "message" Json.text?⟩

end Warning

end ContextBudget

import ContextBudget.Http.Exchange
import ContextBudget.Http.Retry
import ContextBudget.Json.Decode
import ContextBudget.Text.Quoted

/-!
# The chat client

One request, one answer: messages go to a chat completion service, and the first choice of its
reply comes back.
-/

namespace ContextBudget

/-- A chat request. -/
structure ChatRequest where
  model : String
  /-- Roles and contents. -/
  messages : List (String × String)
  /-- The longest answer in tokens; zero leaves it open. -/
  maxTokens : Nat
  temperature : Option Single
  deriving Repr

/-- Tokens that an answer took. -/
structure ChatUsage where
  prompt : Option Nat
  completion : Option Nat
  total : Option Nat
  deriving DecidableEq, Repr

/-- An answer. -/
structure ChatAnswer where
  content : Option String
  usage : Option ChatUsage
  finishReason : Option String
  deriving DecidableEq, Repr

/-- What a reply holds. -/
structure ChatReply where
  choices : Option (List (Option String × Option String))
  usage : Option ChatUsage
  error : Option String

/-- Where and as whom a chat service is asked. -/
structure ChatClient where
  endpoint : String
  key : String
  retry : RetryConfig
  deriving Repr

/-- The JSON form of an answer; the tokens are those of the request, of the answer, and all. -/
def ChatAnswer.toJson (a : ChatAnswer) : Json :=
  let count (n : Option Nat) : Json := (n.map .ofNat).getD .null
  let usage (u : ChatUsage) : Json := .arr [count u.prompt, count u.completion, count u.total]
  .obj [("content", .ofText? a.content), ("finish_reason", .ofText? a.finishReason),
    ("usage", (a.usage.map usage).getD .null)]

namespace ChatRequest

/-- The number that the shortest digits of a number in the small format denote. -/
def ofShortest (x : Single) : Json := .ofBinary ((Binary.read? (x.text.toList)).getD (.nan : Double))

/-- The body of a request. -/
def toJson (r : ChatRequest) : Json :=
  .obj ([("model", .str r.model), ("messages", .arr (r.messages.map fun (role, content) =>
    .obj [("role", .str role), ("content", .str content)]))]
    ++ (if r.maxTokens = 0 then [] else [("max_tokens", .ofNat r.maxTokens)])
    ++ (r.temperature.map fun t => ("temperature", ofShortest t)).toList)

end ChatRequest

namespace ChatReply

/-- Token counts of 32 bits. -/
def usage? (v : Json) : Option ChatUsage := do
  let r ← Record.ofJson? ["prompt_tokens", "completion_tokens", "total_tokens"] v
  return {
    prompt := ← r.optional "prompt_tokens" (Json.below? (Nat.pow 2 32))
    completion := ← r.optional "completion_tokens" (Json.below? (Nat.pow 2 32))
    total := ← r.optional "total_tokens" (Json.below? (Nat.pow 2 32)) }

/-- The content and the finish reason of a choice. -/
def choice? (v : Json) : Option (Option String × Option String) := do
  let r ← Record.ofJson? ["message", "finish_reason"] v
  let content ← r.required "message" fun m => do
    (← Record.ofJson? ["content"] m).optional "content" Json.text?
  return (content, ← r.optional "finish_reason" Json.text?)

/-- What a JSON value holds. -/
def ofJson? (v : Json) : Option ChatReply := do
  let r ← Record.ofJson? ["choices", "usage", "error"] v
  return {
    choices := ← r.optional "choices" (Json.list? choice?)
    usage := ← r.optional "usage" usage?
    error := ← r.optional "error" fun e => do
      (← Record.ofJson? ["message"] e).required "message" Json.text? }

/-- The answer that a reply gives: its first choice, if there is one. -/
def answer (r : ChatReply) : Except ServiceError ChatAnswer :=
  match r.error with
  | some message => .error (.unavailable message)
  | none => match r.choices with
    | some ((content, finishReason) :: _) => .ok ⟨content, r.usage, finishReason⟩
    | _ => .ok ⟨none, r.usage, none⟩

end ChatReply

namespace ChatClient

variable {σ : Type}

/-- A description that does not show the key. -/
def describe (c : ChatClient) : String :=
  Text.described "ChatClient"
    [("endpoint", Text.quoted c.endpoint), ("retry", c.retry.describe)] true

/-- The answer that a reply gives. -/
def answerOf (reply : Exchange) : Except ServiceError ChatAnswer := do
  (← reply.decoded ChatReply.ofJson?).answer

/-- Sends a request once. -/
def sendOnce (c : ChatClient) (send : Transport σ) (request : ChatRequest) :
    StateM σ (Call ChatAnswer) := do
  let authorization := if c.key = "" then none else some (bearer c.key)
  return (← send ⟨authorization, request.toJson⟩).map answerOf

/-- Sends a request, again after failures that may pass. -/
def chat (c : ChatClient) (send : Transport σ) (sleep : Span → StateM σ Unit)
    (request : ChatRequest) : StateM σ (Option (Call ChatAnswer)) :=
  withRetries c.retry sleep (c.sendOnce send request)

end ChatClient
end ContextBudget

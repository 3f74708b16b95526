import ContextBudget.Compaction
import ContextBudget.Http.Chat

/-!
# The summary client

Summarizes conversation text with a chat model.
-/

namespace ContextBudget

/-- A chat model that summarizes. -/
structure SummaryClient where
  client : ChatClient
  model : String
  deriving Repr

namespace SummaryClient

/-- The address where none is named. -/
def defaultEndpoint : String := "https://openrouter.ai/api/v1/chat/completions"

/-- The model where none is named. -/
def defaultModel : String := "google/gemini-2.5-flash"

/-- The client that an environment describes, if it names a key. -/
def ofEnvironment (env : String → Option String) : Option SummaryClient := do
  let key ← env "TOKENGATE_SUMMARY_API_KEY"
  let endpoint := (env "TOKENGATE_SUMMARY_URL").getD defaultEndpoint
  return ⟨⟨endpoint, key, .standard⟩, (env "TOKENGATE_SUMMARY_MODEL").getD defaultModel⟩

/-- A description that does not show the key. -/
def describe (c : SummaryClient) : String :=
  Text.described "LlmSummarizer"
    [("client", c.client.describe), ("model", Text.quoted c.model)] false

/-- What the model is told to do. -/
def instructions : String :=
  "Summarize the following conversation messages concisely. Focus on:\n"
  ++ "- What was accomplished (completed subtasks, files modified)\n"
  ++ "- Key findings and decisions made\n"
  ++ "- Failed approaches (what was tried and why it failed)\n"
  ++ "- File paths and function names mentioned\n"
  ++ "- Current plan state and what remains to be done\n\n"
  ++ "Rules:\n"
  ++ "- Only include facts explicitly stated in the messages. Do not infer or extrapolate.\n"
  ++ "- Preserve file paths, function names, and error messages verbatim.\n"
  ++ "- Be concise: every token must earn its place."

/-- The request for a summary of at most so many characters, a token standing for four. -/
def request (c : SummaryClient) (text : String) (maxLength : Nat) : ChatRequest where
  model := c.model
  messages := [
    ("system",
      instructions ++ "\n- Stay under " ++ Nat.repr maxLength ++ " characters."),
    ("user", text)]
  maxTokens := Nat.max (Nat.min (maxLength / 4) (Nat.pow 2 32 - 1)) 64
  temperature := some (.ofRatio 2 10)

/-- The summary that an answer holds. -/
def summaryOf (answer : ChatAnswer) : Except ServiceError String :=
  match answer.content with
  | some text =>
    if Text.isBlankText text then .error (.malformed "empty summary") else .ok text
  | none => .error (.malformed "empty summary")

/-- Asks for a summary. -/
def summarize {σ : Type} (c : SummaryClient) (send : Transport σ) (sleep : Span → StateM σ Unit)
    (text : String) (maxLength : Nat) : StateM σ (Option (Call String)) := do
  let answer ← c.client.chat send sleep (c.request text maxLength)
  return answer.map fun call => call.map fun answer => answer.bind summaryOf

/-- The client as the summarizer of a pipeline. A delay that is no span never ends. -/
def summarizer {σ : Type} (c : SummaryClient) (send : Transport σ)
    (sleep : Span → StateM σ Unit) : Summarizer σ := fun text maxLength => do
  return (← c.summarize send sleep text maxLength).getD .never

end SummaryClient
end ContextBudget

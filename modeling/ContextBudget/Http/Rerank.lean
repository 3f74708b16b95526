import ContextBudget.Http.Exchange
import ContextBudget.Json.Decode
import ContextBudget.Prune.Pruner
import ContextBudget.Text.Quoted

/-!
# The rerank client

Asks a service for the relevance of lines to a goal. The service answers in any order, each score
with the index of its line; `inOrder` puts them into the order of the lines.
-/

namespace ContextBudget

/-- One score of a reply. -/
structure RankedScore where
  index : Nat
  score : Single
  deriving DecidableEq, Repr

/-- Where and as whom a rerank service is asked. -/
structure RerankClient where
  endpoint : String
  model : String
  key : String
  deriving Repr

namespace RerankClient

/-- The model where none is named. -/
def defaultModel : String := "rerank-v3.5"

/-- The client that an environment describes, if it names both an address and a key. -/
def ofEnvironment (env : String → Option String) : Option RerankClient := do
  return {
    endpoint := ← env "TOKENGATE_RERANK_URL"
    key := ← env "TOKENGATE_RERANK_API_KEY"
    model := (env "TOKENGATE_RERANK_MODEL").getD defaultModel }

/-- A description that does not show the key. -/
def describe (c : RerankClient) : String :=
  Text.described "HttpReranker"
    [("endpoint", Text.quoted c.endpoint), ("model", Text.quoted c.model)] true

/-- The body of a request. -/
def body (c : RerankClient) (lines : List String) (goal : String) : Json :=
  .obj [("model", .str c.model), ("query", .str goal), ("documents", .ofTexts lines),
    ("top_n", .ofNat lines.length), ("return_documents", .bool false)]

/-- The scores of a reply. -/
def scoresOf? (v : Json) : Option (List RankedScore) := do
  let r ← Record.ofJson? ["results"] v
  r.required "results" (Json.list? fun v => do
    let r ← Record.ofJson? ["index", "relevance_score"] v
    return ⟨← r.required "index" Json.word?,
      ← r.required "relevance_score" (Json.binary? single)⟩)

/-- The slots of lines after the scores of a reply were put into them, the last score of an index
winning. -/
def fill (slots : List (Option Single)) :
    List RankedScore → Except ServiceError (List (Option Single))
  | [] => .ok slots
  | r :: rest =>
    if slots.length ≤ r.index then
      .error (.malformed ("index " ++ Nat.repr r.index ++ " out of range"))
    else if !r.score.isFinite then
      .error (.malformed ("non-finite score at " ++ Nat.repr r.index))
    else fill (slots.set r.index (some r.score)) rest

/-- The scores in slots that are all filled; `i` is the number of the first slot. -/
def filled (i : Nat) : List (Option Single) → Except ServiceError (List Single)
  | [] => .ok []
  | none :: _ => .error (.malformed ("missing score for line " ++ Nat.repr i))
  | some s :: rest => (filled (i + 1) rest).map (s :: ·)

/-- One score for each of `count` lines, in their order. -/
def inOrder (results : List RankedScore) (count : Nat) : Except ServiceError (List Single) := do
  filled 0 (← fill (List.replicate count none) results)

/-- The scores that a reply gives to `count` lines. -/
def scoresOf (count : Nat) (reply : Exchange) : Except ServiceError (List Single) := do
  inOrder (← reply.decoded scoresOf?) count

/-- Asks for the scores of lines. -/
def score {σ : Type} (c : RerankClient) (send : Transport σ) (lines : List String)
    (goal : String) : StateM σ (Call (List Single)) := do
  return (← send ⟨some (bearer c.key), c.body lines goal⟩).map (scoresOf lines.length)

/-- The client as the reranker of a pruner. -/
def reranker {σ : Type} (c : RerankClient) (send : Transport σ) : Reranker σ :=
  ⟨c.model, c.score send⟩

end RerankClient
end ContextBudget

import ContextBudget.Json.Decode

/-!
# Model catalogs

A catalog lists models with their family and context limit. When a conversation outgrows its
model, `Catalog.fallback?` names the larger model of the same family to move to.
-/

namespace ContextBudget

/-- A model that requests can go to. -/
structure Model where
  name : String
  /-- The provider's family, which also selects the token counter. -/
  family : String
  /-- The context window in tokens. -/
  limit : Nat
  deriving DecidableEq, Repr

/-- The models that are known. -/
structure Catalog where
  models : List Model
  deriving DecidableEq, Repr

namespace Model

/-- The JSON form of a model. -/
def toJson (m : Model) : Json :=
  .obj [("name", .str m.name), ("family", .str m.family), ("context_limit", .ofNat m.limit)]

/-- The model that a JSON value denotes. -/
def ofJson? (v : Json) : Option Model := do
  let r ← Record.ofJson? ["name", "family", "context_limit"] v
  return {
    name := ← r.required "name" Json.text?
    family := ← r.required "family" Json.text?
    limit := ← r.required "context_limit" Json.word? }

/-- By limit, and by name where limits are equal. -/
def before (a b : Model) : Bool :=
  a.limit < b.limit || (a.limit == b.limit && decide (a.name ≤ b.name))

end Model

namespace Catalog

/-- No models. -/
def empty : Catalog := ⟨[]⟩

/-- The catalog with a model added at the end; one of the same name goes away. -/
def insert (c : Catalog) (m : Model) : Catalog := ⟨c.models.filter (·.name != m.name) ++ [m]⟩

/-- The catalog of models added one by one. -/
def ofModels (models : List Model) : Catalog := models.foldl insert empty

/-- A small table of common models. -/
def builtin : Catalog :=
  ofModels [
    ⟨"gpt-4o-mini", "openai", 128000⟩,
    ⟨"gpt-4o", "openai", 128000⟩,
    ⟨"gpt-4.1", "openai", 1047576⟩,
    ⟨"o3", "openai", 200000⟩,
    ⟨"claude-haiku-4", "anthropic", 200000⟩,
    ⟨"claude-sonnet-4", "anthropic", 200000⟩,
    ⟨"claude-sonnet-4-1m", "anthropic", 1000000⟩,
    ⟨"gemini-2.5-flash", "google", 1048576⟩,
    ⟨"gemini-2.5-pro", "google", 1048576⟩,
    ⟨"llama-3.1-70b", "meta", 131072⟩,
    ⟨"llama-4-scout", "meta", 10000000⟩]

/-- The model of a name. -/
def find? (c : Catalog) (name : String) : Option Model := c.models.find? (·.name == name)

/-- The larger models of a model's family, the smallest first. -/
def larger (c : Catalog) (m : Model) : List Model :=
  (c.models.filter fun other => other.family == m.family && m.limit < other.limit).mergeSort
    Model.before

/-- The model to move to from a named one when `required` tokens are needed: the smallest larger
model of its family that holds them, else the largest one. -/
def fallback? (c : Catalog) (name : String) (required : Nat) : Option Model := do
  let larger := c.larger (← c.find? name)
  (larger.find? (required ≤ ·.limit)).or larger.getLast?

/-- The JSON form of a catalog. -/
def toJson (c : Catalog) : Json := .obj [("models", .arr (c.models.map Model.toJson))]

/-- The catalog that a JSON value denotes, its models as they stand. -/
def ofJson? (v : Json) : Option Catalog := do
  let r ← Record.ofJson? ["models"] v
  return ⟨← r.required "models" (Json.list? Model.ofJson?)⟩

end Catalog
end ContextBudget

import ContextBudget.Failure
import ContextBudget.Prune.Cut

/-!
# Prune responses

What a prune answers: the text that is left, the cuts, how much went, and warnings. A prune that
could not run gives the text back as it was (`PruneResponse.gaveBack`).
-/

namespace ContextBudget

/-- Counters of a prune. -/
structure PruneStats where
  total : Nat
  kept : Nat
  pruned : Nat
  prunedRatio : Double
  /-- The kind of the text, where it was looked at. -/
  kind : Option SourceKind
  /-- Scores from outside were used. -/
  reranked : Bool
  /-- They came from the cache. -/
  cacheHit : Bool
  elapsedMillis : Nat
  deriving DecidableEq, Repr

namespace PruneStats

/-- The JSON form of the counters. -/
def toJson (s : PruneStats) : Json :=
  .obj [("original_lines", .ofNat s.total), ("kept_lines", .ofNat s.kept),
    ("pruned_lines", .ofNat s.pruned), ("pruned_ratio", .ofBinary s.prunedRatio),
    ("source_type", .ofText? (s.kind.map SourceKind.text)), ("reranker_used", .bool s.reranked),
    ("cache_hit", .bool s.cacheHit), ("elapsed_ms", .ofNat s.elapsedMillis)]

/-- The counters that a JSON value denotes. -/
def ofJson? (v : Json) : Option PruneStats := do
  let r ← Record.ofJson? ["original_lines", "kept_lines", "pruned_lines", "pruned_ratio",
    "source_type", "reranker_used", "cache_hit", "elapsed_ms"] v
  return {
    total := ← r.required "original_lines" Json.word?
    kept := ← r.required "kept_lines" Json.word?
    pruned := ← r.required "pruned_lines" Json.word?
    prunedRatio := ← r.required "pruned_ratio" (Json.binary? double)
    kind := ← r.optional "source_type" SourceKind.ofJson?
    reranked := ← r.required "reranker_used" Json.bool?
    cacheHit := ← r.required "cache_hit" Json.bool?
    elapsedMillis := ← r.required "elapsed_ms" Json.word? }

end PruneStats

/-- What a prune answers. -/
structure PruneResponse where
  id : String
  text : String
  cuts : List Cut
  stats : PruneStats
  warnings : List Warning
  /-- The text came back as it was because it could not be pruned. -/
  gaveBack : Bool
  deriving DecidableEq, Repr

namespace PruneResponse

/-- The JSON form of a response. -/
def toJson (r : PruneResponse) : Json :=
  .obj [("prune_id", .str r.id), ("pruned_text", .str r.text),
    ("annotations", .arr (r.cuts.map Cut.toJson)), ("stats", r.stats.toJson),
    ("warnings", .arr (r.warnings.map Warning.toJson)), ("used_fallback", .bool r.gaveBack)]

/-- The response that a JSON value denotes. -/
def ofJson? (v : Json) : Option PruneResponse := do
  let r ← Record.ofJson? ["prune_id", "pruned_text", "annotations", "stats", "warnings",
    "used_fallback"] v
  return {
    id := ← r.required "prune_id" Json.text?
    text := ← r.required "pruned_text" Json.text?
    cuts := ← r.required "annotations" (Json.list? Cut.ofJson?)
    stats := ← r.required "stats" PruneStats.ofJson?
    warnings := ← r.withDefault "warnings" [] (Json.list? Warning.ofJson?)
    gaveBack := ← r.withDefault "used_fallback" false Json.bool? }

end PruneResponse
end ContextBudget

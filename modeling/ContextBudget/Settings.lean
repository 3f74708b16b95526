import ContextBudget.Compaction
import ContextBudget.Masking.Pass
import ContextBudget.Prune.Pruner
import ContextBudget.Telemetry.Hub

/-!
# Settings

The settings of a pipeline, stage by stage, and how variables of an environment change them. A
variable that cannot be read as a value of its setting is ignored.
-/

namespace ContextBudget

/-- Settings of a stage that can be switched off. -/
structure Toggle (α : Type) where
  enabled : Bool
  config : α
  deriving Repr

/-- How messages are given to the redactor. -/
structure RedactionConfig where
  options : PruneOptions
  /-- Smaller messages are not given to it. -/
  minTokens : Nat
  /-- What the redactor gets on top of its own deadline. -/
  grace : Span
  deriving Repr

/-- The settings where none are given. -/
def RedactionConfig.standard : RedactionConfig := ⟨.standard, 500, .seconds 1⟩

/-- The settings of a pipeline. -/
structure Settings where
  countLimit : Span
  masking : MaskingConfig
  pruner : PrunerConfig
  redaction : Toggle RedactionConfig
  compaction : Toggle CompactionConfig
  /-- Move to a larger model before redacting, if both could help. -/
  preferFallback : Bool
  /-- The margin for an answer where a request names none. -/
  reserved : Nat
  hub : HubConfig
  deriving Repr

/-- The JSON form of a span. -/
def Span.toJson (s : Span) : Json :=
  .obj [("secs", .ofNat s.wholeSeconds), ("nanos", .ofNat s.subNanos)]

/-- The JSON form of a masking pass's settings. -/
def MaskingConfig.toJson (c : MaskingConfig) : Json :=
  .obj [("mask_threshold_tokens", .ofNat c.threshold), ("preview_chars", .ofNat c.previewChars),
    ("fallback_ratio", .float c.fallbackRatio), ("store_timeout", c.storeLimit.toJson)]

/-- The JSON form of a pruner's settings. -/
def PrunerConfig.toJson (c : PrunerConfig) : Json :=
  .obj [("max_input_bytes", .ofNat c.maxBytes), ("max_input_lines", .ofNat c.maxLines),
    ("record_ttl", c.recordLife.toJson), ("max_records", .ofNat c.maxRecords),
    ("keep_score", .float (c.keepScore.convert double)),
    ("max_rerank_lines", .ofNat c.maxRerankLines), ("rerank_timeout", c.rerankLimit.toJson),
    ("rerank_cache_ttl", c.cacheLife.toJson), ("rerank_cache_capacity", .ofNat c.cacheCapacity)]

/-- The JSON form of the redaction's settings. -/
def Toggle.redactionJson (t : Toggle RedactionConfig) : Json :=
  .obj [("enabled", .bool t.enabled), ("options", t.config.options.toJson),
    ("min_message_tokens", .ofNat t.config.minTokens), ("call_grace", t.config.grace.toJson)]

/-- The JSON form of the compaction's settings. -/
def Toggle.compactionJson (t : Toggle CompactionConfig) : Json :=
  .obj [("enabled", .bool t.enabled), ("preserve_count", .ofNat t.config.preserve),
    ("max_summary_chars", .ofNat t.config.summaryChars), ("trigger_ratio", .float t.config.trigger),
    ("timeout", t.config.limit.toJson)]

namespace Settings

/-- The JSON form of the settings. -/
def toJson (s : Settings) : Json :=
  .obj [("count_timeout", s.countLimit.toJson), ("sanitizer", s.masking.toJson),
    ("pruner", s.pruner.toJson), ("redaction", s.redaction.redactionJson),
    ("compaction", s.compaction.compactionJson),
    ("orchestrator", .obj [("prefer_fallback", .bool s.preferFallback),
      ("default_reserved", .ofNat s.reserved)]),
    ("hub", .obj [("backlog_capacity", .ofNat s.hub.backlog),
      ("channel_capacity", .ofNat s.hub.channel)])]

/-- The settings where none are given. -/
def standard : Settings where
  countLimit := .seconds 10
  masking := .standard
  pruner := .standard
  redaction := ⟨true, .standard⟩
  compaction := ⟨true, .standard⟩
  preferFallback := true
  reserved := 4096
  hub := .standard

/-- The variables of an environment. -/
abbrev Environment := String → Option String

/-- A word. -/
def word? (s : String) : Option Nat := Word.read? Word.size s.toList

/-- A truth value. -/
def bool? (s : String) : Option Bool :=
  if s = "true" then some true else if s = "false" then some false else none

/-- A fraction of a whole. -/
def fraction? (s : String) : Option Double :=
  (Binary.read? s.toList).filter PruneOptions.isFraction

/-- The settings with one of them taken from a variable, if the variable has a value that can be
read. Blanks around the value do not count. -/
def overlay {α : Type} (env : Environment) (name : String) (read : String → Option α)
    (put : α → Settings → Settings) (s : Settings) : Settings :=
  match (env name).bind fun text => read (Text.trimmed text) with
  | some value => put value s
  | none => s

/-- The settings with redaction options changed. -/
def withOptions (f : PruneOptions → PruneOptions) (s : Settings) : Settings :=
  { s with redaction := { s.redaction with
      config := { s.redaction.config with options := f s.redaction.config.options } } }

/-- The settings with the compaction's changed. -/
def withCompaction (f : CompactionConfig → CompactionConfig) (s : Settings) : Settings :=
  { s with compaction := { s.compaction with config := f s.compaction.config } }

/-- The settings that an environment gives. -/
def ofEnvironment (env : Environment) : Settings :=
  standard
  |> overlay env "TOKENGATE_MASK_THRESHOLD" word? (fun v s =>
      { s with masking := { s.masking with threshold := v } })
  |> overlay env "TOKENGATE_FALLBACK_RATIO" fraction? (fun v s =>
      { s with masking := { s.masking with fallbackRatio := v } })
  |> overlay env "TOKENGATE_COMPACTION_THRESHOLD" fraction? (fun v =>
      withCompaction fun c => { c with trigger := v })
  |> overlay env "TOKENGATE_PRESERVE_COUNT" word? (fun v =>
      withCompaction fun c => { c with preserve := v })
  |> overlay env "TOKENGATE_COMPACTION_ENABLED" bool? (fun v s =>
      { s with compaction := { s.compaction with enabled := v } })
  |> overlay env "TOKENGATE_MAX_PRUNE_RATIO" fraction? (fun v =>
      withOptions fun o => { o with maxRatio := v })
  |> overlay env "TOKENGATE_MIN_KEEP_LINES" word? (fun v =>
      withOptions fun o => { o with minKeep := v })
  |> overlay env "TOKENGATE_USE_RERANKER" bool? (fun v =>
      withOptions fun o => { o with rerank := v })
  |> overlay env "TOKENGATE_REDACTION_ENABLED" bool? (fun v s =>
      { s with redaction := { s.redaction with enabled := v } })
  |> overlay env "TOKENGATE_REDACTION_TTL_SECS" word? (fun v s =>
      { s with pruner := { s.pruner with recordLife := .seconds v } })
  |> overlay env "TOKENGATE_RERANK_CACHE_TTL_SECS" word? (fun v s =>
      { s with pruner := { s.pruner with cacheLife := .seconds v } })
  |> overlay env "TOKENGATE_HUB_BACKLOG" word? (fun v s =>
      { s with hub := { s.hub with backlog := v } })
  |> overlay env "TOKENGATE_PREFER_FALLBACK" bool? (fun v s => { s with preferFallback := v })
  |> overlay env "TOKENGATE_RESERVED_TOKENS" word? (fun v s => { s with reserved := v })

end Settings
end ContextBudget

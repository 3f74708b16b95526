import ContextBudget.Failure
import ContextBudget.Json.Decode

/-!
# Prune requests

What a caller asks for: a text, a hint at what it is needed for, the kind of text it is, and the
bounds within which lines may go.
-/

namespace ContextBudget

/-- The kind of a text, which decides which of its lines are structure. -/
inductive SourceKind where
  | code
  | log
  | document
  /-- To be told from the text. -/
  | auto
  deriving DecidableEq, Repr

namespace SourceKind

/-- The name of a kind. -/
def text : SourceKind → String
  | code => "code"
  | log => "log"
  | document => "document"
  | auto => "auto"

/-- All kinds. -/
def all : List SourceKind := [code, log, document, auto]

/-- The kind that a JSON value names. -/
def ofJson? : Json → Option SourceKind := Json.choice? (all.map fun k => (k.text, k))

end SourceKind

/-- The options of one prune. -/
structure PruneOptions where
  /-- The largest fraction of the lines that may go. -/
  maxRatio : Double
  /-- How many lines have to stay. -/
  minKeep : Nat
  /-- The deadline in milliseconds; zero has already passed. -/
  timeoutMillis : Nat
  /-- Put its number before each line that stays. -/
  numberLines : Bool
  /-- Put a marker where a block of lines went. -/
  markers : Bool
  /-- Score the lines with the reranker if there is one. -/
  rerank : Bool
  deriving DecidableEq, Repr

namespace PruneOptions

/-- The options where none are given. -/
def standard : PruneOptions := ⟨.ofRatio 1 2, 5, 2000, false, true, false⟩

/-- The deadline. -/
def timeout (o : PruneOptions) : Span := .millis o.timeoutMillis

/-- Whether a ratio is a fraction of a whole. -/
def isFraction (x : Double) : Bool := x.isFinite && Binary.le 0 x && Binary.le x 1

/-- What is wrong with the options, if anything is. -/
def fault? (o : PruneOptions) : Option String :=
  if isFraction o.maxRatio then none
  else some ("max_prune_ratio must be within [0, 1], got " ++ o.maxRatio.text)

/-- The JSON form of the options. -/
def toJson (o : PruneOptions) : Json :=
  .obj [("max_prune_ratio", .ofBinary o.maxRatio), ("min_keep_lines", .ofNat o.minKeep),
    ("timeout_ms", .ofNat o.timeoutMillis), ("annotate_lines", .bool o.numberLines),
    ("include_markers", .bool o.markers), ("use_reranker", .bool o.rerank)]

/-- The options that a JSON value denotes; each of them has a default. -/
def ofJson? (v : Json) : Option PruneOptions := do
  let r ← Record.ofJson? ["max_prune_ratio", "min_keep_lines", "timeout_ms", "annotate_lines",
    "include_markers", "use_reranker"] v
  return {
    maxRatio := ← r.withDefault "max_prune_ratio" standard.maxRatio (Json.binary? double)
    minKeep := ← r.withDefault "min_keep_lines" standard.minKeep Json.word?
    timeoutMillis := ← r.withDefault "timeout_ms" standard.timeoutMillis Json.word?
    numberLines := ← r.withDefault "annotate_lines" standard.numberLines Json.bool?
    markers := ← r.withDefault "include_markers" standard.markers Json.bool?
    rerank := ← r.withDefault "use_reranker" standard.rerank Json.bool? }

end PruneOptions

/-- A request to prune a text. -/
structure PruneRequest where
  text : String
  /-- What the text is needed for. -/
  goal : String
  kind : SourceKind
  options : PruneOptions
  deriving DecidableEq, Repr

namespace PruneRequest

/-- The JSON form of a request. -/
def toJson (r : PruneRequest) : Json :=
  .obj [("text", .str r.text), ("goal_hint", .str r.goal), ("source_type", .str r.kind.text),
    ("options", r.options.toJson)]

/-- The request that a JSON value denotes. -/
def ofJson? (v : Json) : Option PruneRequest := do
  let r ← Record.ofJson? ["text", "goal_hint", "source_type", "options"] v
  return {
    text := ← r.required "text" Json.text?
    goal := ← r.withDefault "goal_hint" "" Json.text?
    kind := ← r.withDefault "source_type" .auto SourceKind.ofJson?
    options := ← r.withDefault "options" .standard PruneOptions.ofJson? }

end PruneRequest

/-- Consecutive lines, counted from one, both ends included. -/
structure LineRange where
  first : Nat
  last : Nat
  deriving DecidableEq, Repr

namespace LineRange

/-- The part of a range that lies within a text of `count` lines. -/
def clamp? (r : LineRange) (count : Nat) : Option LineRange :=
  let first := Nat.max r.first 1
  let last := Nat.min r.last count
  if 0 < count ∧ first ≤ last then some ⟨first, last⟩ else none

/-- The JSON form of a range. -/
def toJson (r : LineRange) : Json :=
  .obj [("start_line", .ofNat r.first), ("end_line", .ofNat r.last)]

/-- The range that a JSON value denotes. -/
def ofJson? (v : Json) : Option LineRange := do
  let r ← Record.ofJson? ["start_line", "end_line"] v
  return ⟨← r.required "start_line" Json.word?, ← r.required "end_line" Json.word?⟩

end LineRange

/-- A request for lines as they were before the prune. -/
structure RecoverRequest where
  id : String
  /-- The lines that are wanted; none means all of them. -/
  ranges : List LineRange
  /-- Put its number before each line. -/
  numberLines : Bool
  deriving DecidableEq, Repr

namespace RecoverRequest

/-- The request for the whole text. -/
def all (id : String) : RecoverRequest := ⟨id, [], false⟩

/-- The JSON form of a request. -/
def toJson (r : RecoverRequest) : Json :=
  .obj [("prune_id", .str r.id), ("ranges", .arr (r.ranges.map LineRange.toJson)),
    ("include_line_numbers", .bool r.numberLines)]

/-- The request that a JSON value denotes. -/
def ofJson? (v : Json) : Option RecoverRequest := do
  let r ← Record.ofJson? ["prune_id", "ranges", "include_line_numbers"] v
  return {
    id := ← r.required "prune_id" Json.text?
    ranges := ← r.withDefault "ranges" [] (Json.list? LineRange.ofJson?)
    numberLines := ← r.withDefault "include_line_numbers" false Json.bool? }

end RecoverRequest
end ContextBudget

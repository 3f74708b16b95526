import ContextBudget.Prune.Record
import ContextBudget.Prune.Response
import ContextBudget.Prune.ScoreCache
import ContextBudget.Prune.Selection
import ContextBudget.Service

/-!
# The pruner

A prune checks its options, the size of the text and its deadline, tells the lines apart, scores
them, and takes the lowest away within the bounds of the request. Whatever goes wrong gives the
text back as it was, with a warning; each prune leaves a record under an id of its own.

Scores come from a reranker if the request asks for it and one answers in time; all its failures
are warnings, and the lines are then scored by their relevance to the goal.
-/

namespace ContextBudget

/-- The settings of a pruner. -/
structure PrunerConfig where
  maxBytes : Nat
  maxLines : Nat
  /-- How long a record lives. -/
  recordLife : Span
  maxRecords : Nat
  /-- Lines with this score or a higher one stay. -/
  keepScore : Single
  /-- A text of more lines is not given to the reranker. -/
  maxRerankLines : Nat
  rerankLimit : Span
  cacheLife : Span
  cacheCapacity : Nat
  deriving Repr

/-- The settings where none are given. -/
def PrunerConfig.standard : PrunerConfig where
  maxBytes := 2097152
  maxLines := 50000
  recordLife := .seconds 1800
  maxRecords := 4096
  keepScore := .ofRatio 3 4
  maxRerankLines := 2000
  rerankLimit := .seconds 3
  cacheLife := .seconds 600
  cacheCapacity := 256

/-- Scores lines by their relevance to a goal, one score for each line in order. -/
structure Reranker (σ : Type) where
  name : String
  score : List String → String → StateM σ (Call (List Single))

/-- The time of day and the time that has passed. -/
structure Clock (σ : Type) where
  now : StateM σ Moment
  elapsed : StateM σ Span

/-- A pruner without what it remembers. -/
structure Pruner (σ : Type) where
  config : PrunerConfig
  reranker : Option (Reranker σ)
  clock : Clock σ

/-- What a pruner remembers. -/
structure PrunerState where
  records : RecordStore
  cache : ScoreCache
  /-- The number behind the next id. -/
  next : Nat
  deriving Repr

/-- Why a text is given back as it was. -/
inductive Refusal where
  | invalidOptions (fault : String)
  | tooLarge (detail : String)
  | late
  | tooFewLines (lines keep : Nat)
  | unsound (fault : String)
  deriving DecidableEq, Repr

/-- The warning about a refusal. -/
def Refusal.warning : Refusal → Warning
  | invalidOptions fault => ⟨"invalid_options", fault⟩
  | tooLarge detail => ⟨"input_too_large", detail⟩
  | late => ⟨"timeout", "prune deadline expired"⟩
  | tooFewLines lines keep =>
    ⟨"constraint_unsatisfiable",
      Nat.repr lines ++ " line(s) is fewer than min_keep_lines=" ++ Nat.repr keep⟩
  | unsound fault => ⟨"internal_error", fault⟩

/-- What was chosen to go. -/
structure Chosen where
  mask : List Bool
  kind : SourceKind
  reranked : Bool
  cacheHit : Bool
  deriving Repr

/-- What the reranker gave. -/
structure OutsideScores where
  scores : Option (List Single)
  cacheHit : Bool
  warnings : List Warning

/-- A computation of a pruner. -/
abbrev PrunerM (σ : Type) := StateT PrunerState (StateM σ)

namespace PrunerState

/-- The number behind the first id: a time-ordered id of 128 bits, version seven. -/
def firstNumber : Nat := 0x01900000000070008000000000000000

/-- The memory of a new pruner whose ids count up from a number. -/
def fresh (config : PrunerConfig) (next : Nat) : PrunerState :=
  ⟨.empty config.maxRecords, .empty config.cacheCapacity config.cacheLife, next⟩

end PrunerState

/-- The id that a number stands for. -/
def pruneId (n : Nat) : String := "pr_" ++ hexDigits 32 n

namespace Pruner

variable {σ : Type}

/-- Why a text cannot be pruned whatever the time, if there is a reason. -/
def refusal? (config : PrunerConfig) (request : PruneRequest) (lines : Nat) : Option Refusal :=
  let bytes := request.text.utf8ByteSize
  match request.options.fault? with
  | some fault => some (.invalidOptions fault)
  | none =>
    if config.maxBytes < bytes then
      some (.tooLarge (Nat.repr bytes ++ " bytes exceeds max_input_bytes="
        ++ Nat.repr config.maxBytes))
    else if config.maxLines < lines then
      some (.tooLarge (Nat.repr lines ++ " lines exceeds max_input_lines="
        ++ Nat.repr config.maxLines))
    else none

/-- Whether a deadline has passed on one of several looks at the clock. -/
def passed (p : Pruner σ) (deadline : Span) : Nat → PrunerM σ Bool
  | 0 => return false
  | looks + 1 => do
    if deadline ≤ (← p.clock.elapsed) then return true else p.passed deadline looks

/-- What a failed reranker leaves: no scores and a warning. -/
def noScores (detail : String) : OutsideScores := ⟨none, false, [⟨"reranker_failed", detail⟩]⟩

/-- What the answer of a reranker gives for `count` lines. -/
def judge (name : String) (limit : Span) (count : Nat) :
    Option (Except ServiceError (List Single)) → Except String (List Single)
  | none => .error (name ++ " timed out after " ++ limit.text)
  | some (.error e) => .error (name ++ ": " ++ e.message)
  | some (.ok scores) =>
    if scores.length = count then .ok scores
    else .error (name ++ " returned " ++ Nat.repr scores.length ++ " score(s) for "
      ++ Nat.repr count ++ " line(s)")

/-- Scores from the cache or the reranker. -/
def outsideScores (p : Pruner σ) (request : PruneRequest) (lines : List String)
    (kind : SourceKind) (deadline : Span) : PrunerM σ OutsideScores := do
  let count := lines.length
  match p.reranker with
  | none => return noScores "no reranker configured"
  | some reranker =>
    if p.config.maxRerankLines < count then
      return noScores (Nat.repr count ++ " lines exceeds max_rerank_lines="
        ++ Nat.repr p.config.maxRerankLines)
    let key := ScoreKey.of request.text request.goal (kind.text ++ ":" ++ Nat.repr count)
    let (found, cache) := (← get).cache.get key (← p.clock.elapsed)
    modify fun s => { s with cache }
    match found with
    | some scores => return ⟨some scores, true, []⟩
    | none =>
      let limit := p.config.rerankLimit.min (deadline.sub (← p.clock.elapsed))
      let reply := (← reranker.score lines request.goal).within limit
      match judge reranker.name limit count reply with
      | .error detail => return noScores detail
      | .ok scores =>
        let now ← p.clock.elapsed
        modify fun s => { s with cache := s.cache.put key scores now }
        return ⟨some scores, false, []⟩

/-- The mask of a text whose lines have scores. -/
def maskOf (config : PrunerConfig) (options : PruneOptions) (scores : List (Option Single))
    (most : Nat) : List Bool :=
  let mask := Selection.mask scores.length (Selection.chosen config.keepScore scores most)
  if options.markers then Selection.keepSingles false mask else mask

/-- How often the clock is looked at while `count` lines are scored. -/
def looks (count : Nat) : Nat := 1 + (count + 511) / 512

/-- Chooses the lines that go, or tells why none can; the warnings come with either. -/
def choose (p : Pruner σ) (request : PruneRequest) (lines : List String) (deadline : Span) :
    PrunerM σ (List Warning × Except Refusal Chosen) := do
  let options := request.options
  let count := lines.length
  match refusal? p.config request count with
  | some refusal => return ([], .error refusal)
  | none =>
    if ← p.passed deadline 1 then return ([], .error .late)
    if count < options.minKeep then
      return ([], .error (.tooFewLines count options.minKeep))
    let kind := request.kind.resolve lines
    let classes := classify kind lines
    if ← p.passed deadline 1 then return ([], .error .late)
    let most := Selection.quota options count
    if most = 0 then return ([], .ok ⟨List.replicate count false, kind, false, false⟩)
    let outside ←
      if options.rerank then p.outsideScores request lines kind deadline
      else pure ⟨none, false, []⟩
    if ← p.passed deadline (looks count) then return (outside.warnings, .error .late)
    let scores := Selection.scores lines classes (termsOf request.goal) outside.scores
    let mask := maskOf p.config options scores most
    return (outside.warnings, .ok ⟨mask, kind, outside.scores.isSome, outside.cacheHit⟩)

/-- The time that has passed since a start, in milliseconds. -/
def millisSince (p : Pruner σ) (start : Span) : PrunerM σ Nat := do
  return Nat.min (((← p.clock.elapsed).sub start).nanos / 1000000) Word.last

/-- Leaves a record of a text. -/
def leaveRecord (p : Pruner σ) (id : String) (whole : Lines) (kept : List Nat)
    (cuts : List Cut) : PrunerM σ Unit := do
  let now ← p.clock.now
  modify fun s => { s with
    records := s.records.insert ⟨id, whole, kept, cuts, now, p.config.recordLife⟩ now }

/-- Gives a text back as it was, under an id. -/
def giveBack (p : Pruner σ) (id : String) (text : String) (warnings : List Warning)
    (start : Span) : PrunerM σ PruneResponse := do
  let whole := Lines.ofText text
  let count := whole.lines.length
  p.leaveRecord id whole (List.range' 1 count) []
  return {
    id, text, cuts := [], warnings, gaveBack := true
    stats := {
      total := count, kept := count, pruned := 0, prunedRatio := 0, kind := none
      reranked := false, cacheHit := false, elapsedMillis := ← p.millisSince start } }

/-- An id that was not given before. -/
def newId : PrunerM σ String := do
  let s ← get
  set { s with next := s.next + 1 }
  return pruneId s.next

/-- Prunes a text. -/
def prune (p : Pruner σ) (request : PruneRequest) : PrunerM σ PruneResponse := do
  let start ← p.clock.elapsed
  let deadline := start + request.options.timeout
  let id ← newId
  let whole := Lines.ofText request.text
  let lines := whole.lines
  let options := request.options
  match ← p.choose request lines deadline with
  | (warnings, .error refusal) => p.giveBack id request.text (warnings ++ [refusal.warning]) start
  | (warnings, .ok chosen) =>
    match Selection.fault? options chosen.mask with
    | some fault =>
      p.giveBack id request.text (warnings ++ [(Refusal.unsound fault).warning]) start
    | none =>
      if ← p.passed deadline 1 then
        p.giveBack id request.text (warnings ++ [Refusal.late.warning]) start
      else
        let mask := chosen.mask
        let cuts := Selection.cuts id lines mask
        let count := lines.length
        let left := Selection.outline options count 1 cuts (lines.zip mask)
        let gone := Selection.goneCount mask
        p.leaveRecord id whole (Selection.kept mask) cuts
        return {
          id, text := Lines.text ⟨left, whole.closed⟩, cuts, warnings, gaveBack := false
          stats := {
            total := count, kept := count - gone, pruned := gone
            prunedRatio := Selection.ratio gone count, kind := some chosen.kind
            reranked := chosen.reranked, cacheHit := chosen.cacheHit
            elapsedMillis := ← p.millisSince start } }

/-- Records a text that could not be pruned at all, under a new id. -/
def passThrough (p : Pruner σ) (text : String) (warning : Warning) : PrunerM σ PruneResponse := do
  let id ← newId
  p.giveBack id text [warning] (← p.clock.elapsed)

/-- The full lines that a request wants. -/
def recover (p : Pruner σ) (request : RecoverRequest) :
    PrunerM σ (Except BudgetError String) := do
  let now ← p.clock.now
  return ((← get).records.get request.id now).map fun r => r.recover request

end Pruner
end ContextBudget

import ContextBudget.Run.Event
import ContextBudget.Run.Phase
import ContextBudget.Settings

/-!
# The pipeline

A run fits a conversation into the budget of its model. It counts the tokens, masks tool output,
redacts large messages and compacts the middle, in this order, and stops as soon as the
conversation fits. Once in a run it may move to a larger model, and then counts again.

Only a token counter that fails ends a run early; every other failure is a warning on the event
of its stage. A conversation that does not fit in the end is not a failure. The sums of a run are
those of a machine that does not check for overflow; `Pipeline.checked` is a run on one that does.
-/

namespace ContextBudget

/-- Prunes messages, and recovers what it pruned. -/
structure Redactor (σ : Type) where
  prune : PruneRequest → StateM σ (Pending PruneResponse)
  recover : RecoverRequest → StateM σ (Except BudgetError String)

/-- A pipeline and the services that it uses. -/
structure Pipeline (σ : Type) where
  settings : Settings
  counters : List (String × TokenCounter σ)
  keeper : HandleKeeper σ
  redactor : Redactor σ
  summarizer : Option (Summarizer σ)
  catalog : Catalog
  /-- Takes each event as soon as its stage has ended. -/
  emit : Event → StateM σ Unit
  now : StateM σ Moment

/-- A conversation to fit. -/
structure RunRequest where
  session : String
  model : String
  messages : Conversation
  /-- In place of the catalog's limit. -/
  limit : Option Nat
  /-- In place of the catalog's family. -/
  family : Option String
  /-- In place of the settings' margin. -/
  reserved : Option Nat
  deriving Repr

/-- The request that a JSON value denotes. -/
def RunRequest.ofJson? (v : Json) : Option RunRequest := do
  let r ← Record.ofJson? ["session_id", "model", "messages", "limit", "family", "reserved"] v
  return {
    session := ← r.required "session_id" Json.text?
    model := ← r.required "model" Json.text?
    messages := ← r.required "messages" (Json.list? Message.ofJson?)
    limit := ← r.withDefault "limit" none (Record.nullable Json.word?)
    family := ← r.withDefault "family" none (Record.nullable Json.text?)
    reserved := ← r.withDefault "reserved" none (Record.nullable Json.word?) }

/-- A run in progress. -/
structure Run where
  session : String
  model : Model
  budget : Budget
  messages : Conversation
  tally : Tally
  /-- The tokens that were counted first. -/
  initial : Option Nat
  events : List Event
  handles : List Handle
  pruneIds : List String
  /-- The places of the messages that the redactor was given. -/
  attempted : List Nat
  restarts : Nat
  /-- The model that was left first. -/
  fallbackFrom : Option String
  /-- A larger model was found and is to be tried after redaction. -/
  deferred : Bool
  deriving Repr

/-- What a run gives. -/
structure RunResult where
  session : String
  model : String
  limit : Nat
  messages : Conversation
  budget : Budget
  handles : List Handle
  pruneIds : List String
  events : List Event
  fits : Bool
  fallbackFrom : Option String
  deriving Repr

/-- The JSON form of what a run gives. -/
def RunResult.toJson (r : RunResult) : Json :=
  .obj [("session_id", .str r.session), ("model", .str r.model), ("limit", .ofNat r.limit),
    ("fits", .bool r.fits), ("fallback_from", .ofText? r.fallbackFrom),
    ("tokens", .ofNat r.budget.usedTokens), ("budget", r.budget.toJson),
    ("conversation", Message.listJson r.messages), ("handles", .arr (r.handles.map Handle.toJson)),
    ("prune_ids", .ofTexts r.pruneIds), ("stages", .ofTexts (r.events.map (·.stage.text))),
    ("events", .arr (r.events.map Event.toJson))]

namespace Run

/-- A run at its start. -/
def begin (request : RunRequest) (model : Model) (reserved : Nat) : Run where
  session := request.session
  model := model
  budget := .new model.limit reserved
  messages := request.messages
  tally := .empty
  initial := none
  events := []
  handles := []
  pruneIds := []
  attempted := []
  restarts := 0
  fallbackFrom := none
  deferred := false

/-- The tokens of the conversation. -/
def tokens (r : Run) : Nat := r.tally.total

/-- Whether the conversation fits. -/
def signal (r : Run) : Signal := if r.budget.fits then .fits else .overBudget

/-- The run with another tally, which the budget follows. -/
def withTally (r : Run) (tally : Tally) : Run :=
  { r with tally, budget := r.budget.withUsed tally.totals }

/-- What a run gives at its end. -/
def result (r : Run) : RunResult where
  session := r.session
  model := r.model.name
  limit := r.budget.limit
  messages := r.messages
  budget := r.budget
  handles := r.handles
  pruneIds := r.pruneIds
  events := r.events
  fits := r.budget.fits
  fallbackFrom := r.fallbackFrom

/-- What the redactor is told that a text is needed for: the latest message of the user. -/
def goal (messages : Conversation) : String :=
  match messages.reverse.find? fun m => m.role == .user && !m.opensAsSummary with
  | some m => Text.excerpt m.content 500
  | none => ""

/-- Whether the message at a place may be given to the redactor. -/
def isCandidate (r : Run) (minTokens : Nat) (m : Message) (index : Nat) : Bool :=
  !m.isSystem && !m.isMasked && !m.opensAsSummary && !r.attempted.contains index
    && r.tally.entries[index]?.any fun e => e.category != .memory && decide (minTokens ≤ e.tokens)

/-- The places of the messages that may be given to the redactor, the largest first. -/
def candidates (r : Run) (minTokens : Nat) : List Nat :=
  let places := (r.messages.zipIdx.filter fun p => r.isCandidate minTokens p.1 p.2).map (·.2)
  places.mergeSort fun i j =>
    let a := r.tally.tokensAt i
    let b := r.tally.tokensAt j
    decide (b < a) || (a == b && decide (i ≤ j))

end Run

/-- What a redaction has done so far. -/
structure Redacted where
  run : Run
  warnings : List Warning
  /-- The places of the messages that were reduced. -/
  reduced : List Nat
  pruneIds : List String

namespace Pipeline

variable {σ : Type}

/-- How often a run may move to a larger model. -/
def maxRestarts : Nat := 1

/-- The counters with their limit. -/
def tokenizers (p : Pipeline σ) : Tokenizers σ := ⟨p.counters, p.settings.countLimit⟩

/-- What the masking passes of a run use. -/
def masking (p : Pipeline σ) : Masking σ := ⟨p.tokenizers, p.keeper, p.now, p.settings.masking⟩

/-- The model that a request means. A model that the catalog does not list needs a limit and a
family of its own. -/
def resolve (p : Pipeline σ) (request : RunRequest) : Except BudgetError Model :=
  match p.catalog.find? request.model, request.family, request.limit with
  | some known, family, limit =>
    .ok { known with family := family.getD known.family, limit := limit.getD known.limit }
  | none, some family, some limit => .ok ⟨request.model, family, limit⟩
  | none, _, _ => .error (.modelUnknown request.model)

/-- Emits the event of a stage for the run as it is now. -/
def record (p : Pipeline σ) (r : Run) (stage : Stage) (before : Nat) (outcome : Outcome)
    (detail : Json) (warnings : List Warning) : StateM σ Run := do
  let event : Event := {
    stage, outcome, detail, warnings
    session := r.session
    time := ← p.now
    tokensBefore := before
    tokensAfter := r.tokens
    model := r.model.name
    limit := r.budget.limit
    reserved := r.budget.reserved }
  p.emit event
  return { r with events := r.events ++ [event] }

/-- The failure of a stage, after an event that tells of it. -/
def abort {α : Type} (p : Pipeline σ) (r : Run) (stage : Stage) (e : BudgetError) :
    BudgetM σ α := do
  let _ ← p.record r stage r.tokens .degraded .null [e.warning]
  throw e

/-- Counts the conversation. -/
def account (p : Pipeline σ) (r : Run) : BudgetM σ (Signal × Run) := do
  let before := r.tokens
  match ← ExceptT.lift (p.tokenizers.count r.model.family r.messages).run with
  | .error e => p.abort r .account e
  | .ok tally =>
    let r := r.withTally tally
    let r := { r with initial := some (r.initial.getD r.tokens) }
    let signal := r.signal
    let outcome := if signal = .fits then .fits else .overBudget
    let detail := .obj [("by_category", r.budget.used.toJson), ("pass", .ofNat (r.restarts + 1))]
    return (signal, ← p.record r .account before outcome detail [])

/-- Moves to a larger model. -/
def fallBack (p : Pipeline σ) (r : Run) (move : Fallback) : StateM σ Run :=
  match p.catalog.find? move.target with
  | none => return r
  | some target =>
    let r := { r with
      fallbackFrom := r.fallbackFrom.or (some move.source)
      model := target
      budget := r.budget.withLimit target.limit
      restarts := r.restarts + 1
      deferred := false }
    p.record r .fallback r.tokens .fallbackRequested move.toJson []

/-- Masks tool output, and moves to a larger model if that comes first. -/
def sanitize (p : Pipeline σ) (r : Run) : BudgetM σ (Signal × Run) := do
  let before := r.tokens
  let catalog := if r.restarts < maxRestarts then some p.catalog else none
  let (masked, move) ← p.masking.pass r.model r.messages r.tally r.budget catalog
  let detail := .obj [("handles", .ofTexts (masked.handles.map (·.id))),
    ("fallback", (move.map Fallback.toJson).getD .null)]
  let outcome := Outcome.of (!masked.handles.isEmpty) masked.warnings
  let r := { r with messages := masked.messages }.withTally masked.tally
  let r := { r with handles := r.handles ++ masked.handles }
  let r ← p.record r .sanitize before outcome detail masked.warnings
  match r.signal, move with
  | .overBudget, some move =>
    if p.settings.preferFallback then return (.fallbackRequested, ← p.fallBack r move)
    else return (.overBudget, { r with deferred := true })
  | signal, _ => return (signal, r)

/-- The warning about a redactor that did not answer in time. -/
def notRedacted (index : Nat) (limit : Span) : Warning :=
  ⟨"timeout", "message " ++ Nat.repr index ++ ": redactor did not answer within " ++ limit.text⟩

/-- Gives one message to the redactor, and puts what is left of it in its place. -/
def redactOne (p : Pipeline σ) (goal : String) (limit : Span) (done : Redacted) (index : Nat) :
    BudgetM σ Redacted := do
  let r := { done.run with attempted := done.run.attempted ++ [index] }
  let done := { done with run := r }
  match r.messages[index]? with
  | none => return done
  | some m =>
    let request : PruneRequest := ⟨m.content, goal, .auto, p.settings.redaction.config.options⟩
    match (← p.redactor.prune request).within limit with
    | none => return { done with warnings := done.warnings ++ [notRedacted index limit] }
    | some response =>
      let done := { done with warnings := done.warnings ++ response.warnings }
      if response.gaveBack || response.text == m.content then return done
      let replacement := m.withContent response.text
      let entry ← p.tokenizers.countMessage r.model.family replacement
      let r := r.withTally (r.tally.replace index entry)
      return { done with
        run := { r with messages := r.messages.set index replacement }
        reduced := done.reduced ++ [index]
        pruneIds := done.pruneIds ++ [response.id] }

/-- Gives messages to the redactor until the conversation fits. -/
def redactEach (p : Pipeline σ) (goal : String) (limit : Span) (done : Redacted) :
    List Nat → BudgetM σ Redacted
  | [] => return done
  | index :: rest => do
    if done.run.budget.fits then return done
    p.redactEach goal limit (← p.redactOne goal limit done index) rest

/-- Moves to a larger model after redaction, if one was found before and is still needed. -/
def afterRedaction (p : Pipeline σ) (r : Run) : StateM σ (Signal × Run) :=
  if r.budget.fits || !r.deferred || decide (maxRestarts ≤ r.restarts) then return (r.signal, r)
  else
    match p.catalog.move? r.model.name (Word.add r.budget.usedTokens r.budget.reserved) with
    | none => return (r.signal, r)
    | some move => return (.fallbackRequested, ← p.fallBack r move)

/-- Redacts large messages. -/
def redact (p : Pipeline σ) (r : Run) : BudgetM σ (Signal × Run) := do
  let before := r.tokens
  let redaction := p.settings.redaction
  let candidates := if redaction.enabled then r.candidates redaction.config.minTokens else []
  if candidates.isEmpty then
    let reason := if redaction.enabled then "no_candidates" else "disabled"
    let r ← p.record r .redact before .skipped (.obj [("reason", .str reason)]) []
    p.afterRedaction r
  else
    let limit := redaction.config.options.timeout + redaction.config.grace
    let done ← p.redactEach (Run.goal r.messages) limit ⟨r, [], [], []⟩ candidates
    let outcome := Outcome.of (!done.reduced.isEmpty) done.warnings
    let detail := .obj [("messages", .arr (done.reduced.map .ofNat)),
      ("prune_ids", .ofTexts done.pruneIds)]
    let r ← p.record done.run .redact before outcome detail done.warnings
    p.afterRedaction { r with pruneIds := r.pruneIds ++ done.pruneIds }

/-- Why the conversation is not compacted, if there is a reason. -/
def skipReason? (p : Pipeline σ) (r : Run) : Option String :=
  if !p.settings.compaction.enabled then some "disabled"
  else if p.summarizer.isNone then some "no_summarizer"
  else if !r.budget.exceeds p.settings.compaction.config.trigger then some "below_trigger"
  else none

/-- Compacts the conversation. -/
def compact (p : Pipeline σ) (r : Run) : BudgetM σ (Signal × Run) := do
  let before := r.tokens
  match p.skipReason? r, p.summarizer with
  | none, some summarize =>
    let config := p.settings.compaction.config
    let c ← Compaction.compact p.tokenizers summarize config r.model.family r.messages r.tally
    let gone := r.messages.length + 1 - c.messages.length
    let detail := .obj [("summarized_messages", .ofNat (if c.reduced then gone else 0)),
      ("preserved_messages", .ofNat c.preserved.length)]
    let r := { r with messages := c.messages }.withTally c.tally
    let r ← p.record r .compact before (.of c.reduced c.warnings) detail c.warnings
    return (r.signal, r)
  | reason, _ =>
    let detail := .obj [("reason", .ofText? reason)]
    let r ← p.record r .compact before .skipped detail []
    return (r.signal, r)

/-- What a phase does. -/
def step (p : Pipeline σ) (phase : Phase) (r : Run) : BudgetM σ (Signal × Run) :=
  match phase with
  | .start => return (.overBudget, r)
  | .account => p.account r
  | .sanitize => p.sanitize r
  | .redact => p.redact r
  | .compact => p.compact r
  | .done => return (.fits, r)

/-- Goes through the phases until the last one, at most `fuel` of them. -/
def drive (p : Pipeline σ) : Nat → Phase → Run → BudgetM σ Run
  | 0, _, r => return r
  | fuel + 1, phase, r => do
    if phase = .done then return r
    let (signal, r) ← p.step phase r
    p.drive fuel (phase.next signal) r

/-- More phases than a run goes through: four in each of its passes, the start and the end. -/
def maxPhases : Nat := 4 * (maxRestarts + 1) + 2

/-- Emits the verdict. -/
def finish (p : Pipeline σ) (r : Run) : StateM σ Run :=
  let outcome := if r.budget.fits then .fits else .overBudget
  let detail := .obj [("fallback_from", .ofText? r.fallbackFrom),
    ("handles", .ofNat r.handles.length), ("prune_ids", .ofTexts r.pruneIds),
    ("overage", .ofNat r.budget.overage)]
  p.record r .done (r.initial.getD 0) outcome detail []

/-- Fits a conversation into its model's budget. -/
def run (p : Pipeline σ) (request : RunRequest) : BudgetM σ RunResult := do
  let model ← liftExcept (p.resolve request)
  let start := Run.begin request model (request.reserved.getD p.settings.reserved)
  let r ← p.drive maxPhases .start start
  return (← p.finish r).result
where
  liftExcept {α : Type} : Except BudgetError α → BudgetM σ α
    | .ok a => return a
    | .error e => throw e

end Pipeline

/-- A pruner as the redactor of a pipeline whose services hold its memory. Its own deadline is
never later than the pipeline's, so it counts as answering at once. -/
def Pruner.redactor {σ : Type} (p : Pruner σ) (memory : σ → PrunerState)
    (remember : σ → PrunerState → σ) : Redactor σ where
  prune request := do
    let (response, state) ← (p.prune request).run (memory (← get))
    modify fun s => remember s state
    return .done .zero response
  recover request := do
    let (text, state) ← (p.recover request).run (memory (← get))
    modify fun s => remember s state
    return text

end ContextBudget

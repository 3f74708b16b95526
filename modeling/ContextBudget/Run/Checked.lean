import ContextBudget.Run.Pipeline

/-!
# Runs that check for overflow

A machine that checks for overflow does what another one does, until an operation has no word as its
result: there it stops, without an answer. So for each part of a run the operations are listed that
it performs on words, from the state of the services in which it begins. Differences that stop at
zero are meant to and are left out, but for the one that takes a replaced count off.

- `Pipeline.operations`: the operations of a run.
- `Pipeline.checked`: what a run gives on a machine that checks for overflow.
-/

namespace ContextBudget

/-- The operations that follow a computation which goes through, from its value and the state of the
services after it. None follow one that fails. -/
def BudgetM.thereafter {σ α : Type} (m : BudgetM σ α) (w : σ)
    (operations : α → σ → List Operation) : List Operation :=
  match m.run.run w with
  | (.ok a, w') => operations a w'
  | (.error _, _) => []

open BudgetM

/-! ## Tallies -/

/-- The operations of `Totals.total`. -/
def Totals.totalOperations (t : Totals) : List Operation :=
  [.sum t.memory t.tool, .sum (Word.add t.memory t.tool) t.chat]

namespace Tally

/-- The operations that charge totals with entries, one after another. -/
def chargeOperations : Totals → List Entry → List Operation
  | _, [] => []
  | t, e :: rest =>
    .sum (t.get e.category) e.tokens :: chargeOperations (t.charge e.category e.tokens) rest

/-- The operations of `Tally.replace`. -/
def replaceOperations (t : Tally) (index : Nat) (e : Entry) : List Operation :=
  match t.entries[index]? with
  | none => []
  | some old =>
    [.remainder (t.totals.get old.category) old.tokens,
      .sum ((t.totals.credit old.category old.tokens).get e.category) e.tokens]

/-- The operations that replace the count at a place by the one that another tally has there. -/
def adoptOperations (t now : Tally) (index : Nat) : List Operation :=
  (now.entries[index]?.map (t.replaceOperations index)).getD []

end Tally

namespace Tokenizers

variable {σ : Type}

/-- The counts of texts that come before a count stops. -/
def countsUntil (counter : TokenCounter σ) (left : Span) : List String → StateM σ (List Nat)
  | [] => return []
  | text :: rest => do
    match ← counter text with
    | .never => return []
    | .done after value =>
      if left < after then return []
      else match value with
        | .error _ => return []
        | .ok n => return n :: (← countsUntil counter (left.sub after) rest)

/-- The operations of `Tokenizers.count`: each count is added as soon as it comes. -/
def countOperations (t : Tokenizers σ) (family : String) (messages : Conversation) (w : σ) :
    List Operation :=
  match t.get? family with
  | none => []
  | some counter =>
    let ns := ((countsUntil counter t.limit (messages.map (·.content))).run w).1
    Tally.chargeOperations .zero (ns.zipWith (fun n m => ⟨n, m.category⟩) messages)

end Tokenizers

/-! ## Masking and compaction -/

namespace Masking

variable {σ : Type}

/-- The operations of masking messages, one after another. -/
def maskOperations (k : Masking σ) (family : String) :
    Masked → List (Message × Nat) → σ → List Operation
  | _, [], _ => []
  | done, (m, index) :: rest, w =>
    thereafter (k.maskOne family done m index) w fun next w' =>
      (if next.handles.length = done.handles.length then []
        else done.tally.adoptOperations next.tally index) ++ k.maskOperations family next rest w'

/-- The operations of `Masking.pass`. -/
def passOperations (k : Masking σ) (model : Model) (messages : Conversation) (tally : Tally)
    (budget : Budget) (catalog : Option Catalog) (w : σ) : List Operation :=
  k.maskOperations model.family ⟨messages, tally, [], []⟩ messages.zipIdx w ++
    thereafter (k.mask model.family messages tally) w fun masked _ =>
      let after := budget.withUsed masked.tally.totals
      after.used.totalOperations ++
        if after.exceeds k.config.fallbackRatio ∧ catalog.isSome then
          [.sum after.usedTokens after.reserved]
        else []

end Masking

namespace Compaction

variable {σ : Type}

/-- The operations of `Compaction.tailStart`. -/
def tailStartOperations (messages : Conversation) (preserve : Nat) : List Operation :=
  if preserve = 0 then []
  else
    let exchanges := messages.zipIdx.reverse.filter fun p => p.1.role == .user && !p.1.isSummary
    .difference preserve 1 :: match exchanges[preserve - 1]? with
      | some _ => []
      | none => [.product 2 preserve, .difference (Word.mul 2 preserve) 1]

/-- The operations of `Compaction.compact`. With a usable summary, they begin with the number of
messages that there will be. -/
def compactOperations (tokenizers : Tokenizers σ) (summarize : Summarizer σ)
    (config : CompactionConfig) (family : String) (messages : Conversation) (tally : Tally)
    (w : σ) : List Operation :=
  tailStartOperations messages config.preserve ++
    thereafter (compact tokenizers summarize config family messages tally) w fun c _ =>
      let gone := (middle messages (tailStart messages config.preserve)).length
      let stay := Operation.difference messages.length gone
      (if c.reduced then
        [stay, .sum stay.value 1] ++ Tally.chargeOperations .zero c.tally.entries
      else []) ++ tally.totals.totalOperations ++ c.tally.totals.totalOperations

end Compaction

/-! ## Stages -/

namespace Pipeline

variable {σ : Type}

/-- The operations of counting the conversation. -/
def accountOperations (p : Pipeline σ) (r : Run) (w : σ) : List Operation :=
  p.tokenizers.countOperations r.model.family r.messages w ++
    thereafter (p.tokenizers.count r.model.family r.messages) w fun _ _ => [.sum r.restarts 1]

/-- The operations of masking tool output. -/
def sanitizeOperations (p : Pipeline σ) (r : Run) (w : σ) : List Operation :=
  p.masking.passOperations r.model r.messages r.tally r.budget
    (if r.restarts < maxRestarts then some p.catalog else none) w

/-- The operations of giving messages to the redactor until the conversation fits. -/
def redactEachOperations (p : Pipeline σ) (goal : String) (limit : Span) :
    Redacted → List Nat → σ → List Operation
  | _, [], _ => []
  | done, index :: rest, w =>
    done.run.budget.used.totalOperations ++
      if done.run.budget.fits then []
      else thereafter (p.redactOne goal limit done index) w fun next w' =>
        (if next.reduced.length = done.reduced.length then []
          else done.run.tally.adoptOperations next.run.tally index) ++
        p.redactEachOperations goal limit next rest w'

/-- The operations of redacting large messages, and of looking for a larger model after it. -/
def redactOperations (p : Pipeline σ) (r : Run) (w : σ) : List Operation :=
  let redaction := p.settings.redaction
  let candidates := if redaction.enabled then r.candidates redaction.config.minTokens else []
  let limit := redaction.config.options.timeout + redaction.config.grace
  p.redactEachOperations (Run.goal r.messages) limit ⟨r, [], [], []⟩ candidates w ++
    thereafter (p.redactEach (Run.goal r.messages) limit ⟨r, [], [], []⟩ candidates) w fun done _ =>
      let r := done.run
      r.budget.used.totalOperations ++
        if r.budget.fits || !r.deferred || decide (maxRestarts ≤ r.restarts) then []
        else [.sum r.budget.usedTokens r.budget.reserved]

/-- The operations of compacting the conversation. They end with the number of messages that were
summarized. -/
def compactOperations (p : Pipeline σ) (r : Run) (w : σ) : List Operation :=
  match p.skipReason? r, p.summarizer with
  | none, some summarize =>
    let config := p.settings.compaction.config
    Compaction.compactOperations p.tokenizers summarize config r.model.family r.messages r.tally
        w ++
      thereafter (Compaction.compact p.tokenizers summarize config r.model.family r.messages
        r.tally) w fun c _ =>
          let all := Operation.sum r.messages.length c.reduced.toNat
          [all, .difference all.value c.messages.length]
  | _, _ => []

/-- The operations of telling how many tokens a run has, and whether it fits. -/
def verdictOperations (r : Run) : List Operation :=
  r.tally.totals.totalOperations ++ r.budget.used.totalOperations

/-- The operations of a stage, given those of its work. A stage tells the tokens before and after
it, and counts a move to a larger model. -/
def stageOperations (stage : Run → BudgetM σ (Signal × Run)) (work : List Operation) (r : Run)
    (w : σ) : List Operation :=
  r.tally.totals.totalOperations ++ work ++ thereafter (stage r) w fun (_, r') _ =>
    (if r'.restarts = r.restarts then [] else [.sum r.restarts 1]) ++ verdictOperations r'

/-- The operations of a phase. -/
def stepOperations (p : Pipeline σ) (phase : Phase) (r : Run) (w : σ) : List Operation :=
  match phase with
  | .start | .done => []
  | .account => stageOperations p.account (p.accountOperations r w) r w
  | .sanitize => stageOperations p.sanitize (p.sanitizeOperations r w) r w
  | .redact => stageOperations p.redact (p.redactOperations r w) r w
  | .compact => stageOperations p.compact (p.compactOperations r w) r w

/-- The operations of going through the phases until the last one, and of the verdict there. -/
def driveOperations (p : Pipeline σ) : Nat → Phase → Run → σ → List Operation
  | 0, _, _, _ => []
  | fuel + 1, phase, r, w =>
    if phase = .done then verdictOperations r
    else
      p.stepOperations phase r w ++ thereafter (p.step phase r) w fun (signal, r') w' =>
        p.driveOperations fuel (phase.next signal) r' w'

/-- The operations of a run. -/
def operations (p : Pipeline σ) (request : RunRequest) (w : σ) : List Operation :=
  match p.resolve request with
  | .error _ => []
  | .ok model =>
    p.driveOperations maxPhases .start
      (.begin request model (request.reserved.getD p.settings.reserved)) w

/-- What a run gives on a machine that checks for overflow: what it gives on another one if no
operation overflows, and nothing otherwise. -/
def checked (p : Pipeline σ) (request : RunRequest) (w : σ) :
    Option (Except BudgetError RunResult × σ) :=
  if (p.operations request w).any Operation.overflows then none
  else some ((p.run request).run.run w)

end Pipeline
end ContextBudget

import ContextBudget.Proofs.Run.Stages
import ContextBudget.Proofs.Tokens.Counting

/-!
# What a stage leaves as it is

A stage changes a view of the services' state only through a service that it calls.

- `mask_keeps`, `redactEach_keeps`, `compact_keeps`: the work of a stage keeps a view that the
  services which it calls keep.
- `Quiet`: a view that no service changes but the redactor and the summarizer.
- `account_keeps`, `sanitize_keeps`, `redact_keeps`, `compact_keeps`: the stages keep such a view, if
  the service that they call keeps it, too.
-/

namespace ContextBudget

open BudgetM

variable {σ γ : Type} {view : σ → γ}

namespace Masking

variable {k : Masking σ}

theorem maskOne_keeps (hcounters : k.tokenizers.Leaves view)
    (hstore : ∀ handle, KeepsCall view (k.keeper.store handle)) (hnow : KeepsCall view k.now)
    (family : String) (done : Masked) (m : Message) (index : Nat) :
    Keeps view (k.maskOne family done m index) := by
  simp only [maskOne]
  split
  · exact .pure _
  · refine .bind (.lift hnow) fun time => .bind (.lift (hstore _)) fun reply => ?_
    split
    · exact .pure _
    · exact .pure _
    · exact .bind (Tokenizers.countMessage_keeps hcounters _ _) fun _ => .pure _

theorem mask_keeps (hcounters : k.tokenizers.Leaves view)
    (hstore : ∀ handle, KeepsCall view (k.keeper.store handle)) (hnow : KeepsCall view k.now)
    (family : String) (messages : Conversation) (tally : Tally) :
    Keeps view (k.mask family messages tally) := by
  refine Keeps.foldlM (fun done q => ?_) _ _
  exact maskOne_keeps hcounters hstore hnow family done q.1 q.2

end Masking

theorem Compaction.compact_keeps {tokenizers : Tokenizers σ} {summarize : Summarizer σ}
    (hcounters : tokenizers.Leaves view)
    (hsummarize : ∀ text most, KeepsCall view (summarize text most)) (config : CompactionConfig)
    (family : String) (messages : Conversation) (tally : Tally) :
    Keeps view (compact tokenizers summarize config family messages tally) := by
  simp only [compact]
  split
  · exact .pure _
  · refine .bind (.lift (hsummarize _ _)) fun reply => ?_
    split
    · exact .pure _
    · exact .bind (Tokenizers.countMessage_keeps hcounters _ _) fun _ => .pure _

namespace Pipeline

variable {p : Pipeline σ}

theorem redactOne_keeps (hcounters : p.tokenizers.Leaves view)
    (hprune : ∀ request, KeepsCall view (p.redactor.prune request)) (goal : String) (limit : Span)
    (done : Redacted) (index : Nat) : Keeps view (p.redactOne goal limit done index) := by
  simp only [redactOne]
  split
  · exact .pure _
  · refine .bind (.lift (hprune _)) fun reply => ?_
    split
    · exact .pure _
    · split
      · exact .pure _
      · exact .bind (Tokenizers.countMessage_keeps hcounters _ _) fun _ => .pure _

theorem redactEach_keeps (hcounters : p.tokenizers.Leaves view)
    (hprune : ∀ request, KeepsCall view (p.redactor.prune request)) (goal : String) (limit : Span)
    (done : Redacted) (places : List Nat) : Keeps view (p.redactEach goal limit done places) := by
  induction places generalizing done with
  | nil => exact .pure _
  | cons index rest ih =>
    rw [redactEach]
    split
    · exact .pure _
    · exact .bind (redactOne_keeps hcounters hprune goal limit done index) fun done => ih done

/-! ## Stages -/

/-- A view of the services' state that no service changes but the redactor and the summarizer. -/
structure Quiet (p : Pipeline σ) (view : σ → γ) : Prop where
  counter : p.tokenizers.Leaves view
  store : ∀ handle, KeepsCall view (p.keeper.store handle)
  now : KeepsCall view p.now
  emit : ∀ e, KeepsCall view (p.emit e)

theorem Emitted.keeps {e : Event} {w w' : σ} (h : p.Emitted e w w') (hquiet : p.Quiet view) :
    view w' = view w := by
  obtain ⟨w₁, hnow, hemit⟩ := h
  exact ((hquiet.emit e).ran hemit).trans (hquiet.now.ran hnow)

theorem record_keeps (hquiet : p.Quiet view) (r : Run) (stage : Stage) (before : Nat)
    (outcome : Outcome) (detail : Json) (warnings : List Warning) :
    KeepsCall view (p.record r stage before outcome detail warnings) :=
  .bind hquiet.now fun _ => .bind (hquiet.emit _) fun _ => .pure _

theorem fallBack_keeps (hquiet : p.Quiet view) (r : Run) (move : Fallback) :
    KeepsCall view (p.fallBack r move) := by
  unfold fallBack
  split
  · exact .pure _
  · exact record_keeps hquiet _ _ _ _ _ _

theorem account_keeps (hquiet : p.Quiet view) (r : Run) : Keeps view (p.account r) := by
  simp only [account]
  refine .bind (fun w => Tokenizers.count_keeps hquiet.counter _ _ w) fun counted => ?_
  cases counted with
  | error e => exact .bind (.lift (record_keeps hquiet _ _ _ _ _ _)) fun _ => .throw _
  | ok tally => exact .bind (.lift (record_keeps hquiet _ _ _ _ _ _)) fun _ => .pure _

theorem maskStage_keeps (hquiet : p.Quiet view) (r : Run) : Keeps view (p.maskStage r) := by
  refine .bind (.bind ?_ fun _ => .pure _) fun _ =>
    .bind (.lift (record_keeps hquiet _ _ _ _ _ _)) fun _ => .pure _
  exact Masking.mask_keeps hquiet.counter hquiet.store hquiet.now _ _ _

theorem afterMasking_keeps (hquiet : p.Quiet view) (r : Run) (move : Option Fallback) :
    KeepsCall view (p.afterMasking r move) := by
  unfold afterMasking
  split
  · split
    · exact .bind (fallBack_keeps hquiet _ _) fun _ => .pure _
    · exact .pure _
  · exact .pure _

theorem sanitize_keeps (hquiet : p.Quiet view) (r : Run) : Keeps view (p.sanitize r) := by
  rw [sanitize_eq]
  exact .bind (maskStage_keeps hquiet r) fun next => .lift (afterMasking_keeps hquiet _ _)

theorem afterRedaction_keeps (hquiet : p.Quiet view) (r : Run) :
    KeepsCall view (p.afterRedaction r) := by
  unfold afterRedaction
  split
  · exact .pure _
  · split
    · exact .pure _
    · exact .bind (fallBack_keeps hquiet _ _) fun _ => .pure _

/-- A redaction keeps what the redactor keeps, too. -/
theorem redact_keeps (hquiet : p.Quiet view)
    (hprune : ∀ request, KeepsCall view (p.redactor.prune request)) (r : Run) :
    Keeps view (p.redact r) := by
  rw [redact_eq]
  refine .bind ?_ fun _ => .lift (afterRedaction_keeps hquiet _)
  simp only [redactStage]
  change Keeps view (if (p.places r).isEmpty then _ else _)
  split
  · exact .lift (record_keeps hquiet _ _ _ _ _ _)
  · exact .bind (redactEach_keeps hquiet.counter hprune _ _ _ _) fun _ =>
      .bind (.lift (record_keeps hquiet _ _ _ _ _ _)) fun _ => .pure _

/-- A compaction keeps what the summarizer keeps, too. -/
theorem compact_keeps (hquiet : p.Quiet view)
    (hsummarize : ∀ summarize, p.summarizer = some summarize →
      ∀ text most, KeepsCall view (summarize text most)) (r : Run) :
    Keeps view (p.compact r) := by
  simp only [compact]
  split
  · rename_i summarize _ given
    refine .bind ?_ fun _ => .bind (.lift (record_keeps hquiet _ _ _ _ _ _)) fun _ => .pure _
    exact Compaction.compact_keeps hquiet.counter (hsummarize summarize given) _ _ _ _
  · exact .bind (.lift (record_keeps hquiet _ _ _ _ _ _)) fun _ => .pure _

end Pipeline
end ContextBudget

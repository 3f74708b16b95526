import ContextBudget.Catalog
import ContextBudget.Masking.Handle
import ContextBudget.Tokens.Budget
import ContextBudget.Tokens.Counter

/-!
# Masking passes

A pass goes over the messages once and masks the tool output that counts more tokens than a
threshold: the output is stored, and a placeholder takes its place. An output that cannot be
stored in time stays, with a warning. After that the pass looks for a larger model if too much of
the limit is still used.
-/

namespace ContextBudget

/-- The settings of a masking pass. -/
structure MaskingConfig where
  /-- Tool output of more tokens is masked. -/
  threshold : Nat
  /-- How many characters of the output stay in its placeholder. -/
  previewChars : Nat
  /-- A larger model is looked for above this fraction of the limit. -/
  fallbackRatio : Double
  /-- How long storing one handle may take. -/
  storeLimit : Span
  deriving Repr

/-- The settings where none are given. -/
def MaskingConfig.standard : MaskingConfig := ⟨1000, 200, .ofRatio 9 10, .seconds 5⟩

/-- A move to a larger model. -/
structure Fallback where
  source : String
  target : String
  targetLimit : Nat
  deriving DecidableEq, Repr

/-- The JSON form of a move. -/
def Fallback.toJson (f : Fallback) : Json :=
  .obj [("from_model", .str f.source), ("target_model", .str f.target),
    ("target_limit", .ofNat f.targetLimit)]

/-- The move from a named model when `required` tokens are needed. -/
def Catalog.move? (c : Catalog) (name : String) (required : Nat) : Option Fallback :=
  (c.fallback? name required).map fun m => ⟨name, m.name, m.limit⟩

/-- What masking passes use. -/
structure Masking (σ : Type) where
  tokenizers : Tokenizers σ
  keeper : HandleKeeper σ
  /-- The time at which handles are made. -/
  now : StateM σ Moment
  config : MaskingConfig

/-- A conversation in the middle of a pass. -/
structure Masked where
  messages : Conversation
  tally : Tally
  /-- The handles that were made, in the order of the conversation. -/
  handles : List Handle
  warnings : List Warning
  deriving Repr

/-- The JSON form of a conversation in the middle of a pass. -/
def Masked.toJson (m : Masked) : Json :=
  .obj [("conversation", Message.listJson m.messages), ("count", m.tally.toJson),
    ("masked", .ofNat m.handles.length), ("handles", .arr (m.handles.map Handle.toJson)),
    ("warnings", .arr (m.warnings.map Warning.toJson))]

namespace Masking

variable {σ : Type}

/-- Whether the pass masks a message of so many tokens. -/
def applies (config : MaskingConfig) (m : Message) (tokens : Nat) : Bool :=
  m.role == .tool && !m.isMasked && decide (config.threshold < tokens)

/-- The warning about an output that could not be stored. -/
def notStored (index : Nat) (detail : String) : Warning :=
  ⟨"storage_failure", "message " ++ Nat.repr index ++ ": " ++ detail⟩

/-- Masks the message at an index if the pass applies to it. -/
def maskOne (k : Masking σ) (family : String) (done : Masked) (m : Message) (index : Nat) :
    BudgetM σ Masked := do
  let tokens := done.tally.tokensAt index
  if !applies k.config m tokens then return done
  let handle := Handle.of m.content (m.callId.getD "tool") k.config.previewChars (← k.now)
  match (← k.keeper.store handle).within k.config.storeLimit with
  | none =>
    let detail := "store timed out after " ++ k.config.storeLimit.text
    return { done with warnings := done.warnings ++ [notStored index detail] }
  | some (.error e) =>
    return { done with warnings := done.warnings ++ [notStored index e.message] }
  | some (.ok id) =>
    let handle := { handle with id }
    let replacement := m.withContent (handle.placeholder tokens)
    let entry ← k.tokenizers.countMessage family replacement
    return { done with
      messages := done.messages.set index replacement
      tally := done.tally.replace index entry
      handles := done.handles ++ [handle] }

/-- Masks the messages of a conversation from the first to the last. -/
def mask (k : Masking σ) (family : String) (messages : Conversation) (tally : Tally) :
    BudgetM σ Masked :=
  messages.zipIdx.foldlM (fun done (m, i) => k.maskOne family done m i) ⟨messages, tally, [], []⟩

/-- One pass over a conversation for a model. The larger model is looked for in `catalog`, if
there is one. -/
def pass (k : Masking σ) (model : Model) (messages : Conversation) (tally : Tally)
    (budget : Budget) (catalog : Option Catalog) : BudgetM σ (Masked × Option Fallback) := do
  let masked ← k.mask model.family messages tally
  let after := budget.withUsed masked.tally.totals
  let move :=
    if after.exceeds k.config.fallbackRatio then
      catalog.bind fun c => c.move? model.name (Word.add after.usedTokens after.reserved)
    else none
  return (masked, move)

end Masking
end ContextBudget

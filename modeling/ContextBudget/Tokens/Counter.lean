import ContextBudget.Service
import ContextBudget.Text.Quoted
import ContextBudget.Tokens.Tally

/-!
# Counting tokens

Each family of models has its own token counter. Counts are exact or there are none: a family
without a counter, a counter that fails, and a count that takes too long are failures, and no
count is estimated in their place. One limit holds for a whole conversation.
-/

namespace ContextBudget

/-- Counts the tokens of a text. -/
abbrev TokenCounter (σ : Type) := String → StateM σ (Call Nat)

/-- The counters by family. A later counter of a family replaces an earlier one. -/
structure Tokenizers (σ : Type) where
  counters : List (String × TokenCounter σ)
  /-- How long one count may take. -/
  limit : Span

namespace Tokenizers

variable {σ : Type}

/-- The counter of a family. -/
def get? (t : Tokenizers σ) (family : String) : Option (TokenCounter σ) :=
  (t.counters.reverse.find? (·.1 == family)).map (·.2)

/-- The families that have a counter, in order. -/
def families (t : Tokenizers σ) : List String :=
  (t.counters.map (·.1)).eraseDups.mergeSort fun a b => decide (a ≤ b)

/-- A description of the counters: the families that have one. -/
def describe (t : Tokenizers σ) : String :=
  let families := "[" ++ ", ".intercalate (t.families.map Text.quoted) ++ "]"
  Text.described "TokenizerRegistry" [("families", families)] false

/-- Why a count stopped: the counter failed or time ran out. -/
inductive Stop where
  | failed (error : ServiceError)
  | late

/-- Counts texts one after another while `left` lasts. -/
def countTexts (counter : TokenCounter σ) (left : Span) :
    List String → StateM σ (Except Stop (List Nat))
  | [] => return .ok []
  | text :: rest => do
    match ← counter text with
    | .never => return .error .late
    | .done after value =>
      if left < after then return .error .late
      else match value with
        | .error e => return .error (.failed e)
        | .ok n => return (← countTexts counter (left.sub after) rest).map (n :: ·)

/-- The failure of a family's count. -/
def failure (t : Tokenizers σ) (family : String) : Stop → BudgetError
  | .failed e => .tokenizerUnavailable family e.message
  | .late => .tokenizerUnavailable family ("counting timed out after " ++ t.limit.text)

/-- The counts of texts, within the limit for all of them. -/
def counts (t : Tokenizers σ) (family : String) (texts : List String) : BudgetM σ (List Nat) :=
  match t.get? family with
  | none => throw (.tokenizerUnavailable family "no tokenizer registered")
  | some counter => do
    match ← countTexts counter t.limit texts with
    | .ok ns => return ns
    | .error stop => throw (t.failure family stop)

/-- The count of one text. -/
def countText (t : Tokenizers σ) (family text : String) : BudgetM σ Nat := do
  return (← t.counts family [text]).headD 0

/-- The count and category of one message. -/
def countMessage (t : Tokenizers σ) (family : String) (m : Message) : BudgetM σ Entry := do
  return ⟨← t.countText family m.content, m.category⟩

/-- The tally of a conversation. -/
def count (t : Tokenizers σ) (family : String) (messages : Conversation) : BudgetM σ Tally := do
  let ns ← t.counts family (messages.map (·.content))
  return .ofEntries (ns.zipWith (fun n m => ⟨n, m.category⟩) messages)

end Tokenizers
end ContextBudget

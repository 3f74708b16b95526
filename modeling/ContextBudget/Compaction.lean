import ContextBudget.Service
import ContextBudget.Text.Blank
import ContextBudget.Tokens.Counter

/-!
# Compaction

System messages stay, and so does a tail of recent exchanges; the other messages, the *middle*,
give way to one summary at the place of the first of them. Without a usable summary the
conversation stays as it is: leaving the middle out would lose it.
-/

namespace ContextBudget

/-- The settings of a compaction. -/
structure CompactionConfig where
  /-- How many recent exchanges are kept. -/
  preserve : Nat
  /-- The longest summary, in characters. -/
  summaryChars : Nat
  /-- Compaction takes place above this fraction of the limit. -/
  trigger : Double
  /-- How long the summary may take. -/
  limit : Span
  deriving Repr

/-- The settings where none are given. -/
def CompactionConfig.standard : CompactionConfig := ⟨2, 8000, .ofRatio 85 100, .seconds 60⟩

/-- Condenses a text to at most so many characters. -/
abbrev Summarizer (σ : Type) := String → Nat → StateM σ (Call String)

/-- What every summary opens with. -/
def summaryOpening : String := "[Context summary of"

/-- Whether the content is that of a summary. -/
def Message.opensAsSummary (m : Message) : Bool := Text.opensWith m.content summaryOpening

/-- Whether a message is a summary. -/
def Message.isSummary (m : Message) : Bool := m.role == .user && m.opensAsSummary

/-- A conversation after a compaction. -/
structure Compacted where
  messages : Conversation
  /-- The messages that were kept. -/
  preserved : Conversation
  summary : Option Message
  tally : Tally
  tokensBefore : Nat
  warnings : List Warning
  deriving Repr

namespace Compaction

variable {σ : Type}

/-- The index of the first message of the tail: the `preserve`-th user message from the end that
is no summary. If there are fewer, the tail is the last `2 * preserve` messages that are not the
system's. -/
def tailStart (messages : Conversation) (preserve : Nat) : Nat :=
  if preserve = 0 then messages.length
  else
    let latest := messages.zipIdx.reverse
    let exchanges := latest.filter fun p => p.1.role == .user && !p.1.isSummary
    match exchanges[preserve - 1]? with
    | some p => p.2
    | none =>
      let others := latest.filter fun p => !p.1.isSystem
      match others[Word.pred (Word.mul 2 preserve)]? with
      | some p => p.2
      | none => 0

/-- Messages as the text that is summarized. -/
def render (messages : Conversation) : String :=
  messages.foldl (fun text m => text ++ "[" ++ m.role.text ++ "]: " ++ m.content ++ "\n\n") ""

/-- Whether the message at an index is of the middle. -/
def inMiddle (messages : Conversation) (tail index : Nat) : Bool :=
  decide (index < tail) && messages[index]?.any (!·.isSystem)

/-- The messages of the middle, with their indices. -/
def middle (messages : Conversation) (tail : Nat) : List (Message × Nat) :=
  messages.zipIdx.filter fun p => inMiddle messages tail p.2

/-- A conversation that was left as it is. -/
def unchanged (messages : Conversation) (tally : Tally) (warnings : List Warning) : Compacted :=
  ⟨messages, messages, none, tally, tally.total, warnings⟩

/-- The text of a summary that came in time, or the warning that stands for it. -/
def usable (limit : Span) : Option (Except ServiceError String) → Except Warning String
  | none => .error ⟨"timeout", "summarizer timed out after " ++ limit.text⟩
  | some (.error e) => .error ⟨"summarizer_failed", e.message⟩
  | some (.ok s) =>
    if Text.isBlankText s then .error ⟨"summarizer_failed", "empty summary"⟩ else .ok s

/-- The message that takes the place of `count` messages, the first of which is `first`. -/
def summaryMessage (config : CompactionConfig) (first : Message) (count : Nat) (text : String) :
    Message :=
  let body := Text.excerpt (Text.trimmed text) config.summaryChars
  let content := summaryOpening ++ " " ++ Nat.repr count ++ " earlier messages]\n" ++ body
  { Message.of .user content with index := first.index }

/-- A list without the items at some indices, with `item` put before the index `first`. -/
def splice {α : Type} (items : List α) (gone : Nat → Bool) (first : Nat) (item : α) : List α :=
  items.zipIdx.flatMap fun p =>
    (if p.2 = first then [item] else []) ++ (if gone p.2 then [] else [p.1])

/-- Compacts a conversation whose tally is given. -/
def compact (tokenizers : Tokenizers σ) (summarize : Summarizer σ) (config : CompactionConfig)
    (family : String) (messages : Conversation) (tally : Tally) : BudgetM σ Compacted := do
  let tail := tailStart messages config.preserve
  let middle := middle messages tail
  match middle with
  | [] => return unchanged messages tally []
  | (first, start) :: _ =>
    let text := render (middle.map (·.1))
    match usable config.limit ((← summarize text config.summaryChars).within config.limit) with
    | .error w => return unchanged messages tally [w]
    | .ok text =>
      let summary := summaryMessage config first middle.length text
      let entry ← tokenizers.countMessage family summary
      let gone := inMiddle messages tail
      return {
        messages := splice messages gone start summary
        preserved := (messages.zipIdx.filter fun p => !gone p.2).map (·.1)
        summary := some summary
        tally := .ofEntries (splice tally.entries gone start entry)
        tokensBefore := tally.total
        warnings := [] }

end Compaction

namespace Compacted

/-- Whether a summary took the place of messages. -/
def reduced (c : Compacted) : Bool := c.summary.isSome

/-- The JSON form of a conversation after a compaction. -/
def toJson (c : Compacted) : Json :=
  .obj [("conversation", Message.listJson c.messages),
    ("preserved", Message.listJson c.preserved),
    ("summary", (c.summary.map Message.toJson).getD .null), ("count", c.tally.toJson),
    ("tokens_before", .ofNat c.tokensBefore), ("tokens_after", .ofNat c.tally.total),
    ("compacted", .bool c.reduced), ("warnings", .arr (c.warnings.map Warning.toJson))]

end Compacted

end ContextBudget

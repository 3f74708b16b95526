import ContextBudget.Marker
import ContextBudget.Word

/-!
# Token tallies

A tally holds the token count of each message of a conversation and the totals by category. The
totals are kept along with the counts: replacing a message takes its old count off and adds the
new one.
-/

namespace ContextBudget

/-- Tokens by category. -/
structure Totals where
  memory : Nat
  tool : Nat
  chat : Nat
  deriving DecidableEq, Repr, Inhabited

namespace Totals

/-- No tokens. -/
def zero : Totals := ⟨0, 0, 0⟩

/-- All tokens. -/
def total (t : Totals) : Nat := Word.add (Word.add t.memory t.tool) t.chat

/-- The tokens of one category. -/
def get (t : Totals) : Category → Nat
  | .memory => t.memory
  | .tool => t.tool
  | .chat => t.chat

/-- The totals with one category changed. -/
def update (t : Totals) (f : Nat → Nat) : Category → Totals
  | .memory => { t with memory := f t.memory }
  | .tool => { t with tool := f t.tool }
  | .chat => { t with chat := f t.chat }

/-- The totals with a message's tokens added. -/
def charge (t : Totals) (c : Category) (tokens : Nat) : Totals := t.update (Word.add · tokens) c

/-- The totals with a message's tokens taken off, none below zero. -/
def credit (t : Totals) (c : Category) (tokens : Nat) : Totals := t.update (· - tokens) c

/-- The JSON form of the totals. -/
def toJson (t : Totals) : Json :=
  .obj [("memory", .ofNat t.memory), ("tool", .ofNat t.tool), ("chat", .ofNat t.chat)]

/-- The totals that a JSON value denotes. -/
def ofJson? (v : Json) : Option Totals := do
  let r ← Record.ofJson? ["memory", "tool", "chat"] v
  return {
    memory := ← r.required "memory" Json.word?
    tool := ← r.required "tool" Json.word?
    chat := ← r.required "chat" Json.word? }

end Totals

/-- The count of one message. -/
structure Entry where
  tokens : Nat
  category : Category
  deriving DecidableEq, Repr

/-- The JSON form of an entry. -/
def Entry.toJson (e : Entry) : Json := .arr [.ofNat e.tokens, .str e.category.text]

/-- The entry that a JSON value denotes. -/
def Entry.ofJson? (v : Json) : Option Entry := do
  let .arr [tokens, category] := v | none
  let categories := [Category.memory, .tool, .chat].map fun c => (c.text, c)
  return ⟨← tokens.word?, ← category.choice? categories⟩

/-- The counts of a conversation; the `i`-th entry is about the `i`-th message. -/
structure Tally where
  entries : List Entry
  totals : Totals
  deriving DecidableEq, Repr

namespace Tally

/-- The tally of no messages. -/
def empty : Tally := ⟨[], .zero⟩

/-- All tokens of the conversation. -/
def total (t : Tally) : Nat := t.totals.total

/-- The tokens of a message, none past the end. -/
def tokensAt (t : Tally) (index : Nat) : Nat := (t.entries[index]?.map Entry.tokens).getD 0

/-- The tally with one more message at the end. -/
def push (t : Tally) (e : Entry) : Tally := ⟨t.entries ++ [e], t.totals.charge e.category e.tokens⟩

/-- The totals of entries, added up from the first. -/
def totalsOf (entries : List Entry) : Totals :=
  entries.foldl (fun t e => t.charge e.category e.tokens) .zero

/-- The tally of entries. -/
def ofEntries (entries : List Entry) : Tally := ⟨entries, totalsOf entries⟩

/-- The tally with the count of a message replaced; nothing changes past the end. -/
def replace (t : Tally) (index : Nat) (e : Entry) : Tally :=
  match t.entries[index]? with
  | none => t
  | some old =>
    ⟨t.entries.set index e,
      (t.totals.credit old.category old.tokens).charge e.category e.tokens⟩

/-- The tally with its totals added up anew. -/
def recounted (t : Tally) : Tally := ofEntries t.entries

/-- The JSON form of a tally. -/
def toJson (t : Tally) : Json :=
  .obj [("per_message", .arr (t.entries.map Entry.toJson)), ("totals", t.totals.toJson),
    ("total", .ofNat t.total)]

end Tally
end ContextBudget

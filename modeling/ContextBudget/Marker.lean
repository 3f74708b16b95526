import ContextBudget.Message
import ContextBudget.Text.Blank

/-!
# Memory markers

A message that carries recalled memory is charged to memory and not to its role. Three kinds of
marker show it; they are looked for in a fixed order, without regard to the case of ASCII letters.
-/

namespace ContextBudget

/-- A kind of memory marker. -/
inductive Marker where
  /-- A tag such as `<memory>`. -/
  | inlineTag
  /-- A line that opens with a label such as `[memory]`. -/
  | bracketBlock
  /-- A call of a memory tool. -/
  | functionCall
  deriving DecidableEq, Repr

namespace Marker

/-- The kinds in the order in which they are looked for. -/
def all : List Marker := [inlineTag, bracketBlock, functionCall]

/-- The name of a kind. -/
def text : Marker → String
  | inlineTag => "inline_tag"
  | bracketBlock => "bracket_block"
  | functionCall => "function_call"

/-- The spellings of a kind. -/
def spellings : Marker → List String
  | inlineTag => ["<memory>", "<memory ", "<memories>", "<long_term_memory>"]
  | bracketBlock =>
    ["[memory]", "[memory:", "[[memory]]", "[long-term memory]", "[recalled memory]"]
  | functionCall =>
    ["save_memory(", "recall_memory(", "memory.recall(", "memory.store(", "memory.search("]

/-- Whether a text in small letters carries the marker: a label opens a line, the other kinds
stand anywhere. -/
def marksLowered (m : Marker) (cs : List Char) : Bool :=
  match m with
  | bracketBlock =>
    (Text.split '\n' cs).any fun line =>
      m.spellings.any fun s => s.toList.isPrefixOf (Text.trimLeft line)
  | _ => m.spellings.any fun s => Text.occursIn s.toList cs

/-- Whether a text carries the marker. -/
def marks (m : Marker) (text : String) : Bool := m.marksLowered (Text.lowerAscii text.toList)

/-- The first kind of marker in a text. -/
def find? (text : String) : Option Marker :=
  let cs := Text.lowerAscii text.toList
  all.find? fun m => m.marksLowered cs

end Marker

/-- What the tokens of a message are charged to. -/
inductive Category where
  | memory
  | tool
  | chat
  deriving DecidableEq, Repr

/-- The name of a category. -/
def Category.text : Category → String
  | memory => "memory"
  | tool => "tool"
  | chat => "chat"

/-- Memory comes before the role; what is neither memory nor tool output is chat. -/
def Message.category (m : Message) : Category :=
  if (Marker.find? m.content).isSome then .memory
  else if m.role = .tool then .tool
  else .chat

end ContextBudget

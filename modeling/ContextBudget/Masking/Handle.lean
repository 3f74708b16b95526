import ContextBudget.Message
import ContextBudget.Service
import ContextBudget.Text.Digest
import ContextBudget.Time.Moment

/-!
# Handles

Masked tool output is kept in full behind a handle, whose id is derived from the content. A
message that was masked holds a placeholder that names the handle. `HandleStore` is a bounded
store that keeps what it has: storing an id again changes nothing, and a new id at capacity
drops the oldest handle.

- `HandleStore.insert_of_mem`: storing a held id changes nothing.
-/

namespace ContextBudget

/-- What stands behind a masked tool output. -/
structure Handle where
  id : String
  preview : String
  content : String
  /-- The tool call that the content came from, or `tool`. -/
  source : String
  createdAt : Moment
  deriving DecidableEq, Repr

namespace Handle

/-- The handle of a content, with a preview of so many characters. -/
def of (content source : String) (previewChars : Nat) (createdAt : Moment) : Handle :=
  ⟨contentId content, Text.excerpt content previewChars, content, source, createdAt⟩

/-- What every placeholder opens with. -/
def opening : String := "[Masked tool output:"

/-- The text that stands in for a masked output of so many tokens. -/
def placeholder (h : Handle) (tokens : Nat) : String :=
  opening ++ " handle=" ++ h.id ++ " source=" ++ h.source ++ " tokens=" ++ Nat.repr tokens
    ++ "]\nPreview: " ++ h.preview

/-- The JSON form of a handle. -/
def toJson (h : Handle) : Json :=
  .obj [("hash_id", .str h.id), ("preview", .str h.preview), ("full_content", .str h.content),
    ("source_tag", .str h.source), ("created_at", .str h.createdAt.text)]

end Handle

/-- Whether a message holds a placeholder. -/
def Message.isMasked (m : Message) : Bool := Text.opensWith m.content Handle.opening

/-- Handles in the order in which they were stored, at most `capacity` of them and at least one. -/
structure HandleStore where
  handles : List Handle
  capacity : Nat
  deriving Repr

namespace HandleStore

/-- A store without handles. -/
def empty (capacity : Nat) : HandleStore := ⟨[], Nat.max capacity 1⟩

/-- The capacity where none is named. -/
def defaultCapacity : Nat := 1024

/-- How many handles are held. -/
def size (s : HandleStore) : Nat := s.handles.length

/-- The handle of an id. -/
def get? (s : HandleStore) (id : String) : Option Handle := s.handles.find? (·.id == id)

/-- The store with a handle, unless its id is held; the oldest ones make room. -/
def insert (s : HandleStore) (h : Handle) : HandleStore :=
  if (s.get? h.id).isSome then s
  else { s with handles := s.handles.drop (s.size + 1 - s.capacity) ++ [h] }

/-- Stores a handle and tells its id. A handle without id is refused. -/
def store (s : HandleStore) (h : Handle) : Except ServiceError String × HandleStore :=
  if h.id = "" then (.error (.storage "empty hash_id"), s) else (.ok h.id, s.insert h)

theorem insert_of_mem {s : HandleStore} {h : Handle} (held : (s.get? h.id).isSome) :
    s.insert h = s := if_pos held

end HandleStore

/-- A place that keeps handles for a run. -/
structure HandleKeeper (σ : Type) where
  store : Handle → StateM σ (Call String)
  fetch : String → StateM σ (Call (Option Handle))

/-- A store in the state of the services as a keeper. It answers at once. -/
def HandleStore.keeper {σ : Type} (held : σ → HandleStore) (hold : σ → HandleStore → σ) :
    HandleKeeper σ where
  store h := do
    let (result, s) := (held (← get)).store h
    modify fun w => hold w s
    return .done .zero result
  fetch id := return .answer ((held (← get)).get? id)

end ContextBudget

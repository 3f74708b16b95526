import ContextBudget.Json.Value
import ContextBudget.Text.Digest
import ContextBudget.Time.Span

/-!
# The cache of scores

Scores that came from outside are kept for a while, so that the same text need not be scored
again for the same goal. The cache is bounded; at capacity the oldest entry goes.
-/

namespace ContextBudget

/-- What scores are kept under: the id of a text, a goal, and what else the scores depend on. -/
structure ScoreKey where
  textId : String
  goal : String
  context : String
  deriving DecidableEq, Repr

/-- The key of a text. -/
def ScoreKey.of (text goal context : String) : ScoreKey := ⟨contentId text, goal, context⟩

/-- Scores that are kept. -/
structure ScoreEntry where
  key : ScoreKey
  scores : List Single
  /-- When the scores came, on the clock of elapsed time. -/
  since : Span
  deriving Repr

/-- The cache, its entries in the order in which they came. -/
structure ScoreCache where
  entries : List ScoreEntry
  /-- How many entries there may be, at least one. -/
  capacity : Nat
  /-- How long an entry is good. -/
  life : Span
  hits : Nat
  misses : Nat
  deriving Repr

namespace ScoreCache

/-- A cache without entries. -/
def empty (capacity : Nat) (life : Span) : ScoreCache := ⟨[], Nat.max capacity 1, life, 0, 0⟩

/-- How many entries there are. -/
def size (c : ScoreCache) : Nat := c.entries.length

/-- The entries without the one under a key. -/
def without (c : ScoreCache) (key : ScoreKey) : List ScoreEntry := c.entries.filter (·.key != key)

/-- Looks scores up. An entry that is too old goes away, and the look-up misses. -/
def get (c : ScoreCache) (key : ScoreKey) (now : Span) : Option (List Single) × ScoreCache :=
  match c.entries.find? (·.key == key) with
  | some e =>
    if now.sub e.since < c.life then (some e.scores, { c with hits := c.hits + 1 })
    else (none, { c with entries := c.without key, misses := c.misses + 1 })
  | none => (none, { c with misses := c.misses + 1 })

/-- The entry that came first, the earliest in the list if there are several. -/
def oldest? : List ScoreEntry → Option ScoreEntry
  | [] => none
  | e :: rest =>
    match oldest? rest with
    | none => some e
    | some other => if e.since ≤ other.since then some e else some other

/-- The cache with scores under a key. A new key at capacity takes the place of the oldest. -/
def put (c : ScoreCache) (key : ScoreKey) (scores : List Single) (now : Span) : ScoreCache :=
  let full := !c.entries.any (·.key == key) && decide (c.capacity ≤ c.size)
  let c := match oldest? c.entries with
    | some old => if full then { c with entries := c.without old.key } else c
    | none => c
  { c with entries := c.without key ++ [⟨key, scores, now⟩] }

/-- The hits as a fraction of all look-ups. -/
def hitRate (c : ScoreCache) : Double :=
  if c.hits + c.misses = 0 then 0 else Binary.ofNat c.hits / Binary.ofNat (c.hits + c.misses)

/-- The JSON form of a cache's statistics. -/
def statsJson (c : ScoreCache) : Json :=
  .obj [("entries", .ofNat c.size), ("hits", .ofNat c.hits), ("misses", .ofNat c.misses)]

end ScoreCache
end ContextBudget

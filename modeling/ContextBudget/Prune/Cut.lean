import ContextBudget.Json.Decode
import ContextBudget.Prune.LineClass

/-!
# Cuts

A cut is a block of consecutive lines that went. It tells which lines they were and why they
went, and it has a marker: one line of text that can stand in their place.
-/

namespace ContextBudget

/-- Why a block of lines went. -/
inductive CutReason where
  /-- Every line was blank. -/
  | blank
  /-- Every line was blank or repeated an earlier one. -/
  | duplicate
  /-- Some line had little to do with the goal. -/
  | lowRelevance
  deriving DecidableEq, Repr

namespace CutReason

/-- The name of a reason. -/
def text : CutReason → String
  | blank => "blank"
  | duplicate => "duplicate"
  | lowRelevance => "low_relevance"

/-- The reason that a JSON value names. -/
def ofJson? : Json → Option CutReason :=
  Json.choice? ([blank, duplicate, lowRelevance].map fun r => (r.text, r))

/-- The reason for a block, given for each line whether it is blank and whether it repeats an
earlier one. -/
def ofLines (lines : List (Bool × Bool)) : CutReason :=
  if lines.all (·.1) then blank
  else if lines.all fun l => l.1 || l.2 then duplicate
  else lowRelevance

end CutReason

/-- A block of lines that went, counted from one, both ends included. -/
structure Cut where
  first : Nat
  last : Nat
  count : Nat
  reason : CutReason
  marker : String
  deriving DecidableEq, Repr

namespace Cut

/-- The marker of a block that went when a text was pruned under an id. -/
def markerText (id : String) (first last count : Nat) (reason : CutReason) : String :=
  "[... " ++ Nat.repr count ++ " line(s) pruned: " ++ Nat.repr first ++ "-" ++ Nat.repr last
    ++ " (" ++ reason.text ++ "); recover with prune_id=" ++ id ++ " ...]"

/-- The cut of `count` lines after the first `skipped` ones. -/
def of (id : String) (skipped count : Nat) (reason : CutReason) : Cut :=
  let first := skipped + 1
  let last := skipped + count
  ⟨first, last, count, reason, markerText id first last count reason⟩

/-- The JSON form of a cut. -/
def toJson (c : Cut) : Json :=
  .obj [("start_line", .ofNat c.first), ("end_line", .ofNat c.last), ("pruned_count", .ofNat c.count),
    ("reason", .str c.reason.text), ("marker", .str c.marker)]

/-- The cut that a JSON value denotes. -/
def ofJson? (v : Json) : Option Cut := do
  let r ← Record.ofJson? ["start_line", "end_line", "pruned_count", "reason", "marker"] v
  return {
    first := ← r.required "start_line" Json.word?
    last := ← r.required "end_line" Json.word?
    count := ← r.required "pruned_count" Json.word?
    reason := ← r.required "reason" CutReason.ofJson?
    marker := ← r.required "marker" Json.text? }

end Cut
end ContextBudget

import ContextBudget.Number.Binary
import ContextBudget.Text.Blank
import ContextBudget.Text.Letters

/-!
# Relevance

The terms of a text are its longer words in small letters, common words left out. A line is as
relevant to a goal as the fraction of the goal's terms that it mentions, lifted off zero so that
an unrelated line still comes before a blank or repeated one.
-/

namespace ContextBudget

/-- Words that tell nothing about a goal. -/
def commonWords : List String :=
  ["the", "and", "for", "with", "that", "this", "from", "into", "are", "was", "why", "how", "what",
   "does", "not", "fix"]

/-- The terms of a text, each once. -/
def termsOf (text : String) : List String :=
  let words := Text.splitBy (fun c => !(Text.isAlphanumeric c || c == '_')) text.toList
  let long := words.filter fun w => 3 ≤ w.length
  let small := long.map fun w => String.ofList (Text.lowerFrom [] w)
  (small.filter fun w => !commonWords.contains w).eraseDups

namespace Score

/-- The score of a blank line. -/
def blank : Single := .ofNat 0

/-- The score of a line that repeats an earlier one. -/
def repeated : Single := .ofRatio 5 100

/-- The score of a line when there is no goal. -/
def neutral : Single := .ofRatio 1 2

/-- The score of a line that mentions `hits` of `count` terms. -/
def ofHits (hits count : Nat) : Single :=
  .ofRatio 1 10 + .ofRatio 9 10 * .ofNat hits / .ofNat count

/-- The relevance of a line to the terms of a goal. -/
def relevance (goal : List String) (line : String) : Single :=
  if goal.isEmpty then neutral
  else
    let terms := termsOf line
    ofHits (goal.countP fun t => terms.contains t) goal.length

end Score
end ContextBudget

import ContextBudget.Tokens.Tally

/-!
# Budgets

A conversation fits a model when its tokens are at most the model's limit less the margin that is
reserved for the answer.
-/

namespace ContextBudget

/-- The token budget of a run. -/
structure Budget where
  /-- The context window of the model. -/
  limit : Nat
  /-- The margin that is held back for the model's answer. -/
  reserved : Nat
  used : Totals
  deriving DecidableEq, Repr

namespace Budget

/-- A budget of which nothing is used. -/
def new (limit reserved : Nat) : Budget := ⟨limit, reserved, .zero⟩

/-- The same budget with other tokens used. -/
def withUsed (b : Budget) (used : Totals) : Budget := { b with used }

/-- The same budget for a model with another limit. -/
def withLimit (b : Budget) (limit : Nat) : Budget := { b with limit }

/-- The tokens that are used. -/
def usedTokens (b : Budget) : Nat := b.used.total

/-- The tokens that the conversation may use. -/
def available (b : Budget) : Nat := b.limit - b.reserved

/-- Whether the conversation fits. -/
def fits (b : Budget) : Bool := b.usedTokens ≤ b.available

/-- The tokens that have to go before the conversation fits. -/
def overage (b : Budget) : Nat := b.usedTokens - b.available

/-- Whether more than a fraction of the limit is used. -/
def exceeds (b : Budget) (ratio : Double) : Bool :=
  (Binary.ofNat b.limit * ratio).lt (Binary.ofNat b.usedTokens)

/-- The used tokens as a fraction of the limit; a limit of zero is used up. -/
def usage (b : Budget) : Double :=
  if b.limit = 0 then 1 else Binary.ofNat b.usedTokens / Binary.ofNat b.limit

/-- A line for a log, the usage in whole per cent. -/
def describe (b : Budget) : String :=
  "budget: " ++ Nat.repr b.usedTokens ++ " tokens (" ++ (b.usage * 100).wholeText ++ "% of "
    ++ Nat.repr b.limit ++ ", " ++ Nat.repr b.reserved ++ " reserved; memory="
    ++ Nat.repr b.used.memory ++ " tool=" ++ Nat.repr b.used.tool ++ " chat="
    ++ Nat.repr b.used.chat ++ ")"

/-- The JSON form of a budget. -/
def toJson (b : Budget) : Json :=
  .obj [("limit", .ofNat b.limit), ("reserved", .ofNat b.reserved),
    ("used_by_category", b.used.toJson)]

/-- A budget with what follows from it, in JSON. -/
def reportJson (b : Budget) : Json :=
  .obj [("budget", b.toJson), ("used", .ofNat b.usedTokens), ("available", .ofNat b.available),
    ("fits", .bool b.fits), ("overage", .ofNat b.overage), ("usage_pct", .float b.usage),
    ("log", .str b.describe)]

/-- The budget that a JSON value denotes. -/
def ofJson? (v : Json) : Option Budget := do
  let r ← Record.ofJson? ["limit", "reserved", "used_by_category"] v
  return {
    limit := ← r.required "limit" Json.word?
    reserved := ← r.required "reserved" Json.word?
    used := ← r.required "used_by_category" Totals.ofJson? }

theorem fits_iff (b : Budget) : b.fits = true ↔ b.usedTokens ≤ b.limit - b.reserved :=
  decide_eq_true_iff

end Budget
end ContextBudget

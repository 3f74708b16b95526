import ContextBudget.Failure

/-!
# Outside services

A service is a function on a state `σ` that belongs to the world around the library: nothing here
looks into it, so a law about a caller holds for every behaviour of the services it calls. What
one call delivers is `Pending`: a value after some time, or nothing ever. The caller waits for at
most a limit that it names.

- `within_done`: a value that comes in time is the one received.
-/

namespace ContextBudget

/-- What a call delivers and after how long; a call may never end. -/
inductive Pending (α : Type) where
  | done (after : Span) (value : α)
  | never

/-- What a caller that waits for at most `limit` receives. -/
def Pending.within {α : Type} (limit : Span) : Pending α → Option α
  | done after value => if after ≤ limit then some value else none
  | never => none

/-- The same delivery with its value changed. -/
def Pending.map {α β : Type} (f : α → β) : Pending α → Pending β
  | done after value => done after (f value)
  | never => never

/-- The same delivery so much later. -/
def Pending.later {α : Type} (span : Span) : Pending α → Pending α
  | done after value => done (span + after) value
  | never => never

/-- A call to a service that may report a failure. -/
abbrev Call (α : Type) := Pending (Except ServiceError α)

/-- A call that answers at once. -/
def Call.answer {α : Type} (value : α) : Call α := .done .zero (.ok value)

/-- A call that fails at once. -/
def Call.failure {α : Type} (error : ServiceError) : Call α := .done .zero (.error error)

/-- A computation that uses services and may fail. What the services did before a failure is
kept. -/
abbrev BudgetM (σ : Type) := ExceptT BudgetError (StateM σ)

theorem Pending.within_done {α : Type} {limit after : Span} (h : after ≤ limit) (value : α) :
    (Pending.done after value).within limit = some value := if_pos h

end ContextBudget

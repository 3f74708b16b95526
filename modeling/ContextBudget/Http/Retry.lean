import ContextBudget.Number.Decimal
import ContextBudget.Service
import ContextBudget.Text.Quoted

/-!
# Retrying

A call that failed for a passing reason is tried again after a delay that grows from attempt to
attempt. Rejected credentials and malformed replies would fail again, so they are not retried.
-/

namespace ContextBudget

/-- How often and after which delays calls are retried. -/
structure RetryConfig where
  /-- How many calls may follow the first. -/
  retries : Nat
  /-- The delay before the first retry. -/
  initial : Span
  /-- The longest delay. -/
  longest : Span
  multiplier : Double
  /-- Shorten the delays by a factor that depends on the attempt. -/
  jitter : Bool
  deriving Repr

/-- The settings where none are given. -/
def RetryConfig.standard : RetryConfig := ⟨0, .millis 500, .seconds 8, 2, true⟩

namespace Span

/-- A span in seconds: the whole seconds and the fraction are added as binary numbers. -/
def toSeconds (s : Span) : Double :=
  .ofNat s.wholeSeconds + .ofNat s.subNanos / .ofNat 1000000000

/-- The span of a number of seconds to the nearest nanosecond, ties to even. A negative number,
one that is too large and what is no number are no spans. -/
def ofSeconds? : Double → Option Span
  | .finite negative units =>
    let nanos := nearest (units * 1000000000) (Nat.pow 2 double.scale)
    if (negative && units != 0) || decide (Nat.pow 2 64 * 1000000000 ≤ nanos) then none
    else some ⟨nanos⟩
  | _ => none

end Span

namespace RetryConfig

/-- A description of the settings. -/
def describe (c : RetryConfig) : String :=
  Text.described "RetryConfig"
    [("max_retries", Nat.repr c.retries), ("initial_delay", c.initial.text),
      ("max_delay", c.longest.text), ("multiplier", c.multiplier.write .json),
      ("jitter", if c.jitter then "true" else "false")] false

/-- The factor that shortens the delay before a retry. -/
def factor (attempt : Nat) : Double :=
  match attempt % 4 with
  | 0 => .ofRatio 75 100
  | 1 => .ofRatio 90 100
  | 2 => .ofRatio 60 100
  | _ => .ofRatio 85 100

/-- The number of an attempt as a signed 32-bit exponent. -/
def exponent (attempt : Nat) : Int := Int.bmod attempt (Nat.pow 2 32)

/-- The delay before a retry, counted from zero, if there is such a span. -/
def delay? (c : RetryConfig) (attempt : Nat) : Option Span :=
  let base := c.initial.toSeconds * c.multiplier.pow (exponent attempt)
  let capped := base.min c.longest.toSeconds
  Span.ofSeconds? (if c.jitter then capped * factor attempt else capped)

end RetryConfig

/-- Whether another attempt could succeed. -/
def ServiceError.isTransient : ServiceError → Bool
  | throttled _ => true
  | timedOut _ => true
  | transport detail =>
    let lasting := ["HTTP 400", "HTTP 404", "HTTP 422"]
    lasting.all fun s => !Text.occursIn s.toList detail.toList
  | _ => false

/-- Calls until the call succeeds, fails for good, or `left` retries are used up. `attempt` counts
the retries so far. Nothing comes of a delay that is no span. -/
def retrying {σ α : Type} (config : RetryConfig) (sleep : Span → StateM σ Unit)
    (call : StateM σ (Call α)) (attempt : Nat) : Nat → StateM σ (Option (Call α))
  | 0 => some <$> call
  | left + 1 => do
    match ← call with
    | .done after (.error e) =>
      if !e.isTransient then return some (.done after (.error e))
      match config.delay? attempt with
      | none => return none
      | some delay =>
        sleep delay
        return (← retrying config sleep call (attempt + 1) left).map (·.later (after + delay))
    | result => return some result

/-- A call with the retries that the settings allow. -/
def withRetries {σ α : Type} (config : RetryConfig) (sleep : Span → StateM σ Unit)
    (call : StateM σ (Call α)) : StateM σ (Option (Call α)) :=
  retrying config sleep call 0 config.retries

end ContextBudget

/-!
# Phases of a run

A run goes through its phases in a fixed order, each of which reports a signal. Only the signal
that a larger model was chosen leads back, to the phase that counts.
-/

namespace ContextBudget

/-- A phase of a run. -/
inductive Phase where
  | start
  | account
  | sanitize
  | redact
  | compact
  | done
  deriving DecidableEq, Repr

/-- What a phase reports at its end. -/
inductive Signal where
  | fits
  | overBudget
  | fallbackRequested
  deriving DecidableEq, Repr

/-- The signals by name. -/
def Signal.named : List (String × Signal) :=
  [("fits", fits), ("over_budget", overBudget), ("fallback_requested", fallbackRequested)]

namespace Phase

/-- The phase that follows. -/
def next : Phase → Signal → Phase
  | start, _ => account
  | account, .fits => done
  | account, _ => sanitize
  | sanitize, .fits => done
  | sanitize, .overBudget => redact
  | sanitize, .fallbackRequested => account
  | redact, .fits => done
  | redact, .overBudget => compact
  | redact, .fallbackRequested => account
  | compact, _ => done
  | done, _ => done

/-- The name of a phase. -/
def text : Phase → String
  | start => "Start"
  | account => "Account"
  | sanitize => "Sanitize"
  | redact => "Redact"
  | compact => "Compact"
  | done => "Done"

/-- The phases by name. -/
def named : List (String × Phase) :=
  [("start", start), ("account", account), ("sanitize", sanitize), ("redact", redact),
    ("compact", compact), ("done", done)]

/-- The phases that signals lead through. -/
def path (p : Phase) : List Signal → List Phase
  | [] => []
  | s :: rest => p.next s :: (p.next s).path rest

end Phase
end ContextBudget

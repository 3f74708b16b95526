/-!
# Spans of time

A span is a number of nanoseconds. Its text in messages uses the largest unit that is at least
one, with the fraction's trailing zeros left out.
-/

namespace ContextBudget

/-- A length of time. -/
structure Span where
  nanos : Nat
  deriving DecidableEq, Repr, Inhabited

namespace Span

/-- No time at all. -/
def zero : Span := ⟨0⟩

/-- Whole milliseconds. -/
def millis (n : Nat) : Span := ⟨n * 1000000⟩

/-- Whole seconds. -/
def seconds (n : Nat) : Span := ⟨n * 1000000000⟩

/-- The whole seconds of a span. -/
def wholeSeconds (s : Span) : Nat := s.nanos / 1000000000

/-- What a span has beyond its whole seconds, in nanoseconds. -/
def subNanos (s : Span) : Nat := s.nanos % 1000000000

instance : Add Span := ⟨fun a b => ⟨a.nanos + b.nanos⟩⟩

instance : LE Span := ⟨fun a b => a.nanos ≤ b.nanos⟩

instance : LT Span := ⟨fun a b => a.nanos < b.nanos⟩

instance (a b : Span) : Decidable (a ≤ b) := inferInstanceAs (Decidable (a.nanos ≤ b.nanos))

instance (a b : Span) : Decidable (a < b) := inferInstanceAs (Decidable (a.nanos < b.nanos))

/-- The shorter of two spans. -/
def min (a b : Span) : Span := if b < a then b else a

/-- What is left of `a` after `b` has passed. -/
def sub (a b : Span) : Span := ⟨a.nanos - b.nanos⟩

/-- `n` in decimal digits, at least `width` of them. -/
def padded (width n : Nat) : String :=
  let digits := Nat.repr n
  String.ofList (List.replicate (width - digits.length) '0') ++ digits

/-- A fraction of `places` decimal places without its trailing zeros, a point before it. -/
def fraction (places n : Nat) : String :=
  if n = 0 then ""
  else
    let digits := (padded places n).toList
    "." ++ String.ofList (digits.reverse.dropWhile (· == '0')).reverse

/-- The text of a span in messages. -/
def text (s : Span) : String :=
  let n := s.nanos
  if 1000000000 ≤ n then Nat.repr (n / 1000000000) ++ fraction 9 (n % 1000000000) ++ "s"
  else if 1000000 ≤ n then Nat.repr (n / 1000000) ++ fraction 6 (n % 1000000) ++ "ms"
  else if 1000 ≤ n then Nat.repr (n / 1000) ++ fraction 3 (n % 1000) ++ "µs"
  else Nat.repr n ++ "ns"

end Span
end ContextBudget

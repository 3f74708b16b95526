/-!
# Machine words

Token counts, limits and line numbers are 64-bit words, and a word is kept as a `Nat`. A machine
that checks for overflow stops at an operation whose result is no word (`Operation.overflows`). One
that does not goes on with what `Word.add` and its relatives give. So a law about budgets says where
it needs the sums to stay small.
-/

namespace ContextBudget
namespace Word

/-- How many words there are. -/
def size : Nat := Nat.pow 2 64

/-- The largest word. -/
def last : Nat := size - 1

/-- The sum of two words where no overflow is checked: past the last word it starts again from
zero. -/
def add (a b : Nat) : Nat := (a + b) % size

/-- The product of two words where no overflow is checked: its low 64 bits. -/
def mul (a b : Nat) : Nat := (a * b) % size

/-- The word before `a`; the word before zero is the last one. -/
def pred (a : Nat) : Nat := (a + last) % size

theorem add_eq {a b : Nat} (h : a + b < size) : add a b = a + b := Nat.mod_eq_of_lt h

theorem add_lt (a b : Nat) : add a b < size := Nat.mod_lt _ (by decide)

/-- The number that `text` denotes: an optional plus sign and ASCII digits, below `bound`. -/
def read? (bound : Nat) (text : List Char) : Option Nat :=
  let digits := if text.head? = some '+' then text.drop 1 else text
  if digits.isEmpty || !digits.all Char.isDigit then none
  else
    let n := digits.foldl (fun n c => n * 10 + (c.toNat - '0'.toNat)) 0
    if n < bound then some n else none

end Word

/-- What is computed from two words. -/
inductive Operation where
  | sum (a b : Nat)
  | product (a b : Nat)
  | difference (a b : Nat)
  /-- A difference that stops at zero. -/
  | remainder (a b : Nat)
  deriving DecidableEq, Repr

namespace Operation

/-- What a machine gives that does not check for overflow. -/
def value : Operation → Nat
  | sum a b => Word.add a b
  | product a b => Word.mul a b
  | difference a b => (a + (Word.size - b)) % Word.size
  | remainder a b => a - b

/-- Whether a machine that checks for overflow stops here. At a remainder it never does. -/
def overflows : Operation → Bool
  | sum a b => decide (Word.size ≤ a + b)
  | product a b => decide (Word.size ≤ a * b)
  | difference a b => decide (a < b)
  | remainder _ _ => false

end Operation
end ContextBudget

import ContextBudget.Proofs.Tokens.Exact

/-!
# Operations on words

What a machine computes with words is what it would compute with whole numbers, unless the result
is no word. A tally adds, takes off and replaces counts; as long as all counts together are a word,
so is everything that it computes.

- `Operation.Exact`: an operation gives what it is of whole numbers; `sum_exact_iff`,
  `product_exact_iff`, `difference_exact`, `remainder_exact`: when.
- `Exact.overflows_eq`: then it does not overflow.
- `Tally.adds_exact`: counts are added up exactly.
- `AddsUp.takesOff_exact`, `AddsUp.putsIn_exact`: a count is replaced by another one exactly.
- `AddsUp.total_exact`: so are the totals of the categories added up.
-/

namespace ContextBudget
namespace Operation

/-- What the operation is of whole numbers. -/
def whole : Operation → Int
  | sum a b => a + b
  | product a b => a * b
  | difference a b => a - b
  | remainder a b => a - b

/-- The machine gives what the operation is of whole numbers. -/
def Exact (o : Operation) : Prop := (o.value : Int) = o.whole

variable {a b : Nat}

theorem value_difference (hle : b ≤ a) (ha : a < Word.size) : (difference a b).value = a - b := by
  change (a + (Word.size - b)) % Word.size = a - b
  rw [show a + (Word.size - b) = (a - b) + Word.size by omega, Nat.add_mod_right,
    Nat.mod_eq_of_lt (by omega)]

theorem sum_exact_iff : (sum a b).Exact ↔ a + b < Word.size := by
  change ((Word.add a b : Nat) : Int) = (a : Int) + b ↔ _
  rw [← Int.natCast_add, Int.ofNat_inj, Word.add]
  exact Nat.mod_eq_iff_lt (by decide)

theorem product_exact_iff : (product a b).Exact ↔ a * b < Word.size := by
  change ((Word.mul a b : Nat) : Int) = (a : Int) * b ↔ _
  rw [← Int.natCast_mul, Int.ofNat_inj, Word.mul]
  exact Nat.mod_eq_iff_lt (by decide)

theorem difference_exact (hle : b ≤ a) (ha : a < Word.size) : (difference a b).Exact := by
  change ((difference a b).value : Int) = (a : Int) - b
  rw [value_difference hle ha, Int.natCast_sub hle]

theorem remainder_exact (hle : b ≤ a) : (remainder a b).Exact := Int.natCast_sub hle

/-- A machine that checks for overflow does not stop at an exact operation. -/
theorem Exact.overflows_eq {o : Operation} (h : o.Exact) : o.overflows = false := by
  cases o with
  | sum a b => exact decide_eq_false (Nat.not_le.mpr (sum_exact_iff.mp h))
  | product a b => exact decide_eq_false (Nat.not_le.mpr (product_exact_iff.mp h))
  | difference a b =>
    have hwhole : ((difference a b).value : Int) = (a : Int) - b := h
    exact decide_eq_false (by omega)
  | remainder => rfl

end Operation

namespace Tally

open Operation

variable {t : Tally} {entries l : List Entry} {e old : Entry} {index : Nat}

theorem empty_addsUp : empty.AddsUp := fun c => by cases c <;> rfl

theorem totalsOf_get (hsmall : tokensIn l < Word.size) (c : Category) :
    (totalsOf l).get c = tokensOf c l := addsUp_ofEntries hsmall c

/-- A count is added to those before it exactly. -/
theorem adds_exact (hsmall : tokensIn (l ++ [e]) < Word.size) :
    (sum ((totalsOf l).get e.category) e.tokens).Exact := by
  rw [tokensIn_append, tokensIn_cons, tokensIn_nil, Nat.add_zero] at hsmall
  have hpart := tokensOf_le e.category l
  rw [sum_exact_iff, totalsOf_get (by omega)]
  omega

/-- The count of a message is a part of the total of its category. -/
theorem le_tokensOf (found : t.entries[index]? = some old) :
    old.tokens ≤ tokensOf old.category t.entries := by
  have hset := tokensOf_set found ⟨0, .chat⟩ old.category
  simp only [if_true, ite_self, Nat.add_zero] at hset
  omega

/-- An old count is taken off its total exactly. -/
theorem AddsUp.takesOff_exact (h : t.AddsUp) (found : t.entries[index]? = some old) :
    (remainder (t.totals.get old.category) old.tokens).Exact :=
  remainder_exact (h old.category ▸ le_tokensOf found)

/-- A new count is added exactly to what is left of its total. -/
theorem AddsUp.putsIn_exact (h : t.AddsUp) (found : t.entries[index]? = some old)
    (hsmall : tokensIn (t.entries.set index e) < Word.size) :
    (sum ((t.totals.credit old.category old.tokens).get e.category) e.tokens).Exact := by
  have hset := tokensOf_set found e e.category
  have hpart := tokensOf_le e.category (t.entries.set index e)
  have hold := le_tokensOf found
  rw [if_pos rfl] at hset
  rw [sum_exact_iff, Totals.get_credit, h, h]
  by_cases hsame : e.category = old.category
  · rw [if_pos hsame]
    rw [if_pos hsame.symm, hsame] at hset
    rw [hsame] at hpart
    omega
  · rw [if_neg hsame]
    rw [if_neg (Ne.symm hsame)] at hset
    omega

/-- The totals of the categories are added up exactly. -/
theorem AddsUp.total_exact (h : t.AddsUp) (hsmall : tokensIn t.entries < Word.size) :
    (sum t.totals.memory t.totals.tool).Exact ∧
      (sum (Word.add t.totals.memory t.totals.tool) t.totals.chat).Exact := by
  have hmemory : t.totals.memory = tokensOf .memory t.entries := h .memory
  have htool : t.totals.tool = tokensOf .tool t.entries := h .tool
  have hchat : t.totals.chat = tokensOf .chat t.entries := h .chat
  have hall := tokensIn_eq t.entries
  have hfirst : t.totals.memory + t.totals.tool < Word.size := by omega
  refine ⟨sum_exact_iff.mpr hfirst, sum_exact_iff.mpr ?_⟩
  rw [Word.add_eq hfirst]
  omega

end Tally
end ContextBudget

import ContextBudget.Text.Blank
import Mathlib.Data.List.Infix

/-!
# Occurrences in a text

- `occursIn_iff`: what occurs in a text is an infix of its characters.
- `infix_append_of_not_mem`: a text whose first character is not in an opening occurs after it.
- `infix_excerpt`: what occurs in an excerpt occurs in the characters that it quotes.
-/

namespace ContextBudget
namespace Text

variable {needle opening cs : List Char} {c : Char} {text : String} {most : Nat}

theorem occursIn_iff : occursIn needle cs = true ↔ needle <:+: cs := by
  induction cs with
  | nil => rw [occursIn, List.isEmpty_iff, List.infix_nil]
  | cons c cs ih => rw [occursIn, Bool.or_eq_true, List.isPrefixOf_iff_prefix, ih,
      List.infix_cons_iff]

/-- What begins with a character that is not in an opening occurs only after the opening. -/
theorem infix_append_of_not_mem (h : c ∉ opening) :
    (c :: needle) <:+: opening ++ cs ↔ (c :: needle) <:+: cs := by
  induction opening with
  | nil => rfl
  | cons d opening ih =>
    rw [List.mem_cons, not_or] at h
    rw [List.cons_append, List.infix_cons_iff, ih h.2, List.cons_prefix_cons]
    simp only [h.1, false_and, false_or]

/-- The ellipsis of an excerpt is no part of what occurs in it. -/
theorem infix_excerpt (hne : needle ≠ []) (hplain : '…' ∉ needle) :
    needle <:+: (excerpt text most).toList ↔ needle <:+: text.toList.take most := by
  rw [excerpt]
  split
  · rw [List.take_of_length_le ‹_›]
  · rw [String.toList_append, String.toList_ofList, show "…".toList = ['…'] from rfl,
      List.infix_concat_iff, List.suffix_concat_iff]
    refine ⟨?_, .inr⟩
    rintro ((hnil | ⟨front, rfl, -⟩) | h)
    · exact absurd hnil hne
    · exact absurd (List.mem_append_right front (List.mem_singleton.mpr rfl)) hplain
    · exact h

end Text
end ContextBudget

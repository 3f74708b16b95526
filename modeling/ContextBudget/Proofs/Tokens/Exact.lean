import ContextBudget.Proofs.Tokens.Counting
import Mathlib.Algebra.Ring.Nat

/-!
# Exact tallies

A tally is exact if its entries are the counts of the messages, and its totals their sums by
category. As long as the sums stay below the number of words, adding, taking off and replacing
counts keeps a tally exact.

- `addsUp_ofEntries`, `AddsUp.replace`: what a tally does to its totals is what sums do.
- `Exact.ofEntries`, `Exact.set`: a fresh tally of a conversation is exact, and so is one in which
  a message and its count have been replaced.
-/

namespace ContextBudget

/-- The tokens of all entries. -/
def tokensIn (entries : List Entry) : Nat := (entries.map (·.tokens)).sum

/-- The tokens of the entries of a category. -/
def tokensOf (c : Category) (entries : List Entry) : Nat :=
  tokensIn (entries.filter (·.category = c))

section Sums

variable {c : Category} {e : Entry} {entries l l' : List Entry}

@[simp] theorem tokensIn_nil : tokensIn [] = 0 := rfl

@[simp] theorem tokensIn_cons : tokensIn (e :: l) = e.tokens + tokensIn l := List.sum_cons

@[simp] theorem tokensIn_append : tokensIn (l ++ l') = tokensIn l + tokensIn l' := by
  simp [tokensIn]

@[simp] theorem tokensOf_nil : tokensOf c [] = 0 := rfl

@[simp] theorem tokensOf_cons :
    tokensOf c (e :: l) = (if e.category = c then e.tokens else 0) + tokensOf c l := by
  by_cases h : e.category = c <;> simp [tokensOf, h]

@[simp] theorem tokensOf_append : tokensOf c (l ++ l') = tokensOf c l + tokensOf c l' := by
  simp [tokensOf]

/-- Each entry is of one category. -/
theorem tokensIn_eq (entries : List Entry) : tokensIn entries =
    tokensOf .memory entries + tokensOf .tool entries + tokensOf .chat entries := by
  induction entries with
  | nil => rfl
  | cons e l ih =>
    cases hc : e.category <;> simp [hc, ih] <;> omega

theorem tokensOf_le (c : Category) (entries : List Entry) :
    tokensOf c entries ≤ tokensIn entries := by
  have := tokensIn_eq entries
  cases c <;> omega

end Sums

/-! ## Totals -/

namespace Totals

variable {t : Totals} {c d : Category} {n : Nat}

@[simp] theorem get_zero (c : Category) : Totals.zero.get c = 0 := by cases c <;> rfl

theorem get_charge : (t.charge c n).get d = if d = c then Word.add (t.get c) n else t.get d := by
  cases c <;> cases d <;> rfl

theorem get_credit : (t.credit c n).get d = if d = c then t.get c - n else t.get d := by
  cases c <;> cases d <;> rfl

end Totals

namespace Tally

/-- The totals are the sums of the entries by category. -/
def AddsUp (t : Tally) : Prop := ∀ c, t.totals.get c = tokensOf c t.entries

theorem get_foldl_charge {entries : List Entry} {t : Totals}
    (hsmall : ∀ c, t.get c + tokensOf c entries < Word.size) (c : Category) :
    (entries.foldl (fun t e => t.charge e.category e.tokens) t).get c =
      t.get c + tokensOf c entries := by
  induction entries generalizing t with
  | nil => rfl
  | cons e l ih =>
    have hcharge : ∀ d, (t.charge e.category e.tokens).get d =
        t.get d + if e.category = d then e.tokens else 0 := by
      intro d
      rw [Totals.get_charge]
      by_cases hd : d = e.category
      · subst hd
        have := hsmall e.category
        rw [tokensOf_cons, if_pos rfl] at this
        rw [if_pos rfl, if_pos rfl, Word.add_eq (by omega)]
      · rw [if_neg hd, if_neg (Ne.symm hd), Nat.add_zero]
    rw [List.foldl_cons, ih fun d => ?_, hcharge, tokensOf_cons, Nat.add_assoc]
    have := hsmall d
    rw [tokensOf_cons] at this
    rw [hcharge]
    omega

theorem addsUp_ofEntries {entries : List Entry} (hsmall : tokensIn entries < Word.size) :
    (ofEntries entries).AddsUp := by
  intro c
  have hall : ∀ d, Totals.zero.get d + tokensOf d entries < Word.size := fun d => by
    have := tokensOf_le d entries
    rw [Totals.get_zero]
    omega
  have hsum := get_foldl_charge hall c
  rwa [Totals.get_zero, Nat.zero_add] at hsum

/-- Replacing a count takes the old one off and adds the new one. -/
theorem tokensOf_set {entries : List Entry} {index : Nat} {old : Entry}
    (hold : entries[index]? = some old) (e : Entry) (c : Category) :
    tokensOf c (entries.set index e) + (if old.category = c then old.tokens else 0) =
      tokensOf c entries + if e.category = c then e.tokens else 0 := by
  induction entries generalizing index with
  | nil => cases hold
  | cons first rest ih =>
    cases index with
    | zero =>
      obtain rfl : first = old := by simpa using hold
      simp only [List.set_cons_zero, tokensOf_cons]
      omega
    | succ index =>
      have hrest := ih (show rest[index]? = some old by simpa using hold)
      simp only [List.set_cons_succ, tokensOf_cons]
      omega

theorem AddsUp.replace {t : Tally} {index : Nat} {e : Entry} (h : t.AddsUp)
    (hsmall : tokensIn (t.entries.set index e) < Word.size) : (t.replace index e).AddsUp := by
  unfold Tally.replace
  split
  · exact h
  · rename_i old hold
    intro c
    have hset := tokensOf_set hold e c
    have hbound : tokensOf c (t.entries.set index e) < Word.size :=
      Nat.lt_of_le_of_lt (tokensOf_le c _) hsmall
    -- Nothing is lost where the old count is taken off, since it is part of the sum.
    have hpart : (if old.category = c then old.tokens else 0) ≤ tokensOf c t.entries := by
      have := tokensOf_set hold ⟨0, .chat⟩ c
      simp only [ite_self, Nat.add_zero] at this
      omega
    have hcredit : (t.totals.credit old.category old.tokens).get c =
        tokensOf c t.entries - if old.category = c then old.tokens else 0 := by
      rw [Totals.get_credit, h, h]
      by_cases hc : c = old.category
      · subst hc
        simp
      · simp [hc, Ne.symm hc]
    change ((t.totals.credit old.category old.tokens).charge e.category e.tokens).get c =
      tokensOf c (t.entries.set index e)
    generalize (if old.category = c then old.tokens else 0) = share at hset hpart hcredit
    rw [Totals.get_charge]
    by_cases hc : c = e.category
    · subst hc
      rw [if_pos rfl] at hset
      rw [if_pos rfl, hcredit, Word.add_eq (by omega)]
      omega
    · rw [if_neg (Ne.symm hc)] at hset
      rw [if_neg hc, hcredit]
      omega

theorem AddsUp.total {t : Tally} (h : t.AddsUp) (hsmall : tokensIn t.entries < Word.size) :
    t.total = tokensIn t.entries := by
  have hm : t.totals.memory = tokensOf .memory t.entries := h .memory
  have ht : t.totals.tool = tokensOf .tool t.entries := h .tool
  have hc : t.totals.chat = tokensOf .chat t.entries := h .chat
  have hall := tokensIn_eq t.entries
  rw [Tally.total, Totals.total, hm, ht, hc, Word.add_eq (a := tokensOf .memory _) (by omega),
    Word.add_eq (by omega), hall]

end Tally

/-! ## Tallies of a conversation -/

variable {σ : Type} {count : String → String → Nat} {family : String} {messages : Conversation}
  {tally : Tally}

/-- The counts of messages for a family of models. -/
def entriesOf (count : String → String → Nat) (family : String) (messages : Conversation) :
    List Entry :=
  messages.map fun m => ⟨count family m.content, m.category⟩

/-- The tokens of messages for a family of models. -/
def weight (count : String → String → Nat) (family : String) (messages : Conversation) : Nat :=
  (messages.map fun m => count family m.content).sum

theorem tokensIn_entriesOf : tokensIn (entriesOf count family messages) =
    weight count family messages := by
  rw [tokensIn, entriesOf, List.map_map]
  rfl

/-- No message counts more than the most that a text may count. -/
theorem weight_le_length_mul {most : Nat} (h : ∀ text, count family text ≤ most) :
    weight count family messages ≤ messages.length * most := by
  induction messages with
  | nil => simp [weight]
  | cons m messages ih =>
    have hm := h m.content
    simp only [weight, List.map_cons, List.sum_cons, List.length_cons, Nat.succ_mul] at ih ⊢
    omega

/-- The entries stay the counts of the messages when one of each is set together. -/
theorem Tally.set_entriesOf (h : tally.entries = entriesOf count family messages) {index : Nat}
    {m : Message} : tally.entries.set index ⟨count family m.content, m.category⟩ =
      entriesOf count family (messages.set index m) := by
  rw [h, entriesOf, entriesOf, List.map_set]

theorem Tally.entries_replace (h : tally.entries = entriesOf count family messages) {index : Nat}
    {m : Message} : (tally.replace index ⟨count family m.content, m.category⟩).entries =
      entriesOf count family (messages.set index m) := by
  rw [← set_entriesOf h, Tally.replace]
  split
  · rename_i hnone
    rw [List.set_eq_of_length_le (List.getElem?_eq_none_iff.mp hnone)]
  · rfl

theorem Tally.tokensAt_eq (h : tally.entries = entriesOf count family messages) {index : Nat}
    {m : Message} (hm : messages[index]? = some m) :
    tally.tokensAt index = count family m.content := by
  rw [tokensAt, h, entriesOf, List.getElem?_map, hm]
  rfl

/-- A tally has the count and category of each message, and their sums by category. -/
structure Tally.Exact (count : String → String → Nat) (family : String) (messages : Conversation)
    (tally : Tally) : Prop where
  entries : tally.entries = entriesOf count family messages
  totals : tally.AddsUp

namespace Tally.Exact

theorem ofEntries (hsmall : weight count family messages < Word.size) :
    Exact count family messages (.ofEntries (entriesOf count family messages)) :=
  ⟨rfl, addsUp_ofEntries (tokensIn_entriesOf.symm ▸ hsmall)⟩

/-- A message and its count may be replaced together. -/
theorem set (h : Exact count family messages tally) {index : Nat} {m : Message}
    (hsmall : weight count family (messages.set index m) < Word.size) :
    Exact count family (messages.set index m)
      (tally.replace index ⟨count family m.content, m.category⟩) := by
  refine ⟨entries_replace h.entries, h.totals.replace ?_⟩
  rwa [set_entriesOf h.entries, tokensIn_entriesOf]

theorem total (h : Exact count family messages tally)
    (hsmall : weight count family messages < Word.size) :
    tally.total = weight count family messages := by
  rw [← tokensIn_entriesOf] at hsmall ⊢
  rw [h.totals.total (h.entries ▸ hsmall), h.entries]

end Tally.Exact

end ContextBudget

import ContextBudget.Proofs.Tokens.Counting
import Mathlib.Data.List.Forall2

/-!
# What counts stand for

The tokens of a message are what the counter of the family answered to its content, whatever else
the counter may answer at another time.

- `Gives`: what a counter answers to a text, in some state of the services.
- `Stands`: an entry stands for a message.
- `counts_gives`, `countMessage_stands`, `count_tallies`: what a count gives that goes through.
- `Tallies`: each entry of a tally stands for its message; `Tallies.replace` keeps it so.
-/

namespace ContextBudget
namespace Tokenizers

open BudgetM

variable {σ : Type} {t : Tokenizers σ} {family : String} {messages : Conversation} {m : Message}
  {entry : Entry} {tally : Tally} {index : Nat} {w w' : σ}

/-- The counter of a family answers a number to a text, in some state of the services. -/
def Gives (t : Tokenizers σ) (family text : String) (n : Nat) : Prop :=
  ∃ counter, t.get? family = some counter ∧
    ∃ w after w', (counter text).run w = (.done after (.ok n), w')

/-- An entry stands for a message: it is of the message's category, and its tokens are what the
counter answered to the message's content. -/
structure Stands (t : Tokenizers σ) (family : String) (m : Message) (entry : Entry) : Prop where
  category : entry.category = m.category
  tokens : t.Gives family m.content entry.tokens

/-- Each entry of a tally stands for the message at its place. -/
def Tallies (t : Tokenizers σ) (family : String) (messages : Conversation) (tally : Tally) : Prop :=
  List.Forall₂ (t.Stands family) messages tally.entries

/-! ## What a count gives -/

theorem countTexts_gives {counter : TokenCounter σ} {left : Span} {texts : List String}
    {ns : List Nat} (h : (countTexts counter left texts).run w = (.ok ns, w')) :
    List.Forall₂ (fun text n => ∃ w after w', (counter text).run w = (.done after (.ok n), w'))
      texts ns := by
  induction texts generalizing left w ns with
  | nil =>
    cases h
    exact .nil
  | cons text rest ih =>
    rw [countTexts] at h
    obtain ⟨reply, w₁, hreply, h₁⟩ := call_ran h
    cases reply with
    | never => cases h₁
    | done after value =>
      simp only at h₁
      split at h₁
      · cases h₁
      · cases value with
        | error e => cases h₁
        | ok n =>
          obtain ⟨counted, w₂, hrest, h₂⟩ := call_ran h₁
          cases counted with
          | error stop => cases h₂
          | ok ms =>
            cases h₂
            exact .cons ⟨w, after, w₁, hreply⟩ (ih hrest)

theorem counts_gives {texts : List String} {ns : List Nat}
    (h : exec (t.counts family texts) w = (.ok ns, w')) :
    List.Forall₂ (t.Gives family) texts ns := by
  unfold counts at h
  split at h
  · cases h
  · rename_i counter hcounter
    obtain ⟨counted, w₁, hcounted, h₁⟩ := bind_ran h
    split at h₁
    · obtain ⟨rfl, rfl⟩ := pure_ran h₁
      exact (countTexts_gives (lift_ran hcounted)).imp fun _ _ hn => ⟨counter, hcounter, hn⟩
    · cases h₁

theorem countMessage_stands (h : exec (t.countMessage family m) w = (.ok entry, w')) :
    t.Stands family m entry := by
  obtain ⟨n, w₁, hn, h₁⟩ := bind_ran h
  obtain ⟨rfl, rfl⟩ := pure_ran h₁
  obtain ⟨ns, w₂, hns, h₂⟩ := bind_ran hn
  obtain ⟨rfl, rfl⟩ := pure_ran h₂
  obtain ⟨n, rest, hgives, -, rfl⟩ := List.forall₂_cons_left_iff.mp (counts_gives hns)
  exact ⟨rfl, hgives⟩

/-- The counts of contents with the categories of the messages. -/
theorem forall₂_stands {ns : List Nat}
    (h : List.Forall₂ (t.Gives family) (messages.map (·.content)) ns) :
    List.Forall₂ (t.Stands family) messages (ns.zipWith (fun n m => ⟨n, m.category⟩) messages) := by
  induction messages generalizing ns with
  | nil =>
    cases h
    exact .nil
  | cons m rest ih =>
    obtain ⟨n, ns, hn, hns, rfl⟩ := List.forall₂_cons_left_iff.mp h
    exact .cons ⟨rfl, hn⟩ (ih hns)

theorem count_tallies (h : exec (t.count family messages) w = (.ok tally, w')) :
    t.Tallies family messages tally := by
  obtain ⟨ns, w₁, hns, h₁⟩ := bind_ran h
  obtain ⟨rfl, rfl⟩ := pure_ran h₁
  exact forall₂_stands (counts_gives hns)

/-! ## Tallies of a conversation -/

theorem entries_replace (tally : Tally) (index : Nat) (entry : Entry) :
    (tally.replace index entry).entries = tally.entries.set index entry := by
  unfold Tally.replace
  split
  · rename_i hnone
    rw [List.set_eq_of_length_le (List.getElem?_eq_none_iff.mp hnone)]
  · rfl

/-- A message and its entry may be replaced together. -/
theorem Tallies.replace (h : t.Tallies family messages tally) (hentry : t.Stands family m entry)
    (index : Nat) : t.Tallies family (messages.set index m) (tally.replace index entry) := by
  unfold Tallies at h ⊢
  rw [entries_replace]
  generalize tally.entries = entries at h
  induction h generalizing index with
  | nil => exact .nil
  | cons hfirst hrest ih =>
    cases index with
    | zero => exact .cons hentry hrest
    | succ index => exact .cons hfirst (ih index)

/-- The entry at the place of a message stands for it. -/
theorem Tallies.stands (h : t.Tallies family messages tally) (hm : messages[index]? = some m)
    (hentry : tally.entries[index]? = some entry) : t.Stands family m entry := by
  obtain ⟨hlt, rfl⟩ := List.getElem?_eq_some_iff.mp hm
  obtain ⟨hlt', rfl⟩ := List.getElem?_eq_some_iff.mp hentry
  exact h.get hlt hlt'

end Tokenizers
end ContextBudget

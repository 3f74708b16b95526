import ContextBudget.Proofs.Run.Services
import ContextBudget.Tokens.Counter

/-!
# What a count gives

- `CountsBy`: counters that answer to a text what a function of the family and the text gives, if
  they answer.
- `counts_ran`, `countMessage_ran`, `count_ran`: then so does a count that goes through.
- `counts_failed`: a count fails without a counter, or where its counter fails or takes too long.
- `counts_keeps`, `countMessage_keeps`, `count_keeps`: a count touches nothing but the counters.
- `ofLetters`: a counter of letters, which never fails.
-/

namespace ContextBudget
namespace Tokenizers

open BudgetM

variable {σ γ : Type} {t : Tokenizers σ} {family : String} {w w' : σ}

/-- Whatever a counter answers to a text is the count of the text for the counter's family. -/
def CountsBy (t : Tokenizers σ) (count : String → String → Nat) : Prop :=
  ∀ family counter, t.get? family = some counter → ∀ text w after n,
    ((counter text).run w).1 = .done after (.ok n) → n = count family text

/-- Counters leave a view of the services' state as it is. -/
def Leaves (t : Tokenizers σ) (view : σ → γ) : Prop :=
  ∀ c ∈ t.counters, ∀ text, KeepsCall view (c.2 text)

/-! ## What is counted -/

theorem countTexts_ran {counter : TokenCounter σ} {f : String → Nat} {left : Span}
    {texts : List String} {ns : List Nat}
    (hf : ∀ text w after n, ((counter text).run w).1 = .done after (.ok n) → n = f text)
    (h : (countTexts counter left texts).run w = (.ok ns, w')) : ns = texts.map f := by
  induction texts generalizing left w ns with
  | nil =>
    cases h
    rfl
  | cons text rest ih =>
    rw [countTexts] at h
    obtain ⟨reply, w₁, hreply, h₁⟩ := call_ran h
    have hfirst := hf text w
    rw [hreply] at hfirst
    cases reply with
    | never => cases h₁
    | done after value =>
      simp only at h₁
      split at h₁
      · cases h₁
      · cases value with
        | error e => cases h₁
        | ok n =>
          obtain rfl := hfirst after n rfl
          obtain ⟨counted, w₂, hrest, h₂⟩ := call_ran h₁
          cases counted with
          | error stop => cases h₂
          | ok ms =>
            cases h₂
            rw [List.map_cons, ih hrest]

theorem counts_ran {count : String → String → Nat} (ht : t.CountsBy count) {texts : List String}
    {ns : List Nat} (h : exec (t.counts family texts) w = (.ok ns, w')) :
    ns = texts.map (count family) := by
  unfold counts at h
  split at h
  · cases h
  · rename_i counter hcounter
    obtain ⟨counted, w₁, hcounted, h₁⟩ := bind_ran h
    split at h₁
    · obtain ⟨rfl, rfl⟩ := pure_ran h₁
      exact countTexts_ran (ht family counter hcounter) (lift_ran hcounted)
    · cases h₁

theorem countMessage_ran {count : String → String → Nat} (ht : t.CountsBy count) {m : Message}
    {entry : Entry} (h : exec (t.countMessage family m) w = (.ok entry, w')) :
    entry = ⟨count family m.content, m.category⟩ := by
  obtain ⟨n, w₁, hn, h₁⟩ := bind_ran h
  obtain ⟨rfl, rfl⟩ := pure_ran h₁
  obtain ⟨ns, w₂, hns, h₂⟩ := bind_ran hn
  obtain ⟨rfl, rfl⟩ := pure_ran h₂
  rw [counts_ran ht hns]
  rfl

theorem count_ran {count : String → String → Nat} (ht : t.CountsBy count)
    {messages : Conversation} {tally : Tally}
    (h : exec (t.count family messages) w = (.ok tally, w')) :
    tally = .ofEntries (messages.map fun m => ⟨count family m.content, m.category⟩) := by
  obtain ⟨ns, w₁, hns, h₁⟩ := bind_ran h
  obtain ⟨rfl, rfl⟩ := pure_ran h₁
  rw [counts_ran ht hns, List.map_map, List.zipWith_map_left, List.zipWith_self]
  rfl

/-! ## Why a count fails -/

/-- A count of texts stops at one of them: there the counter fails, or it takes longer than what is
left of the time. -/
inductive StopsAt (counter : TokenCounter σ) : Span → List String → σ → Stop → σ → Prop where
  | hung {left : Span} {text : String} {rest : List String} {w w' : σ}
    (called : (counter text).run w = (.never, w')) :
    StopsAt counter left (text :: rest) w .late w'
  | slow {left after : Span} {text : String} {rest : List String} {w w' : σ}
    {value : Except ServiceError Nat}
    (called : (counter text).run w = (.done after value, w')) (late : left < after) :
    StopsAt counter left (text :: rest) w .late w'
  | failed {left after : Span} {text : String} {rest : List String} {w w' : σ} {e : ServiceError}
    (called : (counter text).run w = (.done after (.error e), w')) (inTime : ¬ left < after) :
    StopsAt counter left (text :: rest) w (.failed e) w'
  | later {left after : Span} {text : String} {rest : List String} {w w₁ : σ} {n : Nat}
    {stop : Stop} {w' : σ} (called : (counter text).run w = (.done after (.ok n), w₁))
    (inTime : ¬ left < after) (stops : StopsAt counter (left.sub after) rest w₁ stop w') :
    StopsAt counter left (text :: rest) w stop w'

theorem countTexts_stopsAt {counter : TokenCounter σ} {left : Span} {texts : List String}
    {stop : Stop} (h : (countTexts counter left texts).run w = (.error stop, w')) :
    StopsAt counter left texts w stop w' := by
  induction texts generalizing left w with
  | nil => cases h
  | cons text rest ih =>
    rw [countTexts] at h
    obtain ⟨reply, w₁, hreply, h₁⟩ := call_ran h
    cases reply with
    | never =>
      cases h₁
      exact .hung hreply
    | done after value =>
      simp only at h₁
      split at h₁
      · cases h₁
        exact .slow hreply ‹_›
      · rename_i inTime
        cases value with
        | error e =>
          cases h₁
          exact .failed hreply inTime
        | ok n =>
          obtain ⟨counted, w₂, hrest, h₂⟩ := call_ran h₁
          cases counted with
          | error stop' =>
            cases h₂
            exact .later hreply inTime (ih hrest)
          | ok ns => cases h₂

/-- A count of texts fails: the family has no counter, or the count stops at one of the texts. -/
inductive Miscounts (t : Tokenizers σ) (family : String) (texts : List String) (w : σ) :
    BudgetError → σ → Prop where
  | unregistered (absent : t.get? family = none) :
    Miscounts t family texts w (.tokenizerUnavailable family "no tokenizer registered") w
  | stopped {counter : TokenCounter σ} {stop : Stop} {w' : σ} (found : t.get? family = some counter)
    (stops : StopsAt counter t.limit texts w stop w') :
    Miscounts t family texts w (t.failure family stop) w'

theorem counts_failed {texts : List String} {e : BudgetError}
    (h : exec (t.counts family texts) w = (.error e, w')) : t.Miscounts family texts w e w' := by
  unfold counts at h
  split at h
  · cases h
    exact .unregistered ‹_›
  · rename_i counter found
    obtain ⟨counted, w₁, hcounted, h₁⟩ := call_failed h
    cases counted with
    | ok ns => exact (pure_failed h₁).elim
    | error stop =>
      cases h₁
      exact .stopped found (countTexts_stopsAt hcounted)

/-- A counter that always answers at once stops no count. -/
theorem exists_counts_of_answers {counter : TokenCounter σ} (found : t.get? family = some counter)
    (answers : ∀ text w, ∃ n w', (counter text).run w = (Call.answer n, w'))
    (texts : List String) (w : σ) : ∃ ns w', exec (t.counts family texts) w = (.ok ns, w') := by
  have hnever : ∀ {left texts w stop w'}, ¬ StopsAt counter left texts w stop w' := by
    intro left texts w stop w' h
    induction h with
    | later _ _ _ ih => exact ih
    | @hung left text rest w w' called =>
      obtain ⟨n, w₁, hanswer⟩ := answers text w
      cases called.symm.trans hanswer
    | @slow left after text rest w w' value called late =>
      obtain ⟨n, w₁, hanswer⟩ := answers text w
      cases called.symm.trans hanswer
      exact Nat.not_lt_zero _ late
    | @failed left after text rest w w' e called =>
      obtain ⟨n, w₁, hanswer⟩ := answers text w
      cases called.symm.trans hanswer
  cases hout : exec (t.counts family texts) w with
  | mk out w' =>
    cases out with
    | ok ns => exact ⟨ns, w', rfl⟩
    | error e =>
      cases counts_failed hout with
      | unregistered absent => cases found.symm.trans absent
      | stopped found' stops =>
        cases found.symm.trans found'
        exact (hnever stops).elim

theorem countMessage_failed {m : Message} {e : BudgetError}
    (h : exec (t.countMessage family m) w = (.error e, w')) :
    exec (t.counts family [m.content]) w = (.error e, w') :=
  failed_of_bind_pure (failed_of_bind_pure h)

theorem count_failed {messages : Conversation} {e : BudgetError}
    (h : exec (t.count family messages) w = (.error e, w')) :
    exec (t.counts family (messages.map (·.content))) w = (.error e, w') := failed_of_bind_pure h

/-! ## What a count leaves -/

variable {view : σ → γ}

theorem mem_of_get? {counter : TokenCounter σ} (h : t.get? family = some counter) :
    ∃ c ∈ t.counters, c.2 = counter := by
  obtain ⟨c, hc, rfl⟩ := Option.map_eq_some_iff.mp h
  exact ⟨c, List.mem_reverse.mp (List.mem_of_find?_eq_some hc), rfl⟩

theorem countTexts_keeps {counter : TokenCounter σ} (hc : ∀ text, KeepsCall view (counter text))
    (left : Span) (texts : List String) : KeepsCall view (countTexts counter left texts) := by
  induction texts generalizing left with
  | nil => exact fun _ => rfl
  | cons text rest ih =>
    rw [countTexts]
    refine .bind (hc text) fun reply => ?_
    cases reply with
    | never => exact .pure _
    | done after value =>
      simp only
      split
      · exact .pure _
      · cases value with
        | error e => exact .pure _
        | ok n => exact .bind (ih _) fun _ => .pure _

theorem counts_keeps (ht : t.Leaves view) (family : String) (texts : List String) :
    Keeps view (t.counts family texts) := by
  unfold counts
  split
  · exact .throw _
  · rename_i counter hcounter
    obtain ⟨c, hc, rfl⟩ := mem_of_get? hcounter
    refine .bind (.lift (countTexts_keeps (ht c hc) _ _)) fun counted => ?_
    split
    · exact .pure _
    · exact .throw _

theorem countMessage_keeps (ht : t.Leaves view) (family : String) (m : Message) :
    Keeps view (t.countMessage family m) :=
  .bind (.bind (counts_keeps ht family _) fun _ => .pure _) fun _ => .pure _

theorem count_keeps (ht : t.Leaves view) (family : String) (messages : Conversation) :
    Keeps view (t.count family messages) :=
  .bind (counts_keeps ht family _) fun _ => .pure _

/-! ## A counter that never fails -/

/-- The letters of a text, at most fifty. -/
def letters : String → String → Nat := fun _ text => Nat.min text.length 50

/-- One family, whose counter counts letters and answers at once. -/
def ofLetters : Tokenizers σ :=
  ⟨[("letters", fun text => return .answer (letters "letters" text))], .seconds 1⟩

theorem ofLetters_countsBy : (ofLetters : Tokenizers σ).CountsBy letters := by
  intro family counter hcounter text w after n hn
  obtain ⟨c, hc, rfl⟩ := mem_of_get? hcounter
  obtain rfl := List.mem_singleton.mp hc
  cases hn
  rfl

theorem ofLetters_leaves (view : σ → γ) : (ofLetters : Tokenizers σ).Leaves view := by
  intro c hc text
  obtain rfl := List.mem_singleton.mp hc
  exact .pure _

theorem exists_counts_ofLetters (texts : List String) (w : σ) :
    ∃ ns w', exec (ofLetters.counts "letters" texts) w = (.ok ns, w') :=
  exists_counts_of_answers rfl (fun text w => ⟨letters "letters" text, w, rfl⟩) texts w

end Tokenizers
end ContextBudget

import ContextBudget.Proofs.Compaction.Tail
import ContextBudget.Proofs.Run.Tallies
import ContextBudget.Run.Checked

/-!
# The operations of a run

Each operation that a run performs on words is of one of a few kinds. Most of them count tokens or
messages; two take a number from outside: the margin, where a larger model is looked for, and the
number of exchanges to keep, where there are fewer of them.

- `LooksUp`: where a larger model is looked for; `FindsFew`: where the number is doubled.
- `CountsTokens`, `CountsMessages`, `TakesOutside`: the kinds of operations.
- `driveOperations_performs`: no operation of a run is of another kind.
- `LooksUp.mem_driveOperations`, `FindsFew.mem_driveOperations`: a run performs those that take a
  number from outside.
-/

namespace ContextBudget

open BudgetM Operation

/-- What follows a computation that goes through. -/
theorem BudgetM.mem_thereafter {σ α : Type} {m : BudgetM σ α} {w : σ}
    {operations : α → σ → List Operation} {o : Operation} :
    o ∈ thereafter m w operations ↔ ∃ a w', exec m w = (.ok a, w') ∧ o ∈ operations a w' := by
  unfold thereafter exec
  obtain ⟨_ | a, w'⟩ := m.run.run w
  · simp
  · constructor
    · exact fun h => ⟨a, w', rfl, h⟩
    · rintro ⟨b, w₁, heq, h⟩
      cases heq
      exact h

/-! ## Tallies -/

namespace Tally

variable {t : Tally} {entries : List Entry} {index : Nat} {entry : Entry} {o : Operation}

/-- Each entry is added to those before it. -/
theorem mem_chargeOperations (before : List Entry)
    (h : o ∈ chargeOperations (totalsOf before) entries) : ∃ l e, before ++ l ++ [e] <+:
      before ++ entries ∧ o = sum ((totalsOf (before ++ l)).get e.category) e.tokens := by
  induction entries generalizing before with
  | nil => cases h
  | cons e rest ih =>
    rcases List.mem_cons.mp h with rfl | hrest
    · exact ⟨[], e, by simp, by simp⟩
    · have hnext : (totalsOf before).charge e.category e.tokens = totalsOf (before ++ [e]) := by
        simp [totalsOf]
      rw [hnext] at hrest
      obtain ⟨l, e', hpart, heq⟩ := ih _ hrest
      exact ⟨e :: l, e', by simpa using hpart, by simpa using heq⟩

/-- The count that a replacement has left at its place is the one that was put there. -/
theorem adoptOperations_replace (t : Tally) (index : Nat) (entry : Entry) :
    t.adoptOperations (t.replace index entry) index = t.replaceOperations index entry := by
  rw [adoptOperations, Tokenizers.entries_replace]
  unfold replaceOperations
  cases hold : t.entries[index]? with
  | none => cases (t.entries.set index entry)[index]? <;> rfl
  | some old =>
    obtain ⟨hlt, -⟩ := List.getElem?_eq_some_iff.mp hold
    simp [hlt]

end Tally

namespace Tokenizers

variable {σ : Type} {t : Tokenizers σ} {counter : TokenCounter σ} {family text : String}
  {texts : List String} {messages : Conversation} {left after : Span} {n : Nat} {ns : List Nat}
  {o : Operation} {w w₁ w' : σ}

theorem countTexts_cons (called : (counter text).run w = (.done after (.ok n), w₁))
    (inTime : ¬ left < after)
    (later : (countTexts counter (left.sub after) texts).run w₁ = (.ok ns, w')) :
    (countTexts counter left (text :: texts)).run w = (.ok (n :: ns), w') := by
  rw [countTexts, StateT.run_bind, called]
  change (if left < after then _ else do
    return (← countTexts counter (left.sub after) texts).map (n :: ·) : StateM σ _).run w₁ = _
  rw [if_neg inTime, StateT.run_bind, later]
  rfl

/-- The counts that come before a count stops are those of the first texts. -/
theorem countsUntil_ran (h : (countsUntil counter left texts).run w = (ns, w')) :
    ∃ k w₁, (countTexts counter left (texts.take k)).run w = (.ok ns, w₁) := by
  induction texts generalizing left w ns with
  | nil =>
    cases h
    exact ⟨0, w', rfl⟩
  | cons text rest ih =>
    rw [countsUntil] at h
    obtain ⟨reply, w₁, hreply, h₁⟩ := call_ran h
    cases reply with
    | never =>
      cases h₁
      exact ⟨0, w, rfl⟩
    | done after value =>
      simp only at h₁
      split at h₁
      · cases h₁
        exact ⟨0, w, rfl⟩
      · rename_i inTime
        cases value with
        | error e =>
          cases h₁
          exact ⟨0, w, rfl⟩
        | ok n =>
          obtain ⟨ms, w₂, hrest, h₂⟩ := call_ran h₁
          cases h₂
          obtain ⟨k, w₃, hran⟩ := ih hrest
          exact ⟨k + 1, w₃, countTexts_cons hreply inTime hran⟩

theorem counts_of_countTexts (found : t.get? family = some counter)
    (h : (countTexts counter t.limit texts).run w = (.ok ns, w')) :
    exec (t.counts family texts) w = (.ok ns, w') := by
  have hlift : exec (liftM (countTexts counter t.limit texts) : BudgetM σ _) w =
      (.ok (.ok ns), w') := by
    change (Except.ok ((countTexts counter t.limit texts).run w).1,
      ((countTexts counter t.limit texts).run w).2) = _
    rw [h]
  unfold counts
  rw [found]
  dsimp only
  rw [exec_bind, hlift]
  rfl

/-- A count adds each count to those before it. -/
theorem mem_countOperations (h : o ∈ t.countOperations family messages w) :
    ∃ part tally w' l e, part <+: messages ∧ exec (t.count family part) w = (.ok tally, w') ∧
      l ++ [e] <+: tally.entries ∧ o = sum ((Tally.totalsOf l).get e.category) e.tokens := by
  unfold countOperations at h
  split at h
  · cases h
  · rename_i counter found
    dsimp only at h
    rcases huntil : (countsUntil counter t.limit (messages.map (·.content))).run w with ⟨ns, w'⟩
    rw [huntil] at h
    obtain ⟨k, w₁, hran⟩ := countsUntil_ran huntil
    rw [← List.map_take] at hran
    have hcounts := counts_of_countTexts found hran
    have hcount : exec (t.count family (messages.take k)) w =
        (.ok (.ofEntries (ns.zipWith (fun n m => ⟨n, m.category⟩) (messages.take k))), w₁) := by
      unfold count
      rw [exec_bind, hcounts]
      rfl
    have hlength : ns.length = (messages.take k).length := by
      rw [← (counts_gives hcounts).length_eq, List.length_map]
    rw [← List.append_nil ns, ← List.take_append_drop k messages, List.zipWith_append hlength,
      List.zipWith_nil_left, List.append_nil] at h
    obtain ⟨l, e, hpart, heq⟩ := Tally.mem_chargeOperations [] h
    exact ⟨_, _, _, l, e, List.take_prefix k messages, hcount, hpart, heq⟩

end Tokenizers
namespace Pipeline

variable {σ : Type} {p : Pipeline σ} {start r r' : Run} {phase : Phase} {t : Tally} {index : Nat}
  {entry : Entry} {totals : Totals} {b : Budget} {o : Operation} {w w₁ w₂ : σ}

/-- How many exchanges a compaction keeps. -/
def preserve (p : Pipeline σ) : Nat := p.settings.compaction.config.preserve

/-! ## The operations of a run -/

/-- The totals of a tally or of a budget of a run. -/
inductive HasTotals (p : Pipeline σ) (start : Run) (w : σ) : Totals → Prop where
  | tally {t : Tally} (has : HasTally p start w t) : HasTotals p start w t.totals
  | budget {phase : Phase} {r : Run} {w₁ : σ} (reached : Reaches p start w phase r w₁) :
    HasTotals p start w r.budget.used

/-- A run looks for a larger model that holds what is used of a budget and its margin: after it has
masked, if too much of the limit is still used, and after it has redacted, if it put this off. -/
inductive LooksUp (p : Pipeline σ) (start : Run) (w : σ) : Budget → Prop where
  | masked {r : Run} {w₁ : σ} {masked : Masked} {w₂ : σ}
    (reached : Reaches p start w .sanitize r w₁) (first : r.restarts < maxRestarts)
    (ran : exec (p.masking.mask r.model.family r.messages r.tally) w₁ = (.ok masked, w₂))
    (much : (r.budget.withUsed masked.tally.totals).exceeds p.settings.masking.fallbackRatio =
      true) : LooksUp p start w (r.budget.withUsed masked.tally.totals)
  | redacted {r : Run} {w₁ : σ} {done : Redacted} {w₂ : σ}
    (reached : Reaches p start w .redact r w₁)
    (ran : exec (p.redactEach (Run.goal r.messages) p.patience ⟨r, [], [], []⟩ (p.places r)) w₁ =
      (.ok done, w₂)) (exceeded : done.run.budget.fits = false)
    (putOff : done.run.deferred = true) (first : done.run.restarts < maxRestarts) :
    LooksUp p start w done.run.budget

/-- A compaction finds fewer exchanges than it keeps. -/
inductive FindsFew (p : Pipeline σ) (start : Run) (w : σ) : Prop where
  | intro {r : Run} {w₁ : σ} {summarize : Summarizer σ}
    (comes : ComesToCompact p start w r w₁ summarize)
    (few : Compaction.exchanges r.messages < p.preserve) : FindsFew p start w

/-- An operation of a run on token counts. -/
inductive CountsTokens (p : Pipeline σ) (start : Run) (w : σ) : Operation → Prop where
  /-- A count is added to those before it. -/
  | adds {t : Tally} {l : List Entry} {e : Entry} (sums : Sums p start w t)
    (part : l ++ [e] <+: t.entries) :
    CountsTokens p start w (sum ((Tally.totalsOf l).get e.category) e.tokens)
  /-- The count that is replaced is taken off. -/
  | takesOff {t : Tally} {index : Nat} {entry old : Entry}
    (recounts : Recounts p start w t index entry) (found : t.entries[index]? = some old) :
    CountsTokens p start w (remainder (t.totals.get old.category) old.tokens)
  /-- The count that replaces it is added. -/
  | putsIn {t : Tally} {index : Nat} {entry old : Entry}
    (recounts : Recounts p start w t index entry) (found : t.entries[index]? = some old) :
    CountsTokens p start w
      (sum ((t.totals.credit old.category old.tokens).get entry.category) entry.tokens)
  /-- The totals of the categories are added up. -/
  | memoryAndTool {totals : Totals} (has : HasTotals p start w totals) :
    CountsTokens p start w (sum totals.memory totals.tool)
  | andChat {totals : Totals} (has : HasTotals p start w totals) :
    CountsTokens p start w (sum (Word.add totals.memory totals.tool) totals.chat)

/-- An operation of a run on its passes, or on numbers of messages or of exchanges. -/
inductive CountsMessages (p : Pipeline σ) (start : Run) (w : σ) : Operation → Prop where
  /-- The passes are counted. -/
  | passes {phase : Phase} {r : Run} {w₁ : σ} (reached : Reaches p start w phase r w₁) :
    CountsMessages p start w (sum r.restarts 1)
  /-- The place of the first exchange to keep, from the end. -/
  | exchange {r : Run} {w₁ : σ} {summarize : Summarizer σ}
    (comes : ComesToCompact p start w r w₁ summarize) (some_kept : p.preserve ≠ 0) :
    CountsMessages p start w (difference p.preserve 1)
  /-- The messages that stay are counted, and the summary. -/
  | stays {r : Run} {c : Compacted} (compacts : CompactsTo p start w r c)
    (reduced : c.reduced = true) :
    CountsMessages p start w (difference r.messages.length
      (Compaction.condensed p.settings.compaction.config r.messages).length)
  | staysAndSummary {r : Run} {c : Compacted} (compacts : CompactsTo p start w r c)
    (reduced : c.reduced = true) :
    CountsMessages p start w (sum (difference r.messages.length
      (Compaction.condensed p.settings.compaction.config r.messages).length).value 1)
  /-- The messages that were summarized are counted. -/
  | allAndSummary {r : Run} {c : Compacted} (compacts : CompactsTo p start w r c) :
    CountsMessages p start w (sum r.messages.length c.reduced.toNat)
  | summarized {r : Run} {c : Compacted} (compacts : CompactsTo p start w r c) :
    CountsMessages p start w
      (difference (Word.add r.messages.length c.reduced.toNat) c.messages.length)

/-- An operation of a run takes a number from outside: it adds the margin to the used tokens, or,
where there are fewer exchanges than are kept, it is for the place of the first message to keep. -/
inductive TakesOutside (p : Pipeline σ) (start : Run) (w : σ) : Operation → Prop where
  | required {b : Budget} (looksUp : LooksUp p start w b) :
    TakesOutside p start w (sum b.usedTokens b.reserved)
  | doubled (few : FindsFew p start w) : TakesOutside p start w (product 2 p.preserve)
  | message (few : FindsFew p start w) :
    TakesOutside p start w (difference (Word.mul 2 p.preserve) 1)

/-- A run performs an operation on words. -/
inductive Performs (p : Pipeline σ) (start : Run) (w : σ) : Operation → Prop where
  | tokens {o : Operation} (counts : CountsTokens p start w o) : Performs p start w o
  | messages {o : Operation} (counts : CountsMessages p start w o) : Performs p start w o
  | outside {o : Operation} (takes : TakesOutside p start w o) : Performs p start w o

/-! ## The operations of a stage -/

theorem Recounts.counts (h : Recounts p start w t index entry)
    (ho : o ∈ t.replaceOperations index entry) : CountsTokens p start w o := by
  unfold Tally.replaceOperations at ho
  split at ho
  · cases ho
  · rename_i old found
    rcases List.mem_pair.mp ho with rfl | rfl
    · exact .takesOff h found
    · exact .putsIn h found

theorem HasTotals.counts (h : HasTotals p start w totals) (ho : o ∈ totals.totalOperations) :
    CountsTokens p start w o := by
  rcases List.mem_pair.mp ho with rfl | rfl
  · exact .memoryAndTool h
  · exact .andChat h

theorem accountOperations_performs (reached : Reaches p start w .account r w₁)
    (h : o ∈ p.accountOperations r w₁) : Performs p start w o := by
  rcases List.mem_append.mp h with hcount | hpass
  · obtain ⟨part, tally, w₂, l, e, hpart, hran, hsum, rfl⟩ := Tokenizers.mem_countOperations hcount
    exact .tokens (.adds (.counted reached hpart hran) hsum)
  · obtain ⟨tally, w₂, -, hmem⟩ := mem_thereafter.mp hpass
    obtain rfl := List.mem_singleton.mp hmem
    exact .messages (.passes reached)

/-- Where messages are masked, only replaced counts are computed with. -/
theorem maskOperations_counts (before : List (Message × Nat)) {items : List (Message × Nat)}
    {done : Masked}
    (reached : Reaches p start w .sanitize r w₁) (hall : before ++ items = r.messages.zipIdx)
    (ran : exec (p.masking.maskEach r.model.family ⟨r.messages, r.tally, [], []⟩ before) w₁ =
      (.ok done, w₂))
    (h : o ∈ p.masking.maskOperations r.model.family done items w₂) : CountsTokens p start w o := by
  induction items generalizing before done w₂ with
  | nil => cases h
  | cons item rest ih =>
    obtain ⟨m, index⟩ := item
    obtain ⟨next, w₃, hone, hmem⟩ := mem_thereafter.mp h
    have hpart : before ++ [(m, index)] <+: r.messages.zipIdx := ⟨rest, by simpa using hall⟩
    rcases List.mem_append.mp hmem with hnow | hlater
    · cases Masking.maskOne_cases hone with
      | left => simp at hnow
      | late => simp at hnow
      | refused => simp at hnow
      | stored time _ _ id _ entry =>
        rw [if_neg (by simp), Tally.adoptOperations_replace] at hnow
        exact Recounts.counts (.masked reached hpart ran hone (by simp) rfl) hnow
    · refine ih (before ++ [(m, index)]) (by simpa using hall) ?_ hlater
      rw [Masking.maskEach_concat, exec_bind, ran]
      exact hone

theorem sanitizeOperations_performs (hstart : start.budget.used = start.tally.totals)
    (reached : Reaches p start w .sanitize r w₁) (h : o ∈ p.sanitizeOperations r w₁) :
    Performs p start w o := by
  rcases List.mem_append.mp h with hmask | hafter
  · exact .tokens (maskOperations_counts [] reached rfl rfl hmask)
  · obtain ⟨masked, w₂, hran, hmem⟩ := mem_thereafter.mp hafter
    have hhas := maskEach_hasTally reached (reaches_tallied hstart reached).has List.prefix_rfl
      (Masking.mask_eq p.masking _ _ _ ▸ hran)
    rcases List.mem_append.mp hmem with htotal | hlooks
    · exact .tokens (HasTotals.counts (.tally hhas) htotal)
    · obtain ⟨⟨hmuch, hcatalog⟩, hsum⟩ := List.mem_ite_nil_right.mp hlooks
      obtain rfl := List.mem_singleton.mp hsum
      have hfirst : r.restarts < maxRestarts := by
        by_contra hlast
        simp [hlast] at hcatalog
      exact .outside (.required (.masked reached hfirst hran hmuch))

/-- Where messages are redacted, the totals are added up before each of them, and replaced counts
are computed with. -/
theorem redactEachOperations_counts (before : List Nat) {places : List Nat} {done : Redacted}
    (hstart : start.budget.used = start.tally.totals) (reached : Reaches p start w .redact r w₁)
    (hall : before ++ places = p.places r)
    (ran : exec (p.redactEach (Run.goal r.messages) p.patience ⟨r, [], [], []⟩ before) w₁ =
      (.ok done, w₂))
    (h : o ∈ p.redactEachOperations (Run.goal r.messages) p.patience done places w₂) :
    CountsTokens p start w o := by
  induction places generalizing before done w₂ with
  | nil => cases h
  | cons index rest ih =>
    have hpart : before ++ [index] <+: p.places r := ⟨rest, by simpa using hall⟩
    have htallied := redactEach_tallied reached (reaches_tallied hstart reached)
      ((List.prefix_append _ _).trans hpart) ran
    rcases List.mem_append.mp h with htotal | hone
    · rw [htallied.used] at htotal
      exact HasTotals.counts (.tally htallied.has) htotal
    · split at hone
      · cases hone
      · rename_i exceeded
        have exceeded := Bool.eq_false_iff.mpr exceeded
        obtain ⟨next, w₃, hgiven, hmem⟩ := mem_thereafter.mp hone
        rcases List.mem_append.mp hmem with hnow | hlater
        · cases redactOne_cases hgiven with
          | absent => simp [Redacted.attempt] at hnow
          | late => simp [Redacted.warn, Redacted.attempt] at hnow
          | same => simp [Redacted.warn, Redacted.attempt] at hnow
          | replaced m _ response _ entry =>
            rw [if_neg (by simp [Redacted.replace, Redacted.warn, Redacted.attempt])] at hnow
            have hnow : o ∈ done.run.tally.replaceOperations index entry :=
              Tally.adoptOperations_replace _ _ _ ▸ hnow
            refine Recounts.counts (.redacted reached hpart ran exceeded hgiven ?_ rfl) hnow
            simp [Redacted.replace, Redacted.warn, Redacted.attempt]
        · refine ih (before ++ [index]) (by simpa using hall) ?_ hlater
          rw [redactEach_concat, exec_bind, ran]
          simpa only [exceeded, Bool.false_eq_true, if_false] using hgiven

theorem redactOperations_performs (hstart : start.budget.used = start.tally.totals)
    (reached : Reaches p start w .redact r w₁) (h : o ∈ p.redactOperations r w₁) :
    Performs p start w o := by
  rcases List.mem_append.mp h with heach | hafter
  · exact .tokens (redactEachOperations_counts [] hstart reached rfl rfl heach)
  · obtain ⟨done, w₂, hran, hmem⟩ := mem_thereafter.mp hafter
    have htallied :=
      redactEach_tallied reached (reaches_tallied hstart reached) List.prefix_rfl hran
    rcases List.mem_append.mp hmem with htotal | hlooks
    · rw [htallied.used] at htotal
      exact .tokens (HasTotals.counts (.tally htallied.has) htotal)
    · obtain ⟨hneeded, hsum⟩ := List.mem_ite_nil_left.mp hlooks
      obtain rfl := List.mem_singleton.mp hsum
      simp only [Bool.or_eq_true, Bool.not_eq_true', decide_eq_true_eq, not_or, Bool.not_eq_true,
        Bool.not_eq_false, Nat.not_le] at hneeded
      obtain ⟨⟨exceeded, putOff⟩, first⟩ := hneeded
      exact .outside (.required (.redacted reached hran exceeded putOff first))

/-- A run has the tally of what it compacts. -/
theorem CompactsTo.hasTally {c : Compacted} (hstart : start.budget.used = start.tally.totals)
    (h : CompactsTo p start w r c) : HasTally p start w c.tally := by
  obtain ⟨⟨reached, given, due⟩, ran⟩ := id h
  cases Compaction.compact_cases ran with
  | nothing => exact (reaches_tallied hstart reached).has
  | useless => exact (reaches_tallied hstart reached).has
  | summed => exact .summed (.compacted h rfl)

theorem mem_tailStartOperations {messages : Conversation} {n : Nat} :
    o ∈ Compaction.tailStartOperations messages n ↔ n ≠ 0 ∧ (o = difference n 1 ∨
      Compaction.exchanges messages < n ∧
        (o = product 2 n ∨ o = difference (Word.mul 2 n) 1)) := by
  unfold Compaction.tailStartOperations
  by_cases hzero : n = 0
  · simp [hzero]
  rw [if_neg hzero]
  dsimp only
  split
  · rename_i q hq
    have hmany : ¬ Compaction.exchanges messages ≤ n - 1 := fun hle => by
      cases hq.symm.trans
        ((Compaction.latest_eq_none_iff (f := Compaction.opensExchange)).mpr hle)
    have hless : ¬ Compaction.exchanges messages < n := by omega
    simp [hzero, hless]
  · rename_i hnone
    have hle := (Compaction.latest_eq_none_iff (f := Compaction.opensExchange)).mp hnone
    have hfew : Compaction.exchanges messages < n := by
      change Compaction.exchanges messages ≤ n - 1 at hle
      omega
    simp [hzero, hfew]

theorem compactOperations_performs (hstart : start.budget.used = start.tally.totals)
    (reached : Reaches p start w .compact r w₁) (h : o ∈ p.compactOperations r w₁) :
    Performs p start w o := by
  unfold compactOperations at h
  split at h
  · rename_i summarize due given
    have comes : ComesToCompact p start w r w₁ summarize := ⟨reached, given, due⟩
    rcases List.mem_append.mp h with hcompact | hcounts
    · rcases List.mem_append.mp hcompact with htail | hafter
      · obtain ⟨hkept, rfl | ⟨few, rfl | rfl⟩⟩ := mem_tailStartOperations.mp htail
        · exact .messages (.exchange comes hkept)
        · exact .outside (.doubled ⟨comes, few⟩)
        · exact .outside (.message ⟨comes, few⟩)
      · obtain ⟨c, w₂, hran, hmem⟩ := mem_thereafter.mp hafter
        have compacts : CompactsTo p start w r c := ⟨comes, hran⟩
        simp only [List.mem_append] at hmem
        rcases hmem with (hsummed | hbefore) | hnow
        · split at hsummed
          · rename_i reduced
            rcases List.mem_append.mp hsummed with hstay | hsum
            · rcases List.mem_pair.mp hstay with rfl | rfl
              · exact .messages (.stays compacts reduced)
              · exact .messages (.staysAndSummary compacts reduced)
            · obtain ⟨l, e, hpart, rfl⟩ := Tally.mem_chargeOperations [] hsum
              exact .tokens (.adds (.compacted compacts reduced) hpart)
          · cases hsummed
        · exact .tokens (HasTotals.counts (.tally (reaches_tallied hstart reached).has) hbefore)
        · exact .tokens (HasTotals.counts (.tally (compacts.hasTally hstart)) hnow)
    · obtain ⟨c, w₂, hran, hmem⟩ := mem_thereafter.mp hcounts
      have compacts : CompactsTo p start w r c := ⟨comes, hran⟩
      rcases List.mem_pair.mp hmem with rfl | rfl
      · exact .messages (.allAndSummary compacts)
      · exact .messages (.summarized compacts)
  · cases h

/-! ## The operations of a whole run -/

theorem verdictOperations_counts (hstart : start.budget.used = start.tally.totals)
    (reached : Reaches p start w phase r w₁) (h : o ∈ verdictOperations r) :
    CountsTokens p start w o := by
  rcases List.mem_append.mp h with htally | hbudget
  · exact HasTotals.counts (.tally (reaches_tallied hstart reached).has) htally
  · exact HasTotals.counts (.budget reached) hbudget

theorem stageOperations_performs {stage : Run → BudgetM σ (Signal × Run)} {work : List Operation}
    (hstart : start.budget.used = start.tally.totals) (reached : Reaches p start w phase r w₁)
    (more : phase ≠ .done) (hstage : p.step phase = stage)
    (hwork : o ∈ work → Performs p start w o) (h : o ∈ stageOperations stage work r w₁) :
    Performs p start w o := by
  rcases List.mem_append.mp h with hfirst | hafter
  · rcases List.mem_append.mp hfirst with hbefore | hduring
    · exact .tokens (HasTotals.counts (.tally (reaches_tallied hstart reached).has) hbefore)
    · exact hwork hduring
  · obtain ⟨⟨signal, r'⟩, w₂, hran, hmem⟩ := mem_thereafter.mp hafter
    have hnext : Reaches p start w (phase.next signal) r' w₂ :=
      reached.step more (by rw [hstage]; exact hran)
    rcases List.mem_append.mp hmem with hmove | hverdict
    · obtain ⟨-, hpass⟩ := List.mem_ite_nil_left.mp hmove
      obtain rfl := List.mem_singleton.mp hpass
      exact .messages (.passes reached)
    · exact .tokens (verdictOperations_counts hstart hnext hverdict)

theorem stepOperations_performs (hstart : start.budget.used = start.tally.totals)
    (reached : Reaches p start w phase r w₁) (h : o ∈ p.stepOperations phase r w₁) :
    Performs p start w o := by
  cases phase with
  | start => cases h
  | account =>
    exact stageOperations_performs hstart reached (by decide) rfl
      (accountOperations_performs reached) h
  | sanitize =>
    exact stageOperations_performs hstart reached (by decide) rfl
      (sanitizeOperations_performs hstart reached) h
  | redact =>
    exact stageOperations_performs hstart reached (by decide) rfl
      (redactOperations_performs hstart reached) h
  | compact =>
    exact stageOperations_performs hstart reached (by decide) rfl
      (compactOperations_performs hstart reached) h
  | done => cases h

/-- No operation of a run is of another kind. -/
theorem driveOperations_performs {fuel : Nat} (hstart : start.budget.used = start.tally.totals)
    (reached : Reaches p start w phase r w₁) (h : o ∈ p.driveOperations fuel phase r w₁) :
    Performs p start w o := by
  induction fuel generalizing phase r w₁ with
  | zero => cases h
  | succ fuel ih =>
    rw [driveOperations] at h
    split at h
    · exact .tokens (verdictOperations_counts hstart reached h)
    · rename_i more
      rcases List.mem_append.mp h with hstep | hlater
      · exact stepOperations_performs hstart reached hstep
      · obtain ⟨⟨signal, r'⟩, w₂, hran, hmem⟩ := mem_thereafter.mp hlater
        exact ih (reached.step more hran) hmem

/-- From where the loop over the phases comes to, its operations go on to those at its end. -/
theorem Reaches.driveOperations_subset (hrestarts : start.restarts = 0)
    (hreach : Reaches p start w phase r w₁) :
    ∃ fuel, rank phase r.restarts ≤ fuel ∧
      p.driveOperations fuel phase r w₁ ⊆ p.driveOperations maxPhases .start start w := by
  induction hreach with
  | start => exact ⟨maxPhases, by rw [hrestarts]; decide, fun _ h => h⟩
  | step before more ran ih =>
    obtain ⟨fuel, hfuel, hsubset⟩ := ih
    obtain ⟨stages, hstepped, -⟩ := step_cases ran
    have hless := hstepped.rank_lt more
    obtain ⟨fuel, rfl⟩ : ∃ n, fuel = n + 1 := ⟨fuel - 1, by omega⟩
    refine ⟨fuel, by omega, fun o ho => hsubset ?_⟩
    rw [driveOperations, if_neg more]
    exact List.mem_append_right _ (mem_thereafter.mpr ⟨_, _, ran, ho⟩)

/-- Wherever a run comes to before its last phase, it performs the operations of the phase there. -/
theorem Reaches.stepOperations_subset (hrestarts : start.restarts = 0)
    (hreach : Reaches p start w phase r w₁) (more : phase ≠ .done) :
    p.stepOperations phase r w₁ ⊆ p.driveOperations maxPhases .start start w := by
  obtain ⟨fuel, hfuel, hsubset⟩ := hreach.driveOperations_subset hrestarts
  have hpos : 0 < rank phase r.restarts := rank_pos more
  obtain ⟨fuel, rfl⟩ : ∃ n, fuel = n + 1 := ⟨fuel - 1, by omega⟩
  refine fun o ho => hsubset ?_
  rw [driveOperations, if_neg more]
  exact List.mem_append_left _ ho

/-- The operations of the work of a stage are operations of the stage. -/
theorem work_subset (stage : Run → BudgetM σ (Signal × Run)) (work : List Operation) (r : Run)
    (w : σ) : work ⊆ stageOperations stage work r w :=
  fun _ ho => List.mem_append_left _ (List.mem_append_right _ ho)

/-- Where a run looks for a larger model, it adds the margin to the used tokens. -/
theorem LooksUp.mem_driveOperations (hrestarts : start.restarts = 0)
    (h : LooksUp p start w b) :
    sum b.usedTokens b.reserved ∈ p.driveOperations maxPhases .start start w := by
  cases h with
  | masked reached first ran much =>
    refine reached.stepOperations_subset hrestarts (by decide) (work_subset _ _ _ _ ?_)
    refine List.mem_append_right _ (mem_thereafter.mpr ⟨_, _, ran, List.mem_append_right _ ?_⟩)
    exact List.mem_ite_nil_right.mpr ⟨⟨much, by simp [first]⟩, List.mem_singleton.mpr rfl⟩
  | redacted reached ran exceeded putOff first =>
    refine reached.stepOperations_subset hrestarts (by decide) (work_subset _ _ _ _ ?_)
    refine List.mem_append_right _ (mem_thereafter.mpr ⟨_, _, ran, List.mem_append_right _ ?_⟩)
    refine List.mem_ite_nil_left.mpr ⟨?_, List.mem_singleton.mpr rfl⟩
    simp [exceeded, putOff, Nat.not_le.mpr first]

/-- Where a run finds fewer exchanges than it keeps, it doubles how many it keeps. -/
theorem FindsFew.mem_driveOperations (hrestarts : start.restarts = 0) (h : FindsFew p start w) :
    product 2 p.preserve ∈ p.driveOperations maxPhases .start start w := by
  obtain @⟨r, w₁, summarize, ⟨reached, given, due⟩, few⟩ := h
  refine reached.stepOperations_subset hrestarts (by decide) (work_subset _ _ _ _ ?_)
  unfold compactOperations
  rw [due, given]
  refine List.mem_append_left _ (List.mem_append_left _ (mem_tailStartOperations.mpr ⟨?_, ?_⟩))
  · exact Nat.ne_zero_of_lt few
  · exact .inr ⟨few, .inl rfl⟩

end Pipeline
end ContextBudget

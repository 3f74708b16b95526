import ContextBudget.Proofs.Run.Accounting
import ContextBudget.Proofs.Run.Redaction
import ContextBudget.Proofs.Tokens.Operations
import ContextBudget.Proofs.Tokens.Standing

/-!
# The tallies of a run

A run adds up a tally when it counts a conversation and when a summary has come into it. In between
it replaces one count at a time: that of a message that was masked or redacted.

- `Sums`: the tallies that are added up; `Recounts`: where a count is replaced; `HasTally`: all
  tallies of a run.
- `reaches_tallied`: wherever a run comes to, it has such a tally, and its budget follows it.
- `HasTally.addsUp`: the totals are those of the counts, as long as these are together a word.
- `HasTally.tokensIn_lt`: that they are is a matter of the conversations that the run holds.
-/

namespace ContextBudget

open BudgetM

theorem Masking.maskEach_concat {σ : Type} (k : Masking σ) (family : String) (done : Masked)
    (items : List (Message × Nat)) (m : Message) (index : Nat) :
    k.maskEach family done (items ++ [(m, index)]) = (do
      let done ← k.maskEach family done items
      k.maskOne family done m index) := by
  rw [maskEach, List.foldlM_append]
  simp only [List.foldlM_cons, List.foldlM_nil, bind_pure]
  rfl

namespace Pipeline

variable {σ : Type} {p : Pipeline σ} {start r r' : Run} {phase : Phase} {signal : Signal}
  {t : Tally} {index : Nat} {entry : Entry} {count : String → String → Nat} {w w₁ w' : σ}

/-- A run comes to a compaction that is due. -/
structure ComesToCompact (p : Pipeline σ) (start : Run) (w : σ) (r : Run) (w₁ : σ)
    (summarize : Summarizer σ) : Prop where
  reached : Reaches p start w .compact r w₁
  given : p.summarizer = some summarize
  due : p.skipReason? r = none

/-- What a compaction makes of the conversation of a run. -/
inductive CompactsTo (p : Pipeline σ) (start : Run) (w : σ) (r : Run) : Compacted → Prop where
  | intro {w₁ : σ} {summarize : Summarizer σ} {c : Compacted} {w₂ : σ}
    (comes : ComesToCompact p start w r w₁ summarize)
    (ran : exec (Compaction.compact p.tokenizers summarize p.settings.compaction.config
      r.model.family r.messages r.tally) w₁ = (.ok c, w₂)) : CompactsTo p start w r c

/-- A run adds up a tally: the counts that have come so far, or those of a conversation with a
summary. -/
inductive Sums (p : Pipeline σ) (start : Run) (w : σ) : Tally → Prop where
  | counted {r : Run} {w₁ : σ} {part : Conversation} {tally : Tally} {w₂ : σ}
    (reached : Reaches p start w .account r w₁) (sofar : part <+: r.messages)
    (ran : exec (p.tokenizers.count r.model.family part) w₁ = (.ok tally, w₂)) :
    Sums p start w tally
  | compacted {r : Run} {c : Compacted} (compacts : CompactsTo p start w r c)
    (reduced : c.reduced = true) : Sums p start w c.tally

/-- In a run, the count of a message gives way to that of its placeholder or of what a redactor
left of it. -/
inductive Recounts (p : Pipeline σ) (start : Run) (w : σ) : Tally → Nat → Entry → Prop where
  | masked {r : Run} {w₁ : σ} {items : List (Message × Nat)} {done : Masked} {w₂ : σ} {m : Message}
    {index : Nat} {next : Masked} {w₃ : σ} {entry : Entry}
    (reached : Reaches p start w .sanitize r w₁)
    (part : items ++ [(m, index)] <+: r.messages.zipIdx)
    (ran : exec (p.masking.maskEach r.model.family ⟨r.messages, r.tally, [], []⟩ items) w₁ =
      (.ok done, w₂))
    (one : exec (p.masking.maskOne r.model.family done m index) w₂ = (.ok next, w₃))
    (stored : next.handles ≠ done.handles) (tally : next.tally = done.tally.replace index entry) :
    Recounts p start w done.tally index entry
  | redacted {r : Run} {w₁ : σ} {places : List Nat} {done : Redacted} {w₂ : σ} {index : Nat}
    {next : Redacted} {w₃ : σ} {entry : Entry} (reached : Reaches p start w .redact r w₁)
    (part : places ++ [index] <+: p.places r)
    (ran : exec (p.redactEach (Run.goal r.messages) p.patience ⟨r, [], [], []⟩ places) w₁ =
      (.ok done, w₂))
    (exceeded : done.run.budget.fits = false)
    (one : exec (p.redactOne (Run.goal r.messages) p.patience done index) w₂ = (.ok next, w₃))
    (reduced : next.reduced ≠ done.reduced)
    (tally : next.run.tally = done.run.tally.replace index entry) :
    Recounts p start w done.run.tally index entry

/-- A tally that a run has: none at first, and then one that it adds up or in which it replaces a
count. -/
inductive HasTally (p : Pipeline σ) (start : Run) (w : σ) : Tally → Prop where
  | start : HasTally p start w start.tally
  | summed {t : Tally} (sums : Sums p start w t) : HasTally p start w t
  | recounted {t : Tally} {index : Nat} {entry : Entry} (before : HasTally p start w t)
    (recounts : Recounts p start w t index entry) : HasTally p start w (t.replace index entry)

/-! ## Each tally adds up -/

theorem Sums.eq_ofEntries (h : Sums p start w t) : t = .ofEntries t.entries := by
  cases h with
  | counted reached sofar ran =>
    obtain ⟨ns, w₂, -, hpure⟩ := bind_ran ran
    obtain ⟨rfl, -⟩ := pure_ran hpure
    rfl
  | compacted compacts reduced =>
    obtain ⟨comes, ran⟩ := compacts
    cases Compaction.compact_cases ran with
    | nothing => cases reduced
    | useless => cases reduced
    | summed => rfl

/-- As long as the counts of each tally of a run are together a word, each tally adds up. -/
theorem HasTally.addsUp (hstart : start.tally = .empty)
    (hsmall : ∀ t, HasTally p start w t → tokensIn t.entries < Word.size)
    (h : HasTally p start w t) : t.AddsUp := by
  induction h with
  | start =>
    rw [hstart]
    exact Tally.empty_addsUp
  | summed sums =>
    rw [sums.eq_ofEntries]
    exact Tally.addsUp_ofEntries (hsmall _ (.summed sums))
  | recounted before recounts ih =>
    have hreplaced := hsmall _ (.recounted before recounts)
    rw [Tokenizers.entries_replace] at hreplaced
    exact ih.replace hreplaced

/-! ## The tally of a run -/

/-- The budget of a run follows its tally, and keeps the margin. -/
structure Tallied (p : Pipeline σ) (start : Run) (w : σ) (r : Run) : Prop where
  has : HasTally p start w r.tally
  used : r.budget.used = r.tally.totals
  reserved : r.budget.reserved = start.budget.reserved

theorem maskEach_hasTally {items : List (Message × Nat)} {done : Masked}
    (reached : Reaches p start w .sanitize r w₁) (before : HasTally p start w r.tally)
    (part : items <+: r.messages.zipIdx)
    (ran : exec (p.masking.maskEach r.model.family ⟨r.messages, r.tally, [], []⟩ items) w₁ =
      (.ok done, w')) : HasTally p start w done.tally := by
  induction items using List.reverseRecOn generalizing done w' with
  | nil =>
    obtain ⟨rfl, -⟩ := pure_ran ran
    exact before
  | append_singleton items item ih =>
    obtain ⟨m, index⟩ := item
    rw [Masking.maskEach_concat] at ran
    obtain ⟨last, w₂, hlast, hone⟩ := bind_ran ran
    have hbefore := ih ((List.prefix_append _ _).trans part) hlast
    cases Masking.maskOne_cases hone with
    | left => exact hbefore
    | late => exact hbefore
    | refused => exact hbefore
    | stored time _ _ id _ entry =>
      exact hbefore.recounted (.masked reached part hlast hone (by simp) rfl)

theorem redactEach_tallied {places : List Nat} {done : Redacted}
    (reached : Reaches p start w .redact r w₁) (before : Tallied p start w r)
    (part : places <+: p.places r)
    (ran : exec (p.redactEach (Run.goal r.messages) p.patience ⟨r, [], [], []⟩ places) w₁ =
      (.ok done, w')) : Tallied p start w done.run := by
  induction places using List.reverseRecOn generalizing done w' with
  | nil =>
    obtain ⟨rfl, -⟩ := pure_ran ran
    exact before
  | append_singleton places index ih =>
    rw [redactEach_concat] at ran
    obtain ⟨last, w₂, hlast, hone⟩ := bind_ran ran
    have hbefore := ih ((List.prefix_append _ _).trans part) hlast
    split at hone
    · obtain ⟨rfl, -⟩ := pure_ran hone
      exact hbefore
    · rename_i exceeded
      cases redactOne_cases hone with
      | absent => exact ⟨hbefore.has, hbefore.used, hbefore.reserved⟩
      | late => exact ⟨hbefore.has, hbefore.used, hbefore.reserved⟩
      | same => exact ⟨hbefore.has, hbefore.used, hbefore.reserved⟩
      | replaced m _ response _ entry =>
        refine ⟨hbefore.has.recounted (.redacted reached part hlast
          (Bool.eq_false_iff.mpr exceeded) hone ?_ rfl), rfl, hbefore.reserved⟩
        simp [Redacted.replace, Redacted.warn, Redacted.attempt]

theorem maskStage_tallied {move : Option Fallback} (reached : Reaches p start w .sanitize r w₁)
    (before : Tallied p start w r) (ran : exec (p.maskStage r) w₁ = (.ok (move, r'), w')) :
    Tallied p start w r' := by
  obtain ⟨masked, w₂, detail, hmasked, -, hrecord⟩ := maskStage_ran ran
  obtain ⟨e, -, rfl, -⟩ := record_ran hrecord
  exact ⟨maskEach_hasTally reached before.has List.prefix_rfl hmasked, rfl, before.reserved⟩

theorem redactStage_tallied (reached : Reaches p start w .redact r w₁)
    (before : Tallied p start w r) (ran : exec (p.redactStage r) w₁ = (.ok r', w')) :
    Tallied p start w r' := by
  obtain ⟨done, w₂, r₀, heach, hrecord, rfl⟩ := redactStage_ran ran
  obtain ⟨has, used, reserved⟩ := redactEach_tallied reached before List.prefix_rfl heach
  obtain ⟨e, -, rfl, -⟩ := record_ran hrecord
  exact ⟨has, used, reserved⟩

theorem fallBack_tallied {m : Fallback} (before : Tallied p start w r)
    (h : (p.fallBack r m).run w₁ = (r', w')) : Tallied p start w r' := by
  unfold fallBack at h
  split at h
  · cases h
    exact before
  · obtain ⟨e, -, rfl, -⟩ := record_ran h
    exact ⟨before.has, before.used, before.reserved⟩

theorem compact_tallied (reached : Reaches p start w .compact r w₁) (before : Tallied p start w r)
    (ran : exec (p.compact r) w₁ = (.ok (signal, r'), w')) : Tallied p start w r' := by
  obtain ⟨-, hcompact⟩ := compact_ran ran
  rcases hcompact with ⟨detail, hrecord⟩ | ⟨summarize, c, w₂, detail, given, due, hc, hrecord⟩
  · obtain ⟨e, -, rfl, -⟩ := record_ran hrecord
    exact ⟨before.has, before.used, before.reserved⟩
  · obtain ⟨e, -, rfl, -⟩ := record_ran hrecord
    refine ⟨?_, rfl, before.reserved⟩
    have hcompacts : CompactsTo p start w r c := .intro ⟨reached, given, due⟩ hc
    cases Compaction.compact_cases hc with
    | nothing => exact before.has
    | useless => exact before.has
    | summed => exact .summed (.compacted hcompacts rfl)

/-- Wherever a run comes to, it has a tally, and its budget follows it. -/
theorem reaches_tallied (hstart : start.budget.used = start.tally.totals)
    (hreach : Reaches p start w phase r w') : Tallied p start w r := by
  induction hreach with
  | start => exact ⟨.start, hstart, rfl⟩
  | @step phase r w₁ signal r' w₂ before more ran ih =>
    cases phase with
    | start =>
      obtain ⟨heq, -⟩ := pure_ran ran
      cases heq
      exact ih
    | account =>
      obtain ⟨tally, w₀, detail, hcount, -, hrecord⟩ := account_ran ran
      obtain ⟨e, -, rfl, -⟩ := record_ran hrecord
      exact ⟨.summed (.counted before List.prefix_rfl hcount), rfl, ih.reserved⟩
    | sanitize =>
      obtain ⟨move, r₁, w₀, hmask, hafter⟩ := sanitize_ran ran
      have hmasked := maskStage_tallied before ih hmask
      cases hafter with
      | goesOn => exact hmasked
      | putOff => exact ⟨hmasked.has, hmasked.used, hmasked.reserved⟩
      | moved _ _ _ _ _ _ fell => exact fallBack_tallied hmasked fell
    | redact =>
      obtain ⟨r₁, w₀, hredact, hafter⟩ := redact_ran ran
      have hredacted := redactStage_tallied before ih hredact
      cases hafter with
      | goesOn => exact hredacted
      | moved _ _ _ _ _ _ _ fell => exact fallBack_tallied hredacted fell
    | compact => exact compact_tallied before ih ran
    | done => exact absurd rfl more

/-- A count is replaced only in a tally of the run. -/
theorem Recounts.hasTally (hstart : start.budget.used = start.tally.totals)
    (h : Recounts p start w t index entry) : HasTally p start w t := by
  cases h with
  | masked reached part ran =>
    exact maskEach_hasTally reached (reaches_tallied hstart reached).has
      ((List.prefix_append _ _).trans part) ran
  | redacted reached part ran =>
    exact (redactEach_tallied reached (reaches_tallied hstart reached)
      ((List.prefix_append _ _).trans part) ran).has

/-! ## The tokens of a tally -/

theorem weight_part_le {family : String} {part messages : Conversation}
    (h : part <+: messages) : weight count family part ≤ weight count family messages := by
  obtain ⟨rest, rfl⟩ := h
  simp [weight]

/-- A run holds what it has made of its conversation when it compacts it. -/
theorem CompactsTo.held {c : Compacted} (h : CompactsTo p start w r c) :
    Held p start w r.model.family c.messages := by
  obtain @⟨w₁, summarize, c, w₂, ⟨reached, given, due⟩, ran⟩ := h
  have hcompact : ∃ signal r' w', exec (p.compact r) w₁ = (.ok (signal, r'), w') ∧
      r'.model = r.model ∧ r'.messages = c.messages := by
    simp only [compact, due, given]
    rw [exec_bind, ran]
    exact ⟨_, _, _, rfl, rfl, rfl⟩
  obtain ⟨signal, r', w', hran, hmodel, hmessages⟩ := hcompact
  rw [← hmodel, ← hmessages]
  exact .compacted reached hran

/-- With counters that are functions of the text, the entries of a tally that is added up are those
of what a run holds, or of the first messages of that. -/
theorem Sums.entries (hcounters : p.tokenizers.CountsBy count)
    (hsmall : ∀ family messages, Held p start w family messages →
      weight count family messages < Word.size) (h : Sums p start w t) :
    ∃ family messages part, Held p start w family messages ∧ part <+: messages ∧
      t.entries = entriesOf count family part := by
  cases h with
  | counted reached sofar ran =>
    obtain rfl := Tokenizers.count_ran hcounters ran
    exact ⟨_, _, _, .entered reached, sofar, rfl⟩
  | compacted compacts reduced =>
    have hheld := compacts.held
    obtain ⟨⟨reached, given, due⟩, ran⟩ := compacts
    have hexact := reaches_exact hcounters hsmall reached (by decide) (by decide)
    exact ⟨_, _, _, hheld, List.prefix_rfl,
      (Compaction.compact_exact hcounters hexact.tally ran (hsmall _ _ hheld)).entries⟩

/-- So are those of a tally in which a count was replaced. -/
theorem Recounts.entries (hcounters : p.tokenizers.CountsBy count)
    (hsmall : ∀ family messages, Held p start w family messages →
      weight count family messages < Word.size) (h : Recounts p start w t index entry) :
    ∃ family messages, Held p start w family messages ∧
      (t.replace index entry).entries = entriesOf count family messages := by
  cases h with
  | @masked r w₁ items done w₂ m _ next w₃ _ reached part ran one _ tally =>
    have hmasked : exec (p.masking.maskEach r.model.family ⟨r.messages, r.tally, [], []⟩
        (items ++ [(m, index)])) w₁ = (.ok next, w₃) := by
      rw [Masking.maskEach_concat, exec_bind, ran]
      exact one
    have hexact := reaches_exact hcounters hsmall reached (by decide) (by decide)
    rw [← tally]
    exact ⟨_, _, .masked reached part hmasked, (Masking.maskEach_exact hcounters hexact.tally
      (fun _ _ _ hpart hrun => hsmall _ _ (.masked reached (hpart.trans part) hrun))
      hmasked).entries⟩
  | @redacted r w₁ places done w₂ _ next w₃ _ reached part ran exceeded one _ tally =>
    have hredacted : exec (p.redactEach (Run.goal r.messages) p.patience ⟨r, [], [], []⟩
        (places ++ [index])) w₁ = (.ok next, w₃) := by
      rw [redactEach_concat, exec_bind, ran]
      simpa only [exceeded, Bool.false_eq_true, if_false] using one
    have hexact := reaches_exact hcounters hsmall reached (by decide) (by decide)
    rw [← tally]
    exact ⟨_, _, .redacted reached part hredacted, (redactEach_exact hcounters hexact
      (fun _ _ _ hpart hrun => hsmall _ _ (.redacted reached (hpart.trans part) hrun))
      hredacted).tally.entries⟩

/-- With counters that are functions of the text, the counts of each tally of a run are together a
word if the tokens of each conversation are that the run holds. -/
theorem HasTally.tokensIn_lt (hcounters : p.tokenizers.CountsBy count)
    (hstart : start.tally = .empty)
    (hsmall : ∀ family messages, Held p start w family messages →
      weight count family messages < Word.size) (h : HasTally p start w t) :
    tokensIn t.entries < Word.size := by
  cases h with
  | start =>
    rw [hstart]
    decide
  | summed sums =>
    obtain ⟨family, messages, part, hheld, hpart, hentries⟩ := sums.entries hcounters hsmall
    rw [hentries, tokensIn_entriesOf]
    exact Nat.lt_of_le_of_lt (weight_part_le hpart) (hsmall _ _ hheld)
  | recounted before recounts =>
    obtain ⟨family, messages, hheld, hentries⟩ := recounts.entries hcounters hsmall
    rw [hentries, tokensIn_entriesOf]
    exact hsmall _ _ hheld

end Pipeline
end ContextBudget

import ContextBudget.Proofs.Compaction.Splice
import ContextBudget.Proofs.Run.LargerModel
import ContextBudget.Proofs.Run.Operations
import ContextBudget.Proofs.Run.Savings

/-!
# The words of a run

As long as the counts that a run has are together a word, its totals are, and what replaces a count
is exact; so are the numbers of messages, since a run never has more of them than one above those
that it began with. Nothing keeps in the words what comes from outside: the used tokens and the
margin, which are added where a larger model is looked for, and the double of the number of
exchanges to keep, where there are fewer of them.

- `CountsTokens.exact`, `CountsMessages.exact`: a run counts tokens and messages exactly.
- `StaysInWords`: the results of the two operations that take a number from outside are words.
- `operations_exact_iff`: just then all operations are exact, and a machine that checks for overflow
  goes through with the run.
- `not_exact_widest`: with the widest margin, one of them is not.
-/

namespace ContextBudget
namespace Pipeline

open BudgetM Operation

variable {σ : Type} {p : Pipeline σ} {start r r' : Run} {phase : Phase} {request : RunRequest}
  {model : Model} {reserved : Nat} {t : Tally} {b : Budget} {c : Compacted} {w w₁ w' : σ}

/-! ## Bounds -/

theorem reaches_restarts_le (hstart : start.restarts = 0) (hreach : Reaches p start w phase r w') :
    r.restarts ≤ maxRestarts := by
  induction hreach with
  | start =>
    rw [hstart]
    exact Nat.zero_le _
  | step before more ran ih =>
    obtain ⟨stages, hstepped, -⟩ := step_cases ran
    rcases hstepped.keeps_or_moves with ⟨-, -, -, hrestarts⟩ | ⟨-, -, hrestarts, -⟩
    · exact hrestarts ▸ ih
    · exact Nat.le_of_eq hrestarts

/-- A run has no more messages than it began with. -/
theorem reaches_length_le (hreach : Reaches p (.begin request model reserved) w phase r w') :
    r.messages.length ≤ request.messages.length :=
  (Held.entered hreach).length_le (by simp [Unsummed, Run.begin])

theorem CompactsTo.length_le (h : CompactsTo p (.begin request model reserved) w r c) :
    r.messages.length ≤ request.messages.length := by
  obtain ⟨⟨reached, -, -⟩, -⟩ := h
  exact reaches_length_le reached

/-- The messages that give way are messages of the conversation. -/
theorem length_condensed_le (config : CompactionConfig) (messages : Conversation) :
    (Compaction.condensed config messages).length ≤ messages.length := by
  have hsplit := Compaction.length_preserved config messages
  rw [Compaction.gone_eq, List.length_map] at hsplit
  omega

/-- A compaction adds no message but the summary. -/
theorem CompactsTo.length_messages_le (h : CompactsTo p start w r c) :
    c.messages.length ≤ r.messages.length + c.reduced.toNat := by
  obtain ⟨-, ran⟩ := h
  cases Compaction.compact_cases ran with
  | nothing => exact Nat.le_refl _
  | useless => exact Nat.le_refl _
  | summed first place rest _ _ text summary entry _ some_left =>
    obtain ⟨before, after, heq, hkept, -⟩ := Compaction.splice_eq some_left summary
    have hsplit := Compaction.length_preserved p.settings.compaction.config r.messages
    have hlength := congrArg List.length hkept
    change (Compaction.splice _ _ _ _).length ≤ _ + 1
    rw [heq]
    simp only [List.length_append, List.length_cons] at hlength ⊢
    omega

/-- A larger model is looked for with a tally of the run, and with its margin. -/
theorem LooksUp.follows (h : LooksUp p (.begin request model reserved) w b) :
    (∃ t, HasTally p (.begin request model reserved) w t ∧ b.used = t.totals) ∧
      b.reserved = reserved := by
  cases h with
  | masked reached first ran much =>
    have htallied := reaches_tallied rfl reached
    rw [Masking.mask_eq] at ran
    exact ⟨⟨_, maskEach_hasTally reached htallied.has List.prefix_rfl ran, rfl⟩, htallied.reserved⟩
  | redacted reached ran =>
    have htallied := redactEach_tallied reached (reaches_tallied rfl reached) List.prefix_rfl ran
    exact ⟨⟨_, htallied.has, htallied.used⟩, htallied.reserved⟩

theorem LooksUp.usedTokens_lt (h : LooksUp p (.begin request model reserved) w b)
    (hcounts : ∀ t, HasTally p (.begin request model reserved) w t →
      tokensIn t.entries < Word.size) : b.usedTokens < Word.size := by
  obtain ⟨⟨t, ht, hused⟩, -⟩ := h.follows
  have hsmall := hcounts t ht
  rw [← (ht.addsUp rfl hcounts).total hsmall] at hsmall
  change b.used.total < _
  rw [hused]
  exact hsmall

theorem HasTotals.exists_tally {totals : Totals} (hstart : start.budget.used = start.tally.totals)
    (h : HasTotals p start w totals) : ∃ t, HasTally p start w t ∧ totals = t.totals := by
  cases h with
  | tally has => exact ⟨_, has, rfl⟩
  | budget reached =>
    have htallied := reaches_tallied hstart reached
    exact ⟨_, htallied.has, htallied.used⟩

/-! ## Exactness -/

/-- A run counts tokens exactly. -/
theorem CountsTokens.exact {o : Operation}
    (hcounts : ∀ t, HasTally p (.begin request model reserved) w t →
      tokensIn t.entries < Word.size)
    (h : CountsTokens p (.begin request model reserved) w o) : o.Exact := by
  have haddsUp : ∀ {t}, HasTally p (.begin request model reserved) w t → t.AddsUp :=
    fun has => has.addsUp rfl hcounts
  cases h with
  | @adds t l e sums part =>
    obtain ⟨rest, hall⟩ := part
    have hsmall := hcounts t (.summed sums)
    rw [← hall, tokensIn_append] at hsmall
    exact Tally.adds_exact (by omega)
  | takesOff recounts found => exact (haddsUp (recounts.hasTally rfl)).takesOff_exact found
  | putsIn recounts found =>
    have hsmall := hcounts _ (.recounted (recounts.hasTally rfl) recounts)
    rw [Tokenizers.entries_replace] at hsmall
    exact (haddsUp (recounts.hasTally rfl)).putsIn_exact found hsmall
  | memoryAndTool has =>
    obtain ⟨t, ht, rfl⟩ := has.exists_tally rfl
    exact ((haddsUp ht).total_exact (hcounts t ht)).1
  | andChat has =>
    obtain ⟨t, ht, rfl⟩ := has.exists_tally rfl
    exact ((haddsUp ht).total_exact (hcounts t ht)).2

/-- A run counts its messages exactly. No difference goes below zero: what gives way are messages of
the conversation, and a compaction adds no message but the summary. -/
theorem CountsMessages.exact {o : Operation} (hkept : p.preserve < Word.size)
    (hmessages : request.messages.length + 1 < Word.size)
    (h : CountsMessages p (.begin request model reserved) w o) : o.Exact := by
  cases h with
  | passes reached =>
    have hle := reaches_restarts_le rfl reached
    exact sum_exact_iff.mpr (Nat.lt_of_le_of_lt (Nat.succ_le_succ hle) (by decide))
  | exchange comes some_kept => exact difference_exact (Nat.pos_of_ne_zero some_kept) hkept
  | stays compacts reduced =>
    have hlength := compacts.length_le
    exact difference_exact (length_condensed_le _ _) (by omega)
  | staysAndSummary compacts reduced =>
    have hlength := compacts.length_le
    rw [value_difference (length_condensed_le _ _) (by omega)]
    exact sum_exact_iff.mpr (by omega)
  | @allAndSummary r c compacts =>
    have hlength := compacts.length_le
    have hone := c.reduced.toNat_le
    exact sum_exact_iff.mpr (by omega)
  | @summarized r c compacts =>
    have hlength := compacts.length_le
    have hone := c.reduced.toNat_le
    have hall : r.messages.length + c.reduced.toNat < Word.size := by omega
    rw [Word.add_eq hall]
    exact difference_exact compacts.length_messages_le hall

/-- The used tokens and the margin are together a word wherever a run looks for a larger model, and
the double of the number of exchanges to keep is one if the run comes to fewer of them. -/
structure StaysInWords (p : Pipeline σ) (start : Run) (w : σ) : Prop where
  lookUps : ∀ b, LooksUp p start w b → b.usedTokens + b.reserved < Word.size
  doubled : FindsFew p start w → 2 * p.preserve < Word.size

theorem StaysInWords.exact {o : Operation} (h : StaysInWords p start w)
    (ho : TakesOutside p start w o) : o.Exact := by
  cases ho with
  | required looksUp => exact sum_exact_iff.mpr (h.lookUps _ looksUp)
  | doubled few => exact product_exact_iff.mpr (h.doubled few)
  | message few =>
    have hsmall := h.doubled few
    obtain ⟨-, hfew⟩ := few
    rw [Word.mul, Nat.mod_eq_of_lt hsmall]
    exact difference_exact (by omega) hsmall

/-- A run performs an operation that overflows, unless the operations that take a number from
outside have words as their results. -/
theorem exists_overflows (hrestarts : start.restarts = 0) (h : ¬ StaysInWords p start w) :
    ∃ o ∈ p.driveOperations maxPhases .start start w, o.overflows = true := by
  by_contra hnone
  refine h ⟨fun b looksUp => ?_, fun few => ?_⟩
  · by_contra hlarge
    exact hnone ⟨_, looksUp.mem_driveOperations hrestarts, decide_eq_true (Nat.not_lt.mp hlarge)⟩
  · by_contra hlarge
    exact hnone ⟨_, few.mem_driveOperations hrestarts, decide_eq_true (Nat.not_lt.mp hlarge)⟩

theorem operations_eq (hmodel : p.resolve request = .ok model) (w : σ) :
    p.operations request w = p.driveOperations maxPhases .start
      (.begin request model (request.reserved.getD p.settings.reserved)) w := by
  rw [operations, hmodel]

theorem checked_of_exact (h : ∀ o ∈ p.operations request w, o.Exact) :
    p.checked request w = some (exec (p.run request) w) := by
  have hnone : (p.operations request w).any overflows = false :=
    List.any_eq_false.mpr fun o ho => by simp [(h o ho).overflows_eq]
  rw [checked, hnone]
  rfl

theorem checked_of_overflows {o : Operation} (ho : o ∈ p.operations request w)
    (h : o.overflows = true) : p.checked request w = none := by
  rw [checked, if_pos (List.any_eq_true.mpr ⟨o, ho, h⟩)]

/-- Let the number of exchanges to keep and the number of messages be words, and the counts of each
tally of a run be together a word. Then only operations that take a number from outside may be
inexact, and all are exact just if these have words as their results. Just then does a machine that
checks for overflow go through with the run; otherwise it stops. -/
theorem operations_exact_iff (p : Pipeline σ) (request : RunRequest) (model : Model) (w : σ)
    (hmodel : p.resolve request = .ok model) (hkept : p.preserve < Word.size)
    (hmessages : request.messages.length + 1 < Word.size)
    (hcounts : ∀ t,
      HasTally p (.begin request model (request.reserved.getD p.settings.reserved)) w t →
        tokensIn t.entries < Word.size) :
    let start := Run.begin request model (request.reserved.getD p.settings.reserved)
    (∀ o ∈ p.operations request w, o.Exact ∨ TakesOutside p start w o) ∧
      ((∀ o ∈ p.operations request w, o.Exact) ↔ StaysInWords p start w) ∧
      (p.checked request w = some (exec (p.run request) w) ↔ StaysInWords p start w) ∧
      (p.checked request w = none ↔ ¬ StaysInWords p start w) := by
  intro start
  have hperforms : ∀ o ∈ p.operations request w, o.Exact ∨ TakesOutside p start w o := by
    intro o ho
    rw [operations_eq hmodel] at ho
    cases driveOperations_performs rfl .start ho with
    | tokens counts => exact .inl (counts.exact hcounts)
    | messages counts => exact .inl (counts.exact hkept hmessages)
    | outside takes => exact .inr takes
  have hexact : StaysInWords p start w → ∀ o ∈ p.operations request w, o.Exact :=
    fun hstays o ho => (hperforms o ho).elim id hstays.exact
  have hstops : ¬ StaysInWords p start w → ∃ o ∈ p.operations request w, o.overflows = true := by
    rw [operations_eq hmodel]
    exact exists_overflows rfl
  have hnone : ¬ StaysInWords p start w → p.checked request w = none := fun hout =>
    let ⟨_, ho, hoverflows⟩ := hstops hout
    checked_of_overflows ho hoverflows
  refine ⟨hperforms, ⟨fun hall => ?_, hexact⟩, ⟨fun hsome => ?_, fun hstays => ?_⟩,
    fun hnone hstays => ?_, hnone⟩
  · by_contra hout
    obtain ⟨o, ho, hoverflows⟩ := hstops hout
    rw [(hall o ho).overflows_eq] at hoverflows
    cases hoverflows
  · by_contra hout
    cases hsome.symm.trans (hnone hout)
  · exact checked_of_exact (hexact hstays)
  · cases hnone.symm.trans (checked_of_exact (hexact hstays))

/-- With counts of at most fifty, and so few messages that these are together a word, the counts of
each tally are. -/
theorem obliging_counts (catalog : Catalog) (request : RunRequest) (model : Model) (reserved : Nat)
    (w : Unit) (hfew : request.messages.length * 50 < Word.size) (t : Tally)
    (ht : HasTally (obliging catalog) (.begin request model reserved) w t) :
    tokensIn t.entries < Word.size := by
  exact ht.tokensIn_lt (obliging_countsBy catalog) rfl fun family messages hheld =>
    hheld.weight_lt (fun text => Nat.min_le_right text.length 50) hfew

/-- The operations on the chores, which are masked, redacted and compacted, are exact. -/
theorem operations_exact_iff_chores :
    (obliging narrow).resolve chores = .ok ⟨"small", "letters", 4⟩ ∧
      (obliging narrow).preserve < Word.size ∧ chores.messages.length + 1 < Word.size ∧
      (∀ t, HasTally (obliging narrow) (.begin chores ⟨"small", "letters", 4⟩ 0) () t →
        tokensIn t.entries < Word.size) ∧
      (∀ o ∈ (obliging narrow).operations chores (), o.Exact) ∧
      (obliging narrow).checked chores () = some (exec ((obliging narrow).run chores) ()) := by
  have hmodel : (obliging narrow).resolve chores = .ok ⟨"small", "letters", 4⟩ := rfl
  have hkept : (obliging narrow).preserve < Word.size := by decide
  have hmessages : chores.messages.length + 1 < Word.size := by decide
  have hcounts := obliging_counts narrow chores ⟨"small", "letters", 4⟩ 0 () (by decide)
  have hstays : StaysInWords (obliging narrow) (.begin chores ⟨"small", "letters", 4⟩ 0) () := by
    refine ⟨fun b looksUp => ?_, fun _ => by decide⟩
    obtain ⟨-, hreserved⟩ := looksUp.follows
    rw [hreserved]
    exact looksUp.usedTokens_lt hcounts
  obtain ⟨-, hexact, hsome, -⟩ := operations_exact_iff (obliging narrow) chores
    ⟨"small", "letters", 4⟩ () hmodel hkept hmessages hcounts
  exact ⟨hmodel, hkept, hmessages, hcounts, hexact.mpr hstays, hsome.mpr hstays⟩

/-- Where a run looks for a larger model that masks after its first count. -/
theorem exists_looksUp (p : Pipeline σ) (start : Run) (w : σ)
    (h : ((exec (do
      let (signal, r) ← p.account start
      let masked ← p.masking.mask r.model.family r.messages r.tally
      return (signal, r, r.budget.withUsed masked.tally.totals)) w).1.toOption.any
        fun (signal, r, b) => decide (signal = .overBudget ∧ r.restarts < maxRestarts ∧
          b.exceeds p.settings.masking.fallbackRatio = true ∧ 0 < b.usedTokens)) = true) :
    ∃ b, LooksUp p start w b ∧ 0 < b.usedTokens := by
  obtain ⟨⟨signal, r, b⟩, hvalue, hpasses⟩ := (Option.any_eq_true _ _).mp h
  obtain ⟨rfl, hfirst, hmuch, hused⟩ := of_decide_eq_true hpasses
  obtain ⟨w', hran⟩ := ran_of_toOption hvalue
  obtain ⟨⟨counted, r₁⟩, w₁, haccount, hrest⟩ := bind_ran hran
  obtain ⟨masked, w₂, hmask, hpure⟩ := bind_ran hrest
  obtain ⟨heq, -⟩ := pure_ran hpure
  cases heq
  have hcount : Reaches p start w .account start w := Reaches.step .start (by decide) rfl
  exact ⟨_, .masked (hcount.step (by decide) haccount) hfirst hmask hmuch, hused⟩

/-- The chores with the widest margin. -/
def widest : RunRequest := { chores with reserved := some Word.last }

/-- With the widest margin, what has to fit a larger model is no word. -/
theorem not_exact_widest :
    ¬ ∀ (σ : Type) (p : Pipeline σ) (request : RunRequest) (model : Model) (reserved : Nat) (w : σ),
      p.resolve request = .ok model → reserved = request.reserved.getD p.settings.reserved →
      reserved < Word.size → p.preserve < Word.size → request.messages.length + 1 < Word.size →
      (∀ t, HasTally p (.begin request model reserved) w t → tokensIn t.entries < Word.size) →
      ∀ o ∈ p.operations request w, o.Exact := by
  intro hlaw
  have hmodel : (obliging twoModels).resolve widest = .ok ⟨"small", "letters", 4⟩ := rfl
  have hcounts := obliging_counts twoModels widest ⟨"small", "letters", 4⟩ Word.last () (by decide)
  obtain ⟨b, hlooks, hused⟩ : ∃ b, LooksUp (obliging twoModels)
      (.begin widest ⟨"small", "letters", 4⟩ Word.last) () b ∧ 0 < b.usedTokens :=
    exists_looksUp _ _ _ (by decide +kernel)
  have hexact := hlaw Unit (obliging twoModels) widest _ Word.last () hmodel rfl (by decide)
    (by decide) (by decide) hcounts (sum b.usedTokens b.reserved)
    (operations_eq hmodel () ▸ hlooks.mem_driveOperations rfl)
  obtain ⟨-, hreserved⟩ := hlooks.follows
  rw [sum_exact_iff, hreserved] at hexact
  have hlast : Word.last + 1 = Word.size := by decide
  omega

end Pipeline
end ContextBudget

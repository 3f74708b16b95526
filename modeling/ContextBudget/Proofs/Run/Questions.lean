import ContextBudget.Proofs.Run.Integrity
import ContextBudget.Proofs.Run.Reports
import ContextBudget.Proofs.Tokens.Standing

/-!
# What the redactor is asked in a run

A redaction asks for large messages first, as long as the budget is exceeded. No message is asked
for twice in a run, whatever became of it, also after a move to a larger model.

- `asks`, `redactions`: what is asked in a redaction, and the redactions that a run starts.
- `Notes`: a view of the services' state that shows what the redactor was asked.
- `reaches_tallies`: the counts that a redaction goes by stand for the messages.
- `pairwise_places`: the order of a redaction.
- `exists_prunes`, `eligible_of_isCandidate`: what is asked for is a message that may be asked for.
- `redactEach_noted`, `drive_noted`: what is asked is what the redactor is called with.
- `nodup_asked`: no place is asked for twice.
- `run_asksInOrder`: what the redactor is asked in a run.
-/

namespace ContextBudget

open BudgetM

variable {σ : Type}

/-- A message goes before another one in a redaction: it counts more, or as much and comes first in
the conversation. -/
def Run.Outranks (r : Run) (i j : Nat) : Prop :=
  r.tally.tokensAt j < r.tally.tokensAt i ∨
    (r.tally.tokensAt i = r.tally.tokensAt j ∧ i < j)

namespace Pipeline

variable {p : Pipeline σ} {request : RunRequest} {start r r' : Run} {phase : Phase}
  {signal : Signal} {goal : String} {limit : Span} {done done' : Redacted} {places : List Nat}
  {index : Nat} {m : Message} {w w' : σ}

/-! ## What is asked -/

/-- A message that the redactor is asked for, and how far the redaction has come by then. -/
structure Ask where
  soFar : Redacted
  index : Nat
  message : Message

/-- What is asked for a place. -/
def askAt (done : Redacted) (index : Nat) : List Ask :=
  (done.run.messages[index]?.map fun m => ⟨done, index, m⟩).toList

/-- What is asked in a redaction from where it has come to, the ask in which it may fail being the
last. -/
def asksFrom (p : Pipeline σ) (goal : String) (limit : Span) : Redacted → σ → List Nat → List Ask
  | _, _, [] => []
  | done, w, index :: rest =>
    if done.run.budget.fits then []
    else askAt done index ++ match exec (p.redactOne goal limit done index) w with
      | (.ok next, w') => p.asksFrom goal limit next w' rest
      | (.error _, _) => []

/-- What is asked in the redaction of a run. -/
def asks (p : Pipeline σ) (r : Run) (w : σ) : List Ask :=
  p.asksFrom (Run.goal r.messages) p.patience ⟨r, [], [], []⟩ w (p.places r)

/-- The redaction that a phase is, if it is one: the run when it begins, and the state of the
services then. -/
def redactionAt (phase : Phase) (r : Run) (w : σ) : List (Run × σ) :=
  if phase = .redact then [(r, w)] else []

/-- The redactions that the loop over the phases starts, the one in which it may fail being the
last. -/
def redactionsFrom (p : Pipeline σ) : Nat → Phase → Run → σ → List (Run × σ)
  | 0, _, _, _ => []
  | fuel + 1, phase, r, w =>
    if phase = .done then []
    else redactionAt phase r w ++ match exec (p.step phase r) w with
      | (.ok (signal, r'), w') => p.redactionsFrom fuel (phase.next signal) r' w'
      | (.error _, _) => []

/-- The redactions that a run starts. -/
def redactions (p : Pipeline σ) (request : RunRequest) (w : σ) : List (Run × σ) :=
  match p.resolve request with
  | .error _ => []
  | .ok model => p.redactionsFrom maxPhases .start
      (.begin request model (request.reserved.getD p.settings.reserved)) w

/-- The places that a redaction asks for. -/
def asked (p : Pipeline σ) (s : Run × σ) : List Nat := (p.asks s.1 s.2).map (·.index)

/-- What the redactor is called with in a redaction. -/
def questions (p : Pipeline σ) (s : Run × σ) : List PruneRequest :=
  (p.asks s.1 s.2).map fun a => p.question (Run.goal s.1.messages) a.message

/-- A view of the services' state that shows what the redactor was asked: each question comes last
when it is asked, and no other service changes what is seen. -/
structure Notes (p : Pipeline σ) (noted : σ → List PruneRequest) : Prop where
  counter : p.tokenizers.Leaves noted
  store : ∀ handle, KeepsCall noted (p.keeper.store handle)
  prune : ∀ question w, noted ((p.redactor.prune question).run w).2 = noted w ++ [question]
  summarize : ∀ summarize, p.summarizer = some summarize →
    ∀ text most, KeepsCall noted (summarize text most)
  now : KeepsCall noted p.now
  emit : ∀ e, KeepsCall noted (p.emit e)

/-! ## The counts that a redaction goes by -/

theorem maskEach_tallies {k : Masking σ} {family : String} {done done' : Masked}
    {items : List (Message × Nat)}
    (htallies : k.tokenizers.Tallies family done.messages done.tally)
    (h : exec (k.maskEach family done items) w = (.ok done', w')) :
    k.tokenizers.Tallies family done'.messages done'.tally := by
  induction items generalizing done w with
  | nil =>
    obtain ⟨rfl, -⟩ := pure_ran h
    exact htallies
  | cons item rest ih =>
    rw [Masking.maskEach, List.foldlM_cons] at h
    obtain ⟨next, w₁, hone, hrest⟩ := bind_ran h
    refine ih ?_ hrest
    cases Masking.maskOne_cases hone with
    | left => exact htallies
    | late => exact htallies
    | refused => exact htallies
    | stored _ _ _ _ _ _ _ _ _ _ _ counted =>
      exact htallies.replace (Tokenizers.countMessage_stands counted) item.2

/-- Where a run comes to a masking or a redaction, its counts stand for its messages. -/
theorem reaches_tallies (hreach : Reaches p start w phase r w')
    (hphase : phase = .sanitize ∨ phase = .redact) :
    p.tokenizers.Tallies r.model.family r.messages r.tally := by
  induction hreach with
  | start => rcases hphase with hphase | hphase <;> cases hphase
  | @step phase r w₁ signal r' w₂ before more ran ih =>
    cases phase with
    | account =>
      obtain ⟨tally, w₀, detail, hcount, -, hrecord⟩ := account_ran ran
      obtain ⟨e, -, rfl, -⟩ := record_ran hrecord
      exact Tokenizers.count_tallies hcount
    | sanitize =>
      obtain ⟨move, r₁, w₀, hmask, hafter⟩ := sanitize_ran ran
      obtain ⟨masked, w₃, detail, hmasked, -, hrecord⟩ := maskStage_ran hmask
      have htallies := maskEach_tallies (ih (.inl rfl)) hmasked
      obtain ⟨e, -, rfl, -⟩ := record_ran hrecord
      cases hafter with
      | goesOn => exact htallies
      | putOff => exact htallies
      | moved => rcases hphase with hphase | hphase <;> cases hphase
    | _ => cases signal <;> rcases hphase with hphase | hphase <;> cases hphase

/-! ## The order of a redaction -/

theorem pairwise_candidates (r : Run) (minTokens : Nat) :
    (r.candidates minTokens).Pairwise r.Outranks := by
  have hdistinct : (r.candidates minTokens).Pairwise (· ≠ ·) := nodup_candidates r minTokens
  unfold Run.candidates at hdistinct ⊢
  refine (List.Pairwise.and (List.pairwise_mergeSort ?_ ?_ _) hdistinct).imp ?_
  · intro i j k hij hjk
    simp only [Bool.or_eq_true, Bool.and_eq_true, decide_eq_true_eq, beq_iff_eq] at hij hjk ⊢
    omega
  · intro i j
    simp only [Bool.or_eq_true, Bool.and_eq_true, decide_eq_true_eq, beq_iff_eq]
    omega
  · rintro i j ⟨hle, hne⟩
    simp only [Bool.or_eq_true, Bool.and_eq_true, decide_eq_true_eq, beq_iff_eq] at hle
    unfold Run.Outranks
    omega

theorem pairwise_places (p : Pipeline σ) (r : Run) : (p.places r).Pairwise r.Outranks := by
  unfold places
  split
  · exact pairwise_candidates _ _
  · exact .nil

/-! ## What is asked in a redaction -/

/-- A redaction asks for some of its places, in their order. -/
theorem asksFrom_sublist (p : Pipeline σ) (goal : String) (limit : Span) (done : Redacted) (w : σ)
    (places : List Nat) : ((p.asksFrom goal limit done w places).map (·.index)).Sublist places := by
  induction places generalizing done w with
  | nil => exact .slnil
  | cons index rest ih =>
    rw [asksFrom]
    split
    · exact List.nil_sublist _
    · rw [List.map_append, ← List.singleton_append]
      refine .append ?_ ?_
      · unfold askAt
        cases done.run.messages[index]? with
        | none => exact List.nil_sublist _
        | some m => exact .refl _
      · split
        · exact ih _ _
        · exact List.nil_sublist _

theorem asked_sublist (p : Pipeline σ) (s : Run × σ) : (p.asked s).Sublist (p.places s.1) :=
  asksFrom_sublist p _ _ _ _ _

/-- The redactor is asked only while the budget is exceeded. -/
theorem exceeded_of_mem_asksFrom {a : Ask} (h : a ∈ p.asksFrom goal limit done w places) :
    a.soFar.run.budget.fits = false := by
  induction places generalizing done w with
  | nil => cases h
  | cons index rest ih =>
    rw [asksFrom] at h
    split at h
    · cases h
    · rename_i hexceeded
      rcases List.mem_append.mp h with h | h
      · obtain ⟨m, -, rfl⟩ := Option.map_eq_some_iff.mp (Option.mem_toList.mp h)
        exact Bool.eq_false_iff.mpr hexceeded
      · split at h
        · exact ih h
        · cases h

/-- What is asked from where a redaction has come to, is asked in it. -/
theorem exists_prunes {before : List Nat} {w₁ : σ} {a : Ask}
    (part : before ++ places <+: p.places r)
    (ran : exec (p.redactEach (Run.goal r.messages) p.patience ⟨r, [], [], []⟩ before) w =
      (.ok done, w₁))
    (h : a ∈ p.asksFrom (Run.goal r.messages) p.patience done w₁ places) :
    ∃ reply w₂, p.Prunes r w a.index a.message reply w₂ := by
  -- The places that are left, after those that led to where the redaction has come to.
  induction places generalizing before done w₁ with
  | nil => cases h
  | cons index rest ih =>
    rw [← List.singleton_append, ← List.append_assoc] at part
    rw [asksFrom] at h
    split at h
    · cases h
    · rename_i hexceeded
      rcases List.mem_append.mp h with h | h
      · obtain ⟨m, hfound, rfl⟩ := Option.map_eq_some_iff.mp (Option.mem_toList.mp h)
        exact ⟨_, _, .intro ((List.prefix_append _ _).trans part) ran
          (Bool.eq_false_iff.mpr hexceeded) hfound rfl⟩
      · split at h
        · rename_i next w₂ hone
          refine ih part ?_ h
          rw [redactEach_concat, exec_bind, ran]
          simp only [hexceeded, Bool.false_eq_true, if_false, hone]
        · cases h

/-- A message that may be given to the redactor: it is none of the system's, no memory, no
placeholder and no summary, and large enough by its count, which is what the counter answered to
it. -/
structure Eligible (p : Pipeline σ) (r : Run) (index : Nat) (m : Message) : Prop where
  found : r.messages[index]? = some m
  spared : m.role ≠ .system
  category : m.category ≠ .memory
  unmasked : m.isMasked = false
  unsummed : m.opensAsSummary = false
  large : p.settings.redaction.config.minTokens ≤ r.tally.tokensAt index
  counted : p.tokenizers.Gives r.model.family m.content (r.tally.tokensAt index)

/-- What passes the filters of a redaction may be given to the redactor, if the counts of the run
stand for its messages. -/
theorem eligible_of_isCandidate
    (htallies : p.tokenizers.Tallies r.model.family r.messages r.tally)
    (hfound : r.messages[index]? = some m)
    (h : r.isCandidate p.settings.redaction.config.minTokens m index = true) :
    p.Eligible r index m ∧ index ∉ r.attempted := by
  simp only [Run.isCandidate, Bool.and_eq_true, Bool.not_eq_true', Message.isSystem,
    Option.any_eq_true, bne_iff_ne, decide_eq_true_eq, beq_eq_false_iff_ne,
    List.contains_eq_mem, decide_eq_false_iff_not] at h
  obtain ⟨⟨⟨⟨hrole, hmasked⟩, hsummed⟩, hfresh⟩, entry, hentry, hcategory, hlarge⟩ := h
  have hstands := htallies.stands hfound hentry
  have htokens : r.tally.tokensAt index = entry.tokens := by
    rw [Tally.tokensAt, hentry]
    rfl
  exact ⟨⟨hfound, hrole, hstands.category ▸ hcategory, hmasked, hsummed, htokens ▸ hlarge,
    htokens ▸ hstands.tokens⟩, hfresh⟩

/-! ## What the redactor is called with -/

variable {noted : σ → List PruneRequest}

theorem redactOne_noted (hnotes : p.Notes noted) {out : Except BudgetError Redacted}
    (h : exec (p.redactOne goal limit done index) w = (out, w')) :
    noted w' = noted w ++ (askAt done index).map fun a => p.question goal a.message := by
  have hasked : ∀ {m : Message} {reply : Pending PruneResponse} {w₁ : σ},
      done.run.messages[index]? = some m →
      (p.redactor.prune (p.question goal m)).run w = (reply, w₁) →
      noted w₁ = noted w ++ (askAt done index).map fun a => p.question goal a.message := by
    intro m reply w₁ hfound hran
    have hlast := hnotes.prune (p.question goal m) w
    rw [hran] at hlast
    rw [hlast, askAt, hfound]
    rfl
  cases out with
  | ok done' =>
    cases redactOne_cases h with
    | absent nothing =>
      rw [askAt, nothing]
      exact (List.append_nil _).symm
    | late m reply _ found asked => exact hasked found asked
    | same m reply response _ found asked => exact hasked found asked
    | replaced m reply response w₁ entry _ found asked _ _ counted =>
      rw [(Tokenizers.countMessage_keeps hnotes.counter _ _).ran counted]
      exact hasked found asked
  | error e =>
    obtain ⟨m, reply, w₁, response, found, asked, -, -, hcount⟩ := redactOne_failed h
    rw [(Tokenizers.counts_keeps hnotes.counter _ _).ran hcount]
    exact hasked found asked

/-- The redactor is called with what is asked, one after the other. -/
theorem redactEach_noted (hnotes : p.Notes noted) {out : Except BudgetError Redacted}
    (h : exec (p.redactEach goal limit done places) w = (out, w')) :
    noted w' = noted w ++
      (p.asksFrom goal limit done w places).map fun a => p.question goal a.message := by
  induction places generalizing done w with
  | nil =>
    cases h
    exact (List.append_nil _).symm
  | cons index rest ih =>
    rw [redactEach] at h
    rw [asksFrom]
    split at h
    · rename_i hfits
      cases h
      rw [if_pos hfits]
      exact (List.append_nil _).symm
    · rename_i hexceeded
      rw [if_neg hexceeded, List.map_append, ← List.append_assoc]
      rw [exec_bind] at h
      split at h
      · rename_i next w₁ hone
        rw [hone, ← redactOne_noted hnotes hone]
        exact ih h
      · rename_i e w₁ hone
        cases h
        rw [hone, ← redactOne_noted hnotes hone]
        exact (List.append_nil _).symm

theorem Notes.quiet (hnotes : p.Notes noted) : p.Quiet noted :=
  ⟨hnotes.counter, hnotes.store, hnotes.now, hnotes.emit⟩

/-- A redaction calls the redactor with its questions, whether it fails or not. -/
theorem redact_noted (hnotes : p.Notes noted) {out : Except BudgetError (Signal × Run)}
    (h : exec (p.redact r) w = (out, w')) : noted w' = noted w ++ p.questions (r, w) := by
  cases out with
  | error e => exact redactEach_noted hnotes (redact_failed h)
  | ok next =>
    obtain ⟨signal, r'⟩ := next
    obtain ⟨r₁, w₁, hredact, hafter⟩ := redact_ran h
    obtain ⟨done, w₀, r₀, heach, hrecord, -⟩ := redactStage_ran hredact
    have hlater : noted w' = noted w₁ := by
      cases hafter with
      | goesOn => rfl
      | moved m _ _ _ _ _ _ fell => exact (fallBack_keeps hnotes.quiet r₁ m).ran fell
    rw [hlater, (record_keeps hnotes.quiet _ _ _ _ _ _).ran hrecord]
    exact redactEach_noted hnotes heach

/-- Of all phases, only a redaction calls the redactor. -/
theorem step_noted (hnotes : p.Notes noted) {out : Except BudgetError (Signal × Run)}
    (h : exec (p.step phase r) w = (out, w')) :
    noted w' = noted w ++ (redactionAt phase r w).flatMap p.questions := by
  have hquiet : Keeps noted (p.step phase r) → phase ≠ .redact →
      noted w' = noted w ++ (redactionAt phase r w).flatMap p.questions := fun hkeeps hother => by
    rw [redactionAt, if_neg hother, hkeeps.ran h]
    exact (List.append_nil _).symm
  cases phase with
  | start => exact hquiet (.pure _) (by decide)
  | account => exact hquiet (account_keeps hnotes.quiet r) (by decide)
  | sanitize => exact hquiet (sanitize_keeps hnotes.quiet r) (by decide)
  | redact =>
    rw [redactionAt, if_pos rfl, List.flatMap_singleton]
    exact redact_noted hnotes h
  | compact => exact hquiet (compact_keeps hnotes.quiet hnotes.summarize r) (by decide)
  | done => exact hquiet (.pure _) (by decide)

/-- The loop over the phases calls the redactor with the questions of its redactions. -/
theorem drive_noted (hnotes : p.Notes noted) {fuel : Nat} {out : Except BudgetError Run}
    (h : exec (p.drive fuel phase r) w = (out, w')) :
    noted w' = noted w ++ (p.redactionsFrom fuel phase r w).flatMap p.questions := by
  induction fuel generalizing phase r w with
  | zero =>
    cases h
    exact (List.append_nil _).symm
  | succ fuel ih =>
    rw [drive] at h
    rw [redactionsFrom]
    split at h
    · rename_i hdone
      cases h
      rw [if_pos hdone]
      exact (List.append_nil _).symm
    · rename_i more
      rw [if_neg more, List.flatMap_append, ← List.append_assoc]
      rw [exec_bind] at h
      split at h
      · rename_i next w₁ hstep
        rw [hstep, ← step_noted hnotes hstep]
        exact ih h
      · rename_i e w₁ hstep
        cases h
        rw [hstep, ← step_noted hnotes hstep]
        exact (List.append_nil _).symm

/-! ## What is asked over the phases -/

/-- Only a redaction tries places. -/
theorem step_attempted (h : exec (p.step phase r) w = (.ok (signal, r'), w'))
    (hphase : phase ≠ .redact) : r'.attempted = r.attempted := by
  cases phase with
  | start =>
    obtain ⟨heq, -⟩ := pure_ran h
    cases heq
    rfl
  | account => exact (account_sameWork h).attempted
  | sanitize =>
    obtain ⟨move, r₁, w₁, hmask, hafter⟩ := sanitize_ran h
    obtain ⟨masked, w₀, detail, -, -, hrecord⟩ := maskStage_ran hmask
    obtain ⟨e, -, rfl, -⟩ := record_ran hrecord
    cases hafter with
    | goesOn => rfl
    | putOff => rfl
    | moved _ _ _ _ _ _ fell => exact (fallBack_sameWork fell).attempted
  | redact => exact absurd rfl hphase
  | compact =>
    obtain ⟨e, -, -, -, hattempted, -⟩ := compact_condenses h
    exact hattempted
  | done =>
    obtain ⟨heq, -⟩ := pure_ran h
    cases heq
    rfl

/-- A redaction has tried all places that it asked for, whatever became of them. -/
theorem redactEach_attempted (h : exec (p.redactEach goal limit done places) w = (.ok done', w')) :
    done.run.attempted ⊆ done'.run.attempted ∧
      ∀ a ∈ p.asksFrom goal limit done w places, a.index ∈ done'.run.attempted := by
  induction places generalizing done w with
  | nil =>
    obtain ⟨rfl, -⟩ := pure_ran h
    exact ⟨List.Subset.refl _, by simp [asksFrom]⟩
  | cons index rest ih =>
    rw [redactEach] at h
    rw [asksFrom]
    split at h
    · rename_i hfits
      obtain ⟨rfl, -⟩ := pure_ran h
      rw [if_pos hfits]
      exact ⟨List.Subset.refl _, by simp⟩
    · rename_i hexceeded
      obtain ⟨next, w₁, hone, hrest⟩ := bind_ran h
      rw [if_neg hexceeded, hone]
      obtain ⟨hkept, hlater⟩ := ih hrest
      have htried : next.run.attempted = done.run.attempted ++ [index] := by
        cases redactOne_cases hone <;> rfl
      rw [htried] at hkept
      refine ⟨List.Subset.trans (List.subset_append_left _ _) hkept, fun a ha => ?_⟩
      rcases List.mem_append.mp ha with ha | ha
      · obtain ⟨m, -, rfl⟩ := Option.map_eq_some_iff.mp (Option.mem_toList.mp ha)
        exact hkept (List.mem_append_right _ (List.mem_singleton.mpr rfl))
      · exact hlater a ha

theorem redact_attempted (h : exec (p.redact r) w = (.ok (signal, r'), w')) :
    r.attempted ⊆ r'.attempted ∧ p.asked (r, w) ⊆ r'.attempted := by
  obtain ⟨r₁, w₁, hredact, hafter⟩ := redact_ran h
  obtain ⟨done, w₀, r₀, heach, hrecord, rfl⟩ := redactStage_ran hredact
  obtain ⟨hkept, hasked⟩ := redactEach_attempted heach
  obtain ⟨e, -, rfl, -⟩ := record_ran hrecord
  have hattempted : r'.attempted = done.run.attempted := by
    cases hafter with
    | goesOn => rfl
    | moved _ _ _ _ _ _ _ fell => exact (fallBack_sameWork fell).attempted
  rw [hattempted]
  refine ⟨hkept, fun index hindex => ?_⟩
  obtain ⟨a, ha, rfl⟩ := List.mem_map.mp hindex
  exact hasked a ha

theorem mem_redactionAt {s : Run × σ} :
    s ∈ redactionAt phase r w ↔ phase = .redact ∧ s = (r, w) := by
  unfold redactionAt
  split
  · rename_i hphase
    simp [hphase]
  · rename_i hphase
    simp [hphase]

/-- What a redaction asks for was not tried before. -/
theorem not_attempted_of_mem_asked (h : index ∈ p.asked (r, w)) : index ∉ r.attempted := by
  obtain ⟨m, -, hcandidate⟩ := exists_of_mem_places ((asked_sublist p (r, w)).subset h)
  intro htried
  simp [Run.isCandidate, htried] at hcandidate

/-- From a phase on, no place is asked for twice, and none that was tried before. -/
theorem nodup_asked (p : Pipeline σ) (fuel : Nat) (phase : Phase) (r : Run) (w : σ) :
    ((p.redactionsFrom fuel phase r w).flatMap p.asked).Nodup ∧
      ∀ index ∈ (p.redactionsFrom fuel phase r w).flatMap p.asked, index ∉ r.attempted := by
  induction fuel generalizing phase r w with
  | zero => exact ⟨.nil, nofun⟩
  | succ fuel ih =>
    rw [redactionsFrom]
    split
    · exact ⟨.nil, nofun⟩
    · rw [List.flatMap_append]
      have hnow : ∀ index ∈ (redactionAt phase r w).flatMap p.asked,
          index ∉ r.attempted ∧ phase = .redact ∧ index ∈ p.asked (r, w) := by
        intro index hindex
        obtain ⟨s, hs, hasked⟩ := List.mem_flatMap.mp hindex
        obtain ⟨hphase, rfl⟩ := mem_redactionAt.mp hs
        exact ⟨not_attempted_of_mem_asked hasked, hphase, hasked⟩
      have hfirst : ((redactionAt phase r w).flatMap p.asked).Nodup := by
        unfold redactionAt
        split
        · rw [List.flatMap_singleton]
          exact (nodup_places p r).sublist (asked_sublist p (r, w))
        · exact .nil
      split
      · rename_i signal r' w' hstep
        obtain ⟨hrest, hfresh⟩ := ih (phase.next signal) r' w'
        -- What is asked for now has been tried by the time that the next phase begins.
        have hgrows : r.attempted ⊆ r'.attempted ∧
            (phase = .redact → p.asked (r, w) ⊆ r'.attempted) := by
          by_cases hphase : phase = .redact
          · subst hphase
            obtain ⟨hkept, hasked⟩ := redact_attempted hstep
            exact ⟨hkept, fun _ => hasked⟩
          · exact ⟨(step_attempted hstep hphase).symm ▸ List.Subset.refl _,
              fun h => absurd h hphase⟩
        refine ⟨List.nodup_append.mpr ⟨hfirst, hrest, fun i hi j hj hij => ?_⟩, fun i hi => ?_⟩
        · obtain ⟨-, hphase, hasked⟩ := hnow i hi
          exact hfresh j hj (hij ▸ hgrows.2 hphase hasked)
        · rcases List.mem_append.mp hi with hi | hi
          · exact (hnow i hi).1
          · exact fun htried => hfresh i hi (hgrows.1 htried)
      · rw [List.flatMap_nil, List.append_nil]
        exact ⟨hfirst, fun i hi => (hnow i hi).1⟩

/-- The redactions of the loop over the phases are those that it comes to. -/
theorem reaches_of_mem_redactionsFrom {w₁ : σ} {fuel : Nat} {s : Run × σ}
    (hreach : Reaches p start w phase r w₁) (h : s ∈ p.redactionsFrom fuel phase r w₁) :
    Reaches p start w .redact s.1 s.2 := by
  induction fuel generalizing phase r w₁ with
  | zero => cases h
  | succ fuel ih =>
    rw [redactionsFrom] at h
    split at h
    · cases h
    · rename_i more
      rcases List.mem_append.mp h with h | h
      · obtain ⟨rfl, rfl⟩ := mem_redactionAt.mp h
        exact hreach
      · split at h
        · rename_i hstep
          exact ih (hreach.step more hstep) h
        · cases h

/-! ## Runs -/

/-- What the redactor is asked in a run. Each redaction asks for larger messages first, by the
counts with which it begins, only while the budget is exceeded, and only for messages that may be
given to the redactor, as they are in the request. No place is asked for twice in the whole run. And
this is all that the redactor is called with. -/
theorem run_asksInOrder (p : Pipeline σ) (request : RunRequest) (w : σ) :
    (∀ s ∈ p.redactions request w, (p.asked s).Pairwise s.1.Outranks ∧
      ∀ a ∈ p.asks s.1 s.2, a.soFar.run.budget.fits = false ∧
        p.Eligible s.1 a.index a.message ∧ request.messages[a.index]? = some a.message) ∧
    ((p.redactions request w).flatMap p.asked).Nodup ∧
    ∀ noted, p.Notes noted → noted (exec (p.run request) w).2 =
      noted w ++ (p.redactions request w).flatMap p.questions := by
  cases hmodel : p.resolve request with
  | error e =>
    have hnone : p.redactions request w = [] := by rw [redactions, hmodel]
    rw [hnone]
    refine ⟨nofun, .nil, fun noted _ => ?_⟩
    rcases hrun : exec (p.run request) w with ⟨out, w'⟩
    obtain ⟨-, -, rfl⟩ := run_unresolved hmodel hrun
    exact (List.append_nil _).symm
  | ok model =>
    let begun := Run.begin request model (request.reserved.getD p.settings.reserved)
    have hall : p.redactions request w = p.redactionsFrom maxPhases .start begun w := by
      rw [redactions, hmodel]
    rw [hall]
    refine ⟨fun s hs => ⟨(pairwise_places p s.1).sublist (asked_sublist p s), fun a ha => ?_⟩,
      (nodup_asked p _ _ _ _).1, fun noted hnotes => ?_⟩
    · have hreach : Reaches p begun w .redact s.1 s.2 := reaches_of_mem_redactionsFrom .start hs
      have hpart : [] ++ p.places s.1 <+: p.places s.1 := List.prefix_rfl
      obtain ⟨reply, w₂, hprunes⟩ := exists_prunes hpart rfl ha
      obtain ⟨hfound, hcandidate⟩ := hprunes.candidate
      exact ⟨exceeded_of_mem_asksFrom ha,
        (eligible_of_isCandidate (reaches_tallies hreach (.inr rfl)) hfound hcandidate).1,
        PruneCall.original (.intro hreach hprunes) nofun⟩
    · rw [exec_run hmodel]
      rcases hdriven : exec (p.drive maxPhases .start begun) w with ⟨_ | r, w₁⟩
      · exact drive_noted hnotes hdriven
      · rw [← drive_noted hnotes hdriven]
        exact record_keeps hnotes.quiet _ _ _ _ _ _ _

/-- A pipeline that notes what its redactor is asked, and redacts before it moves to a larger model.
It counts letters. -/
def noting (catalog : Catalog) : Pipeline (List PruneRequest) where
  settings := { Settings.standard with
    preferFallback := false
    redaction := ⟨true, { RedactionConfig.standard with minTokens := 7 }⟩ }
  counters := [("letters", fun text => return .answer text.length)]
  keeper := ⟨fun _ => return .answer "kept", fun _ => return .answer none⟩
  redactor :=
    ⟨fun question asked => (.done .zero cutShort, asked ++ [question]), fun _ => return .ok ""⟩
  summarizer := none
  catalog := catalog
  emit _ := return ()
  now := return ⟨0, 0⟩

theorem noting_notes (catalog : Catalog) : (noting catalog).Notes id where
  counter c hc text w := by
    obtain rfl := List.mem_singleton.mp hc
    rfl
  store _ _ := rfl
  prune _ _ := rfl
  summarize _ h := nomatch h
  now _ := rfl
  emit _ _ := rfl

/-- A conversation of which one message is large enough to be redacted. -/
def errands : RunRequest := { greeting with
  messages := Message.inOrder [.of .system "be brief", .of .user "list it", .of .user "thanks"] }

/-- The errands are redacted twice, with a move to a larger model in between, and asked for once. -/
theorem run_asksInOrder_errands :
    (noting twoNarrow).Notes id ∧ ((noting twoNarrow).redactions errands []).length = 2 ∧
      ((noting twoNarrow).redactions errands []).flatMap (noting twoNarrow).asked = [1] ∧
      (exec ((noting twoNarrow).run errands) []).2 =
        ((noting twoNarrow).redactions errands []).flatMap (noting twoNarrow).questions := by
  have hnotes := noting_notes twoNarrow
  obtain ⟨-, -, hcalled⟩ := run_asksInOrder (noting twoNarrow) errands []
  refine ⟨hnotes, by decide +kernel, by decide +kernel, ?_⟩
  have hlog := hcalled id hnotes
  rwa [id, id, List.nil_append] at hlog

end Pipeline
end ContextBudget

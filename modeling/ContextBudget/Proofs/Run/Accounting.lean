import ContextBudget.Proofs.Run.Integrity

/-!
# Accounting of a run

A run keeps the counts of its messages by replacing some of them, and never counts anew but where it
starts a pass. Still they are exact after every stage, as long as the tokens of each conversation
that the run holds stay below the number of words.

- `Run.Exact`: the counts, their totals and the used budget of a run are those of its messages.
- `account_exact`, `maskStage_exact`, `redactStage_exact`, `compact_exact`: each stage keeps a run
  exact, and the first one makes it so.
- `reaches_exact`: wherever a run comes to after a count, it is exact.
- `Held.length_le`: no conversation that a run holds is longer than the one it began with.
- `run_exact`: all stages of a run end exact, and so does its verdict.
-/

namespace ContextBudget

open BudgetM

/-- The counts of a run are those of its messages for its model, and its budget follows them. -/
structure Run.Exact (count : String → String → Nat) (r : Run) : Prop where
  tally : r.tally.Exact count r.model.family r.messages
  budget : r.budget.used = r.tally.totals

/-- The verdict about an exact run is the one about the tokens of its messages. -/
theorem Run.Exact.fits_iff {count : String → String → Nat} {r : Run} (hexact : r.Exact count)
    (hsmall : weight count r.model.family r.messages < Word.size) :
    r.budget.fits = true ↔
      weight count r.model.family r.messages ≤ r.budget.limit - r.budget.reserved := by
  rw [Budget.fits_iff, Budget.usedTokens, hexact.budget]
  change r.tally.total ≤ _ ↔ _
  rw [hexact.tally.total hsmall]

namespace Pipeline

variable {σ : Type} {p : Pipeline σ} {count : String → String → Nat} {start r r' : Run}
  {phase : Phase} {signal : Signal} {w w' : σ}

/-- A conversation that the run holds at some moment, and the family that counts it: where it comes
to a phase, in the middle of a masking or a redaction, or after a compaction. -/
inductive Held (p : Pipeline σ) (start : Run) (w : σ) : String → Conversation → Prop where
  | entered {phase : Phase} {r : Run} {w₁ : σ} (reached : Reaches p start w phase r w₁) :
    Held p start w r.model.family r.messages
  | masked {r : Run} {w₁ : σ} {items : List (Message × Nat)} {done : Masked} {w₂ : σ}
    (reached : Reaches p start w .sanitize r w₁) (part : items <+: r.messages.zipIdx)
    (ran : exec (p.masking.maskEach r.model.family ⟨r.messages, r.tally, [], []⟩ items) w₁ =
      (.ok done, w₂)) : Held p start w r.model.family done.messages
  | redacted {r : Run} {w₁ : σ} {places : List Nat} {done : Redacted} {w₂ : σ}
    (reached : Reaches p start w .redact r w₁) (part : places <+: p.places r)
    (ran : exec (p.redactEach (Run.goal r.messages) p.patience ⟨r, [], [], []⟩ places) w₁ =
      (.ok done, w₂)) : Held p start w done.run.model.family done.run.messages
  | compacted {r : Run} {w₁ : σ} {signal : Signal} {r' : Run} {w₂ : σ}
    (reached : Reaches p start w .compact r w₁)
    (ran : exec (p.compact r) w₁ = (.ok (signal, r'), w₂)) :
    Held p start w r'.model.family r'.messages

/-! ## How much a run holds -/

theorem Condenses.length_le {messages : Conversation} (h : Condenses p r w messages) :
    messages.length ≤ r.messages.length := by
  obtain ⟨before, first, n, text, after, rfl, hsublist, -⟩ := h.splits
  simpa using hsublist.length_le

/-- No conversation that a run holds is longer than the one that it began with. -/
theorem Held.length_le {family : String} {messages : Conversation}
    (h : Held p start w family messages) (hstart : Unsummed start.events) :
    messages.length ≤ start.messages.length := by
  have hreached : ∀ {phase r w₁}, Reaches p start w phase r w₁ →
      r.messages.length ≤ start.messages.length := by
    intro phase r w₁ hreach
    obtain ⟨kept, rs, hhistory⟩ := reaches_history hstart hreach
    rw [← hhistory.rewrites.length_eq]
    rcases hhistory.summed with ⟨hmessages, -⟩ | ⟨-, r₀, w₀, -, -, rfl, -, hcondenses, -⟩
    · rw [hmessages]
    · exact hcondenses.length_le
  cases h with
  | entered reached => exact hreached reached
  | masked reached part ran =>
    obtain ⟨rs, hrewrites, -⟩ := Masking.maskEach_rewrites part ran
    exact hrewrites.length_eq ▸ hreached reached
  | redacted reached part ran =>
    obtain ⟨rs, hat⟩ := redactEach_rewrites part ran
    exact hat.rewrites.length_eq ▸ hreached reached
  | compacted reached ran =>
    obtain ⟨e, -, -, -, -, -, hcompact⟩ := compact_condenses ran
    rcases hcompact with ⟨hsame, -⟩ | ⟨hcondenses, -⟩
    · exact hsame ▸ hreached reached
    · exact Nat.le_trans hcondenses.length_le (hreached reached)

/-- With a counter that counts no text beyond a bound, and few messages, the tokens of each
conversation that a run holds stay below the number of words. -/
theorem Held.weight_lt {request : RunRequest} {model : Model} {reserved most : Nat}
    {family : String} {messages : Conversation}
    (h : Held p (.begin request model reserved) w family messages)
    (hmost : ∀ text, count family text ≤ most)
    (hfew : request.messages.length * most < Word.size) :
    weight count family messages < Word.size := by
  have hlength : messages.length ≤ request.messages.length :=
    h.length_le (by simp [Unsummed, Run.begin])
  calc weight count family messages
      ≤ messages.length * most := weight_le_length_mul hmost
    _ ≤ request.messages.length * most := Nat.mul_le_mul_right most hlength
    _ < Word.size := hfew

/-! ## Stages -/

theorem account_exact (hcounters : p.tokenizers.CountsBy count)
    (hsmall : weight count r.model.family r.messages < Word.size)
    (h : exec (p.account r) w = (.ok (signal, r'), w')) : r'.Exact count := by
  obtain ⟨tally, w₁, detail, hcount, -, hrecord⟩ := account_ran h
  obtain rfl := Tokenizers.count_ran hcounters hcount
  obtain ⟨e, -, rfl, -⟩ := record_ran hrecord
  exact ⟨.ofEntries hsmall, rfl⟩

theorem maskStage_exact {move : Option Fallback} (hcounters : p.tokenizers.CountsBy count)
    (hexact : r.Exact count)
    (hsmall : ∀ items done w₁, items <+: r.messages.zipIdx →
      exec (p.masking.maskEach r.model.family ⟨r.messages, r.tally, [], []⟩ items) w =
        (.ok done, w₁) → weight count r.model.family done.messages < Word.size)
    (h : exec (p.maskStage r) w = (.ok (move, r'), w')) : r'.Exact count := by
  obtain ⟨masked, w₁, detail, hmask, -, hrecord⟩ := maskStage_ran h
  rw [Masking.mask_eq] at hmask
  have hmasked := Masking.maskEach_exact hcounters hexact.tally hsmall hmask
  obtain ⟨e, -, rfl, -⟩ := record_ran hrecord
  exact ⟨hmasked, rfl⟩

theorem redactEach_exact {goal : String} {limit : Span} {done done' : Redacted}
    {places : List Nat} (hcounters : p.tokenizers.CountsBy count) (hexact : done.run.Exact count)
    (hsmall : ∀ places' done₁ w₁, places' <+: places →
      exec (p.redactEach goal limit done places') w = (.ok done₁, w₁) →
      weight count done₁.run.model.family done₁.run.messages < Word.size)
    (h : exec (p.redactEach goal limit done places) w = (.ok done', w')) :
    done'.run.Exact count := by
  induction places generalizing done w with
  | nil =>
    obtain ⟨rfl, -⟩ := pure_ran h
    exact hexact
  | cons index rest ih =>
    rw [redactEach] at h
    split at h
    · obtain ⟨rfl, -⟩ := pure_ran h
      exact hexact
    · rename_i exceeded
      obtain ⟨next, w₁, hone, hrest⟩ := bind_ran h
      have hlater : ∀ places' done₁ w₂, places' <+: rest →
          exec (p.redactEach goal limit next places') w₁ = (.ok done₁, w₂) →
          weight count done₁.run.model.family done₁.run.messages < Word.size := by
        intro places' done₁ w₂ hplaces hrun
        refine hsmall (index :: places') done₁ w₂ (List.cons_prefix_cons.mpr ⟨rfl, hplaces⟩) ?_
        rw [redactEach, if_neg exceeded, exec_bind, hone]
        exact hrun
      refine ih ?_ hlater hrest
      have hnext := hlater [] next w₁ List.nil_prefix rfl
      cases redactOne_cases hone with
      | absent => exact ⟨hexact.tally, hexact.budget⟩
      | late => exact ⟨hexact.tally, hexact.budget⟩
      | same => exact ⟨hexact.tally, hexact.budget⟩
      | replaced m _ response _ entry _ _ _ _ _ counted =>
        obtain rfl := Tokenizers.countMessage_ran hcounters counted
        exact ⟨hexact.tally.set hnext, rfl⟩

theorem redactStage_exact (hcounters : p.tokenizers.CountsBy count) (hexact : r.Exact count)
    (hsmall : ∀ places done w₁, places <+: p.places r →
      exec (p.redactEach (Run.goal r.messages) p.patience ⟨r, [], [], []⟩ places) w =
        (.ok done, w₁) → weight count done.run.model.family done.run.messages < Word.size)
    (h : exec (p.redactStage r) w = (.ok r', w')) : r'.Exact count := by
  obtain ⟨done, w₁, r₁, heach, hrecord, rfl⟩ := redactStage_ran h
  have hdone := redactEach_exact hcounters hexact hsmall heach
  obtain ⟨e, -, rfl, -⟩ := record_ran hrecord
  exact ⟨hdone.tally, hdone.budget⟩

theorem compact_exact (hcounters : p.tokenizers.CountsBy count) (hexact : r.Exact count)
    (h : exec (p.compact r) w = (.ok (signal, r'), w'))
    (hsmall : weight count r'.model.family r'.messages < Word.size) : r'.Exact count := by
  obtain ⟨-, hcompact⟩ := compact_ran h
  rcases hcompact with ⟨detail, hrecord⟩ | ⟨summarize, c, w₁, detail, -, -, hcompacted, hrecord⟩
  · obtain ⟨e, -, rfl, -⟩ := record_ran hrecord
    exact ⟨hexact.tally, hexact.budget⟩
  · obtain ⟨e, -, rfl, -⟩ := record_ran hrecord
    have hcompact := Compaction.compact_exact hcounters hexact.tally hcompacted hsmall
    exact ⟨hcompact, rfl⟩

/-! ## Runs -/

/-- Wherever a run comes to after a count, it is exact. -/
theorem reaches_exact (hcounters : p.tokenizers.CountsBy count)
    (hsmall : ∀ family messages, Held p start w family messages →
      weight count family messages < Word.size)
    (hreach : Reaches p start w phase r w') (hstarted : phase ≠ .start)
    (hcounted : phase ≠ .account) : r.Exact count := by
  induction hreach with
  | start => exact absurd rfl hstarted
  | @step phase r w₁ signal r' w₂ before more ran ih =>
    cases phase with
    | start => exact absurd rfl hcounted
    | account => exact account_exact hcounters (hsmall _ _ (.entered before)) ran
    | sanitize =>
      change exec (p.sanitize r) w₁ = _ at ran
      rw [sanitize_eq] at ran
      obtain ⟨⟨move, r₁⟩, w₀, hmask, hafter⟩ := bind_ran ran
      have hmasked : r₁.Exact count := maskStage_exact hcounters (ih (by decide) (by decide))
        (fun items done w₃ part hrun => hsmall _ _ (.masked before part hrun)) hmask
      cases afterMasking_cases (lift_ran hafter) with
      | goesOn => exact hmasked
      | putOff => exact ⟨hmasked.tally, hmasked.budget⟩
      | moved => exact absurd rfl hcounted
    | redact =>
      change exec (p.redact r) w₁ = _ at ran
      rw [redact_eq] at ran
      obtain ⟨r₁, w₀, hredact, hafter⟩ := bind_ran ran
      have hredacted : r₁.Exact count := redactStage_exact hcounters (ih (by decide) (by decide))
        (fun places done w₃ part hrun => hsmall _ _ (.redacted before part hrun)) hredact
      cases afterRedaction_cases (lift_ran hafter) with
      | goesOn => exact hredacted
      | moved => exact absurd rfl hcounted
    | compact =>
      exact compact_exact hcounters (ih (by decide) (by decide)) ran
        (hsmall _ _ (.compacted before ran))
    | done => exact absurd rfl more

/-- The run at the end of a stage, before it moves to a larger model. -/
inductive EndsStage (p : Pipeline σ) (start : Run) (w : σ) : Stage → Run → Prop where
  | account {r : Run} {w₁ : σ} {signal : Signal} {r' : Run} {w₂ : σ}
    (reached : Reaches p start w .account r w₁)
    (ran : exec (p.account r) w₁ = (.ok (signal, r'), w₂)) : EndsStage p start w .account r'
  | sanitize {r : Run} {w₁ : σ} {move : Option Fallback} {r' : Run} {w₂ : σ}
    (reached : Reaches p start w .sanitize r w₁)
    (ran : exec (p.maskStage r) w₁ = (.ok (move, r'), w₂)) : EndsStage p start w .sanitize r'
  | redact {r : Run} {w₁ : σ} {r' : Run} {w₂ : σ} (reached : Reaches p start w .redact r w₁)
    (ran : exec (p.redactStage r) w₁ = (.ok r', w₂)) : EndsStage p start w .redact r'
  | compact {r : Run} {w₁ : σ} {signal : Signal} {r' : Run} {w₂ : σ}
    (reached : Reaches p start w .compact r w₁)
    (ran : exec (p.compact r) w₁ = (.ok (signal, r'), w₂)) : EndsStage p start w .compact r'

theorem endsStage_exact (hcounters : p.tokenizers.CountsBy count)
    (hsmall : ∀ family messages, Held p start w family messages →
      weight count family messages < Word.size) {stage : Stage}
    (h : EndsStage p start w stage r) : r.Exact count := by
  cases h with
  | account reached ran => exact account_exact hcounters (hsmall _ _ (.entered reached)) ran
  | sanitize reached ran =>
    exact maskStage_exact hcounters (reaches_exact hcounters hsmall reached (by decide) (by decide))
      (fun items done w₃ part hrun => hsmall _ _ (.masked reached part hrun)) ran
  | redact reached ran =>
    exact redactStage_exact hcounters
      (reaches_exact hcounters hsmall reached (by decide) (by decide))
      (fun places done w₃ part hrun => hsmall _ _ (.redacted reached part hrun)) ran
  | compact reached ran =>
    exact compact_exact hcounters (reaches_exact hcounters hsmall reached (by decide) (by decide))
      ran (hsmall _ _ (.compacted reached ran))

/-- With counters that are functions of the text, and as long as the tokens of each conversation
that a run holds stay below the number of words, the counts of the run are exact after each of its
stages, and its verdict is the one about the tokens of the conversation that it gives. -/
theorem run_exact (p : Pipeline σ) (hcounters : p.tokenizers.CountsBy count)
    {request : RunRequest} {model : Model} (hmodel : p.resolve request = .ok model) (w : σ)
    (hsmall : ∀ family messages,
      Held p (.begin request model (request.reserved.getD p.settings.reserved)) w family messages →
      weight count family messages < Word.size) :
    let start := Run.begin request model (request.reserved.getD p.settings.reserved)
    (∀ stage r, EndsStage p start w stage r → r.Exact count) ∧
      ∀ result w', exec (p.run request) w = (.ok result, w') →
        ∃ r w₁, Reaches p start w .done r w₁ ∧ result.model = r.model.name ∧
          result.messages = r.messages ∧
          (result.fits = true ↔ weight count r.model.family result.messages ≤
            result.limit - result.budget.reserved) := by
  intro start
  refine ⟨fun stage r h => endsStage_exact hcounters hsmall h, fun result w' hrun => ?_⟩
  obtain ⟨r, w₁, r', hreach, hfinish, rfl⟩ := run_finishes hmodel hrun
  have hexact := reaches_exact hcounters hsmall hreach (by decide) (by decide)
  obtain ⟨e, -, rfl, -⟩ := record_ran hfinish
  exact ⟨r, w₁, hreach, rfl, rfl, hexact.fits_iff (hsmall _ _ (.entered hreach))⟩

theorem obliging_countsBy (catalog : Catalog) :
    (obliging catalog).tokenizers.CountsBy fun _ text => Nat.min text.length 50 := by
  intro family counter hcounter text w after n hn
  obtain ⟨c, hc, rfl⟩ := Tokenizers.mem_of_get? hcounter
  obtain rfl := List.mem_singleton.mp hc
  cases hn
  rfl

/-- The pipeline whose services all answer, which moves to a larger model only after redaction. -/
def hesitant (catalog : Catalog) : Pipeline Unit := { obliging catalog with
  settings := { (obliging catalog).settings with preferFallback := false } }

/-- A model that almost nothing fits, and a larger one that the chores do not fit either. -/
def tooSmall : Catalog := ⟨[⟨"small", "letters", 4⟩, ⟨"large", "letters", 40⟩]⟩

/-- The chores are masked and redacted for one model and compacted for another one, and are counted
exactly all the time. -/
theorem run_exact_chores :
    (hesitant tooSmall).resolve chores = .ok ⟨"small", "letters", 4⟩ ∧
      (∀ family messages,
        Held (hesitant tooSmall) (.begin chores ⟨"small", "letters", 4⟩ 0) () family messages →
        weight (fun _ text => Nat.min text.length 50) family messages < Word.size) ∧
      (∀ stage r, EndsStage (hesitant tooSmall) (.begin chores ⟨"small", "letters", 4⟩ 0) () stage
        r → r.Exact fun _ text => Nat.min text.length 50) ∧
      ∃ result w', exec ((hesitant tooSmall).run chores) () = (.ok result, w') ∧
        (result.events.filter (·.outcome = .reduced)).map (·.stage) =
          [.sanitize, .redact, .compact] ∧
        result.fallbackFrom = some "small" ∧
        (result.fits = true ↔
          weight (fun _ text => Nat.min text.length 50) "letters" result.messages ≤
            result.limit - result.budget.reserved) := by
  have hmodel : (hesitant tooSmall).resolve chores = .ok ⟨"small", "letters", 4⟩ := rfl
  have hsmall : ∀ family messages,
      Held (hesitant tooSmall) (.begin chores ⟨"small", "letters", 4⟩ 0) () family messages →
      weight (fun _ text => Nat.min text.length 50) family messages < Word.size :=
    fun family messages hheld =>
      hheld.weight_lt (fun text => Nat.min_le_right text.length 50) (by decide)
  obtain ⟨hends, hrun⟩ :=
    run_exact (hesitant tooSmall) (obliging_countsBy tooSmall) hmodel () hsmall
  have hpath : (exec ((hesitant tooSmall).run chores) ()).1.toOption.map (fun result =>
      ((result.events.filter (·.outcome = .reduced)).map (·.stage), result.fallbackFrom)) =
        some ([.sanitize, .redact, .compact], some "small") := by
    decide +kernel
  obtain ⟨result, hresult, hreduced⟩ := Option.map_eq_some_iff.mp hpath
  obtain ⟨w', hran⟩ := ran_of_toOption hresult
  obtain ⟨r, w₁, hreach, hname, hmessages, hfits⟩ := hrun result w' hran
  exact ⟨hmodel, hsmall, hends, result, w', hran, (Prod.mk.inj hreduced).1,
    (Prod.mk.inj hreduced).2, hfits⟩

end Pipeline
end ContextBudget

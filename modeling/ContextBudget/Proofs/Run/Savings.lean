import ContextBudget.Proofs.Run.Accounting

/-!
# What a stage saves

A stage takes messages out of a conversation and puts others in. Nothing compares what the two
count, so a stage may also make a conversation larger.

- `Works`: the work of a stage that may reduce; `Swaps`: what it takes out and puts in.
- `Works.exists_exchange`: the work of a stage is an exchange, and its event tells whether it was
  one of nothing.
- `reaches_works`: each event of such a stage is about work of the run.
- `run_balances`: the tokens after a stage and of what it took out are those before it and of what
  it put in.
- `not_shrinks_chores`: a stage that reduced may have made a conversation larger.
-/

namespace ContextBudget

theorem Run.Exact.tokens_eq {count : String → String → Nat} {r : Run} (h : r.Exact count)
    (hsmall : weight count r.model.family r.messages < Word.size) :
    r.tokens = weight count r.model.family r.messages := h.tally.total hsmall

namespace Pipeline

open BudgetM

variable {σ : Type} {p : Pipeline σ} {count : String → String → Nat} {start r r' : Run}
  {phase : Phase} {signal : Signal} {stage : Stage} {e : Event} {gone put : Conversation} {w w' : σ}

/-! ## Exchanges -/

/-- What a stage takes out of a conversation and puts in, and what becomes of the conversation: the
messages that it masks or redacts are replaced by what is left of them, those that give way to a
summary by the summary, or nothing is. -/
inductive Swaps (p : Pipeline σ) (r : Run) (w : σ) :
    Stage → Conversation → Conversation → Conversation → Prop where
  | masked {rs : List Replacement} {after : Conversation}
    (rewrites : Rewrites r.messages rs after)
    (masks : ∀ x ∈ rs, p.masking.Masks r.model.family r.messages r.tally w x) :
    Swaps p r w .sanitize (rs.map (·.old)) (rs.map (·.new)) after
  | redacted {rs : List Replacement} {after : Conversation}
    (rewrites : Rewrites r.messages rs after) (redacts : ∀ x ∈ rs, p.Redacts r w x) :
    Swaps p r w .redact (rs.map (·.old)) (rs.map (·.new)) after
  | summed {place : Nat} {summary : Message} {w' : σ}
    (summarizes : p.Summarizes r w place summary w') :
    Swaps p r w .compact
      ((Compaction.condensed p.settings.compaction.config r.messages).map (·.1)) [summary]
      (Compaction.splice r.messages
        (Compaction.givesWay p.settings.compaction.config r.messages) place summary)
  | unsummed : Swaps p r w .compact [] [] r.messages

/-- From one run to another, a stage has taken messages out and put others in, and an event tells of
it. -/
structure Exchange (p : Pipeline σ) (stage : Stage) (r : Run) (w : σ) (r' : Run) (e : Event)
    (gone put : Conversation) : Prop where
  told : TellsOf e stage r r'
  model : r'.model = r.model
  swaps : p.Swaps r w stage gone put r'.messages
  sum : ∀ f : Message → Nat, (r'.messages.map f).sum + (gone.map f).sum =
    (r.messages.map f).sum + (put.map f).sum
  reduced : e.outcome = .reduced ↔ gone ≠ []
  idle : gone = [] → r'.tally = r.tally

/-- Replacements are an exchange of the old messages for the new ones. -/
theorem Reworks.exchange {makes : Replacement → Prop} {rs : List Replacement}
    (h : Reworks makes stage r r' e rs)
    (hswaps : p.Swaps r w stage (rs.map (·.old)) (rs.map (·.new)) r'.messages) :
    Exchange p stage r w r' e (rs.map (·.old)) (rs.map (·.new)) where
  told := h.told
  model := h.model
  swaps := hswaps
  sum f := by
    rw [List.map_map, List.map_map]
    exact h.rewrites.sum f
  reduced := h.outcome.trans (not_congr List.map_eq_nil_iff.symm)
  idle hnone := h.idle (List.map_eq_nil_iff.mp hnone)

theorem maskStage_exchange {move : Option Fallback}
    (h : exec (p.maskStage r) w = (.ok (move, r'), w')) :
    ∃ e gone put, Exchange p .sanitize r w r' e gone put := by
  obtain ⟨e, rs, hreworks⟩ := maskStage_reworks h
  exact ⟨e, _, _, hreworks.exchange (.masked hreworks.rewrites hreworks.made)⟩

theorem redactStage_exchange (h : exec (p.redactStage r) w = (.ok r', w')) :
    ∃ e gone put, Exchange p .redact r w r' e gone put := by
  obtain ⟨e, rs, hreworks⟩ := redactStage_reworks h
  exact ⟨e, _, _, hreworks.exchange (.redacted hreworks.rewrites hreworks.made)⟩

/-- A summary is exchanged for the messages that give way to it. -/
theorem Condenses.swaps {messages : Conversation} (h : Condenses p r w messages) :
    ∃ gone put, p.Swaps r w .compact gone put messages ∧ gone ≠ [] ∧
      ∀ f : Message → Nat, (messages.map f).sum + (gone.map f).sum =
        (r.messages.map f).sum + (put.map f).sum := by
  obtain ⟨hsummarizes⟩ := h
  obtain @⟨_, _, _, _, first, place, rest, -, -, some_left, -, -⟩ := id hsummarizes
  refine ⟨_, _, .summed hsummarizes, by simp [some_left], fun f => ?_⟩
  obtain ⟨before, after, hsplice, hstays, -⟩ := Compaction.splice_eq some_left
    (Compaction.summaryMessage p.settings.compaction.config first _ _)
  have hsum := Compaction.sum_preserved p.settings.compaction.config r.messages f
  rw [← hstays] at hsum
  rw [hsplice, List.map_map]
  simp only [List.map_append, List.map_cons, List.map_nil, List.sum_append, List.sum_cons,
    List.sum_nil] at hsum ⊢
  change _ + ((Compaction.condensed _ _).map fun q => f q.1).sum = _
  omega

theorem compact_exchange (h : exec (p.compact r) w = (.ok (signal, r'), w')) :
    ∃ e gone put, Exchange p .compact r w r' e gone put := by
  obtain ⟨e, htold, -, -, -, hmodel, hcompact⟩ := compact_condenses h
  rcases hcompact with ⟨hsame, hidle, houtcome⟩ | ⟨hcondenses, houtcome⟩
  · exact ⟨e, [], [], htold, hmodel, hsame ▸ .unsummed, fun f => by rw [hsame],
      ⟨fun hreduced => absurd hreduced houtcome, fun hsome => absurd rfl hsome⟩, fun _ => hidle⟩
  · obtain ⟨gone, put, hswaps, hsome, hsum⟩ := hcondenses.swaps
    exact ⟨e, gone, put, htold, hmodel, hswaps, hsum, ⟨fun _ => hsome, fun _ => houtcome⟩,
      fun hnone => absurd hnone hsome⟩

/-! ## The work of a run -/

/-- In a run, a stage that may reduce goes from one run to another. -/
inductive Works (p : Pipeline σ) (start : Run) (w : σ) : Stage → Run → σ → Run → Prop where
  | sanitize {r : Run} {w₁ : σ} {move : Option Fallback} {r' : Run} {w₂ : σ}
    (reached : Reaches p start w .sanitize r w₁)
    (ran : exec (p.maskStage r) w₁ = (.ok (move, r'), w₂)) : Works p start w .sanitize r w₁ r'
  | redact {r : Run} {w₁ : σ} {r' : Run} {w₂ : σ} (reached : Reaches p start w .redact r w₁)
    (ran : exec (p.redactStage r) w₁ = (.ok r', w₂)) : Works p start w .redact r w₁ r'
  | compact {r : Run} {w₁ : σ} {signal : Signal} {r' : Run} {w₂ : σ}
    (reached : Reaches p start w .compact r w₁)
    (ran : exec (p.compact r) w₁ = (.ok (signal, r'), w₂)) : Works p start w .compact r w₁ r'

namespace Works

variable {w₁ : σ}

theorem exists_exchange (h : Works p start w stage r w₁ r') :
    ∃ e gone put, Exchange p stage r w₁ r' e gone put := by
  cases h with
  | sanitize _ ran => exact maskStage_exchange ran
  | redact _ ran => exact redactStage_exchange ran
  | compact _ ran => exact compact_exchange ran

/-- A stage works after a count. -/
theorem reached (h : Works p start w stage r w₁ r') :
    ∃ phase, Reaches p start w phase r w₁ ∧ phase ≠ .start ∧ phase ≠ .account := by
  cases h with
  | sanitize reached => exact ⟨_, reached, by decide, by decide⟩
  | redact reached => exact ⟨_, reached, by decide, by decide⟩
  | compact reached => exact ⟨_, reached, by decide, by decide⟩

theorem ends (h : Works p start w stage r w₁ r') : EndsStage p start w stage r' := by
  cases h with
  | sanitize reached ran => exact .sanitize reached ran
  | redact reached ran => exact .redact reached ran
  | compact reached ran => exact .compact reached ran

theorem held (h : Works p start w stage r w₁ r') :
    Held p start w r'.model.family r'.messages := by
  cases h with
  | sanitize reached ran =>
    obtain ⟨masked, w₃, detail, hmask, -, hrecord⟩ := maskStage_ran ran
    obtain ⟨e, -, rfl, -⟩ := record_ran hrecord
    have hheld := Held.masked reached List.prefix_rfl hmask
    exact hheld
  | redact reached ran =>
    obtain ⟨done, w₃, r₁, heach, hrecord, rfl⟩ := redactStage_ran ran
    obtain ⟨e, -, rfl, -⟩ := record_ran hrecord
    have hheld := Held.redacted reached List.prefix_rfl heach
    exact hheld
  | compact reached ran => exact .compacted reached ran

/-- As long as the tokens stay below the number of words, what a stage lost with the messages that
it took out it gained with those that it put in. -/
theorem balances (h : Works p start w stage r w₁ r')
    (hexchange : Exchange p stage r w₁ r' e gone put) (hcounters : p.tokenizers.CountsBy count)
    (hsmall : ∀ family messages, Held p start w family messages →
      weight count family messages < Word.size) :
    e.tokensAfter + weight count r.model.family gone =
      e.tokensBefore + weight count r.model.family put := by
  obtain ⟨phase, hreach, hstarted, hcounted⟩ := h.reached
  have hexact := reaches_exact hcounters hsmall hreach hstarted hcounted
  have hbefore := hexact.tokens_eq (hsmall _ _ (.entered hreach))
  have hafter := (endsStage_exact hcounters hsmall h.ends).tokens_eq (hsmall _ _ h.held)
  rw [hexchange.told.before, hexchange.told.after, hbefore, hafter, hexchange.model]
  exact hexchange.sum fun m => count r.model.family m.content

end Works

/-- The stages that may reduce. -/
def reducing : List Stage := [.sanitize, .redact, .compact]

theorem SameWork.mem_events (h : SameWork r r') (he : e ∈ r'.events) (hstage : e.stage ∈ reducing) :
    e ∈ r.events := by
  obtain ⟨es, hevents, hes⟩ := h.events
  rw [hevents] at he
  rcases List.mem_append.mp he with he | he
  · exact he
  · rcases hes e he with hother | hother <;> rw [hother] at hstage <;> simp [reducing] at hstage

/-- Each event of a stage that may reduce is about work of the run. -/
theorem reaches_works (hstart : start.events = []) (hreach : Reaches p start w phase r w')
    (he : e ∈ r.events) (hstage : e.stage ∈ reducing) :
    ∃ r₀ w₀ r₁ gone put, Works p start w e.stage r₀ w₀ r₁ ∧
      Exchange p e.stage r₀ w₀ r₁ e gone put := by
  induction hreach with
  | start =>
    rw [hstart] at he
    cases he
  | @step phase r w₁ signal r' w₂ before more ran ih =>
    -- The last event is about the work of this stage, and all others came before.
    have hlast : ∀ {stage r₁}, Works p start w stage r w₁ r₁ → e ∈ r₁.events →
        ∃ r₀ w₀ r₁ gone put, Works p start w e.stage r₀ w₀ r₁ ∧
          Exchange p e.stage r₀ w₀ r₁ e gone put := by
      intro stage r₁ hworks hmem
      obtain ⟨e₁, gone, put, hexchange⟩ := hworks.exists_exchange
      rw [hexchange.told.events] at hmem
      rcases List.mem_append.mp hmem with hmem | hmem
      · exact ih hmem
      · obtain rfl := List.mem_singleton.mp hmem
        obtain rfl : e.stage = stage := hexchange.told.stage
        exact ⟨r, w₁, r₁, gone, put, hworks, hexchange⟩
    cases phase with
    | start =>
      obtain ⟨heq, -⟩ := pure_ran ran
      cases heq
      exact ih he
    | account => exact ih ((account_sameWork ran).mem_events he hstage)
    | sanitize =>
      change exec (p.sanitize r) w₁ = _ at ran
      rw [sanitize_eq] at ran
      obtain ⟨⟨move, r₁⟩, w₀, hmask, hafter⟩ := bind_ran ran
      exact hlast (.sanitize before hmask)
        ((afterMasking_sameWork (lift_ran hafter)).mem_events he hstage)
    | redact =>
      change exec (p.redact r) w₁ = _ at ran
      rw [redact_eq] at ran
      obtain ⟨r₁, w₀, hredact, hafter⟩ := bind_ran ran
      exact hlast (.redact before hredact)
        ((afterRedaction_sameWork (lift_ran hafter)).mem_events he hstage)
    | compact => exact hlast (.compact before ran) he
    | done => exact absurd rfl more

/-- Each event of a stage that may reduce tells of a conversation from which messages were taken out
and into which others were put, and of a reduction if there were any. Without them the tokens stay.
As long as the tokens of each conversation that the run holds stay below the number of words, the
tokens after the stage and of what it took out are those before it and of what it put in, and so
they became fewer just when what was put in counts less. -/
theorem run_balances (p : Pipeline σ) (hcounters : p.tokenizers.CountsBy count)
    {request : RunRequest} {model : Model} (hmodel : p.resolve request = .ok model)
    {result : RunResult} (hrun : exec (p.run request) w = (.ok result, w')) :
    let start := Run.begin request model (request.reserved.getD p.settings.reserved)
    ∀ e ∈ result.events, e.stage ∈ reducing →
      ∃ r w₁ r' gone put, Works p start w e.stage r w₁ r' ∧ TellsOf e e.stage r r' ∧
        p.Swaps r w₁ e.stage gone put r'.messages ∧
        (e.outcome = .reduced ↔ gone ≠ []) ∧
        (e.outcome ≠ .reduced → e.tokensAfter = e.tokensBefore) ∧
        ((∀ family messages, Held p start w family messages →
            weight count family messages < Word.size) →
          e.tokensAfter + weight count r.model.family gone =
              e.tokensBefore + weight count r.model.family put ∧
            (e.tokensAfter < e.tokensBefore ↔
              weight count r.model.family put < weight count r.model.family gone)) := by
  intro start e he hstage
  obtain ⟨r, w₁, last, hreach, hlast, rfl⟩ := run_reaches hmodel hrun
  have hearlier : e ∈ r.events := by
    rcases List.mem_append.mp he with he | he
    · exact he
    · obtain rfl := List.mem_singleton.mp he
      rw [hlast] at hstage
      simp [reducing] at hstage
  obtain ⟨r₀, w₀, r₁, gone, put, hworks, hexchange⟩ :=
    reaches_works rfl hreach hearlier hstage
  refine ⟨r₀, w₀, r₁, gone, put, hworks, hexchange.told, hexchange.swaps, hexchange.reduced,
    fun hkept => ?_, fun hsmall => ?_⟩
  · have hnone : gone = [] := not_not.mp (mt hexchange.reduced.mpr hkept)
    rw [hexchange.told.before, hexchange.told.after, Run.tokens, Run.tokens, hexchange.idle hnone]
  · have hbalance := hworks.balances hexchange hcounters hsmall
    exact ⟨hbalance, by omega⟩

/-- The chores are masked, redacted and compacted, and each of these stages balances. -/
theorem run_balances_chores :
    ∃ result w', exec ((obliging narrow).run chores) () = (.ok result, w') ∧
      result.events.map (·.stage) = [.account, .sanitize, .redact, .compact, .done] ∧
      ∀ e ∈ result.events, e.stage ∈ reducing → ∃ r w₁ r' gone put, TellsOf e e.stage r r' ∧
        (obliging narrow).Swaps r w₁ e.stage gone put r'.messages ∧
          e.tokensAfter + weight (fun _ text => Nat.min text.length 50) "letters" gone =
            e.tokensBefore + weight (fun _ text => Nat.min text.length 50) "letters" put := by
  have hmodel : (obliging narrow).resolve chores = .ok ⟨"small", "letters", 4⟩ := rfl
  have hsmall : ∀ family messages,
      Held (obliging narrow) (.begin chores ⟨"small", "letters", 4⟩ 0) () family messages →
      weight (fun _ text => Nat.min text.length 50) family messages < Word.size :=
    fun family messages hheld =>
      hheld.weight_lt (fun text => Nat.min_le_right text.length 50) (by decide)
  have hstages : (exec ((obliging narrow).run chores) ()).1.toOption.map
      (fun result => result.events.map (·.stage)) =
        some [.account, .sanitize, .redact, .compact, .done] := by
    decide +kernel
  obtain ⟨result, hresult, hevents⟩ := Option.map_eq_some_iff.mp hstages
  obtain ⟨w', hran⟩ := ran_of_toOption hresult
  refine ⟨result, w', hran, hevents, fun e he hstage => ?_⟩
  obtain ⟨r, w₁, r', gone, put, -, htold, hswaps, -, -, hbalance⟩ :=
    run_balances (obliging narrow) (obliging_countsBy narrow) hmodel hran e he hstage
  exact ⟨r, w₁, r', gone, put, htold, hswaps, (hbalance hsmall).1⟩

/-- A stage that reduced may have made a conversation larger. -/
theorem not_shrinks_chores :
    ¬ ∀ (σ : Type) (p : Pipeline σ) (count : String → String → Nat) (request : RunRequest)
      (w w' : σ) (result : RunResult), p.tokenizers.CountsBy count →
      exec (p.run request) w = (.ok result, w') → ∀ e ∈ result.events, e.stage ∈ reducing →
      e.tokensAfter ≤ e.tokensBefore ∧ (e.outcome = .reduced → e.tokensAfter < e.tokensBefore) := by
  intro hlaw
  have hgrown : (exec ((obliging narrow).run chores) ()).1.toOption.map
      (fun result => result.events.any fun e =>
        e.stage == .sanitize && decide (e.tokensBefore < e.tokensAfter)) = some true := by
    decide +kernel
  obtain ⟨result, hresult, hany⟩ := Option.map_eq_some_iff.mp hgrown
  obtain ⟨w', hran⟩ := ran_of_toOption hresult
  obtain ⟨e, he, hevent⟩ := List.any_eq_true.mp hany
  simp only [Bool.and_eq_true, beq_iff_eq, decide_eq_true_eq] at hevent
  obtain ⟨hstage, hmore⟩ := hevent
  obtain ⟨hless, -⟩ := hlaw Unit _ _ _ _ _ _ (obliging_countsBy narrow) hran e he
    (by rw [hstage]; decide)
  omega

end Pipeline
end ContextBudget

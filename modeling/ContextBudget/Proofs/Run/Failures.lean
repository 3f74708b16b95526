import ContextBudget.Proofs.Run.Integrity
import ContextBudget.Proofs.Run.LargerModel

/-!
# Failures of a run

A run fails for an unknown model, before it does anything, or for a count that fails. The failures
of all other services leave the conversation as it was.

- `account_failed`, `sanitize_failed`, `redactEach_failed`, `compact_failed`: a stage fails only
  where it counts the conversation, or a text that it is about to put in place of others.
- `CountCall`: what a run counts; `step_failed`: a phase fails only in one of these counts.
- `Fruitless`: no service gives a run anything to put in its conversation.
- `run_degrades`: when a run fails, when it goes through, and what it keeps if its services give
  nothing.
-/

namespace ContextBudget

open BudgetM

namespace Pipeline

variable {σ : Type} {p : Pipeline σ} {start r r' : Run} {phase : Phase} {signal : Signal}
  {e : BudgetError} {w w' : σ}

/-! ## Stages that fail -/

/-- An event that tells of a count which failed when a pass began. -/
def TellsFailure (p : Pipeline σ) (e : BudgetError) (w w' : σ) : Prop :=
  ∃ event : Event, event.stage = .account ∧ event.outcome = .degraded ∧
    event.warnings = [e.warning] ∧ p.Emitted event w w'

theorem account_failed (h : exec (p.account r) w = (.error e, w')) :
    ∃ w₁, exec (p.tokenizers.counts r.model.family (r.messages.map (·.content))) w =
      (.error e, w₁) ∧ p.TellsFailure e w₁ w' := by
  simp only [account] at h
  rcases bind_failed h with hcatch | ⟨counted, w₁, hcount, h₁⟩
  · cases hcatch
  · cases counted with
    | ok tally =>
      rcases bind_failed h₁ with hrecord | ⟨_, _, -, hlast⟩
      · exact (lift_failed hrecord).elim
      · exact (pure_failed hlast).elim
    | error e' =>
      obtain ⟨r₁, w₂, hrecord, h₂⟩ := call_failed h₁
      cases h₂
      refine ⟨w₁, Tokenizers.count_failed (catch_ran hcount), ?_⟩
      cases hrecord
      exact ⟨_, rfl, rfl, rfl, _, rfl, rfl⟩

/-- Giving a message to the redactor fails only in the count of what is left of it. -/
theorem redactOne_failed {goal : String} {limit : Span} {done : Redacted} {index : Nat}
    (h : exec (p.redactOne goal limit done index) w = (.error e, w')) :
    ∃ m reply w₁ response, done.run.messages[index]? = some m ∧
      (p.redactor.prune (p.question goal m)).run w = (reply, w₁) ∧
      reply.within limit = some response ∧
      (response.gaveBack || response.text == m.content) = false ∧
      exec (p.tokenizers.counts done.run.model.family [response.text]) w₁ = (.error e, w') := by
  simp only [redactOne] at h
  split at h
  · exact (pure_failed h).elim
  · rename_i m found
    obtain ⟨reply, w₁, hasked, h₁⟩ := call_failed h
    split at h₁
    · exact (pure_failed h₁).elim
    · rename_i response answered
      split at h₁
      · exact (pure_failed h₁).elim
      · exact ⟨m, reply, w₁, response, found, hasked, answered, Bool.eq_false_iff.mpr ‹_›,
          Tokenizers.countMessage_failed (failed_of_bind_pure h₁)⟩

/-- A redaction fails only in the count of what is left of a message. -/
theorem redactEach_failed {places : List Nat} (part : places <+: p.places r)
    (h : exec (p.redactEach (Run.goal r.messages) p.patience ⟨r, [], [], []⟩ places) w =
      (.error e, w')) :
    ∃ index m reply w₁ response, p.Prunes r w index m reply w₁ ∧
      reply.within p.patience = some response ∧
      (response.gaveBack || response.text == m.content) = false ∧
      exec (p.tokenizers.counts r.model.family [response.text]) w₁ = (.error e, w') := by
  induction places using List.reverseRecOn with
  | nil => exact (pure_failed h).elim
  | append_singleton places index ih =>
    rw [redactEach_concat] at h
    rcases bind_failed h with hbefore | ⟨done, w₁, hran, hlast⟩
    · exact ih ((List.prefix_append _ _).trans part) hbefore
    · split at hlast
      · exact (pure_failed hlast).elim
      · obtain ⟨m, reply, w₂, response, found, hasked, answered, useful, hcount⟩ :=
          redactOne_failed hlast
        have hmodel : done.run.model = r.model := (redactEach_ran hran).1.model
        exact ⟨index, m, reply, w₂, response,
          .intro part hran (Bool.eq_false_iff.mpr ‹_›) found hasked, answered, useful,
          hmodel ▸ hcount⟩

theorem sanitize_failed (h : exec (p.sanitize r) w = (.error e, w')) :
    exec (p.masking.mask r.model.family r.messages r.tally) w = (.error e, w') := by
  rw [sanitize_eq] at h
  rcases bind_failed h with hmask | ⟨_, _, -, hafter⟩
  · rcases bind_failed hmask with hpass | ⟨_, _, -, hrecord⟩
    · exact failed_of_bind_pure hpass
    · exact (lift_failed (failed_of_bind_pure hrecord)).elim
  · exact (lift_failed hafter).elim

theorem redact_failed (h : exec (p.redact r) w = (.error e, w')) :
    exec (p.redactEach (Run.goal r.messages) p.patience ⟨r, [], [], []⟩ (p.places r)) w =
      (.error e, w') := by
  rw [redact_eq] at h
  rcases bind_failed h with hredact | ⟨_, _, -, hafter⟩
  · simp only [redactStage] at hredact
    change exec (if (p.places r).isEmpty then _ else _) w = _ at hredact
    split at hredact
    · exact (lift_failed hredact).elim
    · rcases bind_failed hredact with heach | ⟨_, _, -, hrecord⟩
      · exact heach
      · exact (lift_failed (failed_of_bind_pure hrecord)).elim
  · exact (lift_failed hafter).elim

theorem compact_failed (h : exec (p.compact r) w = (.error e, w')) :
    ∃ summarize, p.summarizer = some summarize ∧ p.skipReason? r = none ∧
      exec (Compaction.compact p.tokenizers summarize p.settings.compaction.config r.model.family
        r.messages r.tally) w = (.error e, w') := by
  simp only [compact] at h
  split at h
  · rcases bind_failed h with hcompact | ⟨_, _, -, hrecord⟩
    · exact ⟨_, ‹_›, ‹_›, hcompact⟩
    · exact (lift_failed (failed_of_bind_pure hrecord)).elim
  · exact (lift_failed (failed_of_bind_pure h)).elim

/-! ## What a run counts -/

/-- In a run, texts are counted for a family: those of the conversation when a pass begins, and each
that a stage is about to put in place of others. -/
inductive CountCall (p : Pipeline σ) (start : Run) (w : σ) : String → List String → σ → Prop where
  | conversation {r : Run} {w₁ : σ} (reached : Reaches p start w .account r w₁) :
    CountCall p start w r.model.family (r.messages.map (·.content)) w₁
  | placeholder {r : Run} {w₁ : σ} {index : Nat} {m : Message} {tokens : Nat} {handle : Handle}
    {reply : Call String} {w₂ : σ} {id : String} (reached : Reaches p start w .sanitize r w₁)
    (asks : p.masking.Asks r.model.family r.messages r.tally w₁ index m tokens handle reply w₂)
    (answer : reply.within p.settings.masking.storeLimit = some (.ok id)) :
    CountCall p start w r.model.family [({ handle with id }).placeholder tokens] w₂
  | pruned {r : Run} {w₁ : σ} {index : Nat} {m : Message} {reply : Pending PruneResponse} {w₂ : σ}
    {response : PruneResponse} (reached : Reaches p start w .redact r w₁)
    (asks : p.Prunes r w₁ index m reply w₂) (answered : reply.within p.patience = some response)
    (useful : (response.gaveBack || response.text == m.content) = false) :
    CountCall p start w r.model.family [response.text] w₂
  | summary {r : Run} {w₁ : σ} {place : Nat} {summary : Message} {w₂ : σ}
    (reached : Reaches p start w .compact r w₁) (summarizes : p.Summarizes r w₁ place summary w₂) :
    CountCall p start w r.model.family [summary.content] w₂

/-- A run counts for the family of the model that it began with, or of one of the catalog. -/
theorem CountCall.listed {family : String} {texts : List String}
    (h : CountCall p start w family texts w') :
    ∃ model, (model = start.model ∨ model ∈ p.catalog.models) ∧ family = model.family := by
  cases h with
  | conversation reached => exact ⟨_, reaches_listed reached, rfl⟩
  | placeholder reached => exact ⟨_, reaches_listed reached, rfl⟩
  | pruned reached => exact ⟨_, reaches_listed reached, rfl⟩
  | summary reached => exact ⟨_, reaches_listed reached, rfl⟩

/-- A phase fails only in a count of the run. -/
theorem step_failed {w₁ : σ} (hreach : Reaches p start w phase r w₁)
    (h : exec (p.step phase r) w₁ = (.error e, w')) :
    ∃ family texts w₂ w₃, CountCall p start w family texts w₂ ∧
      exec (p.tokenizers.counts family texts) w₂ = (.error e, w₃) ∧
      (w' = w₃ ∨ p.TellsFailure e w₃ w') := by
  cases phase with
  | start => exact (pure_failed h).elim
  | account =>
    obtain ⟨w₃, hcount, htells⟩ := account_failed h
    exact ⟨_, _, _, w₃, .conversation hreach, hcount, .inr htells⟩
  | sanitize =>
    have hmask := sanitize_failed h
    rw [Masking.mask_eq] at hmask
    obtain ⟨_, _, _, _, _, w₂, _, hasks, answer, hcount⟩ :=
      Masking.maskEach_failed List.prefix_rfl hmask
    exact ⟨_, _, w₂, w', .placeholder hreach hasks answer, hcount, .inl rfl⟩
  | redact =>
    obtain ⟨_, _, _, w₂, _, hasks, answered, useful, hcount⟩ :=
      redactEach_failed List.prefix_rfl (redact_failed h)
    exact ⟨_, _, w₂, w', .pruned hreach hasks answered useful, hcount, .inl rfl⟩
  | compact =>
    obtain ⟨summarize, given, due, hcompact⟩ := compact_failed h
    obtain ⟨_, _, _, _, w₂, _, some_left, asked, answered, hcount⟩ :=
      Compaction.compact_failed hcompact
    exact ⟨_, _, w₂, w', .summary hreach (.intro given due some_left asked answered), hcount,
      .inl rfl⟩
  | done => exact (pure_failed h).elim

/-! ## Services that give nothing -/

/-- In a run, no service gives anything to put in the conversation: the store keeps no handle, the
redactor gives each text back, and what the summarizer answers is blank, if they answer in time. -/
structure Fruitless (p : Pipeline σ) (start : Run) (w : σ) : Prop where
  store : ∀ index m handle reply, StoreCall p start w index m handle reply →
    ∀ id, reply.within p.settings.masking.storeLimit ≠ some (.ok id)
  prune : ∀ index m reply, PruneCall p start w index m reply →
    ∀ response, reply.within p.patience = some response → response.gaveBack = true
  summarize : ∀ reply, SummaryCall p start w reply →
    ∀ text, reply.within p.settings.compaction.config.limit = some (.ok text) →
      Text.isBlankText text = true

theorem Fruitless.not_replaces (h : Fruitless p start w) {x : Replacement} :
    ¬ Replaces p start w x := by
  intro hx
  cases hx with
  | masked _ call answer => exact h.store _ _ _ _ call _ answer
  | redacted _ call answered accepted =>
    rw [h.prune _ _ _ call _ answered] at accepted
    cases accepted

theorem Fruitless.not_condenses (h : Fruitless p start w) {w₁ : σ} {messages : Conversation}
    (hreach : Reaches p start w .compact r w₁) : ¬ Condenses p r w₁ messages := by
  intro hcondenses
  obtain ⟨⟨given, due, some_left, asked, answered⟩⟩ := hcondenses
  obtain ⟨hreply, hfull⟩ := Compaction.usable_eq_ok answered
  have hcall : SummaryCall p start w _ :=
    .intro hreach given due (by rw [some_left]; exact List.cons_ne_nil _ _) asked
  rw [h.summarize _ hcall _ hreply] at hfull
  cases hfull

/-- With services that give nothing, a run keeps its conversation. -/
theorem Fruitless.kept (h : Fruitless p start w) (hstart : Unsummed start.events)
    (hreach : Reaches p start w phase r w') :
    r.messages = start.messages ∧ r.handles = start.handles ∧ r.pruneIds = start.pruneIds := by
  obtain ⟨kept, rs, hhistory⟩ := reaches_history hstart hreach
  obtain rfl : rs = [] := List.eq_nil_iff_forall_not_mem.mpr fun x hx =>
    h.not_replaces (hhistory.made x hx)
  have hkept : kept = start.messages := hhistory.rewrites.eq_of_nil
  refine ⟨?_, by simpa using hhistory.handles, by simpa using hhistory.pruneIds⟩
  rcases hhistory.summed with ⟨hmessages, -⟩ | ⟨-, r₀, w₀, -, hreach₀, -, -, hcondenses, -⟩
  · exact hmessages.trans hkept
  · exact (h.not_condenses hreach₀ hcondenses).elim

/-! ## Runs -/

/-- No model is known for a request: the catalog does not list its name, and it does not give a
family and a limit of its own. -/
def Unknown (p : Pipeline σ) (request : RunRequest) : Prop :=
  (∀ m ∈ p.catalog.models, m.name ≠ request.model) ∧
    (request.family = none ∨ request.limit = none)

theorem resolve_of_unknown {request : RunRequest} (h : p.Unknown request) :
    p.resolve request = .error (.modelUnknown request.model) := by
  obtain ⟨habsent, hown⟩ := h
  rw [resolve, Catalog.find?_eq_none_iff.mpr habsent]
  rcases hown with hfamily | hlimit
  · rw [hfamily]
  · rw [hlimit]
    cases request.family <;> rfl

theorem exists_resolve {request : RunRequest} (h : ¬ p.Unknown request) :
    ∃ model, p.resolve request = .ok model := by
  unfold resolve
  split
  · exact ⟨_, rfl⟩
  · exact ⟨_, rfl⟩
  · rename_i hnone hown
    refine absurd ⟨Catalog.find?_eq_none_iff.mp hnone, ?_⟩ h
    cases hfamily : request.family with
    | none => exact .inl rfl
    | some family =>
      cases hlimit : request.limit with
      | none => exact .inr rfl
      | some limit => exact (hown family limit hfamily hlimit).elim

/-- For an unknown model a run fails at once. For a known one it fails only in a count, goes through
if none of its counts fails, and then gives the conversation back if no service had anything to put
in it. -/
theorem run_degrades (p : Pipeline σ) (request : RunRequest) (w : σ) :
    (p.Unknown request →
      exec (p.run request) w = (.error (.modelUnknown request.model), w)) ∧
    (¬ p.Unknown request → ∃ model, p.resolve request = .ok model ∧
      let start := Run.begin request model (request.reserved.getD p.settings.reserved)
      (∀ e w', exec (p.run request) w = (.error e, w') →
        ∃ family texts w₁ w₂, CountCall p start w family texts w₁ ∧
          p.tokenizers.Miscounts family texts w₁ e w₂ ∧ (w' = w₂ ∨ p.TellsFailure e w₂ w')) ∧
      ((∀ family texts w₁, CountCall p start w family texts w₁ →
          ∃ ns w₂, exec (p.tokenizers.counts family texts) w₁ = (.ok ns, w₂)) →
        ∃ result w', exec (p.run request) w = (.ok result, w')) ∧
      (Fruitless p start w → ∀ result w', exec (p.run request) w = (.ok result, w') →
        result.messages = request.messages ∧ result.handles = [] ∧ result.pruneIds = [])) := by
  constructor
  · intro hunknown
    simp only [run, resolve_of_unknown hunknown]
    rfl
  · intro hknown
    obtain ⟨model, hmodel⟩ := exists_resolve hknown
    refine ⟨model, hmodel, ?_⟩
    intro start
    have hrun := exec_run hmodel w
    have hstops : Stops p start w (exec (p.drive maxPhases .start start) w) :=
      drive_stops p request model _ w
    generalize exec (p.drive maxPhases .start start) w = driven at hrun hstops
    cases hstops with
    | @failed phase r w₁ e w' before more ran =>
      obtain ⟨family, texts, w₂, w₃, hcall, hcount, hlast⟩ := step_failed before ran
      refine ⟨fun e' w'' h => ?_, fun hcounts => ?_, fun _ result w'' h => ?_⟩
      · cases hrun.symm.trans h
        exact ⟨family, texts, w₂, w₃, hcall, Tokenizers.counts_failed hcount, hlast⟩
      · obtain ⟨ns, w₄, hok⟩ := hcounts family texts w₂ hcall
        cases hcount.symm.trans hok
      · cases hrun.symm.trans h
    | @ended r w₁ last =>
      refine ⟨fun e' w'' h => ?_, fun _ => ⟨_, _, hrun⟩, fun hfruitless result w'' h => ?_⟩
      · cases hrun.symm.trans h
      · cases hrun.symm.trans h
        have hkept := hfruitless.kept (by simp [Unsummed, start, Run.begin]) last
        exact hkept

/-- What a redactor answers that cannot prune the text: it gives it back and says so. -/
def gaveUp (text : String) : PruneResponse :=
  ⟨"-", text, [], ⟨1, 1, 0, .ofRatio 0 1, none, false, false, 0⟩,
    [⟨"internal_error", "not pruned"⟩], true⟩

/-- The pipeline of the services that all answer, with a store that fails, a redactor that gives all
texts back and a summarizer that answers blank in place of those. -/
def barren (catalog : Catalog) : Pipeline Unit := { obliging catalog with
  keeper := ⟨fun _ => return .failure (.unavailable "down"), fun _ => return .answer none⟩
  redactor := ⟨fun request => return .done .zero (gaveUp request.text), fun _ => return .ok ""⟩
  summarizer := some fun _ _ => return .answer " " }

theorem barren_fruitless (catalog : Catalog) (start : Run) :
    Fruitless (barren catalog) start () where
  store index m handle reply h id hanswer := by
    obtain ⟨-, _, _, -, -, asked⟩ := h
    cases asked
    cases hanswer
  prune index m reply h response hanswer := by
    obtain ⟨-, _, _, -, -, asked⟩ := h
    cases asked
    cases hanswer
    rfl
  summarize reply h text hanswer := by
    obtain ⟨-, given, -, -, asked⟩ := h
    obtain rfl := Option.some.inj given
    cases asked
    cases hanswer
    decide

/-- Chores with a tool output that is masked but too small to be redacted. -/
def duties : RunRequest := { chores with
  messages := Message.inOrder [.of .system "be brief", .of .user "list it",
    .toolResult "c" "three", .of .user "thanks"] }

/-- Where only the counter works, the duties stay as they are, though all stages try to make them
fit. -/
theorem run_degrades_duties :
    ¬ (barren narrow).Unknown duties ∧
      Fruitless (barren narrow) (.begin duties ⟨"small", "letters", 4⟩ 0) () ∧
      ∃ result w', exec ((barren narrow).run duties) () = (.ok result, w') ∧
        (result.events.filter (·.outcome = .degraded)).map (·.stage) =
          [.sanitize, .redact, .compact] ∧
        result.messages = duties.messages ∧ result.handles = [] ∧ result.pruneIds = [] := by
  have hknown : ¬ (barren narrow).Unknown duties := fun hunknown =>
    hunknown.1 ⟨"small", "letters", 4⟩ (by decide) rfl
  have hfruitless := barren_fruitless narrow (.begin duties ⟨"small", "letters", 4⟩ 0)
  obtain ⟨-, hrun⟩ := run_degrades (barren narrow) duties ()
  obtain ⟨model, hmodel, -, hgoes, hkept⟩ := hrun hknown
  cases hmodel
  obtain ⟨result, w', hran⟩ := hgoes fun family texts w₁ hcall => by
    obtain ⟨m, hm, rfl⟩ := hcall.listed
    have hfamily : m.family = "letters" := by
      rcases hm with rfl | hm
      · rfl
      · obtain rfl := List.mem_singleton.mp hm
        rfl
    have hcounter : (barren narrow).tokenizers.get? m.family =
        some fun text => return .answer (Nat.min text.length 50) := by
      rw [hfamily]
      rfl
    exact Tokenizers.exists_counts_of_answers hcounter (fun text w => ⟨_, _, rfl⟩) texts w₁
  have htried : (exec ((barren narrow).run duties) ()).1.toOption.map (fun result =>
      (result.events.filter (·.outcome = .degraded)).map (·.stage)) =
        some [.sanitize, .redact, .compact] := by
    decide +kernel
  rw [hran] at htried
  exact ⟨hknown, hfruitless, result, w', hran, Option.some.inj htried,
    hkept hfruitless result w' hran⟩

end Pipeline
end ContextBudget

import ContextBudget.Proofs.Run.Integrity

/-!
# Runs that end over budget

A run that cannot fit its conversation has gone through all stages of a pass, and compaction is the
last of them. It asks for a summary only if the tokens in use exceed a share of the limit. That
share leaves out the margin for an answer, so a conversation may exceed its budget and still not be
worth a summary.

- `reaches_tried`: a run that ends over budget comes from a compaction, and the stages of its last
  pass are all there.
- `compact_asks`: a compaction asks for a summary, or has nothing to sum up, or is not due.
- `Attends`: a view of the services' state that shows what the summarizer was asked.
- `reaches_unasked`, `compact_asked`: only a compaction calls the summarizer, and once.
- `run_lastResort`: in a run that ends over budget with messages left to sum up, the summarizer was
  called, unless the tokens in use stay below compaction's share of the limit.
- `not_asks_tight`: that exception occurs.
-/

namespace ContextBudget

open BudgetM

/-- The stages that come before a phase in its pass. -/
def Phase.earlier : Phase → List Stage
  | start => []
  | account => []
  | sanitize => [.account]
  | redact => [.account, .sanitize]
  | compact => [.account, .sanitize, .redact]
  | done => []

/-- A message before the tail that is not the system's is to give way to a summary. -/
theorem Compaction.mem_condensed {config : CompactionConfig} {messages : Conversation} {i : Nat}
    {m : Message} (hbefore : i < tailStart messages config.preserve)
    (hfound : messages[i]? = some m) (hspoken : m.isSystem = false) :
    (m, i) ∈ condensed config messages := by
  refine List.mem_filter.mpr ⟨List.mem_zipIdx_iff_getElem?.mpr hfound, ?_⟩
  simp [inMiddle, hbefore, hfound, hspoken]

namespace Pipeline

variable {σ : Type} {p : Pipeline σ} {start r r' : Run} {phase : Phase} {signal : Signal}
  {w w' w₁ : σ}

/-! ## The stages of the last pass -/

/-- A pass goes through its stages one by one. -/
theorem Stepped.earlier {stages : List Stage} (h : Stepped p phase r signal r' stages)
    {told : List Stage} (hearlier : phase.earlier <:+ told) :
    (phase.next signal).earlier <:+ told ++ stages := by
  have hmore : ∀ stage, phase.earlier ++ [stage] <:+ told ++ [stage] := fun stage =>
    List.suffix_append_self_iff.mpr hearlier
  cases h with
  | started => exact List.nil_suffix
  | counted | masked | redacted =>
    rcases signal_cases r' with ⟨hs, -⟩ | ⟨hs, -⟩ <;> rw [hs]
    · exact List.nil_suffix
    · exact hmore _
  | putOff => exact hmore _
  | movedEarly => exact List.nil_suffix
  | movedLate => exact List.nil_suffix
  | compacted => exact List.nil_suffix
  | ended => exact List.nil_suffix

/-- A phase before compaction ends a run only if the budget is kept. -/
theorem Stepped.kept {stages : List Stage} (h : Stepped p phase r signal r' stages)
    (hphase : phase ≠ .compact) (more : phase ≠ .done) (hdone : phase.next signal = .done) :
    r'.budget.fits = true := by
  cases h with
  | counted | masked | redacted =>
    rcases signal_cases r' with ⟨-, hfits⟩ | ⟨hs, -⟩
    · exact hfits
    · rw [hs] at hdone
      cases hdone
  | compacted => exact absurd rfl hphase
  | ended => exact absurd rfl more
  | _ => cases hdone

/-- Before a compaction, a run has gone through the other stages of the pass. A run that ends with
its budget exceeded comes from a compaction. -/
theorem reaches_tried (hreach : Reaches p start w phase r w') :
    phase.earlier <:+ r.events.map (·.stage) ∧
      (phase = .done → r.budget.fits = false → ∃ r₀ w₀ signal,
        Reaches p start w .compact r₀ w₀ ∧ exec (p.compact r₀) w₀ = (.ok (signal, r), w')) := by
  induction hreach with
  | start => exact ⟨List.nil_suffix, nofun⟩
  | @step phase r w₁ signal r' w₂ before more ran ih =>
    obtain ⟨stages, hstepped, es, rfl, hevents, -⟩ := step_cases ran
    refine ⟨by rw [hevents, List.map_append]; exact hstepped.earlier ih.1, fun hdone hover => ?_⟩
    cases phase with
    | compact => exact ⟨r, w₁, signal, before, ran⟩
    | done => exact absurd rfl more
    | _ => simp [hstepped.kept (by decide) more hdone] at hover

/-! ## What a compaction asks -/

theorem Condenses.some_left {messages : Conversation} (h : Condenses p r w messages) :
    Compaction.condensed p.settings.compaction.config r.messages ≠ [] := by
  obtain ⟨⟨-, -, hleft, -, -⟩⟩ := h
  rw [hleft]
  exact List.cons_ne_nil _ _

/-- A compaction that is switched on and has a summarizer asks it for a summary. It does not if
there is nothing to sum up, or if it is not due; then the conversation stays as it was. -/
theorem compact_asks {summarize : Summarizer σ} (given : p.summarizer = some summarize)
    (enabled : p.settings.compaction.enabled = true)
    (h : exec (p.compact r) w = (.ok (signal, r'), w')) :
    (p.skipReason? r = none ∧
      Compaction.condensed p.settings.compaction.config r.messages ≠ []) ∨
    (r'.messages = r.messages ∧
      (Compaction.condensed p.settings.compaction.config r.messages = [] ∨
        (r'.budget.exceeds p.settings.compaction.config.trigger = false ∧
          ∃ e, r'.events = r.events ++ [e] ∧ e.stage = .compact ∧ e.outcome = .skipped ∧
            e.detail = .obj [("reason", .str "below_trigger")]))) := by
  by_cases hdue : p.skipReason? r = none
  · by_cases hleft : Compaction.condensed p.settings.compaction.config r.messages = []
    · refine .inr ⟨?_, .inl hleft⟩
      obtain ⟨e, -, -, -, -, -, ⟨hsame, -⟩ | ⟨hcondenses, -⟩⟩ := compact_condenses h
      · exact hsame
      · exact absurd hleft hcondenses.some_left
    · exact .inl ⟨hdue, hleft⟩
  · have hreason : p.skipReason? r = some "below_trigger" ∧
        r.budget.exceeds p.settings.compaction.config.trigger = false := by
      unfold skipReason? at hdue ⊢
      simpa [enabled, given] using hdue
    obtain ⟨hreason, hbelow⟩ := hreason
    simp only [compact, hreason] at h
    obtain ⟨r₁, w₁, hrecord, h₁⟩ := bind_ran h
    obtain ⟨heq, -⟩ := pure_ran h₁
    cases heq
    obtain ⟨e, ⟨hstage, -, houtcome, hdetail⟩, rfl, -⟩ := record_ran (lift_ran hrecord)
    exact .inr ⟨rfl, .inr ⟨hbelow, e, rfl, hstage, houtcome, hdetail⟩⟩

/-! ## What the summarizer is called with -/

/-- What a compaction of the run asks the summarizer: the messages that are to give way as a text,
and the length that the summary may have. -/
def summaryQuestion (p : Pipeline σ) (r : Run) : String × Nat :=
  let config := p.settings.compaction.config
  (Compaction.render ((Compaction.condensed config r.messages).map (·.1)), config.summaryChars)

/-- A view of the services' state that shows what the summarizer was asked: each question comes last
when it is asked, and no other service changes what is seen. -/
structure Attends (p : Pipeline σ) (asked : σ → List (String × Nat)) : Prop where
  counter : p.tokenizers.Leaves asked
  store : ∀ handle, KeepsCall asked (p.keeper.store handle)
  prune : ∀ request, KeepsCall asked (p.redactor.prune request)
  summarize : ∀ summarize, p.summarizer = some summarize →
    ∀ text most w, asked ((summarize text most).run w).2 = asked w ++ [(text, most)]
  now : KeepsCall asked p.now
  emit : ∀ e, KeepsCall asked (p.emit e)

variable {asked : σ → List (String × Nat)}

theorem Attends.quiet (hattends : p.Attends asked) : p.Quiet asked :=
  ⟨hattends.counter, hattends.store, hattends.now, hattends.emit⟩

/-- Before a compaction, the summarizer is not asked. -/
theorem reaches_unasked (hattends : p.Attends asked) (hreach : Reaches p start w phase r w')
    (more : phase ≠ .done) : asked w' = asked w := by
  induction hreach with
  | start => rfl
  | @step phase r w₁ signal r' w₂ before going ran ih =>
    refine .trans ?_ (ih going)
    cases phase with
    | start =>
      obtain ⟨-, rfl⟩ := pure_ran ran
      rfl
    | account => exact (account_keeps hattends.quiet r).ran ran
    | sanitize => exact (sanitize_keeps hattends.quiet r).ran ran
    | redact => exact (redact_keeps hattends.quiet hattends.prune r).ran ran
    | compact => exact absurd rfl more
    | done => exact absurd rfl going

/-- A compaction that is due, with messages left to sum up, calls the summarizer with its
question. -/
theorem compact_asked {summarize : Summarizer σ} (hattends : p.Attends asked)
    (given : p.summarizer = some summarize) (due : p.skipReason? r = none)
    (some_left : Compaction.condensed p.settings.compaction.config r.messages ≠ [])
    (h : exec (p.compact r) w = (.ok (signal, r'), w')) :
    asked w' = asked w ++ [p.summaryQuestion r] := by
  simp only [compact, due, given] at h
  obtain ⟨c, w₁, hcompact, h₁⟩ := bind_ran h
  obtain ⟨r₁, w₂, hrecord, h₂⟩ := bind_ran h₁
  obtain ⟨-, rfl⟩ := pure_ran h₂
  rw [(record_keeps hattends.quiet _ _ _ _ _ _).ran (lift_ran hrecord)]
  have hcalled := hattends.summarize summarize given (p.summaryQuestion r).1
    (p.summaryQuestion r).2 w
  cases Compaction.compact_cases hcompact with
  | nothing none_left => exact absurd none_left some_left
  | useless reply _ warning _ called =>
    rwa [summaryQuestion, called] at hcalled
  | summed first place rest reply w₃ text summary entry _ _ called _ _ counted =>
    rw [(Tokenizers.countMessage_keeps hattends.counter _ _).ran counted]
    rwa [summaryQuestion, called] at hcalled

/-! ## Whole runs -/

/-- A run that ends with its budget exceeded has gone through all stages of its last pass. If
compaction is switched on, there is a summarizer, and there are messages left to sum up, then the
summarizer was called once, in that compaction, unless the tokens in use are below compaction's
share of the limit; then the event of the compaction says so. -/
theorem run_lastResort (p : Pipeline σ) {request : RunRequest} {model : Model}
    (hmodel : p.resolve request = .ok model) {result : RunResult}
    (h : exec (p.run request) w = (.ok result, w')) (exceeded : result.fits = false) :
    let start := Run.begin request model (request.reserved.getD p.settings.reserved)
    [.account, .sanitize, .redact, .compact, .done] <:+ result.events.map (·.stage) ∧
      ∀ i m, p.settings.compaction.enabled = true → p.summarizer.isSome = true →
        i < Compaction.tailStart result.messages p.settings.compaction.config.preserve →
        result.messages[i]? = some m → m.isSystem = false →
        (∃ r w₁, Reaches p start w .compact r w₁ ∧
          ∀ asked, p.Attends asked → asked w' = asked w ++ [p.summaryQuestion r]) ∨
        (result.budget.exceeds p.settings.compaction.config.trigger = false ∧
          ∃ e ∈ result.events, e.stage = .compact ∧ e.outcome = .skipped ∧
            e.detail = .obj [("reason", .str "below_trigger")]) := by
  intro start
  obtain ⟨r, w₁, r', hreach, hfinish, rfl⟩ := run_finishes hmodel h
  obtain ⟨-, hover⟩ := reaches_tried hreach
  have hquiet : ∀ asked, p.Attends asked → asked w' = asked w₁ := fun asked hattends =>
    (record_keeps hattends.quiet _ _ _ _ _ _).ran hfinish
  obtain ⟨e, ⟨hstage, -⟩, rfl, -⟩ := record_ran hfinish
  obtain ⟨r₀, w₀, signal, hreach₀, hcompact⟩ := hover rfl exceeded
  obtain ⟨hearlier, -⟩ := reaches_tried hreach₀
  constructor
  · obtain ⟨e', htold, -⟩ := compact_condenses hcompact
    obtain ⟨before, hbefore⟩ := hearlier
    refine ⟨before, ?_⟩
    change _ = (r.events ++ [e]).map (·.stage)
    simp only [List.map_append, htold.events, ← hbefore, List.map_cons, htold.stage, hstage]
    simp [Phase.earlier]
  · intro i m enabled hgiven hbefore hfound hspoken
    obtain ⟨summarize, given⟩ := Option.isSome_iff_exists.mp hgiven
    have hleft : Compaction.condensed p.settings.compaction.config r.messages ≠ [] :=
      List.ne_nil_of_mem (Compaction.mem_condensed hbefore hfound hspoken)
    rcases compact_asks given enabled hcompact with
      ⟨hdue, hsome⟩ | ⟨hsame, hnone | ⟨hbelow, e', htold⟩⟩
    · refine .inl ⟨r₀, w₀, hreach₀, fun asked hattends => ?_⟩
      rw [hquiet asked hattends, compact_asked hattends given hdue hsome hcompact,
        reaches_unasked hattends hreach₀ (by decide)]
    · exact absurd (hsame ▸ hnone) hleft
    · refine .inr ⟨hbelow, e', ?_, htold.2⟩
      change e' ∈ r.events ++ [e]
      simp [htold.1]

/-- The pipeline whose services all answer, with what the summarizer was asked as its state. -/
def attentive (catalog : Catalog) : Pipeline (List (String × Nat)) where
  settings := (obliging catalog).settings
  counters := [("letters", fun text => return .answer (Nat.min text.length 50))]
  keeper := ⟨fun _ => return .answer "kept", fun _ => return .answer none⟩
  redactor := ⟨fun _ => return .done .zero cutShort, fun _ => return .ok ""⟩
  summarizer := some fun text most asked => (.answer "done", asked ++ [(text, most)])
  catalog := catalog
  emit _ := return ()
  now := return ⟨0, 0⟩

theorem attentive_attends (catalog : Catalog) : (attentive catalog).Attends id where
  counter c hc text w := by
    obtain rfl := List.mem_singleton.mp hc
    rfl
  store _ _ := rfl
  prune _ _ := rfl
  summarize _ given text most w := by
    obtain rfl := Option.some.inj given
    rfl
  now _ := rfl
  emit _ _ := rfl

/-- The chores do not fit even when they are masked, redacted and compacted, and a summary was asked
for. -/
theorem run_lastResort_chores :
    (attentive narrow).Attends id ∧
      ∃ result w', exec ((attentive narrow).run chores) [] = (.ok result, w') ∧
        result.fits = false ∧ ∃ r, w' = [(attentive narrow).summaryQuestion r] := by
  have hattends := attentive_attends narrow
  have hmodel : (attentive narrow).resolve chores = .ok ⟨"small", "letters", 4⟩ := rfl
  obtain ⟨result, w', hran, hexceeded, habove, htail, hsecond⟩ := ran_of_any
    (P := fun result => result.fits = false ∧
      result.budget.exceeds (attentive narrow).settings.compaction.config.trigger = true ∧
      1 < Compaction.tailStart result.messages 1 ∧
      result.messages[1]?.map (·.isSystem) = some false)
    (by decide +kernel : ((exec ((attentive narrow).run chores) []).1.toOption.any _) = true)
  obtain ⟨m, hm, hspoken⟩ := Option.map_eq_some_iff.mp hsecond
  obtain ⟨-, hasks⟩ := run_lastResort (attentive narrow) hmodel hran hexceeded
  refine ⟨hattends, result, w', hran, hexceeded, ?_⟩
  rcases hasks 1 m rfl rfl htail hm hspoken with ⟨r, -, -, hasked⟩ | ⟨hbelow, -⟩
  · exact ⟨r, hasked id hattends⟩
  · rw [habove] at hbelow
    cases hbelow

/-- A conversation that is below the limit, but not by the margin for an answer. -/
def tight : RunRequest := { greeting with
  messages := [.of .user "hello", .of .user "x"], limit := some 10, reserved := some 5 }

/-- A run may end with its budget exceeded, and messages left to sum up, without a call to the
summarizer. -/
theorem not_asks_tight :
    ¬ ∀ (σ : Type) (p : Pipeline σ) (asked : σ → List (String × Nat)) (request : RunRequest)
      (model : Model) (w w' : σ) (result : RunResult) (i : Nat) (m : Message), p.Attends asked →
      p.resolve request = .ok model → exec (p.run request) w = (.ok result, w') →
      result.fits = false → p.settings.compaction.enabled = true → p.summarizer.isSome = true →
      i < Compaction.tailStart result.messages p.settings.compaction.config.preserve →
      result.messages[i]? = some m → m.isSystem = false → asked w' ≠ asked w := by
  intro hlaw
  have hmodel : (attentive narrow).resolve tight = .ok ⟨"small", "letters", 10⟩ := rfl
  obtain ⟨result, w', hran, hexceeded, htail, hfirst⟩ := ran_of_any
    (P := fun result => result.fits = false ∧ 0 < Compaction.tailStart result.messages 1 ∧
      result.messages[0]?.map (·.isSystem) = some false)
    (by decide +kernel : ((exec ((attentive narrow).run tight) []).1.toOption.any _) = true)
  obtain ⟨m, hm, hspoken⟩ := Option.map_eq_some_iff.mp hfirst
  refine hlaw _ _ id _ _ _ _ result 0 m (attentive_attends narrow) hmodel hran hexceeded rfl rfl
    htail hm hspoken ?_
  have hlog : (exec ((attentive narrow).run tight) []).2 = [] := by decide +kernel
  rw [hran] at hlog
  exact hlog

end Pipeline
end ContextBudget

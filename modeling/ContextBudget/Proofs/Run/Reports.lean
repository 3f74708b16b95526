import ContextBudget.Proofs.Run.Failures

/-!
# What the sink hears of a run

A stage is told of when it ends. One that fails is told of only if it counts the conversation: of a
masking, a redaction or a compaction that fails, the sink hears nothing.

- `started`: the stages that a run starts, whatever comes of them.
- `Reported`: what is heard of stages that were started, by how the run stops.
- `step_reported`, `drive_reports`: what is heard of one phase that fails, and of the loop over the
  phases.
- `run_reports`: each stage that a run starts is heard of once and in order, but for the last one of
  a run that fails outside a count of the conversation.
- `not_reports_placeholderless`: a run may fail without a word of the stage that it fails in.
-/

namespace ContextBudget

open BudgetM

/-- The stage whose work a phase does, if it does any. -/
def Phase.stage? : Phase → Option Stage
  | account => some .account
  | sanitize => some .sanitize
  | redact => some .redact
  | compact => some .compact
  | start => none
  | done => none

/-- The stages of which events tell; moves to a larger model and verdicts are none. -/
def Event.works (events : List Event) : List Stage :=
  (events.map (·.stage)).filter fun s => s != .fallback && s != .done

theorem Event.works_append (events events' : List Event) :
    works (events ++ events') = works events ++ works events' := by
  simp only [works, List.map_append, List.filter_append]

/-! ## What is started -/

namespace Pipeline

variable {σ α : Type} {p : Pipeline σ} {seen : σ → List Event} {r r' : Run} {phase : Phase}
  {signal : Signal} {e : BudgetError} {w w' : σ}

/-- The phases that the loop over the phases starts, the one in which it may fail being the last. -/
def phasesFrom (p : Pipeline σ) : Nat → Phase → Run → σ → List Phase
  | 0, _, _, _ => []
  | fuel + 1, phase, r, w =>
    if phase = .done then []
    else phase :: match exec (p.step phase r) w with
      | (.ok (signal, r'), w') => p.phasesFrom fuel (phase.next signal) r' w'
      | (.error _, _) => []

/-- The stages that a run starts. -/
def started (p : Pipeline σ) (request : RunRequest) (w : σ) : List Stage :=
  match p.resolve request with
  | .error _ => []
  | .ok model => (p.phasesFrom maxPhases .start
      (.begin request model (request.reserved.getD p.settings.reserved)) w).filterMap Phase.stage?

/-- A phase that ends has told of the stage whose work it did. -/
theorem Stepped.works {stages : List Stage} (h : Stepped p phase r signal r' stages) :
    (stages.filter fun s => s != .fallback && s != .done) = phase.stage?.toList := by
  cases h <;> rfl

/-! ## What is heard -/

/-- What is heard of stages that were started, by how the run stops: of each of them, once and in
order, or of all but the last one. -/
inductive Reported : List Stage → List Event → Except BudgetError α → Prop where
  | ended {stages : List Stage} {told : List Event} {a : α} (heard : Event.works told = stages) :
    Reported stages told (.ok a)
  | miscounted {stages : List Stage} {told : List Event} {event : Event} {e : BudgetError}
    (heard : Event.works told = stages) (counting : event.stage = .account)
    (failed : event.outcome = .degraded) (warned : event.warnings = [e.warning])
    (code : e.code = "tokenizer_unavailable") :
    Reported (stages ++ [.account]) (told ++ [event]) (.error e)
  | unheard {stages : List Stage} {told : List Event} {last : Stage} {e : BudgetError}
    (heard : Event.works told = stages) (other : last ≠ .account)
    (code : e.code = "tokenizer_unavailable") : Reported (stages ++ [last]) told (.error e)

/-- What was heard before comes first. -/
theorem Reported.after {stages : List Stage} {told : List Event} {out : Except BudgetError α}
    (h : Reported stages told out) (es : List Event) :
    Reported (Event.works es ++ stages) (es ++ told) out := by
  cases h with
  | ended heard => exact .ended (by rw [Event.works_append, heard])
  | miscounted heard counting failed warned code =>
    rw [← List.append_assoc, ← List.append_assoc]
    exact .miscounted (by rw [Event.works_append, heard]) counting failed warned code
  | unheard heard other code =>
    rw [← List.append_assoc]
    exact .unheard (by rw [Event.works_append, heard]) other code

/-- All is heard of what ends. -/
theorem Reported.of_ok {stages : List Stage} {told : List Event} {a : α}
    (h : Reported stages told (.ok a)) : Event.works told = stages := by
  cases h with
  | ended heard => exact heard

/-- Of what fails, all is heard but for the last stage, unless that is a count. -/
theorem Reported.of_error {stages : List Stage} {told : List Event}
    (h : Reported stages told (.error e : Except BudgetError α)) :
    e.code = "tokenizer_unavailable" ∧ ∃ before last, stages = before ++ [last] ∧
      (last ≠ .account → Event.works told = before) ∧
      (last = .account → Event.works told = before ++ [last] ∧
        ∃ event, told.getLast? = some event ∧ event.stage = .account ∧
          event.outcome = .degraded ∧ event.warnings = [e.warning]) := by
  cases h with
  | @miscounted before earlier event _ heard counting failed warned code =>
    refine ⟨code, before, .account, rfl, fun hother => absurd rfl hother, fun _ => ⟨?_, event,
      List.getLast?_concat, counting, failed, warned⟩⟩
    rw [Event.works_append, heard]
    simp [Event.works, counting]
  | @unheard before _ last _ heard other code =>
    exact ⟨code, before, last, rfl, fun _ => heard, fun hcount => absurd hcount other⟩

/-- A count that fails says so by its code. -/
theorem code_of_counts {t : Tokenizers σ} {family : String} {texts : List String}
    (h : exec (t.counts family texts) w = (.error e, w')) : e.code = "tokenizer_unavailable" := by
  cases Tokenizers.counts_failed h with
  | unregistered => rfl
  | @stopped _ stop => cases stop <;> rfl

/-- A phase that fails is heard of if it counts the conversation, and no other one is. -/
theorem step_reported (hears : p.Hears seen)
    (h : exec (p.step phase r) w = (.error e, w')) :
    ∃ told, seen w' = seen w ++ told ∧
      Reported phase.stage?.toList told (.error e : Except BudgetError α) := by
  -- The work of a stage emits nothing, so where it fails nothing was heard.
  have hsilent : ∀ {stage : Stage}, stage ≠ .account → phase.stage? = some stage →
      seen w' = seen w → e.code = "tokenizer_unavailable" →
      ∃ told, seen w' = seen w ++ told ∧
        Reported phase.stage?.toList told (.error e : Except BudgetError α) := by
    intro stage hother hstage hsame hcode
    refine ⟨[], by rw [hsame, List.append_nil], ?_⟩
    rw [hstage]
    exact .unheard (rfl : Event.works [] = []) hother hcode
  cases phase with
  | start => exact (pure_failed h).elim
  | account =>
    obtain ⟨w₁, hcount, event, hstage, houtcome, hwarnings, hemitted⟩ := account_failed h
    have hsame := (Tokenizers.counts_keeps hears.counter _ _).ran hcount
    refine ⟨[event], by rw [hemitted.heard hears, hsame], ?_⟩
    exact .miscounted (rfl : Event.works [] = []) hstage houtcome hwarnings (code_of_counts hcount)
  | sanitize =>
    have hmask := sanitize_failed h
    have hsame := (Masking.mask_keeps hears.counter hears.store hears.now _ _ _).ran hmask
    rw [Masking.mask_eq] at hmask
    obtain ⟨_, _, _, _, _, _, _, -, -, hcount⟩ := Masking.maskEach_failed List.prefix_rfl hmask
    exact hsilent (by decide) rfl hsame (code_of_counts hcount)
  | redact =>
    have hredact := redact_failed h
    have hsame := (redactEach_keeps hears.counter hears.prune _ _ _ _).ran hredact
    obtain ⟨_, _, _, _, _, -, -, -, hcount⟩ := redactEach_failed List.prefix_rfl hredact
    exact hsilent (by decide) rfl hsame (code_of_counts hcount)
  | compact =>
    obtain ⟨summarize, given, -, hcompact⟩ := compact_failed h
    have hsame := (Compaction.compact_keeps hears.counter (hears.summarize summarize given)
      _ _ _ _).ran hcompact
    obtain ⟨_, _, _, _, _, _, -, -, -, hcount⟩ := Compaction.compact_failed hcompact
    exact hsilent (by decide) rfl hsame (code_of_counts hcount)
  | done => exact (pure_failed h).elim

/-- What is heard of the loop over the phases from one of them on. -/
theorem drive_reports (hears : p.Hears seen) {fuel : Nat} {out : Except BudgetError Run}
    (h : exec (p.drive fuel phase r) w = (out, w')) :
    ∃ told, seen w' = seen w ++ told ∧
      Reported ((p.phasesFrom fuel phase r w).filterMap Phase.stage?) told out ∧
      ∀ r', out = .ok r' → r'.events = r.events ++ told := by
  induction fuel generalizing phase r w with
  | zero =>
    cases h
    exact ⟨[], (List.append_nil _).symm, .ended rfl, fun r' h => by cases h; simp⟩
  | succ fuel ih =>
    rw [drive] at h
    rw [phasesFrom]
    split at h
    · rename_i hdone
      cases h
      rw [if_pos hdone]
      exact ⟨[], (List.append_nil _).symm, .ended rfl, fun r' h => by cases h; simp⟩
    · rename_i more
      rw [if_neg more, ← List.singleton_append, List.filterMap_append]
      have hfirst : [phase].filterMap Phase.stage? = phase.stage?.toList := by
        cases phase <;> rfl
      rw [hfirst]
      rw [exec_bind] at h
      split at h
      · rename_i next w₁ hstep
        obtain ⟨signal, r₁⟩ := next
        obtain ⟨stages, hstepped, es, hstages, hevents, hseen⟩ := step_cases hstep
        obtain ⟨told, hheard, hreported, hlater⟩ := ih h
        have hworks : Event.works es = phase.stage?.toList := by
          rw [Event.works, hstages, hstepped.works]
        refine ⟨es ++ told, ?_, ?_, fun r' hr' => ?_⟩
        · rw [hheard, hseen seen hears, List.append_assoc]
        · rw [hstep, ← hworks]
          exact hreported.after es
        · rw [hlater r' hr', hevents, List.append_assoc]
      · rename_i e w₁ hstep
        cases h
        obtain ⟨told, hheard, hreported⟩ := step_reported (α := Run) hears hstep
        refine ⟨told, hheard, ?_, fun r' hr' => by cases hr'⟩
        rw [hstep]
        simpa using hreported

/-- Without a model, a run does nothing. -/
theorem run_unresolved {request : RunRequest} {out : Except BudgetError RunResult}
    (hmodel : p.resolve request = .error e) (h : exec (p.run request) w = (out, w')) :
    e = .modelUnknown request.model ∧ out = .error e ∧ w' = w := by
  constructor
  · unfold resolve at hmodel
    split at hmodel <;> cases hmodel
    rfl
  · simp only [run, hmodel] at h
    cases h
    exact ⟨rfl, rfl⟩

/-- After the loop over the phases, only the verdict is heard of, and only if there is one. -/
theorem conclude_reported (hears : p.Hears seen) {driven : Except BudgetError Run}
    {stages : List Stage} {told : List Event} (hreported : Reported stages told driven)
    (hevents : ∀ r, driven = .ok r → r.events = told) {out : Except BudgetError RunResult}
    (h : p.conclude (driven, w) = (out, w')) :
    ∃ verdict, seen w' = seen w ++ verdict ∧ Reported stages (told ++ verdict) out ∧
      ∀ result, out = .ok result → result.events = told ++ verdict := by
  cases hreported with
  | @ended _ _ r heard =>
    rcases hfinish : (p.finish r).run w with ⟨r', w₁⟩
    simp only [conclude, hfinish] at h
    cases h
    obtain ⟨e, ⟨hdone, -⟩, rfl, hemitted⟩ := record_ran hfinish
    refine ⟨[e], hemitted.heard hears, .ended ?_, fun result hresult => ?_⟩
    · rw [Event.works_append, heard]
      simp [Event.works, hdone]
    · cases hresult
      exact congrArg (· ++ [e]) (hevents r rfl)
  | miscounted heard counting failed warned code =>
    cases h
    refine ⟨[], (List.append_nil _).symm, ?_, nofun⟩
    rw [List.append_nil]
    exact .miscounted heard counting failed warned code
  | unheard heard other code =>
    cases h
    refine ⟨[], (List.append_nil _).symm, ?_, nofun⟩
    rw [List.append_nil]
    exact .unheard heard other code

/-- The sink hears of each stage that a run starts, once and in order. Only if the run fails, and
the last of these stages is not a count of the conversation, it does not hear of that one. A count
of the conversation that fails is told of as a failure, with the warning that it becomes. -/
theorem run_reports (p : Pipeline σ) (request : RunRequest) (hears : p.Hears seen)
    {out : Except BudgetError RunResult} (h : exec (p.run request) w = (out, w')) :
    ∃ told, seen w' = seen w ++ told ∧
      (∀ result, out = .ok result →
        told = result.events ∧ Event.works told = p.started request w) ∧
      ∀ e, out = .error e →
        (e = .modelUnknown request.model ∧ p.started request w = [] ∧ told = []) ∨
        (e.code = "tokenizer_unavailable" ∧ ∃ before last,
          p.started request w = before ++ [last] ∧
          (last ≠ .account → Event.works told = before) ∧
          (last = .account → Event.works told = before ++ [last] ∧
            ∃ event, told.getLast? = some event ∧ event.stage = .account ∧
              event.outcome = .degraded ∧ event.warnings = [e.warning])) := by
  cases hmodel : p.resolve request with
  | error e =>
    obtain ⟨rfl, rfl, rfl⟩ := run_unresolved hmodel h
    refine ⟨[], (List.append_nil _).symm, nofun, fun e he => .inl ?_⟩
    cases he
    exact ⟨rfl, by rw [started, hmodel], rfl⟩
  | ok model =>
    rcases hdriven : exec (p.drive maxPhases .start (.begin request model
      (request.reserved.getD p.settings.reserved))) w with ⟨driven, w₁⟩
    rw [exec_run hmodel, hdriven] at h
    obtain ⟨told, hheard, hreported, hevents⟩ := drive_reports hears hdriven
    have hstarted : p.started request w = (p.phasesFrom maxPhases .start (.begin request model
        (request.reserved.getD p.settings.reserved)) w).filterMap Phase.stage? := by
      rw [started, hmodel]
    rw [← hstarted] at hreported
    obtain ⟨verdict, hverdict, hreported, hresult⟩ := conclude_reported hears hreported hevents h
    refine ⟨told ++ verdict, by rw [hverdict, hheard, List.append_assoc], fun result hout => ?_,
      fun e hout => .inr ?_⟩
    · rw [hout] at hreported
      exact ⟨(hresult result hout).symm, hreported.of_ok⟩
    · rw [hout] at hreported
      exact hreported.of_error

/-- The greeting, for a family that no counter is for. -/
def uncounted : RunRequest := { greeting with family := some "words" }

/-- A greeting that cannot be counted is told of as a count that failed. -/
theorem run_reports_uncounted :
    (lettersOnly twoModels).Hears id ∧
      ∃ e told, exec ((lettersOnly twoModels).run uncounted) [] = (.error e, told) ∧
        Event.works told = [.account] ∧
        ∃ event, told.getLast? = some event ∧ event.outcome = .degraded ∧
          event.warnings = [e.warning] := by
  have hears := lettersOnly_hears twoModels
  have hfails : (exec ((lettersOnly twoModels).run uncounted) []).1.toOption.isSome = false := by
    decide +kernel
  have hstarted : (lettersOnly twoModels).started uncounted [] = [.account] := by decide +kernel
  refine ⟨hears, ?_⟩
  rcases hrun : exec ((lettersOnly twoModels).run uncounted) [] with ⟨e | result, w'⟩
  · obtain ⟨told, hheard, -, herror⟩ := run_reports _ _ hears hrun
    obtain rfl : w' = told := hheard
    obtain ⟨-, hnone, -⟩ | ⟨-, before, last, hlast, -, hcount⟩ := herror e rfl
    · rw [hstarted] at hnone
      cases hnone
    · rw [hstarted] at hlast
      obtain ⟨rfl, rfl⟩ : before = [] ∧ last = .account := by
        cases before <;> simp_all
      obtain ⟨hworks, event, hevent, -, houtcome, hwarnings⟩ := hcount rfl
      exact ⟨e, w', rfl, hworks, event, hevent, houtcome, hwarnings⟩
  · rw [hrun] at hfails
    cases hfails

/-- A pipeline that keeps the handles of small messages, too, but cannot count a placeholder. -/
def placeholderless : Pipeline (List Event) := { lettersOnly twoModels with
  settings := { Settings.standard with
    masking := { MaskingConfig.standard with threshold := 2 } }
  counters := [("letters", fun text =>
    if Text.opensWith text Handle.opening then return .failure (.unavailable "")
    else return .answer text.length)]
  keeper := ⟨fun _ => return .answer "kept", fun _ => return .answer none⟩ }

theorem placeholderless_hears : placeholderless.Hears id where
  counter c hc text w := by
    obtain rfl := List.mem_singleton.mp hc
    simp only
    split <;> rfl
  store _ _ := rfl
  prune _ _ := rfl
  summarize _ h := nomatch h
  now _ := rfl
  emit _ _ := rfl

/-- An output of a tool, with nothing reserved for the answer. -/
def output : RunRequest := { greeting with messages := [.toolResult "c" "hello"] }

/-- A run may fail without a word of the stage that it fails in. -/
theorem not_reports_placeholderless :
    ¬ ∀ (σ : Type) (p : Pipeline σ) (request : RunRequest) (seen : σ → List Event) (w w' : σ)
      (out : Except BudgetError RunResult), p.Hears seen → exec (p.run request) w = (out, w') →
      ∃ told, seen w' = seen w ++ told ∧ Event.works told = p.started request w := by
  intro hlaw
  have hstarted : placeholderless.started output [] = [.account, .sanitize] := by decide +kernel
  have hheard : Event.works (exec (placeholderless.run output) []).2 = [.account] := by
    decide +kernel
  rcases hrun : exec (placeholderless.run output) [] with ⟨out, w'⟩
  obtain ⟨told, hall, hworks⟩ := hlaw _ _ output id [] w' out placeholderless_hears hrun
  obtain rfl : w' = told := hall
  rw [hrun] at hheard
  rw [hheard, hstarted] at hworks
  cases hworks

end Pipeline
end ContextBudget

import ContextBudget.Proofs.Run.Sink

/-!
# The phases of a run

What each phase does to the course of a run, and what it tells the sink.

- `Reaches`, `Stops`: the loop over the phases without a bound on how often it goes round.
- `step_cases`: all that a phase can be for the course of a run (`Stepped`), and what it tells.
- `drive_stops`: the loop ends before its bound, whatever the services do.
- `Reaches.drives`: from where the loop comes to, it goes on to where it ends.
- `run_ran`, `run_finishes`, `run_reaches`: what a run that goes through was made from.
-/

namespace ContextBudget

open BudgetM

/-! ## The loop over the phases -/

namespace Pipeline

variable {σ : Type} {p : Pipeline σ} {start r r' : Run} {phase : Phase} {signal : Signal}
  {w w' w₁ : σ}

/-- From a start, the loop over the phases comes to a phase, with a run and a state of the services
there. -/
inductive Reaches (p : Pipeline σ) (start : Run) (w : σ) : Phase → Run → σ → Prop where
  | start : Reaches p start w .start start w
  | step {phase : Phase} {r : Run} {w₁ : σ} {signal : Signal} {r' : Run} {w₂ : σ}
    (before : Reaches p start w phase r w₁) (more : phase ≠ .done)
    (ran : exec (p.step phase r) w₁ = (.ok (signal, r'), w₂)) :
    Reaches p start w (phase.next signal) r' w₂

/-- How the loop over the phases stops: at its last phase, or with the failure of another one. -/
inductive Stops (p : Pipeline σ) (start : Run) (w : σ) : Except BudgetError Run × σ → Prop where
  | ended {r : Run} {w₁ : σ} (last : Reaches p start w .done r w₁) : Stops p start w (.ok r, w₁)
  | failed {phase : Phase} {r : Run} {w₁ : σ} {e : BudgetError} {w₂ : σ}
    (before : Reaches p start w phase r w₁) (more : phase ≠ .done)
    (ran : exec (p.step phase r) w₁ = (.error e, w₂)) : Stops p start w (.error e, w₂)

end Pipeline

/-! ## The course of a run -/

/-- Two runs go to the same model with the same budget, and have moved to larger models as often. -/
structure Run.SameCourse (r r' : Run) : Prop where
  session : r'.session = r.session
  model : r'.model = r.model
  limit : r'.budget.limit = r.budget.limit
  reserved : r'.budget.reserved = r.budget.reserved
  restarts : r'.restarts = r.restarts
  fallbackFrom : r'.fallbackFrom = r.fallbackFrom
  deferred : r'.deferred = r.deferred

namespace Run.SameCourse

variable {r r' r'' : Run}

theorem refl (r : Run) : r.SameCourse r := ⟨rfl, rfl, rfl, rfl, rfl, rfl, rfl⟩

theorem trans (h : r.SameCourse r') (h' : r'.SameCourse r'') : r.SameCourse r'' :=
  ⟨h'.session.trans h.session, h'.model.trans h.model, h'.limit.trans h.limit,
    h'.reserved.trans h.reserved, h'.restarts.trans h.restarts,
    h'.fallbackFrom.trans h.fallbackFrom, h'.deferred.trans h.deferred⟩

end Run.SameCourse

namespace Pipeline

variable {σ : Type} {p : Pipeline σ} {r r' r'' : Run} {phase : Phase} {signal : Signal}
  {w w' w'' : σ}

/-- From one run to another, events of some stages have been added, and the sink heard of them. -/
def Told (p : Pipeline σ) (stages : List Stage) (r : Run) (w : σ) (r' : Run) (w' : σ) : Prop :=
  ∃ es : List Event, es.map (·.stage) = stages ∧ r'.events = r.events ++ es ∧
    ∀ seen, p.Hears seen → seen w' = seen w ++ es

theorem Told.quiet (hevents : r'.events = r.events)
    (hkeeps : ∀ seen, p.Hears seen → seen w' = seen w) : Told p [] r w r' w' :=
  ⟨[], rfl, by rw [hevents, List.append_nil], fun seen hears => by
    rw [hkeeps seen hears, List.append_nil]⟩

theorem Told.trans {stages stages' : List Stage} (h : Told p stages r w r' w')
    (h' : Told p stages' r' w' r'' w'') : Told p (stages ++ stages') r w r'' w'' := by
  obtain ⟨es, rfl, hevents, hseen⟩ := h
  obtain ⟨es', rfl, hevents', hseen'⟩ := h'
  refine ⟨es ++ es', List.map_append, ?_, fun seen hears => ?_⟩
  · rw [hevents', hevents, List.append_assoc]
  · rw [hseen' seen hears, hseen seen hears, List.append_assoc]

theorem Told.record {stage : Stage} {before : Nat} {outcome : Outcome} {detail : Json}
    {warnings : List Warning}
    (h : (p.record r stage before outcome detail warnings).run w = (r', w')) :
    Told p [stage] r w r' w' := by
  obtain ⟨e, ⟨hstage, -⟩, rfl, hemitted⟩ := record_ran h
  exact ⟨[e], by rw [List.map_singleton, hstage], rfl, fun seen hears => hemitted.heard hears⟩

/-- The event of a stage whose work was silent. -/
theorem Told.stage {r₁ : Run} {w₁ : σ} {stage : Stage} {before : Nat} {outcome : Outcome}
    {detail : Json} {warnings : List Warning}
    (h : (p.record r₁ stage before outcome detail warnings).run w₁ = (r', w'))
    (hevents : r₁.events = r.events) (hkeeps : ∀ seen, p.Hears seen → seen w₁ = seen w) :
    Told p [stage] r w r' w' := (quiet hevents hkeeps).trans (.record h)

theorem record_course {stage : Stage} {before : Nat} {outcome : Outcome} {detail : Json}
    {warnings : List Warning}
    (h : (p.record r stage before outcome detail warnings).run w = (r', w')) :
    r.SameCourse r' := by
  obtain ⟨e, -, rfl, -⟩ := record_ran h
  exact ⟨rfl, rfl, rfl, rfl, rfl, rfl, rfl⟩

/-- Redacting is silent and keeps to the course. -/
theorem redactEach_ran {goal : String} {limit : Span} {done done' : Redacted}
    {indices : List Nat}
    (h : exec (p.redactEach goal limit done indices) w = (.ok done', w')) :
    done.run.SameCourse done'.run ∧ done'.run.events = done.run.events := by
  induction indices generalizing done w with
  | nil =>
    obtain ⟨rfl, -⟩ := pure_ran h
    exact ⟨.refl _, rfl⟩
  | cons index rest ih =>
    rw [redactEach] at h
    split at h
    · obtain ⟨rfl, -⟩ := pure_ran h
      exact ⟨.refl _, rfl⟩
    · obtain ⟨next, w₁, hone, h₁⟩ := bind_ran h
      have hnext : done.run.SameCourse next.run ∧ next.run.events = done.run.events := by
        cases redactOne_cases hone <;> exact ⟨⟨rfl, rfl, rfl, rfl, rfl, rfl, rfl⟩, rfl⟩
      obtain ⟨hcourse, hevents⟩ := ih h₁
      exact ⟨hnext.1.trans hcourse, hevents.trans hnext.2⟩

/-- A run moves to the larger model that its catalog names for it. -/
structure Moves (p : Pipeline σ) (r r' : Run) : Prop where
  wanted : ∃ m, p.catalog.move? r.model.name r'.budget.required = some m ∧
    p.catalog.find? m.target = some r'.model
  limit : r'.budget.limit = r'.model.limit

theorem Moves.of_sameCourse (h : Moves p r' r'') (hcourse : r.SameCourse r') : Moves p r r'' :=
  ⟨hcourse.model ▸ h.wanted, h.limit⟩

/-- What a phase is for the course of a run, and the stages that it tells of. -/
inductive Stepped (p : Pipeline σ) : Phase → Run → Signal → Run → List Stage → Prop where
  | started (r : Run) : Stepped p .start r .overBudget r []
  | counted (r r' : Run) (e : Event) (course : r.SameCourse r')
    (untouched : r'.messages = r.messages) (told : r'.events = r.events ++ [e])
    (verdict : e.outcome = if r'.signal = .fits then .fits else .overBudget) :
    Stepped p .account r r'.signal r' [.account]
  | masked (r r' : Run) (course : r.SameCourse r') : Stepped p .sanitize r r'.signal r' [.sanitize]
  | putOff (r r₁ : Run) (course : r.SameCourse r₁) (exceeded : r₁.signal = .overBudget)
    (later : p.settings.preferFallback = false) :
    Stepped p .sanitize r .overBudget { r₁ with deferred := true } [.sanitize]
  | movedEarly (r r' : Run) (first : r.restarts < maxRestarts)
    (early : p.settings.preferFallback = true) (restarted : r'.restarts = r.restarts + 1)
    (settled : r'.deferred = false) (moves : Moves p r r') :
    Stepped p .sanitize r .fallbackRequested r' [.sanitize, .fallback]
  | redacted (r r' : Run) (course : r.SameCourse r') : Stepped p .redact r r'.signal r' [.redact]
  | movedLate (r r' : Run) (first : r.restarts < maxRestarts) (due : r.deferred = true)
    (restarted : r'.restarts = r.restarts + 1) (settled : r'.deferred = false)
    (moves : Moves p r r') : Stepped p .redact r .fallbackRequested r' [.redact, .fallback]
  | compacted (r r' : Run) (course : r.SameCourse r') :
    Stepped p .compact r r'.signal r' [.compact]
  | ended (r : Run) : Stepped p .done r .fits r []

/-- What a move to a larger model is for the course of a run. -/
theorem fallBack_told {m : Fallback}
    (hmove : p.catalog.move? r.model.name r.budget.required = some m)
    (h : (p.fallBack r m).run w = (r', w')) :
    r'.restarts = r.restarts + 1 ∧ r'.deferred = false ∧ Moves p r r' ∧
      Told p [.fallback] r w r' w' := by
  obtain ⟨target, htarget, hrecord⟩ := fallBack_ran hmove h
  have hcourse := record_course hrecord
  obtain ⟨es, hstages, hevents, hseen⟩ := Told.record hrecord
  refine ⟨hcourse.restarts, hcourse.deferred, ?_, es, hstages, hevents, hseen⟩
  obtain ⟨e, -, rfl, -⟩ := record_ran hrecord
  exact ⟨⟨m, hmove, htarget⟩, rfl⟩

theorem account_stepped (h : exec (p.account r) w = (.ok (signal, r'), w')) :
    ∃ stages, Stepped p .account r signal r' stages ∧ Told p stages r w r' w' := by
  obtain ⟨tally, w₁, detail, hcount, rfl, hrecord⟩ := account_ran h
  refine ⟨[.account], ?_, .stage hrecord rfl fun seen hears =>
    (Tokenizers.count_keeps hears.counter _ _).ran hcount⟩
  obtain ⟨e, ⟨-, -, houtcome, -⟩, hr', -⟩ := record_ran hrecord
  have hsignal : (r.withTally tally).signal = r'.signal := by
    subst hr'
    rfl
  rw [hsignal] at houtcome ⊢
  refine .counted r r' e ?_ ?_ ?_ houtcome
  all_goals subst hr'
  · exact ⟨rfl, rfl, rfl, rfl, rfl, rfl, rfl⟩
  · rfl
  · rfl

theorem sanitize_stepped (h : exec (p.sanitize r) w = (.ok (signal, r'), w')) :
    ∃ stages, Stepped p .sanitize r signal r' stages ∧ Told p stages r w r' w' := by
  rw [sanitize_eq] at h
  obtain ⟨⟨move, r₁⟩, w₁, hmask, h₁⟩ := bind_ran h
  obtain ⟨masked, w₀, detail, hmasked, hmove, hrecord⟩ := maskStage_ran hmask
  have htold : Told p [.sanitize] r w r₁ w₁ := .stage hrecord rfl fun seen hears =>
    (Masking.mask_keeps hears.counter hears.store hears.now _ _ _).ran hmasked
  have hcourse : r.SameCourse r₁ := by
    obtain ⟨e, -, rfl, -⟩ := record_ran hrecord
    exact ⟨rfl, rfl, rfl, rfl, rfl, rfl, rfl⟩
  cases afterMasking_cases (lift_ran h₁) with
  | goesOn => exact ⟨_, .masked r r' hcourse, htold⟩
  | putOff m wanted exceeded later =>
    exact ⟨_, .putOff r r₁ hcourse exceeded later, htold⟩
  | moved m _ _ wanted exceeded early fell =>
    obtain ⟨hfirst, hwanted⟩ := hmove m wanted
    have hwanted : p.catalog.move? r₁.model.name r₁.budget.required = some m := by
      obtain ⟨e, -, rfl, -⟩ := record_ran hrecord
      exact hwanted
    obtain ⟨hrestarts, hsettled, hmoves, hfell⟩ := fallBack_told hwanted fell
    rw [hcourse.restarts] at hrestarts
    exact ⟨_, .movedEarly r r' hfirst early hrestarts hsettled (hmoves.of_sameCourse hcourse),
      htold.trans hfell⟩

theorem redact_stepped (h : exec (p.redact r) w = (.ok (signal, r'), w')) :
    ∃ stages, Stepped p .redact r signal r' stages ∧ Told p stages r w r' w' := by
  rw [redact_eq] at h
  obtain ⟨r₁, w₁, hredact, h₁⟩ := bind_ran h
  obtain ⟨done, w₀, r₀, heach, hrecord, hr₁⟩ := redactStage_ran hredact
  obtain ⟨hdone, hevents⟩ := redactEach_ran heach
  have hwork : Told p [.redact] r w r₀ w₁ := .stage hrecord hevents fun seen hears =>
    (redactEach_keeps hears.counter hears.prune _ _ _ _).ran heach
  have htold : Told p [.redact] r w r₁ w₁ := by
    subst hr₁
    exact hwork
  have hcourse : r.SameCourse r₁ := by
    subst hr₁
    exact (hdone.trans (record_course hrecord)).trans ⟨rfl, rfl, rfl, rfl, rfl, rfl, rfl⟩
  cases afterRedaction_cases (lift_ran h₁) with
  | goesOn => exact ⟨_, .redacted r r' hcourse, htold⟩
  | moved m _ _ exceeded due first wanted fell =>
    obtain ⟨hrestarts, hsettled, hmoves, hfell⟩ := fallBack_told wanted fell
    rw [hcourse.restarts] at first hrestarts
    rw [hcourse.deferred] at due
    exact ⟨_, .movedLate r r' first due hrestarts hsettled (hmoves.of_sameCourse hcourse),
      htold.trans hfell⟩

theorem compact_stepped (h : exec (p.compact r) w = (.ok (signal, r'), w')) :
    ∃ stages, Stepped p .compact r signal r' stages ∧ Told p stages r w r' w' := by
  obtain ⟨rfl, hcompact⟩ := compact_ran h
  rcases hcompact with ⟨detail, hrecord⟩ | ⟨summarize, c, w₁, detail, hsummarize, -, hcompacted,
    hrecord⟩
  · exact ⟨_, .compacted r r' (record_course hrecord), .record hrecord⟩
  · refine ⟨_, .compacted r r' ?_, .stage hrecord rfl fun seen hears =>
      (Compaction.compact_keeps hears.counter (hears.summarize summarize hsummarize)
        _ _ _ _).ran hcompacted⟩
    obtain ⟨e, -, rfl, -⟩ := record_ran hrecord
    exact ⟨rfl, rfl, rfl, rfl, rfl, rfl, rfl⟩

theorem step_cases (h : exec (p.step phase r) w = (.ok (signal, r'), w')) :
    ∃ stages, Stepped p phase r signal r' stages ∧ Told p stages r w r' w' := by
  cases phase with
  | start =>
    obtain ⟨heq, rfl⟩ := pure_ran h
    cases heq
    exact ⟨[], .started r, .quiet rfl fun _ _ => rfl⟩
  | account => exact account_stepped h
  | sanitize => exact sanitize_stepped h
  | redact => exact redact_stepped h
  | compact => exact compact_stepped h
  | done =>
    obtain ⟨heq, rfl⟩ := pure_ran h
    cases heq
    exact ⟨[], .ended r, .quiet rfl fun _ _ => rfl⟩

/-! ## Termination -/

/-- How many phases may still follow. -/
def rank (phase : Phase) (restarts : Nat) : Nat :=
  let again := if restarts = 0 then 3 else 0
  match phase with
  | .start => 5 + again
  | .account => 4 + again
  | .sanitize => 3 + again
  | .redact => 2 + again
  | .compact => 1
  | .done => 0

theorem rank_pos {restarts : Nat} (more : phase ≠ .done) : 0 < rank phase restarts := by
  cases phase with
  | done => exact absurd rfl more
  | compact => exact Nat.one_pos
  | _ => exact Nat.add_pos_left (by decide) _

theorem signal_cases (r : Run) :
    (r.signal = .fits ∧ r.budget.fits = true) ∨
      (r.signal = .overBudget ∧ r.budget.fits = false) := by
  unfold Run.signal
  cases r.budget.fits with
  | true => exact .inl ⟨rfl, rfl⟩
  | false => exact .inr ⟨rfl, rfl⟩

/-- A phase leaves fewer phases to follow. -/
theorem Stepped.rank_lt {stages : List Stage} (h : Stepped p phase r signal r' stages)
    (more : phase ≠ .done) : rank (phase.next signal) r'.restarts < rank phase r.restarts := by
  cases h with
  | started => simp [rank, Phase.next]
  | counted _ _ e course =>
    rw [course.restarts]
    rcases signal_cases r' with ⟨hs, -⟩ | ⟨hs, -⟩ <;> simp only [hs, rank, Phase.next] <;> omega
  | masked _ _ course =>
    rw [course.restarts]
    rcases signal_cases r' with ⟨hs, -⟩ | ⟨hs, -⟩ <;> simp only [hs, rank, Phase.next] <;> omega
  | putOff _ r₁ course =>
    simp [rank, Phase.next, course.restarts]
  | movedEarly _ _ first _ restarted =>
    obtain hfirst : r.restarts = 0 := Nat.lt_one_iff.mp first
    simp [rank, Phase.next, restarted, hfirst]
  | redacted _ _ course =>
    rw [course.restarts]
    rcases signal_cases r' with ⟨hs, -⟩ | ⟨hs, -⟩ <;> simp only [hs, rank, Phase.next] <;> omega
  | movedLate _ _ first _ restarted =>
    obtain hfirst : r.restarts = 0 := Nat.lt_one_iff.mp first
    simp [rank, Phase.next, restarted, hfirst]
  | compacted => simp [rank, Phase.next]
  | ended => exact absurd rfl more

/-- With a bound that the rank of a phase allows for, the loop from there on stops. -/
theorem drive_stops_from {start : Run} {w₀ : σ} {fuel : Nat}
    (hreach : Reaches p start w₀ phase r w) (hfuel : rank phase r.restarts ≤ fuel) :
    Stops p start w₀ (exec (p.drive fuel phase r) w) := by
  induction fuel generalizing phase r w with
  | zero =>
    cases phase with
    | done => exact .ended hreach
    | _ => simp [rank] at hfuel
  | succ fuel ih =>
    rw [drive]
    split
    · subst phase
      exact .ended hreach
    · rename_i more
      rw [exec_bind]
      cases hstep : exec (p.step phase r) w with
      | mk out w₁ =>
        cases out with
        | error e => exact .failed hreach more hstep
        | ok next =>
          obtain ⟨signal, r'⟩ := next
          obtain ⟨stages, hstepped, -⟩ := step_cases hstep
          have hless := hstepped.rank_lt more
          exact ih (.step hreach more hstep) (by omega)

/-- The loop over the phases stops within its bound, whatever the services do. -/
theorem drive_stops (p : Pipeline σ) (request : RunRequest) (model : Model) (reserved : Nat)
    (w : σ) : Stops p (.begin request model reserved) w
      (exec (p.drive maxPhases .start (.begin request model reserved)) w) :=
  drive_stops_from .start (show rank .start 0 ≤ maxPhases by decide)

/-- From where the loop over the phases comes to, it goes on to where it ends. -/
theorem Reaches.drives {start : Run} {w₁ : σ} (hrestarts : start.restarts = 0)
    (hreach : Reaches p start w phase r w₁) :
    ∃ fuel, rank phase r.restarts ≤ fuel ∧
      exec (p.drive maxPhases .start start) w = exec (p.drive fuel phase r) w₁ := by
  induction hreach with
  | start => exact ⟨maxPhases, by rw [hrestarts]; decide, rfl⟩
  | @step phase r w₁ signal r' w₂ before more ran ih =>
    obtain ⟨fuel, hfuel, hdrive⟩ := ih
    obtain ⟨stages, hstepped, -⟩ := step_cases ran
    have hless := hstepped.rank_lt more
    obtain ⟨fuel, rfl⟩ : ∃ n, fuel = n + 1 := ⟨fuel - 1, by omega⟩
    refine ⟨fuel, by omega, hdrive.trans ?_⟩
    rw [drive, if_neg more, exec_bind, ran]

/-! ## A whole run -/

/-- What a run that goes through was made from. -/
theorem run_ran {request : RunRequest} {model : Model} {result : RunResult}
    (hmodel : p.resolve request = .ok model)
    (h : exec (p.run request) w = (.ok result, w')) :
    ∃ r w₁ r', exec (p.drive maxPhases .start
        (.begin request model (request.reserved.getD p.settings.reserved))) w = (.ok r, w₁) ∧
      (p.finish r).run w₁ = (r', w') ∧ result = r'.result := by
  simp only [run, hmodel] at h
  obtain ⟨m, w₀, hm, h₀⟩ := bind_ran h
  obtain ⟨rfl, rfl⟩ := pure_ran hm
  obtain ⟨r, w₁, hdrive, h₁⟩ := bind_ran h₀
  obtain ⟨r', w₂, hfinish, h₂⟩ := bind_ran h₁
  obtain ⟨rfl, rfl⟩ := pure_ran h₂
  exact ⟨r, w₁, r', hdrive, lift_ran hfinish, rfl⟩

/-- The loop of a run that goes through comes to its last phase. -/
theorem Stops.reaches {start : Run} {w₁ : σ} (h : Stops p start w (.ok r, w₁)) :
    Reaches p start w .done r w₁ := by
  cases h with
  | ended last => exact last

/-- A run that goes through comes to its last phase, and gives what it has after its verdict. -/
theorem run_finishes {request : RunRequest} {model : Model} {result : RunResult}
    (hmodel : p.resolve request = .ok model) (h : exec (p.run request) w = (.ok result, w')) :
    ∃ r w₁ r', Reaches p (.begin request model (request.reserved.getD p.settings.reserved)) w
        .done r w₁ ∧
      (p.finish r).run w₁ = (r', w') ∧ result = r'.result := by
  obtain ⟨r, w₁, r', hdrive, hfinish, hresult⟩ := run_ran hmodel h
  have hstops := drive_stops p request model (request.reserved.getD p.settings.reserved) w
  rw [hdrive] at hstops
  exact ⟨r, w₁, r', hstops.reaches, hfinish, hresult⟩

/-- The verdict adds its event to what the run has. -/
theorem run_reaches {request : RunRequest} {model : Model} {result : RunResult}
    (hmodel : p.resolve request = .ok model) (h : exec (p.run request) w = (.ok result, w')) :
    ∃ r w₁ e, Reaches p (.begin request model (request.reserved.getD p.settings.reserved)) w
        .done r w₁ ∧
      e.stage = .done ∧ result = Run.result { r with events := r.events ++ [e] } := by
  obtain ⟨r, w₁, r', hreach, hfinish, rfl⟩ := run_finishes hmodel h
  obtain ⟨e, ⟨hstage, -⟩, rfl, -⟩ := record_ran hfinish
  exact ⟨r, w₁, e, hreach, hstage, rfl⟩

/-- What a run gives whose loop over the phases has stopped. -/
def conclude (p : Pipeline σ) : Except BudgetError Run × σ → Except BudgetError RunResult × σ
  | (.ok r, w) => (.ok ((p.finish r).run w).1.result, ((p.finish r).run w).2)
  | (.error e, w) => (.error e, w)

theorem exec_run {request : RunRequest} {model : Model} (hmodel : p.resolve request = .ok model)
    (w : σ) : exec (p.run request) w = p.conclude (exec (p.drive maxPhases .start
      (.begin request model (request.reserved.getD p.settings.reserved))) w) := by
  simp only [run, hmodel, run.liftExcept, pure_bind]
  rw [exec_bind]
  obtain ⟨_ | r, w₁⟩ := exec (p.drive maxPhases .start
    (.begin request model (request.reserved.getD p.settings.reserved))) w <;> rfl

end Pipeline
end ContextBudget

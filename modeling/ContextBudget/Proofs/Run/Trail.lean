import ContextBudget.Proofs.Run.Phases
import Mathlib.Computability.RegularExpressions

/-!
# The trail of a run

The stages that a run goes through, in the events that it leaves.

- `trail`: the stages of a run, as a regular expression.
- `ahead`: what stages may follow from a phase on; `Stepped.ahead` is its law for one phase.
- `reaches_onTrail`: what holds wherever a run comes to a phase.
- `run_trail`: a run for a known model ends, and leaves a trail if it goes through.
-/

namespace ContextBudget

open BudgetM

namespace Pipeline

variable {σ : Type} {p : Pipeline σ} {r r' : Run} {phase : Phase} {signal : Signal} {w w' : σ}

/-! ## The stages of a run -/

/-- What may follow a redaction, where `late` may follow one that moves to a larger model. -/
def afterRedact (late : List (List Stage)) : List (List Stage) :=
  [.done] :: [.compact, .done] :: late

/-- What may follow a masking, where `early` may follow one that moves to a larger model. -/
def afterSanitize (early late : List (List Stage)) : List (List Stage) :=
  [.done] :: (afterRedact late).map (.redact :: ·) ++ early

/-- What may follow a count. -/
def afterAccount (early late : List (List Stage)) : List (List Stage) :=
  [.done] :: (afterSanitize early late).map (.sanitize :: ·)

/-- A move to a larger model, and a pass without another one. -/
def again : List (List Stage) := (afterAccount [] []).map ([.fallback, .account] ++ ·)

/-- The stages that may follow from a phase on. -/
def ahead (prefer : Bool) (restarts : Nat) (phase : Phase) : List (List Stage) :=
  let early := if restarts = 0 && prefer then again else []
  let late := if restarts = 0 && !prefer then again else []
  match phase with
  | .start => (afterAccount early late).map (.account :: ·)
  | .account => (afterAccount early late).map (.account :: ·)
  | .sanitize => (afterSanitize early late).map (.sanitize :: ·)
  | .redact => (afterRedact late).map (.redact :: ·)
  | .compact => [[.compact, .done]]
  | .done => [[.done]]

/-- What a phase tells, and what may follow the phase after it, may follow the phase. -/
theorem Stepped.ahead {stages rest : List Stage} (h : Stepped p phase r signal r' stages)
    (more : phase ≠ .done)
    (hdeferred : r.deferred = true → p.settings.preferFallback = false)
    (hrest : rest ∈ Pipeline.ahead p.settings.preferFallback r'.restarts (phase.next signal)) :
    stages ++ rest ∈ Pipeline.ahead p.settings.preferFallback r.restarts phase := by
  cases h with
  | started => exact hrest
  | counted _ _ e course =>
    rw [course.restarts] at hrest
    refine List.mem_map_of_mem (f := (Stage.account :: ·)) ?_
    rcases signal_cases r' with ⟨hs, -⟩ | ⟨hs, -⟩ <;> rw [hs] at hrest
    · exact List.mem_singleton.mp hrest ▸ List.mem_cons_self
    · exact List.mem_cons_of_mem _ hrest
  | masked _ _ course =>
    rw [course.restarts] at hrest
    refine List.mem_map_of_mem (f := (Stage.sanitize :: ·)) ?_
    rcases signal_cases r' with ⟨hs, -⟩ | ⟨hs, -⟩ <;> rw [hs] at hrest
    · exact List.mem_singleton.mp hrest ▸ List.mem_cons_self
    · exact List.mem_cons_of_mem _ (List.mem_append_left _ hrest)
  | putOff _ r₁ course =>
    change rest ∈ Pipeline.ahead _ r₁.restarts .redact at hrest
    rw [course.restarts] at hrest
    refine List.mem_map_of_mem (f := (Stage.sanitize :: ·)) ?_
    exact List.mem_cons_of_mem _ (List.mem_append_left _ hrest)
  | movedEarly _ _ first early restarted =>
    obtain hfirst : r.restarts = 0 := Nat.lt_one_iff.mp first
    rw [restarted, hfirst, early] at hrest
    rw [hfirst, early]
    refine List.mem_map_of_mem (f := (Stage.sanitize :: ·)) ?_
    refine List.mem_cons_of_mem _ (List.mem_append_right _ ?_)
    obtain ⟨tail, htail, rfl⟩ := List.mem_map.mp hrest
    exact List.mem_map_of_mem (f := ([Stage.fallback, .account] ++ ·)) htail
  | redacted _ _ course =>
    rw [course.restarts] at hrest
    refine List.mem_map_of_mem (f := (Stage.redact :: ·)) ?_
    rcases signal_cases r' with ⟨hs, -⟩ | ⟨hs, -⟩ <;> rw [hs] at hrest
    · exact List.mem_singleton.mp hrest ▸ List.mem_cons_self
    · exact List.mem_singleton.mp hrest ▸ List.mem_cons_of_mem _ List.mem_cons_self
  | movedLate _ _ first due restarted =>
    obtain hfirst : r.restarts = 0 := Nat.lt_one_iff.mp first
    rw [restarted, hfirst, hdeferred due] at hrest
    rw [hfirst, hdeferred due]
    refine List.mem_map_of_mem (f := (Stage.redact :: ·)) ?_
    refine List.mem_cons_of_mem _ (List.mem_cons_of_mem _ ?_)
    obtain ⟨tail, htail, rfl⟩ := List.mem_map.mp hrest
    exact List.mem_map_of_mem (f := ([Stage.fallback, .account] ++ ·)) htail
  | compacted => exact List.mem_singleton.mp hrest ▸ List.mem_cons_self
  | ended => exact absurd rfl more

open RegularExpression in
/-- The stages of a run's second pass, which does not move to a larger model. -/
def secondPass : RegularExpression Stage :=
  char Stage.account * (char Stage.done + char Stage.sanitize * (char Stage.done +
    char Stage.redact * (char Stage.done + char Stage.compact * char Stage.done)))

open RegularExpression in
/-- The stages of a run. -/
def trail : RegularExpression Stage :=
  char Stage.account * (char Stage.done + char Stage.sanitize * (char Stage.done +
    char Stage.fallback * secondPass + char Stage.redact * (char Stage.done +
      char Stage.fallback * secondPass + char Stage.compact * char Stage.done)))

/-- A move to a larger model comes right after masking if it is preferred to redaction, and right
after redaction otherwise. -/
structure WellTrailed (prefer : Bool) (stages : List Stage) : Prop where
  word : stages ∈ trail.matches'
  fallbacks : stages.count .fallback ≤ 1
  passes : ∀ pass ∈ stages.splitOn .fallback, pass.Nodup
  early : [.sanitize, .fallback] <:+: stages → prefer = true
  late : [.redact, .fallback] <:+: stages → prefer = false

theorem wellTrailed_of_mem {prefer : Bool} {stages : List Stage}
    (h : stages ∈ ahead prefer 0 .start) : WellTrailed prefer stages := by
  have hall : ∀ prefer, ∀ stages ∈ ahead prefer 0 .start, trail.rmatch stages = true ∧
      stages.count .fallback ≤ 1 ∧ (∀ pass ∈ stages.splitOn .fallback, pass.Nodup) ∧
      ([.sanitize, .fallback] <:+: stages → prefer = true) ∧
      ([.redact, .fallback] <:+: stages → prefer = false) := by decide +kernel
  obtain ⟨hword, hfallbacks, hpasses, hearly, hlate⟩ := hall prefer stages h
  exact ⟨(RegularExpression.rmatch_iff_matches' _ _).mp hword, hfallbacks, hpasses, hearly, hlate⟩

/-- A move is put off only where redaction is preferred to it. -/
theorem Stepped.deferred {stages : List Stage} (h : Stepped p phase r signal r' stages)
    (hdeferred : r.deferred = true → p.settings.preferFallback = false) :
    r'.deferred = true → p.settings.preferFallback = false := by
  cases h with
  | started => exact hdeferred
  | counted _ _ e course => exact course.deferred ▸ hdeferred
  | masked _ _ course => exact course.deferred ▸ hdeferred
  | putOff _ _ course exceeded later => exact fun _ => later
  | movedEarly _ _ first early restarted settled => exact fun h => by simp [settled] at h
  | redacted _ _ course => exact course.deferred ▸ hdeferred
  | movedLate _ _ first due restarted settled => exact fun h => by simp [settled] at h
  | compacted _ _ course => exact course.deferred ▸ hdeferred
  | ended => exact hdeferred

/-- A phase that reports on a budget that is kept is followed by none that reduces. -/
theorem exceeded_of_next (hphase : phase ≠ .start) (h : phase.next r.signal = .sanitize ∨
    phase.next r.signal = .redact ∨ phase.next r.signal = .compact) : r.budget.fits = false := by
  rcases signal_cases r with ⟨hs, -⟩ | ⟨-, hfits⟩
  · rw [hs] at h
    cases phase with
    | start => exact absurd rfl hphase
    | _ => simp [Phase.next] at h
  · exact hfits

/-- Masking, redaction and compaction come after a phase that left the budget exceeded. -/
theorem Stepped.exceeded {stages : List Stage} (h : Stepped p phase r signal r' stages)
    (hnext : phase.next signal = .sanitize ∨ phase.next signal = .redact ∨
      phase.next signal = .compact) : r'.budget.fits = false := by
  cases h with
  | counted => exact exceeded_of_next (by decide) hnext
  | masked => exact exceeded_of_next (by decide) hnext
  | putOff _ r₁ _ exceeded => exact exceeded_of_next (r := r₁) (by decide) (exceeded ▸ hnext)
  | redacted => exact exceeded_of_next (by decide) hnext
  | compacted => exact exceeded_of_next (by decide) hnext
  | _ => simp [Phase.next] at hnext

/-- If the first count leaves the budget kept, the run is over, and the conversation as it was. -/
theorem Stepped.first {stages : List Stage} {messages : Conversation}
    (h : Stepped p phase r signal r' stages) (more : phase ≠ .done) {es : List Event}
    (htold : r'.events = r.events ++ es)
    (hfirst : (r.events = [] ∧ r.messages = messages ∧ (phase = .start ∨ phase = .account)) ∨
      ∃ e rest, r.events = e :: rest ∧
        (e.outcome = .fits → phase = .done ∧ r.messages = messages)) :
    (r'.events = [] ∧ r'.messages = messages ∧
        (phase.next signal = .start ∨ phase.next signal = .account)) ∨
      ∃ e rest, r'.events = e :: rest ∧
        (e.outcome = .fits → phase.next signal = .done ∧ r'.messages = messages) := by
  rcases hfirst with ⟨hnone, hmessages, hphase⟩ | ⟨e, rest, hevents, hfits⟩
  · rcases hphase with rfl | rfl
    · cases h
      exact .inl ⟨hnone, hmessages, .inr rfl⟩
    · cases h with
      | counted _ _ e course untouched told verdict =>
        refine .inr ⟨e, [], by rw [told, hnone, List.nil_append], fun houtcome => ?_⟩
        rw [houtcome] at verdict
        rcases signal_cases r' with ⟨hs, -⟩ | ⟨hs, -⟩
        · rw [hs]
          exact ⟨rfl, untouched.trans hmessages⟩
        · simp [hs] at verdict
  · refine .inr ⟨e, rest ++ es, by rw [htold, hevents, List.cons_append], fun houtcome => ?_⟩
    exact absurd (hfits houtcome).1 more

/-- What holds where a run comes to a phase. -/
structure OnTrail (p : Pipeline σ) (messages : Conversation) (w : σ) (phase : Phase) (r : Run)
    (w' : σ) : Prop where
  deferred : r.deferred = true → p.settings.preferFallback = false
  exceeded : phase = .sanitize ∨ phase = .redact ∨ phase = .compact → r.budget.fits = false
  word : ∀ rest ∈ ahead p.settings.preferFallback r.restarts phase,
    r.events.map (·.stage) ++ rest ∈ ahead p.settings.preferFallback 0 .start
  first : (r.events = [] ∧ r.messages = messages ∧ (phase = .start ∨ phase = .account)) ∨
    ∃ e rest, r.events = e :: rest ∧ (e.outcome = .fits → phase = .done ∧ r.messages = messages)
  heard : ∀ seen, p.Hears seen → seen w' = seen w ++ r.events

theorem reaches_onTrail {start : Run} (hevents : start.events = []) (hrestarts : start.restarts = 0)
    (hdeferred : start.deferred = false) (hreach : Reaches p start w phase r w') :
    OnTrail p start.messages w phase r w' := by
  induction hreach with
  | start =>
    refine ⟨by simp [hdeferred], by simp, fun rest hrest => ?_, .inl ⟨hevents, rfl, .inl rfl⟩,
      fun seen _ => by rw [hevents, List.append_nil]⟩
    rw [hevents]
    rwa [hrestarts] at hrest
  | @step phase r w₁ signal r' w₂ before more ran ih =>
    obtain ⟨stages, hstepped, es, rfl, htold, hseen⟩ := step_cases ran
    refine ⟨hstepped.deferred ih.deferred, hstepped.exceeded, fun rest hrest => ?_,
      hstepped.first more htold ih.first, fun seen hears => ?_⟩
    · rw [htold, List.map_append, List.append_assoc]
      exact ih.word _ (hstepped.ahead more ih.deferred hrest)
    · rw [hseen seen hears, ih.heard seen hears, htold, List.append_assoc]

/-- A run for a model that is known ends, whatever the services do: its loop over the phases stops,
and gives what the run gives. Where it goes through, its stages are in order, a first count that
fits leaves the conversation as it was, and the sink heard of all events. -/
theorem run_trail (p : Pipeline σ) {request : RunRequest} {model : Model}
    (hmodel : p.resolve request = .ok model) (w : σ) :
    let start := Run.begin request model (request.reserved.getD p.settings.reserved)
    (∃ out, Stops p start w out ∧ exec (p.run request) w = p.conclude out) ∧
      (∀ phase r w₁, Reaches p start w phase r w₁ →
        phase = .sanitize ∨ phase = .redact ∨ phase = .compact → r.budget.fits = false) ∧
      ∀ result w', exec (p.run request) w = (.ok result, w') →
        WellTrailed p.settings.preferFallback (result.events.map (·.stage)) ∧
          (∀ e rest, result.events = e :: rest → e.outcome = .fits →
            result.messages = request.messages) ∧
          ∀ seen, p.Hears seen → seen w' = seen w ++ result.events := by
  intro start
  have hstops := drive_stops p request model (request.reserved.getD p.settings.reserved) w
  refine ⟨⟨_, hstops, exec_run hmodel w⟩, fun phase r w₁ hreach hphase => ?_,
    fun result w' hrun => ?_⟩
  · exact (reaches_onTrail rfl rfl rfl hreach).exceeded hphase
  · obtain ⟨r, w₁, r', hdrive, hfinish, rfl⟩ := run_ran hmodel hrun
    rw [hdrive] at hstops
    have htrail := reaches_onTrail rfl rfl rfl hstops.reaches
    obtain ⟨last, ⟨hstage, -⟩, rfl, hemitted⟩ := record_ran hfinish
    refine ⟨wellTrailed_of_mem ?_, fun e rest hevents houtcome => ?_, fun seen hears => ?_⟩
    · have hword := htrail.word [.done] (List.mem_singleton.mpr rfl)
      rwa [← hstage, ← List.map_singleton, ← List.map_append] at hword
    · rcases htrail.first with ⟨-, -, hphase⟩ | ⟨e', rest', hbegun, hfits⟩
      · rcases hphase with hphase | hphase <;> cases hphase
      · change r.events ++ [last] = e :: rest at hevents
        rw [hbegun, List.cons_append] at hevents
        obtain ⟨rfl, -⟩ := List.cons.inj hevents
        exact (hfits houtcome).2
    · rw [hemitted.heard hears, htrail.heard seen hears, List.append_assoc]
      rfl

theorem run_trail_greeting :
    (lettersOnly twoModels).resolve greeting = .ok ⟨"small", "letters", 4⟩ ∧
      ∃ result w', exec ((lettersOnly twoModels).run greeting) [] = (.ok result, w') ∧
        WellTrailed true (result.events.map (·.stage)) ∧ w' = result.events := by
  have hmodel : (lettersOnly twoModels).resolve greeting = .ok ⟨"small", "letters", 4⟩ := by
    decide +kernel
  obtain ⟨-, -, hrun⟩ := run_trail (lettersOnly twoModels) hmodel []
  have hok : (exec ((lettersOnly twoModels).run greeting) []).1.toOption.isSome = true := by
    decide +kernel
  obtain ⟨result, w', hran⟩ := ran_of_isSome hok
  obtain ⟨htrail, -, hheard⟩ := hrun result w' hran
  exact ⟨hmodel, result, w', hran, htrail, hheard id (lettersOnly_hears twoModels)⟩

/-- The greeting fits the larger model. -/
example : (exec ((lettersOnly twoModels).run greeting) []).1.toOption.map
    (·.events.map (·.stage)) = some [.account, .sanitize, .fallback, .account, .done] := by
  decide +kernel

end Pipeline
end ContextBudget

import ContextBudget.Proofs.Run.LargerModel
import Mathlib.Data.List.Chain

/-!
# An unbroken trail

Each event of a run takes up the tokens that the one before it left, and is for the same model and
limit, unless it tells of a move to a larger model. The verdict takes up the tokens that were
counted first.

- `TakesUp`: how an event takes up where the one before it left off.
- `reaches_opens`: a run that has counted remembers what it counted first.
- `Unbroken`: each event so far takes up where the one before it left off, and the run where the
  last one did; `Unbroken.tell` and `Unbroken.move` are its laws for one more event.
- `run_telescopes`: the trail of a run that goes through.
-/

namespace ContextBudget
namespace Pipeline

open BudgetM

variable {σ : Type} {p : Pipeline σ} {request : RunRequest} {model : Model} {reserved : Nat}
  {r r₁ r' : Run} {phase : Phase} {signal : Signal} {w w' : σ}

/-- An event takes up where the one before it left off. The tokens before it are those after the
other one, unless it is the verdict. It is for the same model and limit, unless it tells of a move:
then it is for the ones given. If no two models of the catalog share a name, a move is to another
model, and to a larger limit if the request has none of its own. -/
structure TakesUp (p : Pipeline σ) (request : RunRequest) (model : String) (limit : Nat)
    (e e' : Event) : Prop where
  tokens : e'.stage ≠ .done → e'.tokensBefore = e.tokensAfter
  stays : e'.stage ≠ .fallback → e'.model = e.model ∧ e'.limit = e.limit
  moves : e'.stage = .fallback → e'.model = model ∧ e'.limit = limit
  changes : e'.stage = .fallback → (p.catalog.models.map (·.name)).Nodup →
    e'.model ≠ e.model ∧ (request.limit = none → e.limit < e'.limit)

/-- The event of a stage shows the run as the stage leaves it. -/
theorem record_shows {stage : Stage} {before : Nat} {outcome : Outcome} {detail : Json}
    {warnings : List Warning}
    (h : (p.record r stage before outcome detail warnings).run w = (r', w')) :
    ∃ e : Event, (e.stage = stage ∧ e.tokensBefore = before) ∧
      (e.tokensAfter = r.tokens ∧ e.model = r.model.name ∧ e.limit = r.budget.limit) ∧
      r' = { r with events := r.events ++ [e] } := by
  cases h
  exact ⟨_, ⟨rfl, rfl⟩, ⟨rfl, rfl, rfl⟩, rfl⟩

/-! ## The first event -/

/-- An event is the first one of a run for a model, and the run remembers what it counted. -/
structure Opens (model : Model) (r : Run) (e : Event) : Prop where
  stage : e.stage = .account
  before : e.tokensBefore = 0
  limit : e.limit = model.limit
  model : e.model = model.name
  initial : r.initial = some e.tokensAfter

theorem redactEach_initial {goal : String} {limit : Span} {done done' : Redacted}
    {places : List Nat} (h : exec (p.redactEach goal limit done places) w = (.ok done', w')) :
    done'.run.initial = done.run.initial := by
  refine redactEach_preserves (P := fun d => d.run.initial = done.run.initial)
    (fun hgiven heq => ?_) rfl h
  cases hgiven <;> exact heq

theorem fallBack_initial {m : Fallback} (h : (p.fallBack r m).run w = (r', w')) :
    r'.initial = r.initial := by
  unfold fallBack at h
  split at h
  · cases h
    rfl
  · obtain ⟨e, -, -, rfl⟩ := record_shows h
    rfl

/-- Only a count changes what a run remembers of its first one. -/
theorem step_initial (h : exec (p.step phase r) w = (.ok (signal, r'), w'))
    (hphase : phase ≠ .account) : r'.initial = r.initial := by
  cases phase with
  | start =>
    obtain ⟨heq, -⟩ := pure_ran h
    cases heq
    rfl
  | account => exact absurd rfl hphase
  | sanitize =>
    obtain ⟨move, r₁, w₁, hmask, hafter⟩ := sanitize_ran h
    have hmasked : r₁.initial = r.initial := by
      obtain ⟨masked, w₀, detail, -, -, hrecord⟩ := maskStage_ran hmask
      obtain ⟨e, -, -, rfl⟩ := record_shows hrecord
      rfl
    cases hafter with
    | goesOn => exact hmasked
    | putOff => exact hmasked
    | moved _ _ _ _ _ _ fell => exact (fallBack_initial fell).trans hmasked
  | redact =>
    obtain ⟨r₁, w₁, hredact, hafter⟩ := redact_ran h
    have hredacted : r₁.initial = r.initial := by
      obtain ⟨done, w₀, r₀, heach, hrecord, rfl⟩ := redactStage_ran hredact
      obtain ⟨e, -, -, rfl⟩ := record_shows hrecord
      exact redactEach_initial heach
    cases hafter with
    | goesOn => exact hredacted
    | moved _ _ _ _ _ _ _ fell => exact (fallBack_initial fell).trans hredacted
  | compact =>
    obtain ⟨-, hcompact⟩ := compact_ran h
    rcases hcompact with ⟨detail, hrecord⟩ | ⟨summarize, c, w₁, detail, -, -, -, hrecord⟩ <;>
      obtain ⟨e, -, -, rfl⟩ := record_shows hrecord <;> rfl
  | done =>
    obtain ⟨heq, -⟩ := pure_ran h
    cases heq
    rfl

/-- Until it counts, a run is as it began. From then on it remembers what it counted first, as its
first event tells. -/
theorem reaches_opens (hreach : Reaches p (.begin request model reserved) w phase r w') :
    (r = .begin request model reserved ∧ (phase = .start ∨ phase = .account)) ∨
      ∃ e rest, r.events = e :: rest ∧ Opens model r e := by
  induction hreach with
  | start => exact .inl ⟨rfl, .inl rfl⟩
  | @step phase r w₁ signal r' w₂ before more ran ih =>
    rcases ih with ⟨rfl, rfl | rfl⟩ | ⟨e, rest, hevents, hopens⟩
    · obtain ⟨heq, -⟩ := pure_ran ran
      cases heq
      exact .inl ⟨rfl, .inr rfl⟩
    · obtain ⟨tally, w₀, detail, -, rfl, hrecord⟩ := account_ran ran
      obtain ⟨e, ⟨hstage, hbefore⟩, ⟨hafter, hmodel, hlimit⟩, rfl⟩ := record_shows hrecord
      exact .inr ⟨e, [], rfl, hstage, hbefore, hlimit, hmodel, congrArg some hafter.symm⟩
    · obtain ⟨stages, -, es, -, htold, -⟩ := step_cases ran
      refine .inr ⟨e, rest ++ es, by rw [htold, hevents, List.cons_append],
        hopens.stage, hopens.before, hopens.limit, hopens.model, ?_⟩
      rw [← hopens.initial]
      by_cases hphase : phase = .account
      · subst hphase
        obtain ⟨tally, w₀, detail, -, rfl, hrecord⟩ := account_ran ran
        obtain ⟨e', -, -, rfl⟩ := record_shows hrecord
        change some (r.initial.getD tally.total) = r.initial
        rw [hopens.initial]
        rfl
      · exact step_initial ran hphase

/-! ## One event after another -/

/-- Each event so far takes up where the one before it left off, and the run where the last one
did. -/
structure Unbroken (p : Pipeline σ) (request : RunRequest) (r : Run) : Prop where
  used : r.budget.used = r.tally.totals
  chained : r.events.IsChain (p.TakesUp request r.model.name r.budget.limit)
  unmoved : r.restarts = 0 → ∀ e ∈ r.events, e.stage ≠ .fallback
  unended : ∀ e ∈ r.events, e.stage ≠ .done
  last : ∀ e ∈ r.events.getLast?,
    e.tokensAfter = r.tokens ∧ e.model = r.model.name ∧ e.limit = r.budget.limit

/-- An event that shows the model and the limit of the run goes on with the trail. -/
theorem Unbroken.snoc {e : Event} (h : Unbroken p request r)
    (htokens : e.stage ≠ .done → e.tokensBefore = r.tokens) (hstage : e.stage ≠ .fallback)
    (hmodel : e.model = r.model.name) (hlimit : e.limit = r.budget.limit) :
    (r.events ++ [e]).IsChain (p.TakesUp request r.model.name r.budget.limit) := by
  refine h.chained.append (.singleton e) fun x hx y hy => ?_
  obtain rfl := Option.some.inj hy
  obtain ⟨hafter, hmodel', hlimit'⟩ := h.last x hx
  exact ⟨fun hdone => (htokens hdone).trans hafter.symm,
    fun _ => ⟨hmodel.trans hmodel'.symm, hlimit.trans hlimit'.symm⟩,
    fun hmove => absurd hmove hstage, fun hmove => absurd hmove hstage⟩

/-- A stage that keeps to the course of the run goes on with its trail. -/
theorem Unbroken.tell {stage : Stage} {outcome : Outcome} {detail : Json}
    {warnings : List Warning} (h : Unbroken p request r)
    (hrecord : (p.record r₁ stage r.tokens outcome detail warnings).run w = (r', w'))
    (hcourse : r.SameCourse r₁) (hevents : r₁.events = r.events)
    (hused : r₁.budget.used = r₁.tally.totals) (hmove : stage ≠ .fallback) (hdone : stage ≠ .done) :
    Unbroken p request r' := by
  obtain ⟨e, ⟨rfl, hbefore⟩, ⟨hafter, hmodel, hlimit⟩, rfl⟩ := record_shows hrecord
  refine ⟨hused, ?_, fun hrestarts => ?_, ?_, fun x hx => ?_⟩
  · have hchain := h.snoc (fun _ => hbefore) hmove (hcourse.model ▸ hmodel) (hcourse.limit ▸ hlimit)
    rwa [← hevents, ← hcourse.model, ← hcourse.limit] at hchain
  · change ∀ x ∈ r₁.events ++ [e], _
    rw [hevents, List.forall_mem_append]
    exact ⟨h.unmoved (hcourse.restarts ▸ hrestarts), by simpa using hmove⟩
  · change ∀ x ∈ r₁.events ++ [e], _
    rw [hevents, List.forall_mem_append]
    exact ⟨h.unended, by simpa using hdone⟩
  · obtain rfl : e = x := by simpa using hx
    exact ⟨hafter, hmodel, hlimit⟩

/-- Without a limit of the request's own, the limit of its model is the one that the catalog
lists. -/
theorem limit_of_resolve {known : Model} (hmodel : p.resolve request = .ok model)
    (hlimit : request.limit = none) (hknown : p.catalog.find? request.model = some known) :
    model.limit = known.limit := by
  rw [resolve, hknown, hlimit] at hmodel
  cases hmodel
  rfl

/-- A move changes the name of the model, and makes the limit larger if it is the catalog's. -/
theorem Moves.changes (h : Moves p r r') (hmodel : p.resolve request = .ok model)
    (hbegun : r.model = model ∧ r.budget.limit = model.limit)
    (hdistinct : (p.catalog.models.map (·.name)).Nodup) :
    r'.model.name ≠ r.model.name ∧ (request.limit = none → r.budget.limit < r'.budget.limit) := by
  obtain ⟨known, hknown, hsuits⟩ := h.suits hdistinct
  constructor
  · intro hname
    have hfound := Catalog.find?_of_mem hdistinct hsuits.listed
    rw [hname, hknown] at hfound
    obtain rfl := Option.some.inj hfound
    exact Nat.lt_irrefl _ hsuits.larger
  · intro hlimit
    rw [hbegun.1, name_of_resolve hmodel] at hknown
    rw [h.limit, hbegun.2, limit_of_resolve hmodel hlimit hknown]
    exact hsuits.larger

/-- The first move goes on with the trail, and the trail so far has no other one. -/
theorem Unbroken.move {m : Fallback} (h : Unbroken p request r)
    (hmodel : p.resolve request = .ok model) (hfirst : r.restarts = 0)
    (hbegun : r.model = model ∧ r.budget.limit = model.limit)
    (hwanted : p.catalog.move? r.model.name r.budget.required = some m)
    (hfell : (p.fallBack r m).run w = (r', w')) : Unbroken p request r' := by
  obtain ⟨-, -, hmoves, -⟩ := fallBack_told hwanted hfell
  have hchanges := hmoves.changes hmodel hbegun
  obtain ⟨target, -, hrecord⟩ := fallBack_ran hwanted hfell
  obtain ⟨e, ⟨hstage, hbefore⟩, ⟨hafter, hname, hlimit⟩, rfl⟩ := record_shows hrecord
  -- The trail so far tells of no move, so it is one for any model to move to.
  have hunmoved := h.unmoved hfirst
  refine ⟨h.used, ?_, (fun hrestarts => nomatch hrestarts), ?_, fun x hx => ?_⟩
  · refine List.IsChain.append (h.chained.imp_of_mem_imp fun x y _ hy htakes => ?_)
      (.singleton e) fun x hx y hy => ?_
    · exact ⟨htakes.tokens, htakes.stays, fun hmove => absurd hmove (hunmoved y hy),
        htakes.changes⟩
    · obtain rfl := Option.some.inj hy
      obtain ⟨hafter', hname', hlimit'⟩ := h.last x hx
      refine ⟨fun _ => hbefore.trans hafter'.symm, fun hstays => absurd hstage hstays,
        fun _ => ⟨hname, hlimit⟩, fun _ hdistinct => ?_⟩
      rw [hname, hname', hlimit, hlimit']
      exact hchanges hdistinct
  · refine List.forall_mem_append.mpr ⟨h.unended, ?_⟩
    simp [hstage]
  · obtain rfl : e = x := by simpa using hx
    exact ⟨hafter, hname, hlimit⟩

theorem redactEach_used {goal : String} {limit : Span} {done done' : Redacted}
    {places : List Nat} (hused : done.run.budget.used = done.run.tally.totals)
    (h : exec (p.redactEach goal limit done places) w = (.ok done', w')) :
    done'.run.budget.used = done'.run.tally.totals := by
  refine redactEach_preserves (P := fun d => d.run.budget.used = d.run.tally.totals)
    (fun hgiven hused => ?_) hused h
  cases hgiven with
  | absent => exact hused
  | late => exact hused
  | same => exact hused
  | replaced => rfl

/-- A phase goes on with the trail. -/
theorem step_unbroken (hmodel : p.resolve request = .ok model)
    (hbegun : r.restarts = 0 → r.model = model ∧ r.budget.limit = model.limit)
    (h : Unbroken p request r) (ran : exec (p.step phase r) w = (.ok (signal, r'), w')) :
    Unbroken p request r' := by
  cases phase with
  | start =>
    obtain ⟨heq, -⟩ := pure_ran ran
    cases heq
    exact h
  | account =>
    obtain ⟨tally, w₁, detail, -, rfl, hrecord⟩ := account_ran ran
    exact h.tell hrecord ⟨rfl, rfl, rfl, rfl, rfl, rfl, rfl⟩ rfl rfl (by decide) (by decide)
  | sanitize =>
    obtain ⟨move, r₁, w₁, hmask, hafter⟩ := sanitize_ran ran
    obtain ⟨masked, w₀, detail, -, hmove, hrecord⟩ := maskStage_ran hmask
    have hmasked : Unbroken p request r₁ :=
      h.tell hrecord ⟨rfl, rfl, rfl, rfl, rfl, rfl, rfl⟩ rfl rfl (by decide) (by decide)
    cases hafter with
    | goesOn => exact hmasked
    | putOff =>
      exact ⟨hmasked.used, hmasked.chained, hmasked.unmoved, hmasked.unended, hmasked.last⟩
    | moved m _ _ wanted _ _ fell =>
      obtain ⟨hfirst, hwanted⟩ := hmove m wanted
      obtain ⟨e, -, -, rfl⟩ := record_shows hrecord
      have hfirst : r.restarts = 0 := Nat.lt_one_iff.mp hfirst
      exact hmasked.move hmodel hfirst (hbegun hfirst) hwanted fell
  | redact =>
    obtain ⟨r₁, w₁, hredact, hafter⟩ := redact_ran ran
    obtain ⟨done, w₀, r₀, heach, hrecord, hr₁⟩ := redactStage_ran hredact
    obtain ⟨hcourse, hevents⟩ := redactEach_ran heach
    have hredacted : Unbroken p request r₁ := by
      have hr₀ := h.tell hrecord hcourse hevents (redactEach_used h.used heach) (by decide)
        (by decide)
      subst hr₁
      exact ⟨hr₀.used, hr₀.chained, hr₀.unmoved, hr₀.unended, hr₀.last⟩
    cases hafter with
    | goesOn => exact hredacted
    | moved m _ _ _ _ first wanted fell =>
      have hcourse₁ : r.SameCourse r₁ := by
        subst hr₁
        exact (hcourse.trans (record_course hrecord)).trans ⟨rfl, rfl, rfl, rfl, rfl, rfl, rfl⟩
      have hfirst : r₁.restarts = 0 := Nat.lt_one_iff.mp first
      have hbegun₁ : r₁.model = model ∧ r₁.budget.limit = model.limit := by
        rw [hcourse₁.model, hcourse₁.limit]
        exact hbegun (hcourse₁.restarts ▸ hfirst)
      exact hredacted.move hmodel hfirst hbegun₁ wanted fell
  | compact =>
    obtain ⟨-, hcompact⟩ := compact_ran ran
    rcases hcompact with ⟨detail, hrecord⟩ | ⟨summarize, c, w₁, detail, -, -, -, hrecord⟩
    · exact h.tell hrecord (.refl r) rfl h.used (by decide) (by decide)
    · exact h.tell hrecord ⟨rfl, rfl, rfl, rfl, rfl, rfl, rfl⟩ rfl rfl (by decide) (by decide)
  | done =>
    obtain ⟨heq, -⟩ := pure_ran ran
    cases heq
    exact h

/-- Wherever a run comes to, its trail is unbroken. -/
theorem reaches_unbroken (hmodel : p.resolve request = .ok model)
    (hreach : Reaches p (.begin request model reserved) w phase r w') : Unbroken p request r := by
  induction hreach with
  | start => exact ⟨rfl, .nil, nofun, nofun, nofun⟩
  | step before _ ran ih =>
    exact step_unbroken hmodel (fun hfirst => reaches_model before hfirst) ih ran

/-! ## Runs -/

/-- The trail of a run that goes through begins with a count, before which there were no tokens, for
the model and the limit that the request resolves to. Each later event takes up where the one before
it left off, and moves go to the model and the limit that the run gives. The verdict is the last
event and the only one: before it were the tokens that were counted first, and after it are those
that the run gives. -/
theorem run_telescopes (p : Pipeline σ) (hmodel : p.resolve request = .ok model)
    {result : RunResult} (hrun : exec (p.run request) w = (.ok result, w')) :
    ∃ first rest last, result.events = first :: rest ++ [last] ∧
      (first.stage = .account ∧ first.tokensBefore = 0 ∧ first.model = model.name ∧
        first.limit = model.limit) ∧
      result.events.IsChain (p.TakesUp request result.model result.limit) ∧
      (∀ e ∈ first :: rest, e.stage ≠ .done) ∧
      (last.stage = .done ∧ last.tokensBefore = first.tokensAfter ∧
        last.tokensAfter = result.budget.usedTokens ∧ last.model = result.model ∧
        last.limit = result.limit) := by
  obtain ⟨r, w₁, r', hreach, hfinish, rfl⟩ := run_finishes hmodel hrun
  have hunbroken := reaches_unbroken hmodel hreach
  obtain ⟨-, hphase⟩ | ⟨first, rest, hevents, hopens⟩ := reaches_opens hreach
  · rcases hphase with hphase | hphase <;> cases hphase
  obtain ⟨last, ⟨hstage, hbefore⟩, ⟨hafter, hname, hlimit⟩, rfl⟩ := record_shows hfinish
  refine ⟨first, rest, last, congrArg (· ++ [last]) hevents,
    ⟨hopens.stage, hopens.before, hopens.model, hopens.limit⟩, ?_, hevents ▸ hunbroken.unended,
    hstage, ?_, ?_, hname, hlimit⟩
  · exact hunbroken.snoc (fun hdone => absurd hstage hdone) (by rw [hstage]; decide) hname hlimit
  · rw [hbefore, hopens.initial]
    rfl
  · rw [hafter]
    exact congrArg Totals.total hunbroken.used.symm

/-- The greeting moves to the larger model. -/
theorem run_telescopes_greeting :
    (lettersOnly twoModels).resolve greeting = .ok ⟨"small", "letters", 4⟩ ∧
      ∃ result w', exec ((lettersOnly twoModels).run greeting) [] = (.ok result, w') ∧
        (∃ e ∈ result.events, e.stage = .fallback) ∧
        result.events.IsChain ((lettersOnly twoModels).TakesUp greeting result.model
          result.limit) := by
  have hmodel : (lettersOnly twoModels).resolve greeting = .ok ⟨"small", "letters", 4⟩ := by
    decide +kernel
  obtain ⟨result, w', hran, hmoves⟩ := ran_of_any
    (m := (lettersOnly twoModels).run greeting) (w := [])
    (P := fun result => ∃ e ∈ result.events, e.stage = .fallback) (by decide +kernel)
  obtain ⟨first, rest, last, -, -, hchain, -⟩ := run_telescopes (lettersOnly twoModels) hmodel hran
  exact ⟨hmodel, result, w', hran, hmoves, hchain⟩

/-- The tokens before and after each stage of the greeting, and the limit in force. -/
example : (exec ((lettersOnly twoModels).run greeting) []).1.toOption.map
    (·.events.map fun e => (e.tokensBefore, e.tokensAfter, e.limit)) =
      some [(0, 5, 4), (5, 5, 4), (5, 5, 100), (5, 5, 100), (5, 5, 100)] := by
  decide +kernel

end Pipeline
end ContextBudget

import ContextBudget.Proofs.Run.Accounting
import ContextBudget.Proofs.Run.Failures
import ContextBudget.Proofs.Run.LargerModel
import ContextBudget.Proofs.Run.Savings

/-!
# Moves to a model with enough room

A run that moves to a larger model counts its conversation again and judges it anew. What it needed
room for before the move is what it counts after it, as long as both models are of one family; so a
model that has that room ends the run.

- `Moves.family`: a move goes to a model of the family that the catalog lists for the name.
- `exists_moved`: a move comes after a stage, and changes nothing of the run but its model.
- `reaches_moved`: each event of a move is the last one of a phase that moves.
- `exists_moved_exact`: after a move, the tokens in use are those that the new model counts.
- `Reaches.ended`, `Reaches.failed`: where the loop over the phases ends, so does the run.
- `moved_settles`, `run_moved`: a move with enough room settles the run, and each event of a move
  tells of one.
- `run_settles`: after a move to a model with enough room, a run counts once and is over.
-/

namespace ContextBudget

open BudgetM

namespace Tokenizers

/-- Each counter answers at once. -/
def Answers {σ : Type} (t : Tokenizers σ) : Prop :=
  ∀ family counter, t.get? family = some counter →
    ∀ text w, ∃ n w', (counter text).run w = (Call.answer n, w')

end Tokenizers

namespace Pipeline

variable {σ : Type} {p : Pipeline σ} {count : String → String → Nat} {start r r' : Run}
  {phase : Phase} {signal : Signal} {w w' w₁ w₂ : σ}

/-! ## Moves -/

/-- A move goes to a model of the family that the catalog lists for the name of the model to leave,
if a name stands for one family. -/
theorem Moves.family (h : Moves p r r') (hcatalog : p.catalog.OneFamily) :
    ∃ known, p.catalog.find? r.model.name = some known ∧ r'.model.family = known.family := by
  obtain ⟨m, hmove, htarget⟩ := h.wanted
  obtain ⟨chosen, hchosen, rfl⟩ := Option.map_eq_some_iff.mp hmove
  obtain ⟨known, hknown, hsuits⟩ := Catalog.fallback?_suits hchosen
  refine ⟨known, hknown, ?_⟩
  rw [← hsuits.related]
  exact hcatalog _ (List.mem_of_find?_eq_some htarget) _ hsuits.listed
    (Catalog.name_of_find? htarget)

/-- Without a family of its own, a request means a model of the family that the catalog lists. -/
theorem family_of_resolve {request : RunRequest} {model : Model} (hfamily : request.family = none)
    (h : p.resolve request = .ok model) :
    ∃ known, p.catalog.find? request.model = some known ∧ model.family = known.family := by
  unfold resolve at h
  rw [hfamily] at h
  cases hknown : p.catalog.find? request.model with
  | none =>
    rw [hknown] at h
    cases h
  | some known =>
    rw [hknown] at h
    cases h
    exact ⟨known, rfl, rfl⟩

/-- A move is told of by an event with the new limit, and changes nothing of the run but its
model. -/
structure Moved (r r' : Run) (e : Event) : Prop where
  stage : e.stage = .fallback
  tokens : e.tokensAfter = r'.tokens
  limit : e.limit = r'.budget.limit
  margin : e.reserved = r'.budget.reserved
  events : r'.events = r.events ++ [e]
  messages : r'.messages = r.messages
  tally : r'.tally = r.tally
  used : r'.budget.used = r.budget.used
  reserved : r'.budget.reserved = r.budget.reserved

theorem fallBack_moved {m : Fallback} {name : String} {required : Nat}
    (hmove : p.catalog.move? name required = some m) (h : (p.fallBack r m).run w = (r', w')) :
    ∃ e, Moved r r' e := by
  obtain ⟨target, -, hrecord⟩ := fallBack_ran hmove h
  cases hrecord
  exact ⟨_, rfl, rfl, rfl, rfl, rfl, rfl, rfl, rfl, rfl⟩

/-- Only a masking or a redaction moves to a larger model. -/
theorem Stepped.moving {stages : List Stage} (h : Stepped p phase r signal r' stages)
    (hsignal : signal = .fallbackRequested) : phase = .sanitize ∨ phase = .redact := by
  cases h with
  | counted | compacted => exact absurd hsignal (signal_ne_fallbackRequested r')
  | masked | putOff | movedEarly => exact .inl rfl
  | redacted | movedLate => exact .inr rfl
  | started | ended => cases hsignal

/-- A phase that moves to a larger model does so when its stage has ended, and leads back to a
count. -/
theorem exists_moved (hreach : Reaches p start w phase r w₁)
    (hstep : exec (p.step phase r) w₁ = (.ok (.fallbackRequested, r'), w₂)) :
    Reaches p start w .account r' w₂ ∧
      ∃ stage r₁ e, EndsStage p start w stage r₁ ∧ r₁.model = r.model ∧ Moved r₁ r' e := by
  obtain ⟨stages, hstepped, -⟩ := step_cases hstep
  rcases hstepped.moving rfl with rfl | rfl
  · refine ⟨hreach.step (by decide) hstep, ?_⟩
    change exec (p.sanitize r) w₁ = _ at hstep
    rw [sanitize_eq] at hstep
    obtain ⟨⟨move, r₁⟩, w₀, hmask, hafter⟩ := bind_ran hstep
    obtain ⟨e, rs, hreworks⟩ := maskStage_reworks hmask
    have hafter := afterMasking_cases (lift_ran hafter)
    generalize hsignal : Signal.fallbackRequested = signal at hafter
    cases hafter with
    | goesOn => exact absurd hsignal.symm (signal_ne_fallbackRequested r')
    | putOff => cases hsignal
    | moved m _ _ wanted _ _ fell =>
      obtain ⟨masked, w₃, detail, -, hwanted, -⟩ := maskStage_ran hmask
      obtain ⟨-, hmove⟩ := hwanted m wanted
      obtain ⟨e', hmoved⟩ := fallBack_moved hmove fell
      exact ⟨_, r₁, e', .sanitize hreach hmask, hreworks.model, hmoved⟩
  · refine ⟨hreach.step (by decide) hstep, ?_⟩
    change exec (p.redact r) w₁ = _ at hstep
    rw [redact_eq] at hstep
    obtain ⟨r₁, w₀, hredact, hafter⟩ := bind_ran hstep
    obtain ⟨e, rs, hreworks⟩ := redactStage_reworks hredact
    have hafter := afterRedaction_cases (lift_ran hafter)
    generalize hsignal : Signal.fallbackRequested = signal at hafter
    cases hafter with
    | goesOn => exact absurd hsignal.symm (signal_ne_fallbackRequested r')
    | moved m _ _ _ _ _ wanted fell =>
      obtain ⟨e', hmoved⟩ := fallBack_moved wanted fell
      exact ⟨_, r₁, e', .redact hreach hredact, hreworks.model, hmoved⟩

/-- For a request without a family of its own, a move keeps the family. -/
theorem family_of_move (hcatalog : p.catalog.OneFamily) {request : RunRequest} {model : Model}
    (hmodel : p.resolve request = .ok model) (hown : request.family = none) {reserved : Nat}
    (hreach : Reaches p (.begin request model reserved) w phase r w₁)
    (hstep : exec (p.step phase r) w₁ = (.ok (.fallbackRequested, r'), w₂)) :
    r'.model.family = r.model.family := by
  obtain ⟨stages, hstepped, -⟩ := step_cases hstep
  rcases hstepped.keeps_or_moves with ⟨hsignal, -⟩ | ⟨-, hfirst, -, hmoves⟩
  · exact absurd rfl hsignal
  · obtain ⟨hbegun, -⟩ := reaches_model hreach hfirst
    have hbegun : r.model = model := hbegun
    obtain ⟨known, hknown, hfamily⟩ := hmoves.family hcatalog
    obtain ⟨listed, hlisted, hmeant⟩ := family_of_resolve hown hmodel
    rw [hbegun, name_of_resolve hmodel] at hknown
    obtain rfl := Option.some.inj (hknown.symm.trans hlisted)
    rw [hfamily, hbegun, hmeant]

/-- A phase that tells of a move has moved, and tells of that last. -/
theorem Stepped.told_fallback {stages before after : List Stage}
    (h : Stepped p phase r signal r' stages) (hstages : stages = before ++ .fallback :: after) :
    signal = .fallbackRequested ∧ after = [] := by
  cases h with
  | movedEarly | movedLate =>
    refine ⟨rfl, ?_⟩
    rcases List.append_eq_cons_iff.mp hstages.symm with ⟨-, heq⟩ | ⟨rest, -, heq⟩
    · cases heq
    · rcases List.append_eq_cons_iff.mp heq.symm with ⟨-, heq⟩ | ⟨rest, -, heq⟩
      · exact (List.cons.inj heq).2
      · simp at heq
  | _ => simp [List.append_eq_cons_iff, eq_comm] at hstages

/-- Each event of a move is the last one of a phase that moves. -/
theorem reaches_moved {before after : List Event} {e : Event} (hstart : start.events = [])
    (hreach : Reaches p start w phase r w₁) (hevents : r.events = before ++ e :: after)
    (hstage : e.stage = .fallback) :
    ∃ phase₀ r₀ w₀ r₁ w₁, Reaches p start w phase₀ r₀ w₀ ∧
      exec (p.step phase₀ r₀) w₀ = (.ok (.fallbackRequested, r₁), w₁) ∧
      r₁.events = before ++ [e] := by
  induction hreach generalizing before after with
  | start => simp [hstart] at hevents
  | @step phase r w₁ signal r' w₂ reached more ran ih =>
    obtain ⟨stages, hstepped, es, rfl, htold, -⟩ := step_cases ran
    have hown : ∀ rest, es = rest ++ e :: after → signal = .fallbackRequested ∧ after = [] := by
      rintro rest rfl
      have hstages : (rest ++ e :: after).map (·.stage) =
          rest.map (·.stage) ++ .fallback :: after.map (·.stage) := by
        rw [List.map_append, List.map_cons, hstage]
      obtain ⟨hsignal, hlast⟩ := hstepped.told_fallback hstages
      exact ⟨hsignal, List.map_eq_nil_iff.mp hlast⟩
    rcases List.append_eq_append_iff.mp (htold.symm.trans hevents) with
      ⟨rest, -, hes⟩ | ⟨rest, hr, hes⟩
    · obtain ⟨rfl, rfl⟩ := hown rest hes
      exact ⟨phase, r, w₁, r', w₂, reached, ran, hevents⟩
    · cases rest with
      | nil =>
        obtain ⟨rfl, rfl⟩ := hown [] hes.symm
        exact ⟨phase, r, w₁, r', w₂, reached, ran, hevents⟩
      | cons e' rest =>
        obtain ⟨rfl, -⟩ := List.cons.inj hes
        exact ih hr

/-! ## Where a run ends -/

/-- Where the loop over the phases comes to its last phase, it ends. -/
theorem Reaches.ended (hrestarts : start.restarts = 0) (hreach : Reaches p start w .done r w₁) :
    exec (p.drive maxPhases .start start) w = (.ok r, w₁) := by
  obtain ⟨fuel, -, hdrive⟩ := hreach.drives hrestarts
  rw [hdrive]
  cases fuel with
  | zero => rfl
  | succ fuel =>
    rw [drive, if_pos rfl]
    rfl

/-- Where a phase fails, the loop over the phases does. -/
theorem Reaches.failed {e : BudgetError} (hrestarts : start.restarts = 0)
    (hreach : Reaches p start w phase r w₁) (more : phase ≠ .done)
    (hstep : exec (p.step phase r) w₁ = (.error e, w₂)) :
    exec (p.drive maxPhases .start start) w = (.error e, w₂) := by
  obtain ⟨fuel, hfuel, hdrive⟩ := hreach.drives hrestarts
  have hpos : 0 < rank phase r.restarts := rank_pos more
  obtain ⟨fuel, rfl⟩ : ∃ n, fuel = n + 1 := ⟨fuel - 1, by omega⟩
  rw [hdrive, drive, if_neg more, exec_bind, hstep]

/-- Between two counts, a run is for a family that has a counter. -/
theorem reaches_counted (hreach : Reaches p start w phase r w₁) (hstarted : phase ≠ .start)
    (hcounted : phase ≠ .account) : ∃ counter, p.tokenizers.get? r.model.family = some counter := by
  induction hreach with
  | start => exact absurd rfl hstarted
  | @step phase r w₁ signal r' w₂ before more ran ih =>
    obtain ⟨stages, hstepped, -⟩ := step_cases ran
    rcases hstepped.keeps_or_moves with ⟨-, hkept, -⟩ | ⟨rfl, -⟩
    · rw [hkept]
      cases phase with
      | start => exact absurd rfl hcounted
      | account =>
        obtain ⟨tally, w₃, detail, hcount, -⟩ := account_ran ran
        obtain ⟨ns, w₄, hns, -⟩ := bind_ran hcount
        unfold Tokenizers.counts at hns
        split at hns
        · cases hns
        · exact ⟨_, ‹_›⟩
      | done => exact absurd rfl more
      | _ => exact ih (by decide) (by decide)
    · rcases hstepped.moving rfl with rfl | rfl <;> exact absurd rfl hcounted

/-- A run is over after one more count, which finds that the conversation fits and leaves it as it
is. -/
def Settles (r : Run) (result : RunResult) : Prop :=
  ∃ counted verdict : Event, result.events = r.events ++ [counted, verdict] ∧
    counted.stage = .account ∧ counted.outcome = .fits ∧
    verdict.stage = .done ∧ verdict.outcome = .fits ∧
    result.messages = r.messages ∧ result.fits = true

/-- A count that finds enough room ends a run. -/
theorem Reaches.settles {request : RunRequest} {model : Model}
    (hmodel : p.resolve request = .ok model)
    (hreach : Reaches p (.begin request model (request.reserved.getD p.settings.reserved)) w
      .account r w₁)
    (hcount : exec (p.account r) w₁ = (.ok (signal, r'), w₂)) (hfits : r'.budget.fits = true) :
    ∃ result w', exec (p.run request) w = (.ok result, w') ∧ Settles r result := by
  obtain ⟨stages, hstepped, es, rfl, hevents, -⟩ := account_stepped hcount
  generalize hstages : es.map (·.stage) = stages at hstepped
  cases hstepped with
  | counted _ _ e course untouched told verdict =>
    obtain rfl : es = [e] := List.append_cancel_left (hevents.symm.trans told)
    have hsignal : r'.signal = .fits := if_pos hfits
    have hdone : Reaches p _ w .done r' w₂ := hsignal ▸ hreach.step (by decide) hcount
    have hrun := exec_run hmodel w
    rw [hdone.ended rfl] at hrun
    cases hfinish : (p.finish r').run w₂ with
    | mk r₁ w₃ =>
    rw [conclude, hfinish] at hrun
    obtain ⟨last, ⟨hlast, -, houtcome, -⟩, rfl, -⟩ := record_ran hfinish
    rw [if_pos hsignal] at verdict
    rw [if_pos hfits] at houtcome
    refine ⟨_, w₃, hrun, e, last, ?_, List.singleton_inj.mp hstages, verdict, hlast, houtcome,
      untouched, hfits⟩
    change r'.events ++ [last] = _
    rw [told, List.append_assoc]
    rfl

/-- After a move, the tokens in use are those that the new model counts. -/
theorem exists_moved_exact (hcounters : p.tokenizers.CountsBy count)
    (hcatalog : p.catalog.OneFamily) {request : RunRequest} {model : Model}
    (hmodel : p.resolve request = .ok model) (hown : request.family = none) {reserved : Nat}
    (hsmall : ∀ family messages, Held p (.begin request model reserved) w family messages →
      weight count family messages < Word.size)
    (hreach : Reaches p (.begin request model reserved) w phase r w₁)
    (hstep : exec (p.step phase r) w₁ = (.ok (.fallbackRequested, r'), w₂)) :
    ∃ r₁ e, Moved r₁ r' e ∧ e.tokensAfter = r'.budget.usedTokens ∧
      r'.budget.usedTokens = weight count r'.model.family r'.messages := by
  obtain ⟨hnext, stage, r₁, e, hends, hmodel₁, hmoved⟩ := exists_moved hreach hstep
  have hexact := endsStage_exact hcounters hsmall hends
  have hfamily : r₁.model.family = r'.model.family := by
    rw [hmodel₁, family_of_move hcatalog hmodel hown hreach hstep]
  have hused : r'.budget.usedTokens = r₁.tally.total := by
    rw [Budget.usedTokens, hmoved.used, hexact.budget, Tally.total]
  have hheld := hsmall _ _ (.entered hnext)
  refine ⟨r₁, e, hmoved, ?_, ?_⟩
  · rw [hmoved.tokens, Run.tokens, hmoved.tally, hused]
  · rw [hmoved.messages, ← hfamily] at hheld ⊢
    rw [hused, hexact.tally.total hheld]

/-- A count of what was in use already finds the room that there was. -/
theorem fits_of_room (hcounters : p.tokenizers.CountsBy count)
    (hsmall : weight count r.model.family r.messages < Word.size)
    (hused : r.budget.usedTokens = weight count r.model.family r.messages)
    (hroom : r.budget.usedTokens + r.budget.reserved ≤ r.budget.limit)
    (hcount : exec (p.account r) w = (.ok (signal, r'), w')) : r'.budget.fits = true := by
  obtain ⟨stages, hstepped, -⟩ := account_stepped hcount
  cases hstepped with
  | counted _ _ e course untouched =>
    have hexact := account_exact hcounters hsmall hcount
    rw [hexact.fits_iff, course.model, untouched, course.limit, course.reserved, ← hused]
    · omega
    · rwa [course.model, untouched]

/-- After a move, a counter that always answers does not fail. -/
theorem exists_account (hanswers : p.tokenizers.Answers) (hcatalog : p.catalog.OneFamily)
    {request : RunRequest} {model : Model} (hmodel : p.resolve request = .ok model)
    (hown : request.family = none) {reserved : Nat}
    (hreach : Reaches p (.begin request model reserved) w phase r w₁)
    (hstep : exec (p.step phase r) w₁ = (.ok (.fallbackRequested, r'), w₂)) :
    ∃ next w₃, exec (p.account r') w₂ = (.ok next, w₃) := by
  obtain ⟨counter, hcounter⟩ : ∃ c, p.tokenizers.get? r'.model.family = some c := by
    obtain ⟨stages, hstepped, -⟩ := step_cases hstep
    rw [family_of_move hcatalog hmodel hown hreach hstep]
    rcases hstepped.moving rfl with rfl | rfl <;>
      exact reaches_counted hreach (by decide) (by decide)
  cases hcount : exec (p.account r') w₂ with
  | mk out w₃ =>
    cases out with
    | ok next => exact ⟨next, w₃, rfl⟩
    | error e =>
      obtain ⟨w₄, hfailed, -⟩ := account_failed hcount
      obtain ⟨ns, w₅, hok⟩ :=
        Tokenizers.exists_counts_of_answers hcounter (hanswers _ _ hcounter) _ w₂
      cases hok.symm.trans hfailed

/-- A move to a model with enough room settles the run, and counters that always answer let the run
come to its end. -/
theorem moved_settles (hcounters : p.tokenizers.CountsBy count)
    (hcatalog : p.catalog.OneFamily) {request : RunRequest} {model : Model}
    (hmodel : p.resolve request = .ok model) (hown : request.family = none)
    (hsmall : ∀ family messages,
      Held p (.begin request model (request.reserved.getD p.settings.reserved)) w family messages →
      weight count family messages < Word.size)
    (hreach : Reaches p (.begin request model (request.reserved.getD p.settings.reserved)) w
      phase r w₁)
    (hstep : exec (p.step phase r) w₁ = (.ok (.fallbackRequested, r'), w₂))
    (hroom : r'.budget.usedTokens + r'.budget.reserved ≤ r'.budget.limit) :
    (∀ result w', exec (p.run request) w = (.ok result, w') → Settles r' result) ∧
      (p.tokenizers.Answers → ∃ result w', exec (p.run request) w = (.ok result, w')) := by
  obtain ⟨hnext, -⟩ := exists_moved hreach hstep
  obtain ⟨r₁, e, hmoved, -, hused⟩ :=
    exists_moved_exact hcounters hcatalog hmodel hown hsmall hreach hstep
  have hcounted : ∀ signal r₂ w₃, exec (p.account r') w₂ = (.ok (signal, r₂), w₃) →
      ∃ result w', exec (p.run request) w = (.ok result, w') ∧ Settles r' result :=
    fun signal r₂ w₃ hcount => hnext.settles hmodel hcount
      (fits_of_room hcounters (hsmall _ _ (.entered hnext)) hused hroom hcount)
  constructor
  · intro result w' hran
    cases hcount : exec (p.account r') w₂ with
    | mk out w₃ =>
      cases out with
      | ok next =>
        obtain ⟨result', w'', hran', hsettles⟩ := hcounted next.1 next.2 w₃ hcount
        cases hran.symm.trans hran'
        exact hsettles
      | error e =>
        have hrun := exec_run hmodel w
        rw [hnext.failed rfl (by decide) hcount] at hrun
        cases hran.symm.trans hrun
  · intro hanswers
    obtain ⟨next, w₃, hcount⟩ := exists_account hanswers hcatalog hmodel hown hreach hstep
    obtain ⟨result, w', hran, -⟩ := hcounted next.1 next.2 w₃ hcount
    exact ⟨result, w', hran⟩

/-- An event of a move in the result of a run is the last one of a phase that moves. -/
theorem run_moved {request : RunRequest} {model : Model} {result : RunResult}
    {before after : List Event} {e : Event} (hmodel : p.resolve request = .ok model)
    (hrun : exec (p.run request) w = (.ok result, w'))
    (hevents : result.events = before ++ e :: after) (hstage : e.stage = .fallback) :
    ∃ phase r w₁ r' w₂,
      Reaches p (.begin request model (request.reserved.getD p.settings.reserved)) w phase r w₁ ∧
      exec (p.step phase r) w₁ = (.ok (.fallbackRequested, r'), w₂) ∧
      r'.events = before ++ [e] := by
  obtain ⟨r, w₁, last, hreach, hlast, rfl⟩ := run_reaches hmodel hrun
  obtain ⟨rest, hrest⟩ : ∃ rest, r.events = before ++ e :: rest := by
    have hsplit : r.events ++ [last] = before ++ e :: after := hevents
    rcases List.eq_nil_or_concat after with rfl | ⟨rest, e', rfl⟩
    · obtain rfl := List.singleton_inj.mp (List.append_inj_right' hsplit rfl)
      cases hlast.symm.trans hstage
    · rw [List.concat_eq_append, ← List.cons_append, ← List.append_assoc] at hsplit
      exact ⟨rest, List.append_inj_left' hsplit rfl⟩
  exact reaches_moved rfl hreach hrest hstage

/-- As long as the tokens of each conversation that a run holds stay below the number of words, a
run without a family of its own is over after a move to a model that has room for what is used and
reserved. It counts once more, tells the verdict, and leaves the conversation as it is. Counters
that always answer let it come to that end. The event of the move tells what is used and
reserved. -/
theorem run_settles (p : Pipeline σ) (hcounters : p.tokenizers.CountsBy count)
    (hcatalog : p.catalog.OneFamily) {request : RunRequest} {model : Model}
    (hmodel : p.resolve request = .ok model) (hown : request.family = none) (w : σ)
    (hsmall : ∀ family messages,
      Held p (.begin request model (request.reserved.getD p.settings.reserved)) w family messages →
      weight count family messages < Word.size) :
    let start := Run.begin request model (request.reserved.getD p.settings.reserved)
    (∀ phase r w₁ r' w₂, Reaches p start w phase r w₁ →
      exec (p.step phase r) w₁ = (.ok (.fallbackRequested, r'), w₂) →
      r'.budget.usedTokens + r'.budget.reserved ≤ r'.budget.limit →
      (∀ result w', exec (p.run request) w = (.ok result, w') → Settles r' result) ∧
      (p.tokenizers.Answers → ∃ result w', exec (p.run request) w = (.ok result, w'))) ∧
    ∀ result w' before e after, exec (p.run request) w = (.ok result, w') →
      result.events = before ++ e :: after → e.stage = .fallback →
      e.tokensAfter + e.reserved ≤ e.limit →
      ∃ r' w₁, Reaches p start w .account r' w₁ ∧ r'.events = before ++ [e] ∧
        Settles r' result := by
  intro start
  constructor
  · intro phase r w₁ r' w₂ hreach hstep hroom
    exact moved_settles hcounters hcatalog hmodel hown hsmall hreach hstep hroom
  · intro result w' before e after hrun hevents hstage hroom
    obtain ⟨phase, r, w₁, r', w₂, hreach, hstep, hbefore⟩ := run_moved hmodel hrun hevents hstage
    obtain ⟨r₁, e', hmoved, htokens, -⟩ :=
      exists_moved_exact hcounters hcatalog hmodel hown hsmall hreach hstep
    obtain rfl : e = e' := by
      have hsame := hbefore.symm.trans hmoved.events
      exact List.singleton_inj.mp (List.append_inj_right' hsame rfl)
    rw [htokens, hmoved.limit, hmoved.margin] at hroom
    obtain ⟨hsettles, -⟩ :=
      moved_settles hcounters hcatalog hmodel hown hsmall hreach hstep hroom
    exact ⟨r', w₂, (exists_moved hreach hstep).1, hbefore, hsettles result w' hrun⟩

/-- The chores are masked, and fit the larger model that they then move to. -/
theorem run_settles_chores :
    twoModels.OneFamily ∧ ∃ result w' before e after,
      exec ((obliging twoModels).run chores) () = (.ok result, w') ∧
      result.events = before ++ e :: after ∧ e.stage = .fallback ∧
      e.tokensAfter + e.reserved ≤ e.limit ∧
      ∃ r' w₁, Reaches (obliging twoModels) (.begin chores ⟨"small", "letters", 4⟩ 0) ()
          .account r' w₁ ∧ r'.events = before ++ [e] ∧ Settles r' result := by
  have hmodel : (obliging twoModels).resolve chores = .ok ⟨"small", "letters", 4⟩ := rfl
  have hcatalog : twoModels.OneFamily := Catalog.oneFamily_ofModels twoModels.models
  have hsmall : ∀ family messages,
      Held (obliging twoModels) (.begin chores ⟨"small", "letters", 4⟩ 0) () family messages →
      weight (fun _ text => Nat.min text.length 50) family messages < Word.size :=
    fun family messages hheld =>
      hheld.weight_lt (fun text => Nat.min_le_right text.length 50) (by decide)
  obtain ⟨result, w', hran, hmoved⟩ := ran_of_any
    (P := fun result => (result.events.find? (·.stage = .fallback)).any
      fun e => decide (e.tokensAfter + e.reserved ≤ e.limit))
    (by decide +kernel : ((exec ((obliging twoModels).run chores) ()).1.toOption.any _) = true)
  obtain ⟨e, he, hroom⟩ := (Option.any_eq_true _ _).mp hmoved
  obtain ⟨hstage, before, after, hevents, -⟩ := List.find?_eq_some_iff_append.mp he
  have hstage := of_decide_eq_true hstage
  have hroom := of_decide_eq_true hroom
  obtain ⟨-, hsettles⟩ := run_settles (obliging twoModels) (obliging_countsBy twoModels) hcatalog
    hmodel rfl () hsmall
  exact ⟨hcatalog, result, w', before, e, after, hran, hevents, hstage, hroom,
    hsettles result w' before e after hran hevents hstage hroom⟩

end Pipeline
end ContextBudget

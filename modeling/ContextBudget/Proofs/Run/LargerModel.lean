import ContextBudget.Proofs.Catalog
import ContextBudget.Proofs.Run.Phases

/-!
# Moves to a larger model

A move leaves the model that the request names for the one that the catalog names for it. The
catalog knows the family and the limit that it lists for the model, and not those that a request
puts in their place.

- `Stepped.keeps_or_moves`: a phase keeps the model and the limit, or it moves.
- `reaches_model`: until the first move, a run is for the model that it began with.
- `run_movesUp`: a move is one up from what the catalog lists for the model of the request, and so
  from the family and the limit in force, if the request overrides neither.
- `not_movesUp_widened`: with a limit of the request's own, a run may move to a smaller limit.
-/

namespace ContextBudget
namespace Pipeline

open BudgetM

variable {σ : Type} {p : Pipeline σ} {start r r' : Run} {phase : Phase} {signal : Signal}
  {w w' : σ}

theorem signal_ne_fallbackRequested (r : Run) : r.signal ≠ .fallbackRequested := by
  rcases signal_cases r with ⟨hs, -⟩ | ⟨hs, -⟩ <;> rw [hs] <;> decide

/-- A phase keeps the model and the limit, or it is the first to move to a larger model. -/
theorem Stepped.keeps_or_moves {stages : List Stage} (h : Stepped p phase r signal r' stages) :
    (signal ≠ .fallbackRequested ∧ r'.model = r.model ∧ r'.budget.limit = r.budget.limit ∧
        r'.restarts = r.restarts) ∨
      (signal = .fallbackRequested ∧ r.restarts = 0 ∧ r'.restarts = 1 ∧ Moves p r r') := by
  cases h with
  | started => exact .inl ⟨by decide, rfl, rfl, rfl⟩
  | counted _ _ e course =>
    exact .inl ⟨signal_ne_fallbackRequested r', course.model, course.limit, course.restarts⟩
  | masked _ _ course =>
    exact .inl ⟨signal_ne_fallbackRequested r', course.model, course.limit, course.restarts⟩
  | putOff _ r₁ course => exact .inl ⟨by decide, course.model, course.limit, course.restarts⟩
  | movedEarly _ _ first _ restarted _ moves =>
    obtain hfirst : r.restarts = 0 := Nat.lt_one_iff.mp first
    exact .inr ⟨rfl, hfirst, by rw [restarted, hfirst], moves⟩
  | redacted _ _ course =>
    exact .inl ⟨signal_ne_fallbackRequested r', course.model, course.limit, course.restarts⟩
  | movedLate _ _ first _ restarted _ moves =>
    obtain hfirst : r.restarts = 0 := Nat.lt_one_iff.mp first
    exact .inr ⟨rfl, hfirst, by rw [restarted, hfirst], moves⟩
  | compacted _ _ course =>
    exact .inl ⟨signal_ne_fallbackRequested r', course.model, course.limit, course.restarts⟩
  | ended => exact .inl ⟨by decide, rfl, rfl, rfl⟩

/-- Until the first move, a run is for the model that it began with. -/
theorem reaches_model (hreach : Reaches p start w phase r w') (hfirst : r.restarts = 0) :
    r.model = start.model ∧ r.budget.limit = start.budget.limit := by
  induction hreach with
  | start => exact ⟨rfl, rfl⟩
  | step _ _ ran ih =>
    obtain ⟨stages, hstepped, -⟩ := step_cases ran
    rcases hstepped.keeps_or_moves with ⟨-, hmodel, hlimit, hrestarts⟩ | ⟨-, -, hrestarts, -⟩
    · obtain ⟨hmodel', hlimit'⟩ := ih (hrestarts ▸ hfirst)
      exact ⟨hmodel.trans hmodel', hlimit.trans hlimit'⟩
    · rw [hrestarts] at hfirst
      cases hfirst

/-- A run is for the model that it began with, or for one of the catalog. -/
theorem reaches_listed (hreach : Reaches p start w phase r w') :
    r.model = start.model ∨ r.model ∈ p.catalog.models := by
  induction hreach with
  | start => exact .inl rfl
  | step _ _ ran ih =>
    obtain ⟨stages, hstepped, -⟩ := step_cases ran
    rcases hstepped.keeps_or_moves with ⟨-, hmodel, -⟩ | ⟨-, -, -, hmoves⟩
    · rwa [hmodel]
    · obtain ⟨m, -, htarget⟩ := hmoves.wanted
      exact .inr (List.mem_of_find?_eq_some htarget)

/-- A move goes to the model that the catalog names, if no two of its models share a name. -/
theorem Moves.suits (h : Moves p r r') (hdistinct : (p.catalog.models.map (·.name)).Nodup) :
    ∃ known, p.catalog.find? r.model.name = some known ∧
      p.catalog.Suits known.family known.limit r'.budget.required r'.model := by
  obtain ⟨m, hmove, htarget⟩ := h.wanted
  obtain ⟨chosen, hchosen, rfl⟩ := Option.map_eq_some_iff.mp hmove
  obtain ⟨known, hknown, hsuits⟩ := Catalog.fallback?_suits hchosen
  rw [Catalog.find?_of_mem hdistinct hsuits.listed] at htarget
  exact ⟨known, hknown, Option.some.inj htarget ▸ hsuits⟩

/-- The model of a request has the name that the request gives. -/
theorem name_of_resolve {request : RunRequest} {model : Model}
    (h : p.resolve request = .ok model) : model.name = request.model := by
  unfold resolve at h
  split at h
  · rename_i known hknown
    have hname : known.name = request.model := Catalog.name_of_find? hknown
    cases h
    exact hname
  · cases h
    rfl
  · cases h

/-- A run changes its model and its limit only by a move. A move goes one up from what the catalog
lists for the model of the request, and so from the family and the limit in force, if these are the
ones that the catalog lists. -/
theorem run_movesUp (p : Pipeline σ) (hdistinct : (p.catalog.models.map (·.name)).Nodup)
    {request : RunRequest} {model : Model} (hmodel : p.resolve request = .ok model) {w₁ w₂ : σ}
    (hreach : Reaches p (.begin request model (request.reserved.getD p.settings.reserved)) w
      phase r w₁)
    (hstep : exec (p.step phase r) w₁ = (.ok (signal, r'), w₂)) :
    (signal ≠ .fallbackRequested →
        r'.model = r.model ∧ r'.budget.limit = r.budget.limit) ∧
      (signal = .fallbackRequested →
        r.model = model ∧ r.budget.limit = model.limit ∧ r'.budget.limit = r'.model.limit ∧
          ∃ known, p.catalog.find? request.model = some known ∧
            p.catalog.Suits known.family known.limit r'.budget.required r'.model ∧
            (known.family = model.family → known.limit = model.limit →
              r'.budget.usedTokens + r'.budget.reserved < Word.size →
              p.catalog.Suits r.model.family r.budget.limit
                (r'.budget.usedTokens + r'.budget.reserved) r'.model)) := by
  obtain ⟨stages, hstepped, -⟩ := step_cases hstep
  rcases hstepped.keeps_or_moves with ⟨hsignal, hkept, hlimit, -⟩ | ⟨rfl, hfirst, -, hmoves⟩
  · exact ⟨fun _ => ⟨hkept, hlimit⟩, fun h => absurd h hsignal⟩
  · refine ⟨fun h => absurd rfl h, fun _ => ?_⟩
    obtain ⟨hbegun, hlimit⟩ := reaches_model hreach hfirst
    obtain ⟨known, hknown, hsuits⟩ := hmoves.suits hdistinct
    have hbegun : r.model = model := hbegun
    have hlimit : r.budget.limit = model.limit := hlimit
    rw [hbegun, name_of_resolve hmodel] at hknown
    refine ⟨hbegun, hlimit, hmoves.limit, known, hknown, hsuits, fun hfamily hsame hsmall => ?_⟩
    rw [hbegun, hlimit, ← hfamily, ← hsame, ← Word.add_eq hsmall]
    exact hsuits

/-- What a run tells that masks after its first count. -/
theorem exists_sanitized {β : Type} (p : Pipeline σ) (start : Run) (w : σ) (signal : Signal)
    (f : Run → Run → β) (b : β)
    (h : (exec (do
      let (counted, r) ← p.account start
      let (masked, r') ← p.sanitize r
      return (counted, masked, f r r')) w).1.toOption = some (.overBudget, signal, b)) :
    ∃ r w₁ r' w₂, Reaches p start w .sanitize r w₁ ∧
      exec (p.step .sanitize r) w₁ = (.ok (signal, r'), w₂) ∧ f r r' = b := by
  obtain ⟨w', hran⟩ := ran_of_toOption h
  obtain ⟨⟨counted, r⟩, w₁, haccount, h₁⟩ := bind_ran hran
  obtain ⟨⟨masked, r'⟩, w₂, hmask, h₂⟩ := bind_ran h₁
  obtain ⟨heq, -⟩ := pure_ran h₂
  cases heq
  have hcount : Reaches p start w .account start w := Reaches.step .start (by decide) rfl
  exact ⟨r, w₁, r', w₂, hcount.step (by decide) haccount, hmask, rfl⟩

/-- The greeting moves to the larger model. -/
theorem run_movesUp_greeting :
    (twoModels.models.map (·.name)).Nodup ∧
      (lettersOnly twoModels).resolve greeting = .ok ⟨"small", "letters", 4⟩ ∧
      ∃ r w₁ r' w₂, Reaches (lettersOnly twoModels) (.begin greeting ⟨"small", "letters", 4⟩ 0) []
          .sanitize r w₁ ∧
        exec ((lettersOnly twoModels).step .sanitize r) w₁ =
          (.ok (.fallbackRequested, r'), w₂) ∧
        twoModels.Suits r.model.family r.budget.limit
          (r'.budget.usedTokens + r'.budget.reserved) r'.model := by
  have hmodel : (lettersOnly twoModels).resolve greeting = .ok ⟨"small", "letters", 4⟩ :=
    rfl
  obtain ⟨r, w₁, r', w₂, hreach, hstep, hneeded⟩ := exists_sanitized (lettersOnly twoModels)
    (.begin greeting ⟨"small", "letters", 4⟩ 0) [] .fallbackRequested
    (fun _ r' => r'.budget.usedTokens + r'.budget.reserved) 5 (by decide +kernel)
  have hdistinct : (twoModels.models.map (·.name)).Nodup := by decide
  obtain ⟨-, hmove⟩ := run_movesUp (lettersOnly twoModels) hdistinct hmodel hreach hstep
  obtain ⟨-, -, -, known, hknown, -, hlaw⟩ := hmove rfl
  have hlisted : twoModels.find? "small" = some ⟨"small", "letters", 4⟩ := by decide
  obtain rfl := Option.some.inj (hlisted.symm.trans hknown)
  exact ⟨hdistinct, hmodel, r, w₁, r', w₂, hreach, hstep, hlaw rfl rfl (by rw [hneeded]; decide)⟩

/-- Two models of one family, neither of which holds four tokens. -/
def twoNarrow : Catalog := ⟨[⟨"small", "letters", 1⟩, ⟨"large", "letters", 2⟩]⟩

/-- The greeting with a limit of its own, which is wider than that of any model. -/
def widened : RunRequest := { greeting with limit := some 4 }

/-- With a limit of the request's own, a run may move to a smaller limit. -/
theorem not_movesUp_widened :
    ¬ ∀ (σ : Type) (p : Pipeline σ) (request : RunRequest) (model : Model) (w w₁ w₂ : σ)
      (phase : Phase) (r r' : Run), p.resolve request = .ok model →
      Reaches p (.begin request model (request.reserved.getD p.settings.reserved)) w phase r w₁ →
      exec (p.step phase r) w₁ = (.ok (.fallbackRequested, r'), w₂) →
      p.catalog.Suits r.model.family r.budget.limit
        (r'.budget.usedTokens + r'.budget.reserved) r'.model := by
  intro hlaw
  have hmodel : (lettersOnly twoNarrow).resolve widened = .ok ⟨"small", "letters", 4⟩ :=
    rfl
  obtain ⟨r, w₁, r', w₂, hreach, hstep, hlimits⟩ := exists_sanitized (lettersOnly twoNarrow)
    (.begin widened ⟨"small", "letters", 4⟩ 0) [] .fallbackRequested
    (fun r r' => (r.budget.limit, r'.model.limit)) (4, 2) (by decide +kernel)
  have hsuits := hlaw _ _ _ _ _ _ _ _ _ _ hmodel hreach hstep
  obtain ⟨hbefore, hafter⟩ := Prod.mk.inj hlimits
  have hlarger := hsuits.larger
  omega

end Pipeline
end ContextBudget

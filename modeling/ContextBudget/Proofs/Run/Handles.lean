import ContextBudget.Proofs.Run.Integrity
import ContextBudget.Proofs.Run.Trail

/-!
# What the handles of a run hold

A handle holds the content of the message that its placeholder stands for. The second pass of a run
may come after a redaction, and then masks what the redactor left of a message.

- `StoreCall.inversion`: the store is asked to keep the content of a tool's message that is not
  masked.
- `reaches_untried`: where a larger model is preferred to redaction, no masking comes after one.
- `StoreCall.original`: the content is the one that the run was given, or what the redactor left of
  it.
- `run_keepsOutputs`: so is what the handles of a run hold.
- `not_keepsOutputs_retried`: a run may lose the output of a tool behind a handle.
-/

namespace ContextBudget
namespace Pipeline

open BudgetM

variable {σ : Type} {p : Pipeline σ} {start r r' : Run} {phase : Phase} {signal : Signal}
  {w w' : σ}

/-! ## What the store is asked to keep -/

/-- The store is asked to keep the content of a tool's message that is not masked. -/
theorem StoreCall.inversion {index : Nat} {m : Message} {handle : Handle} {reply : Call String}
    (h : StoreCall p start w index m handle reply) :
    ∃ r w₁, Reaches p start w .sanitize r w₁ ∧ r.messages[index]? = some m ∧ m.role = .tool ∧
      m.isMasked = false ∧ handle.content = m.content := by
  obtain @⟨r, w₁, tokens, w₂, reached, asks⟩ := h
  have htool := asks.tool
  obtain ⟨part, -, due, -, -⟩ := asks
  simp only [Masking.applies, Bool.and_eq_true, Bool.not_eq_true'] at due
  exact ⟨r, w₁, reached, (Masking.getElem?_of_prefix part).2, htool, due.1.2, rfl⟩

/-- Masking gives no message to the redactor. -/
theorem sanitize_untried (h : exec (p.sanitize r) w = (.ok (signal, r'), w')) :
    r'.attempted = r.attempted := by
  rw [sanitize_eq] at h
  obtain ⟨⟨move, r₁⟩, w₁, hmask, hafter⟩ := bind_ran h
  obtain ⟨masked, w₂, detail, -, -, hrecord⟩ := maskStage_ran hmask
  obtain ⟨e, -, rfl, -⟩ := record_ran hrecord
  exact (afterMasking_sameWork (lift_ran hafter)).attempted

/-- Where a larger model is preferred to redaction, a run comes to a masking before it has given any
message to the redactor. -/
theorem reaches_untried (hevents : start.events = []) (hrestarts : start.restarts = 0)
    (hdeferred : start.deferred = false) (hprefer : p.settings.preferFallback = true)
    (hreach : Reaches p start w phase r w')
    (hphase : phase = .start ∨ phase = .account ∨ phase = .sanitize) :
    r.attempted = start.attempted := by
  induction hreach with
  | start => rfl
  | @step phase r w₁ signal r' w₂ before more ran ih =>
    cases phase with
    | start =>
      obtain ⟨heq, -⟩ := pure_ran ran
      cases heq
      exact ih (.inl rfl)
    | account => exact (account_sameWork ran).attempted.trans (ih (.inr (.inl rfl)))
    | sanitize => exact (sanitize_untried ran).trans (ih (.inr (.inr rfl)))
    | redact =>
      -- A pass that follows a redaction was put off, and that only where redaction comes first.
      obtain ⟨stages, hstepped, -⟩ := step_cases ran
      cases hstepped with
      | redacted =>
        rcases signal_cases r' with ⟨hs, -⟩ | ⟨hs, -⟩ <;> simp [hs, Phase.next] at hphase
      | movedLate _ _ _ due =>
        have hlater := (reaches_onTrail hevents hrestarts hdeferred before).deferred due
        rw [hprefer] at hlater
        cases hlater
    | compact => simp [Phase.next] at hphase
    | done => exact absurd rfl more

/-- What a message is that the store is asked about: the message of a tool as the run was given it,
or what the redactor has left of it. -/
theorem StoreCall.original {index : Nat} {m : Message} {handle : Handle} {reply : Call String}
    (h : StoreCall p start w index m handle reply) (hstart : Unsummed start.events) :
    ∃ r w₁ m₀, Reaches p start w .sanitize r w₁ ∧ start.messages[index]? = some m₀ ∧
      m₀.role = .tool ∧ (handle.content = m₀.content ∨
        index ∈ r.attempted ∧ ∃ reply response, PruneCall p start w index m₀ reply ∧
          reply.within p.patience = some response ∧ response.gaveBack = false ∧
          handle.content = response.text) := by
  obtain ⟨r, w₁, reached, hm, htool, hunmasked, hcontent⟩ := h.inversion
  obtain ⟨kept, rs, hhistory⟩ := reaches_history hstart reached
  obtain ⟨rfl, -⟩ := hhistory.running (by decide)
  have hlt : index < start.messages.length := by
    rw [← hhistory.rewrites.length_eq]
    exact (List.getElem?_eq_some_iff.mp hm).1
  obtain ⟨m₀, hm₀⟩ : ∃ m₀, start.messages[index]? = some m₀ := ⟨_, List.getElem?_eq_getElem hlt⟩
  obtain ⟨m', hm', hcases⟩ := hhistory.rewrites.slot hm₀
  obtain rfl := Option.some.inj (hm.symm.trans hm')
  refine ⟨r, w₁, m₀, reached, hm₀, ?_⟩
  rcases hcases with rfl | ⟨x, hx, rfl, -, rfl⟩
  · exact ⟨htool, .inl hcontent⟩
  · cases hhistory.made x hx with
    | masked =>
      rw [Replacement.content, Replacement.isMasked_placeholder] at hunmasked
      cases hunmasked
    | @redacted place old reply response _ call answered accepted =>
      -- The redactor is asked for messages only as the run was given them.
      obtain rfl := Option.some.inj ((call.original hstart).symm.trans hm₀)
      exact ⟨htool, .inr ⟨hhistory.tried _ hx rfl, reply, response, call, answered, accepted,
        hcontent⟩⟩

/-! ## Whole runs -/

/-- Each handle of a run holds the output of a tool as the run was given it. Only where redaction
comes before a larger model, it may hold what the redactor left of that output. -/
theorem run_keepsOutputs (p : Pipeline σ) {request : RunRequest} {model : Model}
    (hmodel : p.resolve request = .ok model) {result : RunResult}
    (h : exec (p.run request) w = (.ok result, w')) :
    let start := Run.begin request model (request.reserved.getD p.settings.reserved)
    ∀ handle ∈ result.handles, ∃ place m, request.messages[place]? = some m ∧ m.role = .tool ∧
      (handle.content = m.content ∨
        p.settings.preferFallback = false ∧ ∃ reply response, PruneCall p start w place m reply ∧
          reply.within p.patience = some response ∧ response.gaveBack = false ∧
          handle.content = response.text) := by
  intro start handle hhandle
  have hstart : Unsummed start.events := by simp [Unsummed, start, Run.begin]
  obtain ⟨r, w₁, e, hreach, -, rfl⟩ := run_reaches hmodel h
  obtain ⟨kept, rs, hhistory⟩ := reaches_history hstart hreach
  change handle ∈ r.handles at hhandle
  rw [hhistory.handles] at hhandle
  obtain ⟨x, hx, hxhandle⟩ := List.mem_filterMap.mp hhandle
  cases hhistory.made x hx with
  | redacted => cases hxhandle
  | @masked place m tokens stored reply id _ call answer =>
    obtain rfl := Option.some.inj hxhandle
    obtain ⟨r₁, w₂, m₀, hreach₁, hm₀, htool, hcontent⟩ := call.original hstart
    refine ⟨place, m₀, hm₀, htool, hcontent.imp_right ?_⟩
    rintro ⟨htried, reply', response, hcall, hanswered, haccepted, htext⟩
    refine ⟨?_, reply', response, hcall, hanswered, haccepted, htext⟩
    -- With a larger model first, no place has been tried by the time of a masking.
    cases hprefer : p.settings.preferFallback with
    | false => rfl
    | true =>
      rw [reaches_untried rfl rfl rfl hprefer hreach₁ (.inr (.inr rfl))] at htried
      cases htried

/-- Two models that hardly differ. -/
def alike : Catalog := ⟨[⟨"small", "letters", 4⟩, ⟨"large", "letters", 5⟩]⟩

/-- A pipeline whose store works only after a move to a larger model, and whose redactor shortens
each text to the same few letters. -/
def retried : Pipeline (List Event) := { lettersOnly alike with
  settings := { Settings.standard with
    masking := { MaskingConfig.standard with threshold := 2 }
    redaction := ⟨true, { RedactionConfig.standard with minTokens := 7 }⟩
    preferFallback := false }
  keeper := ⟨fun _ => return (if (← get).any (·.stage == .fallback) then .answer "kept"
    else .failure (.unavailable "")), fun _ => return .answer none⟩
  redactor := ⟨fun _ => return .done .zero { cutShort with text := "shorter" },
    fun _ => return .ok ""⟩ }

/-- An output of a tool that is to be shortened. -/
def lengthy : RunRequest := { greeting with messages := [.toolResult "c" "hello hello"] }

/-- The shortened output stands behind a handle, and it is what the redactor left. -/
theorem run_keepsOutputs_lengthy :
    ∃ result w', exec (retried.run lengthy) [] = (.ok result, w') ∧
      ∃ handle ∈ result.handles, handle.content = "shorter" ∧
        ∃ reply, PruneCall retried (.begin lengthy ⟨"small", "letters", 4⟩ 0) [] 0
          (.toolResult "c" "hello hello") reply := by
  have hmodel : retried.resolve lengthy = .ok ⟨"small", "letters", 4⟩ := rfl
  obtain ⟨result, w', hran, handle, hhandle, hshorter⟩ := ran_of_any
    (P := fun result => ∃ handle ∈ result.handles, handle.content = "shorter")
    (by decide +kernel : ((exec (retried.run lengthy) []).1.toOption.any _) = true)
  refine ⟨result, w', hran, handle, hhandle, hshorter, ?_⟩
  obtain ⟨place, m, hm, -, hcontent⟩ := run_keepsOutputs retried hmodel hran handle hhandle
  obtain ⟨hplace, rfl⟩ := List.getElem?_eq_some_iff.mp hm
  obtain rfl : place = 0 := Nat.lt_one_iff.mp hplace
  obtain hsame | ⟨-, reply, -, hcall, -⟩ := hcontent
  · rw [hshorter] at hsame
    exact absurd hsame (show "shorter" ≠ "hello hello" by decide)
  · exact ⟨reply, hcall⟩

/-- A run may lose the output of a tool behind a handle. -/
theorem not_keepsOutputs_retried :
    ¬ ∀ (σ : Type) (p : Pipeline σ) (request : RunRequest) (w w' : σ) (result : RunResult),
      exec (p.run request) w = (.ok result, w') → ∀ handle ∈ result.handles,
        ∃ m ∈ request.messages, m.role = .tool ∧ handle.content = m.content := by
  intro hlaw
  obtain ⟨result, w', hran, handle, hhandle, hcontent⟩ := ran_of_any
    (P := fun result => ∃ handle ∈ result.handles, handle.content = "shorter")
    (by decide +kernel : ((exec (retried.run lengthy) []).1.toOption.any _) = true)
  obtain ⟨m, hm, -, hsame⟩ := hlaw _ _ _ _ _ result hran handle hhandle
  obtain rfl := List.mem_singleton.mp hm
  rw [hcontent] at hsame
  exact absurd hsame (by decide)

end Pipeline
end ContextBudget

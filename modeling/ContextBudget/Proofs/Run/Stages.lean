import ContextBudget.Proofs.Run.Services
import ContextBudget.Run.Pipeline

/-!
# Stages of a run

What each stage of a run works with, whatever the services answer.

- `sanitize_eq`, `redact_eq`: two stages are their work and what comes after it.
- `account_ran`, `maskStage_ran`, `redactStage_ran`, `compact_ran`, `fallBack_ran`: the event that a
  stage records, and what the run is by then.
- `redactOne_cases`: all that can come of a message that is given to the redactor;
  `redactEach_preserves`: what holds of a redaction from one message to the next.
- `afterMasking_cases`, `afterRedaction_cases`: when a run moves to a larger model.
- `sanitize_ran`, `redact_ran`: the work of a stage and what came after it.
-/

namespace ContextBudget

/-- The tokens that a larger model has to hold: those in use and the margin, added as words. -/
def Budget.required (b : Budget) : Nat := Word.add b.usedTokens b.reserved

/-- A redaction that has given the message at a place to the redactor. -/
def Redacted.attempt (done : Redacted) (index : Nat) : Redacted :=
  { done with run := { done.run with attempted := done.run.attempted ++ [index] } }

/-- A redaction that has put a message in place of another one, and its count with it. -/
def Redacted.replace (done : Redacted) (index : Nat) (m : Message) (entry : Entry)
    (pruneId : String) : Redacted :=
  { done with
    run := { done.run.withTally (done.run.tally.replace index entry) with
      messages := done.run.messages.set index m }
    reduced := done.reduced ++ [index]
    pruneIds := done.pruneIds ++ [pruneId] }

/-- A redaction with more warnings. -/
def Redacted.warn (done : Redacted) (warnings : List Warning) : Redacted :=
  { done with warnings := done.warnings ++ warnings }

namespace Pipeline

open BudgetM

variable {σ : Type} {p : Pipeline σ} {r r' : Run} {w w' : σ}

/-- Masks tool output, and names the larger model to move to, if one is wanted. -/
def maskStage (p : Pipeline σ) (r : Run) : BudgetM σ (Option Fallback × Run) := do
  let before := r.tokens
  let catalog := if r.restarts < maxRestarts then some p.catalog else none
  let (masked, move) ← p.masking.pass r.model r.messages r.tally r.budget catalog
  let detail := .obj [("handles", .ofTexts (masked.handles.map (·.id))),
    ("fallback", (move.map Fallback.toJson).getD .null)]
  let outcome := Outcome.of (!masked.handles.isEmpty) masked.warnings
  let r := { r with messages := masked.messages }.withTally masked.tally
  let r := { r with handles := r.handles ++ masked.handles }
  return (move, ← p.record r .sanitize before outcome detail masked.warnings)

/-- Moves to the larger model at once or leaves that for later, if it is still needed. -/
def afterMasking (p : Pipeline σ) (r : Run) (move : Option Fallback) : StateM σ (Signal × Run) :=
  match r.signal, move with
  | .overBudget, some move =>
    if p.settings.preferFallback then do return (.fallbackRequested, ← p.fallBack r move)
    else return (.overBudget, { r with deferred := true })
  | signal, _ => return (signal, r)

/-- Redacts large messages, whatever comes after it. -/
def redactStage (p : Pipeline σ) (r : Run) : BudgetM σ Run := do
  let before := r.tokens
  let redaction := p.settings.redaction
  let candidates := if redaction.enabled then r.candidates redaction.config.minTokens else []
  if candidates.isEmpty then
    let reason := if redaction.enabled then "no_candidates" else "disabled"
    p.record r .redact before .skipped (.obj [("reason", .str reason)]) []
  else
    let limit := redaction.config.options.timeout + redaction.config.grace
    let done ← p.redactEach (Run.goal r.messages) limit ⟨r, [], [], []⟩ candidates
    let outcome := Outcome.of (!done.reduced.isEmpty) done.warnings
    let detail := .obj [("messages", .arr (done.reduced.map .ofNat)),
      ("prune_ids", .ofTexts done.pruneIds)]
    let r ← p.record done.run .redact before outcome detail done.warnings
    return { r with pruneIds := r.pruneIds ++ done.pruneIds }

theorem sanitize_eq (p : Pipeline σ) (r : Run) :
    p.sanitize r = (do
      let (move, r) ← p.maskStage r
      p.afterMasking r move) := by
  simp only [sanitize, maskStage, bind_assoc, pure_bind]
  congr 1
  funext ⟨masked, move⟩
  congr 1
  funext r
  unfold afterMasking
  cases r.signal <;> cases move <;> try rfl
  cases p.settings.preferFallback <;> rfl

theorem redact_eq (p : Pipeline σ) (r : Run) :
    p.redact r = (do p.afterRedaction (← p.redactStage r)) := by
  simp only [redact, redactStage]
  generalize (if p.settings.redaction.enabled then
    r.candidates p.settings.redaction.config.minTokens else []) = places
  cases places.isEmpty with
  | true => rfl
  | false => simp only [Bool.false_eq_true, if_false, bind_assoc, pure_bind]

/-! ## Events -/

/-- An event was made at the time that the clock told, and emitted. -/
def Emitted (p : Pipeline σ) (e : Event) (w w' : σ) : Prop :=
  ∃ w₁, p.now.run w = (e.time, w₁) ∧ (p.emit e).run w₁ = ((), w')

/-- Recording changes nothing of a run but its events. -/
theorem record_ran {stage : Stage} {before : Nat} {outcome : Outcome} {detail : Json}
    {warnings : List Warning}
    (h : (p.record r stage before outcome detail warnings).run w = (r', w')) :
    ∃ e : Event,
      (e.stage = stage ∧ e.tokensBefore = before ∧ e.outcome = outcome ∧ e.detail = detail) ∧
      r' = { r with events := r.events ++ [e] } ∧ p.Emitted e w w' := by
  cases h
  exact ⟨_, ⟨rfl, rfl, rfl, rfl⟩, rfl, _, rfl, rfl⟩

theorem abort_ran {α : Type} {stage : Stage} {e : BudgetError} {a : α}
    (h : exec (p.abort r stage e : BudgetM σ α) w = (.ok a, w')) : False := by
  obtain ⟨_, w₁, -, h₁⟩ := bind_ran h
  cases h₁

/-! ## What a stage works with -/

theorem account_ran {signal : Signal} (h : exec (p.account r) w = (.ok (signal, r'), w')) :
    ∃ tally w₁ detail,
      exec (p.tokenizers.count r.model.family r.messages) w = (.ok tally, w₁) ∧
      signal = (r.withTally tally).signal ∧
      (p.record { r.withTally tally with initial := some (r.initial.getD tally.total) } .account
        r.tokens (if signal = .fits then .fits else .overBudget) detail []).run w₁ = (r', w') := by
  simp only [account] at h
  obtain ⟨counted, w₁, hcount, h₁⟩ := bind_ran h
  cases counted with
  | error e => exact (abort_ran h₁).elim
  | ok tally =>
    obtain ⟨r₁, w₂, hrecord, h₂⟩ := bind_ran h₁
    obtain ⟨heq, rfl⟩ := pure_ran h₂
    cases heq
    exact ⟨tally, w₁, _, catch_ran hcount, rfl, lift_ran hrecord⟩

theorem maskStage_ran {move : Option Fallback}
    (h : exec (p.maskStage r) w = (.ok (move, r'), w')) :
    ∃ masked w₁ detail,
      exec (p.masking.mask r.model.family r.messages r.tally) w = (.ok masked, w₁) ∧
      (∀ m, move = some m → r.restarts < maxRestarts ∧
        p.catalog.move? r.model.name (r.withTally masked.tally).budget.required = some m) ∧
      (p.record { r.withTally masked.tally with
          messages := masked.messages, handles := r.handles ++ masked.handles } .sanitize
        r.tokens (.of (!masked.handles.isEmpty) masked.warnings) detail masked.warnings).run w₁ =
          (r', w') := by
  obtain ⟨⟨masked, move'⟩, w₁, hpass, h₁⟩ := bind_ran h
  obtain ⟨r₁, w₂, hrecord, h₂⟩ := bind_ran h₁
  obtain ⟨heq, rfl⟩ := pure_ran h₂
  cases heq
  obtain ⟨masked', w₀, hmask, h₀⟩ := bind_ran hpass
  obtain ⟨heq, rfl⟩ := pure_ran h₀
  obtain ⟨rfl, hmove⟩ := Prod.mk.inj heq
  refine ⟨masked, w₁, _, hmask, fun m hm => ?_, lift_ran hrecord⟩
  rw [hm] at hmove
  split at hmove
  · split at hmove
    · exact ⟨‹_›, hmove.symm⟩
    · cases hmove
  · cases hmove

/-- The places of the messages that a redaction goes over. -/
def places (p : Pipeline σ) (r : Run) : List Nat :=
  if p.settings.redaction.enabled then r.candidates p.settings.redaction.config.minTokens else []

/-- How long the redactor may take for a message. -/
def patience (p : Pipeline σ) : Span :=
  p.settings.redaction.config.options.timeout + p.settings.redaction.config.grace

/-- What the event of a redaction says of it: the places of the messages that were reduced and the
ids of their prunes, or why none was given to the redactor. -/
def redactDetail (p : Pipeline σ) (r : Run) (done : Redacted) : Json :=
  if (p.places r).isEmpty then
    .obj [("reason", .str (if p.settings.redaction.enabled then "no_candidates" else "disabled"))]
  else .obj [("messages", .arr (done.reduced.map .ofNat)), ("prune_ids", .ofTexts done.pruneIds)]

theorem redactStage_ran (h : exec (p.redactStage r) w = (.ok r', w')) :
    ∃ done w₁ r₁,
      exec (p.redactEach (Run.goal r.messages) p.patience ⟨r, [], [], []⟩ (p.places r)) w =
        (.ok done, w₁) ∧
      (p.record done.run .redact r.tokens (if (p.places r).isEmpty then .skipped
        else .of (!done.reduced.isEmpty) done.warnings) (p.redactDetail r done)
        done.warnings).run w₁ = (r₁, w') ∧
      r' = { r₁ with pruneIds := r₁.pruneIds ++ done.pruneIds } := by
  simp only [redactStage] at h
  change exec (if (p.places r).isEmpty then _ else _) w = _ at h
  unfold redactDetail
  cases hplaces : p.places r with
  | nil =>
    simp only [hplaces, List.isEmpty_nil, if_true] at h ⊢
    exact ⟨⟨r, [], [], []⟩, w, r', rfl, lift_ran h, by rw [List.append_nil]⟩
  | cons index rest =>
    simp only [hplaces, List.isEmpty_cons, Bool.false_eq_true, if_false] at h ⊢
    obtain ⟨done, w₁, heach, h₁⟩ := bind_ran h
    obtain ⟨r₁, w₂, hrecord, h₂⟩ := bind_ran h₁
    obtain ⟨rfl, rfl⟩ := pure_ran h₂
    exact ⟨done, w₁, r₁, hplaces ▸ heach, lift_ran hrecord, rfl⟩

theorem compact_ran {signal : Signal} (h : exec (p.compact r) w = (.ok (signal, r'), w')) :
    signal = r'.signal ∧
      ((∃ detail, (p.record r .compact r.tokens .skipped detail []).run w = (r', w')) ∨
        ∃ summarize c w₁ detail, p.summarizer = some summarize ∧ p.skipReason? r = none ∧
          exec (Compaction.compact p.tokenizers summarize p.settings.compaction.config
            r.model.family r.messages r.tally) w = (.ok c, w₁) ∧
          (p.record { r.withTally c.tally with messages := c.messages } .compact r.tokens
            (.of c.reduced c.warnings) detail c.warnings).run w₁ = (r', w')) := by
  simp only [compact] at h
  split at h
  · obtain ⟨c, w₁, hcompact, h₁⟩ := bind_ran h
    obtain ⟨r₁, w₂, hrecord, h₂⟩ := bind_ran h₁
    obtain ⟨heq, rfl⟩ := pure_ran h₂
    cases heq
    exact ⟨rfl, .inr ⟨_, c, w₁, _, ‹_›, ‹_›, hcompact, lift_ran hrecord⟩⟩
  · obtain ⟨r₁, w₂, hrecord, h₂⟩ := bind_ran h
    obtain ⟨heq, rfl⟩ := pure_ran h₂
    cases heq
    exact ⟨rfl, .inl ⟨_, lift_ran hrecord⟩⟩

/-! ## Messages given to the redactor -/

/-- What the redactor is asked for a message. -/
def question (p : Pipeline σ) (goal : String) (m : Message) : PruneRequest :=
  ⟨m.content, goal, .auto, p.settings.redaction.config.options⟩

/-- What comes of a message that is given to the redactor. -/
inductive Given (p : Pipeline σ) (goal : String) (limit : Span) (done : Redacted) (index : Nat)
    (w : σ) : Redacted → σ → Prop where
  | absent (nothing : done.run.messages[index]? = none) :
    Given p goal limit done index w (done.attempt index) w
  | late (m : Message) (reply : Pending PruneResponse) (w' : σ)
    (found : done.run.messages[index]? = some m)
    (asked : (p.redactor.prune (p.question goal m)).run w = (reply, w'))
    (unanswered : reply.within limit = none) :
    Given p goal limit done index w ((done.attempt index).warn [notRedacted index limit]) w'
  | same (m : Message) (reply : Pending PruneResponse) (response : PruneResponse) (w' : σ)
    (found : done.run.messages[index]? = some m)
    (asked : (p.redactor.prune (p.question goal m)).run w = (reply, w'))
    (answered : reply.within limit = some response)
    (useless : (response.gaveBack || response.text == m.content) = true) :
    Given p goal limit done index w ((done.attempt index).warn response.warnings) w'
  | replaced (m : Message) (reply : Pending PruneResponse) (response : PruneResponse) (w₁ : σ)
    (entry : Entry) (w' : σ) (found : done.run.messages[index]? = some m)
    (asked : (p.redactor.prune (p.question goal m)).run w = (reply, w₁))
    (answered : reply.within limit = some response)
    (useful : (response.gaveBack || response.text == m.content) = false)
    (counted : exec (p.tokenizers.countMessage done.run.model.family
      (m.withContent response.text)) w₁ = (.ok entry, w')) :
    Given p goal limit done index w
      (((done.attempt index).warn response.warnings).replace index (m.withContent response.text)
        entry response.id) w'

theorem redactOne_cases {goal : String} {limit : Span} {done done' : Redacted} {index : Nat}
    (h : exec (p.redactOne goal limit done index) w = (.ok done', w')) :
    Given p goal limit done index w done' w' := by
  simp only [redactOne] at h
  split at h
  · obtain ⟨rfl, rfl⟩ := pure_ran h
    exact .absent ‹_›
  · rename_i m found
    obtain ⟨reply, w₁, hasked, h₁⟩ := bind_ran h
    have hasked := lift_ran hasked
    split at h₁
    · obtain ⟨rfl, rfl⟩ := pure_ran h₁
      exact .late m reply _ found hasked ‹_›
    · rename_i response answered
      split at h₁
      · obtain ⟨rfl, rfl⟩ := pure_ran h₁
        exact .same m reply response _ found hasked answered ‹_›
      · obtain ⟨entry, w₂, hcounted, h₂⟩ := bind_ran h₁
        obtain ⟨rfl, rfl⟩ := pure_ran h₂
        exact .replaced m reply response w₁ entry _ found hasked answered
          (Bool.eq_false_iff.mpr ‹_›) hcounted

/-- What holds of a redaction goes on to hold of it, if it does so with each message that is given to
the redactor. -/
theorem redactEach_preserves {goal : String} {limit : Span} {P : Redacted → Prop}
    (hgiven : ∀ {done next index w w'}, Given p goal limit done index w next w' → P done → P next)
    {done done' : Redacted} {places : List Nat} (hdone : P done)
    (h : exec (p.redactEach goal limit done places) w = (.ok done', w')) : P done' := by
  induction places generalizing done w with
  | nil =>
    obtain ⟨rfl, -⟩ := pure_ran h
    exact hdone
  | cons index rest ih =>
    rw [redactEach] at h
    split at h
    · obtain ⟨rfl, -⟩ := pure_ran h
      exact hdone
    · obtain ⟨next, w₁, hone, hrest⟩ := bind_ran h
      exact ih (hgiven (redactOne_cases hone) hdone) hrest

/-! ## Moves to a larger model -/

theorem mem_of_fallback? {c : Catalog} {name : String} {required : Nat} {m : Model}
    (h : c.fallback? name required = some m) : m ∈ c.models := by
  obtain ⟨known, -, hlarger⟩ := Option.bind_eq_some_iff.mp h
  have hmem : m ∈ c.larger known := by
    rcases Option.or_eq_some_iff.mp hlarger with hfirst | ⟨-, hlast⟩
    · exact List.mem_of_find?_eq_some hfirst
    · exact List.mem_of_getLast? hlast
  exact (List.mem_filter.mp (List.mem_mergeSort.mp hmem)).1

/-- The model that a move goes to is found. -/
theorem exists_find?_of_move? {c : Catalog} {name : String} {required : Nat} {m : Fallback}
    (h : c.move? name required = some m) : ∃ target, c.find? m.target = some target := by
  obtain ⟨model, hmodel, rfl⟩ := Option.map_eq_some_iff.mp h
  refine Option.isSome_iff_exists.mp (List.find?_isSome.mpr ⟨model, mem_of_fallback? hmodel, ?_⟩)
  simp

theorem fallBack_ran {m : Fallback} {name : String} {required : Nat}
    (hmove : p.catalog.move? name required = some m) (h : (p.fallBack r m).run w = (r', w')) :
    ∃ target, p.catalog.find? m.target = some target ∧
      (p.record { r with
          fallbackFrom := r.fallbackFrom.or (some m.source), model := target
          budget := r.budget.withLimit target.limit, restarts := r.restarts + 1
          deferred := false } .fallback r.tokens .fallbackRequested m.toJson []).run w =
        (r', w') := by
  obtain ⟨target, htarget⟩ := exists_find?_of_move? hmove
  rw [fallBack, htarget] at h
  exact ⟨target, htarget, h⟩

/-- What comes after a masking. -/
inductive AfterMasking (p : Pipeline σ) (move : Option Fallback) (r : Run) (w : σ) :
    Signal → Run → σ → Prop where
  | goesOn (settled : r.signal = .overBudget → move = none) : AfterMasking p move r w r.signal r w
  | putOff (m : Fallback) (wanted : move = some m) (exceeded : r.signal = .overBudget)
    (later : p.settings.preferFallback = false) :
    AfterMasking p move r w .overBudget { r with deferred := true } w
  | moved (m : Fallback) (r' : Run) (w' : σ) (wanted : move = some m)
    (exceeded : r.signal = .overBudget) (now : p.settings.preferFallback = true)
    (fell : (p.fallBack r m).run w = (r', w')) : AfterMasking p move r w .fallbackRequested r' w'

theorem afterMasking_cases {move : Option Fallback} {signal : Signal}
    (h : (p.afterMasking r move).run w = ((signal, r'), w')) :
    AfterMasking p move r w signal r' w' := by
  unfold afterMasking at h
  split at h
  · rename_i m exceeded
    split at h
    · cases h
      exact .moved m _ _ rfl exceeded ‹_› rfl
    · cases h
      exact .putOff m rfl exceeded (Bool.eq_false_iff.mpr ‹_›)
  · rename_i hother
    cases h
    exact .goesOn fun exceeded =>
      Option.eq_none_iff_forall_ne_some.mpr fun m hm => hother m exceeded hm

/-- What comes after a redaction. -/
inductive AfterRedaction (p : Pipeline σ) (r : Run) (w : σ) : Signal → Run → σ → Prop where
  | goesOn : AfterRedaction p r w r.signal r w
  | moved (m : Fallback) (r' : Run) (w' : σ) (exceeded : r.signal = .overBudget)
    (putOff : r.deferred = true) (first : r.restarts < maxRestarts)
    (wanted : p.catalog.move? r.model.name r.budget.required = some m)
    (fell : (p.fallBack r m).run w = (r', w')) : AfterRedaction p r w .fallbackRequested r' w'

theorem afterRedaction_cases {signal : Signal}
    (h : (p.afterRedaction r).run w = ((signal, r'), w')) : AfterRedaction p r w signal r' w' := by
  unfold afterRedaction at h
  split at h
  · cases h
    exact .goesOn
  · rename_i hneeded
    simp only [Bool.or_eq_true, Bool.not_eq_true', decide_eq_true_eq, not_or, Bool.not_eq_true,
      Bool.not_eq_false, Nat.not_le] at hneeded
    obtain ⟨⟨exceeded, putOff⟩, first⟩ := hneeded
    split at h
    · cases h
      exact .goesOn
    · rename_i m wanted
      cases h
      exact .moved m _ _ (by rw [Run.signal, exceeded]; rfl) putOff first wanted rfl

theorem sanitize_ran {signal : Signal} (h : exec (p.sanitize r) w = (.ok (signal, r'), w')) :
    ∃ move r₁ w₁, exec (p.maskStage r) w = (.ok (move, r₁), w₁) ∧
      AfterMasking p move r₁ w₁ signal r' w' := by
  rw [sanitize_eq] at h
  obtain ⟨⟨move, r₁⟩, w₁, hmask, hafter⟩ := bind_ran h
  exact ⟨move, r₁, w₁, hmask, afterMasking_cases (lift_ran hafter)⟩

theorem redact_ran {signal : Signal} (h : exec (p.redact r) w = (.ok (signal, r'), w')) :
    ∃ r₁ w₁, exec (p.redactStage r) w = (.ok r₁, w₁) ∧ AfterRedaction p r₁ w₁ signal r' w' := by
  rw [redact_eq] at h
  obtain ⟨r₁, w₁, hredact, hafter⟩ := bind_ran h
  exact ⟨r₁, w₁, hredact, afterRedaction_cases (lift_ran hafter)⟩

end Pipeline
end ContextBudget

import ContextBudget.Prune.Pruner

/-!
# Runs of a pruner

What one prune does, whatever the clock tells and whatever the reranker answers. A run is read step
by step: each `_ran` lemma takes the result of a computation and gives back what it was made from.

- `choose_ran`: what is chosen to go is the mask of some scores, and is chosen only for a request
  that the limits allow; all warnings on the way are about the reranker.
- `prune_ran`: a prune answers in one of two shapes (`Outcome`) and leaves one record of the text
  under the id that it answers.
-/

namespace ContextBudget

/-! ## Computations of a pruner -/

namespace PrunerM

variable {σ α β : Type} {s s' : PrunerState} {w w' : σ}

/-- What a computation gives, and the states of the pruner and of the world after it. -/
def exec (m : PrunerM σ α) (s : PrunerState) (w : σ) : (α × PrunerState) × σ := (m.run s).run w

theorem exec_bind {m : PrunerM σ α} {f : α → PrunerM σ β} {a : α}
    (h : exec m s w = ((a, s'), w')) : exec (m >>= f) s w = exec (f a) s' w' := by
  change exec (f (exec m s w).1.1) (exec m s w).1.2 (exec m s w).2 = exec (f a) s' w'
  rw [h]

theorem bind_ran {m : PrunerM σ α} {f : α → PrunerM σ β} {out : (β × PrunerState) × σ}
    (h : exec (m >>= f) s w = out) :
    ∃ a s₁ w₁, exec m s w = ((a, s₁), w₁) ∧ exec (f a) s₁ w₁ = out :=
  ⟨_, _, _, rfl, h⟩

theorem pure_ran {a b : α} (h : exec (pure a : PrunerM σ α) s w = ((b, s'), w')) :
    b = a ∧ s' = s := by
  cases h
  exact ⟨rfl, rfl⟩

theorem lift_ran {m : StateM σ α} {a : α}
    (h : exec (liftM m : PrunerM σ α) s w = ((a, s'), w')) : (m.run w).1 = a ∧ s' = s := by
  cases h
  exact ⟨rfl, rfl⟩

theorem get_ran {a : PrunerState} (h : exec (get : PrunerM σ PrunerState) s w = ((a, s'), w')) :
    a = s ∧ s' = s := by
  cases h
  exact ⟨rfl, rfl⟩

theorem modify_ran {f : PrunerState → PrunerState} {a : PUnit}
    (h : exec (modify f : PrunerM σ PUnit) s w = ((a, s'), w')) : s' = f s := by
  cases h
  rfl

end PrunerM

namespace Pruner

open PrunerM

variable {σ : Type} {p : Pruner σ} {request : PruneRequest} {s s' : PrunerState} {w w' : σ}

/-- The code of every warning about the reranker. -/
def rerankerFailed : String := "reranker_failed"

/-- Records and ids are as they were; the cache may differ. -/
def KeepsRecords (s s' : PrunerState) : Prop := s'.records = s.records ∧ s'.next = s.next

theorem passed_ran {deadline : Span} {looks : Nat} {late : Bool}
    (h : exec (p.passed deadline looks) s w = ((late, s'), w')) : s' = s := by
  induction looks generalizing w with
  | zero => exact (pure_ran h).2
  | succ looks ih =>
    obtain ⟨now, s₁, w₁, hnow, h₁⟩ := bind_ran h
    obtain ⟨-, rfl⟩ := lift_ran hnow
    split at h₁
    · exact (pure_ran h₁).2
    · exact ih h₁

/-- A deadline that has passed was told by the clock. -/
theorem exists_of_passed {deadline : Span} {looks : Nat}
    (h : exec (p.passed deadline looks) s w = ((true, s'), w')) :
    ∃ v, deadline ≤ (p.clock.elapsed.run v).1 := by
  induction looks generalizing w with
  | zero => exact absurd (pure_ran h).1 (by decide)
  | succ looks ih =>
    obtain ⟨now, s₁, w₁, hnow, h₁⟩ := bind_ran h
    obtain ⟨rfl, rfl⟩ := lift_ran hnow
    split at h₁
    · exact ⟨w, ‹_›⟩
    · exact ih h₁

/-- What follows a look at the clock is what follows when it is late, or what follows otherwise. -/
theorem gated_ran {α : Type} {deadline : Span} {looks : Nat} {late settled out : α}
    (h : exec (do if ← p.passed deadline looks then return late
                  return settled) s w = ((out, s'), w')) :
    s' = s ∧ ((out = late ∧ ∃ v, deadline ≤ (p.clock.elapsed.run v).1) ∨ out = settled) := by
  obtain ⟨passed, s₁, w₁, hpassed, h₁⟩ := bind_ran h
  obtain rfl := passed_ran hpassed
  cases passed with
  | true =>
    obtain ⟨rfl, rfl⟩ := pure_ran h₁
    exact ⟨rfl, .inl ⟨rfl, exists_of_passed hpassed⟩⟩
  | false =>
    obtain ⟨rfl, rfl⟩ := pure_ran h₁
    exact ⟨rfl, .inr rfl⟩

theorem noScores_warnings {detail : String} {x : Warning} (h : x ∈ (noScores detail).warnings) :
    x.code = rerankerFailed := by
  obtain rfl := List.mem_singleton.mp h
  rfl

/-- Whatever the reranker does, records and ids stay, and each warning is about it. -/
theorem outsideScores_ran {lines : List String} {kind : SourceKind} {deadline : Span}
    {out : OutsideScores} (h : exec (p.outsideScores request lines kind deadline) s w = ((out, s'), w')) :
    KeepsRecords s s' ∧ ∀ x ∈ out.warnings, x.code = rerankerFailed := by
  unfold outsideScores at h
  cases hr : p.reranker with
  | none =>
    rw [hr] at h
    obtain ⟨rfl, rfl⟩ := pure_ran h
    exact ⟨⟨rfl, rfl⟩, fun _ => noScores_warnings⟩
  | some reranker =>
    simp only [hr] at h
    split at h
    · obtain ⟨rfl, rfl⟩ := pure_ran h
      exact ⟨⟨rfl, rfl⟩, fun _ => noScores_warnings⟩
    · obtain ⟨s₀, s₁, w₁, hget, h₁⟩ := bind_ran h
      obtain ⟨rfl, rfl⟩ := get_ran hget
      obtain ⟨now, s₂, w₂, hnow, h₂⟩ := bind_ran h₁
      obtain ⟨-, rfl⟩ := lift_ran hnow
      obtain ⟨u, s₃, w₃, hmod, h₃⟩ := bind_ran h₂
      have hs₃ := modify_ran hmod
      split at h₃
      · obtain ⟨rfl, rfl⟩ := pure_ran h₃
        exact ⟨⟨by rw [hs₃], by rw [hs₃]⟩, by simp⟩
      · obtain ⟨elapsed, s₄, w₄, hnow, h₄⟩ := bind_ran h₃
        obtain ⟨-, hs₄⟩ := lift_ran hnow
        obtain ⟨reply, s₅, w₅, hreply, h₅⟩ := bind_ran h₄
        obtain ⟨-, hs₅⟩ := lift_ran hreply
        split at h₅
        · obtain ⟨rfl, rfl⟩ := pure_ran h₅
          exact ⟨⟨by rw [hs₅, hs₄, hs₃], by rw [hs₅, hs₄, hs₃]⟩, fun _ => noScores_warnings⟩
        · obtain ⟨later, s₆, w₆, hnow, h₆⟩ := bind_ran h₅
          obtain ⟨-, hs₆⟩ := lift_ran hnow
          obtain ⟨u, s₇, w₇, hput, h₇⟩ := bind_ran h₆
          have hs₇ := modify_ran hput
          obtain ⟨rfl, rfl⟩ := pure_ran h₇
          exact ⟨⟨by rw [hs₇, hs₆, hs₅, hs₄, hs₃], by rw [hs₇, hs₆, hs₅, hs₄, hs₃]⟩, by simp⟩

/-! ## Choosing -/

/-- What may be chosen to go from lines: the request is one that the limits allow, and the mask is
that of some scores. -/
structure Choice (config : PrunerConfig) (request : PruneRequest) (lines : List String)
    (chosen : Chosen) : Prop where
  allowed : refusal? config request lines.length = none
  enough : request.options.minKeep ≤ lines.length
  kind : chosen.kind = request.kind.resolve lines
  mask : ∃ outside, chosen.mask = maskOf config request.options
    (Selection.scores lines (classify (request.kind.resolve lines) lines) (termsOf request.goal)
      outside)
    (Selection.quota request.options lines.length)

theorem length_scores (lines : List String) (kind : SourceKind) (goal : List String)
    (outside : Option (List Single)) :
    (Selection.scores lines (classify kind lines) goal outside).length = lines.length := by
  cases outside <;> simp [Selection.scores]
  omega

/-- Without a quota nothing goes, whatever the scores. -/
theorem maskOf_zero (config : PrunerConfig) (options : PruneOptions)
    (scores : List (Option Single)) :
    maskOf config options scores 0 = List.replicate scores.length false := by
  have hmask : Selection.mask scores.length [] = List.replicate scores.length false :=
    List.ext_getElem? fun i => by
      by_cases h : i < scores.length
      · simp [Selection.mask, h]
      · simp [Selection.mask, h]
  have hkeep : ∀ n, Selection.keepSingles false (List.replicate n false) =
      List.replicate n false := by
    intro n
    induction n with
    | zero => rfl
    | succ n ih => simp [List.replicate_succ, Selection.keepSingles, ih]
  simp [maskOf, Selection.chosen, hmask, hkeep]

/-- The last look at the clock, after which the mask of some scores is chosen. -/
theorem scored_ran {lines : List String} {deadline : Span} {outside : OutsideScores}
    {warnings : List Warning} {result : Except Refusal Chosen}
    (allowed : refusal? p.config request lines.length = none)
    (enough : request.options.minKeep ≤ lines.length)
    (h : exec (do
      if ← p.passed deadline (looks lines.length) then
        return (outside.warnings, Except.error Refusal.late)
      return (outside.warnings, Except.ok ⟨maskOf p.config request.options
        (Selection.scores lines (classify (request.kind.resolve lines) lines)
          (termsOf request.goal) outside.scores)
        (Selection.quota request.options lines.length), request.kind.resolve lines,
        outside.scores.isSome, outside.cacheHit⟩)) s w = (((warnings, result), s'), w')) :
    s' = s ∧ warnings = outside.warnings ∧
      ∀ chosen, result = .ok chosen → Choice p.config request lines chosen := by
  obtain ⟨hs, ⟨he, -⟩ | he⟩ := gated_ran h
  · cases he
    exact ⟨hs, rfl, by simp⟩
  · cases he
    refine ⟨hs, rfl, fun chosen he => ?_⟩
    cases he
    exact ⟨allowed, enough, rfl, outside.scores, rfl⟩

theorem choose_ran {lines : List String} {deadline : Span} {warnings : List Warning}
    {result : Except Refusal Chosen}
    (h : exec (p.choose request lines deadline) s w = (((warnings, result), s'), w')) :
    KeepsRecords s s' ∧ (∀ x ∈ warnings, x.code = rerankerFailed) ∧
      ∀ chosen, result = .ok chosen → Choice p.config request lines chosen := by
  have refused : ∀ {refusal : Refusal} {s₀ : PrunerState} {w₀ : σ}, s₀ = s →
      exec (pure ([], .error refusal) : PrunerM σ (List Warning × Except Refusal Chosen)) s₀ w₀ =
        (((warnings, result), s'), w') →
      KeepsRecords s s' ∧ (∀ x ∈ warnings, x.code = rerankerFailed) ∧
        ∀ chosen, result = .ok chosen → Choice p.config request lines chosen := by
    rintro refusal s₀ w₀ rfl he
    obtain ⟨he, rfl⟩ := pure_ran he
    cases he
    exact ⟨⟨rfl, rfl⟩, by simp, by simp⟩
  unfold choose at h
  simp only at h
  cases hallowed : refusal? p.config request lines.length with
  | some refusal =>
    rw [hallowed] at h
    exact refused rfl h
  | none =>
    simp only [hallowed] at h
    obtain ⟨late, s₁, w₁, hlate, h₁⟩ := bind_ran h
    have hs₁ := passed_ran hlate
    split at h₁
    · exact refused hs₁ h₁
    split at h₁
    · exact refused hs₁ h₁
    rename_i henough
    obtain ⟨late, s₂, w₂, hlate, h₂⟩ := bind_ran h₁
    have hs₂ := (passed_ran hlate).trans hs₁
    split at h₂
    · exact refused hs₂ h₂
    split at h₂
    · rename_i hquota
      obtain ⟨he, rfl⟩ := pure_ran h₂
      cases he
      refine ⟨⟨by rw [hs₂], by rw [hs₂]⟩, by simp, fun chosen he => ?_⟩
      cases he
      exact ⟨hallowed, by omega, rfl, none, by rw [hquota, maskOf_zero, length_scores]⟩
    -- Scores come from outside or not; what follows is the same.
    split at h₂
    · obtain ⟨outside, s₃, w₃, hout, h₃⟩ := bind_ran h₂
      obtain ⟨hkeeps, hwarn⟩ := outsideScores_ran hout
      obtain ⟨rfl, rfl, hchosen⟩ := scored_ran hallowed (by omega) h₃
      rw [hs₂] at hkeeps
      exact ⟨hkeeps, hwarn, hchosen⟩
    · obtain ⟨outside, s₃, w₃, hout, h₃⟩ := bind_ran h₂
      obtain ⟨rfl, hs₃⟩ := pure_ran hout
      obtain ⟨rfl, rfl, hchosen⟩ := scored_ran hallowed (by omega) h₃
      exact ⟨⟨by rw [hs₃, hs₂], by rw [hs₃, hs₂]⟩, by simp, hchosen⟩

/-! ## Pruning -/

/-- The answer that gives a text back as it was. -/
def unpruned (id text : String) (warnings : List Warning) (millis : Nat) : PruneResponse :=
  let count := (Lines.ofText text).lines.length
  { id, text, cuts := [], warnings, gaveBack := true
    stats := {
      total := count, kept := count, pruned := 0, prunedRatio := 0, kind := none
      reranked := false, cacheHit := false, elapsedMillis := millis } }

/-- The answer that leaves out what was chosen to go. -/
def pruned (id : String) (request : PruneRequest) (chosen : Chosen) (warnings : List Warning)
    (millis : Nat) : PruneResponse :=
  let whole := Lines.ofText request.text
  let count := whole.lines.length
  let cuts := Selection.cuts id whole.lines chosen.mask
  let gone := Selection.goneCount chosen.mask
  { id, cuts, warnings, gaveBack := false
    text := Lines.text ⟨Selection.outline request.options count 1 cuts
      (whole.lines.zip chosen.mask), whole.closed⟩
    stats := {
      total := count, kept := count - gone, pruned := gone
      prunedRatio := Selection.ratio gone count, kind := some chosen.kind
      reranked := chosen.reranked, cacheHit := chosen.cacheHit, elapsedMillis := millis } }

/-- The two shapes of an answer, each with the record that is left. -/
inductive Outcome (p : Pruner σ) (request : PruneRequest) (id : String) (now : Moment) :
    PruneResponse → PruneRecord → Prop where
  | refused (warnings : List Warning) (refusal : Refusal) (millis : Nat) :
    Outcome p request id now (unpruned id request.text (warnings ++ [refusal.warning]) millis)
      ⟨id, .ofText request.text, List.range' 1 (Lines.ofText request.text).lines.length, [], now,
        p.config.recordLife⟩
  | pruned (chosen : Chosen) (warnings : List Warning) (millis : Nat)
    (choice : Choice p.config request (Lines.ofText request.text).lines chosen)
    (sound : Selection.fault? request.options chosen.mask = none)
    (reranker : ∀ x ∈ warnings, x.code = rerankerFailed) :
    Outcome p request id now (Pruner.pruned id request chosen warnings millis)
      ⟨id, .ofText request.text, Selection.kept chosen.mask,
        Selection.cuts id (Lines.ofText request.text).lines chosen.mask, now, p.config.recordLife⟩

theorem millisSince_ran {start : Span} {millis : Nat}
    (h : exec (p.millisSince start) s w = ((millis, s'), w')) : s' = s := by
  obtain ⟨now, s₁, w₁, hnow, h₁⟩ := bind_ran h
  obtain ⟨-, rfl⟩ := lift_ran hnow
  exact (pure_ran h₁).2

theorem newId_ran {id : String} (h : exec newId s w = ((id, s'), w')) :
    id = pruneId s.next ∧ s' = { s with next := s.next + 1 } := by
  cases h
  exact ⟨rfl, rfl⟩

theorem leaveRecord_ran {id : String} {whole : Lines} {kept : List Nat} {cuts : List Cut}
    {u : Unit} (h : exec (p.leaveRecord id whole kept cuts) s w = ((u, s'), w')) :
    ∃ v, s'.next = s.next ∧ s'.records =
      s.records.insert ⟨id, whole, kept, cuts, (p.clock.now.run v).1, p.config.recordLife⟩
        (p.clock.now.run v).1 := by
  obtain ⟨now, s₁, w₁, hnow, h₁⟩ := bind_ran h
  obtain ⟨rfl, rfl⟩ := lift_ran hnow
  obtain rfl := modify_ran h₁
  exact ⟨w, rfl, rfl⟩

/-- A prune leaves a record of its outcome, made at a time that the clock told. -/
def Leaves (p : Pruner σ) (request : PruneRequest) (id : String) (s s' : PrunerState)
    (r : PruneResponse) : Prop :=
  ∃ record v, Outcome p request id (p.clock.now.run v).1 r record ∧ s'.next = s.next ∧
    s'.records = s.records.insert record (p.clock.now.run v).1

theorem giveBack_ran {id : String} {warnings : List Warning} {refusal : Refusal} {start : Span}
    {r : PruneResponse}
    (h : exec (p.giveBack id request.text (warnings ++ [refusal.warning]) start) s w =
      ((r, s'), w')) : Leaves p request id s s' r := by
  obtain ⟨u, s₁, w₁, hleave, h₁⟩ := bind_ran h
  obtain ⟨v, hnext, hrecords⟩ := leaveRecord_ran hleave
  obtain ⟨millis, s₂, w₂, hmillis, h₂⟩ := bind_ran h₁
  obtain rfl := millisSince_ran hmillis
  obtain ⟨hr, rfl⟩ := pure_ran h₂
  rw [hr]
  exact ⟨_, v, .refused warnings refusal millis, hnext, hrecords⟩

theorem prune_ran {r : PruneResponse} (h : exec (p.prune request) s w = ((r, s'), w')) :
    ∃ record v, Outcome p request (pruneId s.next) (p.clock.now.run v).1 r record ∧
      s'.next = s.next + 1 ∧ s'.records = s.records.insert record (p.clock.now.run v).1 := by
  unfold prune at h
  obtain ⟨start, s₁, w₁, hstart, h₁⟩ := bind_ran h
  obtain ⟨-, hs₁⟩ := lift_ran hstart
  obtain ⟨id, s₂, w₂, hid, h₂⟩ := bind_ran h₁
  obtain ⟨rfl, hs₂⟩ := newId_ran hid
  obtain ⟨⟨warnings, result⟩, s₃, w₃, hchoose, h₃⟩ := bind_ran h₂
  obtain ⟨⟨hrecords₃, hnext₃⟩, hwarn, hchoice⟩ := choose_ran hchoose
  have hleaves : Leaves p request (pruneId s₁.next) s₃ s' r := by
    cases result with
    | error refusal => exact giveBack_ran h₃
    | ok chosen =>
      simp only at h₃
      split at h₃
      · exact giveBack_ran h₃
      · rename_i hsound
        obtain ⟨late, s₄, w₄, hlate, h₄⟩ := bind_ran h₃
        obtain rfl := passed_ran hlate
        split at h₄
        · exact giveBack_ran h₄
        · obtain ⟨u, s₅, w₅, hleave, h₅⟩ := bind_ran h₄
          obtain ⟨v, hnext, hrecords⟩ := leaveRecord_ran hleave
          obtain ⟨millis, s₆, w₆, hmillis, h₆⟩ := bind_ran h₅
          obtain rfl := millisSince_ran hmillis
          obtain ⟨hr, rfl⟩ := pure_ran h₆
          rw [hr]
          exact ⟨_, v, .pruned chosen warnings millis (hchoice chosen rfl) hsound hwarn, hnext,
            hrecords⟩
  obtain ⟨record, v, hout, hnext, hrecords⟩ := hleaves
  rw [hs₁] at hout
  exact ⟨record, v, hout, by rw [hnext, hnext₃, hs₂, hs₁], by rw [hrecords, hrecords₃, hs₂, hs₁]⟩

end Pruner
end ContextBudget

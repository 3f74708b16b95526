import ContextBudget.Proofs.Prune.Contract

/-!
# What a prune comes to

A prune looks at the clock, and may ask for scores from outside. Where no look at the clock tells
that the deadline has passed, the answer is a function of the request, of the settings and of those
scores: `verdict`, put into words by `answerOf`.

- `passed_once`: one look at the clock.
- `choose_verdict`: what is chosen is the verdict, or the clock told the deadline.
- `prune_verdict`: so is the answer, and the cache is as it was or as the question for scores left
  it.
- `prune_answered`: an answer that leaves lines out leaves out those of the mask of the scores.
-/

namespace ContextBudget
namespace Pruner

open PrunerM

variable {σ : Type} {p : Pruner σ} {request : PruneRequest} {s s' : PrunerState} {w w' : σ}

/-! ## Looks at the clock -/

/-- The world after some looks at the clock of elapsed time. -/
def afterLooks (p : Pruner σ) (w : σ) : Nat → σ
  | 0 => w
  | looks + 1 => (p.clock.elapsed.run (p.afterLooks w looks)).2

/-- What the clock tells after some looks at it. -/
def told (p : Pruner σ) (w : σ) (looks : Nat) : Span :=
  (p.clock.elapsed.run (p.afterLooks w looks)).1

/-- The deadline of a prune that begins in a world. -/
def deadlineOf (p : Pruner σ) (request : PruneRequest) (w : σ) : Span :=
  p.told w 0 + request.options.timeout

/-- The milliseconds from the beginning of a prune to a last look at the clock. -/
def millisTold (p : Pruner σ) (w last : σ) : Nat :=
  Nat.min (((p.clock.elapsed.run last).1.sub (p.told w 0)).nanos / 1000000) Word.last

theorem passed_once (deadline : Span) :
    exec (p.passed deadline 1) s w =
      ((decide (deadline ≤ (p.clock.elapsed.run w).1), s), (p.clock.elapsed.run w).2) := by
  have hlook : exec (liftM p.clock.elapsed : PrunerM σ Span) s w =
      (((p.clock.elapsed.run w).1, s), (p.clock.elapsed.run w).2) := rfl
  rw [passed, exec_bind hlook]
  split
  · rename_i hlate
    rw [decide_eq_true hlate]
    rfl
  · rename_i hearly
    rw [decide_eq_false hearly]
    rfl

/-! ## Scores from outside -/

/-- How a prune asks for scores: it has taken its id and looked at the clock three times. -/
def asked (p : Pruner σ) (request : PruneRequest) (s : PrunerState) (w : σ) :
    (OutsideScores × PrunerState) × σ :=
  let lines := (Lines.ofText request.text).lines
  exec (p.outsideScores request lines (request.kind.resolve lines) (p.deadlineOf request w))
    { s with next := s.next + 1 } (p.afterLooks w 3)

/-- What a prune that comes to scoring gets from outside. -/
def outsideFor (p : Pruner σ) (request : PruneRequest) (s : PrunerState) (w : σ) : OutsideScores :=
  if request.options.rerank then (p.asked request s w).1.1 else ⟨none, false, []⟩

/-- The cache is as it was, or as the question for scores left it. -/
def KeepsCache (p : Pruner σ) (request : PruneRequest) (s : PrunerState) (w : σ)
    (cache : ScoreCache) : Prop :=
  cache = s.cache ∨ request.options.rerank = true ∧ cache = (p.asked request s w).1.2.cache

/-! ## The verdict -/

/-- What the scores of a text choose to go. -/
def chosenBy (config : PrunerConfig) (request : PruneRequest) (outside : OutsideScores) : Chosen :=
  let lines := (Lines.ofText request.text).lines
  let kind := request.kind.resolve lines
  let scores := Selection.scores lines (classify kind lines) (termsOf request.goal) outside.scores
  ⟨maskOf config request.options scores (Selection.quota request.options lines.length), kind,
    outside.scores.isSome, outside.cacheHit⟩

/-- What is to go from the text of a request, or why nothing can, whatever the time; the warnings
come with either. -/
def verdict (config : PrunerConfig) (request : PruneRequest) (outside : OutsideScores) :
    List Warning × Except Refusal Chosen :=
  let lines := (Lines.ofText request.text).lines
  let count := lines.length
  match refusal? config request count with
  | some refusal => ([], .error refusal)
  | none =>
    if count < request.options.minKeep then
      ([], .error (.tooFewLines count request.options.minKeep))
    else if Selection.quota request.options count = 0 then
      ([], .ok ⟨List.replicate count false, request.kind.resolve lines, false, false⟩)
    else (outside.warnings, .ok (chosenBy config request outside))

/-- The answer that a verdict comes to. -/
def answerOf (id : String) (request : PruneRequest) (millis : Nat) :
    List Warning × Except Refusal Chosen → PruneResponse
  | (warnings, .error refusal) =>
    unpruned id request.text (warnings ++ [refusal.warning]) millis
  | (warnings, .ok chosen) =>
    match Selection.fault? request.options chosen.mask with
    | some fault => unpruned id request.text (warnings ++ [(Refusal.unsound fault).warning]) millis
    | none => pruned id request chosen warnings millis

/-- The clock told the deadline of a prune on some look at it. -/
def TellsDeadline (p : Pruner σ) (request : PruneRequest) (w : σ) : Prop :=
  ∃ v, p.deadlineOf request w ≤ (p.clock.elapsed.run v).1

/-- What is chosen is the verdict, unless a look at the clock told the deadline. -/
theorem choose_verdict {warnings : List Warning} {result : Except Refusal Chosen}
    (h : exec (p.choose request (Lines.ofText request.text).lines (p.deadlineOf request w))
      { s with next := s.next + 1 } (p.afterLooks w 1) = (((warnings, result), s'), w')) :
    p.KeepsCache request s w s'.cache ∧
      (result = .error .late ∧ p.TellsDeadline request w ∨
        (warnings, result) = verdict p.config request (p.outsideFor request s w)) := by
  have settled : ∀ {pair : List Warning × Except Refusal Chosen} {v : σ},
      exec (pure pair : PrunerM σ (List Warning × Except Refusal Chosen))
        { s with next := s.next + 1 } v = (((warnings, result), s'), w') →
      p.KeepsCache request s w s'.cache ∧ (warnings, result) = pair := by
    intro pair v he
    obtain ⟨hpair, rfl⟩ := pure_ran he
    exact ⟨.inl rfl, hpair⟩
  unfold choose at h
  unfold verdict
  simp only at h ⊢
  cases hallowed : refusal? p.config request (Lines.ofText request.text).lines.length with
  | some refusal =>
    rw [hallowed] at h
    exact (settled h).imp_right .inr
  | none =>
    simp only [hallowed] at h
    rw [exec_bind (passed_once _)] at h
    split at h
    · rename_i hlate
      exact (settled h).imp_right fun hpair =>
        .inl ⟨(Prod.mk.inj hpair).2, p.afterLooks w 1, of_decide_eq_true hlate⟩
    by_cases hfew : (Lines.ofText request.text).lines.length < request.options.minKeep
    · rw [if_pos hfew] at h ⊢
      exact (settled h).imp_right .inr
    rw [if_neg hfew] at h ⊢
    rw [exec_bind (passed_once _)] at h
    split at h
    · rename_i hlate
      exact (settled h).imp_right fun hpair =>
        .inl ⟨(Prod.mk.inj hpair).2, p.afterLooks w 2, of_decide_eq_true hlate⟩
    by_cases hnone : Selection.quota request.options (Lines.ofText request.text).lines.length = 0
    · rw [if_pos hnone] at h ⊢
      exact (settled h).imp_right .inr
    rw [if_neg hnone] at h ⊢
    -- Scores come from outside or not; what follows is the same.
    split at h
    · rename_i hasks
      obtain ⟨outside, s₁, w₁, hout, h₁⟩ := bind_ran h
      obtain ⟨rfl, hpair⟩ := gated_ran h₁
      have hasked : p.asked request s w = ((outside, s'), w₁) := hout
      refine ⟨.inr ⟨hasks, by rw [hasked]⟩, hpair.imp (fun hlate =>
        ⟨(Prod.mk.inj hlate.1).2, hlate.2⟩) fun hpair => ?_⟩
      rw [hpair, outsideFor, if_pos hasks, hasked]
      rfl
    · rename_i hplain
      obtain ⟨outside, s₁, w₁, hout, h₁⟩ := bind_ran h
      obtain ⟨rfl, rfl⟩ := pure_ran hout
      obtain ⟨rfl, hpair⟩ := gated_ran h₁
      refine ⟨.inl rfl, hpair.imp (fun hlate => ⟨(Prod.mk.inj hlate.1).2, hlate.2⟩)
        fun hpair => ?_⟩
      rw [hpair, outsideFor, if_neg hplain]
      rfl

theorem millisSince_told {last : σ} {start : Span} {millis : Nat} (hstart : start = p.told w 0)
    (h : exec (p.millisSince start) s last = ((millis, s'), w')) :
    millis = p.millisTold w last ∧ s' = s := by
  obtain ⟨now, s₁, w₁, hnow, h₁⟩ := bind_ran h
  obtain ⟨rfl, rfl⟩ := lift_ran hnow
  obtain ⟨rfl, rfl⟩ := pure_ran h₁
  exact ⟨by rw [millisTold, hstart], rfl⟩

theorem giveBack_told {id text : String} {warnings : List Warning} {v : σ} {r : PruneResponse}
    (h : exec (p.giveBack id text warnings (p.told w 0)) s v = ((r, s'), w')) :
    s'.cache = s.cache ∧ ∃ last, r = unpruned id text warnings (p.millisTold w last) := by
  obtain ⟨u, s₁, w₁, hleave, h₁⟩ := bind_ran h
  obtain ⟨now, s₂, w₂, hnow, h₂⟩ := bind_ran hleave
  obtain ⟨-, rfl⟩ := lift_ran hnow
  obtain rfl := modify_ran h₂
  obtain ⟨millis, s₃, w₃, hmillis, h₃⟩ := bind_ran h₁
  obtain ⟨rfl, rfl⟩ := millisSince_told rfl hmillis
  obtain ⟨rfl, rfl⟩ := pure_ran h₃
  exact ⟨rfl, w₁, rfl⟩

/-- The answer of a prune in the time that the clock tells at its end. -/
def AnswersBy (p : Pruner σ) (request : PruneRequest) (s : PrunerState) (w : σ)
    (r : PruneResponse) (last : σ) : Prop :=
  (p.TellsDeadline request w ∧ ∃ warnings,
    r = unpruned (pruneId s.next) request.text (warnings ++ [Refusal.late.warning])
      (p.millisTold w last)) ∨
  r = answerOf (pruneId s.next) request (p.millisTold w last)
    (verdict p.config request (p.outsideFor request s w))

/-- A prune answers by the verdict on the scores that it gets from outside, or gives the text back
since a look at the clock told the deadline. -/
theorem prune_verdict {r : PruneResponse} (h : exec (p.prune request) s w = ((r, s'), w')) :
    p.KeepsCache request s w s'.cache ∧ ∃ last, p.AnswersBy request s w r last := by
  unfold prune at h
  have hstart : exec (liftM p.clock.elapsed : PrunerM σ Span) s w =
      ((p.told w 0, s), p.afterLooks w 1) := rfl
  have hid : exec (newId : PrunerM σ String) s (p.afterLooks w 1) =
      ((pruneId s.next, { s with next := s.next + 1 }), p.afterLooks w 1) := rfl
  rw [exec_bind hstart, exec_bind hid] at h
  obtain ⟨⟨warnings, result⟩, s₁, w₁, hchoose, h₁⟩ := bind_ran h
  obtain ⟨hcache, hpair⟩ := choose_verdict hchoose
  have given : ∀ {warnings : List Warning} {s₀ : PrunerState} {v : σ}, s₀ = s₁ →
      exec (p.giveBack (pruneId s.next) request.text warnings (p.told w 0)) s₀ v = ((r, s'), w') →
      p.KeepsCache request s w s'.cache ∧
        ∃ last, r = unpruned (pruneId s.next) request.text warnings (p.millisTold w last) := by
    rintro warnings s₀ v rfl hback
    obtain ⟨hsame, hr⟩ := giveBack_told hback
    exact ⟨by rwa [hsame], hr⟩
  cases result with
  | error refusal =>
    obtain ⟨hkept, last, hr⟩ := given rfl h₁
    refine ⟨hkept, last, ?_⟩
    rcases hpair with ⟨hlate, htold⟩ | hv
    · cases hlate
      exact .inl ⟨htold, warnings, hr⟩
    · exact .inr (by rw [← hv, answerOf, hr])
  | ok chosen =>
    have hv := hpair.resolve_left fun hlate => by cases hlate.1
    simp only at h₁
    split at h₁
    · rename_i fault hfault
      obtain ⟨hkept, last, hr⟩ := given rfl h₁
      exact ⟨hkept, last, .inr (by rw [← hv, answerOf, hfault, hr])⟩
    · rename_i hsound
      obtain ⟨late, s₂, w₂, hlate, h₂⟩ := bind_ran h₁
      have hs₂ := passed_ran hlate
      split at h₂
      · rename_i hyes
        obtain ⟨hkept, last, hr⟩ := given hs₂ h₂
        rw [hyes] at hlate
        exact ⟨hkept, last, .inl ⟨exists_of_passed hlate, warnings, hr⟩⟩
      · obtain ⟨u, s₃, w₃, hleave, h₃⟩ := bind_ran h₂
        obtain ⟨now, s₄, w₄, hnow, h₄⟩ := bind_ran hleave
        obtain ⟨-, rfl⟩ := lift_ran hnow
        obtain rfl := modify_ran h₄
        obtain ⟨millis, s₅, w₅, hmillis, h₅⟩ := bind_ran h₃
        obtain ⟨rfl, rfl⟩ := millisSince_told rfl hmillis
        obtain ⟨rfl, rfl⟩ := pure_ran h₅
        refine ⟨by rw [hs₂]; exact hcache, w₃, .inr ?_⟩
        rw [← hv, answerOf, hsound]
        rfl

/-! ## Warnings -/

theorem warnings_outsideFor : ∀ x ∈ (p.outsideFor request s w).warnings, x.code = rerankerFailed := by
  unfold outsideFor
  split
  · exact (outsideScores_ran rfl).2
  · simp

section Warnings

variable {config : PrunerConfig} {outside : OutsideScores} {warnings : List Warning}

theorem warnings_verdict {result : Except Refusal Chosen}
    (h : verdict config request outside = (warnings, result)) : warnings ⊆ outside.warnings := by
  simp only [verdict] at h
  split at h
  · cases h
    simp
  · split at h
    · cases h
      simp
    · split at h <;> cases h <;> simp

/-- A verdict that lets nothing go is about the limits of the pruner or about too few lines. -/
theorem verdict_error {refusal : Refusal}
    (h : verdict config request outside = (warnings, .error refusal)) :
    ¬ (refusal? config request (Lines.ofText request.text).lines.length = none ∧
        request.options.minKeep ≤ (Lines.ofText request.text).lines.length) ∧
      refusal ≠ .late ∧ ∀ fault, refusal ≠ .unsound fault := by
  simp only [verdict] at h
  split at h
  · rename_i hrefused
    cases h
    refine ⟨fun hboth => by simp [hrefused] at hboth, ?_⟩
    simp only [refusal?] at hrefused
    split at hrefused
    · cases hrefused
      simp
    · split_ifs at hrefused <;> cases hrefused <;> simp
  · split at h
    · rename_i hfew
      cases h
      exact ⟨fun hboth => by omega, by simp, by simp⟩
    · split at h <;> cases h

end Warnings

/-! ## Answers that leave lines out -/

/-- What is to go is what the scores choose, also where the quota is nothing and none are asked
for. -/
theorem verdict_ok {config : PrunerConfig} {outside : OutsideScores} {warnings : List Warning}
    {chosen : Chosen} (h : verdict config request outside = (warnings, .ok chosen)) :
    Choice config request (Lines.ofText request.text).lines chosen ∧
      chosen.mask = (chosenBy config request outside).mask ∧
      (Selection.quota request.options (Lines.ofText request.text).lines.length ≠ 0 →
        chosen.reranked = outside.scores.isSome) := by
  unfold verdict at h
  simp only at h
  cases hallowed : refusal? config request (Lines.ofText request.text).lines.length with
  | some refusal =>
    rw [hallowed] at h
    cases h
  | none =>
    simp only [hallowed] at h
    split at h
    · cases h
    · rename_i henough
      split at h
      · rename_i hnone
        cases h
        have hmask : List.replicate (Lines.ofText request.text).lines.length false =
            (chosenBy config request outside).mask := by
          simp only [chosenBy, hnone, maskOf_zero, length_scores]
        exact ⟨⟨hallowed, by omega, rfl, outside.scores, hmask⟩, hmask, absurd hnone⟩
      · cases h
        exact ⟨⟨hallowed, by omega, rfl, outside.scores, rfl⟩, rfl, fun _ => rfl⟩

/-- An answer that does not give the text back leaves out the lines of the mask of the scores. -/
theorem prune_answered {r : PruneResponse} (h : exec (p.prune request) s w = ((r, s'), w'))
    (hleft : r.gaveBack = false) :
    ∃ chosen, Choice p.config request (Lines.ofText request.text).lines chosen ∧
      chosen.mask = (chosenBy p.config request (p.outsideFor request s w)).mask ∧
      LeavesOut request r (Selection.gone chosen.mask) ∧
      (Selection.quota request.options (Lines.ofText request.text).lines.length ≠ 0 →
        r.stats.reranked = (p.outsideFor request s w).scores.isSome) := by
  obtain ⟨-, last, ⟨-, warnings, rfl⟩ | hr⟩ := prune_verdict h
  · cases hleft
  · rcases hv : verdict p.config request (p.outsideFor request s w) with ⟨warnings, refusal | chosen⟩
    · rw [hv] at hr
      subst hr
      cases hleft
    · obtain ⟨choice, hmask, hreranked⟩ := verdict_ok hv
      rw [hv, answerOf] at hr
      split at hr
      · subst hr
        cases hleft
      · subst hr
        exact ⟨chosen, choice, hmask, leavesOut_pruned choice.length_mask, hreranked⟩

/-! ## Clocks that stand still -/

/-- A clock that stands still does not come to a deadline that has not passed from the start. -/
theorem not_tellsDeadline_still {start : Span} (still : p.clock.elapsed = pure start)
    (inTime : 0 < request.options.timeoutMillis) : ¬ p.TellsDeadline request w := by
  rintro ⟨v, hv⟩
  rw [deadlineOf, told, still] at hv
  change start.nanos + request.options.timeoutMillis * 1000000 ≤ start.nanos at hv
  omega

/-- Nor does it warn of one. -/
theorem inTime_still {start : Span} (still : p.clock.elapsed = pure start)
    (inTime : 0 < request.options.timeoutMillis) :
    Refusal.late.warning ∉ (exec (p.prune request) s w).1.1.warnings := by
  have hreranker : ∀ {x : Warning}, x = Refusal.late.warning → x.code ≠ rerankerFailed := by
    rintro _ rfl
    decide
  rcases hrun : exec (p.prune request) s w with ⟨⟨r, s'⟩, w'⟩
  obtain ⟨-, last, ⟨hlate, -⟩ | hr⟩ := prune_verdict hrun
  · exact absurd hlate (not_tellsDeadline_still still inTime)
  · intro hmem
    rcases hv : verdict p.config request (p.outsideFor request s w) with ⟨warnings, refusal | chosen⟩
    all_goals
      have hfailed : ∀ x ∈ warnings, x.code = rerankerFailed :=
        fun x hx => warnings_outsideFor x (warnings_verdict hv hx)
      rw [hr, hv, answerOf] at hmem
    · rcases List.mem_append.mp hmem with hmem | hmem
      · exact hreranker rfl (hfailed _ hmem)
      · have hlate := List.mem_singleton.mp hmem
        obtain ⟨-, hnot, -⟩ := verdict_error hv
        cases refusal <;> simp_all [Refusal.warning]
    · split at hmem
      · rcases List.mem_append.mp hmem with hmem | hmem
        · exact hreranker rfl (hfailed _ hmem)
        · simp [Refusal.warning] at hmem
      · exact hreranker rfl (hfailed _ hmem)

/-- Where the clock stands still, a request that the limits allow is answered if its mask is
sound. -/
theorem answered_still {start : Span} (still : p.clock.elapsed = pure start)
    (inTime : 0 < request.options.timeoutMillis)
    (allowed : refusal? p.config request (Lines.ofText request.text).lines.length = none)
    (enough : request.options.minKeep ≤ (Lines.ofText request.text).lines.length)
    (sound : Selection.fault? request.options
      (chosenBy p.config request (p.outsideFor request s w)).mask = none) :
    (exec (p.prune request) s w).1.1.gaveBack = false := by
  rcases hrun : exec (p.prune request) s w with ⟨⟨r, s'⟩, w'⟩
  obtain ⟨-, last, ⟨hlate, -⟩ | hr⟩ := prune_verdict hrun
  · exact absurd hlate (not_tellsDeadline_still still inTime)
  · rcases hv : verdict p.config request (p.outsideFor request s w) with ⟨warnings, refusal | chosen⟩
    · -- The limits allow the request, and there are enough lines.
      rw [verdict] at hv
      simp only [allowed, if_neg (Nat.not_lt.mpr enough)] at hv
      split at hv <;> cases hv
    · obtain ⟨-, hmask, -⟩ := verdict_ok hv
      rw [hv, answerOf, hmask, sound] at hr
      rw [hr]
      rfl

end Pruner
end ContextBudget

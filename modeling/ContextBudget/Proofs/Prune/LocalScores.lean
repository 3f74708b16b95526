import ContextBudget.Proofs.Prune.Greedy

/-!
# When the reranker fails

A request that asks for scores from outside, and gets none, is answered as if it had not asked, with
a warning in front that tells what went wrong. The cache has no more entries than before.

- `FailsToScore`: the ways in which no scores come from outside, each with its warning.
- `Asks`, `asked_ran`: how a question for scores ends, and the cache after it.
- `asked_failed`: what a prune gets when it asks in vain.
- `verdict_failed`: the verdict without such scores is the local one.
- `prune_failed`: so is the answer.
-/

namespace ContextBudget

namespace ScoreCache

/-- Some scores under a key are still good. -/
def HasLive (c : ScoreCache) (key : ScoreKey) (now : Span) : Prop :=
  ∃ e ∈ c.entries, e.key = key ∧ now.sub e.since < c.life

/-- A look-up that misses at most drops an entry. -/
theorem get_of_not_hasLive {c : ScoreCache} {key : ScoreKey} {now : Span}
    (h : ¬ c.HasLive key now) :
    (c.get key now).1 = none ∧ (c.get key now).2.entries.Sublist c.entries := by
  unfold get
  cases hfind : c.entries.find? (·.key == key) with
  | none => exact ⟨rfl, .refl _⟩
  | some e =>
    have hdead : ¬ now.sub e.since < c.life := fun hlive =>
      h ⟨e, List.mem_of_find?_eq_some hfind, by simpa using List.find?_some hfind, hlive⟩
    simp only [if_neg hdead]
    exact ⟨trivial, List.filter_sublist⟩

end ScoreCache

/-- The request without the wish for scores from outside. -/
def PruneRequest.locally (request : PruneRequest) : PruneRequest :=
  { request with options := { request.options with rerank := false } }

namespace Pruner

open PrunerM Selection

variable {σ : Type} {p : Pruner σ} {config : PrunerConfig} {request : PruneRequest}
  {s s' : PrunerState} {w w' : σ} {detail : String}

/-! ## Asking in vain -/

/-- What the scores of a request are kept under. -/
def keyOf (request : PruneRequest) : ScoreKey :=
  let lines := (Lines.ofText request.text).lines
  .of request.text request.goal
    ((request.kind.resolve lines).text ++ ":" ++ Nat.repr lines.length)

/-- How long a prune waits for the reranker: it has looked at the clock four times. -/
def patience (p : Pruner σ) (request : PruneRequest) (w : σ) : Span :=
  p.config.rerankLimit.min ((p.deadlineOf request w).sub (p.told w 4))

/-- What a prune receives from a reranker while it waits. -/
def reply (p : Pruner σ) (reranker : Reranker σ) (request : PruneRequest) (w : σ) :
    Option (Except ServiceError (List Single)) :=
  ((reranker.score (Lines.ofText request.text).lines request.goal).run
    (p.afterLooks w 5)).1.within (p.patience request w)

/-- No scores come from outside, for a reason that is told. -/
inductive FailsToScore (p : Pruner σ) (request : PruneRequest) (w : σ) : String → Prop where
  | missing (h : p.reranker = none) : FailsToScore p request w "no reranker configured"
  | lengthy (reranker : Reranker σ) (h : p.reranker = some reranker)
    (hlines : p.config.maxRerankLines < (Lines.ofText request.text).lines.length) :
    FailsToScore p request w (Nat.repr (Lines.ofText request.text).lines.length
      ++ " lines exceeds max_rerank_lines=" ++ Nat.repr p.config.maxRerankLines)
  | hangs (reranker : Reranker σ) (h : p.reranker = some reranker)
    (hlines : ¬ p.config.maxRerankLines < (Lines.ofText request.text).lines.length)
    (hreply : p.reply reranker request w = none) :
    FailsToScore p request w (reranker.name ++ " timed out after " ++ (p.patience request w).text)
  | errs (reranker : Reranker σ) (error : ServiceError) (h : p.reranker = some reranker)
    (hlines : ¬ p.config.maxRerankLines < (Lines.ofText request.text).lines.length)
    (hreply : p.reply reranker request w = some (.error error)) :
    FailsToScore p request w (reranker.name ++ ": " ++ error.message)
  | miscounts (reranker : Reranker σ) (scores : List Single) (h : p.reranker = some reranker)
    (hlines : ¬ p.config.maxRerankLines < (Lines.ofText request.text).lines.length)
    (hreply : p.reply reranker request w = some (.ok scores))
    (hcount : scores.length ≠ (Lines.ofText request.text).lines.length) :
    FailsToScore p request w (reranker.name ++ " returned " ++ Nat.repr scores.length
      ++ " score(s) for " ++ Nat.repr (Lines.ofText request.text).lines.length ++ " line(s)")

/-- How a question for scores ends: what it gives, and the cache after it. -/
inductive Asks (p : Pruner σ) (request : PruneRequest) (cache : ScoreCache) (w : σ) :
    OutsideScores → ScoreCache → Prop where
  | missing (h : p.reranker = none) :
    Asks p request cache w (noScores "no reranker configured") cache
  | lengthy (reranker : Reranker σ) (h : p.reranker = some reranker)
    (hlines : p.config.maxRerankLines < (Lines.ofText request.text).lines.length) :
    Asks p request cache w (noScores (Nat.repr (Lines.ofText request.text).lines.length
      ++ " lines exceeds max_rerank_lines=" ++ Nat.repr p.config.maxRerankLines)) cache
  | found (reranker : Reranker σ) (scores : List Single) (h : p.reranker = some reranker)
    (hlines : ¬ p.config.maxRerankLines < (Lines.ofText request.text).lines.length)
    (hfound : (cache.get (keyOf request) (p.told w 3)).1 = some scores) :
    Asks p request cache w ⟨some scores, true, []⟩ (cache.get (keyOf request) (p.told w 3)).2
  | failed (reranker : Reranker σ) (detail : String) (h : p.reranker = some reranker)
    (hlines : ¬ p.config.maxRerankLines < (Lines.ofText request.text).lines.length)
    (hmiss : (cache.get (keyOf request) (p.told w 3)).1 = none)
    (hjudge : judge reranker.name (p.patience request w) (Lines.ofText request.text).lines.length
      (p.reply reranker request w) = .error detail) :
    Asks p request cache w (noScores detail) (cache.get (keyOf request) (p.told w 3)).2
  | scored (reranker : Reranker σ) (scores : List Single) (since : Span)
    (h : p.reranker = some reranker)
    (hlines : ¬ p.config.maxRerankLines < (Lines.ofText request.text).lines.length)
    (hmiss : (cache.get (keyOf request) (p.told w 3)).1 = none)
    (hjudge : judge reranker.name (p.patience request w) (Lines.ofText request.text).lines.length
      (p.reply reranker request w) = .ok scores) :
    Asks p request cache w ⟨some scores, false, []⟩
      ((cache.get (keyOf request) (p.told w 3)).2.put (keyOf request) scores since)

theorem asked_ran (p : Pruner σ) (request : PruneRequest) (s : PrunerState) (w : σ) :
    p.Asks request s.cache w (p.asked request s w).1.1 (p.asked request s w).1.2.cache := by
  rcases h : p.asked request s w with ⟨⟨out, s'⟩, w'⟩
  cases hreranker : p.reranker with
  | none =>
    simp only [asked, outsideScores, hreranker] at h
    obtain ⟨rfl, rfl⟩ := pure_ran h
    exact .missing hreranker
  | some reranker =>
    simp only [asked, outsideScores, hreranker] at h
    split at h
    · rename_i hlines
      obtain ⟨rfl, rfl⟩ := pure_ran h
      exact .lengthy reranker hreranker hlines
    · rename_i hlines
      obtain ⟨s₀, s₁, w₁, hget, h₁⟩ := bind_ran h
      cases hget
      obtain ⟨now, s₂, w₂, hnow, h₂⟩ := bind_ran h₁
      cases hnow
      obtain ⟨u, s₃, w₃, hmod, h₃⟩ := bind_ran h₂
      cases hmod
      split at h₃
      · rename_i scores hfound
        obtain ⟨rfl, rfl⟩ := pure_ran h₃
        exact .found reranker scores hreranker hlines hfound
      · rename_i hmiss
        obtain ⟨elapsed, s₄, w₄, hlook, h₄⟩ := bind_ran h₃
        cases hlook
        obtain ⟨given, s₅, w₅, hgiven, h₅⟩ := bind_ran h₄
        cases hgiven
        split at h₅
        · rename_i detail hjudge
          obtain ⟨rfl, rfl⟩ := pure_ran h₅
          exact .failed reranker detail hreranker hlines hmiss hjudge
        · rename_i scores hjudge
          obtain ⟨since, s₆, w₆, hsince, h₆⟩ := bind_ran h₅
          cases hsince
          obtain ⟨u, s₇, w₇, hput, h₇⟩ := bind_ran h₆
          cases hput
          obtain ⟨rfl, rfl⟩ := pure_ran h₇
          exact .scored reranker scores _ hreranker hlines hmiss hjudge

/-- The reranker that was asked gave nothing that counts. -/
theorem FailsToScore.judged (h : p.FailsToScore request w detail) {reranker : Reranker σ}
    (hreranker : p.reranker = some reranker)
    (hlines : ¬ p.config.maxRerankLines < (Lines.ofText request.text).lines.length) :
    judge reranker.name (p.patience request w) (Lines.ofText request.text).lines.length
      (p.reply reranker request w) = .error detail := by
  cases h with
  | missing h => cases hreranker.symm.trans h
  | lengthy _ _ hlong => exact absurd hlong hlines
  | hangs _ h _ hreply =>
    cases hreranker.symm.trans h
    rw [hreply]
    rfl
  | errs _ _ h _ hreply =>
    cases hreranker.symm.trans h
    rw [hreply]
    rfl
  | miscounts _ _ h _ hreply hcount =>
    cases hreranker.symm.trans h
    rw [hreply]
    exact if_neg hcount

/-- A prune that asks in vain gets a warning and no scores, and the cache gains no entry. -/
theorem asked_failed (h : p.FailsToScore request w detail)
    (hcache : ¬ s.cache.HasLive (keyOf request) (p.told w 3)) :
    (p.asked request s w).1.1 = noScores detail ∧
      (p.asked request s w).1.2.cache.entries.Sublist s.cache.entries := by
  obtain ⟨hmiss, hsub⟩ := ScoreCache.get_of_not_hasLive hcache
  have hran := asked_ran p request s w
  generalize (p.asked request s w).1.1 = out, (p.asked request s w).1.2.cache = after at hran ⊢
  cases hran with
  | missing hnone =>
    cases h with
    | missing => exact ⟨rfl, .refl _⟩
    | _ => simp_all
  | lengthy reranker hreranker hlong =>
    cases h with
    | missing hnone => cases hreranker.symm.trans hnone
    | lengthy => exact ⟨rfl, .refl _⟩
    | _ => contradiction
  | found reranker scores hreranker hlines hfound => cases hmiss.symm.trans hfound
  | failed reranker detail' hreranker hlines hmiss hjudge =>
    rw [Except.error.inj (hjudge.symm.trans (h.judged hreranker hlines))]
    exact ⟨rfl, hsub⟩
  | scored reranker scores since hreranker hlines hmiss hjudge =>
    cases hjudge.symm.trans (h.judged hreranker hlines)

/-! ## The local answer -/

theorem verdict_locally (outside : OutsideScores) :
    verdict config request.locally outside = verdict config request outside := rfl

theorem mask_locally (outside : OutsideScores) :
    (chosenBy config request.locally outside).mask = (chosenBy config request outside).mask := rfl

/-- What is left of a text looks the same under options that write lines and markers alike. -/
theorem outline_congr {options other : PruneOptions} {count number : Nat} {cuts : List Cut}
    {lines : List (String × Bool)} (hnumber : options.numberLines = other.numberLines)
    (hmarkers : options.markers = other.markers) :
    outline options count number cuts lines = outline other count number cuts lines := by
  induction lines generalizing number cuts with
  | nil => rfl
  | cons x rest ih =>
    obtain ⟨line, _ | _⟩ := x
    · simp only [outline, hnumber, ih]
    · cases cuts <;> simp only [outline, hmarkers, ih]

theorem pruned_locally {id : String} {chosen : Chosen} {warnings : List Warning} {millis : Nat} :
    pruned id request.locally chosen warnings millis = pruned id request chosen warnings millis := by
  have houtline : ∀ count cuts lines,
      outline request.locally.options count 1 cuts lines = outline request.options count 1 cuts lines :=
    fun _ _ _ => outline_congr rfl rfl
  simp only [pruned, houtline]
  rfl

theorem answerOf_locally {id : String} {millis : Nat}
    {pair : List Warning × Except Refusal Chosen} :
    answerOf id request.locally millis pair = answerOf id request millis pair := by
  obtain ⟨warnings, refusal | chosen⟩ := pair
  · rfl
  · simp only [answerOf, pruned_locally]
    rfl

/-- A prune that is not late comes to the scoring of the lines. -/
def comesToScoring (config : PrunerConfig) (request : PruneRequest) : Bool :=
  let count := (Lines.ofText request.text).lines.length
  (refusal? config request count).isNone && decide (request.options.minKeep ≤ count) &&
    decide (quota request.options count ≠ 0)

/-- The warnings of a prune that asks in vain, if it comes to asking. -/
def failureWarnings (config : PrunerConfig) (request : PruneRequest) (detail : String) :
    List Warning :=
  if comesToScoring config request then [⟨rerankerFailed, detail⟩] else []

/-- Without scores from outside the verdict is the local one, with a warning in front. -/
theorem verdict_failed :
    verdict config request (noScores detail) =
      (failureWarnings config request detail ++ (verdict config request ⟨none, false, []⟩).1,
        (verdict config request ⟨none, false, []⟩).2) := by
  simp only [verdict, failureWarnings, comesToScoring]
  rcases Option.eq_none_or_eq_some (refusal? config request (Lines.ofText request.text).lines.length)
    with hallowed | ⟨refusal, hallowed⟩
  · by_cases hfew : (Lines.ofText request.text).lines.length < request.options.minKeep
    · simp [hallowed, hfew]
    · by_cases hquota : quota request.options (Lines.ofText request.text).lines.length = 0
      · simp [hallowed, hfew, hquota]
      · have henough : request.options.minKeep ≤ (Lines.ofText request.text).lines.length := by
          omega
        simp [hallowed, hfew, hquota, henough, noScores, chosenBy, rerankerFailed]
  · simp [hallowed]

/-- More warnings in front, and another time, change nothing else in an answer. -/
theorem answerOf_append (id : String) (request : PruneRequest) (millis millis' : Nat)
    (failed warnings : List Warning) (result : Except Refusal Chosen) :
    answerOf id request millis (failed ++ warnings, result) =
      let r := answerOf id request millis' (warnings, result)
      { r with warnings := failed ++ r.warnings, stats.elapsedMillis := millis } := by
  cases result with
  | error refusal => simp [answerOf, unpruned]
  | ok chosen =>
    simp only [answerOf]
    split
    · simp [unpruned]
    · simp [pruned]

theorem elapsedMillis_answerOf (id : String) (request : PruneRequest) (millis : Nat)
    (pair : List Warning × Except Refusal Chosen) :
    (answerOf id request millis pair).stats.elapsedMillis = millis := by
  obtain ⟨warnings, refusal | chosen⟩ := pair
  · rfl
  · simp only [answerOf]
    split <;> rfl

theorem millisTold_still {start : Span} (still : p.clock.elapsed = pure start) (last : σ) :
    p.millisTold w last = 0 := by
  rw [millisTold, told, still]
  change Nat.min ((start.nanos - start.nanos) / 1000000) Word.last = 0
  simp

/-- An answer that does not warn of the deadline is the one of the verdict. -/
theorem answerOf_of_inTime {r : PruneResponse} (h : exec (p.prune request) s w = ((r, s'), w'))
    (hinTime : Refusal.late.warning ∉ r.warnings) :
    ∃ last, r = answerOf (pruneId s.next) request (p.millisTold w last)
      (verdict p.config request (p.outsideFor request s w)) := by
  obtain ⟨-, last, ⟨-, warnings, rfl⟩ | hr⟩ := prune_verdict h
  · exact absurd (List.mem_append_right _ (List.mem_singleton_self _)) hinTime
  · exact ⟨last, hr⟩

/-- A prune that asks for scores in vain is answered like one that does not ask, if neither is late:
only a warning is added in front, and the time may differ, unless the clock stands still. The cache
gains no entry. -/
theorem prune_failed (p : Pruner σ) (request : PruneRequest) (s t : PrunerState) (w v : σ)
    (detail : String) (hasks : request.options.rerank = true) (hid : t.next = s.next)
    (hcache : ¬ s.cache.HasLive (keyOf request) (p.told w 3))
    (hfails : p.FailsToScore request w detail)
    (hinTime : Refusal.late.warning ∉ (exec (p.prune request) s w).1.1.warnings)
    (hlocally : Refusal.late.warning ∉ (exec (p.prune request.locally) t v).1.1.warnings) :
    let r := (exec (p.prune request) s w).1.1
    let other := (exec (p.prune request.locally) t v).1.1
    r = { other with
      warnings := failureWarnings p.config request detail ++ other.warnings
      stats.elapsedMillis := r.stats.elapsedMillis } ∧
    (∀ start, p.clock.elapsed = pure start →
      r.stats.elapsedMillis = other.stats.elapsedMillis) ∧
    (exec (p.prune request) s w).1.2.cache.entries.Sublist s.cache.entries := by
  obtain ⟨hvain, hsub⟩ := asked_failed hfails hcache
  have hout : p.outsideFor request s w = noScores detail := by
    rw [outsideFor, if_pos hasks, hvain]
  rcases hr : exec (p.prune request) s w with ⟨⟨r, s'⟩, w'⟩
  rcases ho : exec (p.prune request.locally) t v with ⟨⟨other, t'⟩, v'⟩
  rw [hr] at hinTime
  rw [ho] at hlocally
  obtain ⟨last, hanswer⟩ := answerOf_of_inTime hr hinTime
  obtain ⟨last', hother⟩ := answerOf_of_inTime ho hlocally
  have hlocal : p.outsideFor request.locally t v = ⟨none, false, []⟩ := if_neg Bool.false_ne_true
  rw [hout, verdict_failed] at hanswer
  rw [hlocal, verdict_locally, answerOf_locally, hid] at hother
  have hmillis : r.stats.elapsedMillis = p.millisTold w last := by
    rw [hanswer, elapsedMillis_answerOf]
  have hmillis' : other.stats.elapsedMillis = p.millisTold v last' := by
    rw [hother, elapsedMillis_answerOf]
  refine ⟨?_, fun start still => ?_, ?_⟩
  · change r = _
    rw [hmillis, hother]
    exact hanswer.trans (answerOf_append _ _ _ _ _ _ _)
  · rw [hmillis, hmillis', millisTold_still still, millisTold_still still]
  · rcases (prune_verdict hr).1 with hkept | ⟨-, hkept⟩
    · rw [hkept]
    · rw [hkept]
      exact hsub

theorem inTime_of_answered (h : (exec (p.prune request) s w).1.1.gaveBack = false) :
    Refusal.late.warning ∉ (exec (p.prune request) s w).1.1.warnings := by
  rcases hr : exec (p.prune request) s w with ⟨⟨r, s'⟩, w'⟩
  rw [hr] at h
  obtain ⟨record, v, hout, -⟩ := prune_ran hr
  cases hout with
  | refused => cases h
  | pruned chosen warnings millis choice sound reranker =>
    intro hlate
    exact absurd (reranker _ hlate) (by decide)

/-- A reranker that turns all calls away, with clocks that never move. -/
def throttled : Pruner Unit where
  config := .standard
  reranker := some ⟨"reranker", fun _ _ => pure (.failure (.throttled "slow down"))⟩
  clock := ⟨pure ⟨0, 0⟩, pure .zero⟩

/-- Half of the lines of a document may go, by scores from outside. -/
def asking : PruneRequest := { scattered with options := { scattered.options with rerank := true } }

theorem asking_locally : asking.locally = scattered := by
  simp only [PruneRequest.locally, asking, scattered]

/-- Without scores from outside the request is answered, whether it asks for them or not. -/
theorem answered_throttled {request : PruneRequest} (h : request.locally = scattered)
    (hscores : (throttled.outsideFor request (.fresh .standard 0) ()).scores = none) :
    (exec (throttled.prune request) (.fresh .standard 0) ()).1.1.gaveBack = false := by
  have hmask : (chosenBy .standard request (throttled.outsideFor request (.fresh .standard 0)
      ())).mask = [false, false, false, true, true, false] := by
    rw [← mask_scattered, ← h, mask_locally]
    simp only [chosenBy, hscores]
  have hallowed : refusal? .standard scattered (Lines.ofText scattered.text).lines.length = none := by
    decide +kernel
  have hsound : fault? scattered.options [false, false, false, true, true, false] = none := by
    decide +kernel
  have hinTime : 0 < scattered.options.timeoutMillis := by decide
  have henough : scattered.options.minKeep ≤ (Lines.ofText scattered.text).lines.length :=
    Nat.zero_le _
  rw [← h] at hallowed hsound hinTime henough
  exact answered_still (p := throttled) rfl hinTime hallowed henough
    (by rw [← hsound, ← hmask]; rfl)

/-- The lines are scored as if there were no reranker, and the answer tells why. -/
theorem prune_failed_asking :
    asking.options.rerank = true ∧
    ¬ (PrunerState.fresh .standard 0).cache.HasLive (keyOf asking) (throttled.told () 3) ∧
    throttled.FailsToScore asking () "reranker: rate limited: slow down" ∧
    Refusal.late.warning ∉
      (exec (throttled.prune asking) (.fresh .standard 0) ()).1.1.warnings ∧
    Refusal.late.warning ∉
      (exec (throttled.prune asking.locally) (.fresh .standard 0) ()).1.1.warnings ∧
    let r := (exec (throttled.prune asking) (.fresh .standard 0) ()).1.1
    let other := (exec (throttled.prune asking.locally) (.fresh .standard 0) ()).1.1
    r = { other with
      warnings := failureWarnings throttled.config asking "reranker: rate limited: slow down" ++
        other.warnings
      stats.elapsedMillis := r.stats.elapsedMillis } ∧
    (∀ start, throttled.clock.elapsed = pure start →
      r.stats.elapsedMillis = other.stats.elapsedMillis) ∧
    (exec (throttled.prune asking) (.fresh .standard 0) ()).1.2.cache.entries.Sublist
      (PrunerState.fresh .standard 0).cache.entries := by
  have hcache : ¬ (PrunerState.fresh .standard 0).cache.HasLive (keyOf asking)
      (throttled.told () 3) := by
    rintro ⟨e, he, -⟩
    cases he
  have hlines : ¬ throttled.config.maxRerankLines < (Lines.ofText asking.text).lines.length := by
    decide +kernel
  have hfails : throttled.FailsToScore asking () "reranker: rate limited: slow down" :=
    .errs _ _ rfl hlines rfl
  have hinTime := inTime_of_answered (answered_throttled asking_locally rfl)
  have hlocally : Refusal.late.warning ∉
      (exec (throttled.prune asking.locally) (.fresh .standard 0) ()).1.1.warnings := by
    rw [asking_locally]
    exact inTime_of_answered (answered_throttled (by simp only [PruneRequest.locally, scattered]) rfl)
  exact ⟨rfl, hcache, hfails, hinTime, hlocally,
    prune_failed throttled asking _ _ () () _ rfl rfl hcache hfails hinTime hlocally⟩

end Pruner
end ContextBudget

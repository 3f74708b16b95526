import ContextBudget.Proofs.Prune.LocalScores
import ContextBudget.Proofs.Prune.Recovery
import ContextBudget.Proofs.Prune.Redundant

/-!
# Scores from the cache

Scores are kept under the id of their text, the goal, and the kind and the number of the lines. If a
reranker goes by the lines and the goal alone, and no two texts share an id, then scores that are
found are those it would give again, so that nobody can tell a cache from a reranker that is asked
every time. Even if texts do share an id, the scores that are found are as many as the lines.

- `mem_put`, `mem_asked_cache`, `mem_prune_cache`: every entry was there before, or came with scores
  that counted.
- `length_asked`: there are as many scores as lines.
- `Pruner.worth`, `asked_eq_worth`: what a question for scores gives is what the reranker says.
- `PruneResponse.retold`, `answerOf_retold`: an answer under another id.
- `Pruner.compare`, `prune_cached`: the answers with a cache and without one.
-/

namespace ContextBudget

/-! ## Entries -/

namespace ScoreCache

variable {c : ScoreCache} {key : ScoreKey} {scores : List Single} {now since : Span}
  {e : ScoreEntry}

/-- Scores that are found are those of an entry under the key. -/
theorem exists_of_get (h : (c.get key now).1 = some scores) :
    ∃ e ∈ c.entries, e.key = key ∧ e.scores = scores := by
  unfold get at h
  split at h
  · rename_i e hfind
    split at h
    · cases h
      exact ⟨e, List.mem_of_find?_eq_some hfind, by simpa using List.find?_some hfind, rfl⟩
    · cases h
  · cases h

/-- Nothing is found if no entry is good for any time. -/
theorem get_of_life_zero (h : c.life = .zero) (key : ScoreKey) (now : Span) :
    (c.get key now).1 = none := by
  have hnever : ∀ span : Span, ¬ span < .zero := fun span => Nat.not_lt_zero span.nanos
  unfold get
  split
  · rw [h, if_neg (hnever _)]
  · rfl

theorem mem_get (h : e ∈ (c.get key now).2.entries) : e ∈ c.entries := by
  unfold get at h
  split at h
  · split at h
    · exact h
    · exact List.mem_of_mem_filter h
  · exact h

@[simp] theorem life_get (c : ScoreCache) (key : ScoreKey) (now : Span) :
    (c.get key now).2.life = c.life := by
  unfold get
  split
  · split <;> rfl
  · rfl

/-- An entry was there before, or is the one that was put in. -/
theorem mem_put (h : e ∈ (c.put key scores since).entries) :
    e ∈ c.entries ∨ e = ⟨key, scores, since⟩ := by
  simp only [put, List.mem_append, List.mem_singleton] at h
  refine h.imp_left fun h => ?_
  have hleft := List.mem_of_mem_filter h
  split at hleft
  · split at hleft
    · exact List.mem_of_mem_filter hleft
    · exact hleft
  · exact hleft

@[simp] theorem life_put (c : ScoreCache) (key : ScoreKey) (scores : List Single) (since : Span) :
    (c.put key scores since).life = c.life := by
  simp only [put]
  split
  · split <;> rfl
  · rfl

end ScoreCache

namespace Pruner

open PrunerM Selection

variable {σ : Type} {p : Pruner σ} {request : PruneRequest} {s : PrunerState} {w : σ}
  {e : ScoreEntry}

/-- The entry holds scores that came for a request and counted. -/
def Gained (p : Pruner σ) (request : PruneRequest) (w : σ) (e : ScoreEntry) : Prop :=
  e.key = keyOf request ∧ ∃ reranker, p.reranker = some reranker ∧
    ¬ p.config.maxRerankLines < (Lines.ofText request.text).lines.length ∧
    judge reranker.name (p.patience request w) (Lines.ofText request.text).lines.length
      (p.reply reranker request w) = .ok e.scores

theorem mem_asked_cache (h : e ∈ (p.asked request s w).1.2.cache.entries) :
    e ∈ s.cache.entries ∨ p.Gained request w e := by
  have hran := asked_ran p request s w
  generalize (p.asked request s w).1.1 = out, (p.asked request s w).1.2.cache = after at hran h
  cases hran with
  | missing => exact .inl h
  | lengthy => exact .inl h
  | found => exact .inl (ScoreCache.mem_get h)
  | failed => exact .inl (ScoreCache.mem_get h)
  | scored reranker scores since hreranker hlines hmiss hjudge =>
    rcases ScoreCache.mem_put h with h | rfl
    · exact .inl (ScoreCache.mem_get h)
    · exact .inr ⟨rfl, reranker, hreranker, hlines, hjudge⟩

/-- Every entry was there before a prune, or came with it. -/
theorem mem_prune_cache (h : e ∈ (exec (p.prune request) s w).1.2.cache.entries) :
    e ∈ s.cache.entries ∨ p.Gained request w e := by
  rcases hr : exec (p.prune request) s w with ⟨⟨r, s'⟩, w'⟩
  rw [hr] at h
  rcases (prune_verdict hr).1 with hsame | ⟨-, hasked⟩
  · exact .inl (hsame ▸ h)
  · exact mem_asked_cache (hasked ▸ h)

theorem life_prune : (exec (p.prune request) s w).1.2.cache.life = s.cache.life := by
  have hasked : (p.asked request s w).1.2.cache.life = s.cache.life := by
    have hran := asked_ran p request s w
    generalize (p.asked request s w).1.1 = out, (p.asked request s w).1.2.cache = after at hran ⊢
    cases hran <;> simp
  rcases hr : exec (p.prune request) s w with ⟨⟨r, s'⟩, w'⟩
  rcases (prune_verdict hr).1 with hsame | ⟨-, hafter⟩
  · exact congrArg ScoreCache.life hsame
  · exact (congrArg ScoreCache.life hafter).trans hasked

theorem next_prune : (exec (p.prune request) s w).1.2.next = s.next + 1 := by
  rcases hr : exec (p.prune request) s w with ⟨⟨r, s'⟩, w'⟩
  obtain ⟨-, -, -, hnext, -⟩ := prune_ran hr
  exact hnext

theorem cache_passThrough {text : String} {warning : Warning} :
    (exec (p.passThrough text warning) s w).1.2.cache = s.cache := by
  rcases hr : exec (p.passThrough text warning) s w with ⟨⟨r, s'⟩, w'⟩
  obtain ⟨id, s₁, w₁, hid, h₁⟩ := bind_ran hr
  cases hid
  obtain ⟨start, s₂, w₂, hstart, h₂⟩ := bind_ran h₁
  cases hstart
  exact (giveBack_told h₂).1

/-! ## As many scores as lines -/

theorem judge_eq_ok {name : String} {limit : Span} {count : Nat} {scores : List Single}
    {reply : Option (Except ServiceError (List Single))} :
    judge name limit count reply = .ok scores ↔
      reply = some (.ok scores) ∧ scores.length = count := by
  rcases reply with _ | _ | given
  · simp [judge]
  · simp [judge]
  · by_cases hcount : given.length = count
    · simp only [judge, if_pos hcount, Except.ok.injEq, Option.some.injEq]
      refine ⟨?_, And.left⟩
      rintro rfl
      exact ⟨rfl, hcount⟩
    · simp only [judge, if_neg hcount, reduceCtorEq, Option.some.injEq, Except.ok.injEq, false_iff]
      rintro ⟨rfl, h⟩
      exact hcount h

/-- The context of a key tells the number of the lines. -/
theorem count_of_context {kind other : SourceKind} {m n : Nat}
    (h : kind.text ++ ":" ++ Nat.repr m = other.text ++ ":" ++ Nat.repr n) : m = n := by
  have hdigits : Nat.toDigits 10 m = Nat.toDigits 10 n := by
    have hchars := congrArg String.toList h
    cases kind <;> cases other <;> simp [SourceKind.text] at hchars <;> exact hchars
  calc
    m = Nat.ofDigitChars 10 (Nat.toDigits 10 m) 0 :=
      (Nat.ofDigitChars_toDigits (by decide) (by decide)).symm
    _ = Nat.ofDigitChars 10 (Nat.toDigits 10 n) 0 := by rw [hdigits]
    _ = n := Nat.ofDigitChars_toDigits (by decide) (by decide)

/-- Scores are kept under keys that tell how many they are. -/
def Sized (c : ScoreCache) : Prop :=
  ∀ e ∈ c.entries, ∃ request : PruneRequest, e.key = keyOf request ∧
    e.scores.length = (Lines.ofText request.text).lines.length

theorem Reached.sized {first : Nat} (h : Reached p first s) : Sized s.cache := by
  induction h with
  | new =>
    intro e he
    cases he
  | prune request w h ih =>
    intro e he
    rcases mem_prune_cache he with he | ⟨hkey, reranker, -, -, hjudge⟩
    · exact ih e he
    · exact ⟨request, hkey, (judge_eq_ok.mp hjudge).2⟩
  | passThrough text warning w h ih =>
    rw [cache_passThrough]
    exact ih

/-- There are as many scores from outside as lines, whatever texts share an id. -/
theorem length_asked (h : Sized s.cache) {given : List Single}
    (hgiven : (p.asked request s w).1.1.scores = some given) :
    given.length = (Lines.ofText request.text).lines.length := by
  have hran := asked_ran p request s w
  generalize (p.asked request s w).1.1 = out, (p.asked request s w).1.2.cache = after at hran hgiven
  cases hran with
  | missing => cases hgiven
  | lengthy => cases hgiven
  | failed => cases hgiven
  | found reranker scores hreranker hlines hfound =>
    cases hgiven
    obtain ⟨e, he, hkey, rfl⟩ := ScoreCache.exists_of_get hfound
    obtain ⟨past, hpast, hlength⟩ := h e he
    rw [hlength]
    exact count_of_context (congrArg ScoreKey.context (hpast.symm.trans hkey))
  | scored reranker scores since hreranker hlines hmiss hjudge =>
    cases hgiven
    exact (judge_eq_ok.mp hjudge).2

/-! ## What the reranker says -/

/-- The reranker, if there is one, answers a request in time, and goes by the lines and the goal
alone. -/
def AnswersAs (p : Pruner σ) (f : List String → String → Except ServiceError (List Single))
    (request : PruneRequest) (w : σ) : Prop :=
  ∀ reranker, p.reranker = some reranker →
    p.reply reranker request w = some (f (Lines.ofText request.text).lines request.goal)

/-- What a question for scores gives, found in the cache or not, if the reranker goes by the lines
and the goal alone. -/
def worth (p : Pruner σ) (f : List String → String → Except ServiceError (List Single))
    (request : PruneRequest) (found : Bool) : OutsideScores :=
  let lines := (Lines.ofText request.text).lines
  match p.reranker with
  | none => noScores "no reranker configured"
  | some reranker =>
    if p.config.maxRerankLines < lines.length then
      noScores (Nat.repr lines.length ++ " lines exceeds max_rerank_lines="
        ++ Nat.repr p.config.maxRerankLines)
    else
      match judge reranker.name .zero lines.length (some (f lines request.goal)) with
      | .error detail => noScores detail
      | .ok scores => ⟨some scores, found, []⟩

variable {f : List String → String → Except ServiceError (List Single)}

/-- What comes in time is judged whatever the limit. -/
theorem judge_some (name : String) (limit other : Span) (count : Nat)
    (answer : Except ServiceError (List Single)) :
    judge name limit count (some answer) = judge name other count (some answer) := by
  cases answer <;> rfl

theorem worth_congr {other : PruneRequest} (htext : request.text = other.text)
    (hgoal : request.goal = other.goal) (found : Bool) :
    p.worth f request found = p.worth f other found := by
  rw [worth, worth, htext, hgoal]

/-- What is found in the cache or not differs in nothing else. -/
theorem worth_found (p : Pruner σ)
    (f : List String → String → Except ServiceError (List Single)) (request : PruneRequest)
    (found : Bool) :
    (p.worth f request found).scores = (p.worth f request false).scores ∧
      (p.worth f request found).warnings = (p.worth f request false).warnings ∧
      (p.worth f request false).cacheHit = false := by
  unfold worth
  dsimp only
  split
  · exact ⟨rfl, rfl, rfl⟩
  · split
    · exact ⟨rfl, rfl, rfl⟩
    · split <;> exact ⟨rfl, rfl, rfl⟩

theorem Gained.worth (h : p.Gained request w e) (hf : p.AnswersAs f request w) :
    p.worth f request true = ⟨some e.scores, true, []⟩ := by
  obtain ⟨-, reranker, hreranker, hlines, hjudge⟩ := h
  rw [hf reranker hreranker, judge_some _ _ .zero] at hjudge
  simp only [Pruner.worth, hreranker, if_neg hlines, hjudge]

/-- A question for scores gives what the reranker says, if what is found under its key is that. -/
theorem asked_eq_worth (hf : p.AnswersAs f request w)
    (hcache : ∀ scores, (s.cache.get (keyOf request) (p.told w 3)).1 = some scores →
      p.worth f request true = ⟨some scores, true, []⟩) :
    (p.asked request s w).1.1 =
      p.worth f request (s.cache.get (keyOf request) (p.told w 3)).1.isSome := by
  have hran := asked_ran p request s w
  generalize (p.asked request s w).1.1 = out, (p.asked request s w).1.2.cache = after at hran ⊢
  cases hran with
  | missing h => simp only [worth, h]
  | lengthy reranker h hlines => simp only [worth, h, if_pos hlines]
  | found reranker scores h hlines hfound =>
    rw [hfound]
    exact (hcache scores hfound).symm
  | failed reranker detail h hlines hmiss hjudge =>
    rw [hf reranker h, judge_some _ _ .zero] at hjudge
    simp only [worth, h, if_neg hlines, hjudge]
  | scored reranker scores since h hlines hmiss hjudge =>
    rw [hf reranker h, judge_some _ _ .zero] at hjudge
    simp only [worth, h, if_neg hlines, hjudge, hmiss, Option.isSome_none]

end Pruner

/-! ## Answers under other ids -/

/-- The cut with the marker that it has under another id. -/
def Cut.under (id : String) (c : Cut) : Cut :=
  { c with marker := Cut.markerText id c.first c.last c.count c.reason }

/-- An answer as it is at another time, with scores from the cache or not. -/
def PruneResponse.atTime (r : PruneResponse) (millis : Nat) (found : Bool) : PruneResponse :=
  { r with stats := { r.stats with elapsedMillis := millis, cacheHit := found } }

/-- An answer to a request as it is under another id, at another time, with scores from the cache or
not. -/
def PruneResponse.retold (r : PruneResponse) (request : PruneRequest) (id : String) (millis : Nat)
    (found : Bool) : PruneResponse :=
  let whole := Lines.ofText request.text
  let cuts := r.cuts.map (·.under id)
  { r.atTime millis found with
    id, cuts
    text := if r.gaveBack then r.text
      else Lines.text ⟨Selection.layout request.options
        (r.cuts.flatMap fun c => List.range' c.first c.count) cuts whole.lines, whole.closed⟩ }

namespace Selection

theorem cuts_under (id other : String) (lines : List String) (mask : List Bool) :
    (cuts id lines mask).map (·.under other) = cuts other lines mask := by
  simp only [cuts, List.map_map]
  rfl

/-- The layout of lines goes by which of them are gone, in whatever order they are listed. -/
theorem layout_congr {options : PruneOptions} {numbers others : List Nat} {cuts : List Cut}
    {lines : List String} (h : ∀ k, k ∈ numbers ↔ k ∈ others) :
    layout options numbers cuts lines = layout options others cuts lines := by
  refine List.flatMap_congr fun x _ => ?_
  simp only [h]

/-- The lines that go are those of the cuts. -/
theorem mem_gone_iff_mem_cuts (id : String) {lines : List String} {mask : List Bool}
    (h : mask.length = lines.length) (k : Nat) :
    k ∈ gone mask ↔ k ∈ (cuts id lines mask).flatMap fun c => List.range' c.first c.count := by
  rw [mem_gone_iff id h, List.mem_flatMap]
  refine exists_congr fun c => and_congr_right fun hc => ?_
  obtain ⟨-, hle, hcount, -⟩ := cut_wellFormed hc
  rw [List.mem_range'_1]
  omega

end Selection

namespace Pruner

open PrunerM Selection

theorem pruned_retold {request : PruneRequest} {chosen : Chosen}
    (h : chosen.mask.length = (Lines.ofText request.text).lines.length) (id other : String)
    (warnings : List Warning) (millis later : Nat) (found : Bool) :
    pruned id request { chosen with cacheHit := found } warnings millis =
      (pruned other request chosen warnings later).retold request id millis found := by
  have htext : outline request.options (Lines.ofText request.text).lines.length 1
      (cuts id (Lines.ofText request.text).lines chosen.mask)
      ((Lines.ofText request.text).lines.zip chosen.mask) =
      layout request.options
        ((cuts other (Lines.ofText request.text).lines chosen.mask).flatMap fun c =>
          List.range' c.first c.count)
        (cuts id (Lines.ofText request.text).lines chosen.mask)
        (Lines.ofText request.text).lines := by
    rw [outline_eq_layout h, layout_congr (mem_gone_iff_mem_cuts other h)]
  simp only [pruned, PruneResponse.retold, cuts_under, htext]
  rfl

/-- Two verdicts on the same scores are the same, apart from where the scores came from. -/
theorem verdict_cases (config : PrunerConfig) (request : PruneRequest) {outside other : OutsideScores}
    (hscores : outside.scores = other.scores) (hwarnings : outside.warnings = other.warnings) :
    (∃ warnings refusal, verdict config request outside = (warnings, .error refusal) ∧
      verdict config request other = (warnings, .error refusal)) ∨
    ∃ warnings chosen found, verdict config request other = (warnings, .ok chosen) ∧
      verdict config request outside = (warnings, .ok { chosen with cacheHit := found }) ∧
      (other.cacheHit = false → chosen.cacheHit = false) := by
  obtain ⟨scores, found, warnings⟩ := outside
  obtain ⟨scores', found', warnings'⟩ := other
  obtain rfl : scores = scores' := hscores
  obtain rfl : warnings = warnings' := hwarnings
  unfold verdict
  dsimp only
  split
  · exact .inl ⟨_, _, rfl, rfl⟩
  · split
    · exact .inl ⟨_, _, rfl, rfl⟩
    · split
      · exact .inr ⟨_, _, false, rfl, rfl, fun _ => rfl⟩
      · exact .inr ⟨_, _, found, rfl, rfl, id⟩

/-- Two answers by the same scores are the same, apart from their ids, the time, and where the
scores came from. -/
theorem answerOf_retold (config : PrunerConfig) (request : PruneRequest)
    {outside other : OutsideScores} (hscores : outside.scores = other.scores)
    (hwarnings : outside.warnings = other.warnings) (id id' : String) (millis later : Nat) :
    let r := answerOf id request millis (verdict config request outside)
    let r' := answerOf id' request later (verdict config request other)
    (other.cacheHit = false → r'.stats.cacheHit = false) ∧
      r = r'.retold request id millis r.stats.cacheHit ∧
      (id = id' → r = r'.atTime millis r.stats.cacheHit) := by
  intro r r'
  rcases verdict_cases config request hscores hwarnings with
    ⟨warnings, refusal, h, h'⟩ | ⟨warnings, chosen, found, h', h, hfound⟩
  · have hr : r = _ := congrArg (answerOf id request millis) h
    have hr' : r' = _ := congrArg (answerOf id' request later) h'
    rw [hr, hr']
    exact ⟨fun _ => rfl, rfl, fun hid => hid ▸ rfl⟩
  · have hr : r = _ := congrArg (answerOf id request millis) h
    have hr' : r' = _ := congrArg (answerOf id' request later) h'
    obtain ⟨choice, -⟩ := verdict_ok h'
    rw [hr, hr', answerOf, answerOf]
    dsimp only
    split
    · exact ⟨fun _ => rfl, rfl, fun hid => hid ▸ rfl⟩
    · exact ⟨hfound, pruned_retold choice.length_mask id id' warnings millis later found,
        fun hid => hid ▸ rfl⟩

theorem id_answerOf (id : String) (request : PruneRequest) (millis : Nat)
    (pair : List Warning × Except Refusal Chosen) :
    (answerOf id request millis pair).id = id := by
  obtain ⟨warnings, refusal | chosen⟩ := pair
  · rfl
  · simp only [answerOf]
    split <;> rfl

/-! ## With a cache and without one -/

variable {σ : Type} {p : Pruner σ} {request : PruneRequest} {s t : PrunerState} {w v : σ}
  {f : List String → String → Except ServiceError (List Single)} {requests : List PruneRequest}

/-- The pruner that asks its reranker every time: no scores are good for any time. -/
def uncached (p : Pruner σ) : Pruner σ :=
  { p with config := { p.config with cacheLife := .zero } }

theorem verdict_uncached (outside : OutsideScores) :
    verdict p.uncached.config request outside = verdict p.config request outside := rfl

/-- No two of the texts share an id. -/
def DistinctIds (requests : List PruneRequest) : Prop :=
  ∀ a ∈ requests, ∀ b ∈ requests, contentId a.text = contentId b.text → a.text = b.text

/-- Every entry holds what the reranker says to one of the requests. -/
def Keeps (p : Pruner σ) (f : List String → String → Except ServiceError (List Single))
    (requests : List PruneRequest) (cache : ScoreCache) : Prop :=
  ∀ e ∈ cache.entries, ∃ past ∈ requests, e.key = keyOf past ∧
    p.worth f past true = ⟨some e.scores, true, []⟩

theorem keeps_prune (h : p.Keeps f requests s.cache) (hmem : request ∈ requests)
    (hf : p.AnswersAs f request w) :
    p.Keeps f requests (exec (p.prune request) s w).1.2.cache := by
  intro e he
  rcases mem_prune_cache he with he | hgained
  · exact h e he
  · exact ⟨request, hmem, hgained.1, hgained.worth hf⟩

/-- Scores that are found are those that the reranker would give again. -/
theorem Keeps.found (h : p.Keeps f requests s.cache) (hmem : request ∈ requests)
    (hids : DistinctIds requests) {now : Span} {scores : List Single}
    (hfound : (s.cache.get (keyOf request) now).1 = some scores) :
    p.worth f request true = ⟨some scores, true, []⟩ := by
  obtain ⟨e, he, hkey, rfl⟩ := ScoreCache.exists_of_get hfound
  obtain ⟨past, hpast, hkept, hworth⟩ := h e he
  have hsame : keyOf request = keyOf past := hkey.symm.trans hkept
  have htext := hids request hmem past hpast (congrArg ScoreKey.textId hsame)
  rw [worth_congr htext (congrArg ScoreKey.goal hsame), hworth]

/-- What a prune gets from outside is what the reranker says, or it does not ask. -/
theorem outsideFor_eq_worth (hf : p.AnswersAs f request w)
    (hcache : ∀ scores, (s.cache.get (keyOf request) (p.told w 3)).1 = some scores →
      p.worth f request true = ⟨some scores, true, []⟩) :
    p.outsideFor request s w =
      if request.options.rerank then
        p.worth f request (s.cache.get (keyOf request) (p.told w 3)).1.isSome
      else ⟨none, false, []⟩ := by
  rw [outsideFor, asked_eq_worth hf hcache]

/-- One call: the answer with a cache is the one without, apart from its id, the time, and where the
scores came from. -/
theorem prune_retold (hkeeps : p.Keeps f requests s.cache) (hmem : request ∈ requests)
    (hids : DistinctIds requests) (hlife : t.cache.life = .zero)
    (hf : p.AnswersAs f request w) (hg : p.uncached.AnswersAs f request v)
    (inTime : Refusal.late.warning ∉ (exec (p.prune request) s w).1.1.warnings)
    (inTime' : Refusal.late.warning ∉ (exec (p.uncached.prune request) t v).1.1.warnings) :
    let r := (exec (p.prune request) s w).1.1
    let r' := (exec (p.uncached.prune request) t v).1.1
    r'.stats.cacheHit = false ∧
      r = r'.retold request r.id r.stats.elapsedMillis r.stats.cacheHit ∧
      (s.next = t.next → r = r'.atTime r.stats.elapsedMillis r.stats.cacheHit) := by
  rcases hrun : exec (p.prune request) s w with ⟨⟨r, s'⟩, w'⟩
  rcases hrun' : exec (p.uncached.prune request) t v with ⟨⟨r', t'⟩, v'⟩
  rw [hrun] at inTime
  rw [hrun'] at inTime'
  obtain ⟨last, hr⟩ := answerOf_of_inTime hrun inTime
  obtain ⟨last', hr'⟩ := answerOf_of_inTime hrun' inTime'
  have hmiss := ScoreCache.get_of_life_zero hlife (keyOf request) (p.uncached.told v 3)
  have hout := outsideFor_eq_worth hf fun scores => hkeeps.found hmem hids
  have hout' : p.uncached.outsideFor request t v =
      if request.options.rerank then p.worth f request false else ⟨none, false, []⟩ := by
    have h := outsideFor_eq_worth (p := p.uncached) (s := t) hg fun scores hfound => by
      cases hmiss.symm.trans hfound
    rwa [hmiss] at h
  obtain ⟨hscores, hwarnings, hcold⟩ := worth_found p f request
    (s.cache.get (keyOf request) (p.told w 3)).1.isSome
  have hsameScores : (p.outsideFor request s w).scores =
      (p.uncached.outsideFor request t v).scores := by
    rw [hout, hout']
    split <;> [exact hscores; rfl]
  have hsameWarnings : (p.outsideFor request s w).warnings =
      (p.uncached.outsideFor request t v).warnings := by
    rw [hout, hout']
    split <;> [exact hwarnings; rfl]
  have hcold' : (p.uncached.outsideFor request t v).cacheHit = false := by
    rw [hout']
    split <;> [exact hcold; rfl]
  obtain ⟨hmissed, hsame, hequal⟩ := answerOf_retold p.config request hsameScores hsameWarnings
    (pruneId s.next) (pruneId t.next) (p.millisTold w last) (p.uncached.millisTold v last')
  have hid : r.id = pruneId s.next := hr ▸ id_answerOf _ _ _ _
  have hmillis : r.stats.elapsedMillis = p.millisTold w last :=
    hr ▸ elapsedMillis_answerOf _ _ _ _
  dsimp only
  rw [hid, hmillis]
  rw [← hr] at hsame hequal
  rw [← verdict_uncached, ← hr'] at hmissed hsame hequal
  exact ⟨hmissed hcold', hsame, fun hnext => hequal (congrArg pruneId hnext)⟩

/-- A request that comes to two pruners, each in a world of its own. -/
structure JointCall (σ : Type) where
  request : PruneRequest
  world : σ
  other : σ

/-- What two pruners answer to a request. -/
structure Comparison where
  request : PruneRequest
  cached : PruneResponse
  uncached : PruneResponse

/-- The answers to one request after another, of a pruner and of the one that asks every time. -/
def compare (p : Pruner σ) (s t : PrunerState) : List (JointCall σ) → List Comparison
  | [] => []
  | call :: calls =>
    let run := (exec (p.prune call.request) s call.world).1
    let run' := (exec (p.uncached.prune call.request) t call.other).1
    ⟨call.request, run.1, run'.1⟩ :: p.compare run.2 run'.2 calls

/-- The answers differ in nothing but the id, with the markers that have it, the time, and where the
scores came from, and not in the id if the ids began with the same number. -/
def Comparison.Agrees (x : Comparison) (together : Prop) : Prop :=
  x.uncached.stats.cacheHit = false ∧
    x.cached = x.uncached.retold x.request x.cached.id x.cached.stats.elapsedMillis
      x.cached.stats.cacheHit ∧
    (together → x.cached = x.uncached.atTime x.cached.stats.elapsedMillis x.cached.stats.cacheHit)

/-- Both pruners answer alike from any states of theirs in which the one keeps what its reranker
says, and for the other no scores are good for any time. -/
theorem compare_retold (hids : DistinctIds requests) (calls : List (JointCall σ))
    (hmem : ∀ call ∈ calls, call.request ∈ requests)
    (hf : ∀ call ∈ calls, p.AnswersAs f call.request call.world ∧
      p.uncached.AnswersAs f call.request call.other)
    (hkeeps : p.Keeps f requests s.cache) (hlife : t.cache.life = .zero)
    (inTime : ∀ x ∈ p.compare s t calls, Refusal.late.warning ∉ x.cached.warnings ∧
      Refusal.late.warning ∉ x.uncached.warnings) :
    ∀ x ∈ p.compare s t calls, x.Agrees (s.next = t.next) := by
  induction calls generalizing s t with
  | nil => simp [compare]
  | cons call calls ih =>
    obtain ⟨hcall, hcalls⟩ := List.forall_mem_cons.mp hmem
    obtain ⟨⟨hanswers, hanswers'⟩, hrest⟩ := List.forall_mem_cons.mp hf
    obtain ⟨⟨hearly, hearly'⟩, hlater⟩ := List.forall_mem_cons.mp inTime
    refine List.forall_mem_cons.mpr
      ⟨prune_retold hkeeps hcall hids hlife hanswers hanswers' hearly hearly', ?_⟩
    have hrest' := ih hcalls hrest (keeps_prune hkeeps hcall hanswers) (life_prune.trans hlife) hlater
    simpa only [next_prune, Nat.add_right_cancel_iff] using hrest'

/-- Where the clock stands still, no call is late. -/
theorem compare_still {start : Span} (still : p.clock.elapsed = pure start)
    (calls : List (JointCall σ)) (hlimit : ∀ call ∈ calls, 0 < call.request.options.timeoutMillis) :
    ∀ x ∈ p.compare s t calls, Refusal.late.warning ∉ x.cached.warnings ∧
      Refusal.late.warning ∉ x.uncached.warnings := by
  induction calls generalizing s t with
  | nil => simp [compare]
  | cons call calls ih =>
    obtain ⟨hcall, hcalls⟩ := List.forall_mem_cons.mp hlimit
    exact List.forall_mem_cons.mpr
      ⟨⟨inTime_still still hcall, inTime_still (p := p.uncached) still hcall⟩, ih hcalls⟩

/-- Of a pruner that was new: there are as many scores from outside as lines, whatever texts share an
id, so that no line is scored for want of one. If the reranker goes by the lines and the goal alone,
no two texts share an id and no call is late, the answers to all calls are those of the pruner that
asks every time. -/
theorem prune_cached (p : Pruner σ) (first : Nat) :
    (∀ s request w given, p.Reached first s → (p.asked request s w).1.1.scores = some given →
      let lines := (Lines.ofText request.text).lines
      given.length = lines.length ∧
        ∀ classes goal, Selection.scores lines classes goal (some given) =
          (classes.zip given).map fun x => Selection.score (x.2.max Score.repeated) x.1) ∧
    ∀ f calls next, DistinctIds (calls.map (·.request)) →
      (∀ call ∈ calls, p.AnswersAs f call.request call.world ∧
        p.uncached.AnswersAs f call.request call.other) →
      let answers := p.compare (.fresh p.config first) (.fresh p.uncached.config next) calls
      (∀ x ∈ answers, Refusal.late.warning ∉ x.cached.warnings ∧
        Refusal.late.warning ∉ x.uncached.warnings) →
      ∀ x ∈ answers, x.Agrees (first = next) := by
  constructor
  · intro s request w given hreached hgiven lines
    have hlength : given.length = lines.length := length_asked hreached.sized hgiven
    refine ⟨hlength, fun classes goal => ?_⟩
    simp only [Selection.scores, hlength, Nat.sub_self, List.replicate_zero, List.append_nil]
  · intro f calls next hids hf answers inTime
    have hkeeps : p.Keeps f (calls.map (·.request)) (PrunerState.fresh p.config first).cache :=
      fun e he => absurd he List.not_mem_nil
    exact compare_retold hids calls (fun call hcall => List.mem_map_of_mem hcall) hf hkeeps rfl inTime

theorem answersAs_unimpressed (request : PruneRequest) :
    unimpressed.AnswersAs (fun lines _ => .ok (lines.map fun _ => 0)) request () := by
  intro reranker h
  obtain rfl := Option.some.inj h
  exact Pending.within_done (Nat.zero_le _) _

/-- The same text for the same goal comes twice. -/
def twice : List (JointCall Unit) := [⟨worthless, (), ()⟩, ⟨worthless, (), ()⟩]

theorem prune_cached_twice :
    let p := unimpressed
    let answers := p.compare (.fresh p.config 0) (.fresh p.uncached.config 0) twice
    (p.asked worthless (.fresh p.config 0) ()).1.1.scores = some [0, 0, 0, 0] ∧
    [(0 : Single), 0, 0, 0].length = (Lines.ofText worthless.text).lines.length ∧
    DistinctIds (twice.map (·.request)) ∧
    (∀ call ∈ twice,
      p.AnswersAs (fun lines _ => .ok (lines.map fun _ => 0)) call.request call.world ∧
      p.uncached.AnswersAs (fun lines _ => .ok (lines.map fun _ => 0)) call.request call.other) ∧
    (∀ x ∈ answers, Refusal.late.warning ∉ x.cached.warnings ∧
      Refusal.late.warning ∉ x.uncached.warnings) ∧
    ∀ x ∈ answers, x.Agrees (0 = 0) := by
  intro p answers
  have hasked : (p.asked worthless (.fresh p.config 0) ()).1.1.scores = some [0, 0, 0, 0] := rfl
  have hids : DistinctIds (twice.map (·.request)) := by
    simp [twice, DistinctIds]
  have hanswers : ∀ call ∈ twice,
      p.AnswersAs (fun lines _ => .ok (lines.map fun _ => 0)) call.request call.world ∧
      p.uncached.AnswersAs (fun lines _ => .ok (lines.map fun _ => 0)) call.request call.other :=
    fun call _ => ⟨answersAs_unimpressed _, answersAs_unimpressed _⟩
  have inTime : ∀ x ∈ answers, Refusal.late.warning ∉ x.cached.warnings ∧
      Refusal.late.warning ∉ x.uncached.warnings :=
    compare_still rfl twice (by decide)
  obtain ⟨hlengths, hagrees⟩ := prune_cached p 0
  exact ⟨hasked, (hlengths _ _ _ _ .new hasked).1, hids, hanswers, inTime,
    hagrees _ twice 0 hids hanswers inTime⟩

end Pruner
end ContextBudget

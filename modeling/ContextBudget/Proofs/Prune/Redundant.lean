import ContextBudget.Proofs.Prune.Greedy

/-!
# Redundant lines go first

Blank lines and lines that repeat earlier ones have the lowest scores, so that they go before any
ordinary line does. Scores from outside keep a distance to blank lines only: an ordinary line whose
score is not above that of a repeated line counts as one, and goes first if it stands first.

- `repeated_lt_relevance`: a line is more relevant to any goal than a repeated one.
- `ownScore_cases`: where the score of an ordinary line lies.
- `spared_of_precedes`: which redundant lines an ordinary line may go before.
- `prune_redundantFirst`: which redundant lines may stay where an ordinary line goes.
- `not_redundantFirst_worthless`: a repeated line that stays where an ordinary one goes.
-/

namespace ContextBudget

/-! ## Where the scores of ordinary lines lie -/

namespace Score

/-- A line is more relevant to any goal than a repeated one. -/
theorem repeated_lt_relevance {goal : List String} {line : String}
    (h : Score.relevance goal line ≠ .nan) :
    Score.repeated.lt (Score.relevance goal line) = true := by
  have htenth : (.ofRatio 1 10 : Single) = .finite false (13421773 * 2 ^ 122) := by decide +kernel
  unfold Score.relevance at h ⊢
  split at h
  · rename_i hgoal
    rw [if_pos hgoal]
    decide +kernel
  · rename_i hgoal
    rw [if_neg hgoal]
    simp only [ofHits, htenth] at h ⊢
    rw [repeated_eq]
    exact Binary.lt_add_of_lt (by decide) (by decide +kernel) (by decide)
      (Binary.isNegative_div (Binary.isNegative_mul (Binary.isNegative_ofRatio 9 10)
        (Binary.isNegative_ofNat _)) (Binary.isNegative_ofNat _)) h

end Score

/-- The score from outside of the line number `k` is not above that of a repeated line, and so
counts as one. -/
def CountsAsRepeated (outside : Option (List Single)) (k : Nat) : Prop :=
  ∃ given, outside = some given ∧ Score.repeated.lt (given[k - 1]?.getD 0) = false

/-- The score of an ordinary line is above that of a repeated one, unless it counts as one. -/
theorem ownScore_cases {lines goal : List String} {outside : Option (List Single)} {k : Nat}
    (h : ownScore lines goal outside k ≠ .nan) :
    Score.repeated.lt (ownScore lines goal outside k) = true ∨
      ownScore lines goal outside k = Score.repeated ∧ CountsAsRepeated outside k := by
  cases outside with
  | none => exact .inl (Score.repeated_lt_relevance h)
  | some given =>
    have hown : ownScore lines goal (some given) k = (given[k - 1]?.getD 0).max Score.repeated :=
      rfl
    rw [hown, Score.repeated_eq, Binary.max_finite (by decide)]
    split
    · rename_i hhigh
      exact .inl hhigh
    · rename_i hlow
      rw [Bool.not_eq_true] at hlow
      exact .inr ⟨rfl, given, rfl, by rwa [Score.repeated_eq]⟩

/-- The score of an ordinary line is above that of a blank one. -/
theorem blank_lt_ownScore {lines goal : List String} {outside : Option (List Single)} {k : Nat}
    (h : ownScore lines goal outside k ≠ .nan) :
    Score.blank.lt (ownScore lines goal outside k) = true := by
  rcases ownScore_cases h with hhigh | ⟨heq, -⟩
  · rw [Score.repeated_eq] at hhigh
    rw [Score.blank_eq]
    exact Binary.lt_of_le_of_lt (Nat.zero_le _) hhigh
  · rw [heq, Score.blank_eq, Score.repeated_eq]
    decide

/-! ## Redundant lines -/

/-- The class of the line number `k` of the text of a request. -/
def classOf (request : PruneRequest) (k : Nat) : Option LineClass :=
  let lines := (Lines.ofText request.text).lines
  classAt (request.kind.resolve lines) lines k

/-- Where an ordinary line goes, all blank and repeated lines go too. -/
def RedundantFirst (request : PruneRequest) (numbers : List Nat) : Prop :=
  (∃ k ∈ numbers, classOf request k = some .ordinary) → ∀ j,
    classOf request j = some .blank ∨ classOf request j = some .duplicate → j ∈ numbers

section Ranking

variable {config : PrunerConfig} {request : PruneRequest} {outside : Option (List Single)}
  {most j k : Nat} {raw : List Nat}

theorem score_rankingOf :
    (rankingOf config request outside).score k =
      (classOf request k).bind (Selection.score
        (ownScore (Lines.ofText request.text).lines (termsOf request.goal) outside k)) := by
  unfold rankingOf classOf
  simp only
  cases classAt (request.kind.resolve (Lines.ofText request.text).lines)
    (Lines.ofText request.text).lines k with
  | none => rfl
  | some c => cases c <;> rfl

/-- Blank and repeated lines may go if repeated lines may. -/
theorem mem_candidates_of_redundant (hkeep : Score.repeated.lt config.keepScore = true)
    (h : classOf request j = some .blank ∨ classOf request j = some .duplicate) :
    j ∈ (rankingOf config request outside).candidates := by
  have hlow : ∃ c a, classOf request j = some c ∧
      (rankingOf config request outside).score j = some a ∧ a.lt config.keepScore = true := by
    rw [score_rankingOf]
    rcases h with hc | hc
    · refine ⟨_, Score.blank, hc, by rw [hc]; rfl, ?_⟩
      rw [Score.repeated_eq] at hkeep
      rw [Score.blank_eq]
      exact Binary.lt_of_le_of_lt (Nat.zero_le _) hkeep
    · exact ⟨_, Score.repeated, hc, by rw [hc]; rfl, hkeep⟩
  obtain ⟨c, a, hc, hscore, hlow⟩ := hlow
  have hfree : c ≠ .anchored := by
    rw [score_rankingOf, hc] at hscore
    exact Selection.score_eq_some hscore
  have hlt := (List.getElem?_eq_some_iff.mp hc).1
  rw [length_classify] at hlt
  refine Ranking.mem_candidates.mpr ⟨⟨Nat.pos_of_ne_zero ?_, ?_⟩, a, hscore, hlow⟩
  · rintro rfl
    exact (unprotected_of_classify hc hfree).1 rfl
  · change j ≤ (Lines.ofText request.text).lines.length
    omega

/-- An ordinary line goes before a repeated one only if it counts as one and stands first. It goes
before no blank line. -/
theorem spared_of_precedes (hk : k ∈ (rankingOf config request outside).candidates)
    (hordinary : classOf request k = some .ordinary)
    (h : (rankingOf config request outside).Precedes k j) :
    classOf request j ≠ some .blank ∧
      (classOf request j = some .duplicate → k < j ∧ CountsAsRepeated outside k) := by
  obtain ⟨-, a, ha, hlow⟩ := Ranking.mem_candidates.mp hk
  obtain ⟨a', b, ha', hb, horder⟩ := h
  cases ha.symm.trans ha'
  have hnan : a ≠ .nan := by
    rintro rfl
    cases hlow
  rw [score_rankingOf, hordinary] at ha
  cases ha
  rw [score_rankingOf] at hb
  refine ⟨fun hc => ?_, fun hc => ?_⟩
  · rw [hc] at hb
    cases hb
    have hblank := blank_lt_ownScore hnan
    rcases horder with hlt | ⟨heq, -⟩
    · rw [Binary.lt_asymm hblank] at hlt
      cases hlt
    · rw [heq, Binary.lt_irrefl] at hblank
      cases hblank
  · rw [hc] at hb
    cases hb
    rcases ownScore_cases hnan with hhigh | ⟨heq, hcounts⟩
    · rcases horder with hlt | ⟨heq, -⟩
      · rw [Binary.lt_asymm hhigh] at hlt
        cases hlt
      · rw [heq, Binary.lt_irrefl] at hhigh
        cases hhigh
    · refine ⟨(horder.resolve_left fun hlt => ?_).2, hcounts⟩
      rw [heq, Binary.lt_irrefl] at hlt
      cases hlt

end Ranking

namespace Pruner

open PrunerM Selection

variable {σ : Type}

/-- Without markers, where an ordinary line goes all blank lines go, and all repeated ones but those
after an ordinary line whose score from outside counts as one of them. Without such scores, all
redundant lines go first. -/
theorem prune_redundantFirst (p : Pruner σ) (request : PruneRequest) (s : PrunerState) (w : σ)
    (hplain : request.options.markers = false)
    (hkeep : Score.repeated.lt p.config.keepScore = true)
    (h : (exec (p.prune request) s w).1.1.gaveBack = false) :
    let r := (exec (p.prune request) s w).1.1
    let outside := (p.outsideFor request s w).scores
    ∃ numbers, LeavesOut request r numbers ∧
      (∀ k ∈ numbers, classOf request k = some .ordinary → ∀ j, j ∉ numbers →
        classOf request j ≠ some .blank ∧
          (classOf request j = some .duplicate → k < j ∧ CountsAsRepeated outside k)) ∧
      ((∀ k ∈ numbers, classOf request k = some .ordinary → ¬ CountsAsRepeated outside k) →
        RedundantFirst request numbers) := by
  rcases hr : exec (p.prune request) s w with ⟨⟨r, s'⟩, w'⟩
  rw [hr] at h
  obtain ⟨chosen, -, hmask, hout, -⟩ := prune_answered hr h
  have hfirst := first_rawSelection p.config request (p.outsideFor request s w)
  have hnumbers : ∀ k, k ∈ gone chosen.mask ↔
      k ∈ rawSelection p.config request (p.outsideFor request s w) := by
    intro k
    rw [hmask, mem_gone_chosenBy]
    simp [hplain]
  -- A redundant line is a candidate, so that a kept one comes after each line that goes.
  have hspares : ∀ k ∈ gone chosen.mask, classOf request k = some .ordinary →
      ∀ j, j ∉ gone chosen.mask → classOf request j ≠ some .blank ∧
        (classOf request j = some .duplicate →
          k < j ∧ CountsAsRepeated (p.outsideFor request s w).scores k) := by
    intro k hk hordinary j hj
    rw [hnumbers] at hk hj
    have hspared := fun hredundant =>
      spared_of_precedes (hfirst.sublist.subset hk) hordinary
        (hfirst.first k hk j (mem_candidates_of_redundant hkeep hredundant) hj)
    exact ⟨fun hblank => (hspared (.inl hblank)).1 hblank,
      fun hrepeated => (hspared (.inr hrepeated)).2 hrepeated⟩
  refine ⟨_, hout, hspares, fun hcounts ⟨k, hk, hordinary⟩ j hj => ?_⟩
  by_contra hkept
  obtain ⟨hblank, hrepeated⟩ := hspares k hk hordinary j hkept
  exact hj.elim hblank fun hc => hcounts k hk hordinary (hrepeated hc).2

/-- A reranker for which no line is worth anything, with clocks that never move. -/
def unimpressed : Pruner Unit where
  config := .standard
  reranker := some ⟨"unimpressed", fun lines _ => pure (.answer (lines.map fun _ => 0))⟩
  clock := ⟨pure ⟨0, 0⟩, pure .zero⟩

/-- One of four lines may go: an ordinary one, or the repeated one after it. -/
def worthless : PruneRequest :=
  ⟨"a\nx\na\nb", "", .document, ⟨.ofRatio 1 4, 0, 1000, false, false, true⟩⟩

theorem outsideFor_worthless :
    (unimpressed.outsideFor worthless (.fresh .standard 0) ()).scores = some [0, 0, 0, 0] := by
  rfl

theorem classify_worthless : classify (worthless.kind.resolve (Lines.ofText worthless.text).lines)
    (Lines.ofText worthless.text).lines = [.anchored, .ordinary, .duplicate, .anchored] := by
  rw [classify, earlierRepeats_eq]
  decide +kernel

theorem mask_worthless :
    (chosenBy .standard worthless (unimpressed.outsideFor worthless (.fresh .standard 0) ())).mask =
      [false, true, false, false] := by
  have hcandidates : candidates PrunerConfig.standard.keepScore
      (scores (Lines.ofText worthless.text).lines
        [.anchored, .ordinary, .duplicate, .anchored] (termsOf worthless.goal)
        (some [0, 0, 0, 0])) = [(Score.repeated, 1), (Score.repeated, 2)] := by
    decide +kernel
  have hsorted : [(Score.repeated, 1), (Score.repeated, 2)].Pairwise
      fun a b => sooner a b = true := by
    decide +kernel
  have hquota : quota worthless.options (Lines.ofText worthless.text).lines.length = 1 := by
    decide +kernel
  simp only [chosenBy, maskOf, chosen, outsideFor_worthless, classify_worthless, hcandidates,
    mergeSort_sooner (.refl _) hsorted, hquota, mask_eq_map]
  decide +kernel

/-- Repeated lines may go, and the request is answered. -/
theorem answered_worthless :
    Score.repeated.lt unimpressed.config.keepScore = true ∧
      (exec (unimpressed.prune worthless) (.fresh .standard 0) ()).1.1.gaveBack = false := by
  have hsound : fault? worthless.options [false, true, false, false] = none := by decide +kernel
  refine ⟨by decide +kernel, ?_⟩
  exact answered_still (p := unimpressed) rfl (by decide) (by decide +kernel) (Nat.zero_le _)
    (by rw [← hsound, ← mask_worthless]; rfl)

theorem prune_redundantFirst_worthless :
    worthless.options.markers = false ∧
    Score.repeated.lt unimpressed.config.keepScore = true ∧
    (exec (unimpressed.prune worthless) (.fresh .standard 0) ()).1.1.gaveBack = false ∧
    let r := (exec (unimpressed.prune worthless) (.fresh .standard 0) ()).1.1
    let outside := (unimpressed.outsideFor worthless (.fresh .standard 0) ()).scores
    ∃ numbers, LeavesOut worthless r numbers ∧
      (∀ k ∈ numbers, classOf worthless k = some .ordinary → ∀ j, j ∉ numbers →
        classOf worthless j ≠ some .blank ∧
          (classOf worthless j = some .duplicate → k < j ∧ CountsAsRepeated outside k)) ∧
      ((∀ k ∈ numbers, classOf worthless k = some .ordinary → ¬ CountsAsRepeated outside k) →
        RedundantFirst worthless numbers) := by
  obtain ⟨hkeep, hanswered⟩ := answered_worthless
  exact ⟨rfl, hkeep, hanswered,
    prune_redundantFirst unimpressed worthless _ _ rfl hkeep hanswered⟩

/-- The ordinary line is scored like the repeated one, and goes since it stands first. -/
theorem not_redundantFirst_worthless :
    worthless.options.markers = false ∧
    Score.repeated.lt unimpressed.config.keepScore = true ∧
    let r := (exec (unimpressed.prune worthless) (.fresh .standard 0) ()).1.1
    r.gaveBack = false ∧ LeavesOut worthless r [2] ∧ ¬ RedundantFirst worthless [2] := by
  obtain ⟨hkeep, hanswered⟩ := answered_worthless
  refine ⟨rfl, hkeep, hanswered, ?_, fun hfirst => ?_⟩
  · rcases hr : exec (unimpressed.prune worthless) (.fresh .standard 0) () with ⟨⟨r, s'⟩, w'⟩
    obtain ⟨chosen, -, hmask, hout, -⟩ := prune_answered hr (by rw [← hanswered, hr])
    have hgone : chosen.mask = [false, true, false, false] := hmask.trans mask_worthless
    rw [hgone] at hout
    exact hout
  · have hclass : ∀ k, classOf worthless k =
        ([.anchored, .ordinary, .duplicate, .anchored] : List LineClass)[k - 1]? := fun k => by
      rw [← classify_worthless]
      rfl
    have hkept : 3 ∉ [2] := by decide
    exact hkept (hfirst ⟨2, by decide, hclass 2⟩ 3 (.inr (hclass 3)))

end Pruner
end ContextBudget

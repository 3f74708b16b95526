import ContextBudget.Proofs.Number.Order
import ContextBudget.Proofs.Prune.Answer
import ContextBudget.Proofs.Prune.Verdict
import Mathlib.Data.List.Nodup

/-!
# The lowest lines go

The lines of a text are ranked by their scores, and by their numbers where scores are equal. Those
that go are the first of this ranking, as many as the bounds of the request allow; with markers,
those of them that would go alone stay.

- `Ranking`, `Ranking.First`: a ranking of numbered lines, and the first of its candidates.
- `rankingOf`: the ranking of the lines of a request.
- `sooner_iff`, `pairwise_sooner`: the candidates are sorted by score and place.
- `first_gone`: the mask of the first candidates takes the first of the ranking.
- `mem_gone_keepSingles`: which lines stay since they would go alone.
- `prune_greedy`: what an answer leaves out.
-/

namespace ContextBudget

/-! ## Rankings -/

/-- Numbered lines, each with a score unless it never goes. Those with a low score may go. -/
structure Ranking where
  count : Nat
  /-- Lines with this score or a higher one stay. -/
  keep : Single
  score : Nat → Option Single

namespace Ranking

/-- The lines that may go. -/
def candidates (r : Ranking) : List Nat :=
  (List.range' 1 r.count).filter fun k => (r.score k).any (·.lt r.keep)

/-- The order in which lines go: by score, and by number where scores are equal. -/
def Precedes (r : Ranking) (j k : Nat) : Prop :=
  ∃ a b, r.score j = some a ∧ r.score k = some b ∧ (a.lt b = true ∨ a = b ∧ j < k)

/-- The numbers are those of the first `most` candidates, or of all of them if there are fewer. -/
structure First (r : Ranking) (most : Nat) (numbers : List Nat) : Prop where
  sublist : numbers.Sublist r.candidates
  length : numbers.length = Nat.min most r.candidates.length
  first : ∀ j ∈ numbers, ∀ k ∈ r.candidates, k ∉ numbers → r.Precedes j k

theorem mem_candidates {r : Ranking} {k : Nat} :
    k ∈ r.candidates ↔ (1 ≤ k ∧ k ≤ r.count) ∧ ∃ a, r.score k = some a ∧ a.lt r.keep = true := by
  simp only [candidates, List.mem_filter, List.mem_range'_1, Option.any_eq_true]
  refine and_congr_left fun _ => ?_
  omega

/-- The ranking is that of a list of scores, which starts with the line number one. -/
structure Ranks (r : Ranking) (scores : List (Option Single)) : Prop where
  length : scores.length = r.count
  score : ∀ i < r.count, scores[i]? = some (r.score (i + 1))
  positive : ∀ k a, r.score k = some a → a.isNegative = false

end Ranking

/-- The class of the line number `k`. -/
def classAt (kind : SourceKind) (lines : List String) (k : Nat) : Option LineClass :=
  (classify kind lines)[k - 1]?

/-- The score of an ordinary line number `k`: its relevance to the goal, or its score from outside,
which counts at least as much as that of a repeated line. A score that is missing is zero. -/
def ownScore (lines goal : List String) (outside : Option (List Single)) (k : Nat) : Single :=
  match outside with
  | some given => (given[k - 1]?.getD 0).max (.ofRatio 5 100)
  | none => Score.relevance goal (lines[k - 1]?.getD "")

/-- How the lines of a request are ranked. -/
def rankingOf (config : PrunerConfig) (request : PruneRequest) (outside : Option (List Single)) :
    Ranking :=
  let lines := (Lines.ofText request.text).lines
  { count := lines.length
    keep := config.keepScore
    score := fun k =>
      match classAt (request.kind.resolve lines) lines k with
      | some .blank => some 0
      | some .duplicate => some (.ofRatio 5 100)
      | some .ordinary => some (ownScore lines (termsOf request.goal) outside k)
      | some .anchored | none => none }

/-! ## Scores -/

namespace Score

theorem blank_eq : Score.blank = .finite false 0 := Binary.ofNat_zero

theorem repeated_eq : Score.repeated = .finite false (13421773 * 2 ^ 121) := by decide +kernel

theorem isNegative_relevance (goal : List String) (line : String) :
    (Score.relevance goal line).isNegative = false := by
  unfold Score.relevance
  split
  · exact Binary.isNegative_ofRatio 1 2
  · exact Binary.isNegative_add (Binary.isNegative_ofRatio 1 10)
      (Binary.isNegative_div (Binary.isNegative_mul (Binary.isNegative_ofRatio 9 10)
        (Binary.isNegative_ofNat _)) (Binary.isNegative_ofNat _))

end Score

theorem isNegative_ownScore (lines goal : List String) (outside : Option (List Single)) (k : Nat) :
    (ownScore lines goal outside k).isNegative = false := by
  cases outside with
  | none => exact Score.isNegative_relevance _ _
  | some given =>
    change (Binary.max _ Score.repeated).isNegative = false
    rw [Score.repeated_eq]
    exact Binary.isNegative_max (by decide)

namespace Selection

theorem getElem?_scores {lines goal : List String} {kind : SourceKind}
    {outside : Option (List Single)} {i : Nat} (hi : i < lines.length) :
    (scores lines (classify kind lines) goal outside)[i]? =
      (classAt kind lines (i + 1)).map (score (ownScore lines goal outside (i + 1))) := by
  have hclass : i < (classify kind lines).length := by rwa [length_classify]
  rw [classAt, Nat.add_sub_cancel, List.getElem?_eq_getElem hclass]
  cases outside with
  | none => simp [scores, ownScore, hi]
  | some given =>
    have hgiven : (given ++ List.replicate (lines.length - given.length) 0)[i]? =
        some (given[i]?.getD 0) := by
      by_cases h : i < given.length
      · rw [List.getElem?_append_left h, List.getElem?_eq_getElem h, Option.getD_some]
      · rw [List.getElem?_append_right (by omega), List.getElem?_replicate_of_lt (by omega),
          List.getElem?_eq_none (by omega), Option.getD_none]
    have hzip : ((classify kind lines).zip
        (given ++ List.replicate (lines.length - given.length) 0))[i]? =
          some ((classify kind lines)[i], given[i]?.getD 0) :=
      List.getElem?_zip_eq_some.mpr ⟨List.getElem?_eq_getElem hclass, hgiven⟩
    simp only [scores, List.getElem?_map, hzip]
    rfl

theorem ranks_rankingOf (config : PrunerConfig) (request : PruneRequest)
    (outside : Option (List Single)) :
    (rankingOf config request outside).Ranks
      (scores (Lines.ofText request.text).lines
        (classify (request.kind.resolve (Lines.ofText request.text).lines)
          (Lines.ofText request.text).lines) (termsOf request.goal) outside) where
  length := Pruner.length_scores _ _ _ _
  score i hi := by
    have hi : i < (Lines.ofText request.text).lines.length := hi
    rw [getElem?_scores hi]
    simp only [rankingOf]
    cases hc : classAt (request.kind.resolve (Lines.ofText request.text).lines)
      (Lines.ofText request.text).lines (i + 1) with
    | none =>
      rw [classAt, Nat.add_sub_cancel, List.getElem?_eq_none_iff, length_classify] at hc
      omega
    | some c => cases c <;> rfl
  positive k a h := by
    simp only [rankingOf] at h
    split at h
    · cases h
      exact Binary.isNegative_ofNat 0
    · cases h
      exact Binary.isNegative_ofRatio 5 100
    · cases h
      exact isNegative_ownScore _ _ _ _
    all_goals cases h

/-! ## The order of the candidates -/

/-- The place of a candidate among all scored lines. -/
def rank (c : Single × Nat) : (Int ×ₗ Int) ×ₗ Nat := toLex (c.1.place, c.2)

theorem sooner_iff {a b : Single × Nat} : sooner a b = true ↔ rank a ≤ rank b := by
  simp only [sooner, Bool.or_eq_true, Bool.and_eq_true, Bool.not_eq_true', decide_eq_true_eq,
    Binary.before_iff_place, rank, Prod.Lex.toLex_le_toLex, ← Bool.not_eq_true, not_lt]
  constructor
  · rintro (hlt | ⟨hle, hplace⟩)
    · exact .inl hlt
    · exact hle.lt_or_eq.imp_right fun he => ⟨he, hplace⟩
  · rintro (hlt | ⟨he, hplace⟩)
    · exact .inl hlt
    · exact .inr ⟨he.le, hplace⟩

theorem pairwise_sooner (cs : List (Single × Nat)) :
    (cs.mergeSort sooner).Pairwise fun a b => sooner a b = true := by
  have htrans : ∀ a b c, sooner a b = true → sooner b c = true → sooner a c = true :=
    fun a b c hab hbc => sooner_iff.mpr ((sooner_iff.mp hab).trans (sooner_iff.mp hbc))
  have htotal : ∀ a b, (sooner a b || sooner b a) = true := by
    intro a b
    rw [Bool.or_eq_true, sooner_iff, sooner_iff]
    exact le_total (rank a) (rank b)
  exact List.pairwise_mergeSort htrans htotal cs

theorem sooner_antisymm {a b : Single × Nat} (hab : sooner a b = true) (hba : sooner b a = true) :
    a = b := by
  have heq := le_antisymm (sooner_iff.mp hab) (sooner_iff.mp hba)
  rw [rank, rank, toLex_inj, Prod.mk.injEq] at heq
  exact Prod.ext (Binary.place_injective heq.1) heq.2

theorem mergeSort_sooner {cs sorted : List (Single × Nat)} (hperm : cs.Perm sorted)
    (hsorted : sorted.Pairwise fun a b => sooner a b = true) : cs.mergeSort sooner = sorted :=
  List.Perm.eq_of_pairwise (fun _ _ _ _ => sooner_antisymm) (pairwise_sooner cs) hsorted
    ((List.mergeSort_perm cs sooner).trans hperm)

/-! ## The first of a ranking -/

section First

variable {r : Ranking} {scores : List (Option Single)}

/-- The numbers of the candidates are those of the ranking. -/
theorem candidates_eq (h : r.Ranks scores) :
    (candidates r.keep scores).map (·.2 + 1) = r.candidates := by
  have hscore : ∀ x ∈ scores.zipIdx, x.1 = r.score (x.2 + 1) := by
    intro x hx
    rw [List.mem_zipIdx_iff_getElem?] at hx
    have hlt : x.2 < r.count := h.length ▸ (List.getElem?_eq_some_iff.mp hx).1
    rw [h.score _ hlt] at hx
    exact (Option.some.inj hx).symm
  have hnumbers : List.range' 1 r.count = scores.zipIdx.map fun x => 1 + x.2 := by
    have hadd : (List.range' 0 scores.length).map (1 + ·) = List.range' 1 scores.length :=
      List.map_add_range' 0 scores.length 1
    rw [← List.zipIdx_map_snd, List.map_map] at hadd
    rw [← h.length]
    exact hadd.symm
  rw [Ranking.candidates, hnumbers, List.filter_map, candidates, List.map_filterMap,
    ← List.filterMap_eq_map, ← List.filterMap_eq_filter, List.filterMap_filterMap]
  refine List.filterMap_congr fun x hx => ?_
  obtain ⟨o, i⟩ := x
  have ho : o = r.score (1 + i) := Nat.add_comm i 1 ▸ hscore _ hx
  simp only [Option.guard, Function.comp_apply, ← ho]
  cases o with
  | none => rfl
  | some a => cases ha : Binary.lt a r.keep <;> simp [ha, Nat.add_comm]

theorem score_of_mem_candidates (h : r.Ranks scores) {c : Single × Nat}
    (hc : c ∈ candidates r.keep scores) :
    r.score (c.2 + 1) = some c.1 ∧ c.2 < scores.length ∧ c.1.lt r.keep = true := by
  obtain ⟨hsome, hlow⟩ := mem_candidates.mp hc
  have hlt := (List.getElem?_eq_some_iff.mp hsome).1
  rw [h.score _ (h.length ▸ hlt)] at hsome
  exact ⟨Option.some.inj hsome, hlt, hlow⟩

theorem mem_chosen_iff {keep : Single} {most i : Nat} :
    i ∈ chosen keep scores most ↔
      ∃ c ∈ ((candidates keep scores).mergeSort sooner).take most, c.2 = i :=
  List.mem_map

theorem nodup_chosen (h : r.Ranks scores) (most : Nat) : (chosen r.keep scores most).Nodup := by
  have hcandidates : ((candidates r.keep scores).map (·.2 + 1)).Nodup := by
    rw [candidates_eq h, Ranking.candidates]
    exact List.Nodup.filter _ List.nodup_range'
  have hplaces : ((candidates r.keep scores).map (·.2)).Nodup := by
    refine List.Nodup.of_map (· + 1) ?_
    rwa [List.map_map]
  have hsorted : (((candidates r.keep scores).mergeSort sooner).map (·.2)).Nodup :=
    ((List.mergeSort_perm _ _).map _).nodup_iff.mpr hplaces
  rw [chosen, List.map_take]
  exact hsorted.sublist (List.take_sublist _ _)

theorem length_chosen (h : r.Ranks scores) (most : Nat) :
    (chosen r.keep scores most).length = Nat.min most r.candidates.length := by
  rw [chosen, List.length_map, List.length_take, List.length_mergeSort, ← candidates_eq h,
    List.length_map]

/-- The numbers of the lines that a mask of places takes away. -/
theorem mem_gone_mask {n k : Nat} {places : List Nat} :
    k ∈ gone (mask n places) ↔ (1 ≤ k ∧ k ≤ n) ∧ k - 1 ∈ places := by
  rw [mem_gone]
  by_cases hk : 1 ≤ k ∧ k ≤ n
  · rw [getElem?_mask (by omega)]
    simp [hk]
  · simp only [hk, false_and, iff_false, not_and]
    intro h1 hsome
    have := (List.getElem?_eq_some_iff.mp hsome).1
    rw [length_mask] at this
    omega

theorem length_gone_mask {n : Nat} {places : List Nat} (hnodup : places.Nodup)
    (hlt : ∀ i ∈ places, i < n) : (gone (mask n places)).length = places.length := by
  have hgone : (gone (mask n places)).Nodup :=
    List.Nodup.sublist (gone_sublist _) List.nodup_range'
  have hnumbers : (places.map (· + 1)).Nodup := hnodup.map Nat.succ_injective
  have hsame : ∀ k, k ∈ gone (mask n places) ↔ k ∈ places.map (· + 1) := by
    intro k
    rw [mem_gone_mask, List.mem_map]
    constructor
    · rintro ⟨⟨hpos, -⟩, hplace⟩
      exact ⟨k - 1, hplace, Nat.sub_add_cancel hpos⟩
    · rintro ⟨i, hi, rfl⟩
      have := hlt i hi
      exact ⟨⟨by omega, by omega⟩, by rwa [Nat.add_sub_cancel]⟩
  rw [((List.perm_ext_iff_of_nodup hgone hnumbers).mpr hsame).length_eq, List.length_map]

/-- A score that was sorted before another is lower, or stands earlier with the same score. -/
theorem precedes_of_sooner (h : r.Ranks scores) {c d : Single × Nat}
    (hc : r.score (c.2 + 1) = some c.1) (hd : r.score (d.2 + 1) = some d.1)
    (hlow : d.1.lt r.keep = true) (hne : c.2 ≠ d.2) (hsooner : sooner c d = true) :
    r.Precedes (c.2 + 1) (d.2 + 1) := by
  have hnan : d.1 ≠ .nan := by
    intro hd
    rw [hd] at hlow
    cases hlow
  refine ⟨c.1, d.1, hc, hd, ?_⟩
  rw [sooner_iff, rank, rank, Prod.Lex.toLex_le_toLex] at hsooner
  refine hsooner.imp (fun hlt => ?_) fun ⟨heq, hle⟩ => ⟨Binary.place_injective heq, by omega⟩
  rw [← Binary.before_eq_lt (h.positive _ _ hc) hnan]
  exact Binary.before_iff_place.mpr hlt

/-- The mask of the first candidates takes away the first lines of the ranking. -/
theorem first_gone (h : r.Ranks scores) (most : Nat) :
    r.First most (gone (mask scores.length (chosen r.keep scores most))) where
  sublist := by
    have hall : ∀ k ∈ gone (mask scores.length (chosen r.keep scores most)),
        (r.score k).any (·.lt r.keep) = true := by
      intro k hk
      obtain ⟨⟨hpos, hle⟩, hchosen⟩ := mem_gone_mask.mp hk
      obtain ⟨a, ha, hlow⟩ := score_of_mem_chosen hchosen
      rw [h.score (k - 1) (by rw [← h.length]; omega), Nat.sub_add_cancel hpos] at ha
      rw [Option.some.inj ha]
      exact hlow
    have hsub := (gone_sublist (mask scores.length (chosen r.keep scores most))).filter
      fun k => (r.score k).any (·.lt r.keep)
    rw [List.filter_eq_self.mpr hall, length_mask] at hsub
    rwa [Ranking.candidates, ← h.length]
  length := by
    rw [length_gone_mask (nodup_chosen h most) fun i hi => ?_, length_chosen h]
    obtain ⟨a, ha, -⟩ := score_of_mem_chosen hi
    exact (List.getElem?_eq_some_iff.mp ha).1
  first j hj k hk hkept := by
    obtain ⟨⟨hjpos, -⟩, hj⟩ := mem_gone_mask.mp hj
    obtain ⟨c, hc, hcj⟩ := mem_chosen_iff.mp hj
    rw [← candidates_eq h] at hk
    obtain ⟨d, hd, rfl⟩ := List.mem_map.mp hk
    obtain ⟨hdscore, hdlt, hdlow⟩ := score_of_mem_candidates h hd
    -- The second one is sorted, and not among those that are taken.
    have hrest : d ∈ ((candidates r.keep scores).mergeSort sooner).drop most := by
      have hmem : d ∈ (candidates r.keep scores).mergeSort sooner := List.mem_mergeSort.mpr hd
      rw [← List.take_append_drop most (List.mergeSort _ _), List.mem_append] at hmem
      refine hmem.resolve_left fun htaken => hkept (mem_gone_mask.mpr ⟨?_, ?_⟩)
      · omega
      · exact mem_chosen_iff.mpr ⟨d, htaken, by omega⟩
    have hsorted := pairwise_sooner (candidates r.keep scores)
    rw [← List.take_append_drop most (List.mergeSort _ _), List.pairwise_append] at hsorted
    have hsooner := hsorted.2.2 c hc d hrest
    have hcmem := List.mem_mergeSort.mp (List.mem_of_mem_take hc)
    have hne : c.2 ≠ d.2 := by
      intro heq
      refine hkept (mem_gone_mask.mpr ⟨?_, ?_⟩)
      · omega
      · exact mem_chosen_iff.mpr ⟨c, hc, by omega⟩
    obtain ⟨hcscore, -, -⟩ := score_of_mem_candidates h hcmem
    have hprecedes := precedes_of_sooner h hcscore hdscore hdlow hne hsooner
    rwa [hcj, Nat.sub_add_cancel hjpos] at hprecedes

end First

/-! ## Lines that would go alone -/

/-- With markers, those lines stay that are runs of their own. -/
theorem mem_gone_keepSingles {m : List Bool} {k : Nat} :
    k ∈ gone (keepSingles false m) ↔ k ∈ gone m ∧ ¬ MaximalRun (gone m) k k := by
  have hbefore : 1 ≤ k → ((false :: m)[k - 1]? = some true ↔ k - 1 ∈ gone m) := by
    intro hk
    rw [mem_gone]
    rcases Nat.lt_or_ge k 2 with hone | htwo
    · obtain rfl : k = 1 := by omega
      simp
    · obtain ⟨i, rfl⟩ : ∃ i, k = i + 2 := ⟨k - 2, by omega⟩
      simp
  have hafter : 1 ≤ k → (m[k - 1 + 1]? = some true ↔ k + 1 ∈ gone m) := by
    intro hk
    rw [mem_gone, Nat.sub_add_cancel hk, Nat.add_sub_cancel]
    simp
  have hrun : k ∈ gone m →
      (MaximalRun (gone m) k k ↔ k - 1 ∉ gone m ∧ k + 1 ∉ gone m) := by
    intro hk
    refine ⟨fun h => h.2.2, fun h => ⟨Nat.le_refl k, fun j hj hj' => ?_, h⟩⟩
    rwa [Nat.le_antisymm hj' hj]
  rw [mem_gone, keepSingles_eq_true]
  constructor
  · rintro ⟨hpos, hk, hnext⟩
    rw [hbefore hpos, hafter hpos] at hnext
    have hk := mem_gone.mpr ⟨hpos, hk⟩
    refine ⟨hk, fun hmax => ?_⟩
    obtain ⟨hno, hno'⟩ := (hrun hk).mp hmax
    exact hnext.elim hno hno'
  · rintro ⟨hk, hmax⟩
    obtain ⟨hpos, hgoes⟩ := mem_gone.mp hk
    refine ⟨hpos, hgoes, ?_⟩
    rw [hbefore hpos, hafter hpos]
    by_contra hnone
    exact hmax ((hrun hk).mpr (not_or.mp hnone))

end Selection

namespace Pruner

open PrunerM Selection

variable {σ : Type} {p : Pruner σ} {request : PruneRequest} {s s' : PrunerState} {w w' : σ}

/-- The numbers of the lines that the scores choose, before any of them stays since it would go
alone. -/
def rawSelection (config : PrunerConfig) (request : PruneRequest) (outside : OutsideScores) :
    List Nat :=
  let lines := (Lines.ofText request.text).lines
  let scores := Selection.scores lines (classify (request.kind.resolve lines) lines)
    (termsOf request.goal) outside.scores
  gone (mask scores.length (chosen config.keepScore scores
    (quota request.options lines.length)))

theorem first_rawSelection (config : PrunerConfig) (request : PruneRequest)
    (outside : OutsideScores) :
    (rankingOf config request outside.scores).First
      (quota request.options (Lines.ofText request.text).lines.length)
      (rawSelection config request outside) :=
  first_gone (ranks_rankingOf config request outside.scores) _

theorem mem_gone_chosenBy {config : PrunerConfig} {outside : OutsideScores} {k : Nat} :
    k ∈ gone (chosenBy config request outside).mask ↔
      k ∈ rawSelection config request outside ∧ (request.options.markers = true →
        ¬ MaximalRun (rawSelection config request outside) k k) := by
  simp only [chosenBy, maskOf, rawSelection]
  split
  · rename_i hmarkers
    rw [mem_gone_keepSingles]
    simp [hmarkers]
  · rename_i hmarkers
    simp [hmarkers]

/-- An answer that does not give the text back leaves out the first lines of the ranking, as many
as the bounds of the request allow; with markers, those of them that would go alone stay. -/
theorem prune_greedy (p : Pruner σ) (request : PruneRequest) (s : PrunerState) (w : σ)
    (h : (exec (p.prune request) s w).1.1.gaveBack = false) :
    let r := (exec (p.prune request) s w).1.1
    let count := (Lines.ofText request.text).lines.length
    let outside := (p.outsideFor request s w).scores
    let ranking := rankingOf p.config request outside
    ∃ raw numbers, LeavesOut request r numbers ∧
      ranking.First (Nat.min (Binary.ofNat count * request.options.maxRatio).floorWord
        (count - request.options.minKeep)) raw ∧
      (∀ k, k ∈ numbers ↔ k ∈ raw ∧ (request.options.markers = true → ¬ MaximalRun raw k k)) ∧
      (∀ k ∈ numbers, k ∈ ranking.candidates) ∧
      (∀ k ∈ ranking.candidates, k ∉ raw → ∀ j ∈ numbers, ranking.Precedes j k) ∧
      (raw ≠ [] → r.stats.reranked = outside.isSome) := by
  rcases hr : exec (p.prune request) s w with ⟨⟨r, s'⟩, w'⟩
  rw [hr] at h
  obtain ⟨chosen, -, hmask, hout, hreranked⟩ := prune_answered hr h
  have hfirst := first_rawSelection p.config request (p.outsideFor request s w)
  have hnumbers : ∀ k, k ∈ gone chosen.mask ↔ _ := fun k => hmask ▸ mem_gone_chosenBy
  refine ⟨_, _, hout, hfirst, hnumbers,
    fun k hk => hfirst.sublist.subset ((hnumbers k).mp hk).1,
    fun k hk hkept j hj => hfirst.first j ((hnumbers j).mp hj).1 k hk hkept,
    fun hsome => hreranked fun hnone => hsome ?_⟩
  -- Without a quota the selection is empty.
  rw [← List.length_eq_zero_iff, hfirst.length, hnone]
  exact Nat.zero_min _

/-- Half of the lines of a document may go. -/
def scattered : PruneRequest :=
  ⟨"a\n\nx\n\n\nb", "", .document, ⟨.ofRatio 1 2, 0, 1000, false, true, false⟩⟩

theorem chosen_scattered (most : Nat) :
    chosen PrunerConfig.standard.keepScore
      (scores (Lines.ofText scattered.text).lines
        (classify (scattered.kind.resolve (Lines.ofText scattered.text).lines)
          (Lines.ofText scattered.text).lines) (termsOf scattered.goal) none) most =
      [1, 3, 4, 2].take most := by
  have hclasses : classify (scattered.kind.resolve (Lines.ofText scattered.text).lines)
      (Lines.ofText scattered.text).lines =
        [.anchored, .blank, .ordinary, .blank, .blank, .anchored] := by
    rw [classify, earlierRepeats_eq]
    decide +kernel
  have hcandidates : candidates PrunerConfig.standard.keepScore
      (scores (Lines.ofText scattered.text).lines
        [.anchored, .blank, .ordinary, .blank, .blank, .anchored] (termsOf scattered.goal) none) =
      [(Score.blank, 1), (Score.neutral, 2), (Score.blank, 3), (Score.blank, 4)] := by
    decide +kernel
  have hperm : [(Score.blank, 1), (Score.neutral, 2), (Score.blank, 3), (Score.blank, 4)].Perm
      [(Score.blank, 1), (Score.blank, 3), (Score.blank, 4), (Score.neutral, 2)] := by
    decide +kernel
  have hsorted : [(Score.blank, 1), (Score.blank, 3), (Score.blank, 4), (Score.neutral, 2)].Pairwise
      fun a b => sooner a b = true := by
    decide +kernel
  rw [hclasses, chosen, hcandidates, mergeSort_sooner hperm hsorted, List.map_take]
  rfl

theorem mask_scattered : (chosenBy .standard scattered ⟨none, false, []⟩).mask =
    [false, false, false, true, true, false] := by
  have hcount : (Lines.ofText scattered.text).lines.length = 6 := by decide +kernel
  have hquota : quota scattered.options 6 = 3 := by decide +kernel
  simp only [chosenBy, maskOf, chosen_scattered, length_scores, hcount, hquota, mask_eq_map]
  decide

theorem answered_scattered :
    (exec (asleep.prune scattered) (.fresh .standard 0) ()).1.1.gaveBack = false :=
  answered_still (p := asleep) rfl (by decide) (by decide +kernel) (Nat.zero_le _)
    (by
      change fault? scattered.options (chosenBy .standard scattered _).mask = none
      rw [outsideFor, if_neg (by decide), mask_scattered]
      decide +kernel)

/-- The first three candidates are the three blank lines, and the one that would go alone stays. -/
theorem prune_greedy_scattered :
    (exec (asleep.prune scattered) (.fresh .standard 0) ()).1.1.gaveBack = false ∧
    let r := (exec (asleep.prune scattered) (.fresh .standard 0) ()).1.1
    let count := (Lines.ofText scattered.text).lines.length
    let outside := (asleep.outsideFor scattered (.fresh .standard 0) ()).scores
    let ranking := rankingOf asleep.config scattered outside
    ∃ raw numbers, LeavesOut scattered r numbers ∧
      ranking.First (Nat.min (Binary.ofNat count * scattered.options.maxRatio).floorWord
        (count - scattered.options.minKeep)) raw ∧
      (∀ k, k ∈ numbers ↔ k ∈ raw ∧ (scattered.options.markers = true → ¬ MaximalRun raw k k)) ∧
      (∀ k ∈ numbers, k ∈ ranking.candidates) ∧
      (∀ k ∈ ranking.candidates, k ∉ raw → ∀ j ∈ numbers, ranking.Precedes j k) ∧
      (raw ≠ [] → r.stats.reranked = outside.isSome) :=
  ⟨answered_scattered, prune_greedy asleep scattered _ _ answered_scattered⟩

end Pruner
end ContextBudget

import ContextBudget.Proofs.Prune.Outline
import ContextBudget.Proofs.Prune.Run

/-!
# What a prune promises

Whatever the reranker does, an answer of a pruner either gives the text back as it was, with a
warning that tells why, or stays within the bounds of its request and spares the protected lines.

- `Choice.length_mask`, `Choice.goneCount_le`, `Choice.unprotected`, `Choice.paired`: what is chosen
  to go is one truth value for each line, no more lines than the quota, none of them protected, and
  with markers none of them alone.
- `prune_contract`: the two shapes of an answer.
-/

namespace ContextBudget

/-! ## Protected lines -/

/-- The number `k` is that of a line that may go: it is neither the first nor the last line, nor
structure in a text of the kind. -/
def Unprotected (kind : SourceKind) (lines : List String) (k : Nat) : Prop :=
  k ≠ 1 ∧ k ≠ lines.length ∧ ∀ line, lines[k - 1]? = some line → kind.isStructural line = false

theorem unprotected_of_classify {kind : SourceKind} {lines : List String} {i : Nat} {c : LineClass}
    (h : (classify kind lines)[i]? = some c) (hc : c ≠ .anchored) :
    Unprotected kind lines (i + 1) := by
  rw [classify, List.getElem?_map, Option.map_eq_some_iff] at h
  obtain ⟨⟨⟨line, repeated⟩, j⟩, hx, rfl⟩ := h
  obtain ⟨hz, rfl⟩ : (lines.zip (earlierRepeats lines))[i]? = some (line, repeated) ∧ i = j := by
    rw [List.getElem?_zipIdx, Option.map_eq_some_iff] at hx
    obtain ⟨y, hy, he⟩ := hx
    cases he
    exact ⟨hy, by omega⟩
  have hline := (List.getElem?_zip_eq_some.mp hz).1
  have hlt := (List.getElem?_eq_some_iff.mp hline).1
  have hfree : (i == 0 || i == lines.length - 1 || kind.isStructural line) = false := by
    by_contra hne
    rw [Bool.not_eq_false] at hne
    exact hc (if_pos hne)
  simp only [Bool.or_eq_false_iff, beq_eq_false_iff_ne] at hfree
  obtain ⟨⟨hfirst, hlast⟩, hplain⟩ := hfree
  refine ⟨by omega, by omega, fun line' hline' => ?_⟩
  rw [Nat.add_sub_cancel, hline] at hline'
  cases hline'
  exact hplain

namespace Selection

theorem score_eq_some {own s : Single} {c : LineClass} (h : score own c = some s) :
    c ≠ .anchored := by
  rintro rfl
  cases h

/-- A line with a score is not anchored. -/
theorem class_of_scores {lines goal : List String} {classes : List LineClass}
    {outside : Option (List Single)} {i : Nat} {s : Single}
    (h : (scores lines classes goal outside)[i]? = some (some s)) :
    ∃ c, classes[i]? = some c ∧ c ≠ .anchored := by
  cases outside with
  | none =>
    rw [scores, List.getElem?_map, Option.map_eq_some_iff] at h
    obtain ⟨x, hx, hs⟩ := h
    exact ⟨x.1, (List.getElem?_zip_eq_some.mp hx).1, score_eq_some hs⟩
  | some given =>
    simp only [scores] at h
    rw [List.getElem?_map, Option.map_eq_some_iff] at h
    obtain ⟨x, hx, hs⟩ := h
    exact ⟨x.1, (List.getElem?_zip_eq_some.mp hx).1, score_eq_some hs⟩

/-- A line that goes alone or not was chosen. -/
theorem getElem?_of_keepSingles {before : Bool} {m : List Bool} {i : Nat}
    (h : (keepSingles before m)[i]? = some true) : m[i]? = some true := by
  rw [getElem?_keepSingles, Option.map_eq_some_iff] at h
  obtain ⟨goes, hm, hgoes⟩ := h
  rw [hm, (Bool.and_eq_true_iff.mp hgoes).1]

end Selection

namespace Pruner

open PrunerM

variable {σ : Type} {config : PrunerConfig} {options : PruneOptions}

/-! ## Masks that are chosen -/

theorem goneCount_maskOf_le (scores : List (Option Single)) (most : Nat) :
    Selection.goneCount (maskOf config options scores most) ≤ most := by
  have hmask := (Selection.goneCount_mask_le scores.length
    (Selection.chosen config.keepScore scores most)).trans (Selection.length_chosen_le _ _ _)
  simp only [maskOf]
  split
  · exact (Selection.goneCount_keepSingles_le _ _).trans hmask
  · exact hmask

theorem score_of_maskOf {scores : List (Option Single)} {most i : Nat}
    (h : (maskOf config options scores most)[i]? = some true) :
    ∃ s, scores[i]? = some (some s) := by
  have hmask : (Selection.mask scores.length
      (Selection.chosen config.keepScore scores most))[i]? = some true := by
    simp only [maskOf] at h
    split at h
    · exact Selection.getElem?_of_keepSingles h
    · exact h
  have hlt := (List.getElem?_eq_some_iff.mp hmask).1
  rw [Selection.length_mask] at hlt
  rw [Selection.getElem?_mask hlt, Option.some.injEq, List.contains_iff_mem] at hmask
  obtain ⟨s, hs, -⟩ := Selection.score_of_mem_chosen hmask
  exact ⟨s, hs⟩

namespace Choice

variable {request : PruneRequest} {lines : List String} {chosen : Chosen}

theorem length_mask (h : Choice config request lines chosen) :
    chosen.mask.length = lines.length := by
  obtain ⟨outside, hmask⟩ := h.mask
  rw [hmask, maskOf]
  split <;> simp [length_scores]

theorem goneCount_le (h : Choice config request lines chosen) :
    Selection.goneCount chosen.mask ≤ Selection.quota request.options lines.length := by
  obtain ⟨outside, hmask⟩ := h.mask
  rw [hmask]
  exact goneCount_maskOf_le _ _

theorem unprotected (h : Choice config request lines chosen) {k : Nat}
    (hk : k ∈ Selection.gone chosen.mask) : Unprotected chosen.kind lines k := by
  obtain ⟨outside, hmask⟩ := h.mask
  obtain ⟨h1, hgoes⟩ := Selection.mem_gone.mp hk
  rw [hmask] at hgoes
  obtain ⟨s, hs⟩ := score_of_maskOf hgoes
  obtain ⟨c, hc, hne⟩ := Selection.class_of_scores hs
  have hfree := unprotected_of_classify hc hne
  rwa [Nat.sub_add_cancel h1, ← h.kind] at hfree

theorem paired (h : Choice config request lines chosen) (markers : request.options.markers = true) :
    Selection.Paired chosen.mask := by
  obtain ⟨outside, hmask⟩ := h.mask
  rw [hmask, maskOf, if_pos markers]
  exact Selection.paired_keepSingles _

end Choice

/-! ## The two shapes of an answer -/

/-- The codes of the warnings about refusals. -/
def refusalCodes : List String :=
  ["invalid_options", "input_too_large", "timeout", "constraint_unsatisfiable", "internal_error"]

theorem warning_code_mem (refusal : Refusal) : refusal.warning.code ∈ refusalCodes := by
  cases refusal <;> simp [refusalCodes, Refusal.warning]

/-- An answer gives the text of a request back as it was, and tells why. -/
structure GivesBack (request : PruneRequest) (r : PruneResponse) : Prop where
  gaveBack : r.gaveBack = true
  text : r.text = request.text
  cuts : r.cuts = []
  total : r.stats.total = (Lines.ofText request.text).lines.length
  pruned : r.stats.pruned = 0
  kept : r.stats.kept = r.stats.total
  why : ∃ warning, r.warnings.getLast? = some warning ∧ warning.code ∈ refusalCodes

/-- The numbers are those of the lines that an answer leaves out. -/
structure LeavesOut (request : PruneRequest) (r : PruneResponse) (numbers : List Nat) : Prop where
  sublist : numbers.Sublist (List.range' 1 (Lines.ofText request.text).lines.length)
  length : numbers.length = r.stats.pruned
  cuts : ∀ k, k ∈ numbers ↔ ∃ c ∈ r.cuts, c.first ≤ k ∧ k ≤ c.last
  text : r.text = Lines.text ⟨Selection.layout request.options numbers r.cuts
    (Lines.ofText request.text).lines, (Lines.ofText request.text).closed⟩

/-- An answer that leaves lines out stays within the limits of the pruner and the bounds of the
request, warns about nothing but the reranker, and spares the protected lines. -/
structure StaysWithin (config : PrunerConfig) (request : PruneRequest) (r : PruneResponse) :
    Prop where
  gaveBack : r.gaveBack = false
  valid : request.options.fault? = none
  total : r.stats.total = (Lines.ofText request.text).lines.length
  bytes : request.text.utf8ByteSize ≤ config.maxBytes
  lines : r.stats.total ≤ config.maxLines
  ratio : r.stats.pruned ≤ (Binary.ofNat r.stats.total * request.options.maxRatio).floorWord
  keep : request.options.minKeep ≤ r.stats.kept
  sum : r.stats.kept + r.stats.pruned = r.stats.total
  warnings : ∀ warning ∈ r.warnings, warning.code = rerankerFailed
  kind : r.stats.kind = some (request.kind.resolve (Lines.ofText request.text).lines)
  spares : ∃ numbers, LeavesOut request r numbers ∧ ∀ k ∈ numbers,
    Unprotected (request.kind.resolve (Lines.ofText request.text).lines)
      (Lines.ofText request.text).lines k

/-- What the limits of a pruner and valid options are worth. -/
theorem refusal_eq_none {request : PruneRequest} {lines : Nat}
    (h : refusal? config request lines = none) :
    request.options.fault? = none ∧ request.text.utf8ByteSize ≤ config.maxBytes ∧
      lines ≤ config.maxLines := by
  simp only [refusal?] at h
  split at h
  · cases h
  · rename_i hvalid
    split at h
    · cases h
    · split at h
      · cases h
      · exact ⟨hvalid, by omega, by omega⟩

theorem givesBack_unpruned (id : String) (request : PruneRequest) (warnings : List Warning)
    (refusal : Refusal) (millis : Nat) :
    GivesBack request (unpruned id request.text (warnings ++ [refusal.warning]) millis) where
  gaveBack := rfl
  text := rfl
  cuts := rfl
  total := rfl
  pruned := rfl
  kept := rfl
  why := ⟨refusal.warning, List.getLast?_concat, warning_code_mem refusal⟩

theorem leavesOut_pruned {id : String} {request : PruneRequest} {chosen : Chosen}
    {warnings : List Warning} {millis : Nat}
    (h : chosen.mask.length = (Lines.ofText request.text).lines.length) :
    LeavesOut request (pruned id request chosen warnings millis)
      (Selection.gone chosen.mask) where
  sublist := h ▸ Selection.gone_sublist chosen.mask
  length := Selection.length_gone chosen.mask
  cuts _ := Selection.mem_gone_iff id h
  text := by
    simp only [pruned]
    rw [Selection.outline_eq_layout h]

theorem staysWithin_pruned {id : String} {request : PruneRequest} {chosen : Chosen}
    {warnings : List Warning} {millis : Nat}
    (choice : Choice config request (Lines.ofText request.text).lines chosen)
    (reranker : ∀ x ∈ warnings, x.code = rerankerFailed) :
    StaysWithin config request (pruned id request chosen warnings millis) := by
  obtain ⟨hvalid, hbytes, hlines⟩ := refusal_eq_none choice.allowed
  have hquota := choice.goneCount_le
  have henough := choice.enough
  rw [Selection.quota, Nat.le_min] at hquota
  obtain ⟨hratio, hkeep⟩ := hquota
  refine ⟨rfl, hvalid, rfl, hbytes, hlines, hratio, ?_, ?_, reranker, ?_,
    Selection.gone chosen.mask, leavesOut_pruned choice.length_mask, fun k hk => ?_⟩
  · simp only [pruned]
    omega
  · simp only [pruned]
    omega
  · simp only [pruned, choice.kind]
  · exact choice.kind ▸ choice.unprotected hk

/-- Every answer of a pruner gives the text back or stays within its bounds, whatever the clock
tells and whatever the reranker does. -/
theorem prune_contract (p : Pruner σ) (request : PruneRequest) (s : PrunerState) (w : σ) :
    let r := (exec (p.prune request) s w).1.1
    GivesBack request r ∨ StaysWithin p.config request r := by
  rcases hr : exec (p.prune request) s w with ⟨⟨r, s'⟩, w'⟩
  obtain ⟨record, v, hout, -, -⟩ := prune_ran hr
  cases hout with
  | refused warnings refusal millis => exact .inl (givesBack_unpruned _ _ _ _ _)
  | pruned chosen warnings millis choice sound reranker =>
    exact .inr (staysWithin_pruned choice reranker)

end Pruner
end ContextBudget

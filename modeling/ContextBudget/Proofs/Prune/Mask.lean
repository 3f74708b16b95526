import ContextBudget.Prune.Selection
import Mathlib.Algebra.Ring.Nat
import Mathlib.Data.List.Perm.Subperm

/-!
# Masks

What a mask takes away, as numbers of lines: `Selection.gone mask` lists the lines that go, in
order. The scores and the quota of a text bound it from two sides.

- `gone_sublist`, `length_gone`, `kept_eq_filter`: the lines that go and those that stay share the
  numbers of the text between them.
- `getElem?_mask`, `goneCount_mask_le`: a mask sets the places it is made of, and no more of them.
- `score_of_mem_chosen`, `length_chosen_le`: a place that is chosen has a score below the one from
  which lines stay, and there are no more of them than the quota allows.
- `getElem?_keepSingles`, `goneCount_keepSingles_le`: keeping lines that would go alone takes
  nothing more away, and leaves each line that goes a neighbour that goes too (`Paired`).
-/

namespace ContextBudget
namespace Selection

/-! ## The lines that go -/

/-- The numbers of the lines that go. -/
def gone (mask : List Bool) : List Nat := ((mask.zipIdx 1).filter (·.1)).map (·.2)

theorem mem_gone {mask : List Bool} {k : Nat} :
    k ∈ gone mask ↔ 1 ≤ k ∧ mask[k - 1]? = some true := by
  simp [gone, List.mem_zipIdx_iff_le_and_getElem?_sub]

theorem gone_sublist (mask : List Bool) : (gone mask).Sublist (List.range' 1 mask.length) := by
  rw [← List.zipIdx_map_snd 1 mask]
  exact List.filter_sublist.map _

theorem length_gone (mask : List Bool) : (gone mask).length = goneCount mask := by
  rw [gone, List.length_map, ← List.countP_eq_length_filter, goneCount, List.count]
  have h := List.countP_map (p := (· == true)) (f := Prod.fst) (l := mask.zipIdx 1)
  rw [List.zipIdx_map_fst] at h
  rw [h]
  exact List.countP_congr fun x _ => by simp

theorem countP_zip {α : Type} {xs : List α} {mask : List Bool} (h : mask.length = xs.length) :
    (xs.zip mask).countP (·.2) = goneCount mask := by
  have hz := List.countP_map (p := (· == true)) (f := Prod.snd) (l := xs.zip mask)
  rw [List.map_snd_zip (by omega)] at hz
  rw [goneCount, List.count, hz]
  exact List.countP_congr fun x _ => by simp

theorem kept_eq_filter (mask : List Bool) :
    kept mask = (List.range' 1 mask.length).filter fun k => k ∉ gone mask := by
  rw [← List.zipIdx_map_snd 1 mask, List.filter_map, ← List.filterMap_eq_map, kept,
    ← List.filterMap_eq_filter, List.filterMap_filterMap]
  refine List.filterMap_congr fun x hx => ?_
  rw [List.mem_zipIdx_iff_le_and_getElem?_sub] at hx
  have : x.2 ∈ gone mask ↔ x.1 = true := by
    rw [mem_gone, hx.2]
    simp [hx.1]
  cases hg : x.1 <;> simp [this, hg, Option.guard]

/-! ## Places that are set -/

theorem mask_eq_map (n : Nat) (places : List Nat) :
    mask n places = (List.range n).map fun i => places.contains i := by
  simp [mask, Std.HashSet.contains_ofList]

theorem getElem?_mask {n i : Nat} {places : List Nat} (h : i < n) :
    (mask n places)[i]? = some (places.contains i) := by
  simp [mask_eq_map, h]

theorem goneCount_mask_le (n : Nat) (places : List Nat) :
    goneCount (mask n places) ≤ places.length := by
  have hc : goneCount (mask n places) = ((List.range n).filter (places.contains ·)).length := by
    rw [goneCount, List.count, mask_eq_map, List.countP_map, List.countP_eq_length_filter]
    simp [Function.comp_def]
  rw [hc]
  refine (List.Nodup.subperm (List.nodup_range.filter _) fun i hi => ?_).length_le
  simpa using (List.mem_filter.mp hi).2

theorem mem_candidates {keep : Single} {scores : List (Option Single)} {c : Single × Nat} :
    c ∈ candidates keep scores ↔ scores[c.2]? = some (some c.1) ∧ c.1.lt keep = true := by
  obtain ⟨s, i⟩ := c
  simp only [candidates, List.mem_filterMap, List.mem_zipIdx_iff_getElem?, Prod.exists]
  constructor
  · rintro ⟨o, j, hj, h⟩
    cases o with
    | none => simp at h
    | some t =>
      simp only [Option.bind_some, Option.ite_none_right_eq_some, Option.some.injEq,
        Prod.mk.injEq] at h
      obtain ⟨ht, rfl, rfl⟩ := h
      exact ⟨hj, ht⟩
  · rintro ⟨hj, hs⟩
    exact ⟨some s, i, hj, by simp [hs]⟩

theorem score_of_mem_chosen {keep : Single} {scores : List (Option Single)} {most i : Nat}
    (h : i ∈ chosen keep scores most) :
    ∃ s, scores[i]? = some (some s) ∧ s.lt keep = true := by
  obtain ⟨c, hc, rfl⟩ := List.mem_map.mp h
  exact ⟨c.1, mem_candidates.mp (List.mem_mergeSort.mp (List.mem_of_mem_take hc))⟩

theorem length_chosen_le (keep : Single) (scores : List (Option Single)) (most : Nat) :
    (chosen keep scores most).length ≤ most := by
  rw [chosen, List.length_map, List.length_take]
  exact Nat.min_le_left _ _

/-! ## Lines that would go alone -/

/-- The line of a place goes if it went before and one of its neighbours did. -/
theorem getElem?_keepSingles (before : Bool) (m : List Bool) (i : Nat) :
    (keepSingles before m)[i]? =
      m[i]?.map fun goes => goes && ((before :: m)[i]?.getD false || m[i + 1]?.getD false) := by
  induction m generalizing before i with
  | nil => simp [keepSingles]
  | cons goes rest ih =>
    cases i with
    | zero => cases rest <;> simp [keepSingles]
    | succ i =>
      rw [keepSingles, List.getElem?_cons_succ, ih]
      simp

theorem goneCount_keepSingles_le (before : Bool) (m : List Bool) :
    goneCount (keepSingles before m) ≤ goneCount m := by
  induction m generalizing before with
  | nil => simp [keepSingles]
  | cons goes rest ih =>
    have := ih goes
    simp only [goneCount] at this ⊢
    rw [keepSingles, List.count_cons, List.count_cons]
    cases goes
    · simpa using this
    · cases before || rest.headD false <;> simp <;> omega

theorem keepSingles_eq_true {m : List Bool} {i : Nat} :
    (keepSingles false m)[i]? = some true ↔
      m[i]? = some true ∧ ((false :: m)[i]? = some true ∨ m[i + 1]? = some true) := by
  rw [getElem?_keepSingles, Option.map_eq_some_iff]
  constructor
  · rintro ⟨goes, hi, h⟩
    simp only [Bool.and_eq_true, Bool.or_eq_true] at h
    refine ⟨by rw [hi, h.1], h.2.imp (fun h => ?_) (fun h => ?_)⟩
    · cases ho : (false :: m)[i]? <;> simp_all
    · cases ho : m[i + 1]? <;> simp_all
  · rintro ⟨hi, h⟩
    exact ⟨true, hi, by rcases h with h | h <;> simp [h]⟩

/-- Each line that goes has a neighbour that goes. -/
def Paired (m : List Bool) : Prop :=
  ∀ i : Nat, m[i]? = some true → m[i + 1]? = some true ∨ ∃ j, j + 1 = i ∧ m[j]? = some true

theorem paired_keepSingles (m : List Bool) : Paired (keepSingles false m) := by
  intro i hi
  obtain ⟨hi, hn | hn⟩ := keepSingles_eq_true.mp hi
  · cases i with
    | zero => simp at hn
    | succ i =>
      -- The line before it stays gone, for this one is its neighbour.
      exact .inr ⟨i, rfl, keepSingles_eq_true.mpr ⟨by simpa using hn, .inr hi⟩⟩
  · exact .inl (keepSingles_eq_true.mpr ⟨hn, .inl (by simpa using hi)⟩)

end Selection
end ContextBudget

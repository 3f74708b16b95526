import ContextBudget.Proofs.Prune.Cuts
import ContextBudget.Proofs.Prune.LineText
import Mathlib.Algebra.Group.Action.Defs
import Mathlib.Algebra.Order.BigOperators.Group.List
import Mathlib.Algebra.Order.Group.Nat

/-!
# What is left of a text

The outline of a pruned text is built in one pass that takes a cut from a list whenever it comes to
the line where the cut begins. `Selection.layout` says the same line by line: a line that goes is
replaced by the markers of the cuts that begin there, every other line stays.

- `outline_eq_layout`: the pass and the line by line form agree on the cuts of a mask.
- `length_layout_lt`: with markers, and no line going alone, fewer lines are left than there were.
- `wellFormed_layout`: if the last line stays, what is left is again the lines of a text.
-/

namespace ContextBudget
namespace Selection

/-- The markers of the cuts that begin with a line. -/
def markersAt (options : PruneOptions) (cuts : List Cut) (number : Nat) : List String :=
  if options.markers then (cuts.filter fun c => c.first = number).map (·.marker) else []

/-- What is left of lines when some go. -/
def layout (options : PruneOptions) (gone : List Nat) (cuts : List Cut) (lines : List String) :
    List String :=
  (lines.zipIdx 1).flatMap fun (line, number) =>
    if number ∈ gone then markersAt options cuts number
    else [Lines.numbered options.numberLines lines.length number line]

theorem markersAt_cons_of_ne {options : PruneOptions} {cut : Cut} {cuts : List Cut} {k : Nat}
    (h : cut.first ≠ k) : markersAt options (cut :: cuts) k = markersAt options cuts k := by
  simp [markersAt, h]

theorem markersAt_eq_nil {options : PruneOptions} {cuts : List Cut} {k : Nat}
    (h : ∀ c ∈ cuts, k < c.first) : markersAt options cuts k = [] := by
  have : cuts.filter (fun c => c.first = k) = [] := by
    refine List.filter_eq_nil_iff.mpr fun c hc => ?_
    have := h c hc
    simp only [decide_eq_true_eq]
    omega
  simp [markersAt, this]

variable {options : PruneOptions} {count number : Nat} {cuts : List Cut}

/-- The pass over the lines, one line at a time. Each cut has to begin with a line that goes. -/
theorem outline_eq_flatMap {l : List (String × Bool)}
    (sorted : cuts.Pairwise fun a b => a.first < b.first)
    (begins : ∀ c ∈ cuts, ∃ line, ((line, true), c.first) ∈ l.zipIdx number) :
    outline options count number cuts l = (l.zipIdx number).flatMap fun x =>
      if x.1.2 then markersAt options cuts x.2
      else [Lines.numbered options.numberLines count x.2 x.1.1] := by
  induction l generalizing number cuts with
  | nil => rfl
  | cons y rest ih =>
    obtain ⟨line, goes⟩ := y
    have later : ∀ {c : Cut}, c ∈ cuts → c.first ≠ number →
        ∃ line, ((line, true), c.first) ∈ rest.zipIdx (number + 1) := by
      intro c hc hne
      obtain ⟨line', h⟩ := begins c hc
      rcases List.mem_cons.mp h with h | h
      · exact absurd (Prod.mk.inj h).2 hne
      · exact ⟨line', h⟩
    rw [List.zipIdx_cons, List.flatMap_cons]
    cases goes with
    | false =>
      have hne : ∀ c ∈ cuts, c.first ≠ number := by
        intro c hc heq
        obtain ⟨line', h⟩ := begins c hc
        rcases List.mem_cons.mp h with h | h
        · simp at h
        · have := (List.mem_zipIdx_iff_le_and_getElem?_sub.mp h).1
          simp only at this
          omega
      rw [outline, ih sorted fun c hc => later hc (hne c hc)]
      rfl
    | true =>
      cases cuts with
      | nil =>
        rw [outline, ih .nil (by simp)]
        simp [markersAt_eq_nil]
      | cons cut more =>
        obtain ⟨hbefore, hmore⟩ := List.pairwise_cons.mp sorted
        simp only [outline, ↓reduceIte]
        by_cases hfirst : cut.first = number
        · -- The cut is used up here; no later line is its first one.
          have hnone : markersAt options more number = [] :=
            markersAt_eq_nil fun c hc => by have := hbefore c hc; omega
          rw [if_pos hfirst, ih hmore fun c hc =>
            later (List.mem_cons_of_mem _ hc) (by have := hbefore c hc; omega)]
          congr 1
          · simp only [markersAt] at hnone ⊢
            split at hnone <;> simp_all
          · refine List.flatMap_congr fun x hx => ?_
            have := (List.mem_zipIdx_iff_le_and_getElem?_sub.mp hx).1
            rw [markersAt_cons_of_ne (by omega)]
        · obtain ⟨line', hl⟩ := later List.mem_cons_self hfirst
          have hlt := (List.mem_zipIdx_iff_le_and_getElem?_sub.mp hl).1
          simp only at hlt
          have hall : ∀ c ∈ cut :: more, number < c.first := by
            intro c hc
            rcases List.mem_cons.mp hc with rfl | hc
            · omega
            · have := hbefore c hc
              omega
          rw [if_neg hfirst, ih sorted fun c hc => later hc (by have := hall c hc; omega),
            markersAt_eq_nil hall, List.nil_append]

theorem length_outline_le (l : List (String × Bool)) :
    (outline options count number cuts l).length ≤ l.countP (!·.2) + cuts.length := by
  induction l generalizing number cuts with
  | nil => simp [outline]
  | cons y rest ih =>
    obtain ⟨line, goes⟩ := y
    cases goes with
    | false =>
      have : (outline options count (number + 1) cuts rest).length ≤ _ := ih
      simp only [outline, List.length_cons, List.countP_cons, Bool.not_false, ↓reduceIte]
      omega
    | true =>
      simp only [outline, List.countP_cons, Bool.not_true, Bool.false_eq_true, ↓reduceIte]
      cases cuts with
      | nil => exact ih
      | cons cut more =>
        simp only
        split
        · have : (outline options count (number + 1) more rest).length ≤ _ := ih
          split <;> simp <;> omega
        · exact ih

variable {id : String} {lines : List String} {mask : List Bool}

theorem outline_eq_layout (h : mask.length = lines.length) :
    outline options lines.length 1 (Selection.cuts id lines mask) (lines.zip mask) =
      layout options (gone mask) (Selection.cuts id lines mask) lines := by
  rw [outline_eq_flatMap]
  · have hz : lines.zipIdx 1 = ((lines.zip mask).zipIdx 1).map (Prod.map Prod.fst (·)) := by
      have hfst : (lines.zip mask).map Prod.fst = lines := List.map_fst_zip (by omega)
      conv_lhs => rw [← hfst]
      exact List.zipIdx_map
    rw [layout, hz, List.flatMap_map]
    refine List.flatMap_congr fun x hx => ?_
    obtain ⟨h1, hx⟩ := List.mem_zipIdx_iff_le_and_getElem?_sub.mp hx
    have hm := (List.getElem?_zip_eq_some.mp hx).2
    have : x.2 ∈ gone mask ↔ x.1.2 = true := by
      rw [mem_gone, hm]
      simp [h1]
    simp [this]
  · exact (cuts_apart id lines mask).imp_of_mem fun {a b} ha _ hab => by
      have := (cut_wellFormed ha).2.1
      omega
  · intro c hc
    have hfirst := (mem_gone_iff id h).mpr ⟨c, hc, Nat.le_refl _, (cut_wellFormed hc).2.1⟩
    obtain ⟨h1, hm⟩ := mem_gone.mp hfirst
    have hlt : c.first - 1 < lines.length := by
      obtain ⟨hlt, -⟩ := List.getElem?_eq_some_iff.mp hm
      omega
    exact ⟨lines[c.first - 1], List.mem_zipIdx_iff_le_and_getElem?_sub.mpr
      ⟨h1, List.getElem?_zip_eq_some.mpr ⟨List.getElem?_eq_getElem hlt, hm⟩⟩⟩

/-- Each cut takes two lines and leaves one, so a text that is cut gets shorter. -/
theorem length_layout_lt (h : mask.length = lines.length) (hp : Paired mask)
    (hpos : 0 < goneCount mask) :
    (layout options (gone mask) (Selection.cuts id lines mask) lines).length < lines.length := by
  rw [← outline_eq_layout h]
  refine Nat.lt_of_le_of_lt (length_outline_le _) ?_
  have hstay : (lines.zip mask).countP (!·.2) + goneCount mask = lines.length := by
    have hsum := List.length_eq_countP_add_countP (fun x : String × Bool => !x.2)
      (l := lines.zip mask)
    have hlen : (lines.zip mask).length = lines.length := by simp [h]
    rw [← countP_zip h, ← hlen, hsum]
    simp
  have htwo : 2 * (Selection.cuts id lines mask).length ≤ goneCount mask := by
    rw [← sum_count_cuts id h, Nat.mul_comm]
    have := List.card_nsmul_le_sum ((Selection.cuts id lines mask).map (·.count)) 2 (by
      intro n hn
      obtain ⟨c, hc, rfl⟩ := List.mem_map.mp hn
      exact two_le_count h hp hc)
    rwa [List.length_map, smul_eq_mul] at this
  omega

theorem oneLine_marker {first last count : Nat} {reason : CutReason} (h : Lines.OneLine id) :
    Lines.OneLine (Cut.markerText id first last count reason) := by
  have hreason : Lines.OneLine reason.text := by cases reason <;> decide
  have hfixed : Lines.OneLine "[... " ∧ Lines.OneLine " line(s) pruned: " ∧ Lines.OneLine "-" ∧
      Lines.OneLine " (" ∧ Lines.OneLine "); recover with prune_id=" ∧ Lines.OneLine " ...]" := by
    decide
  delta Cut.markerText
  simp only [Lines.oneLine_append, Lines.oneLine_repr, hreason, hfixed, h, and_self]

theorem wellFormed_layout {whole : Lines} (hw : whole.WellFormed) (hid : Lines.OneLine id)
    (hlast : whole.lines.length ∉ gone mask) :
    (⟨layout options (gone mask) (Selection.cuts id whole.lines mask) whole.lines,
      whole.closed⟩ : Lines).WellFormed := by
  have hline : ∀ line ∈ layout options (gone mask) (Selection.cuts id whole.lines mask) whole.lines,
      Lines.OneLine line := by
    intro line hline
    obtain ⟨x, hx, hmem⟩ := List.mem_flatMap.mp hline
    simp only at hmem
    split at hmem
    · unfold markersAt at hmem
      split at hmem
      · obtain ⟨c, hc, rfl⟩ := List.mem_map.mp hmem
        rw [(cut_wellFormed (List.mem_of_mem_filter hc)).2.2.2]
        exact oneLine_marker hid
      · cases hmem
    · obtain rfl := List.mem_singleton.mp hmem
      refine Lines.oneLine_numbered (hw.noEnd _ ?_)
      exact List.mem_of_getElem? (List.mem_zipIdx_iff_le_and_getElem?_sub.mp hx).2
  have hend : ∀ last, whole.lines.getLast? = some last →
      (layout options (gone mask) (Selection.cuts id whole.lines mask) whole.lines).getLast? =
        some (Lines.numbered options.numberLines whole.lines.length whole.lines.length last) := by
    intro last hl
    obtain ⟨init, hi⟩ := List.getLast?_eq_some_iff.mp hl
    have hn : whole.lines.length = init.length + 1 := by simp [hi]
    rw [hn] at hlast ⊢
    rw [layout, hi, List.zipIdx_append, List.flatMap_append, Nat.add_comm 1]
    simp [hlast]
  refine ⟨hline, fun hnil => ?_, fun hopen hempty => ?_⟩
  · refine hw.nil_open (List.getLast?_eq_none_iff.mp ?_)
    cases hl : whole.lines.getLast? with
    | none => rfl
    | some last =>
      have := hend last hl
      rw [show layout options (gone mask) _ whole.lines = [] from hnil] at this
      cases this
  · cases hl : whole.lines.getLast? with
    | none =>
      rw [List.getLast?_eq_none_iff] at hl
      simp [layout, hl] at hempty
    | some last =>
      rw [hend last hl, Option.some.injEq] at hempty
      refine hw.last_ne hopen (hl.trans (congrArg some ?_))
      unfold Lines.numbered at hempty
      split at hempty
      · exact (String.append_eq_empty_iff.mp hempty).2
      · exact hempty

end Selection
end ContextBudget

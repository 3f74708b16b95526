import ContextBudget.Proofs.Prune.LineText
import ContextBudget.Prune.Record
import Mathlib.Data.List.Sort

/-!
# Ranges of lines

What a record gives back for ranges of lines, told by the numbers of the lines that they want.

- `recover_eq`: the lines of these numbers, in the order of the ranges, closed at the end if the
  last of them is the last line of a text that was.
- `recover_tiles`: ranges that split the lines of the text into consecutive intervals give the text
  back.
-/

namespace ContextBudget
namespace LineRange

variable {r c : LineRange} {count : Nat} {ranges : List LineRange}

/-- The numbers of the lines that a range wants of a text of `count` lines. -/
def numbers (count : Nat) (r : LineRange) : List Nat :=
  (List.range' 1 count).filter fun k => r.first ≤ k ∧ k ≤ r.last

/-- The numbers of the lines that some ranges want, one range after the other. -/
def wanted (count : Nat) (ranges : List LineRange) : List Nat := ranges.flatMap (numbers count)

theorem numbers_eq_range' (count : Nat) (r : LineRange) :
    r.numbers count = List.range' (max r.first 1) (min r.last count + 1 - max r.first 1) := by
  have hsorted : (r.numbers count).Pairwise (· < ·) := (List.pairwise_lt_range' 1).filter _
  refine hsorted.eq_of_mem_iff (List.pairwise_lt_range' _) fun k => ?_
  simp only [numbers, List.mem_filter, List.mem_range'_1, decide_eq_true_eq]
  omega

theorem clamp?_eq_some (h : r.clamp? count = some c) :
    1 ≤ c.first ∧ c.first ≤ c.last ∧ c.last ≤ count ∧
      r.numbers count = List.range' c.first (c.last + 1 - c.first) := by
  rw [numbers_eq_range']
  simp only [clamp?] at h
  split at h
  · rename_i hle
    cases h
    exact ⟨Nat.le_max_right _ _, hle.2, Nat.min_le_right _ _, rfl⟩
  · cases h

theorem clamp?_eq_none (h : r.clamp? count = none) : r.numbers count = [] := by
  rw [numbers_eq_range', List.range'_eq_nil_iff]
  simp only [clamp?, ite_eq_right_iff, reduceCtorEq, imp_false] at h
  change ¬ (0 < count ∧ max r.first 1 ≤ min r.last count) at h
  omega

theorem wanted_eq_flatMap (count : Nat) (ranges : List LineRange) :
    wanted count ranges = (ranges.filterMap (·.clamp? count)).flatMap fun c =>
      List.range' c.first (c.last + 1 - c.first) := by
  induction ranges with
  | nil => rfl
  | cons r rest ih =>
    rw [wanted, List.flatMap_cons, ← wanted, ih]
    cases hc : r.clamp? count with
    | none => simp [clamp?_eq_none hc, hc]
    | some c => simp [(clamp?_eq_some hc).2.2.2, hc]

theorem getLast?_wanted : (wanted count ranges).getLast? =
    (ranges.filterMap (·.clamp? count)).getLast?.map (·.last) := by
  rw [wanted_eq_flatMap]
  cases hl : (ranges.filterMap (·.clamp? count)).getLast? with
  | none => simp [List.getLast?_eq_none_iff.mp hl]
  | some c =>
    obtain ⟨init, hinit⟩ := List.getLast?_eq_some_iff.mp hl
    obtain ⟨r, -, hr⟩ := List.mem_filterMap.mp (List.mem_of_getLast? hl)
    have hle := (clamp?_eq_some hr).2.1
    rw [hinit, List.flatMap_append, List.flatMap_singleton, List.getLast?_append,
      List.getLast?_range', if_neg (by omega)]
    simp only [Option.some_or, Option.map_some, Option.some.injEq]
    omega

/-! ## Intervals in a row -/

/-- The ranges follow one another from the line `start` to the line before `stop`. -/
def Tiles (start stop : Nat) : List LineRange → Prop
  | [] => start = stop
  | r :: rest => r.first = start ∧ r.first ≤ r.last ∧ Tiles (r.last + 1) stop rest

theorem Tiles.le {start stop : Nat} (h : Tiles start stop ranges) : start ≤ stop := by
  induction ranges generalizing start with
  | nil => exact Nat.le_of_eq h
  | cons r rest ih =>
    obtain ⟨hfirst, hle, hrest⟩ := h
    have := ih hrest
    omega

theorem wanted_of_tiles {start : Nat} (h : Tiles start (count + 1) ranges) (hpos : 1 ≤ start) :
    wanted count ranges = List.range' start (count + 1 - start) := by
  induction ranges generalizing start with
  | nil =>
    obtain rfl : start = count + 1 := h
    simp [wanted]
  | cons r rest ih =>
    obtain ⟨rfl, hle, hrest⟩ := h
    have hlast := hrest.le
    have hsplit : List.range' r.first (count + 1 - r.first) =
        List.range' r.first (r.last + 1 - r.first) ++
          List.range' (r.first + (r.last + 1 - r.first)) (count + 1 - (r.last + 1)) := by
      rw [List.range'_append_1]
      congr 1
      omega
    rw [wanted, List.flatMap_cons, ← wanted, ih hrest (by omega), numbers_eq_range',
      max_eq_left hpos, min_eq_left (by omega), hsplit,
      show r.first + (r.last + 1 - r.first) = r.last + 1 by omega]

/-- Ranges that come in order and do not meet tile the lines that they cover. -/
theorem tiles_of_covers {start stop : Nat} (hle : start ≤ stop)
    (apart : ranges.Pairwise fun a b => a.last < b.first) (filled : ∀ r ∈ ranges, r.first ≤ r.last)
    (covers : ∀ k, (start ≤ k ∧ k < stop) ↔ ∃ r ∈ ranges, r.first ≤ k ∧ k ≤ r.last) :
    Tiles start stop ranges := by
  induction ranges generalizing start with
  | nil =>
    have := covers start
    simp only [List.not_mem_nil, false_and, exists_false, iff_false] at this
    exact Nat.le_antisymm hle (by omega)
  | cons r rest ih =>
    obtain ⟨hr, hrest⟩ := List.pairwise_cons.mp apart
    have hfilled := filled r List.mem_cons_self
    have hfirst := (covers r.first).mpr ⟨r, List.mem_cons_self, Nat.le_refl _, hfilled⟩
    have hlast := (covers r.last).mpr ⟨r, List.mem_cons_self, hfilled, Nat.le_refl _⟩
    -- The first line is covered, and by no range that comes after the first one.
    have hstart : r.first = start := by
      obtain ⟨r', hr', h1, h2⟩ := (covers start).mp ⟨Nat.le_refl _, by omega⟩
      rcases List.mem_cons.mp hr' with rfl | hr'
      · omega
      · have := hr r' hr'
        omega
    refine ⟨hstart, hfilled, ih (by omega) hrest
      (fun r' hr' => filled r' (List.mem_cons_of_mem _ hr')) fun k => ⟨fun hk => ?_, ?_⟩⟩
    · obtain ⟨r', hr', h1, h2⟩ := (covers k).mp ⟨by omega, hk.2⟩
      rcases List.mem_cons.mp hr' with rfl | hr'
      · omega
      · exact ⟨r', hr', h1, h2⟩
    · rintro ⟨r', hr', h1, h2⟩
      have := hr r' hr'
      have := (covers k).mpr ⟨r', List.mem_cons_of_mem _ hr', h1, h2⟩
      omega

end LineRange

namespace PruneRecord

open LineRange (wanted Tiles)

variable {r : PruneRecord} {id : String} {ranges : List LineRange}

/-- The lines of some numbers. -/
def linesAt (lines : List String) (numbers : List Nat) : List String :=
  numbers.filterMap fun k => lines[k - 1]?

theorem linesAt_range' (lines : List String) (skipped count : Nat) :
    linesAt lines (List.range' (skipped + 1) count) = (lines.drop skipped).take count := by
  induction count generalizing skipped with
  | zero => simp [linesAt]
  | succ count ih =>
    rw [List.range'_succ, linesAt, List.filterMap_cons, ← linesAt, ih (skipped + 1),
      Nat.add_sub_cancel]
    cases hline : lines[skipped]? with
    | none =>
      rw [List.getElem?_eq_none_iff] at hline
      rw [List.drop_eq_nil_of_le hline, List.drop_eq_nil_of_le (by omega)]
      simp
    | some line =>
      obtain ⟨hlt, rfl⟩ := List.getElem?_eq_some_iff.mp hline
      rw [List.drop_eq_getElem_cons hlt, List.take_succ_cons]

theorem slice_eq_linesAt {lines : List String} {c : LineRange} (h : 1 ≤ c.first) :
    slice false lines c = linesAt lines (List.range' c.first (c.last + 1 - c.first)) := by
  obtain ⟨skipped, hs⟩ : ∃ skipped, c.first = skipped + 1 := ⟨c.first - 1, by omega⟩
  have hplain : ∀ x : String × Nat, Lines.numbered false lines.length x.2 x.1 = x.1 :=
    fun x => by simp [Lines.numbered]
  rw [slice, hs, linesAt_range', Nat.add_sub_cancel]
  simp only [hplain]
  rw [List.map_take, List.map_drop, List.zipIdx_map_fst]

/-- What a record gives back without line numbers. -/
theorem recover_eq (hne : ranges ≠ []) :
    r.recover ⟨id, ranges, false⟩ =
      Lines.text ⟨linesAt r.whole.lines (wanted r.whole.lines.length ranges),
        r.whole.closed &&
          (wanted r.whole.lines.length ranges).getLast? == some r.whole.lines.length⟩ := by
  have hranges : rangesOf ⟨id, ranges, false⟩ r.whole.lines.length =
      ranges.filterMap (·.clamp? r.whole.lines.length) := by
    simp [rangesOf, hne]
  have hlines : (ranges.filterMap (·.clamp? r.whole.lines.length)).flatMap
      (slice false r.whole.lines) =
        linesAt r.whole.lines (wanted r.whole.lines.length ranges) := by
    rw [LineRange.wanted_eq_flatMap, linesAt, List.filterMap_flatMap]
    refine List.flatMap_congr fun c hc => ?_
    obtain ⟨r', -, hr'⟩ := List.mem_filterMap.mp hc
    exact slice_eq_linesAt (LineRange.clamp?_eq_some hr').1
  simp only [recover, hranges, hlines, LineRange.getLast?_wanted]
  congr 3
  cases (ranges.filterMap (·.clamp? r.whole.lines.length)).getLast? <;> simp

/-- No ranges mean the range of all lines. -/
theorem recover_nil (r : PruneRecord) (id : String) :
    r.recover ⟨id, [], false⟩ = r.recover ⟨id, [⟨1, r.whole.lines.length⟩], false⟩ := by
  have : rangesOf ⟨id, [], false⟩ r.whole.lines.length =
      rangesOf ⟨id, [⟨1, r.whole.lines.length⟩], false⟩ r.whole.lines.length := by
    simp only [rangesOf, LineRange.clamp?]
    by_cases h : r.whole.lines.length = 0
    · simp [h]
    · simp [h, Nat.pos_of_ne_zero h, Nat.one_le_iff_ne_zero]
  simp only [recover, this]

theorem recover_whole (id : String) (h : r.whole.WellFormed) :
    r.recover ⟨id, [⟨1, r.whole.lines.length⟩], false⟩ = r.whole.text := by
  have hwanted : wanted r.whole.lines.length [⟨1, r.whole.lines.length⟩] =
      List.range' 1 r.whole.lines.length := by
    simp [wanted, LineRange.numbers_eq_range']
  rw [recover_eq (by simp), hwanted, linesAt_range' _ 0, List.drop_zero, List.take_length,
    List.getLast?_range']
  congr 2
  by_cases h0 : r.whole.lines.length = 0
  · rw [h.nil_open (List.length_eq_zero_iff.mp h0), Bool.false_and]
  · simp [h0]

theorem recover_tiles (h : r.whole.WellFormed) (tiles : Tiles 1 (r.whole.lines.length + 1) ranges) :
    r.recover ⟨id, ranges, false⟩ = r.whole.text := by
  by_cases hne : ranges = []
  · rw [hne, recover_nil, recover_whole id h]
  · have hwhole : Tiles 1 (r.whole.lines.length + 1) [⟨1, r.whole.lines.length⟩] := by
      refine ⟨rfl, ?_, rfl⟩
      obtain ⟨c, rest, rfl⟩ := List.exists_cons_of_ne_nil hne
      obtain ⟨hfirst, hle, hrest⟩ := tiles
      have := hrest.le
      simp only
      omega
    rw [← recover_whole id h, recover_eq hne, recover_eq (by simp),
      LineRange.wanted_of_tiles tiles (Nat.le_refl 1),
      LineRange.wanted_of_tiles hwhole (Nat.le_refl 1)]

end PruneRecord
end ContextBudget

import ContextBudget.Proofs.Prune.Greedy
import ContextBudget.Proofs.Prune.Recovery

/-!
# Reading numbered lines

Lines that stand with their numbers before them can be read back, whatever is in them: a number
takes the same room in all lines, no bar stands before the one that ends it, and a marker begins
with a bracket, as no number does.

- `Lines.read?`: reads one line, `Lines.read?_numbered` and `Lines.read?_marker` what is read.
- `Lines.readBack`: reads the lines of a text, with the markers that have to be among them.
- `Transcript`: numbered lines are those of a text.
- `prune_readBack`: an answer with line numbers, and what is recovered with them, read back.
-/

namespace ContextBudget
namespace Lines

/-! ## Reading a line -/

/-- What stands before the first bar that has a blank after it, and what stands after the two. -/
def cutAtBar : List Char → Option (List Char × List Char)
  | [] => none
  | c :: rest =>
    if c = '|' ∧ rest.head? = some ' ' then some ([], rest.tail)
    else (cutAtBar rest).map fun (front, back) => (c :: front, back)

/-- The decimal number at the right of some blanks. -/
def numberAtRight (front : List Char) : Option Nat :=
  let digits := front.dropWhile (· == ' ')
  if digits ≠ [] ∧ digits.all Char.isDigit then some (Nat.ofDigitChars 10 digits 0) else none

/-- A line of a text with line numbers. -/
inductive Item where
  | marker (text : String)
  | line (number : Nat) (content : String)

namespace Item

/-- The marker, if the line is one. -/
def marker? : Item → Option String
  | marker text => some text
  | line _ _ => none

/-- The line with its number, if it has one. -/
def line? : Item → Option (Nat × String)
  | marker _ => none
  | line number content => some (number, content)

/-- How the line is written in a text of `count` lines. -/
def written (count : Nat) : Item → String
  | marker text => text
  | line number content => numbered true count number content

end Item

/-- Reads a line: a marker begins with a bracket, and a number takes `width` characters. -/
def read? (width : Nat) (line : String) : Option Item :=
  if line.toList.head? = some '[' then some (.marker line)
  else
    (cutAtBar line.toList).bind fun (front, content) =>
      if front.length = width then
        (numberAtRight front).map fun number => .line number (String.ofList content)
      else none

theorem cutAtBar_append {front : List Char} (h : '|' ∉ front) (content : List Char) :
    cutAtBar (front ++ '|' :: ' ' :: content) = some (front, content) := by
  induction front with
  | nil => rfl
  | cons c rest ih =>
    obtain ⟨hc, hrest⟩ := not_or.mp (mt List.mem_cons.mpr h)
    rw [List.cons_append, cutAtBar, if_neg fun hbar => hc hbar.1.symm, ih hrest]
    rfl

theorem numberAtRight_toDigits (blanks n : Nat) :
    numberAtRight (List.replicate blanks ' ' ++ Nat.toDigits 10 n) = some n := by
  have hdigit : ∀ c ∈ Nat.toDigits 10 n, c.isDigit = true :=
    fun c hc => Nat.isDigit_of_mem_toDigits (by decide) (by decide) hc
  have hdrop : (List.replicate blanks ' ' ++ Nat.toDigits 10 n).dropWhile (· == ' ') =
      Nat.toDigits 10 n := by
    rw [List.dropWhile_append_of_pos fun c hc => by simp [(List.mem_replicate.mp hc).2]]
    obtain ⟨c, rest, hcons⟩ := List.exists_cons_of_ne_nil (Nat.toDigits_ne_nil (b := 10) (n := n))
    have hplain : (c == ' ') = false := by
      have := hdigit c (hcons ▸ List.mem_cons_self)
      rw [beq_eq_false_iff_ne]
      rintro rfl
      exact absurd this (by decide)
    rw [hcons, List.dropWhile_cons_of_neg (by simp [hplain])]
  rw [numberAtRight, hdrop, if_pos ⟨Nat.toDigits_ne_nil, List.all_eq_true.mpr hdigit⟩,
    Nat.ofDigitChars_toDigits (by decide) (by decide)]

/-- No number of a line of a text needs more room than the number of the last one. -/
theorem length_toDigits_le {n count : Nat} (h : n ≤ count) :
    (Nat.toDigits 10 n).length ≤ numberWidth count := by
  have hroom : (Nat.toDigits 10 count).length ≤ numberWidth count := by
    rw [← Nat.toList_repr, String.length_toList]
    exact Nat.le_max_left _ _
  have hpos : 0 < numberWidth count := Nat.lt_of_lt_of_le (by decide) (Nat.le_max_right _ _)
  rw [Nat.length_toDigits_le_iff (by decide) hpos] at hroom ⊢
  omega

theorem toList_numbered (count n : Nat) (line : String) :
    (numbered true count n line).toList =
      (List.replicate (numberWidth count - (Nat.toDigits 10 n).length) ' ' ++ Nat.toDigits 10 n) ++
        '|' :: ' ' :: line.toList := by
  simp [numbered, numberMark, Nat.toList_repr, ← String.length_toList]

/-- A numbered line is read as what it is, whatever is in the line. -/
theorem read?_numbered {count n : Nat} (h : n ≤ count) (line : String) :
    read? (numberWidth count) (numbered true count n line) = some (.line n line) := by
  have hchar : ∀ c ∈ List.replicate (numberWidth count - (Nat.toDigits 10 n).length) ' ' ++
      Nat.toDigits 10 n, c = ' ' ∨ c.isDigit = true := by
    intro c hc
    rcases List.mem_append.mp hc with hc | hc
    · exact .inl (List.mem_replicate.mp hc).2
    · exact .inr (Nat.isDigit_of_mem_toDigits (by decide) (by decide) hc)
  have hbar : '|' ∉ List.replicate (numberWidth count - (Nat.toDigits 10 n).length) ' ' ++
      Nat.toDigits 10 n := fun hc => absurd (hchar _ hc) (by decide)
  have hmark : (numbered true count n line).toList.head? ≠ some '[' := by
    rw [toList_numbered, List.head?_append]
    intro hhead
    rw [Option.or_of_isSome (by simp [Nat.toDigits_ne_nil])] at hhead
    exact absurd (hchar _ (List.mem_of_head? hhead)) (by decide)
  have hlength : (List.replicate (numberWidth count - (Nat.toDigits 10 n).length) ' ' ++
      Nat.toDigits 10 n).length = numberWidth count := by
    have := length_toDigits_le h
    rw [List.length_append, List.length_replicate]
    omega
  rw [read?, if_neg hmark, toList_numbered, cutAtBar_append hbar, Option.bind_some]
  dsimp only
  rw [if_pos hlength, numberAtRight_toDigits, Option.map_some, String.ofList_toList]

/-- So is a marker. -/
theorem read?_marker (width : Nat) (id : String) (first last count : Nat) (reason : CutReason) :
    read? width (Cut.markerText id first last count reason) =
      some (.marker (Cut.markerText id first last count reason)) := by
  refine if_pos ?_
  delta Cut.markerText
  simp [String.toList_append]

/-! ## Reading lines back -/

/-- Reads the lines of a text with line numbers: the markers among them have to be those that are
given, in this order, and all other lines have numbers. -/
def readBack (width : Nat) (markers : List String) (lines : List String) :
    Option (List (Nat × String)) :=
  (lines.mapM (read? width)).bind fun items =>
    if items.filterMap Item.marker? = markers then some (items.filterMap Item.line?) else none

/-- Lines that are read as they were written are read back. -/
theorem readBack_written {count : Nat} {items : List Item}
    (h : ∀ item ∈ items, read? (numberWidth count) (item.written count) = some item) :
    readBack (numberWidth count) (items.filterMap Item.marker?) (items.map (Item.written count)) =
      some (items.filterMap Item.line?) := by
  have hitems : (items.map (Item.written count)).mapM (read? (numberWidth count)) = some items := by
    induction items with
    | nil => rfl
    | cons item rest ih =>
      obtain ⟨hitem, hrest⟩ := List.forall_mem_cons.mp h
      rw [List.map_cons, List.mapM_cons, hitem, ih hrest]
      rfl
  rw [readBack, hitems, Option.bind_some, if_pos rfl]

end Lines

/-- Numbered lines are lines of a text, and the numbers are given. -/
structure Transcript (lines : List String) (numbers : List Nat) (items : List (Nat × String)) :
    Prop where
  numbers : items.map (·.1) = numbers
  contents : ∀ x ∈ items, 1 ≤ x.1 ∧ lines[x.1 - 1]? = some x.2

theorem Transcript.flatMap {α : Type} {lines : List String} {parts : List α}
    {numbers : α → List Nat} {items : α → List (Nat × String)}
    (h : ∀ x ∈ parts, Transcript lines (numbers x) (items x)) :
    Transcript lines (parts.flatMap numbers) (parts.flatMap items) where
  numbers := by
    rw [List.map_flatMap]
    exact List.flatMap_congr fun x hx => (h x hx).numbers
  contents y hy := by
    obtain ⟨x, hx, hy⟩ := List.mem_flatMap.mp hy
    exact (h x hx).contents y hy

namespace Lines

theorem wellFormed_numbered {whole : Lines} (hw : whole.WellFormed) {numbers : List Nat}
    {items : List (Nat × String)} (h : Transcript whole.lines numbers items) {closed : Bool}
    (hclosed : items = [] → closed = false) :
    (⟨items.map fun x => numbered true whole.lines.length x.1 x.2, closed⟩ : Lines).WellFormed where
  noEnd line hline := by
    obtain ⟨x, hx, rfl⟩ := List.mem_map.mp hline
    exact oneLine_numbered (hw.noEnd _ (List.mem_of_getElem? (h.contents x hx).2))
  nil_open hnil := hclosed (List.map_eq_nil_iff.mp hnil)
  last_ne _ hlast := by
    rw [List.getLast?_map, Option.map_eq_some_iff] at hlast
    obtain ⟨x, -, hempty⟩ := hlast
    have hchars := congrArg String.toList hempty
    rw [toList_numbered] at hchars
    simp at hchars

/-- Numbered lines of a text, and nothing else, are read back. -/
theorem readBack_transcript {lines : List String} {numbers : List Nat} {items : List (Nat × String)}
    (h : Transcript lines numbers items) :
    readBack (numberWidth lines.length) []
      (items.map fun x => numbered true lines.length x.1 x.2) = some items := by
  have hwritten : items.map (fun x => numbered true lines.length x.1 x.2) =
      (items.map fun x => Item.line x.1 x.2).map (Item.written lines.length) := by
    rw [List.map_map]
    rfl
  have hmarkers : (items.map fun x => Item.line x.1 x.2).filterMap Item.marker? = [] := by
    simp [List.filterMap_eq_nil_iff, Item.marker?]
  have hlines : (items.map fun x => Item.line x.1 x.2).filterMap Item.line? = items := by
    rw [List.filterMap_map]
    exact List.filterMap_some
  rw [hwritten, ← hmarkers, readBack_written, hlines]
  intro item hitem
  obtain ⟨x, hx, rfl⟩ := List.mem_map.mp hitem
  obtain ⟨hpos, hline⟩ := h.contents x hx
  have := (List.getElem?_eq_some_iff.mp hline).1
  exact read?_numbered (by omega) _

end Lines

/-! ## Lines that are recovered -/

namespace PruneRecord

open LineRange (wanted)

variable {ranges : List LineRange}

/-- The numbers of the lines that are asked for; no ranges ask for all of them. -/
def requested (count : Nat) (ranges : List LineRange) : List Nat :=
  if ranges = [] then List.range' 1 count else wanted count ranges

theorem requested_ascending (count : Nat) (h : ranges.Pairwise fun a b => a.last < b.first) :
    (requested count ranges).Pairwise (· < ·) := by
  unfold requested
  split
  · exact List.pairwise_lt_range' 1
  · refine List.pairwise_flatMap.mpr ⟨fun r _ => (List.pairwise_lt_range' 1).filter _, ?_⟩
    refine h.imp fun {a b} hab x hx y hy => ?_
    have hx := of_decide_eq_true (List.mem_filter.mp hx).2
    have hy := of_decide_eq_true (List.mem_filter.mp hy).2
    omega

/-- The lines of a range, with their numbers. -/
def numberedSlice (lines : List String) (range : LineRange) : List (Nat × String) :=
  (((lines.zipIdx 1).drop (range.first - 1)).take (range.last + 1 - range.first)).map Prod.swap

theorem slice_eq_numberedSlice (numberLines : Bool) (lines : List String) (range : LineRange) :
    slice numberLines lines range = (numberedSlice lines range).map fun x =>
      Lines.numbered numberLines lines.length x.1 x.2 := by
  rw [numberedSlice, List.map_map]
  rfl

theorem transcript_numberedSlice {lines : List String} {c : LineRange} (hfirst : 1 ≤ c.first)
    (hlast : c.last ≤ lines.length) :
    Transcript lines (List.range' c.first (c.last + 1 - c.first)) (numberedSlice lines c) where
  numbers := by
    rw [numberedSlice, List.map_map]
    change List.map Prod.snd _ = _
    rw [List.map_take, List.map_drop, List.zipIdx_map_snd, List.drop_range',
      List.take_range'_of_length_ge (by omega), Nat.mul_one, Nat.add_sub_cancel' hfirst]
  contents x hx := by
    obtain ⟨y, hy, rfl⟩ := List.mem_map.mp hx
    exact List.mem_zipIdx_iff_le_and_getElem?_sub.mp
      (List.mem_of_mem_drop (List.mem_of_mem_take hy))

/-- Every range that is meant lies within the text, and together they want what is asked for. -/
theorem requested_eq_flatMap (id : String) (ranges : List LineRange) (numberLines : Bool)
    (count : Nat) :
    (∀ c ∈ rangesOf ⟨id, ranges, numberLines⟩ count,
      1 ≤ c.first ∧ c.first ≤ c.last ∧ c.last ≤ count) ∧
    requested count ranges = (rangesOf ⟨id, ranges, numberLines⟩ count).flatMap fun c =>
      List.range' c.first (c.last + 1 - c.first) := by
  unfold rangesOf requested
  by_cases hne : ranges = []
  · simp only [hne, List.isEmpty_nil, if_true]
    split
    · rename_i hzero
      simp [hzero]
    · simp only [List.mem_singleton, forall_eq, List.flatMap_singleton, Nat.add_sub_cancel]
      exact ⟨by omega, trivial⟩
  · simp only [hne, List.isEmpty_iff, if_false]
    refine ⟨fun c hc => ?_, LineRange.wanted_eq_flatMap count ranges⟩
    obtain ⟨r, -, hr⟩ := List.mem_filterMap.mp hc
    obtain ⟨hfirst, hle, hlast, -⟩ := LineRange.clamp?_eq_some hr
    exact ⟨hfirst, hle, hlast⟩

/-- What a record gives back with line numbers is read back. -/
theorem readBack_recover {r : PruneRecord} (h : r.whole.WellFormed) (id : String)
    (ranges : List LineRange) :
    ∃ items, Lines.readBack (Lines.numberWidth r.whole.lines.length) []
        (Lines.ofText (r.recover ⟨id, ranges, true⟩)).lines = some items ∧
      Transcript r.whole.lines (requested r.whole.lines.length ranges) items := by
  obtain ⟨hwithin, hrequested⟩ := 
    requested_eq_flatMap id ranges true r.whole.lines.length
  have htranscript : Transcript r.whole.lines (requested r.whole.lines.length ranges)
      ((rangesOf ⟨id, ranges, true⟩ r.whole.lines.length).flatMap
        (numberedSlice r.whole.lines)) := by
    rw [hrequested]
    exact .flatMap fun c hc => transcript_numberedSlice (hwithin c hc).1 (hwithin c hc).2.2
  have hlines : (rangesOf ⟨id, ranges, true⟩ r.whole.lines.length).flatMap
      (slice true r.whole.lines) =
      ((rangesOf ⟨id, ranges, true⟩ r.whole.lines.length).flatMap
        (numberedSlice r.whole.lines)).map fun x =>
          Lines.numbered true r.whole.lines.length x.1 x.2 := by
    rw [List.map_flatMap]
    exact List.flatMap_congr fun c _ => slice_eq_numberedSlice true r.whole.lines c
  refine ⟨_, ?_, htranscript⟩
  rw [recover]
  dsimp only
  rw [hlines, Lines.ofText_text, Lines.readBack_transcript htranscript]
  refine Lines.wellFormed_numbered h htranscript fun hnil => ?_
  -- Without lines there are no ranges, since none of them is empty.
  have hnone : rangesOf ⟨id, ranges, true⟩ r.whole.lines.length = [] := by
    have hnumbers := htranscript.numbers
    rw [hnil, List.map_nil, hrequested, eq_comm, List.flatMap_eq_nil_iff] at hnumbers
    refine List.eq_nil_iff_forall_not_mem.mpr fun c hc => ?_
    have := List.range'_eq_nil_iff.mp (hnumbers c hc)
    have := (hwithin c hc).2.1
    omega
  simp [hnone]

end PruneRecord

/-! ## Lines that are left -/

namespace Selection

open Lines (Item)

/-- Each cut begins with one line. -/
theorem flatMap_begins {cuts : List Cut} {a n : Nat}
    (sorted : cuts.Pairwise fun c d => c.first < d.first)
    (within : ∀ c ∈ cuts, a ≤ c.first ∧ c.first < a + n) :
    (List.range' a n).flatMap (fun k => cuts.filter fun c => c.first = k) = cuts := by
  induction n generalizing a cuts with
  | zero =>
    cases cuts with
    | nil => rfl
    | cons c more =>
      have := within c List.mem_cons_self
      omega
  | succ n ih =>
    rw [List.range'_succ, List.flatMap_cons]
    by_cases hbegins : ∃ c more, cuts = c :: more ∧ c.first = a
    · obtain ⟨c, more, rfl, hc⟩ := hbegins
      obtain ⟨hbefore, hmore⟩ := List.pairwise_cons.mp sorted
      have hhere : more.filter (fun d => d.first = a) = [] := by
        refine List.filter_eq_nil_iff.mpr fun d hd => ?_
        have := hbefore d hd
        simp only [decide_eq_true_eq]
        omega
      have hlater : (List.range' (a + 1) n).flatMap (fun k => (c :: more).filter fun d => d.first = k) =
          (List.range' (a + 1) n).flatMap (fun k => more.filter fun d => d.first = k) := by
        refine List.flatMap_congr fun k hk => List.filter_cons_of_neg ?_
        have := (List.mem_range'_1.mp hk).1
        simp only [decide_eq_true_eq]
        omega
      rw [List.filter_cons_of_pos (by simpa using hc), hhere, hlater,
        ih hmore fun d hd => ?_, List.singleton_append]
      have := hbefore d hd
      have := within d (List.mem_cons_of_mem _ hd)
      omega
    · have hall : ∀ c ∈ cuts, a < c.first := by
        intro c hc
        cases cuts with
        | nil => cases hc
        | cons d more =>
          have hd : d.first ≠ a := fun h => hbegins ⟨d, more, rfl, h⟩
          have := within d List.mem_cons_self
          rcases List.mem_cons.mp hc with rfl | hc
          · omega
          · have := (List.pairwise_cons.mp sorted).1 c hc
            omega
      have hhere : cuts.filter (fun d => d.first = a) = [] := by
        refine List.filter_eq_nil_iff.mpr fun d hd => ?_
        have := hall d hd
        simp only [decide_eq_true_eq]
        omega
      rw [hhere, List.nil_append]
      refine ih sorted fun c hc => ?_
      have := hall c hc
      have := within c hc
      omega

/-- What is left of lines when some go, with line numbers. -/
def itemsLeft (options : PruneOptions) (gone : List Nat) (cuts : List Cut) (lines : List String) :
    List Item :=
  (lines.zipIdx 1).flatMap fun x =>
    if x.2 ∈ gone then (markersAt options cuts x.2).map .marker else [.line x.2 x.1]

variable {options : PruneOptions} {numbers : List Nat} {cuts : List Cut} {id : String}
  {lines : List String} {mask : List Bool}

theorem layout_eq_written (h : options.numberLines = true) :
    layout options numbers cuts lines =
      (itemsLeft options numbers cuts lines).map (Item.written lines.length) := by
  have hmarkers : ∀ texts : List String,
      (texts.map Item.marker).map (Item.written lines.length) = texts := fun texts => by
    rw [List.map_map]
    exact List.map_id _
  rw [layout, itemsLeft, List.map_flatMap]
  refine List.flatMap_congr fun x _ => ?_
  dsimp only
  split
  · exact (hmarkers _).symm
  · rw [h]
    rfl

theorem line?_itemsLeft : (itemsLeft options numbers cuts lines).filterMap Item.line? =
    (lines.zipIdx 1).filterMap fun x => if x.2 ∈ numbers then none else some (x.2, x.1) := by
  rw [itemsLeft, List.filterMap_flatMap, List.filterMap_eq_flatMap_toList]
  refine List.flatMap_congr fun x _ => ?_
  split
  · simp [Item.line?, List.filterMap_eq_nil_iff]
  · rfl

theorem marker?_itemsLeft : (itemsLeft options numbers cuts lines).filterMap Item.marker? =
    (lines.zipIdx 1).flatMap fun x => if x.2 ∈ numbers then markersAt options cuts x.2 else [] := by
  rw [itemsLeft, List.filterMap_flatMap]
  refine List.flatMap_congr fun x _ => ?_
  split
  · rw [List.filterMap_map]
    exact List.filterMap_some
  · rfl

/-- The lines with numbers are those that stay. -/
theorem transcript_itemsLeft (options : PruneOptions) (cuts : List Cut)
    (h : mask.length = lines.length) :
    Transcript lines (kept mask)
      ((itemsLeft options (gone mask) cuts lines).filterMap Item.line?) where
  numbers := by
    rw [line?_itemsLeft, kept_eq_filter, h, ← List.zipIdx_map_snd 1 lines, List.map_filterMap,
      List.filter_map, ← List.filterMap_eq_map, ← List.filterMap_eq_filter,
      List.filterMap_filterMap]
    refine List.filterMap_congr fun x _ => ?_
    by_cases hgone : x.2 ∈ gone mask <;> simp [hgone, Option.guard]
  contents y hy := by
    rw [line?_itemsLeft] at hy
    obtain ⟨x, hx, hsome⟩ := List.mem_filterMap.mp hy
    split at hsome
    · cases hsome
    · cases hsome
      exact List.mem_zipIdx_iff_le_and_getElem?_sub.mp hx

/-- The markers are those of the cuts, in their order. -/
theorem markers_itemsLeft (h : mask.length = lines.length) :
    (itemsLeft options (gone mask) (Selection.cuts id lines mask) lines).filterMap Item.marker? =
      if options.markers then (Selection.cuts id lines mask).map (·.marker) else [] := by
  rw [marker?_itemsLeft]
  split
  · rename_i hmarkers
    have hgone : ∀ c ∈ Selection.cuts id lines mask, c.first ∈ gone mask := fun c hc =>
      (mem_gone_iff id h).mpr ⟨c, hc, Nat.le_refl _, (cut_wellFormed hc).2.1⟩
    have hsorted : (Selection.cuts id lines mask).Pairwise fun c d => c.first < d.first :=
      (cuts_apart id lines mask).imp_of_mem fun {c d} hc _ hcd => by
        have := (cut_wellFormed hc).2.1
        omega
    have hwithin : ∀ c ∈ Selection.cuts id lines mask, 1 ≤ c.first ∧ c.first < 1 + lines.length :=
      fun c hc => List.mem_range'_1.mp (h ▸ (gone_sublist mask).subset (hgone c hc))
    have hmap : (Selection.cuts id lines mask).map (·.marker) =
        (List.range' 1 lines.length).flatMap fun k =>
          ((Selection.cuts id lines mask).filter fun c => c.first = k).map (·.marker) := by
      rw [← List.map_flatMap, flatMap_begins hsorted hwithin]
    rw [hmap, ← List.zipIdx_map_snd 1 lines, List.flatMap_map]
    refine List.flatMap_congr fun x _ => ?_
    split
    · rw [markersAt, if_pos hmarkers]
    · rename_i hstays
      have hnone : (Selection.cuts id lines mask).filter (fun c => c.first = x.2) = [] := by
        refine List.filter_eq_nil_iff.mpr fun c hc => ?_
        rw [decide_eq_true_eq]
        rintro hfirst
        exact hstays (hfirst ▸ hgone c hc)
      rw [hnone, List.map_nil]
  · rename_i hplain
    simp [markersAt, hplain]

/-- What is left of lines is read back: the lines that stay, with their numbers. -/
theorem readBack_layout (h : mask.length = lines.length) (hnumbers : options.numberLines = true) :
    ∃ items, Lines.readBack (Lines.numberWidth lines.length)
        (if options.markers then (Selection.cuts id lines mask).map (·.marker) else [])
        (layout options (gone mask) (Selection.cuts id lines mask) lines) = some items ∧
      Transcript lines (kept mask) items := by
  refine ⟨_, ?_, transcript_itemsLeft options (Selection.cuts id lines mask) h⟩
  rw [← markers_itemsLeft h, layout_eq_written hnumbers]
  refine Lines.readBack_written fun item hitem => ?_
  obtain ⟨x, hx, hitem⟩ := List.mem_flatMap.mp hitem
  split at hitem
  · obtain ⟨text, htext, rfl⟩ := List.mem_map.mp hitem
    rw [markersAt] at htext
    split at htext
    · obtain ⟨c, hc, rfl⟩ := List.mem_map.mp htext
      rw [(cut_wellFormed (List.mem_of_mem_filter hc)).2.2.2]
      exact Lines.read?_marker _ _ _ _ _ _
    · cases htext
  · rw [List.mem_singleton.mp hitem]
    obtain ⟨hpos, hline⟩ := List.mem_zipIdx_iff_le_and_getElem?_sub.mp hx
    have := (List.getElem?_eq_some_iff.mp hline).1
    exact Lines.read?_numbered (by omega) _

end Selection

namespace Pruner

open PrunerM Selection

variable {σ : Type} {p : Pruner σ} {s : PrunerState} {w : σ}

theorem recover_found {request : RecoverRequest} {record : PruneRecord}
    (found : s.records.find? request.id = some record)
    (alive : record.isExpired (p.clock.now.run w).1 = false) :
    (exec (p.recover request) s w).1.1 = .ok (record.recover request) := by
  have hget : s.records.get request.id (p.clock.now.run w).1 = .ok record := by
    simp [RecordStore.get, found, alive]
  change (s.records.get request.id (p.clock.now.run w).1).map (fun r => r.recover request) = _
  rw [hget]
  rfl

/-- An answer with line numbers that leaves lines out is read back, with the markers of its cuts, as
the lines that its record names as those that stayed. What is recovered with line numbers while the
record lives is read back as the lines that are asked for. -/
theorem prune_readBack (p : Pruner σ) (request : PruneRequest) (s : PrunerState) (w : σ)
    (fresh : s.records.find? (pruneId s.next) = none) (hnumbers : request.options.numberLines = true)
    (h : (exec (p.prune request) s w).1.1.gaveBack = false) :
    let r := (exec (p.prune request) s w).1.1
    let after := (exec (p.prune request) s w).1.2
    let lines := (Lines.ofText request.text).lines
    let width := Lines.numberWidth lines.length
    ∃ record v, record.createdAt = (p.clock.now.run v).1 ∧ record.life = p.config.recordLife ∧
      after.records.find? r.id = some record ∧ record.kept.Pairwise (· < ·) ∧
      (∃ items, Lines.readBack width (if request.options.markers then r.cuts.map (·.marker) else [])
          (Lines.ofText r.text).lines = some items ∧ Transcript lines record.kept items) ∧
      ∀ ranges w', record.isExpired (p.clock.now.run w').1 = false →
        let numbers := PruneRecord.requested lines.length ranges
        (ranges.Pairwise (fun a b => a.last < b.first) → numbers.Pairwise (· < ·)) ∧
        ∃ text items, (exec (p.recover ⟨r.id, ranges, true⟩) after w').1.1 = .ok text ∧
          Lines.readBack width [] (Lines.ofText text).lines = some items ∧
          Transcript lines numbers items := by
  rcases hr : exec (p.prune request) s w with ⟨⟨r, s'⟩, w₁⟩
  rw [hr] at h
  obtain ⟨record, v, hout, -, hrecords⟩ := prune_ran hr
  obtain ⟨hid, hrid, hwhole, hcreated, hlife, -⟩ := hout.record
  have found : s'.records.find? r.id = some record := by
    rw [hrecords, hid, ← hrid]
    exact RecordStore.find?_insert (hrid ▸ fresh)
  refine ⟨record, v, hcreated, hlife, found, ?_, ?_, fun ranges w' alive => ?_⟩
  · cases hout with
    | refused => cases h
    | pruned chosen warnings millis choice sound reranker =>
      simp only [kept_eq_filter]
      exact (List.pairwise_lt_range' 1).filter _
  · cases hout with
    | refused => cases h
    | pruned chosen warnings millis choice sound reranker =>
      dsimp only
      rw [(laysOut_pruned choice).lines]
      exact readBack_layout choice.length_mask hnumbers
  · have hw : record.whole.WellFormed := hwhole ▸ Lines.wellFormed_ofText request.text
    obtain ⟨items, hback, htranscript⟩ := PruneRecord.readBack_recover hw r.id ranges
    rw [hwhole] at hback htranscript
    exact ⟨PruneRecord.requested_ascending _, _, items, recover_found found alive, hback, htranscript⟩

/-- Half of the lines of a document may go, and the others are numbered. -/
def counted : PruneRequest :=
  { scattered with options := { scattered.options with numberLines := true } }

theorem answered_counted :
    (exec (asleep.prune counted) (.fresh .standard 0) ()).1.1.gaveBack = false := by
  have hmask : ∀ (request : PruneRequest) outside, (chosenBy .standard
      { request with options := { request.options with numberLines := true } } outside).mask =
        (chosenBy .standard request outside).mask := fun _ _ => rfl
  refine answered_still (p := asleep) rfl (by decide) (by decide +kernel) (Nat.zero_le _) ?_
  change fault? counted.options (chosenBy .standard counted _).mask = none
  rw [outsideFor, if_neg (by decide), counted, hmask, mask_scattered]
  decide +kernel

/-- Four lines and the marker of the two others are read back, and so are two ranges that are
recovered. -/
theorem prune_readBack_counted :
    (PrunerState.fresh .standard 0).records.find? (pruneId (PrunerState.fresh .standard 0).next) =
      none ∧
    counted.options.numberLines = true ∧
    (exec (asleep.prune counted) (.fresh .standard 0) ()).1.1.gaveBack = false ∧
    let r := (exec (asleep.prune counted) (.fresh .standard 0) ()).1.1
    let after := (exec (asleep.prune counted) (.fresh .standard 0) ()).1.2
    let lines := (Lines.ofText counted.text).lines
    let width := Lines.numberWidth lines.length
    ∃ record, after.records.find? r.id = some record ∧
      record.isExpired (asleep.clock.now.run ()).1 = false ∧ record.kept.Pairwise (· < ·) ∧
      (∃ items, Lines.readBack width (if counted.options.markers then r.cuts.map (·.marker) else [])
          (Lines.ofText r.text).lines = some items ∧ Transcript lines record.kept items) ∧
      ∃ text items, (exec (asleep.recover ⟨r.id, [⟨1, 2⟩, ⟨4, 6⟩], true⟩) after ()).1.1 = .ok text ∧
        Lines.readBack width [] (Lines.ofText text).lines = some items ∧
        Transcript lines (PruneRecord.requested lines.length [⟨1, 2⟩, ⟨4, 6⟩]) items := by
  refine ⟨rfl, rfl, answered_counted, ?_⟩
  obtain ⟨record, ⟨⟩, hcreated, hlife, found, hkept, hback, hrecovers⟩ :=
    prune_readBack asleep counted (.fresh .standard 0) () rfl rfl answered_counted
  have alive : record.isExpired (asleep.clock.now.run ()).1 = false := by
    rw [PruneRecord.isExpired, hcreated, hlife]
    decide +kernel
  exact ⟨record, found, alive, hkept, hback, (hrecovers _ () alive).2⟩

end Pruner
end ContextBudget

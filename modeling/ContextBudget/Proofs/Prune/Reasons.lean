import ContextBudget.Proofs.Prune.Greedy
import Mathlib.Data.List.TakeWhile

/-!
# Why blocks of lines went

Repeated lines are looked for twice: when lines are told apart, in one pass that keeps the texts of
the lines behind it, and when a block of lines went, anew from all lines before the block. One set
has no blank texts and the other one does; as they agree on all other texts, the reason for a block
is the one that the classes of its lines give.

- `Holds`: a set has the texts of earlier lines, as far as they are not blank.
- `classify_eq_classesFrom`: the classes are those of one pass over the lines.
- `reason_eq_reasonAnew`: the reason for a block is the one found anew.
- `Cut.Explains`, `prune_reasons`: and it fits the classes of the lines.
-/

namespace ContextBudget
namespace Text

theorem trimmed_eq_empty {line : String} : trimmed line = "" ↔ isBlankText line = true := by
  have hofList : trimmed line = "" ↔ trim line.toList = [] :=
    ⟨fun h => by simpa [trimmed] using congrArg String.toList h, fun h => by rw [trimmed, h]⟩
  rw [hofList, trim, trimRight, List.reverse_eq_nil_iff, List.dropWhile_eq_nil_iff, isBlankText,
    List.all_eq_true]
  constructor
  · -- What is left after the leading blanks does not begin with a blank, and so is nothing.
    intro h
    refine List.dropWhile_eq_nil_iff.mp ?_
    by_contra hne
    have hhead := List.head_dropWhile_not isBlank hne
    rw [h _ (List.mem_reverse.mpr (List.head_mem hne))] at hhead
    cases hhead
  · intro h x hx
    exact h x ((List.dropWhile_sublist _).subset (List.mem_reverse.mp hx))

end Text

/-! ## Earlier lines -/

/-- A set has the texts of earlier lines, blanks at the ends aside. It may have the blank text or
not. -/
def Holds (seen : Std.HashSet String) (earlier : List String) : Prop :=
  ∀ key, key ≠ "" → seen.contains key = (earlier.map Text.trimmed).contains key

namespace Holds

variable {seen : Std.HashSet String} {earlier : List String} {line : String}

theorem empty : Holds ∅ [] := fun _ _ => by simp

theorem ofList (earlier : List String) : Holds (.ofList (earlier.map Text.trimmed)) earlier :=
  fun _ _ => Std.HashSet.contains_ofList

theorem insert (h : Holds seen earlier) (line : String) :
    Holds (seen.insert (Text.trimmed line)) (earlier ++ [line]) := by
  intro key hkey
  rw [Std.HashSet.contains_insert, h key hkey, List.map_append, List.map_singleton,
    List.contains_append, Bool.or_comm, Bool.beq_comm]
  simp only [List.contains_cons, List.contains_nil, Bool.or_false]

/-- A blank line adds nothing that counts. -/
theorem skip (h : Holds seen earlier) (hblank : Text.trimmed line = "") :
    Holds seen (earlier ++ [line]) := by
  intro key hkey
  rw [h key hkey]
  simp [hblank, hkey]

/-- Nor does a line whose text is there. -/
theorem again (h : Holds seen earlier) (hkey : Text.trimmed line ≠ "")
    (hseen : seen.contains (Text.trimmed line) = true) : Holds seen (earlier ++ [line]) := by
  intro key hne
  rw [h _ hkey] at hseen
  rw [h key hne, List.map_append, List.map_singleton, List.contains_append]
  by_cases heq : key = Text.trimmed line
  · rw [heq, hseen, Bool.true_or]
  · simp [heq]

end Holds

/-! ## One pass over the lines -/

/-- The classes of lines, told in one pass: `i` is the place of the first line and `last` that of
the last line of the text. Lines that never go are remembered too, unless they are blank. -/
def classesFrom (kind : SourceKind) (last i : Nat) (seen : Std.HashSet String) :
    List String → List LineClass
  | [] => []
  | line :: rest =>
    let key := Text.trimmed line
    if i == 0 || i == last || kind.isStructural line then
      .anchored :: classesFrom kind last (i + 1) (if key = "" then seen else seen.insert key) rest
    else if key = "" then .blank :: classesFrom kind last (i + 1) seen rest
    else if seen.contains key then .duplicate :: classesFrom kind last (i + 1) seen rest
    else .ordinary :: classesFrom kind last (i + 1) (seen.insert key) rest

/-- The class of the line of a place, as far as it is told by the lines before it. -/
def classIn (kind : SourceKind) (last : Nat) (lines : List String) (line : String) (i : Nat) :
    LineClass :=
  .of (i == 0 || i == last || kind.isStructural line) (Text.isBlankText line)
    (((lines.take i).map Text.trimmed).contains (Text.trimmed line))

/-- One pass tells each line the class that all lines before it give. -/
theorem classesFrom_eq {kind : SourceKind} {last : Nat} {seen : Std.HashSet String}
    {earlier rest : List String} (h : Holds seen earlier) :
    classesFrom kind last earlier.length seen rest =
      (rest.zipIdx earlier.length).map fun x => classIn kind last (earlier ++ rest) x.1 x.2 := by
  induction rest generalizing earlier seen with
  | nil => rfl
  | cons line rest ih =>
    have next : ∀ {seen' : Std.HashSet String}, Holds seen' (earlier ++ [line]) →
        classesFrom kind last (earlier.length + 1) seen' rest =
          (rest.zipIdx (earlier.length + 1)).map fun x =>
            classIn kind last (earlier ++ line :: rest) x.1 x.2 := by
      intro seen' h'
      have := ih h'
      rwa [List.length_append, List.length_singleton, List.append_assoc, List.singleton_append]
        at this
    have here : classIn kind last (earlier ++ line :: rest) line earlier.length =
        .of (earlier.length == 0 || earlier.length == last || kind.isStructural line)
          (Text.isBlankText line) ((earlier.map Text.trimmed).contains (Text.trimmed line)) := by
      rw [classIn, List.take_left' rfl]
    rw [List.zipIdx_cons, List.map_cons, here, classesFrom]
    by_cases hanchored : (earlier.length == 0 || earlier.length == last ||
        kind.isStructural line) = true
    · rw [if_pos hanchored, hanchored, next]
      · rfl
      · split
        · rename_i hblank
          exact h.skip hblank
        · exact h.insert line
    · rw [if_neg hanchored, Bool.eq_false_iff.mpr hanchored]
      by_cases hblank : Text.trimmed line = ""
      · rw [if_pos hblank, Text.trimmed_eq_empty.mp hblank, next (h.skip hblank)]
        rfl
      · have hplain : Text.isBlankText line = false := by
          rwa [← Bool.not_eq_true, ← Text.trimmed_eq_empty]
        rw [if_neg hblank, hplain, ← h _ hblank]
        by_cases hseen : seen.contains (Text.trimmed line) = true
        · rw [if_pos hseen, hseen, next (h.again hblank hseen)]
          rfl
        · rw [if_neg hseen, Bool.eq_false_iff.mpr hseen, next (h.insert line)]
          rfl

theorem getElem?_earlierRepeats (lines : List String) (i : Nat) :
    (earlierRepeats lines)[i]? = lines[i]?.map fun line =>
      ((lines.take i).map Text.trimmed).contains (Text.trimmed line) := by
  rw [earlierRepeats_eq, List.getElem?_map, List.getElem?_zipIdx]
  cases lines[i]? <;> simp

/-- The class of each line is told by the lines before it. -/
theorem getElem?_classify (kind : SourceKind) (lines : List String) (i : Nat) :
    (classify kind lines)[i]? =
      lines[i]?.map fun line => classIn kind (lines.length - 1) lines line i := by
  have hrepeats := getElem?_earlierRepeats lines i
  cases h : lines[i]? with
  | none =>
    rw [Option.map_none, List.getElem?_eq_none_iff, length_classify]
    exact List.getElem?_eq_none_iff.mp h
  | some line =>
    rw [h, Option.map_some] at hrepeats
    rw [classify, List.getElem?_map, List.getElem?_zipIdx,
      List.getElem?_zip_eq_some (z := (line, _)) |>.mpr ⟨h, hrepeats⟩]
    simp [classIn]

/-- The classes of a text are those of one pass over its lines. -/
theorem classify_eq_classesFrom (kind : SourceKind) (lines : List String) :
    classify kind lines = classesFrom kind (lines.length - 1) 0 ∅ lines := by
  have hpass : classesFrom kind (lines.length - 1) 0 ∅ lines = _ := classesFrom_eq Holds.empty
  refine List.ext_getElem? fun i => ?_
  rw [hpass, getElem?_classify, List.getElem?_map, List.getElem?_zipIdx]
  cases lines[i]? <;> simp

/-! ## The reason for a block, found anew -/

/-- Whether all lines are blank or repeat an earlier one, told by a set of the texts before them. -/
def allRepeat (seen : Std.HashSet String) : List String → Bool
  | [] => true
  | line :: rest =>
    let key := Text.trimmed line
    if key = "" then allRepeat seen rest
    else seen.contains key && allRepeat (seen.insert key) rest

/-- The reason for the block from the place `start` to the place `stop`, found anew from the lines
before it and its own. -/
def reasonAnew (lines : List String) (start stop : Nat) : CutReason :=
  let block := (lines.take (stop + 1)).drop start
  if block.all fun line => Text.trimmed line = "" then .blank
  else if allRepeat (.ofList ((lines.take start).map Text.trimmed)) block then .duplicate
  else .lowRelevance

/-- A line is blank, or its text stands in one of the lines before it. -/
theorem allRepeat_iff {seen : Std.HashSet String} {earlier block : List String}
    (h : Holds seen earlier) :
    allRepeat seen block = true ↔ ∀ j line, block[j]? = some line →
      Text.trimmed line = "" ∨
        ((earlier ++ block.take j).map Text.trimmed).contains (Text.trimmed line) = true := by
  induction block generalizing earlier seen with
  | nil => simp [allRepeat]
  | cons line rest ih =>
    have split : ∀ {P : Nat → String → Prop},
        (∀ j other, (line :: rest)[j]? = some other → P j other) ↔
          P 0 line ∧ ∀ j other, rest[j]? = some other → P (j + 1) other := by
      intro P
      refine ⟨fun hall => ⟨hall 0 line rfl, fun j other hj => hall (j + 1) other hj⟩, ?_⟩
      rintro ⟨hzero, hsucc⟩ (_ | j) other hj
      · cases hj
        exact hzero
      · exact hsucc j other hj
    have htail : ∀ j, earlier ++ (line :: rest).take (j + 1) =
        (earlier ++ [line]) ++ rest.take j := fun j => by simp
    simp only [split, htail, List.take_zero, List.append_nil]
    rw [allRepeat]
    by_cases hblank : Text.trimmed line = ""
    · rw [if_pos hblank, ih (h.skip hblank)]
      simp [hblank]
    · rw [if_neg hblank, Bool.and_eq_true, h _ hblank, ih (h.insert line)]
      simp [hblank]

/-! ## Blocks of lines -/

section Blocks

variable {α : Type} {l : List α} {a b : Nat}

/-- The items of a block, by their numbers. -/
theorem mem_block {x : α} :
    x ∈ (l.take b).drop a ↔ ∃ k, a + 1 ≤ k ∧ k ≤ b ∧ l[k - 1]? = some x := by
  rw [List.mem_iff_getElem?]
  simp only [List.getElem?_drop, List.getElem?_take]
  constructor
  · rintro ⟨j, hj⟩
    split at hj
    · exact ⟨a + j + 1, by omega, by omega, hj⟩
    · cases hj
  · rintro ⟨k, hk, hk', hx⟩
    refine ⟨k - (a + 1), ?_⟩
    rw [if_pos (by omega), ← hx]
    congr 1
    omega

end Blocks

/-- What is known about the lines of a text: whether they are blank, and whether they repeat an
earlier line. -/
def knownLines (lines : List String) : List (Bool × Bool) :=
  (lines.map Text.isBlankText).zip (earlierRepeats lines)

theorem getElem?_knownLines (lines : List String) (i : Nat) :
    (knownLines lines)[i]? = lines[i]?.map fun line =>
      (Text.isBlankText line, ((lines.take i).map Text.trimmed).contains (Text.trimmed line)) := by
  have hrepeats := getElem?_earlierRepeats lines i
  cases h : lines[i]? with
  | none =>
    rw [Option.map_none, List.getElem?_eq_none_iff]
    rw [List.getElem?_eq_none_iff] at h
    simpa [knownLines] using h
  | some line =>
    rw [h, Option.map_some] at hrepeats
    exact List.getElem?_zip_eq_some.mpr ⟨by rw [List.getElem?_map, h]; rfl, hrepeats⟩

namespace LineClass

/-- The class of a line that is not anchored, from what is known about it. -/
def ofKnown (x : Bool × Bool) : LineClass := .of false x.1 x.2

variable {x : Bool × Bool}

@[simp] theorem ofKnown_eq_blank : ofKnown x = .blank ↔ x.1 = true := by
  rcases x with ⟨_ | _, _ | _⟩ <;> decide

@[simp] theorem ofKnown_eq_duplicate : ofKnown x = .duplicate ↔ x.1 = false ∧ x.2 = true := by
  rcases x with ⟨_ | _, _ | _⟩ <;> decide

@[simp] theorem ofKnown_eq_ordinary : ofKnown x = .ordinary ↔ x.1 = false ∧ x.2 = false := by
  rcases x with ⟨_ | _, _ | _⟩ <;> decide

end LineClass

/-- The class of a line that is not anchored is what is known about it. -/
theorem classAt_of_ne_anchored {kind : SourceKind} {lines : List String} {k : Nat} {c : LineClass}
    (h : classAt kind lines k = some c) (hfree : c ≠ .anchored) :
    ∃ x, (knownLines lines)[k - 1]? = some x ∧ c = LineClass.ofKnown x := by
  rw [classAt, getElem?_classify, Option.map_eq_some_iff] at h
  obtain ⟨line, hline, rfl⟩ := h
  refine ⟨_, by rw [getElem?_knownLines, hline]; rfl, ?_⟩
  have hplain : (k - 1 == 0 || k - 1 == lines.length - 1 || kind.isStructural line) = false := by
    by_contra hanchored
    rw [Bool.not_eq_false] at hanchored
    exact hfree (if_pos hanchored)
  rw [classIn, hplain]
  rfl

namespace CutReason

variable {lines : List (Bool × Bool)}

theorem ofLines_eq_blank : ofLines lines = .blank ↔ ∀ x ∈ lines, LineClass.ofKnown x = .blank := by
  unfold ofLines
  split_ifs <;> simp_all

theorem ofLines_eq_lowRelevance :
    ofLines lines = .lowRelevance ↔ ∃ x ∈ lines, LineClass.ofKnown x = .ordinary := by
  unfold ofLines
  split_ifs <;> simp_all

theorem ofLines_eq_duplicate :
    ofLines lines = .duplicate ↔
      (∀ x ∈ lines, LineClass.ofKnown x = .blank ∨ LineClass.ofKnown x = .duplicate) ∧
        ∃ x ∈ lines, LineClass.ofKnown x = .duplicate := by
  unfold ofLines
  split_ifs <;> simp_all

end CutReason

/-- The reason for a cut is the one that the classes of its lines give. -/
structure Cut.Explains (c : Cut) (classes : Nat → Option LineClass) : Prop where
  blank : c.reason = .blank ↔ ∀ k, c.first ≤ k → k ≤ c.last → classes k = some .blank
  duplicate : c.reason = .duplicate ↔
    (∀ k, c.first ≤ k → k ≤ c.last → classes k = some .blank ∨ classes k = some .duplicate) ∧
      ∃ k, c.first ≤ k ∧ k ≤ c.last ∧ classes k = some .duplicate
  lowRelevance : c.reason = .lowRelevance ↔
    ∃ k, c.first ≤ k ∧ k ≤ c.last ∧ classes k = some .ordinary

namespace Selection

variable {α : Type} {id : String} {lines : List String} {mask : List Bool} {c : Cut}

/-- The items of a run stand one after another. -/
theorem mem_zipIdx_of_runs {i : Nat} {l : List (α × Bool)} {r : Nat × List α} (h : r ∈ runs i l)
    {j : Nat} {x : α} (hx : r.2[j]? = some x) : ((x, true), r.1 + j) ∈ l.zipIdx i := by
  induction l generalizing i r j with
  | nil => cases h
  | cons y rest ih =>
    obtain ⟨y, goes⟩ := y
    rw [List.zipIdx_cons]
    cases goes with
    | false =>
      rw [runs] at h
      exact List.mem_cons_of_mem _ (ih h hx)
    | true =>
      rcases runs_true i y rest with ⟨ys, more, hr, he⟩ | ⟨-, he⟩
      · rw [he] at h
        rcases List.mem_cons.mp h with rfl | hmore
        · cases j with
          | zero =>
            cases hx
            exact List.mem_cons_self
          | succ j =>
            have hnext := ih (r := (i + 1, ys)) (hr ▸ List.mem_cons_self) hx
            rw [Nat.add_right_comm] at hnext
            exact List.mem_cons_of_mem _ hnext
        · exact List.mem_cons_of_mem _ (ih (hr ▸ List.mem_cons_of_mem _ hmore) hx)
      · rw [he] at h
        rcases List.mem_cons.mp h with rfl | hmore
        · cases j with
          | zero =>
            cases hx
            exact List.mem_cons_self
          | succ j => cases hx
        · exact List.mem_cons_of_mem _ (ih hmore hx)

/-- The reason for a cut is told by what is known about its lines. -/
theorem reason_of_mem_cuts (h : c ∈ cuts id lines mask) :
    c.reason = .ofLines (((knownLines lines).take c.last).drop (c.first - 1)) := by
  obtain ⟨r, hr, rfl⟩ := mem_cuts h
  have hblock : r.2 = ((knownLines lines).take (r.1 + r.2.length)).drop r.1 := by
    refine List.ext_getElem? fun j => ?_
    rw [List.getElem?_drop, List.getElem?_take]
    split
    · rename_i hj
      have hlt : j < r.2.length := by omega
      have hx := mem_zipIdx_of_runs hr (List.getElem?_eq_getElem hlt)
      rw [List.mem_zipIdx_iff_getElem?] at hx
      rw [List.getElem?_eq_getElem hlt]
      exact (List.getElem?_zip_eq_some.mp hx).1.symm
    · exact List.getElem?_eq_none_iff.mpr (by omega)
  exact congrArg CutReason.ofLines hblock

/-- The reason for a cut of lines that are not anchored fits their classes. -/
theorem explains_of_mem_cuts (h : c ∈ cuts id lines mask) {classes : Nat → Option LineClass}
    (hclasses : ∀ k, c.first ≤ k → k ≤ c.last →
      ∃ x, (knownLines lines)[k - 1]? = some x ∧ classes k = some (LineClass.ofKnown x)) :
    c.Explains classes := by
  have hmem : ∀ x, x ∈ ((knownLines lines).take c.last).drop (c.first - 1) ↔
      ∃ k, c.first ≤ k ∧ k ≤ c.last ∧ (knownLines lines)[k - 1]? = some x := fun x => by
    rw [mem_block, Nat.sub_add_cancel (cut_wellFormed h).1]
  have hall : ∀ P : Option LineClass → Prop,
      (∀ x ∈ ((knownLines lines).take c.last).drop (c.first - 1),
        P (some (LineClass.ofKnown x))) ↔
      ∀ k, c.first ≤ k → k ≤ c.last → P (classes k) := by
    intro P
    constructor
    · intro hP k hk hk'
      obtain ⟨x, hx, hclass⟩ := hclasses k hk hk'
      rw [hclass]
      exact hP x ((hmem x).mpr ⟨k, hk, hk', hx⟩)
    · intro hP x hx
      obtain ⟨k, hk, hk', hx⟩ := (hmem x).mp hx
      obtain ⟨x', hx', hclass⟩ := hclasses k hk hk'
      cases hx.symm.trans hx'
      rw [← hclass]
      exact hP k hk hk'
  have hexists : ∀ P : Option LineClass → Prop,
      (∃ x ∈ ((knownLines lines).take c.last).drop (c.first - 1),
        P (some (LineClass.ofKnown x))) ↔
      ∃ k, c.first ≤ k ∧ k ≤ c.last ∧ P (classes k) := by
    intro P
    have hnone := not_congr (hall fun o => ¬ P o)
    push Not at hnone
    exact hnone
  have hreason := reason_of_mem_cuts h
  refine ⟨?_, ?_, ?_⟩
  · rw [hreason, CutReason.ofLines_eq_blank]
    simpa only [Option.some.injEq] using hall (· = some .blank)
  · rw [hreason, CutReason.ofLines_eq_duplicate]
    refine and_congr ?_ ?_
    · simpa only [Option.some.injEq] using hall fun o => o = some .blank ∨ o = some .duplicate
    · simpa only [Option.some.injEq] using hexists (· = some .duplicate)
  · rw [hreason, CutReason.ofLines_eq_lowRelevance]
    simpa only [Option.some.injEq] using hexists (· = some .ordinary)

/-- What is known about the lines of a block, from those before the block and its own. -/
theorem all_knownLines_block (lines : List String) (start stop : Nat) (P : Bool × Bool → Bool) :
    let block := (lines.take stop).drop start
    ((((knownLines lines).take stop).drop start).all P = true ↔
      ∀ j line, block[j]? = some line → P (Text.isBlankText line,
        ((lines.take start ++ block.take j).map Text.trimmed).contains (Text.trimmed line)) = true) := by
  intro block
  have hitem : ∀ j, (((knownLines lines).take stop).drop start)[j]? = block[j]?.map fun line =>
      (Text.isBlankText line,
        ((lines.take start ++ block.take j).map Text.trimmed).contains (Text.trimmed line)) := by
    intro j
    rw [List.getElem?_drop, List.getElem?_drop, List.getElem?_take, List.getElem?_take]
    split
    · have htake : lines.take start ++ block.take j = lines.take (start + j) := by
        change lines.take start ++ ((lines.take stop).drop start).take j = _
        rw [List.drop_take, List.take_take, Nat.min_eq_left (by omega), List.take_add]
      rw [getElem?_knownLines, htake]
    · rfl
  rw [List.all_eq_true]
  constructor
  · intro hall j line hline
    exact hall _ (List.mem_iff_getElem?.mpr ⟨j, by rw [hitem, hline]; rfl⟩)
  · intro hall x hx
    obtain ⟨j, hj⟩ := List.mem_iff_getElem?.mp hx
    rw [hitem, Option.map_eq_some_iff] at hj
    obtain ⟨line, hline, rfl⟩ := hj
    exact hall j line hline

/-- The reason for a cut is the one that is found anew. -/
theorem reason_eq_reasonAnew (h : c ∈ cuts id lines mask) :
    c.reason = reasonAnew lines (c.first - 1) (c.last - 1) := by
  obtain ⟨hfirst, hle, -⟩ := cut_wellFormed h
  rw [reason_of_mem_cuts h, reasonAnew, Nat.sub_add_cancel (hfirst.trans hle)]
  have hblank := all_knownLines_block lines (c.first - 1) c.last (·.1)
  have hredundant := all_knownLines_block lines (c.first - 1) c.last fun l => l.1 || l.2
  simp only [Bool.or_eq_true, ← Text.trimmed_eq_empty] at hblank hredundant
  rw [← allRepeat_iff (Holds.ofList _)] at hredundant
  have hall : (((lines.take c.last).drop (c.first - 1)).all fun line =>
      decide (Text.trimmed line = "")) = true ↔
      ∀ (j : Nat) line, ((lines.take c.last).drop (c.first - 1))[j]? = some line →
        Text.trimmed line = "" := by
    simp only [List.all_eq_true, List.mem_iff_getElem?, decide_eq_true_eq, forall_exists_index]
    exact forall_comm
  rw [← hblank] at hall
  exact if_congr hall.symm rfl (if_congr hredundant rfl rfl)

end Selection

namespace Pruner

open PrunerM Selection

variable {σ : Type} {config : PrunerConfig} {request : PruneRequest} {chosen : Chosen}

/-- No line that is chosen to go is anchored. -/
theorem Choice.classAt_of_mem_gone {lines : List String}
    (h : Choice config request lines chosen) {k : Nat} (hk : k ∈ gone chosen.mask) :
    ∃ c, classAt chosen.kind lines k = some c ∧ c ≠ .anchored := by
  obtain ⟨outside, hmask⟩ := h.mask
  obtain ⟨-, hgoes⟩ := mem_gone.mp hk
  rw [hmask] at hgoes
  obtain ⟨s, hs⟩ := score_of_maskOf hgoes
  rw [h.kind]
  exact class_of_scores hs

/-- An answer that leaves lines out tells for each block why it went: the reason is the one found
anew for the block, and it fits the classes that one pass over the text tells its lines. -/
theorem prune_reasons (p : Pruner σ) (request : PruneRequest) (s : PrunerState) (w : σ)
    (h : (exec (p.prune request) s w).1.1.gaveBack = false) :
    let lines := (Lines.ofText request.text).lines
    let classes := classesFrom (request.kind.resolve lines) (lines.length - 1) 0 ∅ lines
    classify (request.kind.resolve lines) lines = classes ∧
      ∀ c ∈ (exec (p.prune request) s w).1.1.cuts,
        c.reason = reasonAnew lines (c.first - 1) (c.last - 1) ∧
        c.Explains fun k => classes[k - 1]? := by
  dsimp only
  rw [← classify_eq_classesFrom]
  refine ⟨rfl, fun c hc => ?_⟩
  rcases hr : exec (p.prune request) s w with ⟨⟨r, s'⟩, w'⟩
  rw [hr] at h hc
  obtain ⟨record, v, hout, -⟩ := prune_ran hr
  cases hout with
  | refused => cases h
  | pruned chosen warnings millis choice sound reranker =>
    have hcut : c ∈ cuts (pruneId s.next) (Lines.ofText request.text).lines chosen.mask := hc
    refine ⟨reason_eq_reasonAnew hcut, explains_of_mem_cuts hcut fun k hk hk' => ?_⟩
    obtain ⟨cl, hclass, hfree⟩ := choice.classAt_of_mem_gone
      ((mem_gone_iff _ choice.length_mask).mpr ⟨c, hcut, hk, hk'⟩)
    obtain ⟨x, hx, rfl⟩ := classAt_of_ne_anchored hclass hfree
    rw [choice.kind] at hclass
    exact ⟨x, hx, hclass⟩

/-- The block of two blank lines is told to be one. -/
theorem prune_reasons_scattered :
    (exec (asleep.prune scattered) (.fresh .standard 0) ()).1.1.gaveBack = false ∧
    let lines := (Lines.ofText scattered.text).lines
    let classes := classesFrom (scattered.kind.resolve lines) (lines.length - 1) 0 ∅ lines
    classify (scattered.kind.resolve lines) lines = classes ∧
      ∀ c ∈ (exec (asleep.prune scattered) (.fresh .standard 0) ()).1.1.cuts,
        c.reason = reasonAnew lines (c.first - 1) (c.last - 1) ∧
        c.Explains fun k => classes[k - 1]? :=
  ⟨answered_scattered, prune_reasons asleep scattered _ _ answered_scattered⟩

end Pruner
end ContextBudget

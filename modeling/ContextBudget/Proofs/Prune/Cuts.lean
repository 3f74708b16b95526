import ContextBudget.Proofs.Prune.Mask

/-!
# The cuts of a mask

A mask falls into runs of lines that go, and each run becomes a cut.

- `separated_runs`, `covered_runs`: runs come in order with a gap after each, and cover the items
  that go and no others.
- `cuts_apart`, `mem_gone_iff`, `exists_cut_iff`: the cuts of a mask are the maximal runs of
  consecutive numbers among the lines that go.
- `sum_count_cuts`: together they count every line that goes once.
-/

namespace ContextBudget
namespace Selection

variable {α : Type}

/-! ## Runs -/

/-- Runs that start at `least` or later, none of them empty, with a gap after each. -/
def Separated (least : Nat) : List (Nat × List α) → Prop
  | [] => True
  | (start, block) :: rest =>
    least ≤ start ∧ block ≠ [] ∧ Separated (start + block.length + 1) rest

theorem Separated.mono {a b : Nat} {rs : List (Nat × List α)} (h : Separated b rs) (hab : a ≤ b) :
    Separated a rs := by
  cases rs with
  | nil => trivial
  | cons r rest => exact ⟨Nat.le_trans hab h.1, h.2⟩

theorem Separated.of_mem {least : Nat} {rs : List (Nat × List α)} (h : Separated least rs)
    {r : Nat × List α} (hr : r ∈ rs) : least ≤ r.1 ∧ 0 < r.2.length := by
  induction rs generalizing least with
  | nil => cases hr
  | cons head rest ih =>
    rcases List.mem_cons.mp hr with rfl | hr
    · exact ⟨h.1, List.length_pos_iff.mpr h.2.1⟩
    · have := ih h.2.2 hr
      have := h.1
      exact ⟨by omega, by omega⟩

theorem Separated.pairwise {least : Nat} {rs : List (Nat × List α)} (h : Separated least rs) :
    rs.Pairwise fun a b => a.1 + a.2.length + 1 ≤ b.1 := by
  induction rs generalizing least with
  | nil => exact .nil
  | cons head rest ih => exact .cons (fun r hr => (h.2.2.of_mem hr).1) (ih h.2.2)

/-- An item that goes joins the run right after it, or is a run of its own. -/
theorem runs_true (i : Nat) (x : α) (rest : List (α × Bool)) :
    (∃ xs more, runs (i + 1) rest = (i + 1, xs) :: more ∧
      runs i ((x, true) :: rest) = (i, x :: xs) :: more) ∨
    ((∀ xs more, runs (i + 1) rest ≠ (i + 1, xs) :: more) ∧
      runs i ((x, true) :: rest) = (i, [x]) :: runs (i + 1) rest) := by
  rw [runs]
  cases hr : runs (i + 1) rest with
  | nil => exact .inr ⟨by simp, rfl⟩
  | cons r more =>
    obtain ⟨j, xs⟩ := r
    by_cases hj : j = i + 1
    · subst hj
      exact .inl ⟨xs, more, rfl, by simp⟩
    · exact .inr ⟨by simp [hj], by simp [hj]⟩

theorem separated_runs (i : Nat) (l : List (α × Bool)) : Separated i (runs i l) := by
  induction l generalizing i with
  | nil => trivial
  | cons y rest ih =>
    obtain ⟨x, goes⟩ := y
    have hrest := ih (i + 1)
    cases goes with
    | false => exact hrest.mono (Nat.le_succ i)
    | true =>
      rcases runs_true i x rest with ⟨xs, more, hr, he⟩ | ⟨hr, he⟩
      · rw [hr] at hrest
        rw [he]
        refine ⟨Nat.le_refl i, by simp, hrest.2.2.mono ?_⟩
        simp only [List.length_cons]
        omega
      · rw [he]
        refine ⟨Nat.le_refl i, by simp, ?_⟩
        cases hc : runs (i + 1) rest with
        | nil => trivial
        | cons r more =>
          rw [hc] at hrest
          have hne : r.1 ≠ i + 1 := fun h => hr r.2 more (by rw [hc, ← h])
          have := hrest.1
          exact ⟨by simp only [List.length_singleton]; omega, hrest.2⟩

/-- A place is in one of the runs. -/
def InRuns (rs : List (Nat × List α)) (k : Nat) : Prop :=
  ∃ r ∈ rs, r.1 ≤ k ∧ k < r.1 + r.2.length

theorem inRuns_cons {r : Nat × List α} {rs : List (Nat × List α)} {k : Nat} :
    InRuns (r :: rs) k ↔ (r.1 ≤ k ∧ k < r.1 + r.2.length) ∨ InRuns rs k := by
  simp [InRuns]

theorem covered_runs {i k : Nat} {l : List (α × Bool)} :
    InRuns (runs i l) k ↔ ∃ x, ((x, true), k) ∈ l.zipIdx i := by
  induction l generalizing i with
  | nil => simp [runs, InRuns]
  | cons y rest ih =>
    obtain ⟨x, goes⟩ := y
    cases goes with
    | false => simp [runs, ih]
    | true =>
      have hsplit : InRuns (runs i ((x, true) :: rest)) k ↔ k = i ∨ InRuns (runs (i + 1) rest) k := by
        rcases runs_true i x rest with ⟨xs, more, hr, he⟩ | ⟨-, he⟩
        · rw [hr, he, inRuns_cons, inRuns_cons, ← or_assoc]
          refine or_congr_left ?_
          simp only [List.length_cons]
          omega
        · rw [he, inRuns_cons]
          refine or_congr_left ?_
          simp only [List.length_singleton]
          omega
      rw [hsplit, ih, List.zipIdx_cons]
      simp [exists_or, eq_comm]

theorem sum_length_runs (i : Nat) (l : List (α × Bool)) :
    ((runs i l).map fun r => r.2.length).sum = l.countP (·.2) := by
  induction l generalizing i with
  | nil => rfl
  | cons y rest ih =>
    obtain ⟨x, goes⟩ := y
    have hrest := ih (i + 1)
    cases goes with
    | false => simpa [runs] using hrest
    | true =>
      rw [List.countP_cons]
      rcases runs_true i x rest with ⟨xs, more, hr, he⟩ | ⟨-, he⟩
      · rw [hr, List.map_cons, List.sum_cons] at hrest
        rw [he, List.map_cons, List.sum_cons, List.length_cons, ← hrest]
        simp only [↓reduceIte]
        omega
      · rw [he, List.map_cons, List.sum_cons, hrest]
        simp only [List.length_singleton, ↓reduceIte]
        omega

/-! ## Cuts -/

variable {id : String} {lines : List String} {mask : List Bool} {c : Cut}

theorem mem_cuts (h : c ∈ cuts id lines mask) :
    ∃ r ∈ runs 0 (((lines.map Text.isBlankText).zip (earlierRepeats lines)).zip mask),
      c = .of id r.1 r.2.length (.ofLines r.2) := by
  obtain ⟨r, hr, rfl⟩ := List.mem_map.mp h
  exact ⟨r, hr, rfl⟩

/-- A cut tells truly how many lines it takes, and its marker tells the same. -/
theorem cut_wellFormed (h : c ∈ cuts id lines mask) :
    1 ≤ c.first ∧ c.first ≤ c.last ∧ c.count = c.last - c.first + 1 ∧
      c.marker = Cut.markerText id c.first c.last c.count c.reason := by
  obtain ⟨r, hr, rfl⟩ := mem_cuts h
  have := ((separated_runs _ _).of_mem hr).2
  simp only [Cut.of]
  exact ⟨by omega, by omega, by omega, trivial⟩

theorem cuts_apart (id : String) (lines : List String) (mask : List Bool) :
    (cuts id lines mask).Pairwise fun a b => a.last + 1 < b.first := by
  refine List.pairwise_map.mpr ((separated_runs 0 _).pairwise.imp fun {a b} h => ?_)
  simp only [Cut.of]
  omega

theorem sum_count_cuts (id : String) (h : mask.length = lines.length) :
    ((cuts id lines mask).map (·.count)).sum = goneCount mask := by
  simp only [cuts, List.map_map, Function.comp_def, Cut.of]
  rw [sum_length_runs, countP_zip (by simp [h])]

theorem mem_gone_iff (id : String) (h : mask.length = lines.length) {k : Nat} :
    k ∈ gone mask ↔ ∃ c ∈ cuts id lines mask, c.first ≤ k ∧ k ≤ c.last := by
  have hruns : (∃ c ∈ cuts id lines mask, c.first ≤ k ∧ k ≤ c.last) ↔ 1 ≤ k ∧ InRuns
      (runs 0 (((lines.map Text.isBlankText).zip (earlierRepeats lines)).zip mask)) (k - 1) := by
    constructor
    · rintro ⟨c, hc, h1, h2⟩
      obtain ⟨r, hr, rfl⟩ := mem_cuts hc
      simp only [Cut.of] at h1 h2
      exact ⟨by omega, r, hr, by omega, by omega⟩
    · rintro ⟨h0, r, hr, h1, h2⟩
      exact ⟨_, List.mem_map.mpr ⟨r, hr, rfl⟩, by simp only [Cut.of]; omega,
        by simp only [Cut.of]; omega⟩
  rw [hruns, covered_runs, mem_gone]
  refine and_congr_right fun _ => ?_
  simp only [List.mem_zipIdx_iff_getElem?]
  constructor
  · intro hk
    have hlt : k - 1 < ((lines.map Text.isBlankText).zip (earlierRepeats lines)).length := by
      obtain ⟨hlt, -⟩ := List.getElem?_eq_some_iff.mp hk
      simpa [h] using hlt
    exact ⟨_, List.getElem?_zip_eq_some.mpr ⟨List.getElem?_eq_getElem hlt, hk⟩⟩
  · rintro ⟨x, hx⟩
    exact (List.getElem?_zip_eq_some.mp hx).2

/-! ## Maximal runs -/

/-- The numbers from `a` to `b` belong to a set, those right before and after them do not. -/
def MaximalRun (numbers : List Nat) (a b : Nat) : Prop :=
  a ≤ b ∧ (∀ k, a ≤ k → k ≤ b → k ∈ numbers) ∧ a - 1 ∉ numbers ∧ b + 1 ∉ numbers

/-- Cuts are apart whichever of the two comes first. -/
theorem eq_or_apart {d : Cut} (hc : c ∈ cuts id lines mask) (hd : d ∈ cuts id lines mask) :
    c = d ∨ c.last + 1 < d.first ∨ d.last + 1 < c.first := by
  have hap := cuts_apart id lines mask
  exact List.Pairwise.forall_of_forall_of_flip
    (R := fun a b => a = b ∨ a.last + 1 < b.first ∨ b.last + 1 < a.first)
    (fun _ _ => .inl rfl) (hap.imp fun h => .inr (.inl h)) (hap.imp fun h => .inr (.inr h)) hc hd

theorem exists_cut_iff (h : mask.length = lines.length) {a b : Nat} :
    (∃ c ∈ cuts id lines mask, c.first = a ∧ c.last = b) ↔ MaximalRun (gone mask) a b := by
  have hgone : ∀ {k}, k ∈ gone mask ↔ ∃ c ∈ cuts id lines mask, c.first ≤ k ∧ k ≤ c.last :=
    mem_gone_iff id h
  constructor
  · rintro ⟨c, hc, rfl, rfl⟩
    obtain ⟨h1, hle, -⟩ := cut_wellFormed hc
    refine ⟨hle, fun k hk hk' => hgone.mpr ⟨c, hc, hk, hk'⟩, fun hn => ?_, fun hn => ?_⟩
    · obtain ⟨d, hd, hd1, hd2⟩ := hgone.mp hn
      obtain rfl | hap := eq_or_apart hc hd
      · omega
      · have := (cut_wellFormed hd).1
        omega
    · obtain ⟨d, hd, hd1, hd2⟩ := hgone.mp hn
      obtain rfl | hap := eq_or_apart hc hd <;> omega
  · rintro ⟨hle, hall, hbefore, hafter⟩
    obtain ⟨c, hc, hc1, hc2⟩ := hgone.mp (hall a (Nat.le_refl a) hle)
    refine ⟨c, hc, ?_, ?_⟩
    · by_contra hne
      exact hbefore (hgone.mpr ⟨c, hc, by omega, by omega⟩)
    · rcases Nat.lt_trichotomy c.last b with hlt | heq | hgt
      · -- The number after the cut goes too, and so belongs to another cut, too close to this one.
        obtain ⟨d, hd, hd1, hd2⟩ := hgone.mp (hall (c.last + 1) (by omega) (by omega))
        obtain rfl | hap := eq_or_apart hc hd <;> omega
      · exact heq
      · exact absurd (hgone.mpr ⟨c, hc, by omega, by omega⟩) hafter

theorem two_le_count (h : mask.length = lines.length) (hp : Paired mask)
    (hc : c ∈ cuts id lines mask) : 2 ≤ c.count := by
  obtain ⟨h1, hle, hcount, -⟩ := cut_wellFormed hc
  obtain ⟨-, hall, hbefore, hafter⟩ := (exists_cut_iff h).mp ⟨c, hc, rfl, rfl⟩
  by_contra hlt
  have hsame : c.last = c.first := by omega
  have hk := mem_gone.mp (hall c.first (Nat.le_refl _) hle)
  rcases hp _ hk.2 with hn | ⟨j, hj, hn⟩
  · exact hafter (mem_gone.mpr ⟨by omega, by
      rw [hsame, Nat.add_sub_cancel, ← hn, Nat.sub_add_cancel h1]⟩)
  · exact hbefore (mem_gone.mpr ⟨by omega, by rw [← hj, Nat.add_sub_cancel, hn]⟩)

end Selection
end ContextBudget

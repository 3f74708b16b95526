import ContextBudget.Prune.Lines

/-!
# Lines and their text

Taking a text apart and joining lines are inverse to each other on the lines that come from texts:
none of them has a line end in it, no lines means no closing line end, and a last line that is not
closed is not empty (`Lines.WellFormed`).

- `Lines.wellFormed_ofText`, `Lines.ofText_text`: these are the lines of texts.
- `Lines.text_eq_intercalate`: the text of lines has a line end between any two of them, and one
  after the last if it is closed.
-/

namespace ContextBudget
namespace Lines

/-! ## Texts of one line -/

/-- No line end is in the text. -/
def OneLine (s : String) : Prop := '\n' ∉ s.toList

instance (s : String) : Decidable (OneLine s) := inferInstanceAs (Decidable ('\n' ∉ s.toList))

@[simp] theorem oneLine_append {a b : String} : OneLine (a ++ b) ↔ OneLine a ∧ OneLine b := by
  simp [OneLine]

theorem oneLine_repr (n : Nat) : OneLine (Nat.repr n) := by
  intro h
  rw [Nat.toList_repr] at h
  have := Nat.isDigit_of_mem_toDigits (by decide) (by decide) h
  exact absurd this (by decide)

theorem oneLine_numbered {wanted : Bool} {count number : Nat} {line : String} (h : OneLine line) :
    OneLine (numbered wanted count number line) := by
  have hspaces : ∀ k, OneLine (String.ofList (List.replicate k ' ')) := by
    intro k
    simp [OneLine, List.mem_replicate]
  have hbar : OneLine "| " := by decide
  unfold numbered numberMark
  split
  · simp [hspaces, hbar, oneLine_repr, h]
  · exact h

/-! ## Taking apart and joining -/

/-- The lines of some text. -/
structure WellFormed (t : Lines) : Prop where
  noEnd : ∀ line ∈ t.lines, OneLine line
  nil_open : t.lines = [] → t.closed = false
  last_ne : t.closed = false → t.lines.getLast? ≠ some ""

theorem split_eq_splitOn (separator : Char) (cs : List Char) :
    Text.split separator cs = cs.splitOn separator := by
  induction cs with
  | nil => rfl
  | cons c cs ih =>
    rw [List.splitOn_cons_eq_if_modifyHead, ← ih, Text.split, Text.splitBy_cons]
    by_cases hc : c = separator
    · simp [hc, Text.split]
    · obtain ⟨p, ps, h⟩ := List.exists_cons_of_ne_nil (Text.split_ne_nil separator cs)
      simp only [Text.split] at h
      simp [hc, Text.split, h]

theorem join_eq_intercalate (ls : List (List Char)) : join ls = ['\n'].intercalate ls := by
  induction ls with
  | nil => rfl
  | cons l rest ih => cases rest <;> simp [join, ih]

theorem text_eq_intercalate (t : Lines) :
    t.text = "\n".intercalate t.lines ++ if t.closed then "\n" else "" := by
  apply String.toList_injective
  rw [text, join_eq_intercalate]
  cases t.closed <;> simp

theorem split_join {ls : List (List Char)} (hne : ls ≠ []) (h : ∀ l ∈ ls, '\n' ∉ l) :
    Text.split '\n' (join ls) = ls := by
  rw [split_eq_splitOn, join_eq_intercalate, List.splitOn_intercalate '\n' h hne]

theorem not_mem_of_mem_split {separator : Char} {cs piece : List Char}
    (h : piece ∈ Text.split separator cs) : separator ∉ piece := by
  induction cs generalizing piece with
  | nil =>
    obtain rfl : piece = [] := by simpa [Text.split, Text.splitBy] using h
    exact List.not_mem_nil
  | cons c cs ih =>
    obtain ⟨p, ps, hp⟩ := List.exists_cons_of_ne_nil (Text.split_ne_nil separator cs)
    rw [hp] at ih
    rw [split_eq_splitOn, List.splitOn_cons_eq_if_modifyHead, ← split_eq_splitOn, hp] at h
    by_cases hc : c = separator
    · rw [if_pos (by simpa using hc)] at h
      rcases List.mem_cons.mp h with rfl | h
      · exact List.not_mem_nil
      · exact ih h
    · rw [if_neg (by simpa using hc)] at h
      rcases List.mem_cons.mp h with rfl | h
      · have := ih List.mem_cons_self
        simp [this, Ne.symm hc]
      · exact ih (List.mem_cons_of_mem _ h)

theorem join_concat {ls : List (List Char)} (hne : ls ≠ []) (l : List Char) :
    join (ls ++ [l]) = join ls ++ '\n' :: l := by
  induction ls with
  | nil => exact absurd rfl hne
  | cons a rest ih =>
    cases rest with
    | nil => simp [join]
    | cons b rest =>
      have := ih (by simp)
      simp only [List.cons_append] at this
      simp [join, this]

/-- Joined lines end as the last of them does, unless it is empty. -/
theorem getLast?_join {ls : List (List Char)} {l : List Char} (h : ls.getLast? = some l)
    (hl : l ≠ []) : (join ls).getLast? = l.getLast? := by
  obtain ⟨init, rfl⟩ := List.getLast?_eq_some_iff.mp h
  by_cases hi : init = []
  · simp [hi, join]
  · obtain ⟨c, cs, rfl⟩ := List.exists_cons_of_ne_nil hl
    rw [join_concat hi, List.getLast?_append, List.getLast?_cons_cons]
    simp [List.getLast?_cons]

theorem wellFormed_ofText (s : String) : (ofText s).WellFormed := by
  have hsplit : ∀ cs line, line ∈ (Text.split '\n' cs).map String.ofList → OneLine line := by
    intro cs line hline
    obtain ⟨piece, hp, rfl⟩ := List.mem_map.mp hline
    simpa [OneLine] using not_mem_of_mem_split hp
  have hne : ∀ cs, (Text.split '\n' cs).map String.ofList ≠ [] :=
    fun cs h => Text.split_ne_nil '\n' cs (List.map_eq_nil_iff.mp h)
  unfold ofText ofChars
  split
  · exact ⟨by simp, by simp, by simp⟩
  · rename_i hs
    split
    · exact ⟨hsplit _, fun h => absurd h (hne _), by simp⟩
    · rename_i hend
      refine ⟨hsplit _, fun h => absurd h (hne _), fun _ hlast => ?_⟩
      -- An empty last piece would stand after a line end at the very end of the text.
      rw [List.getLast?_map] at hlast
      obtain ⟨l, hl, he⟩ := Option.map_eq_some_iff.mp hlast
      obtain rfl : l = [] := by simpa using congrArg String.toList he
      obtain ⟨init, hi⟩ := List.getLast?_eq_some_iff.mp hl
      have hj := join_split s.toList
      rw [show Text.split '\n' s.toList = init ++ [[]] from hi] at hj
      by_cases h0 : init = []
      · exact hs (by rw [← hj, h0]; rfl)
      · rw [join_concat h0] at hj
        exact hend (by rw [← hj]; simp)

theorem ofText_text {t : Lines} (h : t.WellFormed) : ofText t.text = t := by
  obtain ⟨lines, closed⟩ := t
  obtain ⟨noEnd, nil_open, last_ne⟩ := h
  simp only at noEnd nil_open last_ne
  have hpieces : ∀ l ∈ lines.map String.toList, '\n' ∉ l := by
    intro l hl
    obtain ⟨line, hline, rfl⟩ := List.mem_map.mp hl
    exact noEnd line hline
  have hback : (lines.map String.toList).map String.ofList = lines := by simp
  by_cases hnil : lines = []
  · obtain rfl := nil_open hnil
    simp [hnil, text, ofText, ofChars, join]
  · have hsplit := split_join (by simpa using hnil) hpieces
    cases closed with
    | true => simp [text, ofText, ofChars, hsplit, hback]
    | false =>
      have hlast := List.getLast?_eq_some_getLast hnil
      generalize lines.getLast hnil = last at hlast
      have hne : last.toList ≠ [] := by
        intro he
        exact last_ne rfl (by rw [hlast, String.toList_eq_nil_iff.mp he])
      have hend : (join (lines.map String.toList)).getLast? = last.toList.getLast? :=
        getLast?_join (by simp [hlast]) hne
      have hjoin : join (lines.map String.toList) ≠ [] := by
        intro h0
        rw [h0, eq_comm, List.getLast?_nil, List.getLast?_eq_none_iff] at hend
        exact hne hend
      have hopen : ¬ (join (lines.map String.toList)).getLast? = some '\n' := by
        rw [hend]
        intro he
        exact noEnd last (List.mem_of_getLast? hlast) (List.mem_of_getLast? he)
      simp [text, ofText, ofChars, hjoin, hopen, hsplit, hback]

end Lines
end ContextBudget

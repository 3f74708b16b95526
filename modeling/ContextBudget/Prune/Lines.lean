import ContextBudget.Text.Blank

/-!
# Lines of a text

A text is a list of lines and a flag that tells whether a line end closes the last of them. The
empty text has no lines.

- `Lines.text_ofText`: taking a text apart and joining it again gives the text.
-/

namespace ContextBudget

/-- A text taken apart at its line ends. -/
structure Lines where
  lines : List String
  /-- Whether the last line is closed. -/
  closed : Bool
  deriving DecidableEq, Repr

namespace Lines

/-- The lines of a list of characters; a line end at the very end closes the last line and opens
no other. -/
def ofChars (cs : List Char) : List (List Char) × Bool :=
  if cs = [] then ([], false)
  else if cs.getLast? = some '\n' then (Text.split '\n' cs.dropLast, true)
  else (Text.split '\n' cs, false)

/-- The lines of a text. -/
def ofText (text : String) : Lines :=
  let parts := ofChars text.toList
  ⟨parts.1.map String.ofList, parts.2⟩

/-- Lines with line ends between them. -/
def join : List (List Char) → List Char
  | [] => []
  | [line] => line
  | line :: rest => line ++ '\n' :: join rest

/-- The text of lines. -/
def text (t : Lines) : String :=
  String.ofList (join (t.lines.map String.toList) ++ if t.closed then ['\n'] else [])

/-- How many digits the line numbers of a text take at least. -/
def numberWidth (count : Nat) : Nat := Nat.max (Nat.repr count).length 4

/-- What stands before a line to tell its number. -/
def numberMark (number width : Nat) : String :=
  let digits := Nat.repr number
  String.ofList (List.replicate (width - digits.length) ' ') ++ digits ++ "| "

/-- A line with its number before it, if numbers are wanted. -/
def numbered (wanted : Bool) (count number : Nat) (line : String) : String :=
  if wanted then numberMark number (numberWidth count) ++ line else line

theorem join_split (cs : List Char) : join (Text.split '\n' cs) = cs := by
  induction cs with
  | nil => rfl
  | cons c cs ih =>
    unfold Text.split at ih ⊢
    rw [Text.splitBy_cons]
    obtain ⟨p, ps, h⟩ := List.exists_cons_of_ne_nil (Text.split_ne_nil '\n' cs)
    unfold Text.split at h
    simp only [h] at ih ⊢
    by_cases hc : c = '\n'
    · simp [hc, join, ih]
    · cases ps <;> simpa [hc, join] using ih

theorem join_ofChars (cs : List Char) :
    join (ofChars cs).1 ++ (if (ofChars cs).2 then ['\n'] else []) = cs := by
  unfold ofChars
  split
  · rename_i h; simp [h, join]
  · rename_i h
    split
    · rename_i hl
      rw [List.getLast?_eq_some_getLast h, Option.some.injEq] at hl
      have hd := List.dropLast_concat_getLast h
      rw [hl] at hd
      simpa [join_split] using hd
    · simp [join_split]

theorem text_ofText (s : String) : (ofText s).text = s := by
  unfold text ofText
  simp [join_ofChars]

end Lines
end ContextBudget

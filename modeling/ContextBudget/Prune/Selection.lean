import ContextBudget.Prune.Cut
import ContextBudget.Prune.Lines
import ContextBudget.Prune.Relevance

/-!
# Choosing lines

Which lines of a text go. Every line that may go has a score; those with low scores are
candidates, and of them the lowest go first, earlier lines before later ones of the same score,
until the quota is used up. What goes is a mask: one truth value for each line.

- `length_mask`, `length_keepSingles`: a mask has one value for each line.
-/

namespace ContextBudget
namespace Selection

/-- How many of `n` lines may go. -/
def quota (options : PruneOptions) (n : Nat) : Nat :=
  Nat.min (Binary.ofNat n * options.maxRatio).floorWord (n - options.minKeep)

/-- The score of a line of a class, `own` being the score of an ordinary line. Anchored lines
have none. -/
def score (own : Single) : LineClass → Option Single
  | .anchored => none
  | .blank => some Score.blank
  | .duplicate => some Score.repeated
  | .ordinary => some own

/-- The scores of the lines of a text. A score from outside counts at least as much as that of a
repeated line. -/
def scores (lines : List String) (classes : List LineClass) (goal : List String)
    (outside : Option (List Single)) : List (Option Single) :=
  match outside with
  | some given =>
    let given := given ++ List.replicate (lines.length - given.length) 0
    (classes.zip given).map fun (c, s) => score (s.max Score.repeated) c
  | none => (classes.zip lines).map fun (c, line) => score (Score.relevance goal line) c

/-- The lines with a score below the one from which lines stay. -/
def candidates (keep : Single) (scores : List (Option Single)) : List (Single × Nat) :=
  scores.zipIdx.filterMap fun (s, i) =>
    s.bind fun s => if s.lt keep then some (s, i) else none

/-- By score, and by place where scores are equal. -/
def sooner (a b : Single × Nat) : Bool :=
  a.1.before b.1 || (!b.1.before a.1 && decide (a.2 ≤ b.2))

/-- The places of the candidates that go. -/
def chosen (keep : Single) (scores : List (Option Single)) (most : Nat) : List Nat :=
  (((candidates keep scores).mergeSort sooner).take most).map (·.2)

/-- The mask of `n` lines in which the given places are set. -/
def mask (n : Nat) (places : List Nat) : List Bool :=
  let set := Std.HashSet.ofList places
  (List.range n).map set.contains

/-- A mask in which lines that go alone stay, since their marker would be no shorter. `before`
tells whether the line before the first goes. -/
def keepSingles (before : Bool) : List Bool → List Bool
  | [] => []
  | goes :: rest => (goes && (before || rest.headD false)) :: keepSingles goes rest

/-- The maximal runs of items that go, each with the place of its first item; `i` is the place of
the first item of the list. -/
def runs {α : Type} (i : Nat) : List (α × Bool) → List (Nat × List α)
  | [] => []
  | (_, false) :: rest => runs (i + 1) rest
  | (x, true) :: rest =>
    match runs (i + 1) rest with
    | [] => [(i, [x])]
    | (j, xs) :: more => if j = i + 1 then (i, x :: xs) :: more else (i, [x]) :: (j, xs) :: more

/-- The cuts of a text whose lines go by a mask. -/
def cuts (id : String) (lines : List String) (mask : List Bool) : List Cut :=
  let known := (lines.map Text.isBlankText).zip (earlierRepeats lines)
  (runs 0 (known.zip mask)).map fun (skipped, block) =>
    .of id skipped block.length (.ofLines block)

/-- The lines that stay, and the markers of cuts where they are wanted. `number` is that of the
first line. -/
def outline (options : PruneOptions) (count number : Nat) (cuts : List Cut) :
    List (String × Bool) → List String
  | [] => []
  | (line, false) :: rest =>
    Lines.numbered options.numberLines count number line
      :: outline options count (number + 1) cuts rest
  | (_, true) :: rest =>
    match cuts with
    | [] => outline options count (number + 1) [] rest
    | cut :: more =>
      if cut.first = number then
        (if options.markers then [cut.marker] else [])
          ++ outline options count (number + 1) more rest
      else outline options count (number + 1) cuts rest

/-- The numbers of the lines that stay. -/
def kept (mask : List Bool) : List Nat :=
  (mask.zipIdx 1).filterMap fun (goes, number) => if goes then none else some number

/-- How many lines go. -/
def goneCount (mask : List Bool) : Nat := mask.count true

/-- A part as a fraction of a whole; of nothing, none is a part. -/
def ratio (part whole : Nat) : Double :=
  if whole = 0 then 0 else Binary.ofNat part / Binary.ofNat whole

/-- What is wrong with a mask for the options, if anything is. -/
def fault? (options : PruneOptions) (mask : List Bool) : Option String :=
  let n := mask.length
  let gone := goneCount mask
  if options.maxRatio.lt (ratio gone n) || decide (n - gone < options.minKeep) then
    some ("selection of " ++ Nat.repr gone ++ "/" ++ Nat.repr n ++ " violates max_prune_ratio="
      ++ options.maxRatio.text ++ " or min_keep_lines=" ++ Nat.repr options.minKeep)
  else none

@[simp] theorem length_mask (n : Nat) (places : List Nat) : (mask n places).length = n := by
  simp [mask]

@[simp] theorem length_keepSingles (before : Bool) (m : List Bool) :
    (keepSingles before m).length = m.length := by
  induction m generalizing before with
  | nil => rfl
  | cons goes rest ih => simp [keepSingles, ih]

end Selection
end ContextBudget

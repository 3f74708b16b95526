import ContextBudget.Prune.Options
import ContextBudget.Text.Blank
import Std.Data.HashSet

/-!
# Classes of lines

Before lines are scored they are told apart: structure and the two ends of a text are protected,
other lines are blank, repeat an earlier line, or are ordinary. What counts as structure depends
on the kind of the text, which can be told from its lines.

- `length_earlierRepeats`, `length_classify`: there is one answer for each line.
- `earlierRepeats_eq`: a line repeats an earlier one if the same text stands there.
-/

namespace ContextBudget

/-- Openings of structural lines of code. -/
def codeOpenings : List String :=
  ["import ", "from ", "use ", "pub use ", "#include", "package ", "require(", "fn ", "pub fn ",
   "pub(crate) fn ", "async fn ", "pub async fn ", "def ", "async def ", "class ", "struct ",
   "pub struct ", "enum ", "pub enum ", "trait ", "pub trait ", "impl ", "impl<", "interface ",
   "type ", "pub type ", "func ", "function ", "export ", "mod ", "pub mod ", "@"]

/-- What marks a line of a log as part of a failure. -/
def failureMarks : List String :=
  ["error", "exception", "traceback", "panicked", "panic:", "fatal", "failed", "caused by",
   "stack backtrace"]

/-- The levels of log lines. -/
def logLevels : List String := ["error", "warn", "info", "debug", "trace"]

namespace SourceKind

/-- Whether one of `openings` opens the text. -/
def opensWithAny (openings : List String) (cs : List Char) : Bool :=
  openings.any fun s => s.toList.isPrefixOf cs

/-- Whether a text ends with a character. -/
def endsWith (cs : List Char) (c : Char) : Bool := cs.getLast? == some c

/-- Whether a line opens like one of a log: with a date of at least ten bytes, or with a level
near its start. -/
def looksLikeLog (trimmed : List Char) : Bool :=
  let dated := 10 ≤ (String.ofList trimmed).utf8ByteSize && (trimmed.take 4).all Char.isDigit
    && trimmed[4]? == some '-'
  let head := Text.lowerAscii (trimmed.take 24)
  dated || logLevels.any fun level =>
    ("[" ++ level).toList.isPrefixOf head || (level ++ ":").toList.isPrefixOf head
      || Text.occursIn (" " ++ level ++ " ").toList head

/-- Whether a line looks like code. -/
def looksLikeCode (trimmed : List Char) : Bool :=
  endsWith trimmed '\x7b' || endsWith trimmed ';' || trimmed == ['\x7d']
    || opensWithAny ["//"] trimmed || opensWithAny codeOpenings trimmed

/-- Whether a line is a heading: one to six number signs and a space. -/
def isHeading (cs : List Char) : Bool :=
  let signs := (cs.takeWhile (· == '#')).length
  1 ≤ signs && signs ≤ 6 && cs[signs]? == some ' '

/-- Whether a line underlines a heading. -/
def isUnderline (cs : List Char) : Bool :=
  3 ≤ cs.length && (cs.all (· == '=') || cs.all (· == '-'))

/-- What a trimmed line that is not blank speaks for. -/
def speaksFor (trimmed : List Char) : SourceKind :=
  if looksLikeLog trimmed then log
  else if looksLikeCode trimmed then code
  else if isHeading trimmed || opensWithAny ["- ", "* "] trimmed then document
  else auto

/-- The kind of a text, by the number of lines that speak for each. -/
def detect (lines : List String) : SourceKind :=
  let votes := ((lines.map fun l => Text.trim l.toList).filter (!·.isEmpty)).map speaksFor
  let logs := votes.count log
  let codes := votes.count code
  let documents := votes.count document
  if 0 < logs ∧ codes ≤ logs ∧ documents ≤ logs then log
  else if 0 < codes ∧ documents ≤ codes then code
  else document

/-- The kind that a request means for its lines. -/
def resolve (kind : SourceKind) (lines : List String) : SourceKind :=
  match kind with
  | auto => detect lines
  | kind => kind

/-- Whether a line is structure in a text of the kind. -/
def isStructural (kind : SourceKind) (line : String) : Bool :=
  let cs := Text.trimLeft line.toList
  if cs.isEmpty then false
  else match kind with
    | code => opensWithAny codeOpenings cs
    | log =>
      let small := Text.lowerAscii cs
      failureMarks.any (fun m => Text.occursIn m.toList small) || opensWithAny ["file \""] small
    | document => isHeading cs || isUnderline (Text.trimRight cs)
    | auto => false

end SourceKind

/-- The class of a line. -/
inductive LineClass where
  /-- The line never goes. -/
  | anchored
  | blank
  /-- The line repeats an earlier one. -/
  | duplicate
  | ordinary
  deriving DecidableEq, Repr

/-- Which keys came before, `seen` being those before the first. -/
def repeatsAfter (seen : Std.HashSet String) : List String → List Bool
  | [] => []
  | key :: rest => seen.contains key :: repeatsAfter (seen.insert key) rest

/-- Which lines repeat an earlier line, blanks at the ends aside. -/
def earlierRepeats (lines : List String) : List Bool := repeatsAfter ∅ (lines.map Text.trimmed)

namespace LineClass

/-- The name of a class. -/
def text : LineClass → String
  | anchored => "Protected"
  | blank => "Blank"
  | duplicate => "Duplicate"
  | ordinary => "Ordinary"

/-- The class of a line from what is known about it. -/
def of (anchored blank repeated : Bool) : LineClass :=
  if anchored then .anchored
  else if blank then .blank
  else if repeated then .duplicate
  else .ordinary

end LineClass

/-- The classes of the lines of a text. The first and the last line are anchored as structure
is. -/
def classify (kind : SourceKind) (lines : List String) : List LineClass :=
  let last := lines.length - 1
  (lines.zip (earlierRepeats lines)).zipIdx.map fun ((line, repeated), i) =>
    .of (i == 0 || i == last || kind.isStructural line) (Text.isBlankText line) repeated

theorem getElem?_repeatsAfter (seen : Std.HashSet String) (keys : List String) (i : Nat) :
    (repeatsAfter seen keys)[i]? =
      keys[i]?.map fun key => seen.contains key || (keys.take i).contains key := by
  induction keys generalizing seen i with
  | nil => rfl
  | cons key rest ih =>
    cases i with
    | zero => simp [repeatsAfter]
    | succ i =>
      rw [repeatsAfter, List.getElem?_cons_succ, List.getElem?_cons_succ, ih]
      refine Option.map_congr fun other _ => ?_
      rw [Std.HashSet.contains_insert, List.take_succ_cons, List.contains_cons, Bool.beq_comm]
      ac_rfl

/-- A line repeats an earlier one if the same text stands there, blanks at the ends aside. -/
theorem earlierRepeats_eq (lines : List String) :
    earlierRepeats lines = lines.zipIdx.map fun x =>
      ((lines.take x.2).map Text.trimmed).contains (Text.trimmed x.1) := by
  refine List.ext_getElem? fun i => ?_
  rw [earlierRepeats, getElem?_repeatsAfter]
  simp [List.map_take, Function.comp_def]

theorem length_repeatsAfter (seen : Std.HashSet String) (keys : List String) :
    (repeatsAfter seen keys).length = keys.length := by
  induction keys generalizing seen with
  | nil => rfl
  | cons key rest ih => simp [repeatsAfter, ih]

@[simp] theorem length_earlierRepeats (lines : List String) :
    (earlierRepeats lines).length = lines.length := by
  simp [earlierRepeats, length_repeatsAfter]

@[simp] theorem length_classify (kind : SourceKind) (lines : List String) :
    (classify kind lines).length = lines.length := by
  simp [classify]

end ContextBudget

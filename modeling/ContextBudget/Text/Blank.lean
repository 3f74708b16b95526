/-!
# Blank characters, words and lines

A text is blank where Unicode's White_Space property holds. The functions here work on lists of
characters, which is what laws about them speak of; those in the namespace `Text` that take a
`String` are their wrappers.

- `splitBy_cons`: how a split grows by one character, the equation its laws are proved from.
-/

namespace ContextBudget
namespace Text

/-- Unicode's White_Space property. -/
def isBlank (c : Char) : Bool :=
  let n := c.toNat
  (9 ≤ n && n ≤ 13) || n == 0x20 || n == 0x85 || n == 0xA0 || n == 0x1680
    || (0x2000 ≤ n && n ≤ 0x200A) || n == 0x2028 || n == 0x2029 || n == 0x202F || n == 0x205F
    || n == 0x3000

/-- The text without its leading blanks. -/
def trimLeft (cs : List Char) : List Char := cs.dropWhile isBlank

/-- The text without its trailing blanks. -/
def trimRight (cs : List Char) : List Char := (cs.reverse.dropWhile isBlank).reverse

/-- The text without the blanks at either end. -/
def trim (cs : List Char) : List Char := trimRight (trimLeft cs)

/-- The pieces between the characters that satisfy `cut`; one more piece than there are cuts. -/
def splitBy (cut : Char → Bool) (cs : List Char) : List (List Char) :=
  let pieces := cs.foldr
    (fun c (p : List Char × List (List Char)) =>
      if cut c then ([], p.1 :: p.2) else (c :: p.1, p.2))
    ([], [])
  pieces.1 :: pieces.2

/-- The pieces between the occurrences of one separator. -/
def split (separator : Char) (cs : List Char) : List (List Char) := splitBy (· == separator) cs

/-- The words of a text: its pieces between blanks that are not empty. -/
def words (cs : List Char) : List (List Char) := (splitBy isBlank cs).filter (!·.isEmpty)

/-- Whether `needle` occurs somewhere in `hay`. -/
def occursIn (needle : List Char) : List Char → Bool
  | [] => needle.isEmpty
  | c :: cs => needle.isPrefixOf (c :: cs) || occursIn needle cs

/-- ASCII capitals become small letters; every other character stays. -/
def lowerAscii (cs : List Char) : List Char := cs.map Char.toLower

/-- The text without blanks at either end. -/
def trimmed (s : String) : String := String.ofList (trim s.toList)

/-- Whether nothing but blanks is in the text. -/
def isBlankText (s : String) : Bool := s.toList.all isBlank

/-- Whether `s` begins with `opening`. -/
def opensWith (s opening : String) : Bool := opening.toList.isPrefixOf s.toList

/-- The first `most` characters of a text, with an ellipsis after them if the text goes on. -/
def excerpt (s : String) (most : Nat) : String :=
  let cs := s.toList
  if cs.length ≤ most then s else String.ofList (cs.take most) ++ "…"

theorem split_ne_nil (separator : Char) (cs : List Char) : split separator cs ≠ [] := by
  simp [split, splitBy]

theorem splitBy_cons (cut : Char → Bool) (c : Char) (cs : List Char) :
    splitBy cut (c :: cs) =
      if cut c then [] :: splitBy cut cs
      else (c :: (splitBy cut cs).head (by simp [splitBy])) :: (splitBy cut cs).tail := by
  by_cases h : cut c <;> simp [splitBy, h]

end Text
end ContextBudget

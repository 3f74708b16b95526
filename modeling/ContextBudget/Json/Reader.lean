import ContextBudget.Json.Value

/-!
# Reading JSON texts

The grammar is RFC 8259 with nothing added: no trailing commas, no comments, no control
characters in strings, no lone surrogates. Arrays and objects nest at most 127 deep.

A number without point and exponent is whole if it is a 64-bit word, signed or unsigned, and not
`-0`. Every other number is a binary one: the digits that fit a word make a significand, which is
scaled by one rounded power of ten. A number too large for the format is an error.
-/

namespace ContextBudget
namespace Json

/-- The blanks of JSON. -/
def isSpace (c : Char) : Bool := c = ' ' || c = '\n' || c = '\t' || c = '\r'

/-- The text after its leading blanks. -/
def skipSpace (cs : List Char) : List Char := cs.dropWhile isSpace

/-- The value of a hexadecimal digit. -/
def hexValue? (c : Char) : Option Nat :=
  if '0' ≤ c ∧ c ≤ '9' then some (c.toNat - '0'.toNat)
  else if 'a' ≤ c ∧ c ≤ 'f' then some (c.toNat - 'a'.toNat + 10)
  else if 'A' ≤ c ∧ c ≤ 'F' then some (c.toNat - 'A'.toNat + 10)
  else none

/-- The value of four hexadecimal digits. -/
def hexUnit? (a b c d : Char) : Option Nat := do
  let a ← hexValue? a
  let b ← hexValue? b
  let c ← hexValue? c
  let d ← hexValue? d
  return ((a * 16 + b) * 16 + c) * 16 + d

/-- The character of a one-letter escape. -/
def escaped? (c : Char) : Option Char :=
  if c = '"' ∨ c = '\\' ∨ c = '/' then some c
  else if c = 'n' then some '\n'
  else if c = 't' then some '\t'
  else if c = 'r' then some '\r'
  else if c = 'b' then some '\x08'
  else if c = 'f' then some '\x0c'
  else none

/-- The rest of a string literal after its opening quote; `seen` holds its characters so far,
the latest first. -/
def readString (seen : List Char) : List Char → Option (String × List Char)
  | [] => none
  | '"' :: rest => some (String.ofList seen.reverse, rest)
  | '\\' :: 'u' :: a :: b :: c :: d :: '\\' :: 'u' :: e :: f :: g :: h :: rest =>
    match hexUnit? a b c d with
    | none => none
    | some high =>
      if 0xDC00 ≤ high ∧ high ≤ 0xDFFF then none
      else if 0xD800 ≤ high ∧ high ≤ 0xDBFF then
        match hexUnit? e f g h with
        | none => none
        | some low =>
          if 0xDC00 ≤ low ∧ low ≤ 0xDFFF then
            let scalar := 0x10000 + (high - 0xD800) * 0x400 + (low - 0xDC00)
            readString (Char.ofNat scalar :: seen) rest
          else none
      else readString (Char.ofNat high :: seen) ('\\' :: 'u' :: e :: f :: g :: h :: rest)
  | '\\' :: 'u' :: a :: b :: c :: d :: rest =>
    match hexUnit? a b c d with
    | none => none
    | some unit =>
      if 0xD800 ≤ unit ∧ unit ≤ 0xDFFF then none
      else readString (Char.ofNat unit :: seen) rest
  | '\\' :: c :: rest =>
    match escaped? c with
    | none => none
    | some c => readString (c :: seen) rest
  | c :: rest => if c.toNat < 32 ∨ c = '\\' then none else readString (c :: seen) rest

/-! ## Numbers -/

/-- A significand of one word and how many whole digits did not fit it. -/
structure Significand where
  value : Nat
  lost : Nat
  deriving Repr

/-- The significand of whole digits: once a digit does not fit, none does. -/
def Significand.ofWhole (digits : List Char) : Significand :=
  digits.foldl
    (fun s c =>
      let next := s.value * 10 + (c.toNat - '0'.toNat)
      if s.lost = 0 ∧ next < Nat.pow 2 64 then ⟨next, 0⟩ else ⟨s.value, s.lost + 1⟩)
    ⟨0, 0⟩

/-- The word after as many fraction digits as fit it, and how many they were. -/
def addFraction (value taken : Nat) : List Char → Nat × Nat
  | [] => (value, taken)
  | c :: rest =>
    let next := value * 10 + (c.toNat - '0'.toNat)
    if next < Nat.pow 2 64 then addFraction next (taken + 1) rest else (value, taken)

/-- A number divided by a power of ten in steps that are powers of the format. -/
def divideBy (x : Double) (power : Nat) : Double :=
  if power ≤ 308 then x / Binary.ofNat (Nat.pow 10 power)
  else if x = .finite false 0 then x
  else divideBy (x / Binary.ofNat (Nat.pow 10 308)) (power - 308)
termination_by power

/-- A significand times a power of ten, unless that is past the largest number. -/
def scaled? (value : Nat) (exponent : Int) : Option Double :=
  let x : Double := Binary.ofNat value
  if exponent < 0 then some (divideBy x exponent.natAbs)
  else if value = 0 then some x
  else if 308 < exponent then none
  else
    let y := x * Binary.ofNat (Nat.pow 10 exponent.toNat)
    if y.isFinite then some y else none

/-- The number of its parts: sign, whole digits, fraction digits and exponent if there are any. -/
def number? (negative : Bool) (whole : List Char) (fraction : Option (List Char))
    (exponent : Option Int) : Option Json :=
  let s := Significand.ofWhole whole
  if fraction.isNone ∧ exponent.isNone ∧ s.lost = 0 ∧ negative = false then some (int s.value)
  else if fraction.isNone ∧ exponent.isNone ∧ s.lost = 0 ∧ s.value ≠ 0
      ∧ s.value ≤ Nat.pow 2 63 then
    some (int (-(s.value : Int)))
  else
    let (value, taken) := addFraction s.value 0 (fraction.getD [])
    (scaled? value (exponent.getD 0 + s.lost - taken)).map fun x =>
      float (if negative then -x else x)

/-- The exponent after its `e`. -/
def readExponent (cs : List Char) : Option (Int × List Char) :=
  let negative := cs.head? = some '-'
  let body := if negative ∨ cs.head? = some '+' then cs.drop 1 else cs
  let digits := body.takeWhile Char.isDigit
  if digits.isEmpty then none
  else
    let n : Int := Binary.digitsValue digits
    some (if negative then -n else n, body.dropWhile Char.isDigit)

/-- A number. -/
def readNumber (cs : List Char) : Option (Json × List Char) := do
  let negative := cs.head? = some '-'
  let body := if negative then cs.drop 1 else cs
  let whole := body.takeWhile Char.isDigit
  let rest := body.dropWhile Char.isDigit
  if whole.isEmpty || (whole.head? = some '0' && 1 < whole.length) then none
  else
    let (fraction, rest) ← match rest with
      | '.' :: more =>
        let digits := more.takeWhile Char.isDigit
        if digits.isEmpty then none else some (some digits, more.dropWhile Char.isDigit)
      | _ => some (none, rest)
    let (exponent, rest) ← match rest with
      | 'e' :: more => (readExponent more).map fun (n, rest) => (some n, rest)
      | 'E' :: more => (readExponent more).map fun (n, rest) => (some n, rest)
      | _ => some (none, rest)
    return (← number? negative whole fraction exponent, rest)

/-! ## Values -/

mutual

/-- A value and what follows it. `depth` counts the levels that may still open, `fuel` the steps
of the reader; two steps for each character are enough. -/
def readValue (fuel depth : Nat) (cs : List Char) : Option (Json × List Char) :=
  match fuel with
  | 0 => none
  | fuel + 1 =>
    match skipSpace cs with
    | 'n' :: 'u' :: 'l' :: 'l' :: rest => some (null, rest)
    | 't' :: 'r' :: 'u' :: 'e' :: rest => some (bool true, rest)
    | 'f' :: 'a' :: 'l' :: 's' :: 'e' :: rest => some (bool false, rest)
    | '"' :: rest => (readString [] rest).map fun (s, rest) => (str s, rest)
    | '[' :: rest =>
      if depth = 0 then none
      else match skipSpace rest with
        | ']' :: rest => some (arr [], rest)
        | rest => readItems fuel (depth - 1) [] rest
    | '\x7b' :: rest =>
      if depth = 0 then none
      else match skipSpace rest with
        | '\x7d' :: rest => some (obj [], rest)
        | rest => readFields fuel (depth - 1) [] rest
    | rest => readNumber rest

/-- The rest of an array, an item first; `seen` holds the items so far, the latest first. -/
def readItems (fuel depth : Nat) (seen : List Json) (cs : List Char) :
    Option (Json × List Char) :=
  match fuel with
  | 0 => none
  | fuel + 1 =>
    match readValue fuel depth cs with
    | none => none
    | some (v, rest) =>
      match skipSpace rest with
      | ',' :: rest => readItems fuel depth (v :: seen) rest
      | ']' :: rest => some (arr (v :: seen).reverse, rest)
      | _ => none

/-- The rest of an object, a field first; `seen` holds the fields so far, the latest first. -/
def readFields (fuel depth : Nat) (seen : List (String × Json)) (cs : List Char) :
    Option (Json × List Char) :=
  match fuel with
  | 0 => none
  | fuel + 1 =>
    match skipSpace cs with
    | '"' :: rest =>
      match readString [] rest with
      | none => none
      | some (name, rest) =>
        match skipSpace rest with
        | ':' :: rest =>
          match readValue fuel depth rest with
          | none => none
          | some (v, rest) =>
            match skipSpace rest with
            | ',' :: rest => readFields fuel depth ((name, v) :: seen) rest
            | '\x7d' :: rest => some (obj ((name, v) :: seen).reverse, rest)
            | _ => none
        | _ => none
    | _ => none

end

/-- The value that a text denotes, as it was written. -/
def read? (text : String) : Option Json :=
  let cs := text.toList
  match readValue (2 * cs.length + 2) 127 cs with
  | some (v, rest) => if (skipSpace rest).isEmpty then some v else none
  | none => none

end Json
end ContextBudget

import ContextBudget.Number.Binary

/-!
# Decimal texts of binary numbers

A printed number has the fewest digits that read back as the number, and of those the nearest
ones. `shortest` finds them on the decimal grids from coarse to fine: on each grid only the two
neighbours of the exact value can be the answer. How the digits are laid out, and where a tie
between two neighbours goes, is a `DecimalStyle`.
-/

namespace ContextBudget

/-- The decimal `digits * 10 ^ exponent`. -/
structure Decimal where
  digits : Nat
  exponent : Int
  deriving DecidableEq, Repr

namespace Decimal

/-- The same decimal without trailing zeros among its digits. -/
def reduce (fuel : Nat) (d : Decimal) : Decimal :=
  match fuel with
  | 0 => d
  | fuel + 1 =>
    if d.digits ≠ 0 ∧ d.digits % 10 = 0 then reduce fuel ⟨d.digits / 10, d.exponent + 1⟩ else d

/-- How many decimal digits a whole number has. -/
def length (n : Nat) : Nat := (Nat.repr n).length

end Decimal

namespace Binary

variable {f : BinaryFormat}

/-- The numbers that round to `units` units lie between the first and the second component, in
quarters of a unit; the ends belong to them when the third one holds. -/
def interval (f : BinaryFormat) (units : Nat) : Nat × Nat × Bool :=
  let gap := Nat.pow 2 (f.dropped units)
  let below := if 0 < f.dropped units ∧ units = Nat.pow 2 (Nat.log2 units) then gap else 2 * gap
  (4 * units - below, 4 * units + 2 * gap, units / gap % 2 = 0)

/-- The better of the two neighbours of `4 * units` quarters on the grid of `10 ^ k`, if one
of them rounds to `units`. -/
def onGrid (f : BinaryFormat) (tieUp : Bool) (units : Nat) (k : Int) : Option Nat :=
  let shift := Nat.pow 10 (-k).toNat
  let step := Nat.pow 10 k.toNat * Nat.pow 2 (f.scale + 2)
  let (low, high, ends) := interval f units
  let hit (d : Nat) : Bool :=
    let point := d * step
    if ends then low * shift ≤ point ∧ point ≤ high * shift else low * shift < point ∧ point < high * shift
  let exact := 4 * units * shift
  let d := exact / step
  let below := exact - d * step
  let above := (d + 1) * step - exact
  match hit d && d != 0, hit (d + 1) with
  | true, false => some d
  | false, true => some (d + 1)
  | true, true =>
    if below < above then some d
    else if above < below then some (d + 1)
    else if tieUp || d % 2 = 1 then some (d + 1) else some d
  | false, false => none

/-- The first grid that has an answer, at most `fuel` grids finer than `10 ^ k`. -/
def firstGrid (f : BinaryFormat) (tieUp : Bool) (units : Nat) (k : Int) : Nat → Decimal
  | 0 => ⟨0, 0⟩
  | fuel + 1 =>
    match onGrid f tieUp units k with
    | some d => ⟨d, k⟩
    | none => firstGrid f tieUp units (k - 1) fuel

/-- The exponent of the leading decimal digit of `units` units, or one more. -/
def leading (f : BinaryFormat) (units : Nat) : Int :=
  let whole := units / Nat.pow 2 f.scale
  if whole ≠ 0 then (Decimal.length whole : Int) - 1
  else
    -- `units / 2 ^ scale` has as many digits after the point as `units * 5 ^ scale` has places.
    (Decimal.length (units * Nat.pow 5 f.scale) : Int) - 1 - f.scale

/-- The fewest digits that read back as `units` units, and of those the nearest. -/
def shortest (f : BinaryFormat) (tieUp : Bool) (units : Nat) : Decimal :=
  Decimal.reduce 20 (firstGrid f tieUp units (leading f units) 20)

end Binary

/-- How the digits of a number are laid out. -/
structure DecimalStyle where
  /-- Of two equally near neighbours take the larger one, else the even one. -/
  tieUp : Bool
  /-- A whole number keeps a fraction of `.0`. -/
  point : Bool
  /-- The leading exponents that are written without a power of ten, lowest and highest. -/
  positional : Option (Int × Int)
  deriving Repr

namespace DecimalStyle

/-- Messages write every number out in full. -/
def plain : DecimalStyle := ⟨true, false, none⟩

/-- JSON texts write a power of ten below `1e-5` and from `1e16`. -/
def json : DecimalStyle := ⟨false, true, some (-5, 15)⟩

/-- A decimal without a power of ten. -/
def writePlain (style : DecimalStyle) (d : Decimal) : String :=
  let digits := Nat.repr d.digits
  let n := digits.length
  if 0 ≤ d.exponent then
    digits ++ String.ofList (List.replicate d.exponent.toNat '0') ++ (if style.point then ".0" else "")
  else
    let places := (-d.exponent).toNat
    if places < n then
      String.ofList (digits.toList.take (n - places)) ++ "."
        ++ String.ofList (digits.toList.drop (n - places))
    else "0." ++ String.ofList (List.replicate (places - n) '0') ++ digits

/-- A decimal with one digit before the point and a power of ten. -/
def writePower (d : Decimal) : String :=
  let digits := Nat.repr d.digits
  let power := d.exponent + (digits.length : Int) - 1
  let fraction := if digits.length = 1 then "" else "." ++ String.ofList (digits.toList.drop 1)
  String.ofList (digits.toList.take 1) ++ fraction ++ "e" ++ toString power

/-- A decimal in the style. -/
def write (style : DecimalStyle) (d : Decimal) : String :=
  let lead := d.exponent + (Decimal.length d.digits : Int) - 1
  match style.positional with
  | some (low, high) =>
    if d.digits = 0 ∨ (low ≤ lead ∧ lead ≤ high) then style.writePlain d else writePower d
  | none => style.writePlain d

end DecimalStyle

namespace Binary

variable {f : BinaryFormat}

/-- The text of a number in a style. -/
def write (style : DecimalStyle) : Binary f → String
  | nan => "NaN"
  | infinity negative => if negative then "-inf" else "inf"
  | finite negative units =>
    let sign := if negative then "-" else ""
    let d := if units = 0 then ⟨0, 0⟩ else shortest f style.tieUp units
    sign ++ style.write d

/-- The text of a number in a message. -/
def text (x : Binary f) : String := x.write .plain

/-- The text of a number without a fraction, a half going to the even neighbour. -/
def wholeText : Binary f → String
  | finite negative units =>
    (if negative then "-" else "") ++ Nat.repr (nearest units (Nat.pow 2 f.scale))
  | x => x.text

/-! ## Reading -/

/-- The value of ASCII digits. -/
def digitsValue (cs : List Char) : Nat := cs.foldl (fun n c => n * 10 + (c.toNat - '0'.toNat)) 0

/-- The number nearest to `digits * 10 ^ exponent`. -/
def ofDecimal (negative : Bool) (digits : Nat) (exponent : Int) : Binary f :=
  let lead := (Decimal.length digits : Int) + exponent
  if digits = 0 ∨ lead < -(f.top : Int) then finite negative 0
  else if (f.top : Int) < lead then infinity negative
  else ofUnits negative (digits * Nat.pow 10 exponent.toNat * Nat.pow 2 f.scale)
    (Nat.pow 10 (-exponent).toNat)

/-- The exponent part of a decimal text: nothing, or an `e` and a whole number. -/
def readExponent? : List Char → Option Int
  | [] => some 0
  | c :: cs =>
    if c ≠ 'e' ∧ c ≠ 'E' then none
    else
      let negative := cs.head? = some '-'
      let digits := if negative ∨ cs.head? = some '+' then cs.drop 1 else cs
      if digits.isEmpty || !digits.all Char.isDigit then none
      else some (if negative then -(digitsValue digits : Int) else digitsValue digits)

/-- The number that a text denotes: an optional sign, then `inf`, `infinity` or `nan` in any
case, or digits with an optional point among or around them and an optional power of ten. -/
def read? (cs : List Char) : Option (Binary f) :=
  let negative := cs.head? = some '-'
  let body := if negative ∨ cs.head? = some '+' then cs.drop 1 else cs
  let name := String.ofList (body.map Char.toLower)
  if name = "inf" ∨ name = "infinity" then some (infinity negative)
  else if name = "nan" then some nan
  else
    let whole := body.takeWhile Char.isDigit
    let rest := body.dropWhile Char.isDigit
    let pointed := rest.head? = some '.'
    let fraction := if pointed then (rest.drop 1).takeWhile Char.isDigit else []
    let rest := if pointed then (rest.drop 1).dropWhile Char.isDigit else rest
    if whole.isEmpty && fraction.isEmpty then none
    else (readExponent? rest).map fun e =>
      ofDecimal negative (digitsValue (whole ++ fraction)) (e - fraction.length)

end Binary
end ContextBudget

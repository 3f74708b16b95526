/-!
# Binary floating-point numbers

Every finite number of a binary format is a whole multiple of the smallest positive one, its
*unit*. `Binary f` keeps that multiple, so comparing two numbers compares whole numbers, and each
operation is: compute exactly in units, then round once with `BinaryFormat.round`.

- `nearest_mul_le`, `le_nearest_mul`: `nearest` is within half a step of the quotient.
-/

namespace ContextBudget

/-- The whole number nearest to `num / den`; a tie goes to the even neighbour. -/
def nearest (num den : Nat) : Nat :=
  let below := num / den
  let rest := num % den
  if 2 * rest < den then below
  else if den < 2 * rest then below + 1
  else below + below % 2

theorem nearest_mul_le {num den : Nat} (h : 0 < den) : 2 * (nearest num den * den) ≤ 2 * num + den := by
  have hd := Nat.div_add_mod num den
  have hr := Nat.mod_lt num h
  rw [Nat.mul_comm] at hd
  unfold nearest
  simp only
  generalize num / den = q at *
  generalize num % den = r at *
  split
  · omega
  · split
    · rw [Nat.add_mul]; omega
    · have : q % 2 * den ≤ den := by
        rcases Nat.mod_two_eq_zero_or_one q with e | e <;> simp [e]
      rw [Nat.add_mul]; omega

theorem le_nearest_mul {num den : Nat} (h : 0 < den) : 2 * num ≤ 2 * (nearest num den * den) + den := by
  have hd := Nat.div_add_mod num den
  have hr := Nat.mod_lt num h
  rw [Nat.mul_comm] at hd
  unfold nearest
  simp only
  generalize num / den = q at *
  generalize num % den = r at *
  split
  · omega
  · split
    · rw [Nat.add_mul]; omega
    · have : 0 ≤ q % 2 * den := Nat.zero_le _
      rw [Nat.add_mul]; omega

/-- A binary interchange format. -/
structure BinaryFormat where
  /-- How many binary digits a significand has. -/
  precision : Nat
  /-- The unit is two to the power `-scale`. -/
  scale : Nat
  /-- No finite number has `2 ^ top` units or more. -/
  top : Nat
  deriving DecidableEq, Repr

/-- The 64-bit format. -/
def double : BinaryFormat := ⟨53, 1074, 2098⟩

/-- The 32-bit format. -/
def single : BinaryFormat := ⟨24, 149, 277⟩

namespace BinaryFormat

/-- The binary places that a number of `units` units drops. -/
def dropped (f : BinaryFormat) (units : Nat) : Nat := Nat.log2 units + 1 - f.precision

/-- The exact number of units `num / den`, rounded to the digits of the format. -/
def round (f : BinaryFormat) (num den : Nat) : Nat :=
  let step := Nat.pow 2 (f.dropped (num / den))
  nearest num (den * step) * step

end BinaryFormat

/-- A number of a binary format. -/
inductive Binary (f : BinaryFormat) where
  | nan
  | infinity (negative : Bool)
  | finite (negative : Bool) (units : Nat)
  deriving DecidableEq, Repr

/-- A 64-bit number. -/
abbrev Double := Binary double

/-- A 32-bit number. -/
abbrev Single := Binary single

namespace Binary

variable {f : BinaryFormat}

/-- The number nearest to `num / den` units, infinite past the largest finite one. -/
def ofUnits (negative : Bool) (num den : Nat) : Binary f :=
  let units := f.round num den
  if units < Nat.pow 2 f.top then finite negative units else infinity negative

/-- The number nearest to `num / den`. -/
def ofRatio (num den : Nat) : Binary f := ofUnits false (num * Nat.pow 2 f.scale) den

/-- The number nearest to a whole number. -/
def ofNat (n : Nat) : Binary f := ofRatio n 1

instance : Inhabited (Binary f) := ⟨finite false 0⟩

instance {n : Nat} : OfNat (Binary f) n := ⟨ofNat n⟩

/-- Whether the sign is negative. -/
def isNegative : Binary f → Bool
  | nan => false
  | infinity negative => negative
  | finite negative _ => negative

/-- The number with the other sign. -/
def neg : Binary f → Binary f
  | nan => nan
  | infinity negative => infinity (!negative)
  | finite negative units => finite (!negative) units

/-- The whole number of units with its sign. -/
def signed (negative : Bool) (units : Nat) : Int := if negative then -(units : Int) else units

/-- The product, rounded once. -/
def mul : Binary f → Binary f → Binary f
  | nan, _ => nan
  | _, nan => nan
  | infinity a, infinity b => infinity (a != b)
  | infinity a, finite b units => if units = 0 then nan else infinity (a != b)
  | finite a units, infinity b => if units = 0 then nan else infinity (a != b)
  | finite a x, finite b y => ofUnits (a != b) (x * y) (Nat.pow 2 f.scale)

/-- The quotient, rounded once; zero by zero and infinity by infinity are not numbers. -/
def div : Binary f → Binary f → Binary f
  | nan, _ => nan
  | _, nan => nan
  | infinity _, infinity _ => nan
  | infinity a, finite b _ => infinity (a != b)
  | finite a _, infinity b => finite (a != b) 0
  | finite a x, finite b y =>
    if y = 0 then (if x = 0 then nan else infinity (a != b))
    else ofUnits (a != b) (x * Nat.pow 2 f.scale) y

/-- The sum, rounded once; a sum of zero is negative only when both terms are. -/
def add : Binary f → Binary f → Binary f
  | nan, _ => nan
  | _, nan => nan
  | infinity a, infinity b => if a = b then infinity a else nan
  | infinity a, finite _ _ => infinity a
  | finite _ _, infinity b => infinity b
  | finite a x, finite b y =>
    let sum := signed a x + signed b y
    if sum = 0 then finite (a && b) 0 else ofUnits (sum < 0) sum.natAbs 1

instance : Mul (Binary f) := ⟨mul⟩
instance : Div (Binary f) := ⟨div⟩
instance : Add (Binary f) := ⟨add⟩
instance : Neg (Binary f) := ⟨neg⟩

/-- Whether the number is neither infinite nor absent. -/
def isFinite : Binary f → Bool
  | finite _ _ => true
  | _ => false

/-- Less than; nothing is less than what is not a number, nor the other way. -/
def lt : Binary f → Binary f → Bool
  | nan, _ => false
  | _, nan => false
  | infinity a, infinity b => a && !b
  | infinity a, finite _ _ => a
  | finite _ _, infinity b => !b
  | finite a x, finite b y => signed a x < signed b y

/-- At most; both zeros are equal. -/
def le : Binary f → Binary f → Bool
  | nan, _ => false
  | _, nan => false
  | infinity a, infinity b => a || !b
  | infinity a, finite _ _ => a
  | finite _ _, infinity b => !b
  | finite a x, finite b y => signed a x ≤ signed b y

/-- The smaller number; what is not a number gives way. -/
def min (a b : Binary f) : Binary f :=
  match a, b with
  | nan, b => b
  | a, nan => a
  | a, b => if b.lt a then b else a

/-- The larger number; what is not a number gives way. -/
def max (a b : Binary f) : Binary f :=
  match a, b with
  | nan, b => b
  | a, nan => a
  | a, b => if a.lt b then b else a

/-- A total order: by size, the negative zero before the other one, what is not a number last. -/
def before : Binary f → Binary f → Bool
  | nan, _ => false
  | _, nan => true
  | finite true 0, finite false 0 => true
  | a, b => a.lt b

/-- The largest whole number at most the given one, between zero and the last word. -/
def floorWord : Binary f → Nat
  | nan => 0
  | infinity negative => if negative then 0 else Nat.pow 2 64 - 1
  | finite negative units =>
    if negative then 0 else Nat.min (units / Nat.pow 2 f.scale) (Nat.pow 2 64 - 1)

/-- The same number in another format, rounded once. -/
def convert (g : BinaryFormat) : Binary f → Binary g
  | nan => nan
  | infinity negative => infinity negative
  | finite negative units => ofUnits negative (units * Nat.pow 2 g.scale) (Nat.pow 2 f.scale)

/-- Square and multiply; `odd` collects the product. -/
def powLoop (fuel : Nat) (odd base : Binary f) (n : Nat) : Binary f :=
  match fuel with
  | 0 => odd
  | fuel + 1 =>
    let odd := if n % 2 = 1 then odd * base else odd
    if n / 2 = 0 then odd else powLoop fuel odd (base * base) (n / 2)

/-- A power with a whole exponent by repeated squaring, each product rounded; a negative
exponent takes the reciprocal at the end. -/
def pow (base : Binary f) (n : Int) : Binary f :=
  let power := powLoop (n.natAbs + 1) 1 base n.natAbs
  if n < 0 then 1 / power else power

/-- The bits of the interchange format. -/
def toBits : Binary f → Nat
  | nan => (f.top - f.precision + 2) * Nat.pow 2 (f.precision - 1) + Nat.pow 2 (f.precision - 2)
  | infinity negative =>
    (f.top - f.precision + 2) * Nat.pow 2 (f.precision - 1) + signBit negative
  | finite negative units =>
    f.dropped units * Nat.pow 2 (f.precision - 1) + units / Nat.pow 2 (f.dropped units)
      + signBit negative
where
  signBit (negative : Bool) : Nat :=
    if negative then (f.top - f.precision + 3) * Nat.pow 2 (f.precision - 1) else 0

end Binary
end ContextBudget

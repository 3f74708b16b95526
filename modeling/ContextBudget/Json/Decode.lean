import ContextBudget.Json.Reader
import ContextBudget.Word

/-!
# Decoding records

A record is written as an object of its fields or as an array of them in order. Fields that are
not the record's are ignored, a field given twice is refused, and so is an array that is too long.
A field is required, has a default, or is optional; an optional field may be left out of an object
and not out of an array.

`Json.settle` comes first where a whole value is decoded, since the last field of a name wins
there; a text that is decoded as it is read refuses the repetition.
-/

namespace ContextBudget

/-- A value taken apart into the fields of a record. -/
structure Record where
  /-- The fields that are there. -/
  fields : List (String × Json)
  /-- Whether they were given in order and not by name. -/
  positional : Bool

namespace Record

/-- The record with the fields `names` that a value writes. -/
def ofJson? (names : List String) : Json → Option Record
  | .obj fields =>
    let known := fields.filter fun f => names.contains f.1
    if names.all fun n => known.countP (·.1 == n) ≤ 1 then some ⟨known, false⟩ else none
  | .arr items => if items.length ≤ names.length then some ⟨names.zip items, true⟩ else none
  | _ => none

/-- The value of a field. -/
def get? (r : Record) (name : String) : Option Json := (r.fields.find? (·.1 == name)).map (·.2)

/-- A field that has to be there. -/
def required {α : Type} (r : Record) (name : String) (decode : Json → Option α) : Option α :=
  (r.get? name).bind decode

/-- A field with a default. -/
def withDefault {α : Type} (r : Record) (name : String) (default : α) (decode : Json → Option α) :
    Option α :=
  match r.get? name with
  | some v => decode v
  | none => some default

/-- A value or null. -/
def nullable {α : Type} (decode : Json → Option α) : Json → Option (Option α)
  | .null => some none
  | v => (decode v).map some

/-- A field that may be null, and may be left out of an object. -/
def optional {α : Type} (r : Record) (name : String) (decode : Json → Option α) :
    Option (Option α) :=
  match r.get? name with
  | some v => nullable decode v
  | none => if r.positional then none else some none

end Record

namespace Json

/-- A text. -/
def text? : Json → Option String
  | str s => some s
  | _ => none

/-- A truth value. -/
def bool? : Json → Option Bool
  | bool b => some b
  | _ => none

/-- A whole number below `bound`. -/
def below? (bound : Nat) : Json → Option Nat
  | int n => if 0 ≤ n ∧ n < bound then some n.toNat else none
  | _ => none

/-- A word. -/
def word? : Json → Option Nat := below? Word.size

/-- A signed word. -/
def signedWord? : Json → Option Int
  | int n => if -(Nat.pow 2 63 : Int) ≤ n ∧ n < Nat.pow 2 63 then some n else none
  | _ => none

/-- The number nearest to a whole number with a sign. -/
def ofWhole {f : BinaryFormat} (n : Int) : Binary f :=
  if n < 0 then -Binary.ofNat n.natAbs else Binary.ofNat n.toNat

/-- A number in a binary format. -/
def binary? (f : BinaryFormat) : Json → Option (Binary f)
  | int n => some (ofWhole n)
  | float x => some (x.convert f)
  | _ => none

/-- A list of values of one kind. -/
def list? {α : Type} (decode : Json → Option α) : Json → Option (List α)
  | arr items => items.mapM decode
  | _ => none

/-- One of a set of names: a text, or an object whose one field has that name and is null. -/
def choice? {α : Type} (names : List (String × α)) : Json → Option α
  | str s => names.lookup s
  | obj [(s, null)] => names.lookup s
  | _ => none

end Json
end ContextBudget

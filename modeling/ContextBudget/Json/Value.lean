import ContextBudget.Number.Decimal

/-!
# JSON values and their texts

A number is a whole number of at most 64 bits or a 64-bit binary number, as its text was written.
The fields of an object are kept in the order of the text, repeated names included; `Json.settle`
gives the value that a reader of whole values sees, where the last field of a name wins and the
names are in order.
-/

namespace ContextBudget

/-- A JSON value. -/
inductive Json where
  | null
  | bool (value : Bool)
  | int (value : Int)
  | float (value : Double)
  | str (value : String)
  | arr (items : List Json)
  | obj (fields : List (String × Json))
  deriving Repr, Inhabited, BEq

namespace Json

/-- A whole number. -/
def ofNat (n : Nat) : Json := int n

/-- A binary number; JSON has no word for an infinite or absent one. -/
def ofBinary {f : BinaryFormat} (x : Binary f) : Json :=
  if x.isFinite then float (x.convert double) else null

/-- A text, or null. -/
def ofText? : Option String → Json
  | some s => str s
  | none => null

/-- Whether a value is null. -/
def isNull : Json → Bool
  | null => true
  | _ => false

/-- A list of texts. -/
def ofTexts (texts : List String) : Json := arr (texts.map str)

/-- The value of a field of an object, the last one of that name. -/
def field? (name : String) : Json → Option Json
  | obj fields => (fields.reverse.find? (·.1 == name)).map (·.2)
  | _ => none

/-- An ordered list of fields with one more field; it takes the place of one of its name. -/
def setField (name : String) (value : Json) : List (String × Json) → List (String × Json)
  | [] => [(name, value)]
  | (n, v) :: rest =>
    if name < n then (name, value) :: (n, v) :: rest
    else if n = name then (name, value) :: rest
    else (n, v) :: setField name value rest

mutual

/-- The value in which the last field of a name wins and names are in order. -/
def settle : Json → Json
  | arr items => arr (settleItems items)
  | obj fields => obj ((settleFields fields).foldl (fun known f => setField f.1 f.2 known) [])
  | v => v

/-- Every item settled. -/
def settleItems : List Json → List Json
  | [] => []
  | v :: rest => settle v :: settleItems rest

/-- Every field's value settled. -/
def settleFields : List (String × Json) → List (String × Json)
  | [] => []
  | (name, v) :: rest => (name, settle v) :: settleFields rest

end

/-! ## Texts -/

/-- A character of a string literal. -/
def escape (c : Char) : String :=
  if c = '"' then "\\\""
  else if c = '\\' then "\\\\"
  else if c = '\n' then "\\n"
  else if c = '\r' then "\\r"
  else if c = '\t' then "\\t"
  else if c.toNat = 8 then "\\b"
  else if c.toNat = 12 then "\\f"
  else if c.toNat < 32 then
    "\\u00" ++ String.ofList [Nat.digitChar (c.toNat / 16), Nat.digitChar (c.toNat % 16)]
  else String.singleton c

/-- A string literal. -/
def quote (s : String) : String :=
  "\"" ++ s.toList.foldl (fun text c => text ++ escape c) "" ++ "\""

mutual

/-- The compact text of a value in pieces. -/
def pieces : Json → List String
  | null => ["null"]
  | bool b => [if b then "true" else "false"]
  | int n => [toString n]
  | float x => [if x.isFinite then x.write .json else "null"]
  | str s => [quote s]
  | arr [] => ["[]"]
  | arr (v :: rest) => "[" :: pieces v ++ itemPieces rest ++ ["]"]
  | obj [] => ["\x7b\x7d"]
  | obj ((name, v) :: rest) =>
    "\x7b" :: quote name :: ":" :: pieces v ++ fieldPieces rest ++ ["\x7d"]

/-- The items after the first, a comma before each. -/
def itemPieces : List Json → List String
  | [] => []
  | v :: rest => "," :: pieces v ++ itemPieces rest

/-- The fields after the first, a comma before each. -/
def fieldPieces : List (String × Json) → List String
  | [] => []
  | (name, v) :: rest => "," :: quote name :: ":" :: pieces v ++ fieldPieces rest

end

/-- The compact text of a value. -/
def write (v : Json) : String := String.join v.pieces

end Json
end ContextBudget

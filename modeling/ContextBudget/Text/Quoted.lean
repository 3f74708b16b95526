import ContextBudget.Text.Shape

/-!
# Quoted texts

Descriptions quote the texts that they show, so that a description stays on one line whatever a
text holds. What has no shape of its own (controls, separators, format characters and combining
marks) is written by its number.
-/

namespace ContextBudget
namespace Text

/-- A character between quotes. -/
def quotedChar (c : Char) : String :=
  if c = '"' then "\\\""
  else if c = '\\' then "\\\\"
  else if c = '\n' then "\\n"
  else if c = '\r' then "\\r"
  else if c = '\t' then "\\t"
  else if c.toNat = 0 then "\\0"
  else if isShapeless c then "\\u\x7b" ++ String.ofList (Nat.toDigits 16 c.toNat) ++ "\x7d"
  else String.singleton c

/-- A text between quotes. -/
def quoted (s : String) : String :=
  "\"" ++ s.toList.foldl (fun text c => text ++ quotedChar c) "" ++ "\""

/-- A description of a value by its fields, each already described; `more` tells that there are
fields that are not shown. -/
def described (name : String) (fields : List (String × String)) (more : Bool) : String :=
  let shown := fields.map fun (field, text) => field ++ ": " ++ text
  name ++ " \x7b " ++ ", ".intercalate (shown ++ if more then [".."] else []) ++ " \x7d"

end Text
end ContextBudget

/-!
# Sets by their edges

A set of numbers is given by its *edges* in increasing order: the first member, the first number
after it that is no member, the next member, and so on. Tables of characters are written so.
-/

namespace ContextBudget
namespace Text

/-- Whether `n` lies past an odd number of edges; `inside` tells the side on which the list
starts. -/
def pastEdges (inside : Bool) (n : Nat) : List Nat → Bool
  | [] => inside
  | edge :: rest => if n < edge then inside else pastEdges (!inside) n rest

end Text
end ContextBudget

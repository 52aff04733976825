/-!
# Character sets

A `CharacterSet` lists the code points at which membership changes, in ascending order, the first
being the least member. `contains` counts the changes up to a character.
-/

namespace TimingSweep

/-- The code points at which membership changes, ascending. -/
structure CharacterSet where
  changes : List Nat

namespace CharacterSet

/-- A character is a member if an odd number of changes lie at or below it. -/
def contains (s : CharacterSet) (c : Char) : Bool :=
  (s.changes.takeWhile (· ≤ c.toNat)).length % 2 = 1

end CharacterSet

end TimingSweep

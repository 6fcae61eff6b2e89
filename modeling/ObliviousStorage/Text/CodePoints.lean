/-!
Contract: a set of code points, given by the places where membership changes.

Owns: the representation by ascending boundaries and its membership test.

Does not own: any particular set.
-/

namespace ObliviousStorage.Text

/-- A set of code points. Membership is off below the first boundary and changes
at every one. -/
structure CodePoints where
  boundaries : Array Nat

namespace CodePoints

/-- How many of the boundaries lie at or below `value`. -/
def boundariesUpTo (points : CodePoints) (value : Nat) : Nat :=
  points.boundaries.foldl (fun passed boundary => if boundary ≤ value then passed + 1 else passed) 0

def contains (points : CodePoints) (character : Char) : Bool :=
  points.boundariesUpTo character.toNat % 2 = 1

end CodePoints

end ObliviousStorage.Text

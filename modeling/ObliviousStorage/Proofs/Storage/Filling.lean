import ObliviousStorage.Proofs.Storage.Contents

/-!
Contract: writing images to the blocks of a relation in order, from its first block on.

Owns: what one more write does to a relation whose first blocks were written already.

Does not own: where the images come from.
-/

namespace ObliviousStorage

open StorageM StorageView

variable {σ : Type} [Storage σ] [LawfulStorage σ]

/-- Writing the block behind the images that are there adds an image to them. -/
theorem write_overlaid
    {state : σ}
    {held : Contents}
    {relation : RelationId}
    {room : Relation}
    {images : List Page}
    {block : BlockNumber}
    (page : Page)
    (holds : contents state = held.put relation (room.overlaid images))
    (within : images.length ≤ room.pages.length)
    (behind : block.toNat = images.length) :
    (Storage.write relation block page : StorageM σ Unit).Yields state
      (either
        (fun _ left =>
          images.length < room.pages.length ∧
            Became state left (held.put relation (room.overlaid (images ++ [page]))) 0)
        fun _ left =>
          Became state left (contents state) 0 ∧
            (Sound state → room.pages.length ≤ images.length)) := by
  have present : contents state relation = some (room.overlaid images) := by
    rw [holds, Contents.put_same]
  apply (LawfulStorage.write_law state relation block page).mono
  · intro _ left holds
    rcases holds with ⟨found, among, inside, became⟩
    obtain rfl := Option.some.inj (present.symm.trans among)
    rw [Relation.length_overlaid within, behind] at inside
    rw [behind, holds, Contents.put_put, Relation.overlaid_snoc page inside] at became
    exact ⟨inside, became⟩
  · intro fault left refused
    rcases refused with ⟨reason, became⟩
    refine ⟨became, fun sound => ?_⟩
    have outside := reason sound _ present
    rwa [Relation.length_overlaid within, behind] at outside

end ObliviousStorage

import ObliviousStorage.Storage.Basic

/-!
Contract: somewhere to hand pages over to, while they are being read from a store.

Owns: the two kinds of page that are handed over, each with the place it is meant
for.

Does not own: where pages come from, or what becomes of them.
-/

namespace ObliviousStorage

structure PageTarget (σ : Type) where
  /-- Takes the index page at `offset` within its level, `depth` levels below the root. -/
  addIndexPage : (page : Page) → (offset depth : Nat) → StorageM σ Unit
  /-- Takes the heap page of a block. -/
  addHeapPage : (page : Page) → (block : BlockNumber) → StorageM σ Unit

end ObliviousStorage

import ObliviousStorage.Handover.Target
import ObliviousStorage.Page.Header

/-!
Contract: copying a heap block by block.

Owns: the stamp that a copied page carries and the order in which blocks are handed
over.

Does not own: what becomes of a page that was handed over.
-/

namespace ObliviousStorage.Heap

/-- A heap page stamped with its block number. A page that was never formatted stays
as it is; any other has to be well formed. -/
def stamped (page : Page) (block : BlockNumber) : Except Fault Page :=
  if page.isUnformatted then
    .ok page
  else do
    page.verify
    return page.setTag block

variable {σ : Type} [Storage σ]

/-- Copies these blocks of a heap in order. -/
def copyBlocks (heap : RelationId) (target : PageTarget σ) :
    (blocks : List BlockNumber) → StorageM σ Unit
  | [] => return ()
  | block :: rest => do
      let page ← Storage.read heap block
      let stampedPage ← stamped page block
      target.addHeapPage stampedPage block
      copyBlocks heap target rest

/-- Copies every block of a heap in order and returns how many there were. -/
def copy (heap : RelationId) (target : PageTarget σ) : StorageM σ BlockNumber := do
  let count ← Storage.blockCount heap
  copyBlocks heap target (blockRange count)
  return count

end ObliviousStorage.Heap

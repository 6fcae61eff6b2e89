import ObliviousStorage.Handover.Target

/-!
Contract: a target that keeps the pages it is handed.

Owns: the pages in the order of their arrival, and the limit after which the target
refuses further ones.

Does not own: the store that the pages are read from.
-/

namespace ObliviousStorage

/-- A page that was handed over, with the place it was handed over for. -/
inductive Handed where
  | indexPage (page : Page) (offset depth : Nat)
  | heapPage (page : Page) (block : BlockNumber)
deriving DecidableEq

/-- A store next to the pages that were handed over so far. -/
structure Recording (σ : Type) where
  inner : σ
  handed : Array Handed
  /-- How many pages are taken in all; without a limit, every one. -/
  limit : Option Nat

namespace Recording

variable {σ α : Type}

/-- A store from which nothing was handed over yet. -/
def start (limit : Option Nat) (inner : σ) : Recording σ := ⟨inner, #[], limit⟩

def onInner (action : StorageM σ α) : StorageM (Recording σ) α :=
  StorageM.ofOutcome fun ⟨inner, handed, limit⟩ =>
    let (outcome, changed) := action.runOn inner
    (outcome, ⟨changed, handed, limit⟩)

instance [Storage σ] : Storage (Recording σ) where
  blockBytes recording := Storage.blockBytes recording.inner
  create := onInner Storage.create
  blockCount relation := onInner (Storage.blockCount relation)
  read relation block := onInner (Storage.read relation block)
  write relation block page := onInner (Storage.write relation block page)
  extend relation := onInner (Storage.extend relation)

/-- Keeps a page, unless the limit is reached. -/
def keep (page : Handed) : StorageM (Recording σ) Unit :=
  StorageM.ofOutcome fun ⟨inner, handed, limit⟩ =>
    if limit.any fun most => most ≤ handed.size then
      (.error .allocationFailure, ⟨inner, handed, limit⟩)
    else
      (.ok (), ⟨inner, handed.push page, limit⟩)

def target : PageTarget (Recording σ) where
  addIndexPage page offset depth := keep (.indexPage page offset depth)
  addHeapPage page block := keep (.heapPage page block)

end Recording

end ObliviousStorage

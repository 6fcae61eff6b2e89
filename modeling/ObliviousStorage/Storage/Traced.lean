import ObliviousStorage.Storage.Basic

/-!
Contract: a block store that remembers which blocks were transferred.

Owns: the trace of block reads and writes in the order they were asked for, calls
that the store refused included.

Does not own: the blocks, which a store underneath keeps. Creating and extending
relations and counting blocks transfers no block and leaves no trace.
-/

namespace ObliviousStorage

inductive Transfer where
  | read (relation : RelationId) (block : BlockNumber)
  | write (relation : RelationId) (block : BlockNumber)
deriving DecidableEq, Repr

def Transfer.isRead : Transfer → Bool
  | .read .. => true
  | .write .. => false

/-- A store and the transfers it was asked for. -/
structure Traced (σ : Type) where
  inner : σ
  trace : Array Transfer

namespace Traced

variable {σ α : Type}

/-- A store of which nothing was asked yet. -/
def fresh (inner : σ) : Traced σ := ⟨inner, #[]⟩

/-- An action on the store underneath that leaves no trace. -/
def untraced (action : StorageM σ α) : StorageM (Traced σ) α :=
  StorageM.ofOutcome fun ⟨inner, trace⟩ =>
    let (outcome, changed) := action.runOn inner
    (outcome, ⟨changed, trace⟩)

def record (transfer : Transfer) : StorageM (Traced σ) Unit :=
  modify fun ⟨inner, trace⟩ => ⟨inner, trace.push transfer⟩

def reads (store : Traced σ) : Nat := store.trace.countP Transfer.isRead

def writes (store : Traced σ) : Nat := store.trace.countP fun transfer => !transfer.isRead

def reset (store : Traced σ) : Traced σ := { store with trace := #[] }

instance [Storage σ] : Storage (Traced σ) where
  blockBytes store := Storage.blockBytes store.inner
  create := untraced Storage.create
  blockCount relation := untraced (Storage.blockCount relation)
  read relation block := do
    record (.read relation block)
    untraced (Storage.read relation block)
  write relation block page := do
    record (.write relation block)
    untraced (Storage.write relation block page)
  extend relation := untraced (Storage.extend relation)

end Traced

end ObliviousStorage

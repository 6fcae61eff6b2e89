import ObliviousStorage.Storage.Basic

/-!
Contract: a block store that is one of two kinds.

Owns: passing every operation on to the store that is there.

Does not own: either kind of store.
-/

namespace ObliviousStorage.Choice

variable {σ τ α : Type}

/-- An action for whichever store is there. -/
def either (onLeft : StorageM σ α) (onRight : StorageM τ α) : StorageM (σ ⊕ τ) α :=
  StorageM.ofOutcome fun store =>
    match store with
    | .inl left =>
        let (outcome, changed) := onLeft.runOn left
        (outcome, .inl changed)
    | .inr right =>
        let (outcome, changed) := onRight.runOn right
        (outcome, .inr changed)

instance [Storage σ] [Storage τ] : Storage (σ ⊕ τ) where
  blockBytes := Sum.elim Storage.blockBytes Storage.blockBytes
  create := either Storage.create Storage.create
  blockCount relation := either (Storage.blockCount relation) (Storage.blockCount relation)
  read relation block :=
    either (Storage.read relation block) (Storage.read relation block)
  write relation block page :=
    either (Storage.write relation block page)
      (Storage.write relation block page)
  extend relation :=
    either (Storage.extend relation) (Storage.extend relation)

end ObliviousStorage.Choice

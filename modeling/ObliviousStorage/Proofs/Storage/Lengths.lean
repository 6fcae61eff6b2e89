import ObliviousStorage.Proofs.Storage.Lawful

/-!
Contract: how long the relations of a store in memory are, and what the store refuses because
of it.

Owns: the length of a relation; that a block is read or overwritten if the relation is long
enough, and refused as out of bounds if it is not; that overwriting changes no length; and that
what a call finds to refuse depends on nothing but lengths and the size of blocks.

Does not own: what blocks hold.
-/

namespace ObliviousStorage

namespace MemoryStorage

/-- How many blocks a relation has, if it exists. -/
def length? (store : MemoryStorage) (relation : RelationId) : Option Nat :=
  (store.blocks? relation).map Array.size

variable
  {memory : MemoryStorage}
  {relation : RelationId}
  {length : Nat}
  {block : BlockNumber}

theorem blocks_of_length (long : memory.length? relation = some length) :
    ∃ blocks, memory.blocks? relation = some blocks ∧ blocks.size = length :=
  Option.map_eq_some_iff.mp long

theorem page_of_has
    (sized : memory.blockBytes = blockSize)
    (long : memory.length? relation = some length)
    (has : block.toNat < length) :
    ∃ page, memory.page relation block = .ok page := by
  obtain ⟨blocks, present, size⟩ := blocks_of_length long
  have inside : block.toNat < blocks.size := size ▸ has
  refine ⟨blocks[block.toNat], ?_⟩
  simp [page, blocks_eq, present, bind, Except.bind, inside, require, sized, pure, Except.pure]

theorem page_of_lacks
    (long : memory.length? relation = some length)
    (lacks : length ≤ block.toNat) :
    memory.page relation block = .error (.blockOutOfBounds relation block) := by
  obtain ⟨blocks, present, size⟩ := blocks_of_length long
  have outside : blocks.size ≤ block.toNat := size ▸ lacks
  simp [page, blocks_eq, present, bind, Except.bind, outside]
  rfl

theorem checkWrite_of_has
    (sized : memory.blockBytes = blockSize)
    (long : memory.length? relation = some length)
    (has : block.toNat < length) :
    memory.checkWrite relation block = .ok () := by
  obtain ⟨blocks, present, size⟩ := blocks_of_length long
  exact checkWrite_eq_ok_iff.mpr ⟨sized, blocks, present, size ▸ has⟩

theorem checkWrite_of_lacks
    (sized : memory.blockBytes = blockSize)
    (long : memory.length? relation = some length)
    (lacks : length ≤ block.toNat) :
    memory.checkWrite relation block = .error (.blockOutOfBounds relation block) := by
  obtain ⟨blocks, present, size⟩ := blocks_of_length long
  have outside : blocks.size ≤ block.toNat := size ▸ lacks
  simp [checkWrite, blocks_eq, present, bind, Except.bind, require, sized, outside]

/-- Overwriting a block changes no length. -/
theorem length?_overwritten
    (long : memory.length? relation = some length)
    (block : Nat)
    (page : Page)
    (other : RelationId) :
    (memory.changeBlocks relation fun blocks => blocks.setIfInBounds block page).length? other =
      memory.length? other := by
  obtain ⟨blocks, present, -⟩ := blocks_of_length long
  rw [length?, length?, blocks?_changeBlocks _ present]
  by_cases same : other = relation
  · simp [same, present]
  · rw [if_neg same]

section Congruence

variable {other : MemoryStorage}

theorem count_congr (sameLength : memory.length? relation = other.length? relation) :
    memory.count relation = other.count relation := by
  have counted :
      ∀ store : MemoryStorage,
        store.count relation =
          (store.length? relation).elim (.error (.notFound relation)) toBlockNumber := by
    intro store
    simp only [count, blocks_eq, length?]
    cases store.blocks? relation <;> rfl
  rw [counted, counted, sameLength]

theorem checkWrite_congr
    (sameBytes : memory.blockBytes = other.blockBytes)
    (sameLength : memory.length? relation = other.length? relation)
    (block : BlockNumber) :
    memory.checkWrite relation block = other.checkWrite relation block := by
  have checked :
      ∀ store : MemoryStorage,
        store.checkWrite relation block =
          (require (store.blockBytes = blockSize) (.sizeMismatch store.blockBytes blockSize) >>=
            fun _ =>
              (store.length? relation).elim (.error (.notFound relation)) fun length =>
                require (block.toNat < length) (.blockOutOfBounds relation block)) := by
    intro store
    simp only [checkWrite, blocks_eq, length?]
    cases store.blocks? relation <;> rfl
  rw [checked, checked, sameLength, sameBytes]

theorem page_congr
    (sameBytes : memory.blockBytes = other.blockBytes)
    (sameLength : memory.length? relation = other.length? relation)
    (block : BlockNumber) :
    (memory.page relation block).map (fun _ => ()) =
      (other.page relation block).map fun _ => () := by
  have read :
      ∀ store : MemoryStorage,
        (store.page relation block).map (fun _ => ()) =
          (store.length? relation).elim (.error (.notFound relation)) fun length =>
            if block.toNat < length then
              require (store.blockBytes = blockSize) (.sizeMismatch blockSize store.blockBytes)
            else
              .error (.blockOutOfBounds relation block) := by
    intro store
    simp only [page, blocks_eq, length?]
    cases store.blocks? relation with
    | none => rfl
    | some blocks =>
        by_cases inside : block.toNat < blocks.size
        · by_cases sized : store.blockBytes = blockSize <;>
            simp [bind, Except.bind, inside, require, sized, pure, Except.pure, Except.map]
        · simp [bind, Except.bind, inside, Except.map]
          rfl
  rw [read, read, sameLength, sameBytes]

end Congruence

end MemoryStorage

end ObliviousStorage

import ObliviousStorage.Storage.Basic

/-!
Contract: a block store that keeps its relations in memory.

Owns: relations numbered from one in the order of their creation, each an array of
pages, and the outcome of every store operation on them.

A store may be declared with blocks of another size than a page's. Such a store
still counts and allocates blocks but never exchanges a page, so what its blocks
hold cannot be observed.

The identity of the relation created next is a word of 32 bits. A creation after
which there would be no such identity breaks off.

Does not own: a record of the calls it served, or failures other than those of a
call that makes no sense.
-/

namespace ObliviousStorage

/-- A store in memory. Relation `n` is the `n`-th one created. -/
structure MemoryStorage where
  blockBytes : Nat
  relations : Array (Array Page)
deriving DecidableEq

namespace MemoryStorage

/-- The store without relations whose blocks have the size of a page. -/
def empty : MemoryStorage := ⟨blockSize, #[]⟩

/-- The store without relations whose blocks are `blockBytes` bytes long. -/
def ofBlockBytes (blockBytes : Nat) : MemoryStorage := ⟨blockBytes, #[]⟩

def blocks? (store : MemoryStorage) (relation : RelationId) : Option (Array Page) :=
  if relation = noRelation then none else store.relations[relation.toNat - 1]?

def blocks (store : MemoryStorage) (relation : RelationId) : Except Fault (Array Page) :=
  match store.blocks? relation with
  | some blocks => .ok blocks
  | none => .error (.notFound relation)

def changeBlocks
    (store : MemoryStorage)
    (relation : RelationId)
    (change : Array Page → Array Page) :
    MemoryStorage :=
  { store with relations := store.relations.modify (relation.toNat - 1) change }

def addRelation (store : MemoryStorage) : MemoryStorage :=
  { store with relations := store.relations.push #[] }

def page (store : MemoryStorage) (relation : RelationId) (block : BlockNumber) :
    Except Fault Page := do
  let blocks ← store.blocks relation
  match blocks[block.toNat]? with
  | none => throw (.blockOutOfBounds relation block)
  | some page => do
      require (store.blockBytes = blockSize) (.sizeMismatch blockSize store.blockBytes)
      return page

/-- Refuses a write that has no block to go to. -/
def checkWrite (store : MemoryStorage) (relation : RelationId) (block : BlockNumber) :
    Except Fault Unit := do
  require (store.blockBytes = blockSize) (.sizeMismatch store.blockBytes blockSize)
  let blocks ← store.blocks relation
  require (block.toNat < blocks.size) (.blockOutOfBounds relation block)

/-- The number of blocks of a relation, as a block number. -/
def count (store : MemoryStorage) (relation : RelationId) : Except Fault BlockNumber := do
  let blocks ← store.blocks relation
  toBlockNumber blocks.size

instance : Storage MemoryStorage where
  blockBytes := MemoryStorage.blockBytes
  create := do
    let store ← get
    let relation := store.relations.size + 1
    let _following ← wordSum relation 1
    set store.addRelation
    return UInt32.ofNat relation
  blockCount relation := do
    let store ← get
    store.count relation
  read relation block := do
    let store ← get
    store.page relation block
  write relation block page := do
    let store ← get
    store.checkWrite relation block
    set (store.changeBlocks relation fun blocks => blocks.setIfInBounds block.toNat page)
  extend relation := do
    let store ← get
    let block ← store.count relation
    set (store.changeBlocks relation fun blocks => blocks.push Page.zero)
    return block

end MemoryStorage

end ObliviousStorage

import ObliviousStorage.Catalog.Rows
import ObliviousStorage.Gateway.Requests
import ObliviousStorage.Heap.Copy
import ObliviousStorage.Index.Relocation
import ObliviousStorage.Page.Records

/-!
Contract: opening the oblivious files of a table.

Owns: the names of the two files, and the order of the steps by which they come into
being the first time: measure the index, check that everything fits, create both
relations, fill them with dummy pages, copy the heap and the relocated index into
them, and only then note in the catalog that they are there.

A table whose row says that its files are filled is opened without touching
anything but the catalog.

Does not own: the catalog, the copying or the requests.
-/

namespace ObliviousStorage

/-- The names of a table's oblivious files. -/
structure FileNames where
  tableFile : String
  indexFile : String
deriving DecidableEq, Repr

namespace FileNames

/-- What file names begin with unless something else is asked for. -/
def defaultLabel : String := "obliv_"

/-- The names for a table and its index, which must have distinct names of their own. -/
def create (label table index : String) : Except Fault FileNames := do
  require (table ≠ "" ∧ index ≠ "" ∧ table ≠ index) (.invalidConfiguration (.names table index))
  return ⟨label ++ table, label ++ index⟩

end FileNames

def declaredBlocks (count : Int32) : Nat := count.toInt.toNat

variable {σ : Type} [Storage σ]

/-- The pages that the creation of an index leaves behind. -/
def addInitialPages (relation : RelationId) : (count : Nat) → StorageM σ Unit
  | 0 => return ()
  | count + 1 => do
      let block ← Storage.extend relation
      Storage.write relation block Page.plain
      addInitialPages relation count

/-- A session over the files that a row names. -/
def openRecorded (row : Catalog.Row) (names : FileNames) : Except Fault Session := do
  require (row.tableFile ≠ noRelation ∧ row.indexFile ≠ noRelation)
    (.invalidConfiguration (.filesNotRecorded row.table))
  Session.create names.tableFile names.indexFile row.tableFile row.indexFile none

/-- Measures a table's index and refuses to go on unless its pages and the blocks of
its heap fit into the declared sizes. -/
def measureFitting (row : Catalog.Row) : StorageM σ Index.Profile := do
  let profile ← Index.measure row.index
  let indexBlocks := declaredBlocks row.indexBlocks
  require (profile.size ≤ indexBlocks)
    (.invalidConfiguration (.indexTooLarge row.index profile.size row.table indexBlocks))
  let heapBlocks ← Storage.blockCount row.heap
  let tableBlocks := declaredBlocks row.tableBlocks
  require (heapBlocks.toNat ≤ tableBlocks)
    (.invalidConfiguration (.heapTooLarge row.heap heapBlocks.toNat row.table tableBlocks))
  return profile

def createFiles (method : Catalog.AccessMethod) (profile : Index.Profile) (names : FileNames) :
    StorageM σ Session := do
  let tableRelation ← Storage.create
  let indexRelation ← Storage.create
  addInitialPages indexRelation method.initialPages
  let session ←
    Session.create names.tableFile names.indexFile tableRelation indexRelation none
  let layout ← Index.Layout.ofProfile profile
  return { session with layout := some layout }

/-- Fills both files with dummy pages up to their declared sizes. -/
def fillFiles (session : Session) (row : Catalog.Row) : StorageM (Gateway × σ) Unit := do
  Gateway.establishImages session.tableFile (Page.dummies (declaredBlocks row.tableBlocks)) 0
  Gateway.establishImages session.indexFile (Page.dummies (declaredBlocks row.indexBlocks)) 0

/-- Creates both files and fills them. The catalog does not know of them yet. -/
def createFilled (row : Catalog.Row) (method : Catalog.AccessMethod) (names : FileNames) :
    StorageM σ Session := do
  let profile ← measureFitting row
  let session ← createFiles method profile names
  let ((), gateway) ←
    (fillFiles session row : StorageM (Gateway × σ) Unit).withFirst (.opened session)
  let _ ← Heap.copy row.heap gateway.target
  Index.relocate row.index gateway.target
  return session

def materialize
    (catalog : Catalog)
    (row : Catalog.Row)
    (method : Catalog.AccessMethod)
    (names : FileNames) :
    StorageM σ Session := do
  let session ← createFilled row method names
  catalog.noteFiles row.table session.tableRelation session.indexRelation
  catalog.noteFilled row.table
  return session

/-- Opens the oblivious files of a table, creating and filling them the first time. -/
def openTable (catalog : Catalog) (table : RelationId) (names : FileNames) :
    StorageM σ Session := do
  let row ← catalog.get table
  let status ← row.status
  match status, row.method with
  | .filled, _ => openRecorded row names
  | .pending, some method => materialize catalog row method names
  | .pending, none => throw (.invalidConfiguration (.unknownMethod row.table))

end ObliviousStorage

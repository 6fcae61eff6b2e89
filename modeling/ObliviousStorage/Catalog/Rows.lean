import ObliviousStorage.Catalog.Row
import ObliviousStorage.Page.Slots
import ObliviousStorage.Storage.Basic

/-!
Contract: the status catalog, a relation whose pages hold the rows.

Owns: finding the first row of a table, adding a row, and changing a row in place.
Rows are added to the last page while it has room and to a new block after that;
blocks that were never formatted hold no rows.

Does not own: what a row means.
-/

namespace ObliviousStorage

/-- A catalog, named by the relation that holds it. -/
structure Catalog where
  relation : RelationId
deriving DecidableEq, Repr

namespace Catalog

structure Located where
  block : BlockNumber
  slot : Nat
  row : Row
deriving DecidableEq, Repr

/-- The first row of a table among these slots of a page. -/
def locateInPage (page : Page) (table : RelationId) (block : BlockNumber) :
    (slots : List Nat) → Except Fault (Option Located)
  | [] => .ok none
  | slot :: rest => do
      let bytes ← page.item slot
      let row ← Row.ofBytes bytes
      if row.table = table then
        return some ⟨block, slot, row⟩
      else
        locateInPage page table block rest

def locateOnPage (page : Page) (table : RelationId) (block : BlockNumber) :
    Except Fault (Option Located) :=
  if page.isUnformatted then
    .ok none
  else do
    page.verify
    locateInPage page table block (List.range' 1 page.slotCount)

/-- The page with a row in place of the one in a slot. -/
def replaceRow (page : Page) (slot : Nat) (row : Row) : Except Fault Page := do
  let found ← page.slot slot
  require (found.length = Row.size) (.corruptPage (.rowSize found.length))
  page.overwrite found.start row.toBytes

/-- Whether a row can be added to a page that is in use. -/
def hasRoom (page : Page) : Bool := !page.isUnformatted && Row.size ≤ page.freeBytes

variable {σ : Type} [Storage σ]

def create : StorageM σ Catalog := do
  let relation ← Storage.create
  return ⟨relation⟩

/-- The first row of a table in these blocks. -/
def locateIn (catalog : Catalog) (table : RelationId) :
    (blocks : List BlockNumber) → StorageM σ (Option Located)
  | [] => return none
  | block :: rest => do
      let page ← Storage.read catalog.relation block
      match ← locateOnPage page table block with
      | some located => return some located
      | none => catalog.locateIn table rest

/-- The first row of a table. -/
def locate (catalog : Catalog) (table : RelationId) : StorageM σ (Option Located) := do
  let count ← Storage.blockCount catalog.relation
  catalog.locateIn table (blockRange count)

/-- The first row of a table that has to have one. -/
def find (catalog : Catalog) (table : RelationId) : StorageM σ Located := do
  match ← catalog.locate table with
  | some located => return located
  | none => throw (.notFound table)

def get (catalog : Catalog) (table : RelationId) : StorageM σ Row := do
  let located ← catalog.find table
  return located.row

def insertInNewBlock (catalog : Catalog) (row : Row) : StorageM σ Unit := do
  let block ← Storage.extend catalog.relation
  let (_, page) ← Page.plain.append row.toBytes
  Storage.write catalog.relation block page

/-- Adds a row behind all others. -/
def append (catalog : Catalog) (row : Row) : StorageM σ Unit := do
  let count ← Storage.blockCount catalog.relation
  if count = 0 then
    catalog.insertInNewBlock row
  else do
    let page ← Storage.read catalog.relation (count - 1)
    if hasRoom page then do
      let (_, extended) ← page.append row.toBytes
      Storage.write catalog.relation (count - 1) extended
    else
      catalog.insertInNewBlock row

/-- Adds the row of a table that has none yet. -/
def insert (catalog : Catalog) (row : Row) : StorageM σ Unit := do
  require (row.table ≠ noRelation) (.invalidConfiguration .rowWithoutTable)
  let present ← catalog.locate row.table
  require (present = none) (.invalidConfiguration (.duplicateRow row.table))
  catalog.append row

/-- Changes the row of a table in place. -/
def update (catalog : Catalog) (table : RelationId) (change : Row → Row) :
    StorageM σ Unit := do
  let located ← catalog.find table
  let page ← Storage.read catalog.relation located.block
  let changed ← replaceRow page located.slot (change located.row)
  Storage.write catalog.relation located.block changed

/-- Notes that both files of a table were filled. -/
def noteFilled (catalog : Catalog) (table : RelationId) : StorageM σ Unit :=
  catalog.update table fun row => { row with filled := true }

/-- Notes the relations of a table's two files. -/
def noteFiles (catalog : Catalog) (table tableFile indexFile : RelationId) :
    StorageM σ Unit :=
  catalog.update table fun row => { row with tableFile, indexFile }

end Catalog

end ObliviousStorage

import ObliviousStorage.Gateway.Requests
import ObliviousStorage.Page.Records

/-!
Contract: adding records to one block of an oblivious file and reading the last one
back.

Owns: the block that every operation works on, what becomes of a dummy page when its
first record arrives, and the record that a scan last produced.

Does not own: the choice of the block. Each operation transfers this block only.
-/

namespace ObliviousStorage

/-- The block of a file that records are added to and read from. -/
structure ActiveBlock where
  file : String
  block : BlockNumber
deriving DecidableEq, Repr

/-- The record that a scan last produced, and where it lives. -/
structure Scan where
  record : List UInt8
  place : Option RecordId
deriving DecidableEq, Repr

def Scan.start : Scan := ⟨[], none⟩

namespace ActiveBlock

variable {σ : Type} [Storage σ]

/-- Reads the block. Returns the relation behind its file with the page. -/
def fetch (active : ActiveBlock) (gateway : Gateway) : StorageM σ (RelationId × Page) := do
  let relation ← gateway.authorize active.file 1 blockSize
  let page ← Storage.read relation active.block
  return (relation, page)

/-- The page that takes the next record: a dummy page gives way to an empty one. -/
def pageToFill (active : ActiveBlock) (page : Page) : Page :=
  if page.isDummy then Page.forRecords active.block else page

/-- Adds a record and returns its slot. -/
def append (active : ActiveBlock) (gateway : Gateway) (record : List UInt8) : StorageM σ Nat := do
  let (relation, page) ← active.fetch gateway
  let (slot, filled) ← (active.pageToFill page).append record
  Storage.write relation active.block filled
  return slot

/-- Produces the record in the last slot, if there is one. The record produced before
is given up as soon as the block turns out to hold records. -/
def scan (active : ActiveBlock) (gateway : Gateway) : StorageM (Scan × σ) Bool := do
  let (_, page) ← (active.fetch gateway : StorageM σ (RelationId × Page)).onSecond
  if page.isDummy then
    return false
  page.verify
  let slot := page.slotCount
  if slot = 0 then
    return false
  modify fun (before, store) => ({ before with record := [] }, store)
  let record ← page.item slot
  modify fun (_, store) => (⟨record, some ⟨active.block, UInt16.ofNat slot⟩⟩, store)
  return true

end ActiveBlock

end ObliviousStorage

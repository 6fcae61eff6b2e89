import ObliviousStorage.Index.Builder

/-!
Contract: a heap of generated rows together with the index entries that point at
them.

Owns: the contents of the rows, their distribution over blocks, and the entry of
each row: row `n` has the key `10 * n`.

Does not own: the index.
-/

namespace ObliviousStorage.Heap

open Index LittleEndian

/-- The body of a generated row: its key, then a filler byte that depends on the
row's number. -/
def sampleRow (rowSize number : Nat) : List UInt8 :=
  (encode 8 (10 * number) ++
    List.replicate (rowSize - 8) (UInt8.ofNat (number % 251))).take rowSize

variable {σ : Type} [Storage σ]

/-- Adds rows, starting with number `number`, to the page of a block and to new
blocks after it, and writes the last page at the end. Returns the entries. -/
def addSampleRows (relation : RelationId) (rowSize : Nat) :
    (remaining number : Nat) → (block : BlockNumber) → (page : Page) →
      StorageM σ (List Entry)
  | 0, _, block, page => do
      Storage.write relation block page
      return []
  | remaining + 1, number, block, page => do
      let key : Int64 := (UInt64.ofNat (10 * number)).toInt64
      if page.freeBytes < rowSize + 8 then
        Storage.write relation block page
        let next ← Storage.extend relation
        let (slot, filled) ← Page.plain.append (sampleRow rowSize number)
        let entries ← addSampleRows relation rowSize remaining (number + 1) next filled
        return ⟨key, next, UInt16.ofNat slot⟩ :: entries
      else
        let (slot, filled) ← page.append (sampleRow rowSize number)
        let entries ← addSampleRows relation rowSize remaining (number + 1) block filled
        return ⟨key, block, UInt16.ofNat slot⟩ :: entries

/-- Creates a heap of generated rows. Returns the relation and the entries of an
index over the rows. -/
def buildSample (rows rowSize : Nat) : StorageM σ (RelationId × List Entry) := do
  let relation ← Storage.create
  let block ← Storage.extend relation
  let entries ← addSampleRows relation rowSize rows 0 block Page.plain
  return (relation, entries)

end ObliviousStorage.Heap

import ObliviousStorage.Index.Trailer

/-!
Contract: the items of index pages.

Owns: the encoding of a key with what it points to, reading the entry of a slot,
and replacing only the page that an entry points to.

Does not own: the order of entries.
-/

namespace ObliviousStorage.Index

open LittleEndian

/-- A key and where it leads: to a child page on an inner page, to a record on a
leaf. -/
structure Entry where
  key : Int64
  /-- The child page, or the block of the record. -/
  block : BlockNumber
  /-- The slot of the record; inner pages leave it at zero. -/
  slot : UInt16
deriving DecidableEq, Repr

namespace Entry

abbrev size : Nat := 16

/-- Where an entry keeps the block it points to. -/
abbrev blockPosition : Nat := 8

/-- The record that a leaf's entry points to. -/
def record (entry : Entry) : RecordId := ⟨entry.block, entry.slot⟩

def toBytes (entry : Entry) : List UInt8 :=
  encode 8 entry.key.toUInt64.toNat ++ encode 4 entry.block.toNat ++
    encode 2 entry.slot.toNat ++ encode 2 0

/-- The entry that these bytes encode; the last two carry nothing. -/
def ofBytes (bytes : List UInt8) : Entry where
  key := (UInt64.ofNat (field bytes 8 0)).toInt64
  block := UInt32.ofNat (field bytes 4 blockPosition)
  slot := UInt16.ofNat (field bytes 2 12)

@[simp] theorem length_toBytes (entry : Entry) : entry.toBytes.length = size := by
  simp [toBytes]

def read (page : Page) (slot : Nat) : Except Fault Entry := do
  let bytes ← page.item slot
  require (bytes.length = size) (.corruptPage (.entrySize slot bytes.length))
  return ofBytes bytes

end Entry

/-- The page with the block replaced that the entry in a slot points to. -/
def redirect (page : Page) (slot : Nat) (child : BlockNumber) : Except Fault Page := do
  let found ← page.slot slot
  require (found.length = Entry.size) (.corruptPage (.entrySize slot found.length))
  page.overwrite (found.start + Entry.blockPosition) (encode 4 child.toNat)

/-- An index page that holds these entries in order. -/
def Trailer.pageOf (trailer : Trailer) (entries : List Entry) : Except Fault Page :=
  trailer.emptyPage.appendAll (entries.map Entry.toBytes)

end ObliviousStorage.Index

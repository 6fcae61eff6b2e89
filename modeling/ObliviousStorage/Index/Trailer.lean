import ObliviousStorage.Page.Slots

/-!
Contract: the trailer that every page of an index carries.

Owns: the links to the neighbours on the same level, the level, the role flags, the
place the page was given in level order, and their encoding in the last bytes of a
page.

Does not own: the items of the page, or whether links and levels agree with the
rest of the index.
-/

namespace ObliviousStorage.Index

open LittleEndian

/-- A sibling link that leads nowhere. -/
def noSibling : BlockNumber := 4294967295

/-- The place of a page that was not relocated. -/
def notPlaced : BlockNumber := dummyIdentity

structure Trailer where
  /-- The page to the left on the same level. -/
  previous : BlockNumber
  /-- The page to the right on the same level. -/
  next : BlockNumber
  /-- The distance from the leaves. -/
  level : UInt32
  /-- Role bits: leaf, root, metapage, from the lowest. -/
  flags : UInt16
  /-- The position within its level of a relocated page. -/
  placedOffset : BlockNumber
  /-- The distance from the root of a relocated page. -/
  placedDepth : UInt32
deriving DecidableEq, Repr

namespace Trailer

abbrev size : Nat := 24

def leafFlag : UInt16 := 1

def rootFlag : UInt16 := 2

def metaFlag : UInt16 := 4

def unplaced (previous next : BlockNumber) (level : UInt32) (flags : UInt16) : Trailer :=
  ⟨previous, next, level, flags, notPlaced, notPlaced⟩

def isLeaf (trailer : Trailer) : Bool := trailer.flags.toNat.testBit 0

def isRoot (trailer : Trailer) : Bool := trailer.flags.toNat.testBit 1

def isMeta (trailer : Trailer) : Bool := trailer.flags.toNat.testBit 2

/-- Whether the page is the last of its level. -/
def isRightmost (trailer : Trailer) : Bool := trailer.next = noSibling

/-- The first slot that holds data. The page to the right bounds the keys of a page;
where there is one, the first slot keeps that bound instead. -/
def firstDataSlot (trailer : Trailer) : Nat := if trailer.isRightmost then 1 else 2

def toBytes (trailer : Trailer) : List UInt8 :=
  encode 4 trailer.previous.toNat ++ encode 4 trailer.next.toNat ++
    encode 4 trailer.level.toNat ++ encode 2 trailer.flags.toNat ++ encode 2 0 ++
      encode 4 trailer.placedOffset.toNat ++ encode 4 trailer.placedDepth.toNat

/-- The trailer that these bytes encode; two of them carry nothing. -/
def ofBytes (bytes : List UInt8) : Trailer where
  previous := UInt32.ofNat (field bytes 4 0)
  next := UInt32.ofNat (field bytes 4 4)
  level := UInt32.ofNat (field bytes 4 8)
  flags := UInt16.ofNat (field bytes 2 12)
  placedOffset := UInt32.ofNat (field bytes 4 16)
  placedDepth := UInt32.ofNat (field bytes 4 20)

@[simp] theorem length_toBytes (trailer : Trailer) : trailer.toBytes.length = size := by
  simp [toBytes]

def read (page : Page) : Except Fault Trailer := do
  page.verify
  require (page.trailerSize = size) (.corruptPage (.trailerSize page.trailerSize))
  return ofBytes page.trailer

def write (trailer : Trailer) (page : Page) : Except Fault Page := do
  require (page.trailerSize = size) (.corruptPage (.trailerSize page.trailerSize))
  return page.setTrailer trailer.toBytes

def emptyPage (trailer : Trailer) : Page :=
  (Page.formatted (blockSize - size)).write (blockSize - size) trailer.toBytes

/-- The slots of a page that hold data. -/
def dataSlots (trailer : Trailer) (page : Page) : List Nat :=
  List.range' trailer.firstDataSlot (page.slotCount + 1 - trailer.firstDataSlot)

end Trailer

end ObliviousStorage.Index

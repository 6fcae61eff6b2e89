import ObliviousStorage.Index.Entry

/-!
Contract: the page of an index that says where its root is.

Owns: the metapage's place, its single item, and the signs by which it is told from
other pages.

Does not own: the root page itself.
-/

namespace ObliviousStorage.Index

open LittleEndian

def metapageBlock : BlockNumber := 0

/-- Where an index begins. -/
structure Metapage where
  root : BlockNumber
  /-- The distance of the root from the leaves. -/
  level : UInt32
deriving DecidableEq, Repr

namespace Metapage

/-- The number that opens a metapage's item. -/
def magic : Nat := 0x053162

abbrev size : Nat := 12

def toBytes (metapage : Metapage) : List UInt8 :=
  encode 4 magic ++ encode 4 metapage.root.toNat ++ encode 4 metapage.level.toNat

def ofBytes (bytes : List UInt8) : Metapage where
  root := UInt32.ofNat (field bytes 4 4)
  level := UInt32.ofNat (field bytes 4 8)

@[simp] theorem length_toBytes (metapage : Metapage) : metapage.toBytes.length = size := by
  simp [toBytes]

def read (page : Page) : Except Fault Metapage := do
  let trailer ← Trailer.read page
  require (trailer.isMeta ∧ page.slotCount = 1) (.corruptPage .notMetapage)
  let bytes ← page.item 1
  require (bytes.length = size ∧ field bytes 4 0 = magic) (.corruptPage .metapageMagic)
  return ofBytes bytes

def toPage (metapage : Metapage) : Except Fault Page :=
  (Trailer.unplaced noSibling noSibling 0 Trailer.metaFlag).emptyPage.appendAll [metapage.toBytes]

end Metapage

end ObliviousStorage.Index

import ObliviousStorage.Index.Metapage
import ObliviousStorage.Storage.Basic

/-!
Contract: looking a key up in an index.

Owns: what one page says about a key, the descent from page to page, and the search
of an index that a relation of a block store holds.

The descent follows any links it is given, so links that come back to a page keep it
going. It counts the pages it fetches in a word of 32 bits and breaks off where the
count does not fit; nothing else ends a descent that never reaches a leaf.

Does not own: the shape of the index; nothing here checks levels or siblings.
-/

namespace ObliviousStorage.Index

/-- What a page says about a key. -/
inductive Route where
  /-- The leaf holds the key. -/
  | found (record : RecordId)
  /-- No page below holds the key. -/
  | absent
  /-- If any page holds the key, it is below this one. -/
  | child (block : BlockNumber)
deriving DecidableEq, Repr

/-- The record of the first entry with this key, in the order of the slots. -/
def findKey (page : Page) (key : Int64) : (slots : List Nat) → Except Fault Route
  | [] => .ok .absent
  | slot :: rest => do
      let entry ← Entry.read page slot
      if entry.key = key then
        return .found entry.record
      findKey page key rest

/-- The child of the last entry before the first whose key lies beyond `key`, or
`child` if there is none before it. -/
def chooseChild (page : Page) (key : Int64) (child : BlockNumber) :
    (slots : List Nat) → Except Fault Route
  | [] => .ok (.child child)
  | slot :: rest => do
      let entry ← Entry.read page slot
      if key < entry.key then
        return .child child
      chooseChild page key entry.block rest

/-- What a page says about a key. On an inner page the first entry covers every key
below the second one's. -/
def route (page : Page) (key : Int64) : Except Fault Route := do
  let trailer ← Trailer.read page
  let slots := trailer.dataSlots page
  if trailer.isLeaf then
    findKey page key slots
  else
    match slots with
    | [] => return .absent
    | first :: rest => do
        let entry ← Entry.read page first
        chooseChild page key entry.block rest

/-- The largest depth that a descent counts to. -/
def deepest : Nat := 4294967295

/-- Descends from a page at `depth`, with `remaining` levels that can still be counted:
together they are as many as a word can count. -/
def descendFrom {σ : Type}
    (fetch : (child : BlockNumber) → (depth : Nat) → StorageM σ Page)
    (key : Int64) :
    (remaining depth : Nat) → (page : Page) → StorageM σ (Option RecordId)
  | remaining, depth, page => do
      match ← route page key with
      | .found record => return some record
      | .absent => return none
      | .child block =>
          match remaining with
          | 0 => throw .overflow
          | remaining + 1 => do
              let next ← fetch block (depth + 1)
              descendFrom fetch key remaining (depth + 1) next

/-- Descends from a root page, fetching each child by its link and its depth. -/
def descend {σ : Type}
    (fetch : (child : BlockNumber) → (depth : Nat) → StorageM σ Page)
    (root : Page)
    (key : Int64) :
    StorageM σ (Option RecordId) :=
  descendFrom fetch key deepest 0 root

/-- Looks a key up in the index that a relation holds. -/
def lookup {σ : Type} [Storage σ] (relation : RelationId) (key : Int64) :
    StorageM σ (Option RecordId) := do
  let first ← Storage.read relation metapageBlock
  let metapage ← Metapage.read first
  let root ← Storage.read relation metapage.root
  descend (fun child _ => Storage.read relation child) root key

end ObliviousStorage.Index

import ObliviousStorage.Index.Metapage
import ObliviousStorage.Storage.Basic

/-!
Contract: building an index bottom-up from sorted entries.

Owns: the capacities of leaves and inner pages, the division of a level into pages,
the pages themselves with their bounds and sibling links, and the order in which
blocks are taken: the metapage's first, then level by level from the leaves to the
root.

Does not own: sorting. Entries that are out of order are refused before anything is
created.
-/

namespace ObliviousStorage.Index

/-- The items cut into groups of `size`, the last one possibly shorter. -/
def groupsOf {α : Type} (size : Nat) (items : List α) : List (List α) :=
  match items with
  | [] => []
  | first :: rest =>
      (first :: rest.take (size - 1)) :: groupsOf size (rest.drop (size - 1))
termination_by items.length
decreasing_by simp only [List.length_drop, List.length_cons]; omega

/-- Cutting into groups of at least two leaves fewer groups than items, once there
are two items. -/
theorem length_groupsOf_le
    {α : Type}
    {size : Nat}
    (atLeastTwo : 2 ≤ size)
    (items : List α) :
    2 * (groupsOf size items).length ≤ items.length + 1 := by
  fun_induction groupsOf size items with
  | case1 => simp
  | case2 first rest inductionHypothesis =>
      simp only [List.length_cons, List.length_drop] at inductionHypothesis ⊢
      by_cases short : rest.length ≤ size - 1
      · have none : rest.length - (size - 1) = 0 := by omega
        have empty : rest.drop (size - 1) = [] := List.drop_eq_nil_of_le short
        rw [empty]
        simp [groupsOf]
      · omega

/-- Whether no key is smaller than the one before it. -/
def keysAscend : (entries : List Entry) → Bool
  | [] => true
  | [_] => true
  | first :: second :: rest => first.key ≤ second.key && keysAscend (second :: rest)

structure Builder where
  leafCapacity : Nat
  innerCapacity : Nat
  leaf_pos : 0 < leafCapacity
  inner_two : 2 ≤ innerCapacity

namespace Builder

/-- The entries that fit on a page next to the bound of its keys. -/
def mostEntries : Nat :=
  (blockSize - Page.headerSize - Trailer.size) / (Page.slotSize + Entry.size) - 1

def create (leaf inner : Nat) : Except Fault Builder :=
  if valid : 0 < leaf ∧ 2 ≤ inner ∧ leaf ≤ mostEntries ∧ inner ≤ mostEntries then
    .ok ⟨leaf, inner, valid.1, valid.2.1⟩
  else
    .error (.invalidConfiguration (.capacities leaf inner mostEntries))

def levelFlags (level pages : Nat) : UInt16 :=
  (if level = 0 then Trailer.leafFlag else 0) ||| (if pages = 1 then Trailer.rootFlag else 0)

/-- The entry that bounds the keys of a page: the first key to its right. -/
def boundEntry (right : List Entry) : Entry where
  key := (right.head?.map Entry.key).getD Int64.maxValue
  block := noSibling
  slot := 0

/-- A page of a level, with the group of entries it holds. -/
def levelPage
    (level : Nat)
    (flags : UInt16)
    (previous next : BlockNumber)
    (group : List Entry)
    (right : Option (List Entry)) :
    Except Fault Page :=
  let trailer := Trailer.unplaced previous next (UInt32.ofNat level) flags
  trailer.pageOf ((right.map boundEntry).toList ++ group)

/-- The lowest key of a group; a group without entries lies before every key. -/
def lowestKey (group : List Entry) : Int64 :=
  (group.head?.map Entry.key).getD Int64.minValue

variable {σ : Type} [Storage σ]

def takeBlocks (relation : RelationId) :
    (groups : List (List Entry)) → StorageM σ (List BlockNumber)
  | [] => return []
  | _ :: rest => do
      let block ← Storage.extend relation
      let others ← takeBlocks relation rest
      return block :: others

/-- Writes the pages of a level from left to right, `previous` being the block to the
left of the first of them. -/
def writePages
    (relation : RelationId)
    (level : Nat)
    (flags : UInt16) :
    (previous : BlockNumber) →
      (blocks : List BlockNumber) → (groups : List (List Entry)) → StorageM σ Unit
  | previous, block :: blocks, group :: groups => do
      let next := blocks.head?.getD noSibling
      let page ← levelPage level flags previous next group groups.head?
      Storage.write relation block page
      writePages relation level flags block blocks groups
  | _, _, _ => return ()

def writeLevel (relation : RelationId) (level : Nat) (groups : List (List Entry)) :
    StorageM σ (List BlockNumber) := do
  let blocks ← takeBlocks relation groups
  writePages relation level (levelFlags level groups.length) noSibling blocks groups
  return blocks

/-- The entries by which the level above refers to these groups of a level. -/
def parentEntries (blocks : List BlockNumber) (groups : List (List Entry)) :
    List Entry :=
  (blocks.zip groups).map fun (block, group) => ⟨lowestKey group, block, 0⟩

/-- Writes the levels from `level` upwards until one of them has a single page, and
returns where that page is. -/
def writeLevels
    (builder : Builder)
    (relation : RelationId)
    (level : Nat)
    (groups : List (List Entry)) :
    StorageM σ Metapage := do
  let blocks ← writeLevel relation level groups
  if _several : 1 < groups.length then
    writeLevels builder relation (level + 1)
      (groupsOf builder.innerCapacity (parentEntries blocks groups))
  else
    return ⟨blocks.head?.getD metapageBlock, UInt32.ofNat level⟩
termination_by groups.length
decreasing_by
  have fewer := length_groupsOf_le builder.inner_two (parentEntries blocks groups)
  have bounded : (parentEntries blocks groups).length ≤ groups.length := by
    rw [parentEntries, List.length_map, List.length_zip]
    exact Nat.min_le_right ..
  omega

/-- The leaves that hold these entries; an index without entries has one leaf. -/
def leafGroups (builder : Builder) (entries : List Entry) : List (List Entry) :=
  if entries.isEmpty then [[]] else groupsOf builder.leafCapacity entries

/-- Creates a relation that holds an index of the entries, which have to be sorted
by key. -/
def build (builder : Builder) (entries : List Entry) : StorageM σ RelationId := do
  require (keysAscend entries) (.invalidConfiguration .unsortedEntries)
  let relation ← Storage.create
  let _ ← Storage.extend relation
  let metapage ← builder.writeLevels relation 0 (builder.leafGroups entries)
  let page ← metapage.toPage
  Storage.write relation metapageBlock page
  return relation

end Builder

end ObliviousStorage.Index

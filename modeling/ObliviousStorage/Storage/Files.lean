import ObliviousStorage.Storage.Basic
import ObliviousStorage.Storage.Directory

/-!
Contract: a block store that keeps each relation in a file of its own.

Owns: the names of relation files, the choice of identities for new relations, and
the outcome of every store operation on the files. A relation has as many blocks as
its file has whole blocks; bytes after the last whole block stay where they are.

Identities and numbers of blocks are words of 32 bits. A creation after which there
would be no further identity breaks off, and so does adding a block after which the
number of blocks would not be a word.

Does not own: the file system, which behaves as a map from names to contents; what is
left on it by a call that breaks off; or a directory in which the last identity is
taken, since opening it breaks off as well.
-/

namespace ObliviousStorage

/-- The digits of a decimal number, given what stands before them. -/
def decimalValue (value : Nat) : List Char → Option Nat
  | [] => some value
  | digit :: rest =>
      if digit.isDigit then decimalValue (value * 10 + (digit.toNat - '0'.toNat)) rest else none

/-- The relation whose identity a file name spells: decimal digits, with an optional
plus sign before them, of a number that is small enough. -/
def relationNamed (name : String) : Option RelationId :=
  let digits :=
    match name.toList with
    | '+' :: rest => rest
    | characters => characters
  if digits.isEmpty then
    none
  else
    match decimalValue 0 digits with
    | some value => if value < 4294967296 then some (UInt32.ofNat value) else none
    | none => none

def relationFile (relation : RelationId) : String := toString relation.toNat

structure FileStorage where
  directory : Directory
  /-- The identity of the relation created next. -/
  next : RelationId

namespace FileStorage

/-- The largest identity that a name in the directory spells. -/
def highest (directory : Directory) : RelationId :=
  (directory.files.filterMap fun file => relationNamed file.1).foldl max noRelation

/-- Opens the store in a directory. New relations come after every identity that a
file name there spells. -/
def openAt (directory : Directory) : FileStorage := ⟨directory, highest directory + 1⟩

def contents (store : FileStorage) (relation : RelationId) : Except Fault Buffer :=
  match store.directory.contents? (relationFile relation) with
  | some contents => .ok contents
  | none => .error (.notFound relation)

def putContents (store : FileStorage) (relation : RelationId) (contents : Buffer) : FileStorage :=
  { store with directory := store.directory.put (relationFile relation) contents }

/-- The number of whole blocks in a relation's file. -/
def count (store : FileStorage) (relation : RelationId) : Except Fault BlockNumber := do
  let contents ← store.contents relation
  toBlockNumber (contents.size / blockSize)

def blockStart (block : Nat) : Nat := block * blockSize

/-- Refuses a block that the relation's file does not have. -/
def checkBlock (store : FileStorage) (relation : RelationId) (block : BlockNumber) :
    Except Fault Unit := do
  let count ← store.count relation
  require (block < count) (.blockOutOfBounds relation block)

instance : Storage FileStorage where
  blockBytes _ := blockSize
  create := do
    let store ← get
    let relation := store.next
    match store.directory.contents? (relationFile relation) with
    | some _ => throw .fileExists
    | none =>
        let following ← wordSum relation.toNat 1
        set { store.putContents relation #[] with next := UInt32.ofNat following }
        return relation
  blockCount relation := do
    let store ← get
    store.count relation
  read relation block := do
    let store ← get
    store.checkBlock relation block
    let contents ← store.contents relation
    return Page.atPosition contents (blockStart block.toNat)
  write relation block page := do
    let store ← get
    store.checkBlock relation block
    let contents ← store.contents relation
    set (store.putContents relation
      (Buffer.replaced contents (blockStart block.toNat) page.toBuffer))
  extend relation := do
    let store ← get
    let block ← store.count relation
    let extended ← wordSum block.toNat 1
    let contents ← store.contents relation
    set (store.putContents relation (Buffer.resized contents (blockStart extended)))
    return block

end FileStorage

end ObliviousStorage

import ObliviousStorage.Bytes.LittleEndian
import ObliviousStorage.Fault

/-!
Contract: the rows of the status catalog and their encoding.

Owns: what is recorded about a protected table, the identifiers of index access
methods, the condition under which a row can be acted on, and the forty bytes of an
encoded row: a bit set of null columns, two unused bytes, and nine words.

A column that is null decodes to the value that means "none".

Does not own: where rows are kept.
-/

namespace ObliviousStorage.Catalog

open LittleEndian

/-- The kind of index that an oblivious index file holds. -/
inductive AccessMethod where
  | btree
  | hash
deriving DecidableEq, Repr

namespace AccessMethod

/-- The identifier under which rows refer to the method. -/
def oid : AccessMethod → Nat
  | .btree => 403
  | .hash => 405

def ofOid (oid : Nat) : Option AccessMethod :=
  if oid = 403 then some .btree else if oid = 405 then some .hash else none

/-- The pages that a freshly created index of this kind already has: the metapage,
for a hash index also two buckets and a bitmap. -/
def initialPages : AccessMethod → Nat
  | .btree => 1
  | .hash => 4

theorem ofOid_oid (method : AccessMethod) : ofOid method.oid = some method := by
  cases method <;> rfl

end AccessMethod

/-- What the catalog records about a protected table. -/
structure Row where
  table : RelationId
  /-- The plain heap that is copied into the oblivious table file. -/
  heap : RelationId
  /-- The plain index that is copied into the oblivious index file. -/
  index : RelationId
  /-- The kind of index, if it is a known one. -/
  method : Option AccessMethod
  /-- Declared size of the oblivious table file. -/
  tableBlocks : Int32
  /-- Declared size of the oblivious index file. -/
  indexBlocks : Int32
  /-- The relation of the oblivious table file. -/
  tableFile : RelationId
  /-- The relation of the oblivious index file. -/
  indexFile : RelationId
  /-- Whether both files were filled. -/
  filled : Bool
deriving DecidableEq, Repr

/-- What a row says about its table's files. -/
inductive FileStatus where
  /-- They are still to be created. -/
  | pending
  /-- They hold the table. -/
  | filled
deriving DecidableEq, Repr

namespace Row

abbrev size : Nat := 40

abbrev columnBase : Nat := 4

/-- One encoded column: its word, and whether it is null. -/
structure Column where
  word : Nat
  isNull : Bool
deriving DecidableEq, Repr

/-- The column of a relation that may be missing. -/
def relationColumn (relation : RelationId) : Column :=
  ⟨relation.toNat, relation = noRelation⟩

/-- The columns of a row, in order. -/
def columns (row : Row) : List Column :=
  [ ⟨row.table.toNat, false⟩,
    relationColumn row.heap,
    relationColumn row.index,
    ⟨(row.method.map AccessMethod.oid).getD 0, row.method.isNone⟩,
    ⟨row.tableBlocks.toUInt32.toNat, false⟩,
    ⟨row.indexBlocks.toUInt32.toNat, false⟩,
    relationColumn row.tableFile,
    relationColumn row.indexFile,
    ⟨row.filled.toNat, false⟩ ]

/-- The set of null columns, the first column in the lowest bit. -/
def nullBits : (columns : List Column) → Nat
  | [] => 0
  | column :: rest => column.isNull.toNat + 2 * nullBits rest

def toBytes (row : Row) : List UInt8 :=
  encode 2 (nullBits row.columns) ++ encode 2 0 ++
    row.columns.flatMap fun column => encode 4 column.word

/-- The word of a column, unless the column is null. -/
def columnWord (bytes : List UInt8) (number : Nat) : Option Nat :=
  if (field bytes 2 0).testBit number then
    none
  else
    some (field bytes 4 (columnBase + 4 * number))

/-- A column that names a relation. -/
def columnRelation (bytes : List UInt8) (number : Nat) : RelationId :=
  ((columnWord bytes number).map UInt32.ofNat).getD noRelation

/-- A column that counts blocks. -/
def columnCount (bytes : List UInt8) (number : Nat) : Int32 :=
  ((columnWord bytes number).map fun word => (UInt32.ofNat word).toInt32).getD 0

def decoded (bytes : List UInt8) : Row where
  table := columnRelation bytes 0
  heap := columnRelation bytes 1
  index := columnRelation bytes 2
  method := (columnWord bytes 3).bind AccessMethod.ofOid
  tableBlocks := columnCount bytes 4
  indexBlocks := columnCount bytes 5
  tableFile := columnRelation bytes 6
  indexFile := columnRelation bytes 7
  filled := (columnWord bytes 8).getD 0 ≠ 0

def ofBytes (bytes : List UInt8) : Except Fault Row := do
  require (bytes.length = size) (.corruptPage (.rowSize bytes.length))
  return decoded bytes

@[simp] theorem length_toBytes (row : Row) : row.toBytes.length = size := by
  simp [toBytes, columns]

/-- What a row says about its table's files. Refuses a row that cannot be acted on:
it has to name both plain relations, declare room in both files, and name a known
kind of index. -/
def status (row : Row) : Except Fault FileStatus := do
  require (row.heap ≠ noRelation ∧ row.index ≠ noRelation)
    (.invalidConfiguration (.noSources row.table))
  require (0 < row.tableBlocks ∧ 0 < row.indexBlocks)
    (.invalidConfiguration (.blockCounts row.table row.tableBlocks.toInt row.indexBlocks.toInt))
  require (row.method.isSome) (.invalidConfiguration (.unknownMethod row.table))
  return if row.filled then .filled else .pending

end Row

end ObliviousStorage.Catalog

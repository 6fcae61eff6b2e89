import ObliviousStorage.Catalog.Rows
import ObliviousStorage.Proofs.Catalog.RowCodec

/-!
Contract: the columns of an encoded row whose row is decoded, changed and encoded again.

Owns: what becomes of every column of every run of forty bytes; that a column is as before exactly
if it was spelled as the encoding spells it; and that noting something about a table gives the
columns it is about their new values.

Does not own: where the bytes are kept.
-/

namespace ObliviousStorage.Catalog

open LittleEndian

namespace Row

/-! ## Columns that are encoded again -/

/-- What a column becomes when its row is decoded and encoded again. Tables, counts and flags are
never null then, and any flag but zero is one; the other relations and the method are null unless
they name something. -/
def recoded (number : Nat) (word : Option Nat) : Option Nat :=
  match number with
  | 0 | 4 | 5 => some (word.getD 0)
  | 3 => (word.bind AccessMethod.ofOid).map AccessMethod.oid
  | 8 => some (decide (word.getD 0 ≠ 0)).toNat
  | _ => word.filter (· ≠ 0)

/-- A column that holds what the encoding would put there. -/
def Plain (number : Nat) (word : Option Nat) : Prop :=
  match number with
  | 0 | 4 | 5 => word ≠ none
  | 3 => word = none ∨ word = some 403 ∨ word = some 405
  | 8 => word = some 0 ∨ word = some 1
  | _ => word ≠ some 0

theorem recoded_eq_self_iff (number : Nat) (word : Option Nat) :
    recoded number word = word ↔ Plain number word := by
  unfold recoded Plain
  split
  · cases word <;> simp
  · cases word <;> simp
  · cases word <;> simp
  · cases word with
    | none => simp
    | some oid =>
        show (AccessMethod.ofOid oid).map AccessMethod.oid = some oid ↔ _
        unfold AccessMethod.ofOid
        by_cases btree : oid = 403
        · simp [btree, AccessMethod.oid]
        · by_cases hash : oid = 405
          · simp [hash, AccessMethod.oid]
          · simp [btree, hash]
  · cases word with
    | none => simp
    | some flag =>
        by_cases zero : flag = 0
        · simp [zero]
        · simp [zero, eq_comm]
  · cases word <;> simp

section Recoding

variable {bytes : List UInt8} {number : Nat}

theorem columnWord_lt
    (long : bytes.length = size)
    (inside : number < 9)
    {word : Nat}
    (there : columnWord bytes number = some word) :
    word < wordBound 4 := by
  unfold columnWord at there
  split at there
  · cases there
  · rw [← Option.some.inj there]
    apply field_lt
    rw [long]
    simp only [columnBase, size]
    omega

theorem columnRelation_toNat
    (long : bytes.length = size)
    (inside : number < 9) :
    (columnRelation bytes number).toNat = (columnWord bytes number).getD 0 := by
  unfold columnRelation
  cases there : columnWord bytes number with
  | none => rfl
  | some word => exact UInt32.toNat_ofNat_of_lt' (columnWord_lt long inside there)

theorem columnCount_toNat
    (long : bytes.length = size)
    (inside : number < 9) :
    (columnCount bytes number).toUInt32.toNat = (columnWord bytes number).getD 0 := by
  unfold columnCount
  cases there : columnWord bytes number with
  | none => rfl
  | some word => exact UInt32.toNat_ofNat_of_lt' (columnWord_lt long inside there)

/-- The column of a relation that may be missing. -/
theorem columnWord_relation
    {row : Row}
    (among : row.columns[number]? = some (relationColumn (columnRelation bytes number)))
    (long : bytes.length = size)
    (inside : number < 9) :
    columnWord row.toBytes number = (columnWord bytes number).filter (· ≠ 0) := by
  have word := columnRelation_toNat long inside
  have named : columnRelation bytes number = noRelation ↔ (columnWord bytes number).getD 0 = 0 := by
    rw [← word, ← UInt32.toNat_inj]
    rfl
  rw [columnWord_toBytes among, relationColumn, word]
  cases there : columnWord bytes number with
  | none => simp [named, there]
  | some word =>
      by_cases zero : word = 0
      · simp [named, there, zero, Option.filter]
      · simp [named, there, zero, Option.filter]

/-- The column of a count. -/
theorem columnWord_count
    {row : Row}
    (among : row.columns[number]? = some ⟨(columnCount bytes number).toUInt32.toNat, false⟩)
    (long : bytes.length = size)
    (inside : number < 9) :
    columnWord row.toBytes number = some ((columnWord bytes number).getD 0) := by
  rw [columnWord_toBytes among, columnCount_toNat long inside]
  rfl

/-- Every column of a row that was decoded is encoded as told. -/
theorem columnWord_decoded
    (long : bytes.length = size)
    (inside : number < 9) :
    columnWord (decoded bytes).toBytes number = recoded number (columnWord bytes number) := by
  match number with
  | 0 =>
      have among :
          (decoded bytes).columns[0]? = some ⟨(columnRelation bytes 0).toNat, false⟩ := rfl
      rw [columnWord_toBytes among, columnRelation_toNat long inside]
      rfl
  | 1 => exact columnWord_relation rfl long inside
  | 2 => exact columnWord_relation rfl long inside
  | 3 =>
      have among :
          (decoded bytes).columns[3]? =
            some ⟨((decoded bytes).method.map AccessMethod.oid).getD 0,
              (decoded bytes).method.isNone⟩ := rfl
      rw [columnWord_toBytes among]
      show _ = (decoded bytes).method.map AccessMethod.oid
      cases (decoded bytes).method <;> rfl
  | 4 => exact columnWord_count rfl long inside
  | 5 => exact columnWord_count rfl long inside
  | 6 => exact columnWord_relation rfl long inside
  | 7 => exact columnWord_relation rfl long inside
  | 8 =>
      have among :
          (decoded bytes).columns[8]? = some ⟨(decoded bytes).filled.toNat, false⟩ := rfl
      rw [columnWord_toBytes among]
      rfl

end Recoding

end Row

/-! ## Notes -/

/-- What is noted about a table. -/
inductive Note where
  | filled
  | files (tableFile indexFile : RelationId)

namespace Note

def onRow (row : Row) : Note → Row
  | filled => { row with filled := true }
  | files tableFile indexFile => { row with tableFile, indexFile }

def action {σ : Type} [Storage σ] (catalog : Catalog) (table : RelationId) :
    Note → StorageM σ Unit
  | filled => catalog.noteFilled table
  | files tableFile indexFile => catalog.noteFiles table tableFile indexFile

theorem action_eq
    {σ : Type}
    [Storage σ]
    (note : Note)
    (catalog : Catalog)
    (table : RelationId) :
    (note.action catalog table : StorageM σ Unit) =
      catalog.update table fun row => note.onRow row := by
  cases note <;> rfl

/-- The column of a relation: null for the one that means none. -/
def relationWord (relation : RelationId) : Option Nat :=
  if relation = noRelation then none else some relation.toNat

/-- What a note puts into a column, if it is about that column. -/
def column? : Note → (number : Nat) → Option (Option Nat)
  | filled, 8 => some (some 1)
  | files tableFile _, 6 => some (relationWord tableFile)
  | files _ indexFile, 7 => some (relationWord indexFile)
  | _, _ => none

/-- What a note leaves of an encoded row: what it is about where it belongs, and the other columns
as they are encoded again. These are as before exactly if they are plain. -/
structure Notes (note : Note) (old new : List UInt8) : Prop where
  length : new.length = Row.size
  noted :
    ∀ number word, note.column? number = some word → Row.columnWord new number = word
  others :
    ∀ number, number < 9 → note.column? number = none →
      Row.columnWord new number = Row.recoded number (Row.columnWord old number)
  kept_iff :
    ∀ number, number < 9 → note.column? number = none →
      (Row.columnWord new number = Row.columnWord old number ↔
        Row.Plain number (Row.columnWord old number))

theorem columns_onRow
    (note : Note)
    (row : Row)
    {number : Nat}
    (inside : number < 9)
    (other : note.column? number = none) :
    (note.onRow row).columns[number]? = row.columns[number]? := by
  cases note with
  | filled =>
      match number with
      | 0 | 1 | 2 | 3 | 4 | 5 | 6 | 7 => rfl
      | 8 => cases other
  | files tableFile indexFile =>
      match number with
      | 0 | 1 | 2 | 3 | 4 | 5 | 8 => rfl
      | 6 | 7 => cases other

theorem columnWord_onRow
    {note : Note}
    {number : Nat}
    {word : Option Nat}
    (row : Row)
    (given : note.column? number = some word) :
    Row.columnWord (note.onRow row).toBytes number = word := by
  have ofRelation {row : Row} {relation : RelationId}
      (among : row.columns[number]? = some (Row.relationColumn relation)) :
      Row.columnWord row.toBytes number = relationWord relation := by
    rw [Row.columnWord_toBytes among, Row.relationColumn, relationWord]
    simp
  unfold column? at given
  split at given
  · have among :
        (filled.onRow row).columns[8]? = some ⟨true.toNat, false⟩ := rfl
    rw [Row.columnWord_toBytes among]
    exact Option.some.inj given
  · rw [ofRelation rfl]
    exact Option.some.inj given
  · rw [ofRelation rfl]
    exact Option.some.inj given
  · cases given

/-- What becomes of a row that is decoded, noted something and encoded again. -/
theorem notes
    (note : Note)
    {old : List UInt8}
    (long : old.length = Row.size) :
    note.Notes old (note.onRow (Row.decoded old)).toBytes := by
  have others :
      ∀ number, number < 9 → note.column? number = none →
        Row.columnWord (note.onRow (Row.decoded old)).toBytes number =
          Row.recoded number (Row.columnWord old number) := by
    intro number inside other
    have same := note.columns_onRow (Row.decoded old) inside other
    have among := List.getElem?_eq_getElem (l := (Row.decoded old).columns) inside
    rw [Row.columnWord_toBytes (same.trans among), ← Row.columnWord_toBytes among]
    exact Row.columnWord_decoded long inside
  constructor
  · exact Row.length_toBytes _
  · exact fun number word given => columnWord_onRow _ given
  · exact others
  · intro number inside other
    rw [others number inside other]
    exact Row.recoded_eq_self_iff number _

end Note

end ObliviousStorage.Catalog

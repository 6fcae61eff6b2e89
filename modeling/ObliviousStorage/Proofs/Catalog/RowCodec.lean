import ObliviousStorage.Catalog.Row
import ObliviousStorage.Proofs.Bytes.Fields

/-!
Contract: the round trip of a catalog row through its encoding.

Owns: reading a column back from where it was encoded, null columns included, and
`ofBytes_toBytes`: every row is decoded from its own bytes.

Does not own: byte strings that no row encodes to.
-/

namespace ObliviousStorage.Catalog.Row

open LittleEndian

theorem testBit_nullBits
    {columns : List Column}
    {number : Nat}
    {column : Column}
    (among : columns[number]? = some column) :
    (nullBits columns).testBit number = column.isNull := by
  induction columns generalizing number with
  | nil => simp at among
  | cons first rest inductionHypothesis =>
      have bit : first.isNull.toNat < 2 := first.isNull.toNat_lt
      cases number with
      | zero =>
          have same : first = column := by simpa using among
          subst same
          rw [nullBits, Nat.testBit_zero, Nat.add_mul_mod_self_left]
          cases first.isNull <;> rfl
      | succ number =>
          have half : (first.isNull.toNat + 2 * nullBits rest) / 2 = nullBits rest := by omega
          rw [nullBits, Nat.testBit_succ, half]
          exact inductionHypothesis (by simpa using among)

theorem nullBits_lt (columns : List Column) : nullBits columns < 1 <<< columns.length := by
  induction columns with
  | nil => simp [nullBits]
  | cons first rest inductionHypothesis =>
      have bit : first.isNull.toNat < 2 := first.isNull.toNat_lt
      rw [nullBits, List.length_cons, Nat.shiftLeft_succ]
      omega

/-- A word among words of equal width is read back from its place. -/
theorem field_words
    {columns : List Column}
    {number : Nat}
    {column : Column}
    (among : columns[number]? = some column)
    (fits : column.word < wordBound 4) :
    field (columns.flatMap fun column => encode 4 column.word) 4 (4 * number) = column.word := by
  induction columns generalizing number with
  | nil => simp at among
  | cons first rest inductionHypothesis =>
      rw [List.flatMap_cons]
      cases number with
      | zero =>
          have same : first = column := by simpa using among
          rw [same, Nat.mul_zero, field_encode_append fits]
      | succ number =>
          have behind : 4 ≤ 4 * (number + 1) := by omega
          rw [field_after_encode behind, Nat.mul_succ, Nat.add_sub_cancel]
          exact inductionHypothesis (by simpa using among)

theorem column_word_lt {row : Row} {column : Column} (member : column ∈ row.columns) :
    column.word < wordBound 4 := by
  have method : (row.method.map AccessMethod.oid).getD 0 < wordBound 4 := by
    rcases row.method with _ | (_ | _) <;> decide
  have filled : row.filled.toNat < wordBound 4 := by cases row.filled <;> decide
  simp only [columns, relationColumn, List.mem_cons, List.not_mem_nil, or_false] at member
  rcases member with rfl | rfl | rfl | rfl | rfl | rfl | rfl | rfl | rfl
  all_goals first | exact method | exact filled | exact UInt32.toNat_lt _

/-- Every column is read back, unless it is null. -/
theorem columnWord_toBytes
    {row : Row}
    {number : Nat}
    {column : Column}
    (among : row.columns[number]? = some column) :
    columnWord row.toBytes number = if column.isNull then none else some column.word := by
  have bits : nullBits row.columns < wordBound 2 :=
    Nat.lt_trans (nullBits_lt row.columns) (by simp [columns])
  have flags : field row.toBytes 2 0 = nullBits row.columns := by
    rw [toBytes, List.append_assoc, field_encode_append bits]
  have word : field row.toBytes 4 (columnBase + 4 * number) = column.word := by
    have pad : 2 ≤ columnBase + 4 * number - 2 := by simp only [columnBase]; omega
    rw [toBytes, List.append_assoc, field_after_encode (by simp only [columnBase]; omega),
      field_after_encode pad]
    have place : columnBase + 4 * number - 2 - 2 = 4 * number := by simp only [columnBase]; omega
    rw [place]
    exact field_words among (column_word_lt (List.mem_of_getElem? among))
  rw [columnWord, flags, word, testBit_nullBits among]

theorem columnRelation_toBytes
    {row : Row}
    {number : Nat}
    {relation : RelationId}
    (among : row.columns[number]? = some (relationColumn relation)) :
    columnRelation row.toBytes number = relation := by
  rw [columnRelation, columnWord_toBytes among, relationColumn]
  by_cases none : relation = noRelation
  · simp [none]
  · simp [none]

theorem columnCount_toBytes
    {row : Row}
    {number : Nat}
    {count : Int32}
    (among : row.columns[number]? = some ⟨count.toUInt32.toNat, false⟩) :
    columnCount row.toBytes number = count := by
  rw [columnCount, columnWord_toBytes among, if_neg Bool.false_ne_true, Option.map_some,
    Option.getD_some, UInt32.ofNat_toNat, Int32.toInt32_toUInt32]

/-- Every row is decoded from its own bytes. -/
@[simp] theorem decoded_toBytes (row : Row) : decoded row.toBytes = row := by
  have table : columnRelation row.toBytes 0 = row.table := by
    have among : row.columns[0]? = some ⟨row.table.toNat, false⟩ := rfl
    rw [columnRelation, columnWord_toBytes among]
    simp
  have method : (columnWord row.toBytes 3).bind AccessMethod.ofOid = row.method := by
    have among :
        row.columns[3]? =
          some ⟨(row.method.map AccessMethod.oid).getD 0, row.method.isNone⟩ := rfl
    rw [columnWord_toBytes among]
    cases row.method with
    | none => rfl
    | some method => exact AccessMethod.ofOid_oid method
  have filled : (decide ((columnWord row.toBytes 8).getD 0 ≠ 0)) = row.filled := by
    have among : row.columns[8]? = some ⟨row.filled.toNat, false⟩ := rfl
    rw [columnWord_toBytes among]
    cases row.filled <;> rfl
  rw [decoded, table, method, filled,
    columnRelation_toBytes (show row.columns[1]? = some (relationColumn row.heap) from rfl),
    columnRelation_toBytes (show row.columns[2]? = some (relationColumn row.index) from rfl),
    columnCount_toBytes
      (show row.columns[4]? = some ⟨row.tableBlocks.toUInt32.toNat, false⟩ from rfl),
    columnCount_toBytes
      (show row.columns[5]? = some ⟨row.indexBlocks.toUInt32.toNat, false⟩ from rfl),
    columnRelation_toBytes (show row.columns[6]? = some (relationColumn row.tableFile) from rfl),
    columnRelation_toBytes (show row.columns[7]? = some (relationColumn row.indexFile) from rfl)]

@[simp] theorem ofBytes_toBytes (row : Row) : ofBytes row.toBytes = .ok row := by
  rw [ofBytes, length_toBytes, require, if_pos rfl, decoded_toBytes]
  rfl

end ObliviousStorage.Catalog.Row

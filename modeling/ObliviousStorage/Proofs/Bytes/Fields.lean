import ObliviousStorage.Bytes.LittleEndian

/-!
Contract: fields of byte strings that are put together from encoded words.

Owns: where a field of a concatenation lies, and that a field that was encoded is read
back.

Does not own: any particular record.
-/

namespace ObliviousStorage.LittleEndian

/-- A field that lies in the first part of a concatenation. -/
theorem field_append_left
    {left right : List UInt8}
    {width position : Nat}
    (inside : position + width ≤ left.length) :
    field (left ++ right) width position = field left width position := by
  unfold field
  rw [List.drop_append_of_le_length (by omega), List.take_append_of_le_length]
  rw [List.length_drop]
  omega

/-- A field that lies in the second part of a concatenation. -/
theorem field_append_right
    {left right : List UInt8}
    {width position : Nat}
    (beyond : left.length ≤ position) :
    field (left ++ right) width position = field right width (position - left.length) := by
  unfold field
  rw [List.drop_append, List.drop_eq_nil_of_le beyond, List.nil_append]

/-- A word is read back from where it was encoded. -/
theorem field_encode
    {width value : Nat}
    (fits : value < wordBound width) :
    field (encode width value) width 0 = value := by
  unfold field
  rw [List.drop_zero, List.take_of_length_le (by simp), decode_encode_of_lt fits]

/-- A word at the front of a concatenation is read back. -/
theorem field_encode_append
    {width value : Nat}
    {rest : List UInt8}
    (fits : value < wordBound width) :
    field (encode width value ++ rest) width 0 = value := by
  rw [field_append_left (by simp), field_encode fits]

/-- A field behind an encoded word. -/
theorem field_after_encode
    {width value other position : Nat}
    {rest : List UInt8}
    (beyond : width ≤ position) :
    field (encode width value ++ rest) other position = field rest other (position - width) := by
  rw [field_append_right (by simpa using beyond), length_encode]

/-- A field is written back as the bytes that it was read from. -/
theorem encode_field
    {bytes : List UInt8}
    {width position : Nat}
    (inside : position + width ≤ bytes.length) :
    encode width (field bytes width position) = (bytes.drop position).take width := by
  have length : ((bytes.drop position).take width).length = width := by
    rw [List.length_take, List.length_drop]
    omega
  have written := encode_decode ((bytes.drop position).take width)
  rwa [length] at written

theorem field_lt
    {bytes : List UInt8}
    {width position : Nat}
    (inside : position + width ≤ bytes.length) :
    field bytes width position < wordBound width := by
  have bound := decode_lt ((bytes.drop position).take width)
  rwa [List.length_take, List.length_drop, Nat.min_eq_left (by omega)] at bound

end ObliviousStorage.LittleEndian

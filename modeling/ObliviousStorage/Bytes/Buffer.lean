/-!
Contract: raw bytes on their way to or from a caller or a file.

Owns: filling, cutting and overwriting runs of bytes. `getD_replaced` says which
bytes an overwriting changes.

Does not own: what the bytes mean, or how long a buffer has to be.
-/

namespace ObliviousStorage

/-- Raw bytes. -/
abbrev Buffer := Array UInt8

namespace Buffer

def zeros (length : Nat) : Buffer := Array.replicate length 0

/-- The contents cut or filled up with zeros to `length` bytes. -/
def resized (contents : Buffer) (length : Nat) : Buffer :=
  contents.extract 0 length ++ zeros (length - contents.size)

/-- The contents with the bytes from `start` on replaced; what would lie past the end
is left out. -/
def replaced (contents : Buffer) (start : Nat) (bytes : Buffer) : Buffer :=
  (List.range bytes.size).foldl
    (fun changed index => changed.setIfInBounds (start + index) (bytes.getD index 0)) contents

private theorem getD_foldl_setIfInBounds
    (contents : Buffer)
    (start count position : Nat)
    (value : Nat → UInt8) :
    ((List.range count).foldl
        (fun changed index => changed.setIfInBounds (start + index) (value index))
        contents).size = contents.size ∧
      ((List.range count).foldl
          (fun changed index => changed.setIfInBounds (start + index) (value index))
          contents).getD position 0 =
        if start ≤ position ∧ position < start + count ∧ position < contents.size then
          value (position - start)
        else
          contents.getD position 0 := by
  induction count with
  | zero =>
      have never : ¬(start ≤ position ∧ position < start + 0 ∧ position < contents.size) := by
        omega
      rw [if_neg never]
      simp
  | succ count inductionHypothesis =>
      obtain ⟨sameSize, sameBytes⟩ := inductionHypothesis
      rw [List.range_succ, List.foldl_append]
      simp only [List.foldl_cons, List.foldl_nil, Array.size_setIfInBounds]
      refine ⟨sameSize, ?_⟩
      simp only [Array.getD_eq_getD_getElem?, Array.getElem?_setIfInBounds] at sameBytes ⊢
      by_cases last : start + count = position
      · subst last
        by_cases inside : start + count < contents.size <;> simp [sameSize, inside]
      · rw [if_neg last, sameBytes]
        by_cases before : start ≤ position ∧ position < start + count ∧ position < contents.size
        · have among :
              start ≤ position ∧ position < start + (count + 1) ∧ position < contents.size := by
            omega
          rw [if_pos before, if_pos among]
        · have missed :
              ¬(start ≤ position ∧ position < start + (count + 1) ∧
                position < contents.size) := by
            omega
          rw [if_neg before, if_neg missed]

@[simp] theorem size_replaced (contents : Buffer) (start : Nat) (bytes : Buffer) :
    (replaced contents start bytes).size = contents.size :=
  (getD_foldl_setIfInBounds contents start bytes.size 0 fun index => bytes.getD index 0).1

/-- Overwriting replaces exactly the bytes at its positions. -/
theorem getD_replaced (contents : Buffer) (start position : Nat) (bytes : Buffer) :
    (replaced contents start bytes).getD position 0 =
      if start ≤ position ∧ position < start + bytes.size ∧ position < contents.size then
        bytes.getD (position - start) 0
      else
        contents.getD position 0 :=
  (getD_foldl_setIfInBounds contents start bytes.size position
    fun index => bytes.getD index 0).2

end Buffer

end ObliviousStorage

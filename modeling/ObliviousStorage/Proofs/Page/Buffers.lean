import ObliviousStorage.Page.Image

/-!
Contract: pages in buffers.

Owns: which bytes of a buffer a page is cut from, and what overwriting a run of the buffer
with a page, or cutting and filling the buffer, does to the pages that are cut from it.

Does not own: where in a buffer pages belong.
-/

namespace ObliviousStorage

namespace Buffer

theorem getD_resized (contents : Buffer) (length position : Nat) :
    (resized contents length).getD position 0 =
      if position < length then contents.getD position 0 else 0 := by
  simp only [resized, zeros, Array.getD_eq_getD_getElem?, Array.getElem?_append,
    Array.size_extract, Array.getElem?_extract, Array.getElem?_replicate, Nat.sub_zero,
    Nat.zero_add]
  by_cases cut : position < length
  · by_cases had : position < contents.size
    · have kept : position < min length contents.size := by omega
      simp only [kept, cut, if_true]
    · have filled : ¬position < min length contents.size := by omega
      have none : contents[position]? = none := Array.getElem?_eq_none (Nat.le_of_not_lt had)
      simp only [filled, none, cut, if_false, if_true]
      split <;> rfl
  · have filled : ¬position < min length contents.size := by omega
    simp only [filled, cut, if_false]
    split <;> rfl

@[simp] theorem size_resized (contents : Buffer) (length : Nat) :
    (resized contents length).size = length := by
  simp only [resized, zeros, Array.size_append, Array.size_extract, Array.size_replicate]
  omega

end Buffer

namespace Page

theorem byte_atPosition (buffer : Buffer) (start : Nat) {position : Nat}
    (inside : position < blockSize) :
    (atPosition buffer start).byte position = buffer.getD (start + position) 0 := by
  rw [byte_eq_getElem _ inside]
  simp [atPosition]

theorem getD_toBuffer (page : Page) (position : Nat) :
    page.toBuffer.getD position 0 = page.byte position := rfl

@[simp] theorem size_toBuffer (page : Page) : page.toBuffer.size = blockSize :=
  page.bytes.size_toArray

/-- A block among others lies inside a buffer that holds all of them. -/
theorem block_fits
    {block blocks length : Nat}
    (inside : block < blocks)
    (fits : blocks * blockSize ≤ length) :
    block * blockSize + blockSize ≤ length := by
  rw [← Nat.succ_mul]
  exact Nat.le_trans (Nat.mul_le_mul_right blockSize inside) fits

/-- The page that a run was overwritten with is cut from it again. -/
theorem atPosition_replaced
    {buffer : Buffer}
    {start : Nat}
    (page : Page)
    (fits : start + blockSize ≤ buffer.size) :
    atPosition (Buffer.replaced buffer start page.toBuffer) start = page := by
  apply ext_byte
  intro position inside
  have covered :
      start ≤ start + position ∧ start + position < start + page.toBuffer.size ∧
        start + position < buffer.size := by
    rw [size_toBuffer]
    omega
  rw [byte_atPosition _ _ inside, Buffer.getD_replaced, if_pos covered, Nat.add_sub_cancel_left,
    getD_toBuffer]

/-- Pages that are cut from elsewhere stay as they were. -/
theorem atPosition_replaced_of_disjoint
    {start other : Nat}
    (buffer : Buffer)
    (page : Page)
    (apart : other + blockSize ≤ start ∨ start + blockSize ≤ other) :
    atPosition (Buffer.replaced buffer start page.toBuffer) other = atPosition buffer other := by
  apply ext_byte
  intro position inside
  have missed :
      ¬(start ≤ other + position ∧ other + position < start + page.toBuffer.size ∧
          other + position < buffer.size) := by
    rw [size_toBuffer]
    omega
  rw [byte_atPosition _ _ inside, byte_atPosition _ _ inside, Buffer.getD_replaced, if_neg missed]

/-- Overwriting a block of a buffer leaves its other blocks as they were. -/
theorem atBlock_replaced_of_ne
    {block other : Nat}
    (buffer : Buffer)
    (page : Page)
    (different : other ≠ block) :
    atPosition (Buffer.replaced buffer (block * blockSize) page.toBuffer) (other * blockSize) =
      atPosition buffer (other * blockSize) := by
  apply atPosition_replaced_of_disjoint
  rcases Nat.lt_or_gt_of_ne different with before | behind
  · exact Or.inl (block_fits before (Nat.le_refl _))
  · exact Or.inr (block_fits behind (Nat.le_refl _))

@[simp] theorem length_allOf (buffer : Buffer) :
    (allOf buffer).length = buffer.size / blockSize := by
  simp [allOf]

theorem getElem_allOf
    {buffer : Buffer}
    {index : Nat}
    (inside : index < (allOf buffer).length) :
    (allOf buffer)[index] = atPosition buffer (index * blockSize) := by
  simp [allOf]

theorem getD_append (page : Page) (buffer : Buffer) (position : Nat) :
    (page.toBuffer ++ buffer).getD position 0 =
      if position < blockSize then page.byte position else buffer.getD (position - blockSize) 0 := by
  rcases Nat.lt_or_ge position blockSize with inside | behind
  · rw [if_pos inside, Array.getD_eq_getD_getElem?,
      Array.getElem?_append_left (by rwa [size_toBuffer]), ← Array.getD_eq_getD_getElem?,
      getD_toBuffer]
  · rw [if_neg (Nat.not_lt_of_le behind), Array.getD_eq_getD_getElem?,
      Array.getElem?_append_right (by rwa [size_toBuffer]), size_toBuffer,
      ← Array.getD_eq_getD_getElem?]

/-- The bytes of a page before others are one page more. -/
theorem allOf_append (page : Page) (buffer : Buffer) :
    allOf (page.toBuffer ++ buffer) = page :: allOf buffer := by
  have size : (page.toBuffer ++ buffer).size = buffer.size + blockSize := by
    rw [Array.size_append, size_toBuffer, Nat.add_comm]
  have first : atPosition (page.toBuffer ++ buffer) 0 = page := by
    apply ext_byte
    intro position inside
    rw [byte_atPosition _ _ inside, Nat.zero_add, getD_append, if_pos inside]
  have later (index : Nat) :
      atPosition (page.toBuffer ++ buffer) ((index + 1) * blockSize) =
        atPosition buffer (index * blockSize) := by
    have behind (position : Nat) : ¬(index + 1) * blockSize + position < blockSize := by
      rw [Nat.succ_mul]
      omega
    have place (position : Nat) :
        (index + 1) * blockSize + position - blockSize = index * blockSize + position := by
      rw [Nat.succ_mul]
      omega
    apply ext_byte
    intro position inside
    rw [byte_atPosition _ _ inside, byte_atPosition _ _ inside, getD_append,
      if_neg (behind position), place]
  rw [allOf, size, Nat.add_div_right _ (by decide), List.range_succ_eq_map, List.map_cons,
    List.map_map, Nat.zero_mul, first, allOf]
  exact congrArg (page :: ·) (List.map_congr_left fun index _ => later index)

/-- The bytes of one page are one page. -/
theorem allOf_toBuffer (page : Page) : allOf page.toBuffer = [page] := by
  have single := allOf_append page #[]
  rwa [Array.append_empty] at single

end Page

end ObliviousStorage

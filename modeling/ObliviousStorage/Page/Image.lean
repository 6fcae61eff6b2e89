import ObliviousStorage.Bytes.Buffer
import ObliviousStorage.Bytes.LittleEndian
import ObliviousStorage.Fault

/-!
Contract: a page as an image of exactly one block of bytes.

Owns: reading and writing runs of bytes and little-endian words at a position, the
checked forms for positions that come from stored data, and the exchange of pages
with byte buffers. `byte_write` says what every later write does to every byte.

Does not own: what any byte of a page means.
-/

namespace ObliviousStorage

structure Page where
  bytes : Vector UInt8 blockSize
deriving DecidableEq

namespace Page

open LittleEndian

/-- The image of a block that was never written. -/
def zero : Page := ⟨Vector.replicate blockSize 0⟩

instance : Inhabited Page := ⟨zero⟩

/-! ## Bytes -/

/-- The byte at `position`; zero past the end of the image. -/
def byte (page : Page) (position : Nat) : UInt8 :=
  page.bytes.toArray.getD position 0

/-- The page with one byte replaced; a position past the end changes nothing. -/
def setByte (page : Page) (position : Nat) (value : UInt8) : Page :=
  ⟨page.bytes.setIfInBounds position value⟩

/-- The `length` bytes from `start` on. -/
def slice (page : Page) (start length : Nat) : List UInt8 :=
  (List.range length).map fun index => page.byte (start + index)

def write (page : Page) (start : Nat) : (bytes : List UInt8) → Page
  | [] => page
  | value :: rest => (page.setByte start value).write (start + 1) rest

theorem byte_eq_getElem
    (page : Page)
    {position : Nat}
    (inside : position < blockSize) :
    page.byte position = page.bytes[position] := by
  simp [byte, Array.getD_eq_getD_getElem?, inside]

theorem byte_of_le
    (page : Page)
    {position : Nat}
    (outside : blockSize ≤ position) :
    page.byte position = 0 := by
  simp [byte, Array.getD_eq_getD_getElem?, outside]

theorem ext_byte
    {left right : Page}
    (agree : ∀ position, position < blockSize → left.byte position = right.byte position) :
    left = right := by
  cases left with
  | mk leftBytes =>
    cases right with
    | mk rightBytes =>
      congr 1
      apply Vector.ext
      intro position inside
      have same := agree position inside
      rwa [byte_eq_getElem _ inside, byte_eq_getElem _ inside] at same

@[simp] theorem byte_zero (position : Nat) : zero.byte position = 0 := by
  by_cases inside : position < blockSize
  · rw [byte_eq_getElem _ inside]
    simp [zero]
  · exact byte_of_le _ (Nat.le_of_not_lt inside)

theorem byte_setByte (page : Page) (position other : Nat) (value : UInt8) :
    (page.setByte position value).byte other =
      if position = other ∧ position < blockSize then value else page.byte other := by
  by_cases inside : other < blockSize
  · rw [byte_eq_getElem _ inside, byte_eq_getElem _ inside]
    simp only [setByte, Vector.getElem_setIfInBounds]
    by_cases same : position = other
    · subst same
      simp [inside]
    · simp [same]
  · have outside := Nat.le_of_not_lt inside
    rw [byte_of_le _ outside, byte_of_le _ outside]
    have never : ¬(position = other ∧ position < blockSize) := by omega
    rw [if_neg never]

/-- Writing a run of bytes replaces exactly the bytes at its positions. -/
theorem byte_write (page : Page) (start position : Nat) (bytes : List UInt8) :
    (page.write start bytes).byte position =
      if start ≤ position ∧ position < start + bytes.length ∧ position < blockSize then
        bytes.getD (position - start) 0
      else
        page.byte position := by
  induction bytes generalizing page start with
  | nil =>
      have never : ¬(start ≤ position ∧ position < start + 0 ∧ position < blockSize) := by
        omega
      simp only [write, List.length_nil]
      rw [if_neg never]
  | cons value rest inductionHypothesis =>
      simp only [write, inductionHypothesis, byte_setByte, List.length_cons]
      by_cases first : start = position
      · subst first
        have notLater : ¬start + 1 ≤ start := by omega
        by_cases inside : start < blockSize <;> simp [inside, notLater]
      · by_cases later :
          start + 1 ≤ position ∧ position < start + 1 + rest.length ∧ position < blockSize
        · have shifted : position - start = position - (start + 1) + 1 := by omega
          have whole :
              start ≤ position ∧ position < start + (rest.length + 1) ∧ position < blockSize := by
            omega
          rw [if_pos later, if_pos whole, shifted]
          simp
        · have whole :
              ¬(start ≤ position ∧ position < start + (rest.length + 1) ∧
                position < blockSize) := by
            omega
          rw [if_neg later, if_neg whole]
          simp [first]

@[simp] theorem length_slice (page : Page) (start length : Nat) :
    (page.slice start length).length = length := by
  simp [slice]

theorem getElem_slice
    (page : Page)
    {start length index : Nat}
    (inside : index < (page.slice start length).length) :
    (page.slice start length)[index] = page.byte (start + index) := by
  simp [slice]

/-- What was written is read back. -/
theorem slice_write
    (page : Page)
    {start : Nat}
    {bytes : List UInt8}
    (inside : start + bytes.length ≤ blockSize) :
    (page.write start bytes).slice start bytes.length = bytes := by
  apply List.ext_getElem
  · simp
  · intro index sliceBound bytesBound
    rw [getElem_slice, byte_write]
    have covered :
        start ≤ start + index ∧ start + index < start + bytes.length ∧
          start + index < blockSize := by
      omega
    rw [if_pos covered]
    simp [List.getD_eq_getElem?_getD, bytesBound]

/-- A write leaves a run of bytes that it does not meet as it was. -/
theorem slice_write_of_disjoint
    (page : Page)
    {start other length : Nat}
    {bytes : List UInt8}
    (apart : other + length ≤ start ∨ start + bytes.length ≤ other) :
    (page.write start bytes).slice other length = page.slice other length := by
  apply List.ext_getElem
  · simp
  · intro index leftBound rightBound
    rw [getElem_slice, getElem_slice, byte_write]
    have indexBound : index < length := by simpa using leftBound
    have missed :
        ¬(start ≤ other + index ∧ other + index < start + bytes.length ∧
          other + index < blockSize) := by
      omega
    rw [if_neg missed]

/-! ## Words -/

/-- The little-endian word of `width` bytes at `position`. -/
def word (page : Page) (width position : Nat) : Nat :=
  decode (page.slice position width)

/-- The page with a little-endian word of `width` bytes written at `position`. -/
def setWord (page : Page) (width position value : Nat) : Page :=
  page.write position (encode width value)

theorem word_lt (page : Page) (width position : Nat) :
    page.word width position < wordBound width := by
  have bound := decode_lt (page.slice position width)
  simpa [word] using bound

theorem word_zero (width position : Nat) : zero.word width position = 0 := by
  have bytes : zero.slice position width = List.replicate width 0 := by
    apply List.ext_getElem
    · simp
    · intro index _ _
      rw [getElem_slice, byte_zero, List.getElem_replicate]
  rw [word, bytes, decode_replicate_zero]

/-- A word that was written is read back, as far as its width goes. -/
theorem word_setWord
    (page : Page)
    {width position : Nat}
    (value : Nat)
    (inside : position + width ≤ blockSize) :
    (page.setWord width position value).word width position = value % wordBound width := by
  have readBack :
      (page.write position (encode width value)).slice position (encode width value).length =
        encode width value :=
    slice_write page (by simpa using inside)
  rw [length_encode] at readBack
  rw [word, setWord, readBack, decode_encode]

/-- Writing a word leaves every other word as it was. -/
theorem word_setWord_of_disjoint
    (page : Page)
    {width position otherWidth other : Nat}
    (value : Nat)
    (apart : other + otherWidth ≤ position ∨ position + width ≤ other) :
    (page.setWord width position value).word otherWidth other = page.word otherWidth other := by
  rw [word, setWord, slice_write_of_disjoint page (by simpa using apart), word]

/-! ## Positions that come from stored data -/

/-- The bytes of a run that has to lie inside the image. -/
def region (page : Page) (start length : Nat) : Except Fault (List UInt8) :=
  if start + length ≤ blockSize then
    .ok (page.slice start length)
  else
    .error (.corruptPage (.fieldOutside start))

/-- The page with a run of bytes replaced that has to lie inside the image. -/
def overwrite (page : Page) (start : Nat) (bytes : List UInt8) : Except Fault Page :=
  if start + bytes.length ≤ blockSize then
    .ok (page.write start bytes)
  else
    .error (.corruptPage (.fieldOutside start))

/-! ## Buffers -/

/-- The image in a buffer, which must be exactly one block long. -/
def ofBuffer (buffer : Buffer) : Except Fault Page :=
  if exact : buffer.size = blockSize then
    .ok ⟨⟨buffer, exact⟩⟩
  else
    .error (.sizeMismatch blockSize buffer.size)

def toBuffer (page : Page) : Buffer :=
  page.bytes.toArray

/-- The block-sized image that starts at `start` in a buffer. -/
def atPosition (buffer : Buffer) (start : Nat) : Page :=
  ⟨Vector.ofFn fun index => buffer.getD (start + index) 0⟩

/-- The images of the whole blocks of a buffer, in order. -/
def allOf (buffer : Buffer) : List Page :=
  (List.range (buffer.size / blockSize)).map fun index => atPosition buffer (index * blockSize)

@[simp] theorem ofBuffer_toBuffer (page : Page) :
    ofBuffer page.toBuffer = .ok page := by
  simp [ofBuffer, toBuffer]

end Page

end ObliviousStorage

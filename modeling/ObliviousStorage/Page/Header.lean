import ObliviousStorage.Page.Image

/-!
Contract: the header of a page and the four regions it delimits.

```text
0            headerSize        lower          upper         special     blockSize
| header     | slot directory  | free space   | item bodies | trailer   |
```

Owns: the header words, the condition under which they delimit a page, and the
formatting of an empty page.

Does not own: slots and items, or what a trailer holds.
-/

namespace ObliviousStorage.Page

open LittleEndian

abbrev headerSize : Nat := 16

/-- Bytes taken by one descriptor of the slot directory. -/
abbrev slotSize : Nat := 4

/-- Item bodies start at multiples of this. -/
abbrev alignment : Nat := 8

/-- The least multiple of the alignment that holds `length` bytes. -/
def aligned (length : Nat) : Nat :=
  (length + (alignment - 1)) / alignment * alignment

/-- End of the slot directory. -/
def lower (page : Page) : Nat := page.word 2 0

/-- Start of the item bodies. -/
def upper (page : Page) : Nat := page.word 2 2

/-- Start of the trailer. -/
def special (page : Page) : Nat := page.word 2 4

/-- Reserved flag bits. -/
def flags (page : Page) : Nat := page.word 2 6

/-- The header word set aside for a block number. -/
def tag (page : Page) : BlockNumber := UInt32.ofNat (page.word 4 8)

def setTag (page : Page) (block : BlockNumber) : Page :=
  page.setWord 4 8 block.toNat

/-- Whether the page was never formatted. A formatted page never has its items start at
byte zero. -/
def isUnformatted (page : Page) : Bool := page.upper = 0

/-- The header's pointers are in order, inside the block, and the slot directory
holds whole descriptors. -/
def WellFormed (page : Page) : Prop :=
  headerSize ≤ page.lower ∧
    page.lower ≤ page.upper ∧
      page.upper ≤ page.special ∧
        page.special ≤ blockSize ∧
          (page.lower - headerSize) % slotSize = 0

instance (page : Page) : Decidable page.WellFormed := by
  unfold WellFormed
  infer_instance

def verify (page : Page) : Except Fault Unit :=
  if page.WellFormed then
    .ok ()
  else
    .error (.corruptPage (.pointers page.lower page.upper page.special))

/-- The slots in the slot directory. -/
def slotCount (page : Page) : Nat := (page.lower - headerSize) / slotSize

/-- The bytes left for the body of one more item, its descriptor already set aside. -/
def freeBytes (page : Page) : Nat := page.upper - (page.lower + slotSize)

/-- An empty page whose trailer starts at `start`. -/
def formatted (start : Nat) : Page :=
  ((zero.setWord 2 0 headerSize).setWord 2 2 start).setWord 2 4 start

/-- An empty page with a trailer of at least `trailerSize` bytes. -/
def empty (trailerSize : Nat) : Except Fault Page :=
  if blockSize - headerSize < aligned trailerSize then
    .error (.invalidConfiguration (.trailerTooLarge (aligned trailerSize)))
  else
    .ok (formatted (blockSize - aligned trailerSize))

def plain : Page := formatted blockSize

/-! ## The trailer as bytes -/

/-- Where the trailer starts, for any header. -/
def trailerStart (page : Page) : Nat := min page.special blockSize

def trailerSize (page : Page) : Nat := blockSize - page.trailerStart

def trailer (page : Page) : List UInt8 := page.slice page.trailerStart page.trailerSize

/-- The page with the first bytes of its trailer replaced; what does not fit in the
trailer is left out. -/
def setTrailer (page : Page) (bytes : List UInt8) : Page :=
  page.write page.trailerStart (bytes.take page.trailerSize)

/-! ## Facts -/

theorem verify_eq_ok_iff (page : Page) : page.verify = .ok () ↔ page.WellFormed := by
  unfold verify
  split <;> simp_all

theorem zero_unformatted : zero.isUnformatted = true := by
  rw [isUnformatted, upper, word_zero]
  rfl

theorem slotCount_lt (page : Page) : page.slotCount < 65535 := by
  have bound : page.lower < wordBound 2 := page.word_lt 2 0
  simp only [wordBound_two, slotCount, headerSize, slotSize] at bound ⊢
  omega

theorem aligned_eq_of_dvd
    {length : Nat}
    (divides : length % alignment = 0) :
    aligned length = length := by
  simp only [aligned, alignment] at divides ⊢
  omega

theorem le_aligned (length : Nat) : length ≤ aligned length := by
  simp only [aligned, alignment]
  omega

/-- A formatted page has the pointers it was given and nothing in it. -/
theorem pointers_formatted
    {start : Nat}
    (bound : start ≤ blockSize) :
    (formatted start).lower = headerSize ∧
      (formatted start).upper = start ∧
        (formatted start).special = start := by
  simp only [blockSize] at bound
  have small : start % wordBound 2 = start :=
    Nat.mod_eq_of_lt (by simp only [wordBound_two]; omega)
  have header : headerSize % wordBound 2 = headerSize := rfl
  refine ⟨?_, ?_, ?_⟩
  · rw [lower, formatted, word_setWord_of_disjoint, word_setWord_of_disjoint, word_setWord, header]
    all_goals simp [blockSize]
  · rw [upper, formatted, word_setWord_of_disjoint, word_setWord, small]
    all_goals simp [blockSize]
  · rw [special, formatted, word_setWord, small]
    simp [blockSize]

end ObliviousStorage.Page

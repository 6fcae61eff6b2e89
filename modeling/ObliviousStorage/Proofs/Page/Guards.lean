import ObliviousStorage.Proofs.Page.InPlace

/-!
Contract: accesses and arithmetic that say when they go wrong.

Owns: `Guarded`, computations that may lapse besides being refused; sums, differences and products
of machine integers, which lapse where their type does not have the result; `Region`, a run of
bytes inside a page, whose bytes, parts and copies lapse where they do not lie inside it; and what
each of these does where nothing goes wrong.

Elsewhere a byte past the end of a page reads as zero, and numbers have no bound. Here neither is
given away: an operation told with guards reads, writes and counts exactly where these say so, and
`safely` says of it that it comes to its end without a lapse.

Does not own: any operation on a page.
-/

namespace ObliviousStorage

open LittleEndian Page

/-- What no page may lead to. -/
inductive Lapse where
  /-- An access from one byte up to another one in a region that ends before. -/
  | outside (first last length : Nat)
  /-- A result that the type of an operation on numbers does not have. -/
  | overflow
  /-- A copy between regions of different lengths. -/
  | lengths (source target : Nat)
deriving DecidableEq, Repr

/-- Computations that may be refused, and that may lapse. -/
abbrev Guarded (α : Type) := ExceptT Fault (Except Lapse) α

namespace Guarded

variable {α β : Type}

/-- The computation that comes to this outcome without a lapse. -/
def safely (outcome : Except Fault α) : Guarded α := ExceptT.mk (.ok outcome)

def lapse (cause : Lapse) : Guarded α := ExceptT.mk (.error cause)

/-- The value, unless the condition for it does not hold. -/
def provided (condition : Prop) [Decidable condition] (cause : Lapse) (value : α) : Guarded α :=
  if condition then pure value else lapse cause

/-! ## Outcomes -/

theorem pure_inj {value other : α} (same : (pure value : Guarded α) = pure other) : value = other :=
  Except.ok.inj (Except.ok.inj same)

theorem safely_ok (value : α) : safely (.ok value) = pure value := rfl

theorem require_of
    {condition : Prop}
    [Decidable condition]
    (holds : condition)
    (fault : Fault) :
    (liftM (require condition fault) : Guarded Unit) = pure () := by
  rw [require, if_pos holds]
  rfl

theorem require_not
    {condition : Prop}
    [Decidable condition]
    (fails : ¬condition)
    (fault : Fault) :
    (liftM (require condition fault) : Guarded Unit) = safely (.error fault) := by
  rw [require, if_neg fails]
  rfl

theorem require_then
    (condition : Prop)
    [Decidable condition]
    (fault : Fault)
    (value : α) :
    (do
        let _ ← (liftM (require condition fault) : Guarded Unit)
        pure value) =
      safely (if condition then .ok value else .error fault) := by
  by_cases holds : condition
  · rw [require_of holds, if_pos holds]
    rfl
  · rw [require_not holds, if_neg holds]
    rfl

/-- What follows a step without a lapse has to go on without one where that step succeeds. -/
theorem safely_bind
    {outcome : Except Fault α}
    {next : α → Guarded β}
    {plain : α → Except Fault β}
    (agrees : ∀ value, outcome = .ok value → next value = safely (plain value)) :
    safely outcome >>= next = safely (outcome >>= plain) := by
  cases outcome with
  | ok value => exact agrees value rfl
  | error fault => rfl

theorem provided_of {condition : Prop} [Decidable condition]
    (holds : condition)
    (cause : Lapse)
    (value : α) :
    provided condition cause value = pure value :=
  if_pos holds

/-! ## Numbers -/

/-- One more than the largest number of eight bytes with a sign. -/
def signBound : Nat := wordBound 8 / 2

/-- The sum of two numbers of so many bytes. -/
def sum (width left right : Nat) : Guarded Nat :=
  provided (left + right < wordBound width) .overflow (left + right)

def product (width left right : Nat) : Guarded Nat :=
  provided (left * right < wordBound width) .overflow (left * right)

/-- The difference of two numbers without a sign. -/
def difference (left right : Nat) : Guarded Nat :=
  provided (right ≤ left) .overflow (left - right)

/-- The difference of two numbers of eight bytes with a sign. -/
def signedDifference (left right : Int) : Guarded Int :=
  provided (-signBound ≤ left - right ∧ left - right < signBound) .overflow (left - right)

/-- The number with a sign that the same eight bytes spell. -/
def asSigned (number : Nat) : Int := Int.bmod number (wordBound 8)

/-- The number without a sign that the same eight bytes spell. -/
def asUnsigned (number : Int) : Nat := (number % wordBound 8).toNat

theorem wordBound_eight : wordBound 8 = 18446744073709551616 := rfl

theorem signBound_eq : signBound = 9223372036854775808 := rfl

theorem sum_of_lt {left right : Nat} (small : left + right < 18446744073709551616) :
    sum 8 left right = pure (left + right) :=
  provided_of (by rwa [wordBound_eight]) _ _

theorem product_of_lt {left right : Nat} (small : left * right < 18446744073709551616) :
    product 8 left right = pure (left * right) :=
  provided_of (by rwa [wordBound_eight]) _ _

theorem difference_of_le {left right : Nat} (ordered : right ≤ left) :
    difference left right = pure (left - right) :=
  provided_of ordered _ _

theorem asSigned_of_lt {number : Nat} (small : number < signBound) : asSigned number = number := by
  rw [signBound_eq] at small
  rw [asSigned, wordBound_eight, Int.bmod_def]
  omega

theorem asUnsigned_of_nonneg {number : Int} (positive : 0 ≤ number) (small : number < signBound) :
    asUnsigned number = number.toNat := by
  rw [signBound_eq] at small
  rw [asUnsigned, wordBound_eight, Int.emod_eq_of_lt positive (by omega)]

end Guarded

/-! ## Regions -/

/-- A run of bytes of a page. -/
structure Region where
  start : Nat
  length : Nat
  inside : start + length ≤ blockSize

namespace Region

open Guarded

/-- All bytes of a page. -/
def image : Region := ⟨0, blockSize, Nat.le_of_eq (Nat.zero_add _)⟩

/-- Where the region lies. -/
def slot (region : Region) : Slot := ⟨region.start, region.length⟩

theorem ext_slot {region other : Region} (same : region.slot = other.slot) : region = other := by
  cases region
  cases other
  cases same
  rfl

/-- The bytes of a region from one position up to another one. -/
def cut (region : Region) (first last : Nat) : Guarded Region :=
  if covered : first ≤ last ∧ last ≤ region.length then
    pure
      ⟨region.start + first, last - first, by
        have inside := region.inside
        omega⟩
  else
    lapse (.outside first last region.length)

/-- One byte of a region. -/
def index (region : Region) (page : Page) (position : Nat) : Guarded UInt8 :=
  provided (position < region.length) (.outside position (position + 1) region.length)
    (page.byte (region.start + position))

/-- The bytes of a region, as a copy of this length. -/
def copyTo (region : Region) (page : Page) (length : Nat) : Guarded (List UInt8) :=
  provided (region.length = length) (.lengths region.length length)
    (page.slice region.start region.length)

/-- The page with a region of it replaced by these bytes. -/
def copyFrom (region : Region) (page : Page) (bytes : List UInt8) : Guarded Page :=
  provided (bytes.length = region.length) (.lengths bytes.length region.length)
    (page.write region.start bytes)

/-- The word of so many bytes at a position of a region, read byte by byte. -/
def word (region : Region) (page : Page) (width position : Nat) : Guarded Nat := do
  let bytes ← (List.range width).mapM fun offset => do
    let place ← sum 8 position offset
    region.index page place
  return decode bytes

/-- The word at a position of a region, which may end before. -/
def get (region : Region) (page : Page) (width position : Nat) : Guarded Nat := do
  let last ← sum 8 position width
  if position ≤ last ∧ last ≤ region.length then do
    let part ← region.cut position last
    part.word page width 0
  else
    throw (.corruptPage (.fieldOutside position))

/-- The page with bytes of a region replaced, from a position on. -/
def replace (region : Region) (page : Page) (position : Nat) (bytes : List UInt8) :
    Guarded Page := do
  let last ← sum 8 position bytes.length
  let part ← region.cut position last
  part.copyFrom page bytes

def put (region : Region) (page : Page) (width position value : Nat) : Guarded Page :=
  region.replace page position (encode width value)

/-! ## Accesses inside a region -/

section Inside

variable
  {region : Region}
  {page : Page}
  {width position : Nat}

/-- Positions inside a region are far below the largest machine integer. -/
theorem sum_of_le (region : Region) (within : position + width ≤ region.length) :
    sum 8 position width = pure (position + width) := by
  have inside := region.inside
  simp only [blockSize] at inside
  exact sum_of_lt (by omega)

theorem cut_of_le
    (region : Region)
    {first last : Nat}
    (ordered : first ≤ last)
    (within : last ≤ region.length)
    (inside : region.start + first + (last - first) ≤ blockSize) :
    region.cut first last = pure ⟨region.start + first, last - first, inside⟩ :=
  dif_pos ⟨ordered, within⟩

/-- The bytes of a word are read one behind the other. -/
theorem mapM_index
    (offsets : List Nat)
    (within : ∀ offset ∈ offsets, position + offset < region.length) :
    (offsets.mapM fun offset => do
        let place ← sum 8 position offset
        region.index page place) =
      (pure (offsets.map fun offset => page.byte (region.start + position + offset)) :
        Guarded (List UInt8)) := by
  induction offsets with
  | nil => rfl
  | cons offset rest inductionHypothesis =>
      have here := within offset List.mem_cons_self
      have others := inductionHypothesis fun other member =>
        within other (List.mem_cons_of_mem _ member)
      have byte :
          region.index page (position + offset) =
            pure (page.byte (region.start + position + offset)) := by
        rw [Nat.add_assoc]
        exact provided_of here _ _
      rw [List.mapM_cons, region.sum_of_le (Nat.le_of_lt here), pure_bind, byte, pure_bind, others,
        pure_bind, List.map_cons]

theorem word_of_le (page : Page) (within : position + width ≤ region.length) :
    region.word page width position = pure (page.word width (region.start + position)) := by
  have bytes :
      ∀ offset ∈ List.range width, position + offset < region.length := by
    intro offset member
    have small := List.mem_range.mp member
    omega
  unfold word
  rw [mapM_index _ bytes, pure_bind]
  rfl

theorem get_of_le (page : Page) (within : position + width ≤ region.length) :
    region.get page width position = pure (page.word width (region.start + position)) := by
  have inside := region.inside
  unfold get
  rw [region.sum_of_le within, pure_bind, if_pos ⟨Nat.le_add_right _ _, within⟩,
    region.cut_of_le (Nat.le_add_right _ _) within (by omega), pure_bind, word_of_le]
  · rfl
  · show 0 + width ≤ position + width - position
    omega

theorem replace_of_le
    (page : Page)
    {bytes : List UInt8}
    (within : position + bytes.length ≤ region.length) :
    region.replace page position bytes = pure (page.write (region.start + position) bytes) := by
  have inside := region.inside
  unfold replace
  rw [region.sum_of_le within, pure_bind,
    region.cut_of_le (Nat.le_add_right _ _) within (by omega), pure_bind]
  refine provided_of ?_ _ _
  show bytes.length = position + bytes.length - position
  omega

theorem put_of_le (page : Page) (value : Nat) (within : position + width ≤ region.length) :
    region.put page width position value =
      pure (page.setWord width (region.start + position) value) :=
  replace_of_le page (by rwa [length_encode])

end Inside

end Region

end ObliviousStorage

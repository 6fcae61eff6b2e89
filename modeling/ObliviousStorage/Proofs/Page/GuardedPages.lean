import ObliviousStorage.Page.Records
import ObliviousStorage.Proofs.Page.Guards

/-!
Contract: the operations on a page, told with guards.

Owns: the header, the slots and their items, the addition of an item, the trailer, and the logical
block number in it, with every access made in a region and every number kept in the width that it
has; and that each of them comes to the outcome of the operation itself, whatever the page holds.

Does not own: what the pages of an index or of a catalog hold in their items and trailers.
-/

namespace ObliviousStorage.Guarded

open LittleEndian
open Page (headerSize slotSize alignment identitySize)
open Region (image)

/-! ## Headers -/

/-- The words of a header. -/
structure Header where
  lower : Nat
  upper : Nat
  special : Nat
  flags : Nat
  tag : Nat

def header (page : Page) : Guarded Header := do
  let lower ← image.word page 2 0
  let upper ← image.word page 2 2
  let special ← image.word page 2 4
  let flags ← image.word page 2 6
  let tag ← image.word page 4 8
  return ⟨lower, upper, special, flags, tag⟩

def putHeader (page : Page) (header : Header) : Guarded Page := do
  let page ← image.put page 2 0 header.lower
  let page ← image.put page 2 2 header.upper
  let page ← image.put page 2 4 header.special
  let page ← image.put page 2 6 header.flags
  image.put page 4 8 header.tag

def isUnformatted (page : Page) : Guarded Bool := do
  let upper ← image.word page 2 2
  return upper = 0

/-- Whether the pointers fail to delimit a page. The length of the slot directory is asked for only
if they are in order. -/
def isTorn (header : Header) : Guarded Bool :=
  if header.lower < headerSize ∨ header.upper < header.lower ∨ header.special < header.upper ∨
      blockSize < header.special then
    pure true
  else do
    let directory ← difference header.lower headerSize
    return directory % slotSize ≠ 0

def verify (page : Page) : Guarded Unit := do
  let header ← header page
  let torn ← isTorn header
  if torn then
    throw (.corruptPage (.pointers header.lower header.upper header.special))

/-- The slots, as a number of two bytes. A directory that ends before it begins has none. -/
def slotCount (page : Page) : Guarded Nat := do
  let header ← header page
  return (header.lower - headerSize) / slotSize % wordBound 2

/-! ## Slots -/

def slotPosition (page : Page) (number : Nat) : Guarded Nat := do
  let count ← slotCount page
  require (1 ≤ number ∧ number ≤ count) (.corruptPage (.slotOutside number count))
  let before ← difference number 1
  let offset ← product 8 before slotSize
  sum 8 headerSize offset

def slot (page : Page) (number : Nat) : Guarded Page.Slot := do
  verify page
  let position ← slotPosition page number
  let start ← image.word page 2 position
  let behind ← sum 8 position 2
  let length ← image.word page 2 behind
  let header ← header page
  let last ← sum 8 start length
  require (header.upper ≤ start ∧ last ≤ header.special) (.corruptPage (.itemOutside number))
  return ⟨start, length⟩

/-- The bytes of an item, to be read or to be written. -/
def itemRegion (page : Page) (number : Nat) : Guarded Region := do
  let found ← slot page number
  let last ← sum 8 found.start found.length
  image.cut found.start last

def item (page : Page) (number : Nat) : Guarded (List UInt8) := do
  let region ← itemRegion page number
  region.copyTo page region.length

/-! ## Trailers -/

/-- The bytes of the trailer, to be read or to be written. -/
def trailerRegion (page : Page) : Guarded Region := do
  let header ← header page
  image.cut (min header.special blockSize) blockSize

def trailer (page : Page) : Guarded (List UInt8) := do
  let region ← trailerRegion page
  region.copyTo page region.length

/-- The trailer, if it is one that holds a logical block number. -/
def identityRegion (page : Page) : Guarded (Option Region) := do
  let trailer ← trailerRegion page
  let unformatted ← isUnformatted page
  let most ← product 8 2 alignment
  if unformatted = false ∧ identitySize ≤ trailer.length ∧ trailer.length < most then
    return some trailer
  else
    return none

def identity (page : Page) : Guarded BlockNumber := do
  match ← identityRegion page with
  | some region => do
      let block ← region.get page identitySize 0
      return UInt32.ofNat block
  | none => throw (.corruptPage .noIdentity)

def setIdentity (page : Page) (block : BlockNumber) : Guarded Page := do
  match ← identityRegion page with
  | some _ => do
      let trailer ← trailerRegion page
      trailer.put page identitySize 0 block.toNat
  | none => throw (.corruptPage .noIdentity)

/-- Whether a trailer that holds a logical block number holds the dummy one. -/
def isTagged (page : Page) : Option Region → Guarded Bool
  | some region => do
      let block ← region.word page identitySize 0
      return UInt32.ofNat block = dummyIdentity
  | none => return false

/-- Both signs of a dummy are looked for, whichever is found. -/
def isDummy (page : Page) : Guarded Bool := do
  let unformatted ← isUnformatted page
  let found ← identityRegion page
  let tagged ← isTagged page found
  return unformatted || tagged

/-! ## Additions -/

/-- The least multiple of the alignment that holds so many bytes. -/
def aligned (length : Nat) : Guarded Nat := do
  let padded ← sum 8 length alignment
  let padded ← difference padded 1
  return padded / alignment * alignment

/-- The end of the slot directory behind one more slot, and the place of its item. -/
def roomFor (header : Header) (length : Nat) : Guarded (Nat × Nat) := do
  let lower ← sum 8 header.lower slotSize
  let room ← aligned length
  let upper ← signedDifference (asSigned header.upper) (asSigned room)
  require (asSigned lower ≤ upper) (.corruptPage (.itemDoesNotFit length lower upper))
  return (lower, asUnsigned upper)

/-- Writes the descriptor of an item, the item, and the header. -/
def writeItem (page : Page) (header : Header) (lower start : Nat) (body : List UInt8) :
    Guarded Page := do
  let startWord ← Page.toWord start
  let page ← image.put page 2 header.lower startWord
  let behind ← sum 8 header.lower 2
  let lengthWord ← Page.toWord body.length
  let page ← image.put page 2 behind lengthWord
  let page ← image.replace page start body
  let lowerWord ← Page.toWord lower
  let upperWord ← Page.toWord start
  putHeader page { header with lower := lowerWord, upper := upperWord }

def append (page : Page) (body : List UInt8) : Guarded (Nat × Page) := do
  verify page
  let header ← header page
  let (lower, start) ← roomFor header body.length
  let count ← slotCount page
  let number ← sum 2 count 1
  let grown ← writeItem page header lower start body
  verify grown
  return (number, grown)

/-! ## Agreement: headers -/

section Headers

variable (page : Page)

theorem image_word {width position : Nat} (within : position + width ≤ blockSize) :
    image.word page width position = pure (page.word width position) := by
  rw [Region.word_of_le page within]
  show pure (page.word width (0 + position)) = _
  rw [Nat.zero_add]

theorem image_replace
    {position : Nat}
    {bytes : List UInt8}
    (within : position + bytes.length ≤ blockSize) :
    image.replace page position bytes = pure (page.write position bytes) := by
  rw [Region.replace_of_le page within]
  show pure (page.write (0 + position) bytes) = _
  rw [Nat.zero_add]

theorem image_put {width position : Nat} (value : Nat) (within : position + width ≤ blockSize) :
    image.put page width position value = pure (page.setWord width position value) :=
  image_replace page (by rwa [length_encode])

theorem header_eq :
    header page =
      pure ⟨page.lower, page.upper, page.special, page.flags, page.word 4 8⟩ := by
  unfold header
  simp (disch := decide) only [image_word, pure_bind]
  rfl

theorem isUnformatted_eq : isUnformatted page = pure page.isUnformatted := by
  unfold isUnformatted
  rw [image_word page (by decide), pure_bind]
  rfl

theorem putHeader_eq (header : Header) :
    putHeader page header =
      pure
        (((((page.setWord 2 0 header.lower).setWord 2 2 header.upper).setWord 2 4
          header.special).setWord 2 6 header.flags).setWord 4 8 header.tag) := by
  unfold putHeader
  simp (disch := decide) only [image_put, pure_bind]

theorem isTorn_eq (tag : Nat) :
    isTorn ⟨page.lower, page.upper, page.special, page.flags, tag⟩ =
      pure (decide (¬page.WellFormed)) := by
  unfold isTorn
  by_cases disordered :
      page.lower < headerSize ∨ page.upper < page.lower ∨ page.special < page.upper ∨
        blockSize < page.special
  · have malformed : ¬page.WellFormed := by
      unfold Page.WellFormed
      omega
    rw [if_pos disordered, decide_eq_true malformed]
  · have whole : (page.lower - headerSize) % slotSize ≠ 0 ↔ ¬page.WellFormed := by
      unfold Page.WellFormed
      omega
    have ordered : headerSize ≤ page.lower := by omega
    rw [if_neg disordered, difference_of_le ordered, pure_bind]
    exact congrArg pure (decide_eq_decide.mpr whole)

theorem verify_eq : verify page = safely page.verify := by
  unfold verify Page.verify
  rw [header_eq, pure_bind, isTorn_eq, pure_bind]
  by_cases wellFormed : page.WellFormed
  · rw [if_neg (by simpa using wellFormed), if_pos wellFormed]
    rfl
  · rw [if_pos (by simpa using wellFormed), if_neg wellFormed]
    rfl

theorem slotCount_eq : slotCount page = pure page.slotCount := by
  unfold slotCount
  have small : page.slotCount < wordBound 2 := Nat.lt_trans page.slotCount_lt (by decide)
  rw [header_eq, pure_bind]
  show pure (page.slotCount % wordBound 2) = _
  rw [Nat.mod_eq_of_lt small]

end Headers

/-! ## Agreement: slots -/

section Slots

variable
  {page : Page}
  {number : Nat}

theorem verify_of_wellFormed (wellFormed : page.WellFormed) : verify page = pure () := by
  rw [verify_eq, (Page.verify_eq_ok_iff page).mpr wellFormed, safely_ok]

/-- The descriptor of a slot that the directory has lies inside it. -/
theorem slotPosition_of_among
    (wellFormed : page.WellFormed)
    (first : 1 ≤ number)
    (last : number ≤ page.slotCount) :
    slotPosition page number = pure (Page.slotPosition number) := by
  have within := Page.slotPosition_lt wellFormed first last
  have ends : page.lower ≤ blockSize := by
    obtain ⟨-, lower, upper, special, -⟩ := wellFormed
    omega
  simp only [Page.slotPosition, headerSize, slotSize, blockSize] at within ends
  unfold slotPosition
  rw [slotCount_eq, pure_bind, require_of ⟨first, last⟩, pure_bind, difference_of_le first,
    pure_bind, product_of_lt (by simp only [slotSize]; omega), pure_bind,
    sum_of_lt (by simp only [headerSize, slotSize]; omega)]
  rfl

theorem slot_of_missing
    (wellFormed : page.WellFormed)
    (missing : ¬(1 ≤ number ∧ number ≤ page.slotCount)) :
    page.slot number = .error (.corruptPage (.slotOutside number page.slotCount)) := by
  have verified := (Page.verify_eq_ok_iff page).mpr wellFormed
  unfold Page.slot
  rw [verified, require, if_neg missing]
  rfl

/-- The words of a descriptor are read inside the slot directory. -/
theorem slot_of_among
    (wellFormed : page.WellFormed)
    (first : 1 ≤ number)
    (last : number ≤ page.slotCount) :
    slot page number = safely (page.slot number) := by
  have within := Page.slotPosition_lt wellFormed first last
  have ends : page.lower ≤ blockSize := by
    obtain ⟨-, lower, upper, special, -⟩ := wellFormed
    omega
  simp only [slotSize, blockSize] at within ends
  have start := page.word_lt 2 (Page.slotPosition number)
  have length := page.word_lt 2 (Page.slotPosition number + 2)
  rw [wordBound_two] at start length
  unfold slot
  rw [verify_of_wellFormed wellFormed, pure_bind, slotPosition_of_among wellFormed first last, pure_bind,
    image_word page (by simp only [blockSize]; omega), pure_bind, sum_of_lt (by omega), pure_bind,
    image_word page (by simp only [blockSize]; omega), pure_bind, header_eq, pure_bind,
    sum_of_lt (by omega), pure_bind, Page.slot_of_wellFormed wellFormed first last]
  exact require_then _ _ _

theorem slot_eq (page : Page) (number : Nat) :
    slot page number = safely (page.slot number) := by
  by_cases wellFormed : page.WellFormed
  · by_cases among : 1 ≤ number ∧ number ≤ page.slotCount
    · exact slot_of_among wellFormed among.1 among.2
    · unfold slot slotPosition
      rw [slot_of_missing wellFormed among, verify_of_wellFormed wellFormed, pure_bind,
        slotCount_eq, pure_bind, require_not among]
      rfl
  · unfold slot Page.slot
    rw [verify_eq, Page.verify, if_neg wellFormed]
    rfl

/-- What is exposed of a page is the item that the slot describes. -/
theorem itemRegion_of_slot
    {found : Page.Slot}
    (among : page.slot number = .ok found) :
    ∃ region, itemRegion page number = pure region ∧ region.slot = found := by
  obtain ⟨⟨-, -, -, special, -⟩, -, -, -, -, inside⟩ := Page.slot_eq_ok_iff.mp among
  have ends : found.start + found.length ≤ blockSize := Nat.le_trans inside special
  have small := ends
  simp only [blockSize] at small
  unfold itemRegion
  rw [slot_eq, among]
  show ∃ region,
    (do
      let last ← sum 8 found.start found.length
      image.cut found.start last) = pure region ∧ region.slot = found
  rw [sum_of_lt (by omega), pure_bind]
  refine ⟨_, image.cut_of_le (Nat.le_add_right _ _) ends ?_, ?_⟩
  · show 0 + found.start + (found.start + found.length - found.start) ≤ blockSize
    omega
  · show (⟨0 + found.start, found.start + found.length - found.start⟩ : Page.Slot) = found
    rw [Nat.zero_add, Nat.add_sub_cancel_left]

/-- What is done with an exposed item agrees with what is done with its slot, if it does wherever
the slot is found. -/
theorem itemRegion_bind
    {α : Type}
    {next : Region → Guarded α}
    {plain : Page.Slot → Except Fault α}
    (agrees :
      ∀ region, page.slot number = .ok region.slot → next region = safely (plain region.slot)) :
    itemRegion page number >>= next = safely (page.slot number >>= plain) := by
  cases among : page.slot number with
  | error fault =>
      unfold itemRegion
      rw [slot_eq, among]
      rfl
  | ok found =>
      obtain ⟨region, exposes, rfl⟩ := itemRegion_of_slot among
      rw [exposes, pure_bind]
      exact agrees region among

theorem itemRegion_bind_item
    {α : Type}
    {next : Region → Guarded α}
    {plain : List UInt8 → Except Fault α}
    (agrees :
      ∀ region : Region, next region = safely (plain (page.slice region.start region.length))) :
    itemRegion page number >>= next = safely (page.item number >>= plain) := by
  unfold Page.item
  rw [bind_assoc]
  refine itemRegion_bind ?_
  intro region among
  have inside : region.slot.start + region.slot.length ≤ blockSize := region.inside
  unfold Page.region
  rw [if_pos inside]
  exact agrees region

theorem item_eq (page : Page) (number : Nat) :
    item page number = safely (page.item number) := by
  have reads : item page number = safely (page.item number >>= pure) :=
    itemRegion_bind_item fun region => provided_of rfl _ _
  rw [reads, bind_pure]

/-- An exposed item lies in the item area. -/
theorem itemRegion_inside
    {region : Region}
    (exposes : itemRegion page number = pure region) :
    page.upper ≤ region.start ∧ region.start + region.length ≤ page.special := by
  cases among : page.slot number with
  | error fault =>
      unfold itemRegion at exposes
      rw [slot_eq, among] at exposes
      exact absurd (Except.ok.inj exposes) (by simp)
  | ok found =>
      obtain ⟨other, exposesOther, rfl⟩ := itemRegion_of_slot among
      have same : region = other := pure_inj (exposes.symm.trans exposesOther)
      subst same
      exact (Page.slot_eq_ok_iff.mp among).2.2.2.2

end Slots

/-! ## Agreement: trailers -/

section Trailers

variable (page : Page)

/-- Where the trailer lies. -/
def trailerAt : Region where
  start := page.trailerStart
  length := page.trailerSize
  inside := by
    unfold Page.trailerSize Page.trailerStart
    omega

theorem trailerRegion_eq : trailerRegion page = pure (trailerAt page) := by
  have starts : min page.special blockSize ≤ blockSize := Nat.min_le_right _ _
  unfold trailerRegion
  rw [header_eq, pure_bind, image.cut_of_le starts (Nat.le_refl _)]
  · refine congrArg pure (Region.ext_slot ?_)
    show (⟨0 + min page.special blockSize, blockSize - min page.special blockSize⟩ : Page.Slot) = _
    rw [Nat.zero_add]
    rfl
  · show 0 + min page.special blockSize + (blockSize - min page.special blockSize) ≤ blockSize
    omega

theorem trailer_eq : trailer page = safely (.ok page.trailer) := by
  unfold trailer
  rw [trailerRegion_eq, pure_bind]
  exact provided_of rfl _ _

theorem identityRegion_eq :
    identityRegion page = pure (if page.carriesIdentity then some (trailerAt page) else none) := by
  unfold identityRegion
  rw [trailerRegion_eq, pure_bind, isUnformatted_eq, pure_bind, product_of_lt (by decide),
    pure_bind]
  have carries :
      page.carriesIdentity = true ↔
        page.isUnformatted = false ∧ identitySize ≤ (trailerAt page).length ∧
          (trailerAt page).length < 2 * alignment := by
    simp [Page.carriesIdentity, trailerAt, and_assoc]
  by_cases carried : page.carriesIdentity = true
  · rw [if_pos carried, if_pos (carries.mp carried)]
  · rw [if_neg carried, if_neg (mt carries.mpr carried)]

/-- A trailer that holds a logical block number is long enough for it. -/
theorem identity_inside (carries : page.carriesIdentity = true) :
    0 + identitySize ≤ (trailerAt page).length := by
  simp only [Page.carriesIdentity, Bool.and_eq_true, decide_eq_true_eq] at carries
  rw [Nat.zero_add]
  exact carries.1.2

theorem identity_eq : identity page = safely page.identity := by
  unfold identity Page.identity Page.identity?
  rw [identityRegion_eq, pure_bind]
  by_cases carries : page.carriesIdentity = true
  · rw [if_pos carries, if_pos carries]
    show (do
        let block ← (trailerAt page).get page identitySize 0
        pure (UInt32.ofNat block)) = _
    rw [Region.get_of_le page (identity_inside page carries), pure_bind]
    rfl
  · rw [if_neg carries, if_neg carries]
    rfl

theorem setIdentity_eq (block : BlockNumber) :
    setIdentity page block = safely (page.setIdentity block) := by
  unfold setIdentity Page.setIdentity
  rw [identityRegion_eq, pure_bind]
  by_cases carries : page.carriesIdentity = true
  · rw [if_pos carries, if_pos carries]
    show (do
        let trailer ← trailerRegion page
        trailer.put page identitySize 0 block.toNat) = _
    rw [trailerRegion_eq, pure_bind, Region.put_of_le page _ (identity_inside page carries)]
    rfl
  · rw [if_neg carries, if_neg carries]
    rfl

theorem isDummy_eq : isDummy page = safely (.ok page.isDummy) := by
  unfold isDummy Page.isDummy Page.identity?
  rw [isUnformatted_eq, pure_bind, identityRegion_eq, pure_bind]
  by_cases carries : page.carriesIdentity = true
  · rw [if_pos carries, if_pos carries, isTagged,
      Region.word_of_le page (identity_inside page carries), pure_bind, pure_bind]
    simp only [Option.some.injEq]
    rfl
  · rw [if_neg carries, if_neg carries, isTagged, pure_bind]
    rfl

end Trailers

/-! ## Agreement: additions -/

section Additions

variable
  {page : Page}
  {body : List UInt8}

theorem aligned_eq {length : Nat} (small : length + alignment ≤ signBound) :
    aligned length = pure (Page.aligned length) := by
  rw [signBound_eq] at small
  unfold aligned
  rw [sum_of_lt (by omega), pure_bind, difference_of_le (by simp only [alignment]; omega),
    pure_bind]
  rfl

/-- The difference with a sign tells whether there is room, and then where. -/
theorem roomFor_eq
    {length : Nat}
    (small : length + alignment ≤ signBound)
    (header : Header)
    (lowerWord : header.lower < 65536)
    (upperWord : header.upper < 65536) :
    roomFor header length =
      safely
        (if header.lower + slotSize + Page.aligned length ≤ header.upper then
          .ok (header.lower + slotSize, header.upper - Page.aligned length)
        else
          .error
            (.corruptPage
              (.itemDoesNotFit length (header.lower + slotSize)
                (header.upper - Page.aligned length : Int)))) := by
  have bound := signBound_eq
  have room : Page.aligned length < signBound := by
    simp only [Page.aligned, alignment] at small ⊢
    omega
  have lower : header.lower + slotSize < signBound := by
    simp only [slotSize]
    omega
  have representable :
      -signBound ≤ (header.upper : Int) - Page.aligned length ∧
        (header.upper : Int) - Page.aligned length < signBound := by
    omega
  unfold roomFor
  rw [sum_of_lt (by omega), pure_bind, aligned_eq small, pure_bind,
    asSigned_of_lt (by omega), asSigned_of_lt room, signedDifference, provided_of representable,
    pure_bind, asSigned_of_lt lower]
  by_cases fits : header.lower + slotSize + Page.aligned length ≤ header.upper
  · have start :
        asUnsigned ((header.upper : Int) - Page.aligned length) =
          header.upper - Page.aligned length := by
      rw [asUnsigned_of_nonneg (by omega) representable.2]
      omega
    rw [if_pos fits, require_of (by omega), pure_bind, start]
    rfl
  · rw [if_neg fits, require_not (by omega)]
    rfl

/-- The writes of an item that fits make the page that it is appended to. -/
theorem writeItem_of_fits
    (wellFormed : page.WellFormed)
    (fits : page.lower + slotSize + Page.aligned body.length ≤ page.upper) :
    writeItem page ⟨page.lower, page.upper, page.special, page.flags, page.word 4 8⟩
        (page.lower + slotSize) (page.upper - Page.aligned body.length) body =
      pure (page.grownBy body) := by
  have appended := Page.appended_grownBy wellFormed fits
  have padded := Page.le_aligned body.length
  have bounds := wellFormed
  obtain ⟨-, -, items, inside, -⟩ := bounds
  simp only [slotSize, blockSize] at fits inside
  have small :
      ∀ {number : Nat},
        number ≤ 8192 → (liftM (Page.toWord number) : Guarded Nat) = pure number := by
    intro number bound
    rw [Page.toWord_of_lt (Nat.lt_of_le_of_lt bound (by decide))]
    rfl
  -- The two words of the descriptor are written one behind the other.
  have descriptor :
      (page.setWord 2 page.lower (page.upper - Page.aligned body.length)).setWord 2
          (page.lower + 2) body.length =
        page.write page.lower
          (encode 2 (page.upper - Page.aligned body.length) ++ encode 2 body.length) := by
    rw [Page.write_append, length_encode]
    rfl
  unfold writeItem
  dsimp only
  rw [small (by omega), pure_bind, image_put page _ (by simp only [blockSize]; omega), pure_bind,
    sum_of_lt (by omega), pure_bind, small (by omega), pure_bind,
    image_put _ _ (by simp only [blockSize]; omega), pure_bind,
    image_replace _ (by simp only [blockSize]; omega), pure_bind,
    small (by simp only [slotSize]; omega), pure_bind, pure_bind, putHeader_eq, descriptor,
    ← Page.toNat_tag]
  exact congrArg pure (appended.header_rewritten wellFormed)

theorem append_eq
    (page : Page)
    (small : body.length + alignment ≤ signBound) :
    append page body = safely (page.append body) := by
  have lower : page.lower < 65536 := page.word_lt 2 0
  have upper : page.upper < 65536 := page.word_lt 2 2
  unfold append
  by_cases wellFormed : page.WellFormed
  · rw [verify_of_wellFormed wellFormed, pure_bind, header_eq, pure_bind,
      roomFor_eq small _ lower upper]
    by_cases fits : page.lower + slotSize + Page.aligned body.length ≤ page.upper
    · have grown := (Page.appended_grownBy wellFormed fits).wellFormed wellFormed fits
      have few := page.slotCount_lt
      have number : page.slotCount + 1 < wordBound 2 := by
        rw [wordBound_two]
        omega
      rw [if_pos fits, safely_ok, pure_bind, Page.append_eq wellFormed fits, safely_ok]
      dsimp only
      rw [slotCount_eq, pure_bind, sum, provided_of number, pure_bind,
        writeItem_of_fits wellFormed fits, pure_bind, verify_of_wellFormed grown, pure_bind]
    · rw [if_neg fits, Page.append_of_full wellFormed fits]
      rfl
  · rw [Page.append_of_malformed wellFormed, verify_eq, Page.verify, if_neg wellFormed]
    rfl

end Additions

end ObliviousStorage.Guarded

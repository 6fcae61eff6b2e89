import ObliviousStorage.Page.Slots
import ObliviousStorage.Proofs.Bytes.Fields

/-!
Contract: which bytes of a page the reading of its parts depends on.

Owns: agreement of two pages on a range of bytes, and that words, slots and items are
the same on pages that agree where these are kept. The header and the slot directory
lie below `lower`; bodies of items lie between `upper` and `special`.

Does not own: any operation that changes a page.
-/

namespace ObliviousStorage.Page

open LittleEndian

/-- Two pages hold the same bytes from `start` up to `stop`. -/
def AgreesOn (left right : Page) (start stop : Nat) : Prop :=
  ∀ position, start ≤ position → position < stop → left.byte position = right.byte position

theorem AgreesOn.mono
    {left right : Page}
    {start stop start' stop' : Nat}
    (agrees : AgreesOn left right start stop)
    (later : start ≤ start')
    (earlier : stop' ≤ stop) :
    AgreesOn left right start' stop' :=
  fun position above below => agrees position (by omega) (by omega)

theorem AgreesOn.trans
    {first second third : Page}
    {start stop : Nat}
    (begins : AgreesOn first second start stop)
    (continues : AgreesOn second third start stop) :
    AgreesOn first third start stop :=
  fun position above below =>
    (begins position above below).trans (continues position above below)

theorem agreesOn_refl (page : Page) (start stop : Nat) : AgreesOn page page start stop :=
  fun _ _ _ => rfl

/-- A write changes nothing outside the bytes it covers. -/
theorem agreesOn_write
    (page : Page)
    {position : Nat}
    {bytes : List UInt8}
    {start stop : Nat}
    (apart : stop ≤ position ∨ position + bytes.length ≤ start) :
    AgreesOn (page.write position bytes) page start stop := by
  intro other above below
  rw [byte_write, if_neg (by omega)]

theorem slice_congr
    {left right : Page}
    {start length : Nat}
    (agrees : AgreesOn left right start (start + length)) :
    left.slice start length = right.slice start length := by
  apply List.ext_getElem
  · simp
  · intro index leftBound rightBound
    have bound : index < length := by simpa using leftBound
    rw [getElem_slice, getElem_slice, agrees (start + index) (by omega) (by omega)]

theorem word_congr
    {left right : Page}
    {width position : Nat}
    (agrees : AgreesOn left right position (position + width)) :
    left.word width position = right.word width position := by
  rw [word, word, slice_congr agrees]

/-- A word is its first byte and the word behind that. -/
theorem word_succ (page : Page) (width position : Nat) :
    page.word (width + 1) position =
      (page.byte position).toNat + 256 * page.word width (position + 1) := by
  have bytes :
      page.slice position (width + 1) = page.byte position :: page.slice (position + 1) width := by
    simp [slice, List.range_succ_eq_map, Function.comp_def, Nat.add_assoc, Nat.add_comm 1]
  rw [word, bytes, decode, word]

/-- A field of a run of bytes is a word of the page. -/
theorem field_slice
    (page : Page)
    {start length width position : Nat}
    (inside : position + width ≤ length) :
    field (page.slice start length) width position = page.word width (start + position) := by
  have same :
      ((page.slice start length).drop position).take width =
        page.slice (start + position) width := by
    apply List.ext_getElem
    · simp
      omega
    · intro index leftBound rightBound
      rw [List.getElem_take, List.getElem_drop, getElem_slice, getElem_slice, Nat.add_assoc]
  rw [field, same, word]

/-! ## The header -/

section Header

variable {left right : Page}

theorem lower_congr (agrees : AgreesOn left right 0 headerSize) : left.lower = right.lower :=
  word_congr (agrees.mono (by decide) (by decide))

theorem upper_congr (agrees : AgreesOn left right 0 headerSize) : left.upper = right.upper :=
  word_congr (agrees.mono (by decide) (by decide))

theorem special_congr (agrees : AgreesOn left right 0 headerSize) :
    left.special = right.special :=
  word_congr (agrees.mono (by decide) (by decide))

theorem wellFormed_congr (agrees : AgreesOn left right 0 headerSize) :
    left.WellFormed ↔ right.WellFormed := by
  rw [WellFormed, WellFormed, lower_congr agrees, upper_congr agrees, special_congr agrees]

theorem verify_congr (agrees : AgreesOn left right 0 headerSize) :
    left.verify = right.verify := by
  simp only [verify, wellFormed_congr agrees, lower_congr agrees, upper_congr agrees,
    special_congr agrees]

theorem slotCount_congr (agrees : AgreesOn left right 0 headerSize) :
    left.slotCount = right.slotCount := by
  rw [slotCount, slotCount, lower_congr agrees]

end Header

/-- On a page that was never formatted the item bodies start before the slot directory ends. -/
theorem WellFormed.isUnformatted
    {page : Page}
    (wellFormed : page.WellFormed) :
    page.isUnformatted = false := by
  obtain ⟨header, directory, -⟩ := wellFormed
  simp only [headerSize] at header
  simp only [Page.isUnformatted, decide_eq_false_iff_not]
  omega

/-! ## Slots and items -/

/-- The descriptors of the slots fill the slot directory. -/
theorem WellFormed.lower_eq
    {page : Page}
    (wellFormed : page.WellFormed) :
    page.lower = headerSize + page.slotCount * slotSize := by
  obtain ⟨header, -, -, -, whole⟩ := wellFormed
  simp only [slotCount, slotSize, headerSize] at *
  omega

theorem slotPosition_lt
    {page : Page}
    {number : Nat}
    (wellFormed : page.WellFormed)
    (first : 1 ≤ number)
    (last : number ≤ page.slotCount) :
    slotPosition number + slotSize ≤ page.lower := by
  have lower := wellFormed.lower_eq
  simp only [slotPosition, slotSize, headerSize] at *
  omega

/-- What a slot describes, once its page and its number are checked. -/
def described (page : Page) (number : Nat) : Slot :=
  ⟨page.word 2 (slotPosition number), page.word 2 (slotPosition number + 2)⟩

theorem slot_of_wellFormed
    {page : Page}
    {number : Nat}
    (wellFormed : page.WellFormed)
    (first : 1 ≤ number)
    (last : number ≤ page.slotCount) :
    page.slot number =
      if page.upper ≤ (page.described number).start ∧
          (page.described number).start + (page.described number).length ≤ page.special then
        .ok (page.described number)
      else
        .error (.corruptPage (.itemOutside number)) := by
  have position := slotPosition_lt wellFormed first last
  have inside : slotPosition number + slotSize ≤ blockSize := by
    obtain ⟨-, lower, upper, special, -⟩ := wellFormed
    omega
  have start :
      field (page.slice (slotPosition number) slotSize) 2 0 = (page.described number).start :=
    field_slice page (by decide)
  have length :
      field (page.slice (slotPosition number) slotSize) 2 2 = (page.described number).length :=
    field_slice page (by decide)
  have verified : page.verify = .ok () := (verify_eq_ok_iff page).mpr wellFormed
  simp only [slot, verified, require, region, first, last, inside, and_self, ↓reduceIte, bind,
    Except.bind, start, length]
  by_cases bounds :
      page.upper ≤ (page.described number).start ∧
        (page.described number).start + (page.described number).length ≤ page.special
  · simp [bounds, pure, Except.pure]
  · simp [bounds]

theorem slot_eq_ok_iff
    {page : Page}
    {number : Nat}
    {found : Slot} :
    page.slot number = .ok found ↔
      page.WellFormed ∧ 1 ≤ number ∧ number ≤ page.slotCount ∧
        found = page.described number ∧
          page.upper ≤ found.start ∧ found.start + found.length ≤ page.special := by
  constructor
  · intro succeeds
    have checks := succeeds
    simp only [slot, bind_eq_ok_iff, require_eq_ok_iff] at checks
    obtain ⟨_, verified, _, ⟨first, last⟩, -⟩ := checks
    have wellFormed := (verify_eq_ok_iff page).mp verified
    rw [slot_of_wellFormed wellFormed first last] at succeeds
    split at succeeds
    · next inside =>
        have same : page.described number = found := by simpa using succeeds
        subst same
        exact ⟨wellFormed, first, last, rfl, inside⟩
    · exact absurd succeeds (by simp)
  · intro holds
    rcases holds with ⟨wellFormed, first, last, rfl, inside⟩
    rw [slot_of_wellFormed wellFormed first last, if_pos inside]

/-- Slots are the same on pages with the same header and slot directory. -/
theorem slot_congr
    {left right : Page}
    (wellFormed : right.WellFormed)
    (agrees : AgreesOn left right 0 right.lower)
    (number : Nat) :
    left.slot number = right.slot number := by
  have header : AgreesOn left right 0 headerSize := agrees.mono (by omega) wellFormed.1
  have leftWellFormed : left.WellFormed := (wellFormed_congr header).mpr wellFormed
  by_cases among : 1 ≤ number ∧ number ≤ right.slotCount
  · obtain ⟨first, last⟩ := among
    have position := slotPosition_lt wellFormed first last
    have same : left.described number = right.described number := by
      simp only [slotSize] at position
      rw [described, described, word_congr (agrees.mono (by omega) (by omega)),
        word_congr (agrees.mono (by omega) (by omega))]
    rw [slot_of_wellFormed wellFormed first last,
      slot_of_wellFormed leftWellFormed first (slotCount_congr header ▸ last), same,
      upper_congr header, special_congr header]
  · have leftVerified : left.verify = .ok () := (verify_eq_ok_iff left).mpr leftWellFormed
    have rightVerified : right.verify = .ok () := (verify_eq_ok_iff right).mpr wellFormed
    simp only [slot, leftVerified, rightVerified, slotCount_congr header, require, among,
      ↓reduceIte, bind, Except.bind]

theorem item_eq_ok_iff
    {page : Page}
    {number : Nat}
    {body : List UInt8} :
    page.item number = .ok body ↔
      ∃ found, page.slot number = .ok found ∧ body = page.slice found.start found.length := by
  simp only [item, bind_eq_ok_iff]
  constructor
  · intro holds
    rcases holds with ⟨found, succeeds, read⟩
    obtain ⟨⟨-, -, -, special, -⟩, -, -, -, -, bound⟩ := slot_eq_ok_iff.mp succeeds
    have inside : found.start + found.length ≤ blockSize := by omega
    rw [region, if_pos inside] at read
    exact ⟨found, succeeds, (Except.ok.inj read).symm⟩
  · intro holds
    rcases holds with ⟨found, succeeds, rfl⟩
    obtain ⟨⟨-, -, -, special, -⟩, -, -, -, -, bound⟩ := slot_eq_ok_iff.mp succeeds
    have inside : found.start + found.length ≤ blockSize := by omega
    exact ⟨found, succeeds, by rw [region, if_pos inside]⟩

/-- An item is the same on pages with the same header and slot directory that hold the
same bytes where the item lies. -/
theorem item_congr
    {left right : Page}
    {number : Nat}
    (wellFormed : right.WellFormed)
    (agrees : AgreesOn left right 0 right.lower)
    (body :
      ∀ found, right.slot number = .ok found →
        AgreesOn left right found.start (found.start + found.length)) :
    left.item number = right.item number := by
  have sameSlot := slot_congr wellFormed agrees number
  cases succeeds : right.slot number with
  | error fault => simp only [item, sameSlot, succeeds, bind, Except.bind]
  | ok found =>
      rw [item_eq_ok_iff.mpr ⟨found, succeeds, rfl⟩,
        item_eq_ok_iff.mpr ⟨found, sameSlot.trans succeeds, rfl⟩, slice_congr (body found succeeds)]

end ObliviousStorage.Page

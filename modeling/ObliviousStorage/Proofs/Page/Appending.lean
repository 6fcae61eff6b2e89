import ObliviousStorage.Proofs.Page.Frames

/-!
Contract: what adding an item does to a page.

Owns: when an item can be added, and the page that results: its header, the slots that
were there, and the new slot with its item.

Does not own: what items encode.
-/

namespace ObliviousStorage.Page

open LittleEndian

/-- A page and the same page with one more item. -/
structure Appended (page grown : Page) (body : List UInt8) : Prop where
  lower : grown.lower = page.lower + slotSize
  upper : grown.upper = page.upper - aligned body.length
  /-- The header behind the two pointers, and the slot directory, stay as they were. -/
  directory : AgreesOn grown page 4 page.lower
  /-- So do the bodies that were there, and the trailer. -/
  bodies : AgreesOn grown page page.upper blockSize
  descriptor :
    grown.described (page.slotCount + 1) = ⟨page.upper - aligned body.length, body.length⟩
  body : grown.slice (page.upper - aligned body.length) body.length = body

namespace Appended

variable {page grown : Page} {body : List UInt8}

theorem special (appended : Appended page grown body) (wellFormed : page.WellFormed) :
    grown.special = page.special := by
  have header := wellFormed.1
  simp only [headerSize] at header
  exact word_congr (appended.directory.mono (by omega) (by omega))

theorem wellFormed
    (appended : Appended page grown body)
    (wellFormed : page.WellFormed)
    (fits : page.lower + slotSize + aligned body.length ≤ page.upper) :
    grown.WellFormed := by
  have special := appended.special wellFormed
  have lower := appended.lower
  have upper := appended.upper
  obtain ⟨header, directory, items, trailer, whole⟩ := wellFormed
  simp only [WellFormed, headerSize, slotSize] at *
  omega

theorem slotCount (appended : Appended page grown body) (wellFormed : page.WellFormed) :
    grown.slotCount = page.slotCount + 1 := by
  have lower := appended.lower
  have before := wellFormed.lower_eq
  simp only [Page.slotCount, headerSize, slotSize] at *
  omega

/-- The descriptors that were there stay as they were. -/
theorem described
    (appended : Appended page grown body)
    (wellFormed : page.WellFormed)
    {number : Nat}
    (first : 1 ≤ number)
    (last : number ≤ page.slotCount) :
    grown.described number = page.described number := by
  have position := slotPosition_lt wellFormed first last
  have behind : 4 ≤ slotPosition number := by
    simp only [slotPosition, headerSize]
    omega
  simp only [slotSize] at position
  rw [Page.described, Page.described,
    word_congr (appended.directory.mono (by omega) (by omega)),
    word_congr (appended.directory.mono (by omega) (by omega))]

end Appended

/-- The two words of a descriptor. -/
theorem words_of_slice
    {page : Page}
    {position start length : Nat}
    (written : page.slice position slotSize = encode 2 start ++ encode 2 length)
    (startFits : start < wordBound 2)
    (lengthFits : length < wordBound 2) :
    page.word 2 position = start ∧ page.word 2 (position + 2) = length := by
  have first : field (page.slice position slotSize) 2 0 = page.word 2 (position + 0) :=
    field_slice page (by decide)
  have second : field (page.slice position slotSize) 2 2 = page.word 2 (position + 2) :=
    field_slice page (by decide)
  rw [written, field_encode_append startFits] at first
  rw [written, field_after_encode (Nat.le_refl 2), Nat.sub_self, field_encode lengthFits] at second
  exact ⟨first.symm, second.symm⟩

/-- The page that adding an item leads to, before its header is checked. -/
def grownBy (page : Page) (body : List UInt8) : Page :=
  let upper := page.upper - aligned body.length
  let described := page.write page.lower (encode 2 upper ++ encode 2 body.length)
  ((described.write upper body).setWord 2 0 (page.lower + slotSize)).setWord 2 2 upper

/-- Items of one length added to a page lead to the same bytes but for their bodies. -/
theorem byte_grownBy_congr
    {page : Page}
    {one other : List UInt8}
    {position : Nat}
    (lengths : one.length = other.length)
    (outside :
      position < page.upper - aligned one.length ∨
        page.upper - aligned one.length + one.length ≤ position) :
    (page.grownBy one).byte position = (page.grownBy other).byte position := by
  have later :
      ∀ {left right : Page} (start : Nat) (bytes : List UInt8),
        left.byte position = right.byte position →
          (left.write start bytes).byte position = (right.write start bytes).byte position := by
    intro left right start bytes same
    rw [byte_write, byte_write, same]
  unfold grownBy
  rw [lengths] at outside ⊢
  -- The bodies go to the same place, and this byte is not there.
  have missed :
      ∀ (described : Page) (body : List UInt8), body.length = other.length →
        (described.write (page.upper - aligned other.length) body).byte position =
          described.byte position := by
    intro described body same
    rw [byte_write, if_neg (by omega)]
  exact later _ _ (later _ _ ((missed _ one lengths).trans (missed _ other rfl).symm))

theorem appended_grownBy
    {page : Page}
    {body : List UInt8}
    (wellFormed : page.WellFormed)
    (fits : page.lower + slotSize + aligned body.length ≤ page.upper) :
    Appended page (page.grownBy body) body := by
  have count := wellFormed.lower_eq
  obtain ⟨header, directory, items, trailer, whole⟩ := wellFormed
  have padded := le_aligned body.length
  simp only [headerSize, slotSize, blockSize] at *
  have descriptorLength :
      (encode 2 (page.upper - aligned body.length) ++ encode 2 body.length).length = 4 := by
    simp
  refine ⟨?_, ?_, ?_, ?_, ?_, ?_⟩
  · rw [lower, grownBy, word_setWord_of_disjoint, word_setWord, Nat.mod_eq_of_lt]
    · simp only [slotSize, wordBound_two]
      omega
    all_goals decide
  · rw [upper, grownBy, word_setWord, Nat.mod_eq_of_lt]
    · simp only [wordBound_two]
      omega
    · decide
  · refine (agreesOn_write _ (Or.inr ?_)).trans ((agreesOn_write _ (Or.inr ?_)).trans
      ((agreesOn_write _ (Or.inl ?_)).trans (agreesOn_write _ (Or.inl ?_))))
    · simp
    · simp
    · omega
    · omega
  · refine (agreesOn_write _ (Or.inr ?_)).trans ((agreesOn_write _ (Or.inr ?_)).trans
      ((agreesOn_write _ (Or.inr ?_)).trans (agreesOn_write _ (Or.inr ?_))))
    · simp only [length_encode]
      omega
    · simp only [length_encode]
      omega
    · omega
    · rw [descriptorLength]
      omega
  · have place : slotPosition (page.slotCount + 1) = page.lower := by
      simp only [slotPosition, headerSize, slotSize]
      omega
    have written :
        (page.grownBy body).slice page.lower slotSize =
          encode 2 (page.upper - aligned body.length) ++ encode 2 body.length := by
      have behind :
          (page.grownBy body).slice page.lower slotSize =
            (page.write page.lower
              (encode 2 (page.upper - aligned body.length) ++ encode 2 body.length)).slice
                page.lower slotSize := by
        rw [grownBy, setWord, setWord, slice_write_of_disjoint, slice_write_of_disjoint,
          slice_write_of_disjoint]
        · exact Or.inl (by simp only [slotSize]; omega)
        · exact Or.inr (by simp only [length_encode]; omega)
        · exact Or.inr (by simp only [length_encode]; omega)
      have inside :
          page.lower +
              (encode 2 (page.upper - aligned body.length) ++ encode 2 body.length).length ≤
            blockSize := by
        rw [descriptorLength]
        simp only [blockSize]
        omega
      have readBack := slice_write page inside
      rw [descriptorLength] at readBack
      rw [behind, readBack]
    obtain ⟨start, length⟩ :=
      words_of_slice written (by simp only [wordBound_two]; omega)
        (by simp only [wordBound_two]; omega)
    rw [described, place, start, length]
  · rw [grownBy, setWord, setWord, slice_write_of_disjoint, slice_write_of_disjoint, slice_write]
    · simp only [blockSize]
      omega
    · simp only [length_encode]
      omega
    · simp only [length_encode]
      omega

/-- An item can be added to a well-formed page with room for its body and its
descriptor. -/
theorem append_eq
    {page : Page}
    {body : List UInt8}
    (wellFormed : page.WellFormed)
    (fits : page.lower + slotSize + aligned body.length ≤ page.upper) :
    page.append body = .ok (page.slotCount + 1, page.grownBy body) := by
  have appended := appended_grownBy wellFormed fits
  have verified := (verify_eq_ok_iff page).mpr wellFormed
  have grownVerified := (verify_eq_ok_iff _).mpr (appended.wellFormed wellFormed fits)
  obtain ⟨-, -, items, trailer, -⟩ := wellFormed
  have padded := le_aligned body.length
  have descriptorInside :
      page.lower +
          (encode 2 (page.upper - aligned body.length) ++ encode 2 body.length).length ≤
        blockSize := by
    simp only [List.length_append, length_encode, slotSize] at *
    omega
  have bodyInside : page.upper - aligned body.length + body.length ≤ blockSize := by omega
  simp only [append, verified, bind, Except.bind, require, fits, ↓reduceIte, overwrite,
    descriptorInside, bodyInside]
  rw [grownBy] at grownVerified
  simp only [grownVerified, grownBy]
  rfl

theorem append_spec
    {page : Page}
    {body : List UInt8}
    (wellFormed : page.WellFormed)
    (fits : page.lower + slotSize + aligned body.length ≤ page.upper) :
    ∃ grown,
      page.append body = .ok (page.slotCount + 1, grown) ∧ Appended page grown body :=
  ⟨_, append_eq wellFormed fits, appended_grownBy wellFormed fits⟩

theorem appendAll_singleton
    {page grown : Page}
    {slot : Nat}
    {body : List UInt8}
    (appends : page.append body = .ok (slot, grown)) :
    page.appendAll [body] = .ok grown := by
  simp only [appendAll, appends, bind, Except.bind]

section Slots

variable
  {page grown : Page}
  {body : List UInt8}
  (appended : Appended page grown body)
  (wellFormed : page.WellFormed)
  (fits : page.lower + slotSize + aligned body.length ≤ page.upper)

include appended wellFormed fits

theorem Appended.newSlot :
    grown.slot (page.slotCount + 1) =
      .ok ⟨page.upper - aligned body.length, body.length⟩ := by
  have padded := le_aligned body.length
  have trailer := wellFormed.2.2.1
  refine slot_eq_ok_iff.mpr
    ⟨appended.wellFormed wellFormed fits, by omega,
      Nat.le_of_eq (appended.slotCount wellFormed).symm, appended.descriptor.symm,
      Nat.le_of_eq appended.upper, ?_⟩
  rw [appended.special wellFormed]
  simp only
  omega

/-- The item that was added is found in the new slot. -/
theorem Appended.item : grown.item (page.slotCount + 1) = .ok body :=
  item_eq_ok_iff.mpr ⟨_, appended.newSlot wellFormed fits, appended.body.symm⟩

/-- The slots that were there stay as they were. -/
theorem Appended.slot
    {number : Nat}
    {found : Slot}
    (among : page.slot number = .ok found) :
    grown.slot number = .ok found := by
  obtain ⟨-, first, last, rfl, above, below⟩ := slot_eq_ok_iff.mp among
  have upper := appended.upper
  refine slot_eq_ok_iff.mpr
    ⟨appended.wellFormed wellFormed fits, first, ?_, (appended.described wellFormed first last).symm,
      by omega, ?_⟩
  · rw [appended.slotCount wellFormed]
    omega
  · rwa [appended.special wellFormed]

/-- So do their items. -/
theorem Appended.item_of_slot
    {number : Nat}
    {found : Slot}
    (among : page.slot number = .ok found) :
    grown.item number = page.item number := by
  have here := appended.slot wellFormed fits among
  obtain ⟨-, -, -, -, above, below⟩ := slot_eq_ok_iff.mp among
  have bound := wellFormed.2.2.2.1
  rw [item_eq_ok_iff.mpr ⟨found, here, rfl⟩, item_eq_ok_iff.mpr ⟨found, among, rfl⟩,
    slice_congr (appended.bodies.mono above (Nat.le_trans below bound))]

end Slots

end ObliviousStorage.Page

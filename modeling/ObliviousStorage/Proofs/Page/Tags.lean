import ObliviousStorage.Page.Records
import ObliviousStorage.Proofs.Page.Frames

/-!
Contract: what a page keeps when the tag in its header is replaced.

Owns: that pages which differ in the tag only have the same regions, slots and items, and where
they are well formed the same trailer and the same standing as a dummy.

Does not own: what the tag is used for.
-/

namespace ObliviousStorage.Page

open LittleEndian

/-- Two pages hold the same bytes, those of the tag aside. -/
def AgreeBesidesTag (left right : Page) : Prop :=
  ∀ position, position < 8 ∨ 12 ≤ position → left.byte position = right.byte position

theorem agreeBesidesTag_refl (page : Page) : AgreeBesidesTag page page := fun _ _ => rfl

theorem agreeBesidesTag_setTag (page : Page) (block : BlockNumber) :
    AgreeBesidesTag (page.setTag block) page := by
  intro position apart
  unfold setTag setWord
  rw [byte_write, length_encode, if_neg (by omega)]

theorem slice_setTag (page : Page) (block : BlockNumber) :
    (page.setTag block).slice 8 4 = encode 4 block.toNat := by
  have fits : 8 + (encode 4 block.toNat).length ≤ blockSize := by
    rw [length_encode]
    decide
  have written := slice_write page fits
  rwa [length_encode] at written

theorem le_headerSize : 12 ≤ headerSize := by decide

namespace AgreeBesidesTag

variable {left right : Page} (agree : AgreeBesidesTag left right)

include agree

theorem before {start stop : Nat} (below : stop ≤ 8) : AgreesOn left right start stop :=
  fun position _ inside => agree position (Or.inl (by omega))

theorem behind {start stop : Nat} (above : 12 ≤ start) : AgreesOn left right start stop :=
  fun position inside _ => agree position (Or.inr (by omega))

theorem lower : left.lower = right.lower := word_congr (agree.before (by decide))

theorem upper : left.upper = right.upper := word_congr (agree.before (by decide))

theorem special : left.special = right.special := word_congr (agree.before (by decide))

theorem isUnformatted : left.isUnformatted = right.isUnformatted := by
  unfold Page.isUnformatted
  rw [agree.upper]

theorem wellFormed : left.WellFormed ↔ right.WellFormed := by
  unfold WellFormed
  rw [agree.lower, agree.upper, agree.special]

theorem verify : left.verify = right.verify := by
  unfold Page.verify
  simp only [agree.wellFormed, agree.lower, agree.upper, agree.special]

theorem slotCount : left.slotCount = right.slotCount := by
  unfold Page.slotCount
  rw [agree.lower]

theorem region {start : Nat} (above : 12 ≤ start) (length : Nat) :
    left.region start length = right.region start length := by
  unfold Page.region
  rw [slice_congr (agree.behind above)]

theorem slot (number : Nat) : left.slot number = right.slot number := by
  have above : 12 ≤ slotPosition number :=
    Nat.le_trans le_headerSize (Nat.le_add_right headerSize _)
  unfold Page.slot
  rw [agree.verify, agree.slotCount, agree.region above, agree.upper, agree.special]

/-- Items start behind the header. -/
theorem item (number : Nat) : left.item number = right.item number := by
  unfold Page.item
  rw [agree.slot]
  cases succeeds : right.slot number with
  | error fault => rfl
  | ok found =>
      obtain ⟨wellFormed, -, -, -, above, -⟩ := slot_eq_ok_iff.mp succeeds
      have header := Nat.le_trans wellFormed.1 wellFormed.2.1
      exact agree.region (Nat.le_trans le_headerSize (Nat.le_trans header above)) found.length

theorem trailerStart : left.trailerStart = right.trailerStart := by
  unfold Page.trailerStart
  rw [agree.special]

theorem trailerSize : left.trailerSize = right.trailerSize := by
  unfold Page.trailerSize
  rw [agree.trailerStart]

section Formatted

variable (formatted : right.WellFormed)

include formatted

omit agree in
theorem trailer_above : 12 ≤ right.trailerStart := by
  obtain ⟨header, lower, upper, -, -⟩ := formatted
  have special := Nat.le_trans header (Nat.le_trans lower upper)
  exact Nat.le_min.mpr ⟨Nat.le_trans le_headerSize special, by decide⟩

theorem trailer : left.trailer = right.trailer := by
  unfold Page.trailer
  rw [agree.trailerStart, agree.trailerSize]
  exact slice_congr (agree.behind (trailer_above formatted))

theorem identity : left.identity? = right.identity? := by
  unfold identity? carriesIdentity
  rw [agree.isUnformatted, agree.trailerSize, agree.trailerStart,
    word_congr (agree.behind (trailer_above formatted))]

theorem isDummy : left.isDummy = right.isDummy := by
  unfold Page.isDummy
  rw [agree.isUnformatted, agree.identity formatted]

end Formatted

end AgreeBesidesTag

end ObliviousStorage.Page

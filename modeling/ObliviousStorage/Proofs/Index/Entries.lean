import ObliviousStorage.Index.Entry
import ObliviousStorage.Proofs.Page.Frames

/-!
Contract: reading the trailer and the entries of an index page, and what changing them
leaves as it was.

Owns: the round trip of the trailer's encoding; when a trailer or an entry can be
read; `ItemsApart`, the pages on which no two items share a byte; and the effect of
replacing a trailer or the child of one entry on such a page.

Does not own: which pages are changed, or to what.
-/

namespace ObliviousStorage

open LittleEndian

namespace Page

/-- No byte belongs to the items of two slots. -/
def ItemsApart (page : Page) : Prop :=
  ∀ first second one other position,
    page.slot first = .ok one → page.slot second = .ok other →
      one.start ≤ position → position < one.start + one.length →
        other.start ≤ position → position < other.start + other.length →
          first = second

theorem ItemsApart.congr
    {left right : Page}
    (apart : right.ItemsApart)
    (same : ∀ number, left.slot number = right.slot number) :
    left.ItemsApart := by
  intro first second one other position atFirst atSecond
  rw [same] at atFirst atSecond
  exact apart first second one other position atFirst atSecond

/-- A page with at most one slot has no two items to share a byte. -/
theorem itemsApart_of_slotCount_le
    {page : Page}
    (few : page.slotCount ≤ 1) :
    page.ItemsApart := by
  intro first second one other position atFirst atSecond _ _ _ _
  obtain ⟨-, firstLow, firstHigh, -⟩ := slot_eq_ok_iff.mp atFirst
  obtain ⟨-, secondLow, secondHigh, -⟩ := slot_eq_ok_iff.mp atSecond
  omega

/-- Items stay where they are when the bytes below the item area do. -/
theorem slot_of_agreesOn_upper
    {left right : Page}
    (wellFormed : right.WellFormed)
    (agrees : AgreesOn left right 0 right.upper)
    (number : Nat) :
    left.slot number = right.slot number :=
  slot_congr wellFormed (agrees.mono (Nat.le_refl 0) wellFormed.2.1) number

end Page

namespace Index

open Page

/-! ## Trailers -/

namespace Trailer

@[simp] theorem ofBytes_toBytes (trailer : Trailer) : ofBytes trailer.toBytes = trailer := by
  have previous : trailer.previous.toNat < wordBound 4 := trailer.previous.toNat_lt
  have next : trailer.next.toNat < wordBound 4 := trailer.next.toNat_lt
  have level : trailer.level.toNat < wordBound 4 := trailer.level.toNat_lt
  have flags : trailer.flags.toNat < wordBound 2 := trailer.flags.toNat_lt
  have offset : trailer.placedOffset.toNat < wordBound 4 := trailer.placedOffset.toNat_lt
  have depth : trailer.placedDepth.toNat < wordBound 4 := trailer.placedDepth.toNat_lt
  simp only [ofBytes, toBytes, List.append_assoc]
  simp (disch := first | assumption | decide) only
    [field_after_encode, field_encode_append, field_encode, Nat.reduceSub,
      UInt32.ofNat_toNat, UInt16.ofNat_toNat]

theorem read_eq_ok_iff
    {page : Page}
    {trailer : Trailer} :
    Trailer.read page = .ok trailer ↔
      page.WellFormed ∧ page.special = blockSize - size ∧ trailer = ofBytes page.trailer := by
  simp only [Trailer.read, bind_eq_ok_iff, require_eq_ok_iff, pure, Except.pure, Except.ok.injEq]
  constructor
  · intro holds
    rcases holds with ⟨_, verified, _, width, rfl⟩
    have wellFormed := (verify_eq_ok_iff page).mp verified
    have bound := wellFormed.2.2.2.1
    refine ⟨wellFormed, ?_, rfl⟩
    simp only [trailerSize, trailerStart, size, blockSize] at *
    omega
  · intro holds
    rcases holds with ⟨wellFormed, start, rfl⟩
    refine ⟨⟨⟩, (verify_eq_ok_iff page).mpr wellFormed, ⟨⟩, ?_, rfl⟩
    simp only [trailerSize, trailerStart, size, blockSize] at *
    omega

/-- A page has the trailer of one that it agrees with in the header and behind the item
area. -/
theorem read_of_header
    {page changed : Page}
    {trailer : Trailer}
    (header : AgreesOn changed page 0 headerSize)
    (behind : AgreesOn changed page page.special blockSize)
    (read : Trailer.read page = .ok trailer) :
    Trailer.read changed = .ok trailer := by
  obtain ⟨wellFormed, start, rfl⟩ := read_eq_ok_iff.mp read
  have special := special_congr header
  refine read_eq_ok_iff.mpr ⟨(wellFormed_congr header).mpr wellFormed, special.trans start, ?_⟩
  have place : changed.trailerStart = page.trailerStart := by
    rw [trailerStart, trailerStart, special]
  have width : changed.trailerSize = page.trailerSize := by
    rw [Page.trailerSize, Page.trailerSize, place]
  have same : changed.slice page.trailerStart page.trailerSize = page.trailer := by
    refine slice_congr (behind.mono ?_ ?_)
    · have bound := wellFormed.2.2.2.1
      simp only [trailerStart]
      omega
    · simp only [Page.trailerSize, trailerStart]
      omega
  rw [Page.trailer.eq_def changed, place, width, same]

theorem read_of_agreesOn
    {page changed : Page}
    {trailer : Trailer}
    (directory : AgreesOn changed page 0 page.upper)
    (behind : AgreesOn changed page page.special blockSize)
    (read : Trailer.read page = .ok trailer) :
    Trailer.read changed = .ok trailer := by
  obtain ⟨lower, upper, -⟩ := (read_eq_ok_iff.mp read).1
  exact read_of_header (directory.mono (Nat.le_refl 0) (Nat.le_trans lower upper)) behind read

section Write

variable {page changed : Page} {trailer replacing : Trailer}

/-- The page whose trailer was read with another one in its place. -/
theorem write_of_read (read : Trailer.read page = .ok trailer) :
    replacing.write page = .ok (page.write (blockSize - size) replacing.toBytes) := by
  obtain ⟨wellFormed, start, -⟩ := read_eq_ok_iff.mp read
  have width : page.trailerSize = size := by
    simp only [trailerSize, trailerStart, start, size, blockSize]
    omega
  have place : page.trailerStart = blockSize - size := by
    simp only [trailerStart, start, size, blockSize]
    omega
  rw [Trailer.write, width, require, if_pos rfl]
  simp only [bind, Except.bind, pure, Except.pure, setTrailer, width, place]
  rw [List.take_of_length_le (by simp)]

theorem exists_write_of_read
    (replacing : Trailer)
    (read : Trailer.read page = .ok trailer) :
    ∃ changed, replacing.write page = .ok changed :=
  ⟨_, write_of_read read⟩

theorem agreesOn_of_write
    (read : Trailer.read page = .ok trailer)
    (written : replacing.write page = .ok changed) :
    AgreesOn changed page 0 page.special := by
  rw [write_of_read read] at written
  have same : page.write (blockSize - size) replacing.toBytes = changed := by simpa using written
  rw [← same, (read_eq_ok_iff.mp read).2.1]
  exact agreesOn_write page (Or.inl (Nat.le_refl _))

/-- A trailer that was written is read back. -/
theorem read_of_write
    (read : Trailer.read page = .ok trailer)
    (written : replacing.write page = .ok changed) :
    Trailer.read changed = .ok replacing := by
  obtain ⟨wellFormed, start, -⟩ := read_eq_ok_iff.mp read
  have agrees := agreesOn_of_write read written
  have header : AgreesOn changed page 0 headerSize := by
    apply agrees.mono (Nat.le_refl 0)
    rw [start]
    decide
  rw [write_of_read read] at written
  have same : page.write (blockSize - size) replacing.toBytes = changed := by simpa using written
  have special : changed.special = blockSize - size := (special_congr header).trans start
  refine read_eq_ok_iff.mpr ⟨(wellFormed_congr header).mpr wellFormed, special, ?_⟩
  have place : changed.trailerStart = blockSize - size := by
    simp only [trailerStart, special, size, blockSize]
    omega
  have width : changed.trailerSize = replacing.toBytes.length := by
    simp only [trailerSize, place, length_toBytes, size, blockSize]
  have fits : blockSize - size + replacing.toBytes.length ≤ blockSize := by
    rw [length_toBytes]
    decide
  rw [Page.trailer, place, width, ← same, slice_write page fits, ofBytes_toBytes]

end Write

end Trailer

/-! ## Entries -/

namespace Entry

theorem read_eq_ok_iff
    {page : Page}
    {slot : Nat}
    {entry : Entry} :
    Entry.read page slot = .ok entry ↔
      ∃ found, page.slot slot = .ok found ∧ found.length = size ∧
        entry = ofBytes (page.slice found.start size) := by
  simp only [Entry.read, bind_eq_ok_iff, require_eq_ok_iff, item_eq_ok_iff, pure, Except.pure,
    Except.ok.injEq]
  constructor
  · intro holds
    rcases holds with ⟨_, ⟨found, among, rfl⟩, _, width, rfl⟩
    rw [length_slice] at width
    exact ⟨found, among, width, by rw [width]⟩
  · intro holds
    rcases holds with ⟨found, among, width, rfl⟩
    exact ⟨_, ⟨found, among, rfl⟩, ⟨⟩, by rw [length_slice, width], by rw [width]⟩

/-- An entry is the same on pages that hold the same item in its slot. -/
theorem read_congr
    {left right : Page}
    {slot : Nat}
    (same : left.item slot = right.item slot) :
    Entry.read left slot = Entry.read right slot := by
  rw [Entry.read, Entry.read, same]

/-- The words of an entry that lies at a position of a page. -/
theorem ofBytes_slice (page : Page) (start : Nat) :
    ofBytes (page.slice start size) =
      ⟨(UInt64.ofNat (page.word 8 (start + 0))).toInt64,
        UInt32.ofNat (page.word 4 (start + blockPosition)),
        UInt16.ofNat (page.word 2 (start + 12))⟩ := by
  rw [ofBytes, field_slice page (by decide), field_slice page (by decide),
    field_slice page (by decide)]

/-- The block that an entry names is a word of its item. -/
theorem read_block
    {page : Page}
    {slot start : Nat}
    (among : page.slot slot = .ok ⟨start, size⟩) :
    ∃ entry,
      Entry.read page slot = .ok entry ∧
        entry.block = UInt32.ofNat (page.word 4 (start + blockPosition)) := by
  refine ⟨_, read_eq_ok_iff.mpr ⟨_, among, rfl, rfl⟩, ?_⟩
  rw [ofBytes_slice]

/-- Replacing the block that an entry holds leaves its other words. -/
theorem ofBytes_slice_write (page : Page) {start : Nat} (child : BlockNumber)
    (inside : start + size ≤ blockSize) :
    ofBytes ((page.write (start + blockPosition) (encode 4 child.toNat)).slice start size) =
      { ofBytes (page.slice start size) with block := child } := by
  have placed :
      (page.write (start + blockPosition) (encode 4 child.toNat)).word 4 (start + blockPosition) =
        child.toNat := by
    have fits : start + blockPosition + 4 ≤ blockSize := by
      simp only [size, blockPosition] at *
      omega
    have read := word_setWord page child.toNat fits
    have small : child.toNat < wordBound 4 := child.toNat_lt
    rwa [setWord, Nat.mod_eq_of_lt small] at read
  have key :
      (page.write (start + blockPosition) (encode 4 child.toNat)).word 8 (start + 0) =
        page.word 8 (start + 0) :=
    word_congr (agreesOn_write page (Or.inl (Nat.le_refl _)))
  have slot :
      (page.write (start + blockPosition) (encode 4 child.toNat)).word 2 (start + 12) =
        page.word 2 (start + 12) := by
    refine word_congr (agreesOn_write page (Or.inr ?_))
    simp only [length_encode, blockPosition]
    omega
  rw [ofBytes_slice, ofBytes_slice, placed, key, slot, UInt32.ofNat_toNat]

end Entry

/-! ## Redirecting an entry -/

section Redirect

variable {page changed : Page} {slot : Nat} {entry : Entry} {child : BlockNumber}

/-- An entry that can be read can be redirected. -/
theorem redirect_of_read
    {found : Page.Slot}
    (among : page.slot slot = .ok found)
    (width : found.length = Entry.size) :
    redirect page slot child =
      .ok (page.write (found.start + Entry.blockPosition) (encode 4 child.toNat)) := by
  obtain ⟨⟨-, -, -, special, -⟩, -, -, -, -, bound⟩ := slot_eq_ok_iff.mp among
  have inside :
      found.start + Entry.blockPosition + (encode 4 child.toNat).length ≤ blockSize := by
    simp only [length_encode, Entry.blockPosition, Entry.size] at *
    omega
  simp only [redirect, among, bind, Except.bind, require, width, ↓reduceIte, overwrite, inside]

/-- What redirecting the entry of one slot does to a page. -/
structure Redirected (page changed : Page) (slot : Nat) (child : BlockNumber) : Prop where
  /-- The header and the slot directory stay as they were. -/
  directory : AgreesOn changed page 0 page.upper
  /-- So does the trailer. -/
  trailer : AgreesOn changed page page.special blockSize
  entry : ∀ entry, Entry.read page slot = .ok entry →
    Entry.read changed slot = .ok { entry with block := child }
  others : page.ItemsApart → ∀ other, other ≠ slot → changed.item other = page.item other

theorem redirect_spec
    (child : BlockNumber)
    (read : Entry.read page slot = .ok entry) :
    ∃ changed, redirect page slot child = .ok changed ∧ Redirected page changed slot child := by
  obtain ⟨found, among, width, -⟩ := Entry.read_eq_ok_iff.mp read
  obtain ⟨wellFormed, -, -, -, above, below⟩ := slot_eq_ok_iff.mp among
  have inside : found.start + Entry.size ≤ blockSize := by
    have bound := wellFormed.2.2.2.1
    omega
  have covered :
      (encode 4 child.toNat).length + Entry.blockPosition ≤ Entry.size := by
    rw [length_encode]
    decide
  have directory :
      AgreesOn (page.write (found.start + Entry.blockPosition) (encode 4 child.toNat)) page 0
        page.upper :=
    agreesOn_write page (Or.inl (by omega))
  have sameSlots := slot_of_agreesOn_upper wellFormed directory
  refine ⟨_, redirect_of_read among width, directory, ?_, ?_, ?_⟩
  · exact agreesOn_write page (Or.inr (by omega))
  · intro entry original
    obtain ⟨sameFound, sameAmong, -, rfl⟩ := Entry.read_eq_ok_iff.mp original
    have same : sameFound = found := by
      rw [among] at sameAmong
      exact (Except.ok.inj sameAmong).symm
    subst same
    exact Entry.read_eq_ok_iff.mpr
      ⟨sameFound, (sameSlots slot).trans among, width,
        (Entry.ofBytes_slice_write page child inside).symm⟩
  · intro apart other different
    apply item_congr wellFormed (directory.mono (Nat.le_refl 0) wellFormed.2.1)
    intro elsewhere atOther position low high
    -- The byte lies in another item, so it is none of those that were replaced.
    have missed :
        ¬(found.start + Entry.blockPosition ≤ position ∧
          position < found.start + Entry.blockPosition + (encode 4 child.toNat).length ∧
            position < blockSize) := by
      intro holds
      rcases holds with ⟨from_, upTo, -⟩
      exact different
        (apart other slot elsewhere found position atOther among low high (by omega) (by omega))
    rw [byte_write, if_neg missed]

end Redirect

end Index

end ObliviousStorage

import ObliviousStorage.Index.Metapage
import ObliviousStorage.Proofs.Index.Entries
import ObliviousStorage.Proofs.Page.GuardedPages

/-!
Contract: the operations on a page of an index, told with guards.

Owns: reading and writing a trailer, reading an entry, replacing the page that it points to, and
reading the metapage; and that each of them comes to the outcome of the operation itself, whatever
the page holds.

Does not own: slots and items in general.
-/

namespace ObliviousStorage.Guarded

open LittleEndian Index

/-! ## Operations -/

def readTrailer (page : Page) : Guarded Trailer := do
  verify page
  let region ← trailerRegion page
  require (region.length = Trailer.size) (.corruptPage (.trailerSize region.length))
  let previous ← region.get page 4 0
  let next ← region.get page 4 4
  let level ← region.get page 4 8
  let flags ← region.get page 2 12
  let placedOffset ← region.get page 4 16
  let placedDepth ← region.get page 4 20
  return ⟨UInt32.ofNat previous, UInt32.ofNat next, UInt32.ofNat level, UInt16.ofNat flags,
    UInt32.ofNat placedOffset, UInt32.ofNat placedDepth⟩

/-- A page whose header is malformed is not refused, as long as its trailer is of the right size. -/
def writeTrailer (trailer : Trailer) (page : Page) : Guarded Page := do
  let region ← trailerRegion page
  require (region.length = Trailer.size) (.corruptPage (.trailerSize region.length))
  let page ← region.put page 4 0 trailer.previous.toNat
  let page ← region.put page 4 4 trailer.next.toNat
  let page ← region.put page 4 8 trailer.level.toNat
  let page ← region.put page 2 12 trailer.flags.toNat
  let page ← region.put page 2 14 0
  let page ← region.put page 4 16 trailer.placedOffset.toNat
  region.put page 4 20 trailer.placedDepth.toNat

def readEntry (page : Page) (slot : Nat) : Guarded Entry := do
  let region ← itemRegion page slot
  require (region.length = Entry.size) (.corruptPage (.entrySize slot region.length))
  let part ← region.cut 0 8
  let key ← part.copyTo page 8
  let block ← region.get page 4 Entry.blockPosition
  let record ← region.get page 2 12
  return ⟨(UInt64.ofNat (decode key)).toInt64, UInt32.ofNat block, UInt16.ofNat record⟩

def redirect (page : Page) (slot : Nat) (child : BlockNumber) : Guarded Page := do
  let region ← itemRegion page slot
  require (region.length = Entry.size) (.corruptPage (.entrySize slot region.length))
  region.put page 4 Entry.blockPosition child.toNat

/-- Whether the page is marked as a metapage with one slot; the slots are counted only if it is
marked. -/
def isMetapage (trailer : Trailer) (page : Page) : Guarded Bool :=
  if trailer.isMeta then do
    let count ← slotCount page
    return count = 1
  else
    return false

/-- Whether an item is one of a metapage; its first word is read only if it is long enough. -/
def isMetapageItem (region : Region) (page : Page) : Guarded Bool :=
  if region.length = Metapage.size then do
    let first ← region.get page 4 0
    return first = Metapage.magic
  else
    return false

def readMetapage (page : Page) : Guarded Metapage := do
  let trailer ← readTrailer page
  let marked ← isMetapage trailer page
  require (marked = true) (.corruptPage .notMetapage)
  let region ← itemRegion page 1
  let begins ← isMetapageItem region page
  require (begins = true) (.corruptPage .metapageMagic)
  let root ← region.get page 4 4
  let level ← region.get page 4 8
  return ⟨UInt32.ofNat root, UInt32.ofNat level⟩

/-! ## Agreement: trailers -/

section Trailers

variable (page : Page)

theorem readTrailer_eq : readTrailer page = safely (Trailer.read page) := by
  unfold readTrailer Trailer.read
  rw [verify_eq]
  refine safely_bind ?_
  intro _ _
  rw [trailerRegion_eq, pure_bind]
  by_cases long : (trailerAt page).length = Trailer.size
  · have whole : page.trailerSize = Trailer.size := long
    have reads :
        ∀ width position, position + width ≤ Trailer.size →
          (trailerAt page).get page width position =
            pure (page.word width (page.trailerStart + position)) :=
      fun width position within =>
        Region.get_of_le page (Nat.le_trans within (Nat.le_of_eq long.symm))
    simp (disch := decide) only [require_of long, reads, pure_bind]
    rw [require, if_pos whole]
    unfold Trailer.ofBytes Page.trailer
    rw [whole]
    simp (disch := decide) only [Page.field_slice]
    rfl
  · have short : ¬page.trailerSize = Trailer.size := long
    rw [require_not long, require, if_neg short]
    rfl

theorem writeTrailer_eq (trailer : Trailer) :
    writeTrailer trailer page = safely (trailer.write page) := by
  unfold writeTrailer Trailer.write
  rw [trailerRegion_eq, pure_bind]
  by_cases long : (trailerAt page).length = Trailer.size
  · have whole : page.trailerSize = Trailer.size := long
    -- The words are written one behind the other.
    have words :
        page.setTrailer trailer.toBytes =
          ((((((page.setWord 4 (page.trailerStart + 0) trailer.previous.toNat).setWord 4
            (page.trailerStart + 4) trailer.next.toNat).setWord 4 (page.trailerStart + 8)
              trailer.level.toNat).setWord 2 (page.trailerStart + 12)
                trailer.flags.toNat).setWord 2 (page.trailerStart + 14) 0).setWord 4
                  (page.trailerStart + 16) trailer.placedOffset.toNat).setWord 4
                    (page.trailerStart + 20) trailer.placedDepth.toNat := by
      have fits := Nat.le_of_eq (trailer.length_toBytes.trans whole.symm)
      rw [Page.setTrailer, List.take_of_length_le fits, Trailer.toBytes]
      simp only [Page.write_append, Page.setWord, List.length_append, length_encode, Nat.add_zero]
    have writes :
        ∀ (written : Page) (width position value : Nat), position + width ≤ Trailer.size →
          (trailerAt page).put written width position value =
            pure (written.setWord width (page.trailerStart + position) value) :=
      fun written width position value within =>
        Region.put_of_le written value (Nat.le_trans within (Nat.le_of_eq long.symm))
    simp (disch := decide) only [require_of long, writes, pure_bind]
    rw [require, if_pos whole, words]
    rfl
  · have short : ¬page.trailerSize = Trailer.size := long
    rw [require_not long, require, if_neg short]
    rfl

end Trailers

/-! ## Agreement: items -/

section Items

variable
  (page : Page)
  (slot : Nat)

theorem readEntry_eq : readEntry page slot = safely (Entry.read page slot) := by
  refine itemRegion_bind_item ?_
  intro region
  rw [Page.length_slice]
  by_cases long : region.length = Entry.size
  · have inside := region.inside
    have whole : region.length = 16 := long
    have key : region.start + 0 + (8 - 0) ≤ blockSize := by omega
    have block : Entry.blockPosition + 4 ≤ region.length :=
      Nat.le_trans (by decide) (Nat.le_of_eq long.symm)
    have record : 12 + 2 ≤ region.length := by omega
    rw [require_of long, pure_bind, region.cut_of_le (Nat.zero_le 8) (by omega) key, pure_bind,
      Region.copyTo, provided_of rfl, pure_bind, Region.get_of_le page block, pure_bind,
      Region.get_of_le page record, pure_bind, require, if_pos long, long]
    show _ = safely (.ok (Entry.ofBytes (page.slice region.start Entry.size)))
    rw [Entry.ofBytes_slice]
    rfl
  · rw [require_not long, require, if_neg long]
    rfl

theorem redirect_eq (child : BlockNumber) :
    redirect page slot child = safely (Index.redirect page slot child) := by
  refine itemRegion_bind ?_
  intro region _
  by_cases long : region.length = Entry.size
  · have whole : region.slot.length = Entry.size := long
    have inside := region.inside
    have block : Entry.blockPosition + 4 ≤ region.length :=
      Nat.le_trans (by decide) (Nat.le_of_eq long.symm)
    have fits :
        region.slot.start + Entry.blockPosition + (encode 4 child.toNat).length ≤ blockSize := by
      show region.start + Entry.blockPosition + (encode 4 child.toNat).length ≤ blockSize
      rw [length_encode]
      omega
    have overwrites :
        page.overwrite (region.slot.start + Entry.blockPosition) (encode 4 child.toNat) =
          .ok (page.setWord 4 (region.start + Entry.blockPosition) child.toNat) :=
      if_pos fits
    rw [require_of long, pure_bind, Region.put_of_le page _ block, require, if_pos whole,
      overwrites]
    rfl
  · have short : ¬region.slot.length = Entry.size := long
    rw [require_not long, require, if_neg short]
    rfl

theorem isMetapage_eq (trailer : Trailer) :
    isMetapage trailer page = pure (decide (trailer.isMeta ∧ page.slotCount = 1)) := by
  unfold isMetapage
  cases marked : trailer.isMeta with
  | true =>
      rw [if_pos rfl, slotCount_eq, pure_bind]
      simp
  | false => simp

theorem isMetapageItem_eq (region : Region) :
    isMetapageItem region page =
      pure
        (decide
          ((page.slice region.start region.length).length = Metapage.size ∧
            field (page.slice region.start region.length) 4 0 = Metapage.magic)) := by
  unfold isMetapageItem
  rw [Page.length_slice]
  by_cases long : region.length = Metapage.size
  · have within : 0 + 4 ≤ region.length := Nat.le_trans (by decide) (Nat.le_of_eq long.symm)
    rw [if_pos long, Region.get_of_le page within, pure_bind, Page.field_slice page within]
    simp [long]
  · simp [long]

theorem readMetapage_eq : readMetapage page = safely (Metapage.read page) := by
  unfold readMetapage Metapage.read
  rw [readTrailer_eq]
  refine safely_bind ?_
  intro trailer _
  rw [isMetapage_eq, pure_bind]
  simp only [decide_eq_true_eq]
  refine safely_bind ?_
  intro _ _
  refine itemRegion_bind_item ?_
  intro region
  rw [isMetapageItem_eq, pure_bind]
  simp only [decide_eq_true_eq]
  refine safely_bind ?_
  intro _ opens
  obtain ⟨long, -⟩ := require_eq_ok_iff.mp opens
  rw [Page.length_slice] at long
  have root : 4 + 4 ≤ region.length := Nat.le_trans (by decide) (Nat.le_of_eq long.symm)
  have level : 8 + 4 ≤ region.length := Nat.le_trans (by decide) (Nat.le_of_eq long.symm)
  rw [Region.get_of_le page root, pure_bind, Region.get_of_le page level, pure_bind]
  unfold Metapage.ofBytes
  rw [Page.field_slice page root, Page.field_slice page level]
  rfl

end Items

end ObliviousStorage.Guarded

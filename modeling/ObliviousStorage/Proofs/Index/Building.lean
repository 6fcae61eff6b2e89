import ObliviousStorage.Proofs.Index.Smallest

/-!
Contract: index pages that entries were put on one after the other.

Owns: that such a page has the trailer it was built with, where its entries lie, and that
they are read back in order and share no byte.

Does not own: which entries go on which page.
-/

namespace ObliviousStorage.Index

open LittleEndian Page

namespace Entry

@[simp] theorem ofBytes_toBytes (entry : Entry) : ofBytes entry.toBytes = entry := by
  have key : entry.key.toUInt64.toNat < wordBound 8 := entry.key.toUInt64.toNat_lt
  have block : entry.block.toNat < wordBound 4 := entry.block.toNat_lt
  have slot : entry.slot.toNat < wordBound 2 := entry.slot.toNat_lt
  simp only [ofBytes, toBytes, blockPosition, List.append_assoc]
  simp (disch := first | assumption | decide) only
    [field_after_encode, field_encode_append, Nat.reduceSub, UInt64.ofNat_toNat,
      UInt32.ofNat_toNat, UInt16.ofNat_toNat, Int64.toInt64_toUInt64]

theorem read_of_item
    {page : Page}
    {slot : Nat}
    {entry : Entry}
    (item : page.item slot = .ok entry.toBytes) :
    Entry.read page slot = .ok entry := by
  simp only [Entry.read, item, bind, Except.bind, require, length_toBytes, ↓reduceIte,
    ofBytes_toBytes]
  rfl

end Entry

/-- A page with this trailer and these entries, in the slots from the first on: their
bodies lie one below the other, the first one below the trailer. -/
structure BuiltOf (page : Page) (trailer : Trailer) (entries : List Entry) : Prop where
  read : Trailer.read page = .ok trailer
  slotCount : page.slotCount = entries.length
  upper : page.upper + Entry.size * entries.length = blockSize - Trailer.size
  slots :
    ∀ index, index < entries.length →
      page.slot (index + 1) =
        .ok ⟨blockSize - Trailer.size - Entry.size * (index + 1), Entry.size⟩
  items :
    ∀ index entry, entries[index]? = some entry → page.item (index + 1) = .ok entry.toBytes

theorem builtOf_emptyPage (trailer : Trailer) : BuiltOf trailer.emptyPage trailer [] where
  read := trailer.read_emptyPage
  slotCount := trailer.slotCount_emptyPage
  upper := by rw [trailer.pointers_emptyPage.2.1, List.length_nil, Nat.mul_zero, Nat.add_zero]
  slots index inside := absurd inside (Nat.not_lt_zero index)
  items index entry among := by simp at among

namespace BuiltOf

variable
  {page : Page}
  {trailer : Trailer}
  {entries : List Entry}

theorem entry
    (built : BuiltOf page trailer entries)
    {index : Nat}
    {entry : Entry}
    (among : entries[index]? = some entry) :
    Entry.read page (index + 1) = .ok entry :=
  Entry.read_of_item (built.items index entry among)

/-- No two items of the page share a byte. -/
theorem apart (built : BuiltOf page trailer entries) : page.ItemsApart := by
  have place :
      ∀ number found, page.slot number = .ok found →
        1 ≤ number ∧ found.start + Entry.size * number = blockSize - Trailer.size ∧
          found.length = Entry.size := by
    intro number found among
    obtain ⟨-, first, last, -, -, -⟩ := slot_eq_ok_iff.mp among
    have below := built.upper
    rw [built.slotCount] at last
    have here := built.slots (number - 1) (by omega)
    rw [Nat.sub_add_cancel first] at here
    obtain rfl := Except.ok.inj (among.symm.trans here)
    refine ⟨first, ?_, rfl⟩
    simp only [Entry.size, blockSize, Trailer.size] at below ⊢
    omega
  intro first second one other position atFirst atSecond oneLow oneHigh otherLow otherHigh
  have onePlace := place first one atFirst
  have otherPlace := place second other atSecond
  simp only [Entry.size] at onePlace otherPlace
  omega

/-- A page has room for one more entry as long as its entries and their descriptors leave
so many bytes. -/
theorem fits
    (built : BuiltOf page trailer entries)
    (room : (entries.length + 1) * (slotSize + Entry.size) ≤ blockSize - headerSize - Trailer.size) :
    page.lower + slotSize + aligned Entry.size ≤ page.upper := by
  have lower := (Trailer.read_eq_ok_iff.mp built.read).1.lower_eq
  have upper := built.upper
  rw [built.slotCount] at lower
  have whole : aligned Entry.size = Entry.size := rfl
  rw [whole]
  simp only [headerSize, slotSize, Entry.size, Trailer.size, blockSize] at *
  omega

/-- One more entry goes to the slot behind those that are there. -/
theorem append
    (built : BuiltOf page trailer entries)
    (entry : Entry)
    (room : (entries.length + 1) * (slotSize + Entry.size) ≤ blockSize - headerSize - Trailer.size) :
    page.append entry.toBytes = .ok (page.slotCount + 1, page.grownBy entry.toBytes) ∧
      BuiltOf (page.grownBy entry.toBytes) trailer (entries ++ [entry]) := by
  have wellFormed := (Trailer.read_eq_ok_iff.mp built.read).1
  have fits : page.lower + slotSize + aligned entry.toBytes.length ≤ page.upper := by
    rw [Entry.length_toBytes]
    exact built.fits room
  have appended := appended_grownBy wellFormed fits
  have count := built.slotCount
  have before := built.upper
  have body : aligned entry.toBytes.length = Entry.size := by rw [Entry.length_toBytes]; rfl
  refine ⟨append_eq wellFormed fits, ?_⟩
  exact
    { read := Trailer.read_appended built.read appended fits
      slotCount := by
        rw [appended.slotCount wellFormed, count, List.length_append, List.length_singleton]
      upper := by
        have lower := appended.upper
        rw [body] at lower fits
        rw [List.length_append, List.length_singleton, Nat.mul_succ]
        omega
      slots := by
        intro index inside
        rw [List.length_append, List.length_singleton] at inside
        rcases Nat.lt_succ_iff_lt_or_eq.mp inside with earlier | rfl
        · exact appended.slot wellFormed fits (built.slots index earlier)
        · have newest := appended.newSlot wellFormed fits
          have start :
              page.upper - Entry.size =
                blockSize - Trailer.size - Entry.size * (entries.length + 1) := by
            simp only [Entry.size, blockSize, Trailer.size] at before ⊢
            omega
          rw [body, Entry.length_toBytes, count, start] at newest
          exact newest
      items := by
        intro index other among
        rcases Nat.lt_or_ge index entries.length with earlier | last
        · rw [List.getElem?_append_left earlier] at among
          rw [appended.item_of_slot wellFormed fits (built.slots index earlier)]
          exact built.items index other among
        · rw [List.getElem?_append_right last] at among
          obtain ⟨inside, rfl⟩ := List.getElem?_eq_some_iff.mp among
          rw [List.length_singleton] at inside
          have newest : index + 1 = page.slotCount + 1 := by omega
          rw [newest, List.getElem_singleton]
          exact appended.item wellFormed fits }

end BuiltOf

/-- The page with this trailer on which these entries were put. -/
def entryPage (trailer : Trailer) (entries : List Entry) : Page :=
  entries.foldl (fun page entry => page.grownBy entry.toBytes) trailer.emptyPage

theorem appendAll_builtOf
    {page : Page}
    {trailer : Trailer}
    {before : List Entry}
    (entries : List Entry)
    (built : BuiltOf page trailer before)
    (room :
      (before.length + entries.length) * (slotSize + Entry.size) ≤
        blockSize - headerSize - Trailer.size) :
    page.appendAll (entries.map Entry.toBytes) =
        .ok (entries.foldl (fun page entry => page.grownBy entry.toBytes) page) ∧
      BuiltOf (entries.foldl (fun page entry => page.grownBy entry.toBytes) page) trailer
        (before ++ entries) := by
  induction entries generalizing page before with
  | nil => exact ⟨rfl, by simpa using built⟩
  | cons entry rest inductionHypothesis =>
      rw [List.length_cons] at room
      obtain ⟨appends, grown⟩ := built.append entry (by
        refine Nat.le_trans (Nat.mul_le_mul_right _ ?_) room
        omega)
      obtain ⟨later, all⟩ := inductionHypothesis grown (by
        rw [List.length_append, List.length_singleton]
        refine Nat.le_trans (Nat.mul_le_mul_right _ ?_) room
        omega)
      rw [List.append_assoc, List.singleton_append] at all
      rw [List.foldl_cons]
      refine ⟨?_, all⟩
      simp only [List.map_cons, Page.appendAll, appends, bind, Except.bind]
      exact later

/-- As many entries as there is room for can be put on a page, and are read back. -/
theorem pageOf_builtOf
    (trailer : Trailer)
    (entries : List Entry)
    (room :
      entries.length * (slotSize + Entry.size) ≤ blockSize - headerSize - Trailer.size) :
    trailer.pageOf entries = .ok (entryPage trailer entries) ∧
      BuiltOf (entryPage trailer entries) trailer entries :=
  appendAll_builtOf entries (builtOf_emptyPage trailer) (by simpa using room)

end ObliviousStorage.Index

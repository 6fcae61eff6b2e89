import ObliviousStorage.Proofs.Index.Placing
import ObliviousStorage.Proofs.Page.Appending

/-!
Contract: index pages as they are built, and the smallest indexes built from them: a
metapage and a root that is a leaf with one entry.

Owns: that the trailer of a page with an item added is the one it was built with, that a
metapage is read back, and that an index of one entry can be measured and has no
overlapping items.

Does not own: indexes of more pages.
-/

namespace ObliviousStorage.Index

open LittleEndian Page StorageM StorageView

/-! ## Pages as they are built -/

namespace Trailer

theorem pointers_emptyPage (trailer : Trailer) :
    trailer.emptyPage.lower = headerSize ∧
      trailer.emptyPage.upper = blockSize - size ∧
        trailer.emptyPage.special = blockSize - size := by
  obtain ⟨lower, upper, special⟩ := pointers_formatted (Nat.sub_le blockSize size)
  have header : AgreesOn trailer.emptyPage (formatted (blockSize - size)) 0 headerSize :=
    agreesOn_write _ (Or.inl (by decide))
  exact
    ⟨(lower_congr header).trans lower, (upper_congr header).trans upper,
      (special_congr header).trans special⟩

theorem wellFormed_emptyPage (trailer : Trailer) : trailer.emptyPage.WellFormed := by
  obtain ⟨lower, upper, special⟩ := trailer.pointers_emptyPage
  rw [WellFormed, lower, upper, special]
  decide

theorem slotCount_emptyPage (trailer : Trailer) : trailer.emptyPage.slotCount = 0 := by
  rw [slotCount, trailer.pointers_emptyPage.1, Nat.sub_self, Nat.zero_div]

theorem read_emptyPage (trailer : Trailer) : Trailer.read trailer.emptyPage = .ok trailer := by
  have special := trailer.pointers_emptyPage.2.2
  refine read_eq_ok_iff.mpr ⟨trailer.wellFormed_emptyPage, special, ?_⟩
  have place : trailer.emptyPage.trailerStart = blockSize - size := by
    rw [trailerStart, special]
    decide
  have width : trailer.emptyPage.trailerSize = trailer.toBytes.length := by
    rw [trailerSize, place, length_toBytes]
    decide
  have fits : blockSize - size + trailer.toBytes.length ≤ blockSize := by
    rw [length_toBytes]
    decide
  rw [Page.trailer, place, width, emptyPage, slice_write _ fits, ofBytes_toBytes]

/-- Adding an item leaves the trailer as it was. -/
theorem read_appended
    {page grown : Page}
    {body : List UInt8}
    {trailer : Trailer}
    (read : Trailer.read page = .ok trailer)
    (appended : Appended page grown body)
    (fits : page.lower + slotSize + aligned body.length ≤ page.upper) :
    Trailer.read grown = .ok trailer := by
  obtain ⟨wellFormed, special, rfl⟩ := read_eq_ok_iff.mp read
  have same := appended.special wellFormed
  refine read_eq_ok_iff.mpr ⟨appended.wellFormed wellFormed fits, same.trans special, ?_⟩
  have start : grown.trailerStart = page.trailerStart := by rw [trailerStart, same, trailerStart]
  have behind : page.upper ≤ page.trailerStart := by
    have items := wellFormed.2.2.1
    have inside := wellFormed.2.2.2.1
    rw [trailerStart]
    omega
  have whole : page.trailerStart + page.trailerSize ≤ blockSize := by
    rw [trailerSize, trailerStart]
    omega
  have width : grown.trailerSize = page.trailerSize := by rw [trailerSize, start, trailerSize]
  rw [Page.trailer, Page.trailer, start, width, slice_congr (appended.bodies.mono behind whole)]

end Trailer

/-- A page built from a trailer and one item. -/
def builtPage (trailer : Trailer) (body : List UInt8) : Page := trailer.emptyPage.grownBy body

section Built

variable {body : List UInt8} (trailer : Trailer)

theorem fits_emptyPage (short : body.length ≤ Entry.size) :
    trailer.emptyPage.lower + slotSize + aligned body.length ≤ trailer.emptyPage.upper := by
  obtain ⟨lower, upper, -⟩ := trailer.pointers_emptyPage
  rw [lower, upper]
  simp only [aligned, headerSize, slotSize, Entry.size, alignment, blockSize, Trailer.size] at *
  omega

theorem appended_builtPage (short : body.length ≤ Entry.size) :
    Appended trailer.emptyPage (builtPage trailer body) body :=
  appended_grownBy trailer.wellFormed_emptyPage (fits_emptyPage trailer short)

theorem appendAll_emptyPage (short : body.length ≤ Entry.size) :
    trailer.emptyPage.appendAll [body] = .ok (builtPage trailer body) :=
  appendAll_singleton (append_eq trailer.wellFormed_emptyPage (fits_emptyPage trailer short))

theorem read_builtPage (short : body.length ≤ Entry.size) :
    Trailer.read (builtPage trailer body) = .ok trailer :=
  Trailer.read_appended trailer.read_emptyPage (appended_builtPage trailer short)
    (fits_emptyPage trailer short)

theorem slotCount_builtPage (short : body.length ≤ Entry.size) :
    (builtPage trailer body).slotCount = 1 := by
  rw [(appended_builtPage trailer short).slotCount trailer.wellFormed_emptyPage,
    trailer.slotCount_emptyPage]

theorem item_builtPage (short : body.length ≤ Entry.size) :
    (builtPage trailer body).item 1 = .ok body := by
  have item :=
    (appended_builtPage trailer short).item trailer.wellFormed_emptyPage
      (fits_emptyPage trailer short)
  rwa [trailer.slotCount_emptyPage] at item

end Built

namespace Metapage

@[simp] theorem ofBytes_toBytes (metapage : Metapage) : ofBytes metapage.toBytes = metapage := by
  have root : metapage.root.toNat < wordBound 4 := metapage.root.toNat_lt
  have level : metapage.level.toNat < wordBound 4 := metapage.level.toNat_lt
  simp only [ofBytes, toBytes, List.append_assoc]
  simp (disch := first | assumption | decide) only
    [field_after_encode, field_encode_append, field_encode, Nat.reduceSub, UInt32.ofNat_toNat]

def page (metapage : Metapage) : Page :=
  builtPage (Trailer.unplaced noSibling noSibling 0 Trailer.metaFlag) metapage.toBytes

theorem short_toBytes (metapage : Metapage) : metapage.toBytes.length ≤ Entry.size := by
  rw [length_toBytes]
  decide

theorem toPage_eq (metapage : Metapage) : metapage.toPage = .ok metapage.page := by
  rw [toPage]
  exact appendAll_emptyPage _ metapage.short_toBytes

theorem slotCount_page (metapage : Metapage) : metapage.page.slotCount = 1 :=
  slotCount_builtPage _ metapage.short_toBytes

/-- A metapage that was built is read back. -/
theorem read_page (metapage : Metapage) : Metapage.read metapage.page = .ok metapage := by
  have short := metapage.short_toBytes
  have opening : field metapage.toBytes 4 0 = magic := by
    rw [toBytes, List.append_assoc, field_encode_append (by decide)]
  have role :
      (Trailer.unplaced noSibling noSibling 0 Trailer.metaFlag).isMeta = true := rfl
  have returned : (pure (ofBytes metapage.toBytes) : Except Fault Metapage) = .ok metapage := by
    rw [ofBytes_toBytes]
    rfl
  rw [Metapage.read]
  exact bind_eq_ok_iff.mpr ⟨_, read_builtPage _ short, bind_eq_ok_iff.mpr
    ⟨⟨⟩, require_eq_ok_iff.mpr ⟨role, slotCount_builtPage _ short⟩, bind_eq_ok_iff.mpr
      ⟨_, item_builtPage _ short, bind_eq_ok_iff.mpr
        ⟨⟨⟩, require_eq_ok_iff.mpr ⟨metapage.length_toBytes, opening⟩, returned⟩⟩⟩⟩

end Metapage

/-! ## Indexes of one entry -/

/-- The trailer of a root that is a leaf. -/
def rootLeafTrailer : Trailer :=
  .unplaced noSibling noSibling 0 (Trailer.leafFlag ||| Trailer.rootFlag)

def rootLeaf (entry : Entry) : Page := builtPage rootLeafTrailer entry.toBytes

/-- The blocks of an index of one entry. -/
def smallestIndex (entry : Entry) : List Page := [Metapage.page ⟨1, 0⟩, rootLeaf entry]

section Smallest

variable
  {held : Contents}
  {index : RelationId}
  {entry : Entry}
  {blank : Page}

theorem short_entry (entry : Entry) : entry.toBytes.length ≤ Entry.size :=
  Nat.le_of_eq entry.length_toBytes

/-- An index of one entry can be walked over, and its shape is that of a single page. -/
theorem wholeTrail_smallest (present : held index = some ⟨smallestIndex entry, blank⟩) :
    ∃ placements, WholeTrail (Held held index) .measure placements ⟨[], 0⟩ := by
  have fetched : Held held index metapageBlock (Metapage.page ⟨1, 0⟩) :=
    Contents.page_of_some present rfl
  have fetchedRoot : Held held index 1 (rootLeaf entry) := Contents.page_of_some present rfl
  have slots : rootLeafTrailer.dataSlots (rootLeaf entry) = [1] := by
    rw [Trailer.dataSlots, rootLeaf, slotCount_builtPage _ (short_entry entry)]
    rfl
  have isLeaf : rootLeafTrailer.isLeaf = true := by decide
  have inPlace : (Pending.ofRoot 1).checkPlace 0 rootLeafTrailer = .ok () := by decide
  have visits :
      LevelTally.start.visit .measure 0 (.ofRoot 1) (rootLeaf entry) =
        .ok ⟨rootLeafTrailer, 1, [], rootLeaf entry⟩ :=
    LevelTally.visit_eq_ok_iff.mpr
      ⟨read_builtPage _ (short_entry entry), inPlace, rfl, by rw [slots]; rfl, rootLeaf entry,
        if_pos isLeaf, rfl⟩
  have advances :
      LevelTally.start.advance (.ofRoot 1) ⟨rootLeafTrailer, 1, [], rootLeaf entry⟩ =
        .ok ⟨[], 1, 0, 0, 0, 0, none⟩ := by
    simp [LevelTally.advance, LevelTally.start, Pending.ofRoot, isLeaf]
  exact
    ⟨_, .intro fetched (Metapage.read_page _) (.visited fetchedRoot visits advances (.ended _))⟩

theorem innerItemsApart_smallest (present : held index = some ⟨smallestIndex entry, blank⟩) :
    InnerItemsApart held index := by
  refine innerItemsApart_of_pages present fun page member _ _ _ => ?_
  refine itemsApart_of_slotCount_le (Nat.le_of_eq ?_)
  rcases List.mem_pair.mp member with rfl | rfl
  · exact Metapage.slotCount_page _
  · exact slotCount_builtPage _ (short_entry entry)

end Smallest

end ObliviousStorage.Index

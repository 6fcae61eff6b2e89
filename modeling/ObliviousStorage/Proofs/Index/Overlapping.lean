import ObliviousStorage.Proofs.Index.TwoLevels

/-!
Contract: an index of two levels whose root keeps its two links in bytes that they share.

Owns: what the links of this root are, before and after the first of them is replaced; and
that the index can be walked over.

Does not own: what a relocation makes of it.
-/

namespace ObliviousStorage.Index

open LittleEndian Page StorageView

/-- The page with the item of the second slot moved to the byte before that of the first
one, on a page with two entries. -/
def overlapped (page : Page) : Page := page.setWord 2 (slotPosition 2) 8151

section Overlapped

variable
  {page : Page}
  {first second : Entry}
  (built : BuiltOf page rootTrailer [first, second])

include built

theorem pointers_of_two : page.upper = 8136 ∧ page.special = 8168 := by
  have upper := built.upper
  simp only [Entry.size, List.length_cons, List.length_nil, blockSize, Trailer.size] at upper
  exact ⟨by omega, (Trailer.read_eq_ok_iff.mp built.read).2.1⟩

omit built in
theorem header_overlapped : AgreesOn (overlapped page) page 0 headerSize :=
  agreesOn_write _ (Or.inl (by decide))

omit built in
theorem items_overlapped : AgreesOn (overlapped page) page 8136 blockSize :=
  agreesOn_write _ (Or.inr (by decide))

theorem read_overlapped : Trailer.read (overlapped page) = .ok rootTrailer := by
  refine Trailer.read_of_header header_overlapped ?_ built.read
  rw [(pointers_of_two built).2]
  exact items_overlapped.mono (by decide) (Nat.le_refl _)

theorem slotCount_overlapped : (overlapped page).slotCount = 2 :=
  (slotCount_congr header_overlapped).trans built.slotCount

/-- A slot that describes bytes of the item area is followed. -/
theorem slot_overlapped
    {number start : Nat}
    (low : 1 ≤ number)
    (high : number ≤ 2)
    (described : (overlapped page).described number = ⟨start, Entry.size⟩)
    (above : 8136 ≤ start)
    (below : start + Entry.size ≤ 8168) :
    (overlapped page).slot number = .ok ⟨start, Entry.size⟩ := by
  obtain ⟨upper, special⟩ := pointers_of_two built
  refine slot_eq_ok_iff.mpr
    ⟨(Trailer.read_eq_ok_iff.mp (read_overlapped built)).1, low, ?_, described.symm, ?_, ?_⟩
  · rwa [slotCount_overlapped built]
  · rwa [upper_congr header_overlapped, upper]
  · rwa [special_congr header_overlapped, special]

theorem firstSlot_overlapped : (overlapped page).slot 1 = .ok ⟨8152, Entry.size⟩ := by
  obtain ⟨-, -, -, described, -, -⟩ := slot_eq_ok_iff.mp (built.slots 0 (by simp))
  refine slot_overlapped built (by decide) (by decide) ?_ (by decide) (by decide)
  rw [Page.described, overlapped, word_setWord_of_disjoint _ _ (by decide),
    word_setWord_of_disjoint _ _ (by decide)]
  exact described.symm

theorem secondSlot_overlapped : (overlapped page).slot 2 = .ok ⟨8151, Entry.size⟩ := by
  obtain ⟨-, -, -, described, -, -⟩ := slot_eq_ok_iff.mp (built.slots 1 (by simp))
  have length : page.word 2 (slotPosition 2 + 2) = Entry.size :=
    (congrArg Slot.length described).symm
  refine slot_overlapped built (by decide) (by decide) ?_ (by decide) (by decide)
  rw [Page.described, overlapped, word_setWord _ _ (by decide),
    word_setWord_of_disjoint _ _ (by decide), length]
  rfl

/-- The bytes of the first entry are those that were put on the page. -/
theorem slice_overlapped : (overlapped page).slice 8152 Entry.size = first.toBytes := by
  obtain ⟨found, slot, bytes⟩ := item_eq_ok_iff.mp (built.items 0 first rfl)
  obtain rfl := Except.ok.inj (slot.symm.trans (built.slots 0 (by simp)))
  rw [slice_congr (items_overlapped.mono (by decide) (by decide))]
  exact bytes.symm

/-- Words that lie in the item of the first slot are fields of the first entry. -/
theorem word_overlapped
    {width position : Nat}
    (inside : position + width ≤ Entry.size) :
    (overlapped page).word width (8152 + position) = field first.toBytes width position := by
  rw [← slice_overlapped built, field_slice _ inside]

end Overlapped

/-! ## Links -/

section Links

variable
  {page : Page}
  {second : Entry}
  (built : BuiltOf page rootTrailer [⟨0, 2, 0⟩, second])

include built

theorem firstLink_overlapped :
    ∃ entry, Entry.read (overlapped page) 1 = .ok entry ∧ entry.block = 2 := by
  obtain ⟨entry, reads, block⟩ := Entry.read_block (firstSlot_overlapped built)
  refine ⟨entry, reads, ?_⟩
  rw [block, word_overlapped built (by decide)]
  rfl

/-- The second link lies one byte ahead of the first. -/
theorem secondWord_overlapped : (overlapped page).word 4 8159 = 512 := by
  have ahead : (overlapped page).word 4 (8152 + 7) = field (Entry.toBytes ⟨0, 2, 0⟩) 4 7 :=
    word_overlapped built (by decide)
  exact ahead.trans (by decide)

theorem secondLink_overlapped :
    ∃ entry, Entry.read (overlapped page) 2 = .ok entry ∧ entry.block = 512 := by
  obtain ⟨entry, reads, block⟩ := Entry.read_block (secondSlot_overlapped built)
  exact ⟨entry, reads, block.trans (congrArg UInt32.ofNat (secondWord_overlapped built))⟩

/-- Of the second link, replacing the first one by zero leaves a byte that is zero. -/
theorem secondWord_redirected : ((overlapped page).write 8160 (encode 4 0)).word 4 8159 = 0 := by
  have kept :
      ((overlapped page).write 8160 (encode 4 0)).byte 8159 = (overlapped page).byte 8159 := by
    rw [byte_write, if_neg (by decide)]
  have replaced : ((overlapped page).write 8160 (encode 4 0)).word 3 8160 = 0 := by
    have written :
        ((overlapped page).write 8160 (encode 4 0)).slice 8160 4 = encode 4 0 :=
      slice_write _ (by decide)
    have inside :
        field (((overlapped page).write 8160 (encode 4 0)).slice 8160 4) 3 0 =
          ((overlapped page).write 8160 (encode 4 0)).word 3 8160 :=
      field_slice _ (by decide)
    rw [← inside, written]
    decide
  have before := secondWord_overlapped built
  have bound := ((overlapped page).byte 8159).toNat_lt
  rw [word_succ] at before
  rw [word_succ, kept, replaced]
  omega

/-- So on the page where the first link was replaced, the second one is another. -/
theorem secondLink_redirected :
    ∃ linked,
      redirect (overlapped page) 1 0 = .ok linked ∧
        ∃ entry, Entry.read linked 2 = .ok entry ∧ entry.block = 0 := by
  have wellFormed := (Trailer.read_eq_ok_iff.mp (read_overlapped built)).1
  have upper : (overlapped page).upper = 8136 :=
    (upper_congr header_overlapped).trans (pointers_of_two built).1
  have directory :
      AgreesOn ((overlapped page).write 8160 (encode 4 0)) (overlapped page) 0
        (overlapped page).upper := by
    rw [upper]
    exact agreesOn_write _ (Or.inl (by decide))
  have among := (slot_of_agreesOn_upper wellFormed directory 2).trans (secondSlot_overlapped built)
  obtain ⟨entry, reads, block⟩ := Entry.read_block among
  exact
    ⟨_, redirect_of_read (firstSlot_overlapped built) rfl, entry, reads,
      block.trans (congrArg UInt32.ofNat (secondWord_redirected built))⟩

/-- A relocation that collects the links of this page goes on to block zero. -/
theorem zero_of_adopts
    {pending : Pending}
    {adopted : Page}
    {children : List Pending}
    (adopts : pending.adopt .relocate [1, 2] 0 (overlapped page) = .ok (children, adopted)) :
    ∃ child ∈ children, child.block = 0 := by
  obtain ⟨replaced, redirects, second, readsSecond, block⟩ := secondLink_redirected built
  simp only [Pending.adopt, WalkMode.relink, bind_eq_ok_iff, pure, Except.pure, Except.ok.injEq,
    Prod.mk.injEq, Prod.exists] at adopts
  obtain ⟨_, _, linked, redirects', _, _, others, _,
    ⟨entry, reads, _, _, _, _, _, _, _, collected, _⟩, result, _⟩ := adopts
  obtain rfl : linked = replaced := Except.ok.inj (redirects'.symm.trans redirects)
  obtain rfl : entry = second := Except.ok.inj (reads.symm.trans readsSecond)
  refine ⟨⟨some pending.block, 2, entry.block, pending.depth + 1⟩, ?_, block⟩
  rw [← result, ← collected]
  simp

end Links

/-! ## The index -/

/-- The root of an index of two levels, with links that overlap. -/
def overlappingRoot : Page := overlapped twoLevelRoot

/-- The blocks of an index of two levels with this root. -/
def overlappingIndex : List Page :=
  [Metapage.page ⟨1, 1⟩, overlappingRoot, (leafTrailer noSibling 512).emptyPage] ++
    List.replicate 509 Page.zero ++ [(leafTrailer 2 noSibling).emptyPage]

/-- A store in memory that holds such an index as its first relation. -/
def overlappingStore : MemoryStorage := ⟨blockSize, #[overlappingIndex.toArray]⟩

theorem contents_overlappingStore :
    contents overlappingStore 1 = some ⟨overlappingIndex, Page.zero⟩ := rfl

/-- The last block is the right leaf. -/
theorem overlappingIndex_last :
    overlappingIndex[512]? = some (leafTrailer 2 noSibling).emptyPage := by
  rw [overlappingIndex, List.getElem?_append_right (by
    simp only [List.length_append, List.length_replicate, List.length_cons, List.length_nil]
    decide)]
  simp only [List.length_append, List.length_replicate, List.length_cons, List.length_nil]
  rfl

theorem linkedLeaves_overlappingStore :
    LinkedLeaves ((contents overlappingStore).page 1) overlappingRoot
      (leafTrailer noSibling 512).emptyPage (leafTrailer 2 noSibling).emptyPage 512 where
  opens := Contents.page_of_some contents_overlappingStore rfl
  atRoot := Contents.page_of_some contents_overlappingStore rfl
  atLeft := Contents.page_of_some contents_overlappingStore rfl
  atRight := Contents.page_of_some contents_overlappingStore overlappingIndex_last
  read := read_overlapped builtOf_twoLevelRoot
  readLeft := (leafTrailer noSibling 512).read_emptyPage
  readRight := (leafTrailer 2 noSibling).read_emptyPage
  slotCount := slotCount_overlapped builtOf_twoLevelRoot
  toLeft := firstLink_overlapped builtOf_twoLevelRoot
  toRight := secondLink_overlapped builtOf_twoLevelRoot

/-- No relocation of the index comes to an end. -/
theorem not_wholeTrail_overlappingStore
    (placements : List Placement)
    (profile : Profile) :
    ¬WholeTrail (Held (contents overlappingStore) 1) .relocate placements profile := by
  intro whole
  have apart :
      ∀ placement ∈ placements, placement.pending.block ≠ metapageBlock :=
    fun _ member => whole.block_ne_metapage (held_functional _ _) member
  obtain ⟨opened, opens, trail⟩ := whole
  have linked := linkedLeaves_overlappingStore
  obtain rfl := held_functional _ _ _ _ _ opened linked.opens
  obtain rfl := Except.ok.inj (opens.symm.trans (Metapage.read_page _))
  cases trail with
  | @visited _ _ _ _ _ page visit _ fetched visits advances continues =>
      obtain rfl : page = overlappingRoot := held_functional _ _ _ _ _ fetched linked.atRoot
      obtain ⟨reads, -, -, -, adopted, collects, -⟩ := LevelTally.visit_eq_ok_iff.mp visits
      have trailer : visit.trailer = rootTrailer :=
        Except.ok.inj (reads.symm.trans linked.read)
      rw [trailer, Pending.children, if_neg (by decide), dataSlots_of_slotCount linked.slotCount]
        at collects
      obtain ⟨child, among, block⟩ := zero_of_adopts builtOf_twoLevelRoot collects
      obtain ⟨placement, member, rfl⟩ := List.mem_map.mp (continues.waiting.subset among)
      exact apart placement (List.mem_cons_of_mem _ member) block

end ObliviousStorage.Index

import ObliviousStorage.Proofs.Index.Building
import ObliviousStorage.Proofs.Index.Placing

/-!
Contract: indexes of two levels, a root above two leaves with an entry each.

Owns: that such an index can be walked over if its leaves link to each other, and that
none of its pages has overlapping items, whatever the leaves say about their siblings.

Does not own: indexes of any other shape, or what holds of walks in general.
-/

namespace ObliviousStorage.Index

open Page StorageM StorageView

/-- The trailer of a root above leaves. -/
def rootTrailer : Trailer := .unplaced noSibling noSibling 1 Trailer.rootFlag

def leafTrailer (previous next : BlockNumber) : Trailer :=
  .unplaced previous next 0 Trailer.leafFlag

/-- A root that links to the blocks two and three. -/
def twoLevelRoot : Page := entryPage rootTrailer [⟨0, 2, 0⟩, ⟨10, 3, 0⟩]

/-- A leaf with a leaf on its right: its first entry is the highest key it may hold. -/
def leftLeaf (trailer : Trailer) (low : Entry) : Page := entryPage trailer [⟨10, 0, 0⟩, low]

def rightLeaf (trailer : Trailer) (high : Entry) : Page := entryPage trailer [high]

/-- The blocks of an index of two levels, with these trailers and entries on the leaves. -/
def twoLevelIndex (left right : Trailer) (low high : Entry) : List Page :=
  [Metapage.page ⟨1, 1⟩, twoLevelRoot, leftLeaf left low, rightLeaf right high]

theorem builtOf_twoLevelRoot : BuiltOf twoLevelRoot rootTrailer [⟨0, 2, 0⟩, ⟨10, 3, 0⟩] :=
  (pageOf_builtOf rootTrailer _ (by decide)).2

theorem rightLeaf_eq (trailer : Trailer) (high : Entry) :
    rightLeaf trailer high = trailer.emptyPage.grownBy high.toBytes := rfl

theorem leftLeaf_eq (trailer : Trailer) (low : Entry) :
    leftLeaf trailer low = (rightLeaf trailer ⟨10, 0, 0⟩).grownBy low.toBytes := rfl

theorem builtOf_leftLeaf (trailer : Trailer) (low : Entry) :
    BuiltOf (leftLeaf trailer low) trailer [⟨10, 0, 0⟩, low] := by
  have room : 2 * (slotSize + Entry.size) ≤ blockSize - headerSize - Trailer.size := by decide
  exact (pageOf_builtOf trailer [⟨10, 0, 0⟩, low] room).2

theorem builtOf_rightLeaf (trailer : Trailer) (high : Entry) :
    BuiltOf (rightLeaf trailer high) trailer [high] := by
  have room : 1 * (slotSize + Entry.size) ≤ blockSize - headerSize - Trailer.size := by decide
  exact (pageOf_builtOf trailer [high] room).2

theorem dataSlots_of_slotCount
    {page : Page}
    (two : page.slotCount = 2) :
    rootTrailer.dataSlots page = [1, 2] := by
  rw [Trailer.dataSlots, two]
  rfl

/-- What visiting a leaf with this trailer comes to. -/
def leafVisit (trailer : Trailer) (page : Page) : Visit :=
  ⟨trailer, (trailer.dataSlots page).length, [], page⟩

/-- A walk accepts a leaf at a place where its trailer fits, whatever its entries are. -/
theorem visit_leaf
    {tally : LevelTally}
    {rootLevel : Nat}
    {pending : Pending}
    {trailer : Trailer}
    {page : Page}
    (read : Trailer.read page = .ok trailer)
    (leaf : trailer.isLeaf = true)
    (place : pending.checkPlace rootLevel trailer = .ok ())
    (siblings : tally.checkSiblings pending.block trailer = .ok ()) :
    tally.visit .measure rootLevel pending page = .ok (leafVisit trailer page) :=
  LevelTally.visit_eq_ok_iff.mpr ⟨read, place, siblings, rfl, page, if_pos leaf, rfl⟩

theorem isLeaf_leafTrailer (previous next : BlockNumber) :
    (leafTrailer previous next).isLeaf = true :=
  show Trailer.leafFlag.toNat.testBit 0 = true by decide

theorem checkPlace_leafTrailer (pending : Pending) (previous next : BlockNumber) :
    pending.checkPlace 1 (leafTrailer previous next) =
      pending.checkPlace 1 (leafTrailer noSibling noSibling) := rfl

/-- Blocks that hold a root above two leaves which link to each other. The left leaf lies in
block two, the right one in the last of these blocks. -/
structure LinkedLeaves
    (fetch : BlockNumber → Except Fault Page)
    (root left right : Page)
    (last : BlockNumber) : Prop where
  opens : fetch metapageBlock = .ok (Metapage.page ⟨1, 1⟩)
  atRoot : fetch 1 = .ok root
  atLeft : fetch 2 = .ok left
  atRight : fetch last = .ok right
  read : Trailer.read root = .ok rootTrailer
  readLeft : Trailer.read left = .ok (leafTrailer noSibling last)
  readRight : Trailer.read right = .ok (leafTrailer 2 noSibling)
  slotCount : root.slotCount = 2
  toLeft : ∃ entry, Entry.read root 1 = .ok entry ∧ entry.block = 2
  toRight : ∃ entry, Entry.read root 2 = .ok entry ∧ entry.block = last

namespace LinkedLeaves

variable
  {root left right : Page}
  {last : BlockNumber}

theorem isInner_rootTrailer : rootTrailer.isLeaf = false := by decide

/-- What the walk knows after the root, and after the left leaf. -/
def tallyBelowRoot : LevelTally := ⟨[2], 2, 0, 0, 0, 0, none⟩

def tallyBehindLeft (last : BlockNumber) : LevelTally := ⟨[2], 2, 0, 1, 0, 0, some (2, last)⟩

theorem visits_root
    {fetch : BlockNumber → Except Fault Page}
    (linked : LinkedLeaves fetch root left right last) :
    LevelTally.start.visit .measure 1 (.ofRoot 1) root =
      .ok ⟨rootTrailer, 2, [⟨some 1, 1, 2, 1⟩, ⟨some 1, 2, last, 1⟩], root⟩ := by
  have slots := dataSlots_of_slotCount linked.slotCount
  have inPlace : (Pending.ofRoot 1).checkPlace 1 rootTrailer = .ok () := by decide
  have siblings : LevelTally.start.checkSiblings 1 rootTrailer = .ok () := by decide
  refine LevelTally.visit_eq_ok_iff.mpr
    ⟨linked.read, inPlace, siblings, by rw [slots]; rfl, root, ?_, rfl⟩
  obtain ⟨first, readsFirst, toLeft⟩ := linked.toLeft
  obtain ⟨second, readsSecond, toRight⟩ := linked.toRight
  rw [Pending.children, if_neg (ne_true_of_eq_false isInner_rootTrailer), slots]
  refine adopt_measure_iff.mpr
    ⟨rfl, .cons ⟨first, readsFirst, ?_⟩ (.cons ⟨second, readsSecond, ?_⟩ .nil), .inr (by decide)⟩
  · rw [Pending.childOf, toLeft]
    rfl
  · rw [Pending.childOf, toRight]
    rfl

theorem advances_root :
    LevelTally.start.advance (.ofRoot 1)
        ⟨rootTrailer, 2, [⟨some 1, 1, 2, 1⟩, ⟨some 1, 2, last, 1⟩], root⟩ =
      .ok tallyBelowRoot := by
  simp [LevelTally.advance, isInner_rootTrailer, LevelTally.start, Pending.ofRoot, tallyBelowRoot]

theorem visits_left (read : Trailer.read left = .ok (leafTrailer noSibling last)) :
    tallyBelowRoot.visit .measure 1 ⟨some 1, 1, 2, 1⟩ left =
      .ok (leafVisit (leafTrailer noSibling last) left) := by
  have inPlace :
      Pending.checkPlace ⟨some 1, 1, 2, 1⟩ 1 (leafTrailer noSibling last) = .ok () :=
    (checkPlace_leafTrailer _ _ _).trans (by decide)
  exact visit_leaf read (isLeaf_leafTrailer _ _) inPlace rfl

theorem advances_left :
    tallyBelowRoot.advance ⟨some 1, 1, 2, 1⟩ (leafVisit (leafTrailer noSibling last) left) =
      .ok (tallyBehindLeft last) := by
  simp only [LevelTally.advance, LevelTally.countBelow, leafVisit, isLeaf_leafTrailer]
  rfl

theorem visits_right (read : Trailer.read right = .ok (leafTrailer 2 noSibling)) :
    (tallyBehindLeft last).visit .measure 1 ⟨some 1, 2, last, 1⟩ right =
      .ok (leafVisit (leafTrailer 2 noSibling) right) := by
  refine visit_leaf read (isLeaf_leafTrailer _ _) ?_ ?_
  · simp only [Pending.checkPlace]
    rfl
  · simp only [LevelTally.checkSiblings, LevelTally.expectedPrevious, tallyBehindLeft, ↓reduceIte]
    rfl

theorem advances_right :
    (tallyBehindLeft last).advance ⟨some 1, 2, last, 1⟩
        (leafVisit (leafTrailer 2 noSibling) right) =
      .ok ⟨[2], 0, 0, 0, 0, 1, none⟩ := by
  have rightmost : (leafTrailer 2 noSibling).isRightmost = true := by decide
  simp only [LevelTally.advance, LevelTally.countBelow, leafVisit, isLeaf_leafTrailer, rightmost]
  rfl

/-- Such an index can be walked over. -/
theorem wholeTrail
    {held : Contents}
    {index : RelationId}
    (linked : LinkedLeaves (held.page index) root left right last) :
    ∃ placements, WholeTrail (Held held index) .measure placements ⟨[2], 0⟩ := by
  have opens : Held held index metapageBlock (Metapage.page ⟨1, 1⟩) := linked.opens
  have atRoot : Held held index 1 root := linked.atRoot
  have atLeft : Held held index 2 left := linked.atLeft
  have atRight : Held held index last right := linked.atRight
  exact
    ⟨_, .intro opens (Metapage.read_page _)
      (.visited atRoot linked.visits_root advances_root
        (.visited atLeft (visits_left linked.readLeft) advances_left
          (.visited atRight (visits_right linked.readRight) advances_right (.ended _))))⟩

end LinkedLeaves

/-! ## Adjacent leaves -/

section Adjacent

variable
  {held : Contents}
  {index : RelationId}
  {low high : Entry}
  {blank : Page}

/-- No page of the index has overlapping items. -/
theorem itemsApart_twoLevelIndex (left right : Trailer) (low high : Entry) :
    ∀ page ∈ twoLevelIndex left right low high, page.ItemsApart := by
  intro page member
  simp only [twoLevelIndex, List.mem_cons, List.not_mem_nil, or_false] at member
  rcases member with rfl | rfl | rfl | rfl
  · exact itemsApart_of_slotCount_le (Nat.le_of_eq (Metapage.slotCount_page _))
  · exact builtOf_twoLevelRoot.apart
  · exact (builtOf_leftLeaf left low).apart
  · exact (builtOf_rightLeaf right high).apart

/-- The blocks of an index whose leaves link to each other. -/
def linkedIndex (low high : Entry) : List Page :=
  twoLevelIndex (leafTrailer noSibling 3) (leafTrailer 2 noSibling) low high

theorem length_linkedIndex (low high : Entry) : (linkedIndex low high).length = 4 := rfl

theorem linkedLeaves_linkedIndex (present : held index = some ⟨linkedIndex low high, blank⟩) :
    LinkedLeaves (held.page index) twoLevelRoot (leftLeaf (leafTrailer noSibling 3) low)
      (rightLeaf (leafTrailer 2 noSibling) high) 3 where
  opens := Contents.page_of_some present rfl
  atRoot := Contents.page_of_some present rfl
  atLeft := Contents.page_of_some present rfl
  atRight := Contents.page_of_some present rfl
  read := builtOf_twoLevelRoot.read
  readLeft := (builtOf_leftLeaf _ low).read
  readRight := (builtOf_rightLeaf _ high).read
  slotCount := builtOf_twoLevelRoot.slotCount
  toLeft := ⟨_, builtOf_twoLevelRoot.entry rfl, rfl⟩
  toRight := ⟨_, builtOf_twoLevelRoot.entry rfl, rfl⟩

theorem innerItemsApart_linkedIndex (present : held index = some ⟨linkedIndex low high, blank⟩) :
    InnerItemsApart held index :=
  innerItemsApart_of_pages present fun page member _ _ _ =>
    itemsApart_twoLevelIndex _ _ _ _ page member

end Adjacent

/-- A store in memory that holds such an index as its first relation. -/
def twoLevelStore (left right : Trailer) : MemoryStorage :=
  ⟨blockSize, #[(twoLevelIndex left right ⟨5, 7, 1⟩ ⟨12, 8, 2⟩).toArray]⟩

theorem contents_twoLevelStore (left right : Trailer) :
    contents (twoLevelStore left right) 1 =
      some ⟨twoLevelIndex left right ⟨5, 7, 1⟩ ⟨12, 8, 2⟩, Page.zero⟩ := rfl

/-- The store whose index has its leaves linked to each other. -/
def linkedStore : MemoryStorage := twoLevelStore (leafTrailer noSibling 3) (leafTrailer 2 noSibling)

theorem contents_linkedStore :
    contents linkedStore 1 = some ⟨linkedIndex ⟨5, 7, 1⟩ ⟨12, 8, 2⟩, Page.zero⟩ := rfl

theorem wholeTrail_linkedStore :
    ∃ placements, WholeTrail (Held (contents linkedStore) 1) .measure placements ⟨[2], 0⟩ :=
  (linkedLeaves_linkedIndex contents_linkedStore).wholeTrail

theorem measure_linkedStore : ((measure 1).runOn linkedStore).1 = .ok ⟨[2], 0⟩ := by
  obtain ⟨placements, whole⟩ := wholeTrail_linkedStore
  exact measure_of_whole rfl whole

theorem innerItemsApart_linkedStore : InnerItemsApart (contents linkedStore) 1 :=
  innerItemsApart_linkedIndex contents_linkedStore

end ObliviousStorage.Index

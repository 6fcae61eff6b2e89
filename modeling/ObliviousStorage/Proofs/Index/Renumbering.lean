import ObliviousStorage.Proofs.Index.Rewriting
import ObliviousStorage.Proofs.Index.TwoLevels

/-!
Contract: everything that a relocation hands over for an index that can be measured.

Owns: `Relocation`, which says that every page that links lead to was moved once, that
offsets and links count the pages of each level from left to right, that siblings and
stamps tell the position, and which bytes may differ from the page that was moved; and
that relocating achieves this, for indexes of any shape whose inner pages have no
overlapping items.

Does not own: where the pages go.
-/

namespace ObliviousStorage.Index

open StorageM StorageView

/-- A page that was moved: where it lay, what was handed over for it, and for which
place. -/
structure MovedPage where
  block : BlockNumber
  source : Page
  image : Page
  offset : Nat
  depth : Nat

namespace MovedPage

def handed (moved : MovedPage) : Handed := .indexPage moved.image moved.offset moved.depth

/-- The bytes of a page that a relocation may change: the links in the data slots of an
inner page, the place in the trailer with the two unused bytes in front of it, and the
sibling links of a page below the root. -/
def Rewrites (moved : MovedPage) (position : Nat) : Prop :=
  (∃ trailer,
      Trailer.read moved.source = .ok trailer ∧ trailer.isLeaf = false ∧
        ∃ slot ∈ trailer.dataSlots moved.source, LinkByte moved.source slot position) ∨
    blockSize - Trailer.size + 14 ≤ position ∨
      0 < moved.depth ∧ blockSize - Trailer.size ≤ position ∧
        position < blockSize - Trailer.size + 8

/-- The image tells its own place and, below the root, the places next to it on its level;
at the ends of the level it links nowhere. -/
structure Stamped (profile : Profile) (moved : MovedPage) (trailer : Trailer) : Prop where
  read : Trailer.read moved.image = .ok trailer
  offset : trailer.placedOffset.toNat = moved.offset
  depth : trailer.placedDepth.toNat = moved.depth
  previous :
    0 < moved.depth →
      if moved.offset = 0 then trailer.previous = noSibling
      else trailer.previous.toNat = moved.offset - 1
  next :
    0 < moved.depth →
      if moved.offset + 1 = profile.pagesOn moved.depth then trailer.next = noSibling
      else trailer.next.toNat = moved.offset + 1

end MovedPage

/-- The pages that were moved to one level. -/
def movedTo (depth : Nat) (moved : List MovedPage) : List MovedPage :=
  moved.filter fun page => page.depth = depth

/-- What a relocation makes of an index with this shape. -/
structure Relocation
    (held : Contents)
    (index : RelationId)
    (profile : Profile)
    (moved : List MovedPage) : Prop where
  sources : ∀ page ∈ moved, held.page index page.block = .ok page.source
  /-- No block is used twice. -/
  distinct : (moved.map MovedPage.block).Nodup
  /-- Every page that links lead to is moved, and no other. -/
  complete : ∀ block, Reachable (held.page index) block ↔ block ∈ moved.map MovedPage.block
  levels : ∀ page ∈ moved, page.depth < profile.levelCount
  offsets :
    ∀ depth, (movedTo depth moved).map MovedPage.offset = List.range (profile.pagesOn depth)
  /-- The pages of a level linked to those of the level below it, in this order. -/
  children :
    ∀ depth,
      levelLinks ((movedTo depth moved).map MovedPage.source) =
        .ok ((movedTo (depth + 1) moved).map MovedPage.block)
  /-- Their images hold the numbers from zero on instead. -/
  links :
    ∀ depth, ∃ numbers,
      levelLinks ((movedTo depth moved).map MovedPage.image) = .ok numbers ∧
        numbers.map UInt32.toNat = List.range (profile.pagesOn (depth + 1))
  stamps : ∀ page ∈ moved, ∃ trailer, page.Stamped profile trailer
  bytes :
    ∀ page ∈ moved, ∀ position, ¬page.Rewrites position →
      page.image.byte position = page.source.byte position

/-! ## Visited pages -/

def Placement.moved (placement : Placement) : MovedPage :=
  ⟨placement.pending.block, placement.page, placement.visit.page, placement.tally.offset,
    placement.pending.depth⟩

theorem movedTo_map (depth : Nat) (placements : List Placement) :
    movedTo depth (placements.map Placement.moved) =
      (onLevel depth placements).map Placement.moved := by
  rw [movedTo, List.filter_map]
  rfl

/-- Two lists of pairs are the same if their first components are the same, without
repetition, and the pairs of one are among those of the other. -/
theorem eq_of_map_fst
    {α β : Type}
    {one other : List (α × β)}
    (same : one.map Prod.fst = other.map Prod.fst)
    (distinct : (other.map Prod.fst).Nodup)
    (within : one ⊆ other) :
    one = other := by
  induction one generalizing other with
  | nil => exact (List.map_eq_nil_iff.mp same.symm).symm
  | cons first rest inductionHypothesis =>
      cases other with
      | nil => exact absurd same (by simp)
      | cons head tail =>
          simp only [List.map_cons, List.cons.injEq] at same
          obtain ⟨fresh, tailDistinct⟩ := List.nodup_cons.mp distinct
          have firstSame : first = head := by
            rcases List.mem_cons.mp (within (List.mem_cons_self ..)) with here | later
            · exact here
            · exact absurd (same.1 ▸ List.mem_map_of_mem later) fresh
          have restWithin : rest ⊆ tail := by
            intro pair member
            rcases List.mem_cons.mp (within (List.mem_cons_of_mem _ member)) with here | later
            · have again : pair.1 ∈ tail.map Prod.fst := same.2 ▸ List.mem_map_of_mem member
              rw [here] at again
              exact absurd again fresh
            · exact later
          rw [firstSame, inductionHypothesis same.2 tailDistinct restWithin]

theorem map_mapIdx
    {α β γ : Type}
    (change : β → γ)
    (numbered : Nat → α → β)
    (items : List α) :
    (items.mapIdx numbered).map change =
      items.mapIdx fun place item => change (numbered place item) := by
  apply List.ext_getElem <;> simp

/-! ## Links of images -/

section Images

variable
  {Fetched : BlockNumber → Page → Prop}
  {placements : List Placement}
  {profile : Profile}

/-- What the image of a visited page links to: the positions set aside for its children. -/
theorem liveLinks_image
    {rootLevel : Nat}
    {placement : Placement}
    (faithful : placement.Faithful rootLevel)
    (ends :
      placement.pending.parent.isNone = false → placement.visit.trailer.next ≠ noSibling →
        UInt32.ofNat (placement.tally.offset + 1) ≠ noSibling) :
    liveLinks placement.visit.page =
      .ok (placement.visit.children.mapIdx fun place _ =>
        UInt32.ofNat (placement.tally.nextChild + place)) := by
  obtain ⟨kept, measured, relocated⟩ := faithful
  cases role : placement.visit.trailer.isLeaf with
  | true =>
      rcases LevelTally.visit_shape measured with ⟨-, noChildren, -⟩ | ⟨inner, -⟩
      · dsimp only at noChildren
        rw [liveLinks_of_leaf relocated.stamp role, noChildren]
        rfl
      · dsimp only at inner
        rw [role] at inner
        exact absurd inner (by simp)
  | false =>
      have links := LevelTally.visit_links measured role
      refine liveLinks_of_inner relocated.stamp role ?_
      rw [dataSlots_placed relocated.slotCount ends, List.forall₂_iff_get]
      refine ⟨by simpa using links.length_eq, fun place inside bound => ?_⟩
      obtain ⟨entry, original, -⟩ := links.get inside (by simpa using bound)
      have among := List.getElem?_eq_getElem inside
      refine ⟨_, relocated.inner role place _ entry among original, ?_⟩
      simp

variable (whole : WholeTrail Fetched .relocate placements profile)

include whole

/-- The positions set aside for the children of the pages of a level count the pages of
the level below it. -/
theorem positions_onLevel
    (distinct : (placements.map fun placement => placement.pending.block).Nodup)
    (depth : Nat) :
    ((onLevel depth placements).flatMap fun placement =>
        placement.visit.children.mapIdx fun place _ => placement.tally.nextChild + place) =
      List.range (profile.pagesOn (depth + 1)) := by
  -- Each child with the position set aside for it is a page visited at that position.
  have pairs :
      ((onLevel depth placements).flatMap fun placement =>
          placement.visit.children.mapIdx fun place child =>
            (child, placement.tally.nextChild + place)) =
        (onLevel (depth + 1) placements).map fun placement =>
          (placement.pending, placement.tally.offset) := by
    refine eq_of_map_fst ?_ ?_ ?_
    · have keys :
          ∀ placement : Placement,
            (placement.visit.children.mapIdx fun place child =>
                (child, placement.tally.nextChild + place)).map Prod.fst =
              placement.visit.children := by
        intro placement
        rw [map_mapIdx]
        apply List.ext_getElem <;> simp
      simp only [List.map_flatMap, keys, List.map_map]
      exact (whole.map_pending_onLevel_succ depth).symm
    · rw [List.map_map]
      have level :
          ((onLevel (depth + 1) placements).map fun placement => placement.pending.block).Nodup :=
        distinct.sublist (List.filter_sublist.map _)
      exact List.Nodup.of_map Pending.block (by rwa [List.map_map])
    · intro pair member
      obtain ⟨placement, onIt, among⟩ := List.mem_flatMap.mp member
      obtain ⟨place, inside, rfl⟩ := List.mem_mapIdx.mp among
      have visited := (mem_onLevel.mp onIt).1
      have child := List.getElem?_eq_getElem inside
      obtain ⟨follower, found, pending, offset⟩ := whole.child visited child
      have deeper := whole.child_depth visited (List.getElem_mem inside)
      rw [(mem_onLevel.mp onIt).2, ← pending] at deeper
      exact List.mem_map.mpr
        ⟨follower, mem_onLevel.mpr ⟨found, deeper⟩, by rw [pending, offset]⟩
  have positions := congrArg (List.map Prod.snd) pairs
  simp only [List.map_flatMap, map_mapIdx, List.map_map] at positions
  exact positions.trans (whole.map_offset_onLevel (depth + 1))

end Images

/-! ## Relocations -/

theorem pagesOn_le (profile : Profile) (depth : Nat) :
    profile.pagesOn depth ≤ profile.counts.sum := by
  have within := sum_take_add_getD_le profile.counts depth
  rw [Profile.pagesOn]
  omega

section Relocated

variable
  {held : Contents}
  {index : RelationId}
  {found : Relation}
  {placements : List Placement}
  {profile : Profile}

namespace WholeTrail

theorem depth_lt
    (whole : WholeTrail (Held held index) .relocate placements profile)
    {placement : Placement}
    (member : placement ∈ placements) :
    placement.pending.depth < blockNumberBound := by
  obtain ⟨fetched, opens, trail⟩ := whole
  obtain ⟨-, visits⟩ := trail.visit_of_mem member
  have level := LevelTally.visit_level visits
  exact Nat.lt_of_le_of_lt (Nat.le_of_add_left_le (Nat.le_of_eq level)) (UInt32.toNat_lt _)

theorem pagesOn_lt
    (whole : WholeTrail (Held held index) .relocate placements profile)
    (present : held index = some found)
    (few : found.pages.length < blockNumberBound)
    (depth : Nat) :
    profile.pagesOn depth < blockNumberBound :=
  Nat.lt_of_le_of_lt (pagesOn_le profile depth)
    (Nat.lt_of_le_of_lt (whole.size_le present few) few)

theorem offset_lt
    (whole : WholeTrail (Held held index) .relocate placements profile)
    {placement : Placement}
    (member : placement ∈ placements) :
    placement.tally.offset < profile.pagesOn placement.pending.depth := by
  have inside := (List.getElem?_eq_some_iff.mp (whole.getElem?_onLevel member)).1
  rwa [whole.length_onLevel] at inside

/-- A page that another one of its level follows links to it, and the other one back. -/
theorem linked
    (whole : WholeTrail (Held held index) .relocate placements profile)
    (present : held index = some found)
    (few : found.pages.length < blockNumberBound)
    {depth offset : Nat}
    (within : offset + 1 < profile.pagesOn depth) :
    ∃ left right,
      (onLevel depth placements)[offset]? = some left ∧
        (onLevel depth placements)[offset + 1]? = some right ∧
          left.visit.trailer.next ≠ noSibling ∧ right.visit.trailer.previous ≠ noSibling := by
  rw [← whole.length_onLevel] at within
  have atLeft := List.getElem?_eq_getElem (Nat.lt_of_succ_lt within)
  have atRight := List.getElem?_eq_getElem within
  obtain ⟨next, previous⟩ := whole.linked_of_onLevel atLeft atRight
  have lies :
      ∀ {place : Nat} {placement : Placement},
        (onLevel depth placements)[place]? = some placement →
          placement.pending.block ≠ noSibling := by
    intro place placement among
    have member := (mem_onLevel.mp (List.mem_of_getElem? among)).1
    exact ne_noSibling_of_held present few (whole.visit_of_mem member).1
  refine ⟨_, _, atLeft, atRight, ?_, ?_⟩
  · rw [next]
    exact lies atRight
  · rw [previous]
    exact lies atLeft

/-- The image of a visited page tells its place and the places next to it. -/
theorem stamped
    (whole : WholeTrail (Held held index) .relocate placements profile)
    (present : held index = some found)
    (few : found.pages.length < blockNumberBound)
    (faithful : ∀ placement ∈ placements, ∃ rootLevel, placement.Faithful rootLevel)
    {placement : Placement}
    (member : placement ∈ placements) :
    placement.moved.Stamped profile
      (placement.visit.trailer.placed placement.pending.parent.isNone placement.tally.offset
        placement.pending.depth) where
  read := by
    obtain ⟨rootLevel, kept, -, relocated⟩ := faithful placement member
    exact relocated.stamp
  offset :=
    UInt32.toNat_ofNat_of_lt'
      (Nat.lt_trans (whole.offset_lt member) (whole.pagesOn_lt present few _))
  depth := UInt32.toNat_ofNat_of_lt' (whole.depth_lt member)
  previous below := by
    obtain ⟨depth, deep⟩ := Nat.exists_eq_succ_of_ne_zero (Nat.ne_of_gt below)
    have atOffset := whole.getElem?_onLevel member
    have inside := whole.offset_lt member
    have small := whole.pagesOn_lt present few placement.pending.depth
    have inner :=
      whole.inner_of_onLevel_succ (mem_onLevel.mpr ⟨member, show _ = depth + 1 from deep⟩)
    simp only [Placement.moved, Trailer.placed, inner, true_and]
    split
    · next first =>
        rw [first] at atOffset
        rw [whole.previous_of_onLevel atOffset, if_neg (by simp)]
    · next later =>
        obtain ⟨before, place⟩ := Nat.exists_eq_succ_of_ne_zero later
        rw [Nat.succ_eq_add_one] at place
        rw [place] at atOffset inside
        obtain ⟨left, right, -, atRight, -, previous⟩ := whole.linked present few inside
        obtain rfl := Option.some.inj (atRight.symm.trans atOffset)
        have fits : right.tally.offset - 1 < blockNumberBound := Nat.lt_trans (by omega) small
        rw [if_pos previous, UInt32.toNat_ofNat_of_lt' fits]
  next below := by
    obtain ⟨depth, deep⟩ := Nat.exists_eq_succ_of_ne_zero (Nat.ne_of_gt below)
    have atOffset := whole.getElem?_onLevel member
    have inside := whole.offset_lt member
    have small := whole.pagesOn_lt present few placement.pending.depth
    have inner :=
      whole.inner_of_onLevel_succ (mem_onLevel.mpr ⟨member, show _ = depth + 1 from deep⟩)
    simp only [Placement.moved, Trailer.placed, inner, true_and]
    split
    · next last =>
        rw [show placement.pending.depth = depth + 1 from deep] at atOffset last
        rw [whole.next_of_onLevel atOffset last, if_neg (by simp)]
    · next within =>
        obtain ⟨left, right, atLeft, -, next, -⟩ :=
          whole.linked present few (Nat.lt_of_le_of_ne inside within)
        obtain rfl := Option.some.inj (atLeft.symm.trans atOffset)
        have fits : left.tally.offset + 1 < blockNumberBound := Nat.lt_trans (by omega) small
        rw [if_pos next, UInt32.toNat_ofNat_of_lt' fits]

/-- A visited page and its image differ in nothing that a relocation leaves alone. -/
theorem byte_moved
    (whole : WholeTrail (Held held index) .relocate placements profile)
    {placement : Placement}
    (member : placement ∈ placements)
    {position : Nat}
    (kept : ¬placement.moved.Rewrites position) :
    placement.visit.page.byte position = placement.page.byte position := by
  obtain ⟨-, rootLevel, visits⟩ := whole.visit_of_mem member
  obtain ⟨read, -⟩ := LevelTally.visit_eq_ok_iff.mp visits
  simp only [MovedPage.Rewrites, not_or, Nat.not_le] at kept
  obtain ⟨noLink, early, notSiblings⟩ := kept
  refine LevelTally.visit_elsewhere visits ?_ early ?_
  · intro inner slot among link
    exact noLink ⟨_, read, inner, slot, among, link⟩
  · cases deep : placement.pending.depth with
    | zero =>
        exact Or.inl (whole.isNone_of_onLevel_zero (mem_onLevel.mpr ⟨member, deep⟩))
    | succ depth =>
        have below : 0 < placement.moved.depth :=
          Nat.lt_of_lt_of_eq (Nat.succ_pos depth) deep.symm
        refine Or.inr ?_
        by_contra among
        exact notSiblings ⟨below, by omega, by omega⟩

/-- The images of the pages of a level link to the positions on the level below it. -/
theorem levelLinks_images
    (whole : WholeTrail (Held held index) .relocate placements profile)
    (present : held index = some found)
    (few : found.pages.length < blockNumberBound)
    (faithful : ∀ placement ∈ placements, ∃ rootLevel, placement.Faithful rootLevel)
    (depth : Nat) :
    levelLinks ((onLevel depth placements).map fun placement => placement.visit.page) =
      .ok ((List.range (profile.pagesOn (depth + 1))).map UInt32.ofNat) := by
  have small := Nat.lt_of_le_of_lt (whole.size_le present few) few
  have live :
      ∀ placement ∈ onLevel depth placements,
        liveLinks placement.visit.page =
          .ok (placement.visit.children.mapIdx fun place _ =>
            UInt32.ofNat (placement.tally.nextChild + place)) := by
    intro placement onIt
    have member := (mem_onLevel.mp onIt).1
    obtain ⟨rootLevel, faithfully⟩ := faithful placement member
    obtain ⟨number, among⟩ := List.mem_iff_getElem?.mp member
    exact liveLinks_image faithfully ((whole.inOrder among).next_ne small)
  have positions :=
    congrArg (List.map UInt32.ofNat) (positions_onLevel whole (whole.blocks_nodup present few) depth)
  simp only [List.map_flatMap, map_mapIdx] at positions
  rw [levelLinks_map live, positions]

end WholeTrail

theorem liveLinks_of_faithful
    {rootLevel : Nat}
    {placement : Placement}
    (faithful : placement.Faithful rootLevel) :
    liveLinks placement.page = .ok (placement.visit.children.map Pending.block) := by
  obtain ⟨kept, measured, -⟩ := faithful
  have links := liveLinks_of_visit measured
  exact links

/-- The visits of a relocating walk are a relocation. -/
theorem WholeTrail.relocation
    (whole : WholeTrail (Held held index) .relocate placements profile)
    (present : held index = some found)
    (few : found.pages.length < blockNumberBound)
    (faithful : ∀ placement ∈ placements, ∃ rootLevel, placement.Faithful rootLevel) :
    Relocation held index profile (placements.map Placement.moved) := by
  have live :
      ∀ placement ∈ placements,
        liveLinks placement.page = .ok (placement.visit.children.map Pending.block) := by
    intro placement member
    obtain ⟨rootLevel, faithfully⟩ := faithful placement member
    exact liveLinks_of_faithful faithfully
  have each :
      ∀ {P : MovedPage → Prop}, (∀ placement ∈ placements, P placement.moved) →
        ∀ page ∈ placements.map Placement.moved, P page := by
    intro P holds page member
    obtain ⟨placement, visited, rfl⟩ := List.mem_map.mp member
    exact holds placement visited
  exact
    { sources := each fun placement member => (whole.visit_of_mem member).1
      distinct := by
        rw [List.map_map]
        exact whole.blocks_nodup present few
      complete := fun block => by
        rw [whole.reachable_iff live, List.map_map]
        exact List.mem_map.symm
      levels := each fun placement member => by
        have inside := whole.offset_lt member
        have counted := Nat.le_trans whole.levels_le (whole.size_le present few)
        rw [Profile.levelCount_eq (Nat.le_trans counted (Nat.le_of_lt few))]
        show placement.pending.depth < profile.counts.length
        by_contra beyond
        rw [Profile.pagesOn, List.getD_eq_default _ _ (Nat.not_lt.mp beyond)] at inside
        exact absurd inside (Nat.not_lt_zero _)
      offsets := fun depth => by
        rw [movedTo_map, List.map_map]
        exact whole.map_offset_onLevel depth
      children := fun depth => by
        have below := congrArg (List.map Pending.block) (whole.map_pending_onLevel_succ depth)
        rw [List.map_map, List.map_flatMap] at below
        rw [movedTo_map, movedTo_map, List.map_map, List.map_map]
        have here :
            ∀ placement ∈ onLevel depth placements,
              liveLinks placement.page = .ok (placement.visit.children.map Pending.block) :=
          fun placement member => live placement (mem_onLevel.mp member).1
        exact (levelLinks_map here).trans (congrArg Except.ok below.symm)
      links := fun depth => by
        refine ⟨(List.range (profile.pagesOn (depth + 1))).map UInt32.ofNat, ?_, ?_⟩
        · rw [movedTo_map, List.map_map]
          exact whole.levelLinks_images present few faithful depth
        · have fits :
              ∀ number ∈ List.range (profile.pagesOn (depth + 1)),
                (UInt32.toNat ∘ UInt32.ofNat) number = number := by
            intro number member
            have small := whole.pagesOn_lt present few (depth + 1)
            exact UInt32.toNat_ofNat_of_lt' (Nat.lt_trans (List.mem_range.mp member) small)
          rw [List.map_map, List.map_congr_left fits, List.map_id']
      stamps := each fun placement member =>
        ⟨_, whole.stamped present few faithful member⟩
      bytes := each fun placement member position kept => whole.byte_moved member kept }

end Relocated

/-- Relocating an index that can be measured, whose inner pages have no overlapping items,
succeeds and hands over a relocation of the index. -/
theorem relocate_complete
    {σ : Type}
    [Storage σ]
    [LawfulStorage σ]
    {index : RelationId}
    {source : σ}
    {found : Relation}
    {profile : Profile}
    (sound : Sound source)
    (present : contents source index = some found)
    (few : found.pages.length < blockNumberBound)
    (measured : ((measure index).runOn source).1 = .ok profile)
    (apart : InnerItemsApart (contents source) index) :
    ∃ moved recorded,
      (relocate index Recording.target).runOn (Recording.start none source) = (.ok (), recorded) ∧
        recorded.handed.toList = moved.map MovedPage.handed ∧
          Relocation (contents source) index profile moved := by
  obtain ⟨⟨visited, whole⟩, -⟩ :=
    (measure_yields index source).runOn (runOn_eq_of_outcome measured)
  obtain ⟨placements, moved, faithful⟩ := whole.relocate (apart _ _ whole)
  cases relocates : (relocate index Recording.target).runOn (Recording.start none source) with
  | mk outcome recorded =>
      obtain ⟨rfl, handed⟩ := (relocate_recording sound moved).runOn relocates
      refine ⟨placements.map Placement.moved, recorded, rfl, ?_,
        moved.relocation present few faithful⟩
      rw [handed, List.map_map]
      rfl

/-- A root above two leaves that link to each other, relocated. -/
theorem relocate_complete_linked :
    ((measure 1).runOn linkedStore).1 = .ok ⟨[2], 0⟩ ∧
      InnerItemsApart (contents linkedStore) 1 ∧
        ∃ moved recorded,
          (relocate 1 Recording.target).runOn (Recording.start none linkedStore) =
              (.ok (), recorded) ∧
            recorded.handed.toList = moved.map MovedPage.handed ∧
              Relocation (contents linkedStore) 1 ⟨[2], 0⟩ moved :=
  ⟨measure_linkedStore, innerItemsApart_linkedStore,
    relocate_complete rfl (contents_twoLevelStore _ _) (by decide) measure_linkedStore
      innerItemsApart_linkedStore⟩

end ObliviousStorage.Index

import Mathlib.Algebra.Order.BigOperators.Group.List
import Mathlib.Data.List.Nodup
import Mathlib.Data.List.Perm.Subperm
import ObliviousStorage.Proofs.Index.Walks

/-!
Contract: the numbers that a layout gives to the pages of a measured index.

Owns: that a layout made from the measured profile numbers the visited pages in the
order of the visits, that the children of a page are at the positions set aside for
them, that the walk starts at the root, and that an index has no more pages than its
relation has blocks.

Does not own: what is written to the numbered blocks.
-/

namespace ObliviousStorage.Index

/-- If no level is empty, there are at most as many levels as pages. -/
theorem Profile.levels_le
    (profile : Profile)
    (inhabited : ∀ count ∈ profile.fanouts, 0 < count) :
    profile.counts.length ≤ profile.counts.sum := by
  refine List.length_le_sum_of_one_le _ fun count member => ?_
  rcases List.mem_cons.mp member with rfl | below
  · exact Nat.le_refl 1
  · exact inhabited count below

section Whole

variable
  {Fetched : BlockNumber → Page → Prop}
  {mode : WalkMode}
  {placements : List Placement}
  {profile : Profile}

namespace WholeTrail

/-- The measured profile counts every visited page. -/
theorem size_eq (whole : WholeTrail Fetched mode placements profile) :
    profile.counts.sum = placements.length := by
  obtain ⟨-, -, trail⟩ := whole
  have all := (trail.counts (.start _)).2
  rwa [Nat.zero_add] at all

/-- No level of a measured index is without pages. -/
theorem fanouts_pos (whole : WholeTrail Fetched mode placements profile) :
    ∀ count ∈ profile.fanouts, 0 < count := by
  obtain ⟨-, -, trail⟩ := whole
  exact trail.fanouts_pos (by simp [LevelTally.start])

theorem levels_le (whole : WholeTrail Fetched mode placements profile) :
    profile.counts.length ≤ profile.counts.sum :=
  profile.levels_le whole.fanouts_pos

/-- The measured profile numbers the visited pages in the order of the visits. -/
theorem inOrder
    (whole : WholeTrail Fetched mode placements profile)
    {number : Nat}
    {placement : Placement}
    (among : placements[number]? = some placement) :
    placement.InOrder profile.counts number := by
  obtain ⟨-, -, trail⟩ := whole
  have inOrder := trail.inOrder (.start _) among
  rwa [Nat.zero_add] at inOrder

theorem child
    (whole : WholeTrail Fetched mode placements profile)
    {placement : Placement}
    (member : placement ∈ placements)
    {index : Nat}
    {child : Pending}
    (linked : placement.visit.children[index]? = some child) :
    ∃ follower ∈ placements,
      follower.pending = child ∧
        follower.tally.offset = placement.tally.nextChild + index := by
  obtain ⟨-, -, trail⟩ := whole
  exact trail.child (.start _) member linked

/-- The children that a page links to lie one level below it. -/
theorem child_depth
    (whole : WholeTrail Fetched mode placements profile)
    {placement : Placement}
    (member : placement ∈ placements)
    {child : Pending}
    (linked : child ∈ placement.visit.children) :
    child.depth = placement.pending.depth + 1 := by
  obtain ⟨-, -, trail⟩ := whole
  obtain ⟨-, visits⟩ := trail.visit_of_mem member
  rcases LevelTally.visit_shape visits with ⟨-, none, -⟩ | ⟨-, -, -, childrenAt⟩
  · simp [none] at linked
  · exact (childrenAt child linked).1

/-- The first page visited is the root that the metapage names. -/
theorem root (whole : WholeTrail Fetched mode placements profile) :
    ∃ first metapage placement,
      Fetched metapageBlock first ∧ Metapage.read first = .ok metapage ∧
        placements[0]? = some placement ∧ placement.pending = .ofRoot metapage.root ∧
          placement.tally.offset = 0 := by
  obtain ⟨fetched, opens, trail⟩ := whole
  cases placements with
  | nil => exact absurd trail.waiting (by simp)
  | cons placement later =>
      have waiting := trail.waiting
      rw [List.map_cons, List.cons_prefix_cons] at waiting
      exact ⟨_, _, placement, fetched, opens, rfl, waiting.1.symm, by rw [trail.tally_of_head]; rfl⟩

theorem visit_of_mem
    (whole : WholeTrail Fetched mode placements profile)
    {placement : Placement}
    (member : placement ∈ placements) :
    Fetched placement.pending.block placement.page ∧
      ∃ rootLevel,
        placement.tally.visit mode rootLevel placement.pending placement.page =
          .ok placement.visit := by
  obtain ⟨-, -, trail⟩ := whole
  obtain ⟨fetched, visits⟩ := trail.visit_of_mem member
  exact ⟨fetched, _, visits⟩

/-- A walk that comes to an end has not visited the metapage. -/
theorem block_ne_metapage
    (functional : ∀ block one other, Fetched block one → Fetched block other → one = other)
    (whole : WholeTrail Fetched mode placements profile)
    {placement : Placement}
    (member : placement ∈ placements) :
    placement.pending.block ≠ metapageBlock := by
  intro same
  obtain ⟨opened, opens, trail⟩ := whole
  obtain ⟨fetched, visits⟩ := trail.visit_of_mem member
  obtain rfl := functional _ _ _ opened (same ▸ fetched)
  obtain ⟨reads, place, -⟩ := LevelTally.visit_eq_ok_iff.mp visits
  simp only [Metapage.read, bind_eq_ok_iff, require_eq_ok_iff] at opens
  obtain ⟨trailer, readsToo, -, ⟨isMeta, -⟩, -⟩ := opens
  obtain rfl := Except.ok.inj (reads.symm.trans readsToo)
  simp only [Pending.checkPlace, bind_eq_ok_iff, require_eq_ok_iff] at place
  obtain ⟨-, ⟨-, notMeta⟩, -⟩ := place
  exact absurd isMeta (ne_true_of_eq_false notMeta)

/-- An index that can be measured can be relocated, if the items of its inner pages do
not overlap; the shape is the same. -/
theorem relocate
    (whole : WholeTrail Fetched .measure placements profile)
    (apart :
      ∀ placement ∈ placements,
        placement.visit.trailer.isLeaf = false → placement.page.ItemsApart) :
    ∃ relocated,
      WholeTrail Fetched .relocate relocated profile ∧
        ∀ placement ∈ relocated, ∃ rootLevel, placement.Faithful rootLevel := by
  obtain ⟨fetched, opens, trail⟩ := whole
  obtain ⟨relocated, moved, faithful⟩ := trail.relocate apart
  exact ⟨relocated, .intro fetched opens moved,
    fun placement member => ⟨_, faithful placement member⟩⟩

end WholeTrail

end Whole

/-! ## Numbers of pages -/

/-- The number of a place in level order, of those on levels of these lengths. -/
theorem number_lt_sum
    {counts : List Nat}
    {level offset : Nat}
    (inside : offset < counts.getD level 0) :
    (counts.take level).sum + offset < counts.sum := by
  have within := sum_take_add_getD_le counts level
  omega

theorem Placement.InOrder.number_lt
    {counts : List Nat}
    {number : Nat}
    {placement : Placement}
    (inOrder : placement.InOrder counts number) :
    number < counts.sum := by
  rw [← inOrder.number]
  exact number_lt_sum inOrder.inside

/-- What `InOrder` says of a page whose right link is kept: the position to the right of
it is not the number that stands for no sibling. -/
theorem Placement.InOrder.next_ne
    {profile : Profile}
    {number : Nat}
    {placement : Placement}
    (inOrder : placement.InOrder profile.counts number)
    (small : profile.counts.sum < blockNumberBound)
    (inner : placement.pending.parent.isNone = false)
    (linked : placement.visit.trailer.next ≠ noSibling) :
    UInt32.ofNat (placement.tally.offset + 1) ≠ noSibling := by
  have follows := inOrder.follows inner linked
  have within := sum_take_add_getD_le profile.counts placement.pending.depth
  -- The root's level counts one page, so a level below it is shorter than the whole.
  have above : 0 < (profile.counts.take placement.pending.depth).sum := by
    cases deep : placement.pending.depth with
    | zero =>
        rw [deep] at follows
        simp [Profile.counts] at follows
    | succ depth =>
        rw [Profile.counts, List.take_succ_cons, List.sum_cons]
        omega
  intro same
  have number := congrArg UInt32.toNat same
  have fits : placement.tally.offset + 1 < 4294967296 := by
    simp only [blockNumberBound] at small
    omega
  rw [UInt32.toNat_ofNat_of_lt' fits] at number
  have last : noSibling.toNat = 4294967295 := rfl
  simp only [blockNumberBound] at small
  omega

/-! ## Layouts and their levels -/

theorem Profile.size_eq_sum (profile : Profile) : profile.size = profile.counts.sum :=
  List.sum_eq_foldl.symm

theorem Layout.base_eq_sum (layout : Layout) (level : Nat) :
    layout.base level = (layout.counts.take level).sum :=
  List.sum_eq_foldl.symm

theorem Layout.sum_lt (layout : Layout) : layout.counts.sum < blockNumberBound := by
  rw [List.sum_eq_foldl]
  exact layout.numbered

/-- The layout's number for a page in its place. -/
theorem Layout.blockAt_of_inOrder
    {layout : Layout}
    {number : Nat}
    {placement : Placement}
    (inOrder : placement.InOrder layout.counts number) :
    layout.blockAt placement.pending.depth placement.tally.offset = .ok (UInt32.ofNat number) := by
  rw [Layout.blockAt, if_pos inOrder.inside, Layout.base_eq_sum, inOrder.number]

theorem Profile.map_pagesOn_range
    {profile : Profile}
    {levels : Nat}
    (known : levels ≤ profile.counts.length) :
    (List.range levels).map profile.pagesOn = profile.counts.take levels := by
  refine List.ext_getElem (by simp [known]) fun level inside bound => ?_
  rw [List.length_map, List.length_range] at inside
  rw [List.getElem_map, List.getElem_range, List.getElem_take, Profile.pagesOn,
    List.getD_eq_getElem _ _ (Nat.lt_of_lt_of_le inside known)]

theorem Profile.levelCount_le (profile : Profile) : profile.levelCount ≤ profile.counts.length := by
  have kept := Nat.mod_le profile.fanouts.length blockNumberBound
  rw [Profile.levelCount, Profile.counts, List.length_cons]
  omega

/-- Levels that a word can count are all counted. -/
theorem Profile.levelCount_eq
    {profile : Profile}
    (few : profile.counts.length ≤ blockNumberBound) :
    profile.levelCount = profile.counts.length := by
  rw [Profile.counts, List.length_cons] at few ⊢
  rw [Profile.levelCount, Nat.mod_eq_of_lt few]

/-- A layout has the levels that are counted. -/
theorem Layout.ofProfile_eq_ok_iff
    {profile : Profile}
    {layout : Layout} :
    Layout.ofProfile profile = .ok layout ↔
      profile.levelCount < blockNumberBound ∧
        layout.counts = profile.counts.take profile.levelCount := by
  simp only [Layout.ofProfile, bind_eq_ok_iff, wordSum_eq_ok_iff]
  rw [← Profile.map_pagesOn_range profile.levelCount_le]
  constructor
  · rintro ⟨_, ⟨counted, rfl⟩, made⟩
    split at made
    · rw [← Except.ok.inj made]
      exact ⟨counted, rfl⟩
    · obtain ⟨-, -, refused⟩ := bind_eq_ok_iff.mp made
      exact absurd refused (by simp)
  · rintro ⟨counted, laidOut⟩
    obtain ⟨counts, numbered⟩ := layout
    obtain rfl : counts = _ := laidOut
    exact ⟨profile.levelCount, ⟨counted, rfl⟩, dif_pos numbered⟩

/-- If a word can count the levels, a layout has all of them. -/
theorem Layout.ofProfile_eq_ok_iff_of_few
    {profile : Profile}
    {layout : Layout}
    (few : profile.counts.length < blockNumberBound) :
    Layout.ofProfile profile = .ok layout ↔ layout.counts = profile.counts := by
  rw [Layout.ofProfile_eq_ok_iff, Profile.levelCount_eq (Nat.le_of_lt few), List.take_length,
    and_iff_right few]

theorem Layout.exists_ofProfile
    {profile : Profile}
    (few : profile.counts.length < blockNumberBound)
    (small : profile.counts.sum < blockNumberBound) :
    ∃ layout, Layout.ofProfile profile = .ok layout ∧ layout.counts = profile.counts := by
  rw [List.sum_eq_foldl] at small
  exact ⟨⟨profile.counts, small⟩, (Layout.ofProfile_eq_ok_iff_of_few few).mpr rfl, rfl⟩

/-! ## Pages of a relation -/

section Blocks

variable
  {held : Contents}
  {index : RelationId}
  {found : Relation}

theorem inside_of_held
    {block : BlockNumber}
    {page : Page}
    (present : held index = some found)
    (fetched : Held held index block page) :
    block.toNat < found.pages.length := by
  obtain ⟨same, at_, among⟩ := Contents.page_eq_ok_iff.mp fetched
  rw [present, Option.some.injEq] at at_
  rw [at_]
  exact (List.getElem?_eq_some_iff.mp among).1

/-- No page lies in the block whose number stands for no sibling, as long as every block of
the relation can be told from no block at all. -/
theorem ne_noSibling_of_held
    {block : BlockNumber}
    {page : Page}
    (present : held index = some found)
    (few : found.pages.length < blockNumberBound)
    (fetched : Held held index block page) :
    block ≠ noSibling := by
  rintro rfl
  have bound := inside_of_held present fetched
  have last : noSibling.toNat = 4294967295 := rfl
  simp only [blockNumberBound] at few
  omega

variable
  {mode : WalkMode}
  {placements : List Placement}
  {profile : Profile}

/-- A walk visits no block twice. -/
theorem WholeTrail.blocks_nodup
    (present : held index = some found)
    (few : found.pages.length < blockNumberBound)
    (whole : WholeTrail (Held held index) mode placements profile) :
    (placements.map fun placement => placement.pending.block).Nodup := by
  obtain ⟨-, -, trail⟩ := whole
  rw [List.Nodup, List.pairwise_map, List.pairwise_iff_getElem]
  intro first second firstBound secondBound before
  exact trail.blocks_ne (held_functional held index)
    (fun page fetched => ne_noSibling_of_held present few fetched rfl) before
    (List.getElem?_eq_getElem firstBound) (List.getElem?_eq_getElem secondBound)

theorem WholeTrail.numbers_nodup
    (present : held index = some found)
    (few : found.pages.length < blockNumberBound)
    (whole : WholeTrail (Held held index) mode placements profile) :
    (placements.map fun placement => placement.pending.block.toNat).Nodup := by
  have numbers : Function.Injective UInt32.toNat := fun _ _ => UInt32.toNat_inj.mp
  have blocks := List.Nodup.map numbers (whole.blocks_nodup present few)
  rwa [List.map_map] at blocks

/-- An index has no more pages than its relation has blocks. -/
theorem WholeTrail.size_le
    (present : held index = some found)
    (few : found.pages.length < blockNumberBound)
    (whole : WholeTrail (Held held index) mode placements profile) :
    profile.counts.sum ≤ found.pages.length := by
  have among :
      (placements.map fun placement => placement.pending.block.toNat) ⊆
        List.range found.pages.length := by
    intro number member
    obtain ⟨placement, visited, rfl⟩ := List.mem_map.mp member
    exact List.mem_range.mpr (inside_of_held present (whole.visit_of_mem visited).1)
  have length := ((whole.numbers_nodup present few).subperm among).length_le
  rw [List.length_map, List.length_range] at length
  rw [whole.size_eq]
  exact length

/-- An index that has a page for every block behind its metapage visits all of them. -/
theorem WholeTrail.exists_visit
    (present : held index = some found)
    (few : found.pages.length < blockNumberBound)
    (whole : WholeTrail (Held held index) mode placements profile)
    (full : found.pages.length = profile.counts.sum + 1)
    {block : BlockNumber}
    (inside : block.toNat < found.pages.length)
    (behind : block ≠ metapageBlock) :
    ∃ placement ∈ placements, placement.pending.block = block := by
  have positive : ∀ other : BlockNumber, other ≠ metapageBlock → other.toNat ≠ 0 :=
    fun other notFirst zero => notFirst (UInt32.toNat_inj.mp zero)
  have among :
      (placements.map fun placement => placement.pending.block.toNat) ⊆
        List.range' 1 (profile.counts.sum) := by
    intro number member
    obtain ⟨placement, visited, rfl⟩ := List.mem_map.mp member
    have known := inside_of_held present (whole.visit_of_mem visited).1
    have some := positive _ (whole.block_ne_metapage (held_functional held index) visited)
    rw [List.mem_range'_1]
    omega
  have enough :
      (List.range' 1 (profile.counts.sum)).length ≤
        (placements.map fun placement => placement.pending.block.toNat).length :=
    Nat.le_of_eq (by rw [List.length_map, List.length_range', whole.size_eq])
  -- As many different numbers as there are: none is left out.
  have all := ((whole.numbers_nodup present few).subperm among).perm_of_length_le enough
  have member : block.toNat ∈ List.range' 1 (profile.counts.sum) := by
    have some := positive block behind
    rw [List.mem_range'_1]
    omega
  obtain ⟨placement, visited, same⟩ := List.mem_map.mp (all.mem_iff.mpr member)
  exact ⟨placement, visited, UInt32.toNat_inj.mp same⟩

end Blocks

end ObliviousStorage.Index

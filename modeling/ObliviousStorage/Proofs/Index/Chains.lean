import ObliviousStorage.Proofs.Index.Refusals
import ObliviousStorage.Proofs.Index.TwoLevels

/-!
Contract: the sibling links of an index that was measured.

Owns: the levels that links span from the root; `ClosedChain`, a level whose pages link
to each other in order and to nothing else; that below the root every level of a measured
index is one; and that an index whose links span other levels is refused as damaged.

Of the root only the left link is looked at. A root that links to the right is taken, with
its first slot left out.

Does not own: which damage is reported.
-/

namespace ObliviousStorage.Index

open StorageM StorageView

/-! ## Levels -/

/-- A page of a level, and the block it lies in. -/
structure Member where
  block : BlockNumber
  page : Page
  trailer : Trailer

def Member.LiesIn (fetch : BlockNumber → Except Fault Page) (block : BlockNumber)
    (member : Member) : Prop :=
  member.block = block ∧ fetch block = .ok member.page ∧
    Trailer.read member.page = .ok member.trailer

/-- The levels that links span from some blocks: the pages in these blocks, and below
them, from left to right, the pages that each level links to. -/
inductive Spans (fetch : BlockNumber → Except Fault Page) :
    List BlockNumber → List (List Member) → Prop
  | ended : Spans fetch [] []
  | level
      {blocks below : List BlockNumber}
      {members : List Member}
      {deeper : List (List Member)}
      (nonempty : blocks ≠ [])
      (lie : List.Forall₂ (Member.LiesIn fetch) blocks members)
      (links : levelLinks (members.map Member.page) = .ok below)
      (continues : Spans fetch below deeper) :
      Spans fetch blocks (members :: deeper)

/-- The levels that links span from the root that the metapage names. -/
def SpansIndex (fetch : BlockNumber → Except Fault Page) (levels : List (List Member)) : Prop :=
  ∃ first metapage,
    fetch metapageBlock = .ok first ∧ Metapage.read first = .ok metapage ∧
      Spans fetch [metapage.root] levels

/-- A level whose pages link to each other in order, and to nothing else. -/
structure ClosedChain (level : List Member) : Prop where
  opens : ∀ first, level.head? = some first → first.trailer.previous = noSibling
  closes : ∀ last, level.getLast? = some last → last.trailer.next = noSibling
  linked :
    level.IsChain fun left right =>
      left.trailer.next = right.block ∧ right.trailer.previous = left.block

/-- What a walk makes sure of: nothing is to the left of the root, and below it every
level is a closed chain. -/
structure LinkedInOrder (root : Member) (below : List (List Member)) : Prop where
  first : root.trailer.previous = noSibling
  chains : ∀ level ∈ below, ClosedChain level

section Spanned

variable
  {fetch : BlockNumber → Except Fault Page}
  {blocks : List BlockNumber}
  {levels others : List (List Member)}

theorem Member.liesIn_unique : Relator.RightUnique (Member.LiesIn fetch) := by
  rintro block ⟨_, _, _⟩ ⟨_, _, _⟩ ⟨rfl, found, read⟩ ⟨rfl, found', read'⟩
  simp_all

/-- The pages settle which levels are spanned. -/
theorem Spans.unique
    (spans : Spans fetch blocks levels)
    (another : Spans fetch blocks others) :
    levels = others := by
  induction spans generalizing others with
  | ended =>
      cases another with
      | ended => rfl
      | level nonempty => exact absurd rfl nonempty
  | level nonempty lie links continues inductionHypothesis =>
      cases another with
      | ended => exact absurd rfl nonempty
      | level _ lie' links' continues' =>
          obtain rfl := List.right_unique_forall₂' Member.liesIn_unique lie lie'
          obtain rfl := Except.ok.inj (links.symm.trans links')
          rw [inductionHypothesis continues']

theorem SpansIndex.unique
    (spans : SpansIndex fetch levels)
    (another : SpansIndex fetch others) :
    levels = others := by
  obtain ⟨first, metapage, found, opens, spans⟩ := spans
  obtain ⟨first', metapage', found', opens', another⟩ := another
  obtain rfl := Except.ok.inj (found.symm.trans found')
  obtain rfl := Except.ok.inj (opens.symm.trans opens')
  exact spans.unique another

/-- A page links to nothing that the pages of its level do not link to. -/
theorem mem_levelLinks
    {pages : List Page}
    {below links : List BlockNumber}
    {page : Page}
    (level : levelLinks pages = .ok below)
    (member : page ∈ pages)
    (live : liveLinks page = .ok links) :
    links ⊆ below := by
  simp only [levelLinks, bind_eq_ok_iff, pure, Except.pure, Except.ok.injEq] at level
  obtain ⟨each, collected, rfl⟩ := level
  rw [mapM_eq_ok_iff] at collected
  obtain ⟨place, inside, rfl⟩ := List.mem_iff_getElem.mp member
  have bound := collected.length_eq ▸ inside
  have here := collected.get inside bound
  simp only [List.get_eq_getElem] at here
  obtain rfl := Except.ok.inj (live.symm.trans here)
  exact fun block among => List.mem_flatten.mpr ⟨_, List.getElem_mem bound, among⟩

/-- A page lies in each of the blocks that levels are spanned from. -/
theorem Spans.first
    (spans : Spans fetch blocks levels)
    {block : BlockNumber}
    (among : block ∈ blocks) :
    ∃ level ∈ levels, ∃ member ∈ level, member.LiesIn fetch block := by
  cases spans with
  | ended => exact absurd among (by simp)
  | level nonempty lie links continues =>
      obtain ⟨place, inside, rfl⟩ := List.mem_iff_getElem.mp among
      have bound := lie.length_eq ▸ inside
      have lies := lie.get inside bound
      rw [List.get_eq_getElem, List.get_eq_getElem] at lies
      exact ⟨_, List.mem_cons_self .., _, List.getElem_mem bound, lies⟩

/-- What a page of a spanned level links to is on a spanned level too. -/
theorem Spans.child
    (spans : Spans fetch blocks levels)
    {level : List Member}
    {member : Member}
    {links : List BlockNumber}
    {block : BlockNumber}
    (onLevel : level ∈ levels)
    (onIt : member ∈ level)
    (live : liveLinks member.page = .ok links)
    (among : block ∈ links) :
    ∃ other ∈ levels, ∃ follower ∈ other, follower.LiesIn fetch block := by
  induction spans with
  | ended => exact absurd onLevel (by simp)
  | level nonempty lie collected continues inductionHypothesis =>
      rcases List.mem_cons.mp onLevel with rfl | deeper
      · have below := mem_levelLinks collected (List.mem_map_of_mem onIt) live among
        obtain ⟨other, deeper, follower⟩ := continues.first below
        exact ⟨other, List.mem_cons_of_mem _ deeper, follower⟩
      · obtain ⟨other, deeper, follower⟩ := inductionHypothesis deeper
        exact ⟨other, List.mem_cons_of_mem _ deeper, follower⟩

/-- Links lead to nothing but pages of the levels that they span. -/
theorem SpansIndex.lies
    (spans : SpansIndex fetch levels)
    {block : BlockNumber}
    (reached : Reachable fetch block) :
    ∃ level ∈ levels, ∃ member ∈ level, member.LiesIn fetch block := by
  obtain ⟨first, metapage, found, opens, spans⟩ := spans
  induction reached with
  | root found' opens' =>
      obtain rfl := Except.ok.inj (found.symm.trans found')
      obtain rfl := Except.ok.inj (opens.symm.trans opens')
      exact spans.first (List.mem_singleton_self _)
  | child reached' found' live among inductionHypothesis =>
      obtain ⟨level, onLevel, member, onIt, -, held, -⟩ := inductionHypothesis
      obtain rfl := Except.ok.inj (held.symm.trans found')
      exact spans.child onLevel onIt live among

end Spanned

/-! ## Long levels -/

theorem liveLinks_length
    {page : Page}
    {links : List BlockNumber}
    (live : liveLinks page = .ok links) :
    links.length = liveDownlinks page := by
  obtain ⟨trailer, read, live⟩ := bind_eq_ok_iff.mp live
  rw [liveDownlinks, read]
  split at live
  · next isLeaf =>
      rw [← Except.ok.inj live]
      simp [isLeaf]
  · next inner =>
      rw [← (mapM_eq_ok_iff.mp live).length_eq]
      simp [inner]

theorem levelLinks_append
    {left right : List Page}
    {links : List BlockNumber}
    (level : levelLinks (left ++ right) = .ok links) :
    ∃ first others,
      levelLinks left = .ok first ∧ levelLinks right = .ok others ∧ links = first ++ others := by
  simp only [levelLinks, bind_eq_ok_iff, List.mapM_append, pure, Except.pure,
    Except.ok.injEq] at level ⊢
  obtain ⟨_, ⟨first, eachLeft, others, eachRight, rfl⟩, rfl⟩ := level
  exact ⟨_, _, ⟨first, eachLeft, rfl⟩, ⟨others, eachRight, rfl⟩, List.flatten_append⟩

theorem levelLinks_length
    {pages : List Page}
    {links : List BlockNumber}
    (level : levelLinks pages = .ok links) :
    links.length = (pages.map liveDownlinks).sum := by
  simp only [levelLinks, bind_eq_ok_iff, mapM_eq_ok_iff, pure, Except.pure,
    Except.ok.injEq] at level
  obtain ⟨each, collected, rfl⟩ := level
  rw [List.length_flatten]
  congr 1
  induction collected with
  | nil => rfl
  | cons live _ inductionHypothesis =>
      rw [List.map_cons, List.map_cons, liveLinks_length live, inductionHypothesis]

section Long

variable
  {fetch : BlockNumber → Except Fault Page}
  {origin : List BlockNumber}
  {levels : List (List Member)}
  {root : BlockNumber}

theorem Spans.first_level (spans : Spans fetch origin levels) :
    (levels.getD 0 []).map Member.block = origin := by
  cases spans with
  | ended => rfl
  | level _ lie =>
      refine List.forall₂_eq_eq_eq ▸ ?_
      rw [List.getD_cons_zero, List.forall₂_map_left_iff]
      exact lie.flip.imp fun _ _ lies => lies.1

/-- The pages of a spanned level lie in its blocks, and they link to those of the next one. -/
theorem Spans.at_level
    (spans : Spans fetch origin levels)
    (depth : Nat) :
    (∀ member ∈ levels.getD depth [], fetch member.block = .ok member.page) ∧
      levelLinks ((levels.getD depth []).map Member.page) =
        .ok ((levels.getD (depth + 1) []).map Member.block) := by
  induction spans generalizing depth with
  | ended => exact ⟨fun _ member => absurd member (by simp), rfl⟩
  | level _ lie links continues inductionHypothesis =>
      cases depth with
      | zero =>
          rw [List.getD_cons_zero, List.getD_cons_succ, continues.first_level]
          refine ⟨fun member among => ?_, links⟩
          obtain ⟨place, inside, rfl⟩ := List.mem_iff_getElem.mp among
          obtain ⟨same, found, -⟩ := lie.get (lie.length_eq ▸ inside) inside
          rwa [← same] at found
      | succ depth =>
          rw [List.getD_cons_succ, List.getD_cons_succ]
          exact inductionHypothesis depth

/-- What the first pages of a spanned level link to comes first on the next level. -/
theorem Spans.links_isPrefix
    {depth : Nat}
    {blocks : List BlockNumber}
    {pages : List Page}
    (spans : Spans fetch origin levels)
    (fetched : blocks.map fetch = pages.map .ok)
    (first : blocks <+: (levels.getD depth []).map Member.block) :
    ∃ links,
      levelLinks pages = .ok links ∧
        links <+: (levels.getD (depth + 1) []).map Member.block := by
  obtain ⟨lies, below⟩ := spans.at_level depth
  obtain ⟨others, split⟩ := first
  obtain ⟨members, behind, level, rfl, -⟩ := List.map_eq_append_iff.mp split.symm
  have samePages : members.map Member.page = pages := by
    rw [List.map_map] at fetched
    refine List.map_injective_iff.mpr (fun _ _ => Except.ok.inj) (Eq.trans ?_ fetched)
    rw [List.map_map]
    refine List.map_congr_left fun member among => (lies member ?_).symm
    rw [level]
    exact List.mem_append_left _ among
  rw [level, List.map_append, samePages] at below
  obtain ⟨links, further, here, -, whole⟩ := levelLinks_append below
  exact ⟨links, here, further, whole.symm⟩

/-- The pages queued for a level come first among those that links span. -/
theorem Made.queued_isPrefix
    {rootLevel : Nat}
    {visited : List Placement}
    (made : Made (fun block page => fetch block = .ok page) .measure rootLevel root visited)
    (spans : Spans fetch [root] levels)
    (depth : Nat) :
    (queuedFor root visited depth).map Pending.block <+:
      (levels.getD depth []).map Member.block := by
  induction depth with
  | zero =>
      rw [spans.first_level]
      exact List.prefix_rfl
  | succ depth inductionHypothesis =>
      have continues :
          ∀ placement ∈ onLevel depth visited,
            fetch placement.pending.block = .ok placement.page ∧
              liveLinks placement.page = .ok (placement.visit.children.map Pending.block) := by
        intro placement member
        obtain ⟨early, late, split⟩ := List.append_of_mem (mem_onLevel.mp member).1
        have goesOn := made early placement late split
        exact ⟨goesOn.fetched, liveLinks_of_visit goesOn.visits⟩
      have first := ((made.isPrefix depth).map Pending.block).trans inductionHypothesis
      have fetched :
          (((onLevel depth visited).map Placement.pending).map Pending.block).map fetch =
            ((onLevel depth visited).map Placement.page).map .ok := by
        rw [List.map_map, List.map_map, List.map_map]
        exact List.map_congr_left fun placement member => (continues placement member).1
      obtain ⟨links, level, below⟩ := spans.links_isPrefix fetched first
      obtain rfl :=
        Except.ok.inj
          (level.symm.trans (levelLinks_map fun placement member => (continues placement member).2))
      rwa [queuedFor, List.map_flatMap]

/-- A walk that comes to more links than it can count is on a level above such a long one. -/
theorem Overflows.long
    {rootLevel : Nat}
    (overflows :
      Overflows (fun block page => fetch block = .ok page) .measure rootLevel root)
    (spans : Spans fetch [root] levels) :
    ∃ depth, blockNumberBound ≤ (levels.getD (depth + 1) []).length := by
  obtain ⟨earlier, tally, pending, rest, page, reached, found, trailer, -, -, -, many⟩ := overflows
  refine ⟨pending.depth, Nat.le_trans many ?_⟩
  have fetched :
      ((onLevel pending.depth earlier).map (fun placement => placement.pending.block) ++
            [pending.block]).map fetch =
        ((onLevel pending.depth earlier).map Placement.page ++ [page]).map .ok := by
    rw [List.map_append, List.map_append, List.map_map, List.map_map, List.map_singleton,
      List.map_singleton, found]
    refine congrArg (· ++ _) (List.map_congr_left fun placement member => ?_)
    obtain ⟨early, late, split⟩ := List.append_of_mem (mem_onLevel.mp member).1
    exact (reached.made early placement late split).fetched
  have first :
      (onLevel pending.depth earlier).map (fun placement => placement.pending.block) ++
          [pending.block] <+:
        (levels.getD pending.depth []).map Member.block := by
    refine List.IsPrefix.trans ?_ (reached.made.queued_isPrefix spans pending.depth)
    rw [reached.accounted pending.depth, List.filter_cons_of_pos (by simp), List.map_append,
      List.map_map]
    exact List.prefix_append_right_inj _ |>.mpr (List.prefix_append [pending.block] _)
  obtain ⟨links, level, below⟩ := spans.links_isPrefix fetched first
  calc
    tally.nextChild + liveDownlinks page = links.length := by
      rw [levelLinks_length level, reached.nextChild_eq, List.map_append, List.map_map,
        List.sum_append, List.map_singleton, List.sum_singleton]
      rfl
    _ ≤ (levels.getD (pending.depth + 1) []).length := by
      have bound := below.length_le
      rwa [List.length_map] at bound

end Long

/-! ## Measured levels -/

/-- A visited page as a page of its level. -/
def Placement.member (placement : Placement) : Member :=
  ⟨placement.pending.block, placement.page, placement.visit.trailer⟩

/-- The pages that were visited at some depth. -/
def levelAt (depth : Nat) (placements : List Placement) : List Member :=
  (onLevel depth placements).map Placement.member

namespace WholeTrail

variable
  {held : Contents}
  {index : RelationId}
  {placements : List Placement}
  {profile : Profile}

theorem pagesOn_pos
    (whole : WholeTrail (Held held index) .measure placements profile)
    {depth : Nat}
    (known : depth < profile.counts.length) :
    0 < profile.pagesOn depth := by
  rw [Profile.pagesOn, List.getD_eq_getElem _ _ known]
  have member := List.getElem_mem known
  rcases List.mem_cons.mp member with root | below
  · rw [root]
    exact Nat.zero_lt_one
  · exact whole.fanouts_pos _ below

theorem length_levelAt
    (whole : WholeTrail (Held held index) .measure placements profile)
    (depth : Nat) :
    (levelAt depth placements).length = profile.pagesOn depth := by
  rw [levelAt, List.length_map, whole.length_onLevel]

theorem lies_of_mem
    (whole : WholeTrail (Held held index) .measure placements profile)
    {placement : Placement}
    (member : placement ∈ placements) :
    placement.member.LiesIn (held.page index) placement.pending.block := by
  obtain ⟨fetched, rootLevel, visits⟩ := whole.visit_of_mem member
  exact ⟨rfl, fetched, (LevelTally.visit_eq_ok_iff.mp visits).1⟩

/-- The pages of a level link to those of the level below it. -/
theorem levelLinks_levelAt
    (whole : WholeTrail (Held held index) .measure placements profile)
    (depth : Nat) :
    levelLinks ((levelAt depth placements).map Member.page) =
      .ok ((levelAt (depth + 1) placements).map Member.block) := by
  have live :
      ∀ placement ∈ onLevel depth placements,
        liveLinks placement.page = .ok (placement.visit.children.map Pending.block) := by
    intro placement member
    obtain ⟨-, rootLevel, visits⟩ := whole.visit_of_mem (mem_onLevel.mp member).1
    exact liveLinks_of_visit visits
  have below := congrArg (List.map Pending.block) (whole.map_pending_onLevel_succ depth)
  rw [List.map_map, List.map_flatMap] at below
  rw [levelAt, levelAt, List.map_map, List.map_map]
  exact (levelLinks_map live).trans (congrArg Except.ok below.symm)

/-- The visited levels, from some depth on, are those that links span from there. -/
theorem spans_levelAt
    (whole : WholeTrail (Held held index) .measure placements profile)
    (count : Nat)
    {depth : Nat}
    (all : depth + count = profile.counts.length) :
    Spans (held.page index) ((levelAt depth placements).map Member.block)
      ((List.range' depth count).map fun level => levelAt level placements) := by
  induction count generalizing depth with
  | zero =>
      have noPages : levelAt depth placements = [] := by
        apply List.eq_nil_of_length_eq_zero
        rw [whole.length_levelAt, Profile.pagesOn, List.getD_eq_default _ _ (by omega)]
      rw [noPages]
      exact .ended
  | succ count inductionHypothesis =>
      have some : (levelAt depth placements).map Member.block ≠ [] := by
        have positive := whole.pagesOn_pos (show depth < profile.counts.length by omega)
        rw [← whole.length_levelAt] at positive
        rw [Ne, List.map_eq_nil_iff]
        exact List.ne_nil_of_length_pos positive
      have lie :
          List.Forall₂ (Member.LiesIn (held.page index))
            ((levelAt depth placements).map Member.block) (levelAt depth placements) := by
        rw [List.forall₂_map_left_iff, List.forall₂_same, levelAt]
        intro member among
        obtain ⟨placement, onLevel, rfl⟩ := List.mem_map.mp among
        exact whole.lies_of_mem (mem_onLevel.mp onLevel).1
      exact .level some lie (whole.levelLinks_levelAt depth) (inductionHypothesis (by omega))

/-- Below the root every level of a measured index is a closed chain. -/
theorem closedChain_levelAt
    (whole : WholeTrail (Held held index) .measure placements profile)
    (depth : Nat) :
    ClosedChain (levelAt (depth + 1) placements) where
  opens first atFirst := by
    rw [List.head?_eq_getElem?, levelAt, List.getElem?_map] at atFirst
    obtain ⟨placement, among, rfl⟩ := Option.map_eq_some_iff.mp atFirst
    exact whole.previous_of_onLevel among
  closes last atLast := by
    rw [List.getLast?_eq_getElem?, whole.length_levelAt, levelAt, List.getElem?_map] at atLast
    obtain ⟨placement, among, rfl⟩ := Option.map_eq_some_iff.mp atLast
    have inside := (List.getElem?_eq_some_iff.mp among).1
    rw [whole.length_onLevel] at inside
    exact whole.next_of_onLevel among (by omega)
  linked := by
    rw [List.isChain_iff_getElem]
    intro offset inside
    rw [levelAt, List.length_map] at inside
    simp only [levelAt, List.getElem_map]
    exact whole.linked_of_onLevel (List.getElem?_eq_getElem (by omega))
      (List.getElem?_eq_getElem inside)

/-- The root is alone on its level, and nothing is to the left of it. -/
theorem root_levelAt
    (whole : WholeTrail (Held held index) .measure placements profile) :
    ∃ first metapage root,
      held.page index metapageBlock = .ok first ∧ Metapage.read first = .ok metapage ∧
        levelAt 0 placements = [root] ∧ root.block = metapage.root ∧
          root.trailer.previous = noSibling := by
  obtain ⟨first, metapage, fetched, opens, alone⟩ := whole.map_pending_onLevel_zero
  cases onRoot : onLevel 0 placements with
  | nil => simp [onRoot] at alone
  | cons placement others =>
      rw [onRoot, List.map_cons, List.cons.injEq, List.map_eq_nil_iff] at alone
      obtain ⟨pending, rfl⟩ := alone
      have atRoot : (onLevel 0 placements)[0]? = some placement := by rw [onRoot]; rfl
      refine ⟨first, metapage, placement.member, fetched, opens, ?_, ?_,
        whole.previous_of_onLevel atRoot⟩
      · rw [levelAt, onRoot]
        rfl
      · rw [Placement.member, pending]
        rfl

/-- The levels that a walk visits are those that links span, and they are linked in
order. -/
theorem linkedInOrder
    (whole : WholeTrail (Held held index) .measure placements profile) :
    ∃ root below,
      SpansIndex (held.page index) ([root] :: below) ∧
        ([root] :: below).map List.length = profile.counts ∧ LinkedInOrder root below := by
  obtain ⟨first, metapage, root, fetched, opens, alone, names, previous⟩ := whole.root_levelAt
  have all := whole.spans_levelAt profile.counts.length (Nat.zero_add _)
  rw [Profile.counts, List.length_cons, List.range'_succ, List.map_cons, alone, List.map_singleton,
    names, Nat.zero_add] at all
  refine ⟨root, (List.range' 1 profile.fanouts.length).map fun depth => levelAt depth placements,
    ⟨first, metapage, fetched, opens, all⟩, ?_, previous, ?_⟩
  · rw [List.map_cons, List.map_map, Profile.counts]
    refine congrArg (List.cons 1) (List.ext_getElem (by simp) fun place inside bound => ?_)
    rw [List.getElem_map, List.getElem_range', Function.comp_apply, whole.length_levelAt,
      Profile.pagesOn, Profile.counts, Nat.one_mul, Nat.add_comm 1, List.getD_cons_succ,
      List.getD_eq_getElem _ _ bound]
  · intro level member
    obtain ⟨depth, among, rfl⟩ := List.mem_map.mp member
    obtain ⟨place, -, rfl⟩ := List.mem_range'.mp among
    rw [Nat.one_mul, Nat.add_comm]
    exact whole.closedChain_levelAt place

end WholeTrail

/-! ## Two levels -/

theorem liveLinks_twoLevelRoot : liveLinks twoLevelRoot = .ok [2, 3] := by
  refine liveLinks_of_inner builtOf_twoLevelRoot.read (by decide) ?_
  rw [dataSlots_of_slotCount builtOf_twoLevelRoot.slotCount]
  exact
    .cons ⟨_, builtOf_twoLevelRoot.entry rfl, rfl⟩
      (.cons ⟨_, builtOf_twoLevelRoot.entry rfl, rfl⟩ .nil)

section TwoLevels

variable
  {held : Contents}
  {index : RelationId}
  {left right : Trailer}
  {low high : Entry}
  {blank : Page}

/-- The levels of the index, whatever its leaves say about their siblings. -/
theorem spansIndex_twoLevels
    (present : held index = some ⟨twoLevelIndex left right low high, blank⟩)
    (isLeaf : left.isLeaf = true ∧ right.isLeaf = true) :
    SpansIndex (held.page index)
      [[⟨1, twoLevelRoot, rootTrailer⟩],
        [⟨2, leftLeaf left low, left⟩, ⟨3, rightLeaf right high, right⟩]] := by
  have fetched : held.page index metapageBlock = .ok (Metapage.page ⟨1, 1⟩) :=
    Contents.page_of_some present rfl
  have fetchedRoot : held.page index 1 = .ok twoLevelRoot := Contents.page_of_some present rfl
  have fetchedLeft : held.page index 2 = .ok (leftLeaf left low) :=
    Contents.page_of_some present rfl
  have fetchedRight : held.page index 3 = .ok (rightLeaf right high) :=
    Contents.page_of_some present rfl
  have readLeft := (builtOf_leftLeaf left low).read
  have readRight := (builtOf_rightLeaf right high).read
  have links : levelLinks [twoLevelRoot] = .ok [2, 3] :=
    bind_eq_ok_iff.mpr ⟨[[2, 3]], mapM_eq_ok_iff.mpr (.cons liveLinks_twoLevelRoot .nil), rfl⟩
  have noLinks : levelLinks [leftLeaf left low, rightLeaf right high] = .ok [] :=
    bind_eq_ok_iff.mpr
      ⟨[[], []],
        mapM_eq_ok_iff.mpr
          (.cons (liveLinks_of_leaf readLeft isLeaf.1)
            (.cons (liveLinks_of_leaf readRight isLeaf.2) .nil)),
        rfl⟩
  have leaves :
      Spans (held.page index) [2, 3]
        [[⟨2, leftLeaf left low, left⟩, ⟨3, rightLeaf right high, right⟩]] :=
    .level (List.cons_ne_nil _ _)
      (.cons ⟨rfl, fetchedLeft, readLeft⟩ (.cons ⟨rfl, fetchedRight, readRight⟩ .nil))
      noLinks .ended
  exact
    ⟨Metapage.page ⟨1, 1⟩, ⟨1, 1⟩, fetched, Metapage.read_page _,
      .level (List.cons_ne_nil _ _) (.cons ⟨rfl, fetchedRoot, builtOf_twoLevelRoot.read⟩ .nil)
        links leaves⟩

end TwoLevels

/-- A store whose index has a right leaf that links to nothing. -/
def unlinkedStore : MemoryStorage :=
  twoLevelStore (leafTrailer noSibling 3) (leafTrailer noSibling noSibling)

/-! ## Measuring -/

/-- With its right link aside, the root of an index that is linked in order is a closed
chain. -/
theorem LinkedInOrder.closed_iff
    {root : Member}
    {below : List (List Member)}
    (inOrder : LinkedInOrder root below) :
    (∀ level ∈ [root] :: below, ClosedChain level) ↔ root.trailer.next = noSibling := by
  constructor
  · intro closed
    exact (closed [root] (List.mem_cons_self ..)).closes root rfl
  · intro ends level member
    rcases List.mem_cons.mp member with rfl | deeper
    · refine ⟨?_, ?_, .singleton root⟩
      · intro first atFirst
        rw [← Option.some.inj atFirst]
        exact inOrder.first
      · intro last atLast
        rw [← Option.some.inj atLast]
        exact ends
    · exact inOrder.chains level deeper

/-- Below the root, a measured index consists of closed chains, whose lengths are its
shape; of the root itself, the right link is not looked at. An index whose links contradict
this is refused as damaged; but if one of its levels is longer than words of 32 bits count,
then measuring breaks off where it does not come to the damage before. -/
theorem measure_chains
    {σ : Type}
    [Storage σ]
    [LawfulStorage σ]
    (index : RelationId)
    (source : σ) :
    (∀ profile,
        ((measure index).runOn source).1 = .ok profile →
          ∃ root below,
            SpansIndex ((contents source).page index) ([root] :: below) ∧
              ([root] :: below).map List.length = profile.counts ∧
                LinkedInOrder root below ∧
                  ((∀ level ∈ [root] :: below, ClosedChain level) ↔
                    root.trailer.next = noSibling)) ∧
      (Sound source →
        ∀ root below,
          SpansIndex ((contents source).page index) ([root] :: below) →
            ¬LinkedInOrder root below →
              (∃ damage, ((measure index).runOn source).1 = .error (.corruptPage damage)) ∨
                ((measure index).runOn source).1 = .error .overflow ∧
                  ∃ level ∈ below, blockNumberBound ≤ level.length) := by
  constructor
  · intro profile measured
    obtain ⟨⟨placements, whole⟩, -⟩ :=
      (measure_yields index source).runOn (runOn_eq_of_outcome measured)
    obtain ⟨root, below, spans, lengths, inOrder⟩ := whole.linkedInOrder
    exact ⟨root, below, spans, lengths, inOrder, inOrder.closed_iff⟩
  · intro sound root below spans contradicted
    obtain ⟨blocks, placements, course⟩ := measure_course sound
    obtain ⟨first, metapage, found, opens, fromRoot⟩ := id spans
    have readable :
        ∀ block, Reachable ((contents source).page index) block →
          ∃ page, (contents source).page index block = .ok page := by
      intro block reached
      obtain ⟨level, -, member, -, -, held, -⟩ := spans.lies reached
      exact ⟨member.page, held⟩
    cases measured : ((measure index).runOn source).1 with
    | error fault =>
        rw [measured] at course
        rcases course.damaged found opens readable fault rfl with ⟨damage, rfl⟩ | ⟨rfl, overflows⟩
        · exact .inl ⟨damage, rfl⟩
        · obtain ⟨depth, long⟩ := overflows.long fromRoot
          rw [List.getD_cons_succ] at long
          refine .inr ⟨rfl, below.getD depth [], ?_, long⟩
          rw [List.getD_eq_getElem?_getD] at long ⊢
          cases among : below[depth]? with
          | none => simp [among] at long
          | some level => exact List.mem_of_getElem? among
    | ok profile =>
        rw [measured] at course
        obtain ⟨root', below', spans', -, inOrder⟩ := WholeTrail.linkedInOrder course.trail
        have same := spans.unique spans'
        simp only [List.cons.injEq, and_true] at same
        obtain ⟨rfl, rfl⟩ := same
        exact absurd inOrder contradicted

/-- Two leaves that link to each other are measured; a right leaf that links to nothing is
reported as damage. -/
theorem measure_chains_twoLevels :
    (∃ root below,
      SpansIndex ((contents linkedStore).page 1) ([root] :: below) ∧
        ([root] :: below).map List.length = [1, 2] ∧ LinkedInOrder root below) ∧
      ∃ damage, ((measure 1).runOn unlinkedStore).1 = .error (.corruptPage damage) := by
  constructor
  · obtain ⟨root, below, spans, lengths, inOrder, -⟩ :=
      (measure_chains 1 linkedStore).1 _ measure_linkedStore
    exact ⟨root, below, spans, lengths, inOrder⟩
  · have spans := spansIndex_twoLevels (contents_twoLevelStore (leafTrailer noSibling 3)
      (leafTrailer noSibling noSibling)) (by decide)
    have contradicted := (measure_chains 1 unlinkedStore).2 rfl _ _ spans fun inOrder => by
      have linked := (inOrder.chains _ (List.mem_singleton.mpr rfl)).linked
      obtain ⟨⟨-, back⟩, -⟩ := List.isChain_cons_cons.mp linked
      exact absurd back (by decide)
    rcases contradicted with damaged | ⟨-, level, member, long⟩
    · exact damaged
    · rw [List.mem_singleton.mp member] at long
      exact absurd long (by simp [blockNumberBound])

/-- The trailer of a root that is a leaf and links to the right. -/
def strayTrailer : Trailer := .unplaced noSibling 7 0 (Trailer.leafFlag ||| Trailer.rootFlag)

/-- A store whose index is such a root, without entries. -/
def strayStore : MemoryStorage :=
  ⟨blockSize, #[#[Metapage.page ⟨1, 0⟩, strayTrailer.emptyPage]]⟩

/-- An index is measured although the level of its root is no closed chain. -/
theorem not_closedChain_stray :
    ((measure 1).runOn strayStore).1 = .ok ⟨[], 0⟩ ∧
      ∃ root,
        SpansIndex ((contents strayStore).page 1) [[root]] ∧ ¬ClosedChain [root] := by
  have present :
      contents strayStore 1 =
        some ⟨[Metapage.page ⟨1, 0⟩, strayTrailer.emptyPage], Page.zero⟩ := rfl
  have fetched : (contents strayStore).page 1 metapageBlock = .ok (Metapage.page ⟨1, 0⟩) :=
    Contents.page_of_some present rfl
  have fetchedRoot : (contents strayStore).page 1 1 = .ok strayTrailer.emptyPage :=
    Contents.page_of_some present rfl
  have isLeaf : strayTrailer.isLeaf = true := by decide
  constructor
  · have visits :
        LevelTally.start.visit .measure 0 (.ofRoot 1) strayTrailer.emptyPage =
          .ok (leafVisit strayTrailer strayTrailer.emptyPage) :=
      visit_leaf strayTrailer.read_emptyPage isLeaf (by decide) (by decide)
    have opens : Held (contents strayStore) 1 metapageBlock (Metapage.page ⟨1, 0⟩) := fetched
    have finds : Held (contents strayStore) 1 1 strayTrailer.emptyPage := fetchedRoot
    exact measure_of_whole rfl
      (.intro opens (Metapage.read_page _) (.visited finds visits rfl (.ended _)))
  · have noLinks : levelLinks [strayTrailer.emptyPage] = .ok [] :=
      bind_eq_ok_iff.mpr
        ⟨[[]],
          mapM_eq_ok_iff.mpr
            (.cons (liveLinks_of_leaf strayTrailer.read_emptyPage isLeaf) .nil),
          rfl⟩
    refine ⟨⟨1, strayTrailer.emptyPage, strayTrailer⟩, ?_, fun closed => ?_⟩
    · exact
        ⟨Metapage.page ⟨1, 0⟩, ⟨1, 0⟩, fetched, Metapage.read_page _,
          .level (List.cons_ne_nil _ _)
            (.cons ⟨rfl, fetchedRoot, strayTrailer.read_emptyPage⟩ .nil) noLinks .ended⟩
    · exact absurd (closed.closes _ rfl) (by decide)

end ObliviousStorage.Index

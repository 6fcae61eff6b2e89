import Mathlib.Algebra.GroupWithZero.Nat
import Mathlib.Data.List.GetD
import ObliviousStorage.Proofs.Index.Images

/-!
Contract: the visits of a walk, one after the other, without the store that the pages
come from.

Owns: `Trail`, the visits that lead from a tally and a queue to the end of a walk;
`LevelTally.Advanced`, what the counters can be after a visit; that a trail visits the
pages level by level, so that the number of visits before a page is the base of its level
plus its offset; where on the trail the children of a page are found; and the trail of a
relocating walk next to that of a measuring one.

Does not own: reading pages, or handing them over.
-/

namespace ObliviousStorage.Index

/-- A visit of a walk: where the walk was, the page it found there, and the outcome. -/
structure Placement where
  tally : LevelTally
  pending : Pending
  page : Page
  visit : Visit

/-- The visits by which a walk with this tally and queue comes to an end, and the tally
at the end. -/
inductive Trail (Fetched : BlockNumber → Page → Prop) (mode : WalkMode) (rootLevel : Nat) :
    LevelTally → List Pending → List Placement → LevelTally → Prop
  | ended (tally : LevelTally) : Trail Fetched mode rootLevel tally [] [] tally
  | visited
      {tally advanced final : LevelTally}
      {pending : Pending}
      {rest : List Pending}
      {page : Page}
      {visit : Visit}
      {later : List Placement}
      (fetched : Fetched pending.block page)
      (visits : tally.visit mode rootLevel pending page = .ok visit)
      (advances : tally.advance pending visit = .ok advanced)
      (continues : Trail Fetched mode rootLevel advanced (rest ++ visit.children) later final) :
      Trail Fetched mode rootLevel tally (pending :: rest)
        (⟨tally, pending, page, visit⟩ :: later) final

namespace Trail

variable
  {Fetched : BlockNumber → Page → Prop}
  {mode : WalkMode}
  {rootLevel : Nat}
  {tally final : LevelTally}
  {queue : List Pending}
  {placements : List Placement}

/-- What a walk visits is settled by the pages. -/
theorem unique
    {otherFinal : LevelTally}
    {others : List Placement}
    (functional :
      ∀ block one other, Fetched block one → Fetched block other → one = other)
    (trail : Trail Fetched mode rootLevel tally queue placements final)
    (another : Trail Fetched mode rootLevel tally queue others otherFinal) :
    placements = others ∧ final = otherFinal := by
  induction trail generalizing others otherFinal with
  | ended tally =>
      cases another with
      | ended => exact ⟨rfl, rfl⟩
  | @visited tally advanced final pending rest page visit later fetched visits advances continues
      inductionHypothesis =>
      cases another with
      | @visited _ advanced' _ _ _ page' visit' later' fetched' visits' advances' continues' =>
          obtain rfl := functional _ _ _ fetched fetched'
          have sameVisit : visit = visit' := Except.ok.inj (visits.symm.trans visits')
          subst sameVisit
          have sameTally : advanced = advanced' := Except.ok.inj (advances.symm.trans advances')
          subst sameTally
          obtain ⟨rfl, rfl⟩ := inductionHypothesis continues'
          exact ⟨rfl, rfl⟩

/-- The pages that are waiting are visited next, in the order of the queue. -/
theorem waiting (trail : Trail Fetched mode rootLevel tally queue placements final) :
    queue <+: placements.map Placement.pending := by
  induction trail with
  | ended => exact List.nil_prefix
  | visited fetched visits advances continues inductionHypothesis =>
      rw [List.map_cons, List.cons_prefix_cons]
      exact ⟨rfl, (List.prefix_append _ _).trans inductionHypothesis⟩

theorem tally_of_head
    {placement : Placement}
    {later : List Placement}
    (trail : Trail Fetched mode rootLevel tally queue (placement :: later) final) :
    placement.tally = tally := by
  cases trail with
  | visited => rfl

/-- Every visit of a trail was made, to a page that was fetched. -/
theorem visit_of_mem
    (trail : Trail Fetched mode rootLevel tally queue placements final)
    {placement : Placement}
    (member : placement ∈ placements) :
    Fetched placement.pending.block placement.page ∧
      placement.tally.visit mode rootLevel placement.pending placement.page =
        .ok placement.visit := by
  induction trail with
  | ended => simp at member
  | visited fetched visits advances continues inductionHypothesis =>
      rcases List.mem_cons.mp member with rfl | among
      · exact ⟨fetched, visits⟩
      · exact inductionHypothesis among

end Trail

/-! ## Level order -/

/-- The pages per level that a walk knows of, from the root's level. -/
def LevelTally.counts (tally : LevelTally) : List Nat := tally.profile.counts

theorem LevelTally.counts_eq (tally : LevelTally) : tally.counts = 1 :: tally.fanouts := rfl

/-- Where a walk is while it visits a level below the root: the pages of the level that
are still waiting, and the pages found so far for the level below. -/
structure Midway
    (rootLevel : Nat)
    (tally : LevelTally)
    (current next : List Pending)
    (depth visited : Nat) : Prop where
  current_ne : current ≠ []
  depth_pos : 0 < depth
  depth_le : depth ≤ rootLevel
  currentAt : ∀ pending ∈ current, pending.depth = depth ∧ pending.parent.isNone = false
  nextAt : ∀ pending ∈ next, pending.depth = depth + 1 ∧ pending.parent.isNone = false
  remaining : tally.offset + current.length = tally.expected
  expected_lt : tally.expected < blockNumberBound
  nextChild : tally.nextChild = next.length
  below : tally.below = next.length
  below_lt : next.length < blockNumberBound
  closed : tally.closed + 1 = depth
  inner : next ≠ [] → depth < rootLevel
  levels : tally.fanouts.length = depth
  expected : tally.counts.getD depth 0 = tally.expected
  number : (tally.counts.take depth).sum + tally.offset = visited
  first : tally.offset = 0 → tally.previous = none

/-- The states of a walk: before the root, on some level below it, or at the end. -/
inductive OnLevels (rootLevel : Nat) : LevelTally → List Pending → (visited : Nat) → Prop
  | start (root : BlockNumber) : OnLevels rootLevel .start [.ofRoot root] 0
  | midway
      {tally : LevelTally}
      {current next : List Pending}
      {depth visited : Nat}
      {queue : List Pending}
      (waiting : queue = current ++ next)
      (midway : Midway rootLevel tally current next depth visited) :
      OnLevels rootLevel tally queue visited
  | ended
      {tally : LevelTally}
      {visited : Nat}
      (all : tally.counts.sum = visited) :
      OnLevels rootLevel tally [] visited

/-- A visited page in its place: within its level, numbered in level order, and followed
by another page of its level if it links to one. -/
structure Placement.InOrder (counts : List Nat) (number : Nat) (placement : Placement) : Prop where
  inside : placement.tally.offset < counts.getD placement.pending.depth 0
  number : (counts.take placement.pending.depth).sum + placement.tally.offset = number
  follows :
    placement.pending.parent.isNone = false → placement.visit.trailer.next ≠ noSibling →
      placement.tally.offset + 1 < counts.getD placement.pending.depth 0

/-- What becomes known later does not change the place of a page. -/
theorem Placement.InOrder.extend
    {counts more : List Nat}
    {number : Nat}
    {placement : Placement}
    (inOrder : placement.InOrder counts number)
    (known : placement.pending.depth < counts.length)
    (extends_ : counts <+: more) :
    placement.InOrder more number := by
  obtain ⟨rest, rfl⟩ := extends_
  have sameCount :
      (counts ++ rest).getD placement.pending.depth 0 = counts.getD placement.pending.depth 0 :=
    List.getD_append _ _ _ _ known
  have sameBase :
      (counts ++ rest).take placement.pending.depth = counts.take placement.pending.depth :=
    List.take_append_of_le_length (Nat.le_of_lt known)
  exact
    { inside := sameCount ▸ inOrder.inside
      number := sameBase ▸ inOrder.number
      follows := sameCount ▸ inOrder.follows }

theorem sum_take_succ (counts : List Nat) (level : Nat) :
    (counts.take (level + 1)).sum = (counts.take level).sum + counts.getD level 0 := by
  rcases Nat.lt_or_ge level counts.length with inside | outside
  · rw [List.take_succ_eq_append_getElem inside, List.sum_append, List.getD_eq_getElem _ _ inside]
    simp
  · rw [List.take_of_length_le (by omega), List.take_of_length_le outside,
      List.getD_eq_default _ _ outside, Nat.add_zero]

/-- The pages up to the end of a level are no more than those above a deeper level. -/
theorem sum_take_add_getD_le_take (counts : List Nat) {level deeper : Nat} (above : level < deeper) :
    (counts.take level).sum + counts.getD level 0 ≤ (counts.take deeper).sum := by
  have parts := congrArg List.sum (List.take_append_drop (level + 1) (counts.take deeper))
  rw [List.sum_append, List.take_take, Nat.min_eq_left above, sum_take_succ] at parts
  omega

theorem sum_take_add_getD_le (counts : List Nat) (level : Nat) :
    (counts.take level).sum + counts.getD level 0 ≤ counts.sum := by
  have parts := congrArg List.sum (List.take_append_drop (level + 1) counts)
  rw [List.sum_append, sum_take_succ] at parts
  omega

/-- The children that a slot directory yields all have a parent. -/
theorem Pending.adopt_parents
    {pending : Pending}
    {mode : WalkMode}
    {slots : List Nat}
    {position : Nat}
    {page adopted : Page}
    {children : List Pending}
    (succeeds : pending.adopt mode slots position page = .ok (children, adopted)) :
    ∀ child ∈ children, child.parent.isNone = false := by
  induction slots generalizing position page adopted children with
  | nil =>
      simp only [Pending.adopt, Except.ok.injEq, Prod.mk.injEq] at succeeds
      obtain ⟨rfl, -⟩ := succeeds
      simp
  | cons slot rest inductionHypothesis =>
      simp only [Pending.adopt, bind_eq_ok_iff] at succeeds
      obtain ⟨entry, -, linked, -, _, -, ⟨others, changed⟩, later, result⟩ := succeeds
      simp only [pure, Except.pure, Except.ok.injEq, Prod.mk.injEq] at result
      obtain ⟨rfl, -⟩ := result
      intro child member
      rcases List.mem_cons.mp member with rfl | among
      · rfl
      · exact inductionHypothesis later child among

/-- A page that passes the check of its place names the level of that depth. -/
theorem Pending.level_of_place
    {pending : Pending}
    {rootLevel : Nat}
    {trailer : Trailer}
    (place : pending.checkPlace rootLevel trailer = .ok ()) :
    trailer.level.toNat + pending.depth = rootLevel := by
  simp only [Pending.checkPlace, bind_eq_ok_iff, require_eq_ok_iff] at place
  obtain ⟨_, -, levelSum, -⟩ := place
  exact levelSum

theorem LevelTally.visit_level
    {tally : LevelTally}
    {mode : WalkMode}
    {rootLevel : Nat}
    {pending : Pending}
    {page : Page}
    {visit : Visit}
    (visits : tally.visit mode rootLevel pending page = .ok visit) :
    visit.trailer.level.toNat + pending.depth = rootLevel := by
  obtain ⟨-, place, -⟩ := LevelTally.visit_eq_ok_iff.mp visits
  exact Pending.level_of_place place

/-- A visited page is a leaf at the lowest level, or it has as many children as live
slots, one level further down. -/
theorem LevelTally.visit_shape
    {tally : LevelTally}
    {mode : WalkMode}
    {rootLevel : Nat}
    {pending : Pending}
    {page : Page}
    {visit : Visit}
    (visits : tally.visit mode rootLevel pending page = .ok visit) :
    visit.trailer.isLeaf = true ∧ visit.children = [] ∧ pending.depth = rootLevel ∨
      visit.trailer.isLeaf = false ∧ visit.live = visit.children.length ∧
        pending.depth < rootLevel ∧
          ∀ child ∈ visit.children,
            child.depth = pending.depth + 1 ∧ child.parent.isNone = false := by
  obtain ⟨-, place, -, live, linked, adopts, -⟩ := LevelTally.visit_eq_ok_iff.mp visits
  have levelSum := LevelTally.visit_level visits
  simp only [Pending.checkPlace, bind_eq_ok_iff, require_eq_ok_iff] at place
  obtain ⟨_, -, -, leafLevel⟩ := place
  cases isLeaf : visit.trailer.isLeaf with
  | true =>
      have lowest : visit.trailer.level = 0 := by
        rw [isLeaf] at leafLevel
        exact of_decide_eq_true leafLevel.symm
      have noChildren : [] = visit.children ∧ page = linked := by
        simpa [Pending.children, isLeaf] using adopts
      rw [lowest] at levelSum
      exact Or.inl ⟨rfl, noChildren.1.symm, by simpa using levelSum⟩
  | false =>
      have above : visit.trailer.level ≠ 0 := by
        rw [isLeaf] at leafLevel
        exact of_decide_eq_false leafLevel.symm
      have positive : visit.trailer.level.toNat ≠ 0 :=
        fun zero => above (UInt32.toNat_inj.mp zero)
      have adoption :
          pending.adopt mode (visit.trailer.dataSlots page) tally.nextChild page =
            .ok (visit.children, linked) := by
        simpa [Pending.children, isLeaf] using adopts
      obtain ⟨sameLength, deeper⟩ := Pending.adopt_children adoption
      refine Or.inr ⟨rfl, live.trans sameLength.symm, by omega, fun child member => ?_⟩
      exact ⟨deeper child member, Pending.adopt_parents adoption child member⟩

/-- The pages that a visit finds are few enough to be counted. -/
theorem LevelTally.visit_counted
    {tally : LevelTally}
    {mode : WalkMode}
    {rootLevel : Nat}
    {pending : Pending}
    {page : Page}
    {visit : Visit}
    (visits : tally.visit mode rootLevel pending page = .ok visit) :
    visit.children.length < branchingBound ∧
      Counted tally.nextChild visit.children.length := by
  obtain ⟨-, -, -, -, linked, adopts, -⟩ := LevelTally.visit_eq_ok_iff.mp visits
  constructor
  · rcases LevelTally.visit_children visits with none | ⟨-, few, -⟩
    · rw [none]
      decide
    · exact few
  · unfold Pending.children at adopts
    split at adopts
    · obtain ⟨none, -⟩ := Prod.mk.inj (Except.ok.inj adopts)
      rw [← none]
      exact .inl rfl
    · rw [(Pending.adopt_children adopts).1]
      exact adopt_counted adopts

/-! ### Counters -/

/-- The pages found for the level below, with those of a visit. -/
def LevelTally.found (tally : LevelTally) (visit : Visit) : Nat :=
  if visit.trailer.isLeaf then tally.below else tally.below + visit.live

theorem LevelTally.countBelow_eq_ok_iff {tally : LevelTally} {visit : Visit} {below : Nat} :
    tally.countBelow visit = .ok below ↔
      below = tally.found visit ∧
        (visit.trailer.isLeaf = false → tally.below + visit.live < blockNumberBound) := by
  unfold LevelTally.countBelow LevelTally.found
  cases visit.trailer.isLeaf with
  | true => simp [eq_comm]
  | false => simp [wordSum_eq_ok_iff, and_comm]

/-- The counters when the walk goes on with the level below the root. -/
def LevelTally.behindRoot (tally : LevelTally) (visit : Visit) : LevelTally :=
  { tally with
    fanouts :=
      if visit.trailer.isLeaf = false ∧ 0 < visit.live then tally.fanouts ++ [visit.live]
      else tally.fanouts
    expected := visit.live
    offset := 0
    nextChild := 0 }

/-- The counters when it goes on to the right. -/
def LevelTally.beside (tally : LevelTally) (pending : Pending) (visit : Visit) : LevelTally :=
  { tally with
    below := tally.found visit
    offset := tally.offset + 1
    nextChild := tally.nextChild + visit.children.length
    previous := some (pending.block, visit.trailer.next) }

/-- The counters when it goes on with the next level. -/
def LevelTally.behindLevel (tally : LevelTally) (visit : Visit) : LevelTally where
  fanouts :=
    if visit.trailer.isLeaf = false ∧ 0 < tally.found visit then
      tally.fanouts ++ [tally.found visit]
    else tally.fanouts
  expected := tally.found visit
  below := 0
  offset := 0
  nextChild := 0
  closed := tally.closed + 1
  previous := none

section Step

variable
  {rootLevel : Nat}
  {tally advanced : LevelTally}
  {mode : WalkMode}
  {pending : Pending}
  {rest : List Pending}
  {page : Page}
  {visit : Visit}
  {visited : Nat}

/-- What the counters can be after a visit. -/
inductive LevelTally.Advanced (tally : LevelTally) (pending : Pending) (visit : Visit) :
    LevelTally → Prop
  | root (isRoot : pending.parent.isNone = true) :
      Advanced tally pending visit (tally.behindRoot visit)
  | within
      (inner : pending.parent.isNone = false)
      (notLast : tally.offset + 1 ≠ tally.expected) :
      Advanced tally pending visit (tally.beside pending visit)
  | closing
      (inner : pending.parent.isNone = false)
      (last : tally.offset + 1 = tally.expected)
      (rightmost : visit.trailer.isRightmost = true) :
      Advanced tally pending visit (tally.behindLevel visit)

theorem LevelTally.advanced_of_advance
    (advances : tally.advance pending visit = .ok advanced) :
    tally.Advanced pending visit advanced := by
  unfold LevelTally.advance at advances
  split at advances
  · next isRoot =>
      rw [← Except.ok.inj advances]
      exact .root isRoot
  · next notRoot =>
      have inner : pending.parent.isNone = false := eq_false_of_ne_true notRoot
      simp only [bind_eq_ok_iff, wordSum_eq_ok_iff, LevelTally.countBelow_eq_ok_iff] at advances
      obtain ⟨_, ⟨rfl, -⟩, _, ⟨-, rfl⟩, advances⟩ := advances
      split at advances
      · next last =>
          split at advances
          · next rightmost =>
              obtain ⟨_, closes, advances⟩ := bind_eq_ok_iff.mp advances
              obtain ⟨-, rfl⟩ := wordSum_eq_ok_iff.mp closes
              rw [← Except.ok.inj advances]
              exact .closing inner last rightmost
          · exact absurd advances (by simp)
      · next notLast =>
          rw [← Except.ok.inj advances]
          exact .within inner notLast

/-- Where the counters hold their sums, a page below the root completes its level, links too
far to the right, or has further pages of its level behind it. -/
theorem LevelTally.advance_of_fits
    (inner : pending.parent.isNone = false)
    (below : visit.trailer.isLeaf = false → tally.below + visit.live < blockNumberBound)
    (offset : tally.offset + 1 < blockNumberBound)
    (closed : tally.closed + 1 < blockNumberBound) :
    tally.advance pending visit =
      if tally.offset + 1 = tally.expected then
        if visit.trailer.isRightmost then .ok (tally.behindLevel visit)
        else .error (.corruptPage (.unclosedLevel pending.block pending.depth visit.trailer.next))
      else .ok (tally.beside pending visit) := by
  have counted := LevelTally.countBelow_eq_ok_iff.mpr ⟨rfl, below⟩
  have visited : wordSum tally.offset 1 = .ok (tally.offset + 1) := if_pos offset
  have onward : wordSum tally.closed 1 = .ok (tally.closed + 1) := if_pos closed
  simp only [LevelTally.advance, inner, counted, visited, onward, bind, Except.bind,
    Bool.false_eq_true, ↓reduceIte]
  rfl

/-- A walk never records a level without pages. -/
theorem LevelTally.advance_fanouts_pos
    (advances : tally.advance pending visit = .ok advanced)
    (positive : ∀ count ∈ tally.fanouts, 0 < count) :
    ∀ count ∈ advanced.fanouts, 0 < count := by
  have extended :
      ∀ (known : Prop) [Decidable known] (more : Nat), (known → 0 < more) →
        ∀ count ∈ (if known then tally.fanouts ++ [more] else tally.fanouts), 0 < count := by
    intro known _ more some count member
    split at member
    · next holds =>
        rcases List.mem_append.mp member with before | last
        · exact positive count before
        · rw [List.mem_singleton.mp last]
          exact some holds
    · exact positive count member
  cases LevelTally.advanced_of_advance advances with
  | root => exact extended _ _ And.right
  | within => exact positive
  | closing => exact extended _ _ And.right

/-- A page below the root that links to a further one is not the last of its level. -/
theorem LevelTally.not_last_of_next
    (advances : tally.advance pending visit = .ok advanced)
    (inner : pending.parent.isNone = false)
    (linked : visit.trailer.next ≠ noSibling) :
    tally.offset + 1 ≠ tally.expected := by
  cases LevelTally.advanced_of_advance advances with
  | root isRoot => exact absurd (inner.symm.trans isRoot) (by simp)
  | within _ notLast => exact notLast
  | closing _ _ rightmost => exact absurd (of_decide_eq_true rightmost) linked

/-- The page visited next is in its place, and behind the pages that wait with it lie
the places of its children. -/
theorem OnLevels.inOrder
    (page : Page)
    (on : OnLevels rootLevel tally (pending :: rest) visited)
    (advances : tally.advance pending visit = .ok advanced) :
    pending.depth < tally.counts.length ∧
      Placement.InOrder tally.counts visited ⟨tally, pending, page, visit⟩ ∧
        (tally.counts.take (pending.depth + 1)).sum + tally.nextChild =
          visited + 1 + rest.length := by
  cases on with
  | start root =>
      refine ⟨Nat.zero_lt_one, ⟨Nat.zero_lt_one, rfl, fun inner => ?_⟩, rfl⟩
      exact absurd inner (by simp [Pending.ofRoot])
  | @midway _ current next depth _ _ waiting midway =>
      cases current with
      | nil => exact absurd rfl midway.current_ne
      | cons first others =>
          obtain ⟨rfl, rfl⟩ : pending = first ∧ rest = others ++ next := by
            simpa using waiting
          obtain ⟨atDepth, inner⟩ := midway.currentAt pending (by simp)
          have levels := midway.levels
          have known : tally.counts.length = depth + 1 := by
            simp [LevelTally.counts_eq, levels]
          have remaining := midway.remaining
          rw [List.length_cons] at remaining
          refine ⟨by omega, ⟨?_, ?_, fun _ linked => ?_⟩, ?_⟩
          · simp only [atDepth, midway.expected]
            omega
          · simpa only [atDepth] using midway.number
          · have notLast := LevelTally.not_last_of_next advances inner linked
            simp only [atDepth, midway.expected]
            omega
          · have number := midway.number
            rw [atDepth, sum_take_succ, midway.expected, midway.nextChild, List.length_append]
            omega

/-- The walk's state after a visit that opens a level: all pages of the level wait, and
nothing is known of the level below. -/
theorem onLevels_of_opened
    (tally : LevelTally)
    (depth : Nat)
    {opened : LevelTally}
    {children : List Pending}
    (positive : 0 < depth)
    (childrenAt : ∀ child ∈ children, child.depth = depth ∧ child.parent.isNone = false)
    (inner : children ≠ [] → depth ≤ rootLevel)
    (few : children.length < blockNumberBound)
    (expected : children ≠ [] → opened.expected = children.length)
    (closed : opened.closed + 1 = depth)
    (offset : opened.offset = 0)
    (nextChild : opened.nextChild = 0)
    (below : opened.below = 0)
    (first : opened.previous = none)
    (levels :
      opened.counts =
        if 0 < children.length then tally.counts ++ [children.length] else tally.counts)
    (known : tally.counts.length = depth)
    (all : tally.counts.sum = visited + 1) :
    OnLevels rootLevel opened children (visited + 1) := by
  cases children with
  | nil =>
      refine .ended ?_
      rw [levels, if_neg (by simp)]
      exact all
  | cons child others =>
      rw [if_pos (by simp)] at levels
      refine .midway (List.append_nil _).symm
        { current_ne := by simp
          depth_pos := positive
          depth_le := inner (by simp)
          currentAt := childrenAt
          nextAt := by simp
          remaining := by rw [offset, expected (by simp), Nat.zero_add]
          expected_lt := by rwa [expected (by simp)]
          nextChild := nextChild
          below := below
          below_lt := by decide
          closed := closed
          inner := fun absent => absurd rfl absent
          levels := ?_
          expected := ?_
          number := ?_
          first := fun _ => first }
      · have length := congrArg List.length levels
        rw [LevelTally.counts_eq opened, List.length_append, known] at length
        simpa using length
      · rw [levels, ← known, List.getD_append_right _ _ _ _ (Nat.le_refl _), Nat.sub_self,
          expected (by simp)]
        rfl
      · rw [levels, offset, ← known, List.take_left, Nat.add_zero, all]

/-- The pages found for the level below, after one more visit. -/
theorem Midway.found
    {current next : List Pending}
    {depth : Nat}
    (midway : Midway rootLevel tally (pending :: current) next depth visited)
    (visits : tally.visit mode rootLevel pending page = .ok visit) :
    tally.found visit = (next ++ visit.children).length ∧
      ∀ child ∈ next ++ visit.children,
        child.depth = depth + 1 ∧ child.parent.isNone = false := by
  obtain ⟨atDepth, -⟩ := midway.currentAt pending (by simp)
  rw [LevelTally.found, List.length_append, midway.below]
  rcases LevelTally.visit_shape visits with
    ⟨isLeaf, noChildren, -⟩ | ⟨isLeaf, live, -, childrenAt⟩
  · refine ⟨by rw [if_pos isLeaf, noChildren, List.length_nil, Nat.add_zero], ?_⟩
    rw [noChildren, List.append_nil]
    exact midway.nextAt
  · refine ⟨by rw [isLeaf, live]; rfl, ?_⟩
    intro child member
    rcases List.mem_append.mp member with among | among
    · exact midway.nextAt child among
    · rw [← atDepth]
      exact childrenAt child among

/-- They are few enough to be counted. -/
theorem Midway.found_lt
    {current next : List Pending}
    {depth : Nat}
    (midway : Midway rootLevel tally current next depth visited)
    (visits : tally.visit mode rootLevel pending page = .ok visit) :
    (next ++ visit.children).length < blockNumberBound := by
  have few := midway.below_lt
  rw [List.length_append]
  rcases (LevelTally.visit_counted visits).2 with none | fits
  · rwa [none]
  · rwa [← midway.nextChild]

/-- Pages are found below inner levels only. -/
theorem Midway.found_inner
    {current next : List Pending}
    {depth : Nat}
    (midway : Midway rootLevel tally (pending :: current) next depth visited)
    (visits : tally.visit mode rootLevel pending page = .ok visit)
    (some : next ++ visit.children ≠ []) :
    visit.trailer.isLeaf = false ∧ depth < rootLevel := by
  obtain ⟨atDepth, -⟩ := midway.currentAt pending (by simp)
  rcases LevelTally.visit_shape visits with
    ⟨isLeaf, noChildren, lowest⟩ | ⟨isLeaf, -, above, -⟩
  · rw [noChildren, List.append_nil] at some
    have above := midway.inner some
    omega
  · exact ⟨isLeaf, by omega⟩

theorem Midway.counts_length
    {current next : List Pending}
    {depth : Nat}
    (midway : Midway rootLevel tally current next depth visited) :
    tally.counts.length = depth + 1 := by
  rw [LevelTally.counts_eq, List.length_cons, midway.levels]

/-- What becomes known of the levels with the root. -/
theorem LevelTally.fanouts_behindRoot
    (visits : tally.visit mode rootLevel pending page = .ok visit) :
    (tally.behindRoot visit).fanouts =
      if 0 < visit.children.length then tally.fanouts ++ [visit.children.length]
      else tally.fanouts := by
  unfold LevelTally.behindRoot
  rcases LevelTally.visit_shape visits with ⟨isLeaf, noChildren, -⟩ | ⟨inner, live, -⟩
  · simp only [isLeaf, noChildren, List.length_nil, Bool.true_eq_false, false_and, ↓reduceIte,
      Nat.lt_irrefl]
  · simp only [inner, live, true_and]

/-- What becomes known of the levels with the last page of a level. -/
theorem Midway.fanouts_behindLevel
    {current next : List Pending}
    {depth : Nat}
    (midway : Midway rootLevel tally (pending :: current) next depth visited)
    (visits : tally.visit mode rootLevel pending page = .ok visit) :
    (tally.behindLevel visit).fanouts =
      if 0 < (next ++ visit.children).length then
        tally.fanouts ++ [(next ++ visit.children).length]
      else tally.fanouts := by
  rw [LevelTally.behindLevel, (midway.found visits).1]
  by_cases none : next ++ visit.children = []
  · simp [none]
  · have inner := (midway.found_inner visits none).1
    have some := List.length_pos_iff.mpr none
    rw [if_pos some, if_pos ⟨inner, some⟩]

/-- The visit that completes a level. -/
theorem Midway.closes
    {next : List Pending}
    {depth : Nat}
    (midway : Midway rootLevel tally [pending] next depth visited)
    (visits : tally.visit mode rootLevel pending page = .ok visit)
    (advances : tally.advance pending visit = .ok advanced) :
    OnLevels rootLevel advanced (next ++ visit.children) (visited + 1) ∧
      tally.counts <+: advanced.counts := by
  obtain ⟨-, hasParent⟩ := midway.currentAt pending (by simp)
  obtain ⟨below, foundAt⟩ := midway.found visits
  have known := midway.counts_length
  have last : tally.offset + 1 = tally.expected := midway.remaining
  cases LevelTally.advanced_of_advance advances with
  | root isRoot => exact absurd (hasParent.symm.trans isRoot) (by simp)
  | within _ notLast => exact absurd last notLast
  | closing =>
      have counts :
          (tally.behindLevel visit).counts =
            if 0 < (next ++ visit.children).length then
              tally.counts ++ [(next ++ visit.children).length]
            else tally.counts := by
        rw [LevelTally.counts_eq, LevelTally.counts_eq, midway.fanouts_behindLevel visits]
        split <;> rfl
      have all : tally.counts.sum = visited + 1 := by
        have number := midway.number
        have whole := sum_take_succ tally.counts depth
        rw [List.take_of_length_le (by omega), midway.expected] at whole
        omega
      have opened :
          OnLevels rootLevel (tally.behindLevel visit) (next ++ visit.children) (visited + 1) :=
        onLevels_of_opened tally (depth + 1) (Nat.succ_pos _) foundAt
          (fun some => (midway.found_inner visits some).2) (midway.found_lt visits) (fun _ => below)
          (congrArg Nat.succ midway.closed) rfl rfl rfl rfl counts known all
      refine ⟨opened, ?_⟩
      rw [counts]
      split
      · exact List.prefix_append _ _
      · exact List.prefix_rfl

/-- A visit within a level. -/
theorem Midway.goesOn
    {second : Pending}
    {others next : List Pending}
    {depth : Nat}
    (midway : Midway rootLevel tally (pending :: second :: others) next depth visited)
    (visits : tally.visit mode rootLevel pending page = .ok visit)
    (advances : tally.advance pending visit = .ok advanced) :
    Midway rootLevel advanced (second :: others) (next ++ visit.children) depth (visited + 1) ∧
      advanced.counts = tally.counts := by
  obtain ⟨-, hasParent⟩ := midway.currentAt pending (by simp)
  obtain ⟨below, foundAt⟩ := midway.found visits
  have remaining := midway.remaining
  simp only [List.length_cons] at remaining
  cases LevelTally.advanced_of_advance advances with
  | root isRoot => exact absurd (hasParent.symm.trans isRoot) (by simp)
  | closing _ last => omega
  | within =>
      refine ⟨?_, rfl⟩
      exact
        { current_ne := by simp
          depth_pos := midway.depth_pos
          depth_le := midway.depth_le
          currentAt := fun waiting member => midway.currentAt waiting (by simp [member])
          nextAt := foundAt
          remaining := by
            show tally.offset + 1 + (second :: others).length = tally.expected
            rw [List.length_cons]
            omega
          expected_lt := midway.expected_lt
          nextChild := by
            show tally.nextChild + visit.children.length = (next ++ visit.children).length
            rw [List.length_append, midway.nextChild]
          below := below
          below_lt := midway.found_lt visits
          closed := midway.closed
          inner := fun some => (midway.found_inner visits some).2
          levels := midway.levels
          expected := midway.expected
          number := by
            show (tally.counts.take depth).sum + (tally.offset + 1) = visited + 1
            rw [← Nat.add_assoc, midway.number]
          first := fun atStart => absurd atStart (Nat.succ_ne_zero _) }

/-- A visit leads from one state of the walk to the next. -/
theorem OnLevels.advance
    (on : OnLevels rootLevel tally (pending :: rest) visited)
    (visits : tally.visit mode rootLevel pending page = .ok visit)
    (advances : tally.advance pending visit = .ok advanced) :
    OnLevels rootLevel advanced (rest ++ visit.children) (visited + 1) ∧
      tally.counts <+: advanced.counts := by
  cases on with
  | start root =>
      obtain rfl : LevelTally.start.behindRoot visit = advanced := by
        cases LevelTally.advanced_of_advance advances with
        | root => rfl
        | within inner => exact absurd inner (by simp [Pending.ofRoot])
        | closing inner => exact absurd inner (by simp [Pending.ofRoot])
      rw [List.nil_append]
      rcases LevelTally.visit_shape visits with
        ⟨isLeaf, noChildren, -⟩ | ⟨inner, live, above, childrenAt⟩
      · rw [noChildren]
        refine ⟨.ended ?_, ?_⟩ <;>
          simp [LevelTally.counts_eq, LevelTally.behindRoot, isLeaf, LevelTally.start]
      · have few : visit.children.length < blockNumberBound :=
          Nat.lt_trans (LevelTally.visit_counted visits).1 (by decide)
        refine ⟨onLevels_of_opened .start 1 Nat.zero_lt_one childrenAt (fun _ => above) few
          (fun _ => live) rfl rfl rfl rfl rfl ?_ rfl rfl, ?_⟩
        · simp only [LevelTally.counts_eq, LevelTally.behindRoot, inner, live, true_and,
            LevelTally.start]
          split <;> rfl
        · simp [LevelTally.counts_eq, LevelTally.start]
  | @midway _ current next depth _ _ waiting midway =>
      match current, waiting, midway with
      | [], _, midway => exact absurd rfl midway.current_ne
      | [first], waiting, midway =>
          obtain ⟨rfl, rfl⟩ : pending = first ∧ rest = next := by simpa using waiting
          exact midway.closes visits advances
      | first :: second :: others, waiting, midway =>
          obtain ⟨rfl, rfl⟩ : pending = first ∧ rest = second :: others ++ next := by
            simpa using waiting
          obtain ⟨goesOn, counts⟩ := midway.goesOn visits advances
          exact ⟨.midway (List.append_assoc _ _ _) goesOn, counts ▸ List.prefix_rfl⟩

end Step

namespace Trail

variable
  {Fetched : BlockNumber → Page → Prop}
  {mode : WalkMode}
  {rootLevel : Nat}
  {tally final : LevelTally}
  {queue : List Pending}
  {placements : List Placement}
  {visited : Nat}

theorem fanouts_pos
    (trail : Trail Fetched mode rootLevel tally queue placements final)
    (positive : ∀ count ∈ tally.fanouts, 0 < count) :
    ∀ count ∈ final.fanouts, 0 < count := by
  induction trail with
  | ended => exact positive
  | visited fetched visits advances continues inductionHypothesis =>
      exact inductionHypothesis (LevelTally.advance_fanouts_pos advances positive)

/-- The levels known at some point of a walk are those known at its end, and in the end
there are as many pages on them as were visited. -/
theorem counts
    (trail : Trail Fetched mode rootLevel tally queue placements final)
    (on : OnLevels rootLevel tally queue visited) :
    tally.counts <+: final.counts ∧ final.counts.sum = visited + placements.length := by
  induction trail generalizing visited with
  | ended tally =>
      refine ⟨List.prefix_rfl, ?_⟩
      cases on with
      | ended all => simpa using all
      | midway waiting midway =>
          exact absurd (List.append_eq_nil_iff.mp waiting.symm).1 midway.current_ne
  | visited fetched visits advances continues inductionHypothesis =>
      obtain ⟨next, known⟩ := on.advance visits advances
      obtain ⟨later, all⟩ := inductionHypothesis next
      refine ⟨known.trans later, ?_⟩
      rw [all, List.length_cons]
      omega

/-- A trail visits pages in level order. -/
theorem inOrder
    (trail : Trail Fetched mode rootLevel tally queue placements final)
    (on : OnLevels rootLevel tally queue visited)
    {index : Nat}
    {placement : Placement}
    (among : placements[index]? = some placement) :
    placement.InOrder final.counts (visited + index) := by
  induction trail generalizing visited index with
  | ended => simp at among
  | visited fetched visits advances continues inductionHypothesis =>
      obtain ⟨next, known⟩ := on.advance visits advances
      cases index with
      | zero =>
          obtain ⟨inside, inOrder, -⟩ := on.inOrder _ advances
          obtain ⟨later, -⟩ := continues.counts next
          simp only [List.getElem?_cons_zero, Option.some.injEq] at among
          rw [← among]
          exact inOrder.extend inside (known.trans later)
      | succ index =>
          have inOrder := inductionHypothesis next (by simpa using among)
          rwa [Nat.add_right_comm, Nat.add_assoc] at inOrder

/-- The children of a visited page are visited as well, at the positions that the walk
set aside for them. -/
theorem child
    (trail : Trail Fetched mode rootLevel tally queue placements final)
    (on : OnLevels rootLevel tally queue visited)
    {placement : Placement}
    (member : placement ∈ placements)
    {index : Nat}
    {child : Pending}
    (linked : placement.visit.children[index]? = some child) :
    ∃ follower ∈ placements,
      follower.pending = child ∧
        follower.tally.offset = placement.tally.nextChild + index := by
  induction trail generalizing visited with
  | ended => simp at member
  | @visited tally advanced final pending rest page visit later fetched visits advances continues
      inductionHypothesis =>
      obtain ⟨next, known⟩ := on.advance visits advances
      rcases List.mem_cons.mp member with rfl | among
      · obtain ⟨inside, -, base⟩ := on.inOrder page advances
        obtain ⟨behind, -⟩ := continues.counts next
        -- The child waits behind the pages that waited with its parent.
        have waits : (rest ++ visit.children)[rest.length + index]? = some child := by
          rw [List.getElem?_append_right (Nat.le_add_right _ _), Nat.add_sub_cancel_left, linked]
        obtain ⟨behindQueue, split⟩ := continues.waiting
        obtain ⟨follower, place, pendingSame⟩ :
            ∃ follower, later[rest.length + index]? = some follower ∧
              follower.pending = child := by
          have short := (List.getElem?_eq_some_iff.mp waits).1
          have mapped : (later.map Placement.pending)[rest.length + index]? = some child := by
            rw [← split, List.getElem?_append_left short, waits]
          simpa using mapped
        refine ⟨follower, List.mem_cons_of_mem _ (List.mem_of_getElem? place), pendingSame, ?_⟩
        have number := (continues.inOrder next place).number
        have deeper : child.depth = pending.depth + 1 := by
          rcases LevelTally.visit_shape visits with ⟨-, noChildren, -⟩ | ⟨-, -, -, childrenAt⟩
          · simp [noChildren] at linked
          · exact (childrenAt child (List.mem_of_getElem? linked)).1
        obtain ⟨unknown, whole⟩ := known.trans behind
        have reaches : pending.depth + 1 ≤ tally.counts.length := inside
        rw [pendingSame, deeper, ← whole, List.take_append_of_le_length reaches] at number
        simp only
        omega
      · obtain ⟨follower, found, place⟩ := inductionHypothesis next among
        exact ⟨follower, List.mem_cons_of_mem _ found, place⟩

end Trail

/-! ## Distinct blocks -/

section Siblings

variable
  {rootLevel : Nat}
  {tally advanced : LevelTally}
  {mode : WalkMode}
  {pending : Pending}
  {rest : List Pending}
  {page : Page}
  {visit : Visit}
  {visited : Nat}

theorem OnLevels.first
    (on : OnLevels rootLevel tally (pending :: rest) visited)
    (first : tally.offset = 0) :
    tally.previous = none := by
  cases on with
  | start => rfl
  | midway waiting midway => exact midway.first first

/-- A page that passes the check of its siblings links to the left as the walk expects. -/
theorem LevelTally.previous_of_siblings
    {block : BlockNumber}
    {trailer : Trailer}
    (siblings : tally.checkSiblings block trailer = .ok ()) :
    tally.expectedPrevious block = .ok trailer.previous := by
  simp only [LevelTally.checkSiblings, bind_eq_ok_iff, require_eq_ok_iff] at siblings
  obtain ⟨expected, expects, same⟩ := siblings
  rw [expects, same]

theorem LevelTally.visit_previous
    (visits : tally.visit mode rootLevel pending page = .ok visit) :
    tally.expectedPrevious pending.block = .ok visit.trailer.previous := by
  obtain ⟨-, -, siblings, -⟩ := LevelTally.visit_eq_ok_iff.mp visits
  exact LevelTally.previous_of_siblings siblings

theorem LevelTally.expectedPrevious_of_some
    {left linked block expected : BlockNumber}
    (behind : tally.previous = some (left, linked))
    (expects : tally.expectedPrevious block = .ok expected) :
    linked = block ∧ expected = left := by
  simp only [LevelTally.expectedPrevious, behind] at expects
  split at expects
  · next same => exact ⟨same, (Except.ok.inj expects).symm⟩
  · exact absurd expects (by simp)

/-- Within a level the walk remembers the page that it visited last. -/
theorem LevelTally.advance_previous
    (advances : tally.advance pending visit = .ok advanced)
    (within : advanced.offset ≠ 0) :
    advanced.previous = some (pending.block, visit.trailer.next) := by
  cases LevelTally.advanced_of_advance advances with
  | root => exact absurd rfl within
  | within => rfl
  | closing => exact absurd rfl within

end Siblings

namespace Trail

variable
  {Fetched : BlockNumber → Page → Prop}
  {mode : WalkMode}
  {rootLevel : Nat}
  {tally final : LevelTally}
  {queue : List Pending}
  {placements : List Placement}
  {visited : Nat}

/-- The first page of a level has no left link. -/
theorem previous_of_first
    (trail : Trail Fetched mode rootLevel tally queue placements final)
    (on : OnLevels rootLevel tally queue visited)
    {placement : Placement}
    (member : placement ∈ placements)
    (first : placement.tally.offset = 0) :
    placement.visit.trailer.previous = noSibling := by
  induction trail generalizing visited with
  | ended => simp at member
  | visited fetched visits advances continues inductionHypothesis =>
      rcases List.mem_cons.mp member with rfl | among
      · have expects := LevelTally.visit_previous visits
        rw [LevelTally.expectedPrevious, on.first first] at expects
        exact (Except.ok.inj expects).symm
      · exact inductionHypothesis (on.advance visits advances).1 among

/-- On every other page of a level, the walk remembers the page visited before it. -/
theorem remembered
    (trail : Trail Fetched mode rootLevel tally queue placements final)
    {index : Nat}
    {left placement : Placement}
    (before : placements[index]? = some left)
    (among : placements[index + 1]? = some placement)
    (within : placement.tally.offset ≠ 0) :
    placement.tally.previous = some (left.pending.block, left.visit.trailer.next) := by
  induction trail generalizing index with
  | ended => simp at among
  | @visited _ advanced _ _ _ _ _ later fetched visits advances continues inductionHypothesis =>
      cases index with
      | zero =>
          simp only [List.getElem?_cons_zero, Option.some.injEq] at before
          rw [← before]
          cases later with
          | nil => simp at among
          | cons next others =>
              have isNext : next = placement := by simpa using among
              subst isNext
              have atNext := continues.tally_of_head
              rw [atNext] at within ⊢
              exact LevelTally.advance_previous advances within
      | succ index => exact inductionHypothesis (by simpa using before) (by simpa using among)

/-- Two pages that follow each other on a level link to each other. -/
theorem linked_of_next
    (trail : Trail Fetched mode rootLevel tally queue placements final)
    {index : Nat}
    {left placement : Placement}
    (before : placements[index]? = some left)
    (among : placements[index + 1]? = some placement)
    (within : placement.tally.offset ≠ 0) :
    left.visit.trailer.next = placement.pending.block ∧
      placement.visit.trailer.previous = left.pending.block := by
  obtain ⟨-, visits⟩ := trail.visit_of_mem (List.mem_of_getElem? among)
  exact LevelTally.expectedPrevious_of_some (trail.remembered before among within)
    (LevelTally.visit_previous visits)

/-- Behind the first page of its level, a page links to the one visited before it. -/
theorem exists_left
    (trail : Trail Fetched mode rootLevel tally queue placements final)
    (on : OnLevels rootLevel tally queue 0)
    {index : Nat}
    {placement : Placement}
    (among : placements[index]? = some placement)
    (within : placement.tally.offset ≠ 0) :
    ∃ before left,
      index = before + 1 ∧ placements[before]? = some left ∧
        placement.visit.trailer.previous = left.pending.block := by
  have number := (trail.inOrder on among).number
  obtain ⟨before, rfl⟩ := Nat.exists_eq_succ_of_ne_zero (show index ≠ 0 by omega)
  have inside : before < placements.length := by
    have bound := (List.getElem?_eq_some_iff.mp among).1
    omega
  have left := List.getElem?_eq_getElem inside
  exact ⟨before, _, rfl, left, (trail.linked_of_next left among within).2⟩

/-- Two visits of one block are made at the same depth to the same page. -/
theorem same_of_block
    (functional : ∀ block one other, Fetched block one → Fetched block other → one = other)
    (trail : Trail Fetched mode rootLevel tally queue placements final)
    {one other : Placement}
    (oneMember : one ∈ placements)
    (otherMember : other ∈ placements)
    (same : one.pending.block = other.pending.block) :
    one.visit.trailer = other.visit.trailer ∧ one.pending.depth = other.pending.depth := by
  obtain ⟨oneFetched, oneVisits⟩ := trail.visit_of_mem oneMember
  obtain ⟨otherFetched, otherVisits⟩ := trail.visit_of_mem otherMember
  obtain ⟨oneRead, -⟩ := LevelTally.visit_eq_ok_iff.mp oneVisits
  obtain ⟨otherRead, -⟩ := LevelTally.visit_eq_ok_iff.mp otherVisits
  have samePage : one.page = other.page := functional _ _ _ oneFetched (same ▸ otherFetched)
  have sameTrailer : one.visit.trailer = other.visit.trailer := by
    rw [samePage, otherRead] at oneRead
    exact (Except.ok.inj oneRead).symm
  have oneLevel := LevelTally.visit_level oneVisits
  have otherLevel := LevelTally.visit_level otherVisits
  rw [sameTrailer] at oneLevel
  exact ⟨sameTrailer, by omega⟩

/-- No two pages that a walk visits lie in the same block, unless one lies in the block
whose number stands for no sibling: the left links from two visits of one block would
lead back to the first page of a level and to a page behind another one. -/
theorem blocks_ne
    {root : BlockNumber}
    (functional : ∀ block one other, Fetched block one → Fetched block other → one = other)
    (absent : ∀ page, ¬Fetched noSibling page)
    (trail : Trail Fetched mode rootLevel .start [.ofRoot root] placements final)
    {first second : Nat}
    {one other : Placement}
    (before : first < second)
    (atFirst : placements[first]? = some one)
    (atSecond : placements[second]? = some other) :
    one.pending.block ≠ other.pending.block := by
  have on : OnLevels rootLevel .start [.ofRoot root] 0 := .start root
  induction first using Nat.strongRecOn generalizing second one other with
  | _ first inductionHypothesis =>
      intro same
      have oneMember := List.mem_of_getElem? atFirst
      have otherMember := List.mem_of_getElem? atSecond
      obtain ⟨sameTrailer, sameDepth⟩ :=
        trail.same_of_block functional oneMember otherMember same
      have oneNumber := (trail.inOrder on atFirst).number
      have otherNumber := (trail.inOrder on atSecond).number
      rw [sameDepth] at oneNumber
      obtain ⟨beforeSecond, otherLeft, rfl, atOtherLeft, otherLinks⟩ :=
        trail.exists_left on atSecond (by omega)
      by_cases start : one.tally.offset = 0
      · have noLeft := trail.previous_of_first on oneMember start
        obtain ⟨fetched, -⟩ := trail.visit_of_mem (List.mem_of_getElem? atOtherLeft)
        rw [← otherLinks, ← sameTrailer, noLeft] at fetched
        exact absent _ fetched
      · obtain ⟨beforeFirst, oneLeft, rfl, atOneLeft, oneLinks⟩ :=
          trail.exists_left on atFirst start
        apply inductionHypothesis beforeFirst (by omega) (by omega) atOneLeft atOtherLeft
        rw [← oneLinks, sameTrailer, otherLinks]

end Trail

/-! ## Relocating -/

/-- A relocating visit that finds what a measuring visit of the same page finds, and
makes of the page what `Relocated` says. -/
def Placement.Faithful (rootLevel : Nat) (placement : Placement) : Prop :=
  ∃ kept,
    placement.tally.visit .measure rootLevel placement.pending placement.page =
        .ok { placement.visit with page := kept } ∧
      Relocated placement.tally placement.pending placement.visit.trailer placement.page
        placement.visit.page

/-- Where a measuring walk comes to an end, a relocating one does, if the items of the
inner pages do not overlap. -/
theorem Trail.relocate
    {Fetched : BlockNumber → Page → Prop}
    {rootLevel : Nat}
    {tally final : LevelTally}
    {queue : List Pending}
    {placements : List Placement}
    (trail : Trail Fetched .measure rootLevel tally queue placements final)
    (apart :
      ∀ placement ∈ placements,
        placement.visit.trailer.isLeaf = false → placement.page.ItemsApart) :
    ∃ relocated,
      Trail Fetched .relocate rootLevel tally queue relocated final ∧
        ∀ placement ∈ relocated, placement.Faithful rootLevel := by
  induction trail with
  | ended tally => exact ⟨[], .ended tally, by simp⟩
  | @visited tally advanced final pending rest page visit later fetched visits advances continues
      inductionHypothesis =>
      obtain ⟨image, relocates, changes⟩ :=
        LevelTally.visit_relocate visits (apart _ (List.mem_cons_self ..))
      obtain ⟨others, behind, faithful⟩ :=
        inductionHypothesis fun placement member => apart placement (List.mem_cons_of_mem _ member)
      have first :
          Placement.Faithful rootLevel ⟨tally, pending, page, { visit with page := image }⟩ :=
        ⟨visit.page, visits, changes⟩
      refine ⟨_, .visited fetched relocates advances behind, ?_⟩
      intro placement member
      rcases List.mem_cons.mp member with rfl | among
      · exact first
      · exact faithful placement among

end ObliviousStorage.Index

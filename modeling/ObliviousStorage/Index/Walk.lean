import ObliviousStorage.Index.Entry
import ObliviousStorage.Index.Layout

/-!
Contract: one step of a walk over an index, level by level from the root and from
left to right within each level.

Owns: the queue of pages still to be visited, the counters that tell where the walk
is, what a visit checks and finds on a page, the changes that give the page its
place in level order, and the counters after a visit.

A visit checks the page's role and level against the depth it was reached at, and
its left link and its left neighbour's right link against each other. The counters are
words of 32 bits; a walk breaks off where one of them would not hold its sum.
`queueWeight_visit_lt` says that a visit always makes the queue lighter, since
pages at the level of the leaves have no children: so a walk ends whatever the
pages hold.

Does not own: where pages are read from, or where changed pages go.
-/

namespace ObliviousStorage.Index

/-- What a walk is for: counting pages leaves them as they are, relocating gives each
its place in level order. -/
inductive WalkMode where
  | measure
  | relocate
deriving DecidableEq, Repr

structure Pending where
  /-- The page that links to it; the root has none. -/
  parent : Option BlockNumber
  /-- The slot of that link; zero for the root. -/
  slot : Nat
  block : BlockNumber
  /-- The distance from the root. -/
  depth : Nat
deriving DecidableEq, Repr

def Pending.ofRoot (block : BlockNumber) : Pending := ⟨none, 0, block, 0⟩

structure LevelTally where
  /-- Pages of the levels below the root that are known in full. -/
  fanouts : List Nat
  /-- Pages of the level being visited. -/
  expected : Nat
  /-- Pages found so far for the level below it. -/
  below : Nat
  /-- Pages visited so far on the level. -/
  offset : Nat
  /-- The position of the next child within the level below. -/
  nextChild : Nat
  /-- Levels below the root that were visited in full. -/
  closed : Nat
  /-- The page visited before on the level, and the page its right link names. -/
  previous : Option (BlockNumber × BlockNumber)
deriving DecidableEq, Repr

/-- Before the root is visited. -/
def LevelTally.start : LevelTally := ⟨[], 1, 0, 0, 0, 0, none⟩

/-- The shape of an index, once nothing is left to be visited. -/
def LevelTally.profile (tally : LevelTally) : Profile := ⟨tally.fanouts, tally.closed - 1⟩

structure Visit where
  trailer : Trailer
  /-- The slots that hold data. -/
  live : Nat
  /-- The pages that an inner page links to, in the order of its slots. -/
  children : List Pending
  /-- The page as the walk leaves it. -/
  page : Page

/-! ## Checks -/

/-- Refuses a page whose role or level contradicts where it was reached. -/
def Pending.checkPlace (pending : Pending) (rootLevel : Nat) (trailer : Trailer) :
    Except Fault Unit := do
  require (trailer.isRoot = pending.parent.isNone ∧ trailer.isMeta = false)
    (.corruptPage
      (.unexpectedFlags pending.block pending.slot pending.parent trailer.flags.toNat))
  -- The sum is exact. No walk goes deeper than the root's level, so a sum that is too large for a
  -- word is not that level, and what it would wrap to as a word is not either.
  require
    (trailer.level.toNat + pending.depth = rootLevel ∧
      trailer.isLeaf = decide (trailer.level = 0))
    (.corruptPage (.unexpectedLevel pending.block pending.depth trailer.level))

/-- The left link that the page visited now has to have. -/
def LevelTally.expectedPrevious (tally : LevelTally) (block : BlockNumber) :
    Except Fault BlockNumber :=
  match tally.previous with
  | none => .ok noSibling
  | some (left, linked) =>
      if linked = block then
        .ok left
      else
        .error (.corruptPage (.rightLink left linked block))

/-- Refuses a page whose left link or left neighbour contradicts the order of the
walk. -/
def LevelTally.checkSiblings (tally : LevelTally) (block : BlockNumber) (trailer : Trailer) :
    Except Fault Unit := do
  let expected ← tally.expectedPrevious block
  require (trailer.previous = expected)
    (.corruptPage (.leftLink block trailer.previous expected))

/-! ## Visiting a page -/

/-- The page with the link in a slot replaced by the position of the child, if the
walk relocates. -/
def WalkMode.relink (mode : WalkMode) (page : Page) (slot position : Nat) : Except Fault Page :=
  match mode with
  | .measure => .ok page
  | .relocate => redirect page slot (UInt32.ofNat position)

/-- The page with its trailer replaced, if the walk relocates. -/
def WalkMode.stamp (mode : WalkMode) (page : Page) (trailer : Trailer) : Except Fault Page :=
  match mode with
  | .measure => .ok page
  | .relocate => trailer.write page

/-- Collects the children that the slots of an inner page link to. A relocating walk
replaces each link, right after it was read, by the child's position within the
level below. The position behind the last child is counted too. -/
def Pending.adopt (pending : Pending) (mode : WalkMode) :
    (slots : List Nat) → (nextChild : Nat) → (page : Page) →
      Except Fault (List Pending × Page)
  | [], _, page => .ok ([], page)
  | slot :: rest, nextChild, page => do
      let entry ← Entry.read page slot
      let linked ← mode.relink page slot nextChild
      let following ← wordSum nextChild 1
      let (others, adopted) ← pending.adopt mode rest following linked
      return (⟨some pending.block, slot, entry.block, pending.depth + 1⟩ :: others, adopted)

/-- The trailer of a page in its place in level order: below the root, links to
siblings become their positions within the level. -/
def Trailer.placed (trailer : Trailer) (isRoot : Bool) (offset depth : Nat) : Trailer where
  previous :=
    if isRoot = false ∧ trailer.previous ≠ noSibling then UInt32.ofNat (offset - 1)
    else trailer.previous
  next :=
    if isRoot = false ∧ trailer.next ≠ noSibling then UInt32.ofNat (offset + 1)
    else trailer.next
  level := trailer.level
  flags := trailer.flags
  placedOffset := UInt32.ofNat offset
  placedDepth := UInt32.ofNat depth

/-- The children of a page; a leaf has none, whatever its slots hold. -/
def Pending.children
    (pending : Pending)
    (mode : WalkMode)
    (trailer : Trailer)
    (nextChild : Nat)
    (page : Page) :
    Except Fault (List Pending × Page) :=
  if trailer.isLeaf then
    .ok ([], page)
  else
    pending.adopt mode (trailer.dataSlots page) nextChild page

def LevelTally.visit
    (tally : LevelTally)
    (mode : WalkMode)
    (rootLevel : Nat)
    (pending : Pending)
    (page : Page) :
    Except Fault Visit := do
  let trailer ← Trailer.read page
  pending.checkPlace rootLevel trailer
  tally.checkSiblings pending.block trailer
  let (children, linked) ← pending.children mode trailer tally.nextChild page
  let stamped ←
    mode.stamp linked (trailer.placed pending.parent.isNone tally.offset pending.depth)
  return ⟨trailer, (trailer.dataSlots page).length, children, stamped⟩

/-- The pages found for the level below, with those that a visited page links to. -/
def LevelTally.countBelow (tally : LevelTally) (visit : Visit) : Except Fault Nat :=
  if visit.trailer.isLeaf then .ok tally.below else wordSum tally.below visit.live

/-- Where the walk is after a visit. The page that completes a level must not link
any further to the right. -/
def LevelTally.advance (tally : LevelTally) (pending : Pending) (visit : Visit) :
    Except Fault LevelTally :=
  if pending.parent.isNone then
    .ok
      { tally with
        fanouts :=
          if visit.trailer.isLeaf = false ∧ 0 < visit.live then tally.fanouts ++ [visit.live]
          else tally.fanouts
        expected := visit.live
        offset := 0
        nextChild := 0 }
  else do
    let below ← tally.countBelow visit
    let visited ← wordSum tally.offset 1
    if visited = tally.expected then
      if visit.trailer.isRightmost then
        let closed ← wordSum tally.closed 1
        .ok
          { fanouts :=
              if visit.trailer.isLeaf = false ∧ 0 < below then tally.fanouts ++ [below]
              else tally.fanouts
            expected := below
            below := 0
            offset := 0
            nextChild := 0
            closed
            previous := none }
      else
        .error (.corruptPage (.unclosedLevel pending.block pending.depth visit.trailer.next))
    else
      .ok
        { tally with
          below
          offset := visited
          nextChild := tally.nextChild + visit.children.length
          previous := some (pending.block, visit.trailer.next) }

/-! ## Why a walk ends -/

/-- More than the slots of any page. -/
def branchingBound : Nat := 65536

/-- The weight of a page this many levels above the leaves: more than that of all its
children. -/
def weightAbove : (levels : Nat) → Nat
  | 0 => 1
  | levels + 1 => branchingBound * weightAbove levels

theorem weightAbove_pos (levels : Nat) : 0 < weightAbove levels := by
  induction levels with
  | zero => exact Nat.zero_lt_one
  | succ levels inductionHypothesis => exact Nat.mul_pos (by decide) inductionHypothesis

/-- The weight of a page that is waiting. -/
def Pending.weight (rootLevel : Nat) (pending : Pending) : Nat :=
  weightAbove (rootLevel - pending.depth)

def queueWeight (rootLevel : Nat) (queue : List Pending) : Nat :=
  queue.foldr (fun pending others => pending.weight rootLevel + others) 0

/-- The children of a page are as many as its slots, one level further down. -/
theorem Pending.adopt_children
    {pending : Pending}
    {mode : WalkMode}
    {slots : List Nat}
    {nextChild : Nat}
    {page adopted : Page}
    {children : List Pending}
    (succeeds : pending.adopt mode slots nextChild page = .ok (children, adopted)) :
    children.length = slots.length ∧
      ∀ child ∈ children, child.depth = pending.depth + 1 := by
  induction slots generalizing nextChild page adopted children with
  | nil =>
      simp only [Pending.adopt, Except.ok.injEq, Prod.mk.injEq] at succeeds
      obtain ⟨rfl, -⟩ := succeeds
      simp
  | cons slot rest inductionHypothesis =>
      simp only [Pending.adopt, bind_eq_ok_iff] at succeeds
      obtain ⟨entry, -, linked, -, _, -, ⟨others, changed⟩, later, result⟩ := succeeds
      obtain ⟨sameLength, deeper⟩ := inductionHypothesis later
      simp only [pure, Except.pure, Except.ok.injEq, Prod.mk.injEq] at result
      obtain ⟨rfl, -⟩ := result
      refine ⟨by simp [sameLength], ?_⟩
      intro child member
      cases List.mem_cons.mp member with
      | inl first => rw [first]
      | inr among => exact deeper child among

/-- A page that has children is above the level of the leaves. -/
theorem LevelTally.visit_children
    {tally : LevelTally}
    {mode : WalkMode}
    {rootLevel : Nat}
    {pending : Pending}
    {page : Page}
    {visit : Visit}
    (succeeds : tally.visit mode rootLevel pending page = .ok visit) :
    visit.children = [] ∨
      pending.depth < rootLevel ∧ visit.children.length < branchingBound ∧
        ∀ child ∈ visit.children, child.depth = pending.depth + 1 := by
  simp only [LevelTally.visit, bind_eq_ok_iff] at succeeds
  obtain ⟨trailer, -, _, placeChecked, _, -, ⟨children, linked⟩, adopted, stamped, -, result⟩ :=
    succeeds
  simp only [pure, Except.pure, Except.ok.injEq] at result
  subst result
  unfold Pending.children at adopted
  cases isLeaf : trailer.isLeaf with
  | true =>
      simp only [isLeaf, ↓reduceIte, Except.ok.injEq, Prod.mk.injEq] at adopted
      exact Or.inl adopted.1.symm
  | false =>
      simp only [isLeaf, Bool.false_eq_true, ↓reduceIte] at adopted
      obtain ⟨sameLength, deeper⟩ := Pending.adopt_children adopted
      simp only [Pending.checkPlace, bind_eq_ok_iff, require_eq_ok_iff, isLeaf] at placeChecked
      obtain ⟨_, -, levelSum, leafLevel⟩ := placeChecked
      have inner : trailer.level ≠ 0 := by simpa using leafLevel.symm
      have above : trailer.level.toNat ≠ 0 := fun zero => inner (UInt32.toNat_inj.mp zero)
      refine Or.inr ⟨by omega, ?_, deeper⟩
      have few := page.slotCount_lt
      simp only [sameLength, Trailer.dataSlots, List.length_range']
      simp only [branchingBound]
      omega

theorem queueWeight_append (rootLevel : Nat) (left right : List Pending) :
    queueWeight rootLevel (left ++ right) =
      queueWeight rootLevel left + queueWeight rootLevel right := by
  induction left with
  | nil => simp [queueWeight]
  | cons first rest inductionHypothesis =>
      simp only [queueWeight, List.cons_append, List.foldr_cons] at inductionHypothesis ⊢
      omega

theorem queueWeight_le
    {rootLevel weight : Nat}
    {queue : List Pending}
    (light : ∀ pending ∈ queue, pending.weight rootLevel ≤ weight) :
    queueWeight rootLevel queue ≤ queue.length * weight := by
  induction queue with
  | nil => simp [queueWeight]
  | cons first rest inductionHypothesis =>
      have firstLight := light first (by simp)
      have restLight := inductionHypothesis fun pending member =>
        light pending (by simp [member])
      simp only [queueWeight, List.foldr_cons, List.length_cons] at restLight ⊢
      rw [Nat.succ_mul]
      omega

/-- A visit makes the queue lighter. -/
theorem queueWeight_visit_lt
    {tally : LevelTally}
    {mode : WalkMode}
    {rootLevel : Nat}
    {pending : Pending}
    {page : Page}
    {visit : Visit}
    (rest : List Pending)
    (succeeds : tally.visit mode rootLevel pending page = .ok visit) :
    queueWeight rootLevel (rest ++ visit.children) < queueWeight rootLevel (pending :: rest) := by
  have positive : 0 < pending.weight rootLevel := weightAbove_pos _
  have lighter : queueWeight rootLevel visit.children < pending.weight rootLevel := by
    cases LevelTally.visit_children succeeds with
    | inl noChildren => simpa [noChildren, queueWeight] using positive
    | inr inner =>
        obtain ⟨above, few, deeper⟩ := inner
        have childWeight :
            ∀ child ∈ visit.children,
              child.weight rootLevel ≤ weightAbove (rootLevel - (pending.depth + 1)) := by
          intro child member
          simp [Pending.weight, deeper child member]
        have light := queueWeight_le childWeight
        have split :
            pending.weight rootLevel =
              branchingBound * weightAbove (rootLevel - (pending.depth + 1)) := by
          have step : rootLevel - pending.depth = rootLevel - (pending.depth + 1) + 1 := by omega
          rw [Pending.weight, step, weightAbove]
        have smallPositive := weightAbove_pos (rootLevel - (pending.depth + 1))
        rw [split]
        exact Nat.lt_of_le_of_lt light (Nat.mul_lt_mul_of_pos_right few smallPositive)
  rw [queueWeight_append]
  have head :
      queueWeight rootLevel (pending :: rest) =
        pending.weight rootLevel + queueWeight rootLevel rest := by
    simp [queueWeight]
  omega

end ObliviousStorage.Index

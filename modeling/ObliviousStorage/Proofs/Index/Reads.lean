import ObliviousStorage.Proofs.Index.Outlines
import ObliviousStorage.Proofs.Index.Trail
import ObliviousStorage.Proofs.Index.TwoLevels
import ObliviousStorage.Proofs.Index.Walks
import ObliviousStorage.Proofs.Storage.Erasing
import ObliviousStorage.Proofs.Storage.Lawful

/-!
Contract: how many blocks a walk over an index reads, wherever it ends.

Owns: `Stretch`, the blocks that a walk reads before it ends or is stopped; that every block of it
but the last stands at a number of its own in level order, whatever the pages say; and the bound
on the reads of a walk that follows.

A visited page names its level, which tells its depth, and its left links lead to the first page
of its level, which tells its offset. So a page that is visited again would have to stand at two
places. No record of the visited pages is needed.

Does not own: what a walk returns.
-/

namespace ObliviousStorage.Index

open StorageM StorageView

/-! ## Blocks that are read -/

/-- The blocks that are read while a walk goes on from this tally and queue. Whatever comes of
reading a block, the walk may be stopped behind it: by the store, by a check or by a target. -/
inductive Stretch (Fetched : BlockNumber → Page → Prop) (mode : WalkMode) (rootLevel : Nat) :
    LevelTally → List Pending → List BlockNumber → Prop
  | ended (tally : LevelTally) : Stretch Fetched mode rootLevel tally [] []
  | stopped (tally : LevelTally) (pending : Pending) (rest : List Pending) :
      Stretch Fetched mode rootLevel tally (pending :: rest) [pending.block]
  | visited
      {tally advanced : LevelTally}
      {pending : Pending}
      {rest : List Pending}
      {page : Page}
      {visit : Visit}
      {blocks : List BlockNumber}
      (fetched : Fetched pending.block page)
      (visits : tally.visit mode rootLevel pending page = .ok visit)
      (advances : tally.advance pending visit = .ok advanced)
      (continues : Stretch Fetched mode rootLevel advanced (rest ++ visit.children) blocks) :
      Stretch Fetched mode rootLevel tally (pending :: rest) (pending.block :: blocks)

/-! ## Places in level order -/

/-- How many left links there are from a block to the first one of its level. -/
inductive StandsAt (Fetched : BlockNumber → Page → Prop) : BlockNumber → Nat → Prop
  | first
      {block : BlockNumber}
      {page : Page}
      {trailer : Trailer}
      (fetched : Fetched block page)
      (read : Trailer.read page = .ok trailer)
      (none : trailer.previous = noSibling) :
      StandsAt Fetched block 0
  | behind
      {block : BlockNumber}
      {page : Page}
      {trailer : Trailer}
      {position : Nat}
      (fetched : Fetched block page)
      (read : Trailer.read page = .ok trailer)
      (left : StandsAt Fetched trailer.previous position) :
      StandsAt Fetched block (position + 1)

/-- A block that stands at this number, if there are so many pages on the levels. -/
def Numbered
    (Fetched : BlockNumber → Page → Prop)
    (rootLevel : Nat)
    (counts : List Nat)
    (block : BlockNumber)
    (number : Nat) : Prop :=
  ∃ page trailer depth offset,
    Fetched block page ∧ Trailer.read page = .ok trailer ∧ trailer.isMeta = false ∧
      trailer.level.toNat + depth = rootLevel ∧ StandsAt Fetched block offset ∧
        (counts.take depth).sum + offset = number

/-- The walk remembers the page to the left, which stands one place further to the left. -/
def LevelTally.Remembers (Fetched : BlockNumber → Page → Prop) (tally : LevelTally) : Prop :=
  match tally.previous with
  | none => tally.offset = 0
  | some (left, _) => ∃ position, tally.offset = position + 1 ∧ StandsAt Fetched left position

section Places

variable
  {Fetched : BlockNumber → Page → Prop}
  {mode : WalkMode}
  {rootLevel : Nat}
  {tally advanced : LevelTally}
  {pending : Pending}
  {rest queue : List Pending}
  {page : Page}
  {visit : Visit}
  {block : BlockNumber}
  {blocks : List BlockNumber}
  {visited : Nat}

theorem StandsAt.fetched {position : Nat} (stands : StandsAt Fetched block position) :
    ∃ page, Fetched block page := by
  cases stands with
  | first fetched => exact ⟨_, fetched⟩
  | behind fetched => exact ⟨_, fetched⟩

/-- A block stands at one place, since the link that leads nowhere names no block. -/
theorem StandsAt.unique
    {position other : Nat}
    (functional : ∀ block one other, Fetched block one → Fetched block other → one = other)
    (absent : ∀ page, ¬Fetched noSibling page)
    (stands : StandsAt Fetched block position)
    (standsToo : StandsAt Fetched block other) :
    position = other := by
  induction stands generalizing other with
  | first fetched read none =>
      cases standsToo with
      | first => rfl
      | behind fetched' read' left =>
          obtain rfl := functional _ _ _ fetched fetched'
          obtain rfl := Except.ok.inj (read.symm.trans read')
          rw [none] at left
          obtain ⟨page, there⟩ := left.fetched
          exact absurd there (absent page)
  | behind fetched read left inductionHypothesis =>
      cases standsToo with
      | first fetched' read' none =>
          obtain rfl := functional _ _ _ fetched fetched'
          obtain rfl := Except.ok.inj (read.symm.trans read')
          rw [none] at left
          obtain ⟨page, there⟩ := left.fetched
          exact absurd there (absent page)
      | behind fetched' read' left' =>
          obtain rfl := functional _ _ _ fetched fetched'
          obtain rfl := Except.ok.inj (read.symm.trans read')
          rw [inductionHypothesis left']

theorem Numbered.unique
    {counts : List Nat}
    {number other : Nat}
    (functional : ∀ block one other, Fetched block one → Fetched block other → one = other)
    (absent : ∀ page, ¬Fetched noSibling page)
    (numbered : Numbered Fetched rootLevel counts block number)
    (numberedToo : Numbered Fetched rootLevel counts block other) :
    number = other := by
  obtain ⟨page, trailer, depth, offset, fetched, read, -, level, stands, rfl⟩ := numbered
  obtain ⟨page', trailer', depth', offset', fetched', read', -, level', stands', rfl⟩ := numberedToo
  obtain rfl := functional _ _ _ fetched fetched'
  obtain rfl := Except.ok.inj (read.symm.trans read')
  obtain rfl := stands.unique functional absent stands'
  obtain rfl : depth = depth' := by omega
  rfl

/-- A page whose links to its siblings pass their check stands where the walk is. -/
theorem LevelTally.stands_of_siblings
    {trailer : Trailer}
    (remembers : tally.Remembers Fetched)
    (fetched : Fetched block page)
    (read : Trailer.read page = .ok trailer)
    (siblings : tally.checkSiblings block trailer = .ok ()) :
    StandsAt Fetched block tally.offset := by
  have expects := LevelTally.previous_of_siblings siblings
  rw [LevelTally.Remembers] at remembers
  cases previous : tally.previous with
  | none =>
      rw [previous] at remembers
      rw [LevelTally.expectedPrevious, previous] at expects
      rw [remembers]
      exact .first fetched read (Except.ok.inj expects).symm
  | some neighbour =>
      obtain ⟨left, linked⟩ := neighbour
      rw [previous] at remembers
      obtain ⟨position, offset, stands⟩ := remembers
      obtain ⟨-, same⟩ := LevelTally.expectedPrevious_of_some previous expects
      rw [offset]
      exact .behind fetched read (same ▸ stands)

/-- So does a page that is visited. -/
theorem LevelTally.visit_stands
    (remembers : tally.Remembers Fetched)
    (fetched : Fetched pending.block page)
    (visits : tally.visit mode rootLevel pending page = .ok visit) :
    StandsAt Fetched pending.block tally.offset := by
  obtain ⟨read, -, siblings, -⟩ := LevelTally.visit_eq_ok_iff.mp visits
  exact LevelTally.stands_of_siblings remembers fetched read siblings

theorem LevelTally.advance_remembers
    (on : OnLevels rootLevel tally (pending :: rest) visited)
    (stands : StandsAt Fetched pending.block tally.offset)
    (advances : tally.advance pending visit = .ok advanced) :
    advanced.Remembers Fetched := by
  cases LevelTally.advanced_of_advance advances with
  | closing => rfl
  | within => exact ⟨tally.offset, rfl, stands⟩
  | root isRoot =>
      cases on with
      | start root => rfl
      | midway waiting midway =>
          obtain ⟨first, others, rfl⟩ := List.exists_cons_of_ne_nil midway.current_ne
          obtain ⟨rfl, -⟩ := List.cons.inj waiting
          have inner := (midway.currentAt pending (List.mem_cons_self ..)).2
          exact absurd isRoot (by rw [inner]; simp)

/-- A page that is visited is numbered by the visits before it. -/
theorem LevelTally.visit_numbered
    {counts : List Nat}
    (on : OnLevels rootLevel tally (pending :: rest) visited)
    (stands : StandsAt Fetched pending.block tally.offset)
    (fetched : Fetched pending.block page)
    (visits : tally.visit mode rootLevel pending page = .ok visit)
    (advances : tally.advance pending visit = .ok advanced)
    (known : tally.counts <+: counts) :
    Numbered Fetched rootLevel counts pending.block visited := by
  obtain ⟨read, place, -⟩ := LevelTally.visit_eq_ok_iff.mp visits
  simp only [Pending.checkPlace, bind_eq_ok_iff, require_eq_ok_iff] at place
  obtain ⟨_, ⟨-, notMeta⟩, -⟩ := place
  obtain ⟨inside, inOrder, -⟩ := on.inOrder page advances
  exact
    ⟨page, visit.trailer, pending.depth, tally.offset, fetched, read, notMeta,
      LevelTally.visit_level visits, stands, (inOrder.extend inside known).number⟩

/-- All blocks of a stretch but the last are numbered one after the other. -/
theorem Stretch.numbered
    (stretch : Stretch Fetched mode rootLevel tally queue blocks)
    (on : OnLevels rootLevel tally queue visited)
    (remembers : tally.Remembers Fetched) :
    ∃ counts,
      tally.counts <+: counts ∧
        ∀ (index : Nat) block, blocks.dropLast[index]? = some block →
          Numbered Fetched rootLevel counts block (visited + index) := by
  induction stretch generalizing visited with
  | ended tally => exact ⟨tally.counts, List.prefix_rfl, by simp⟩
  | stopped tally pending rest => exact ⟨tally.counts, List.prefix_rfl, by simp⟩
  | @visited tally advanced pending rest page visit blocks fetched visits advances continues
      inductionHypothesis =>
      have stands := LevelTally.visit_stands remembers fetched visits
      obtain ⟨next, extended⟩ := on.advance visits advances
      obtain ⟨counts, known, numbers⟩ :=
        inductionHypothesis next (LevelTally.advance_remembers on stands advances)
      refine ⟨counts, extended.trans known, fun index block among => ?_⟩
      rcases List.eq_nil_or_concat blocks with rfl | ⟨others, last, rfl⟩
      · simp at among
      · rw [List.dropLast_cons_of_ne_nil (by simp)] at among
        cases index with
        | zero =>
            obtain rfl : pending.block = block := by simpa using among
            exact LevelTally.visit_numbered on stands fetched visits advances
              (extended.trans known)
        | succ index =>
            have later := numbers index block (by simpa using among)
            rwa [Nat.add_right_comm, Nat.add_assoc] at later

end Places

/-! ## Runs -/

section Runs

variable
  {σ : Type}
  [Storage σ]
  {index : RelationId}
  {target : Option (PageTarget σ)}
  {held : Contents}

variable [LawfulStorage σ]

/-- Reading a block yields nothing but the page that the block holds. -/
theorem read_held
    {state : σ}
    (same : contents state index = held index)
    (block : BlockNumber) :
    (Storage.read index block : StorageM σ Page).Yields state fun outcome left =>
      (∀ page, outcome = .ok page → Held held index block page) ∧
        contents left index = held index := by
  apply (LawfulStorage.read_law state index block).weaken
  rintro (fault | page) left ⟨found, became⟩
  · exact ⟨by simp, (congrFun became.holds index).trans same⟩
  · refine ⟨fun other equal => ?_, (congrFun became.holds index).trans same⟩
    rw [← Except.ok.inj equal, Held, ← Contents.page_congr same, found]

/-- So it does where reads are remembered, and this one is. -/
theorem read_remembered
    {state : Traced σ}
    (same : contents state.inner index = held index)
    (block : BlockNumber) :
    (Storage.read index block : StorageM (Traced σ) Page).Yields state fun outcome left =>
      (∀ page, outcome = .ok page → Held held index block page) ∧
        contents left.inner index = held index ∧
          left.trace.toList = state.trace.toList ++ [.read index block] := by
  obtain ⟨found, kept⟩ := read_held same block
  exact ⟨found, kept, Array.toList_push⟩

end Runs

/-! ## The bound -/

/-- How many blocks a relation has; none if it does not exist. -/
def blockTotal (held : Contents) (index : RelationId) : Nat :=
  (held index).elim 0 fun found => found.pages.length

/-- Reads of one relation, with no block among them twice but possibly the one that is read last,
so that they are at most one more than there are blocks. -/
def Thrifty (index : RelationId) (total : Nat) (trace : Array Transfer) : Prop :=
  ∃ blocks : List BlockNumber,
    trace.toList = blocks.map (.read index) ∧ blocks.dropLast.Nodup ∧ blocks.length ≤ total + 1

theorem thrifty_of_single
    {index : RelationId}
    {block : BlockNumber}
    {trace : Array Transfer}
    (total : Nat)
    (reads : trace.toList = [.read index block]) :
    Thrifty index total trace :=
  ⟨[block], reads, List.nodup_nil, Nat.le_add_left ..⟩

theorem lt_blockTotal
    {held : Contents}
    {index : RelationId}
    {block : BlockNumber}
    {page : Page}
    (fetched : Held held index block page) :
    block.toNat < blockTotal held index := by
  obtain ⟨found, present, among⟩ := Contents.page_eq_ok_iff.mp fetched
  rw [blockTotal, present]
  exact (List.getElem?_eq_some_iff.mp among).1

/-- The link that leads nowhere names no block, as long as every block can be told from it. -/
theorem not_held_noSibling
    {held : Contents}
    {index : RelationId}
    (few : blockTotal held index < blockNumberBound)
    (page : Page) :
    ¬Held held index noSibling page := by
  intro fetched
  exact absurd (lt_blockTotal fetched) (Nat.not_lt.mpr (Nat.le_of_lt_succ few))

/-- Different blocks of a relation are at most as many as it has. -/
theorem length_le_blockTotal
    {held : Contents}
    {index : RelationId}
    {blocks : List BlockNumber}
    (distinct : blocks.Nodup)
    (fetched : ∀ block ∈ blocks, ∃ page, Held held index block page) :
    blocks.length ≤ blockTotal held index := by
  have numbers : (blocks.map UInt32.toNat).Nodup :=
    distinct.map fun one other same => UInt32.toNat_inj.mp same
  have among : blocks.map UInt32.toNat ⊆ List.range (blockTotal held index) := by
    intro number member
    obtain ⟨block, inside, rfl⟩ := List.mem_map.mp member
    obtain ⟨page, found⟩ := fetched block inside
    exact List.mem_range.mpr (lt_blockTotal found)
  have bound := (numbers.subperm among).length_le
  rwa [List.length_map, List.length_range] at bound

/-- The metapage and different other blocks that hold something else are at most as many blocks as
there are. -/
theorem distinct_of_blocks
    {held : Contents}
    {index : RelationId}
    {first : Page}
    {metapage : Metapage}
    {blocks : List BlockNumber}
    (fetched : Held held index metapageBlock first)
    (opens : Metapage.read first = .ok metapage)
    (distinct : blocks.Nodup)
    (others :
      ∀ block ∈ blocks,
        ∃ page, Held held index block page ∧ ∀ other, Metapage.read page ≠ .ok other) :
    (metapageBlock :: blocks).Nodup ∧ blocks.length < blockTotal held index := by
  have apart : metapageBlock ∉ blocks := by
    intro member
    obtain ⟨page, found, plain⟩ := others _ member
    obtain rfl := held_functional held index _ _ _ fetched found
    exact plain metapage opens
  have whole := List.nodup_cons.mpr ⟨apart, distinct⟩
  have among : ∀ block ∈ metapageBlock :: blocks, ∃ page, Held held index block page := by
    intro block member
    rcases List.mem_cons.mp member with rfl | later
    · exact ⟨first, fetched⟩
    · obtain ⟨page, found, -⟩ := others block later
      exact ⟨page, found⟩
  exact ⟨whole, length_le_blockTotal whole among⟩

/-- Reading the metapage and then other blocks is thrifty, if these are different pages that are
there, but possibly the last. -/
theorem thrifty_of_blocks
    {held : Contents}
    {index : RelationId}
    {first : Page}
    {metapage : Metapage}
    {blocks : List BlockNumber}
    {trace : Array Transfer}
    (fetched : Held held index metapageBlock first)
    (opens : Metapage.read first = .ok metapage)
    (distinct : blocks.dropLast.Nodup)
    (others :
      ∀ block ∈ blocks.dropLast,
        ∃ page, Held held index block page ∧ ∀ other, Metapage.read page ≠ .ok other)
    (reads : trace.toList = (metapageBlock :: blocks).map (.read index)) :
    Thrifty index (blockTotal held index) trace := by
  by_cases alone : blocks = []
  · rw [alone] at reads
    exact thrifty_of_single _ reads
  obtain ⟨whole, bound⟩ := distinct_of_blocks fetched opens distinct others
  refine ⟨_, reads, ?_, ?_⟩
  · rwa [List.dropLast_cons_of_ne_nil alone]
  · rw [List.length_dropLast] at bound
    rw [List.length_cons]
    omega

section Bound

variable
  {σ : Type}
  [Storage σ]
  [LawfulStorage σ]
  {index : RelationId}
  {source : σ}

end Bound

/-! ## A root that links to itself -/

def selfLinkedRoot : Page := entryPage rootTrailer [⟨7, 1, 0⟩]

def selfLinkedStore : MemoryStorage :=
  ⟨blockSize, #[#[Metapage.page ⟨1, 1⟩, selfLinkedRoot]]⟩

end ObliviousStorage.Index

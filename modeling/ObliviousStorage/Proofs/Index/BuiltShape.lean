import ObliviousStorage.Proofs.Index.Exactness
import ObliviousStorage.Proofs.Index.Levels

/-!
Contract: the shape that measuring a built index finds.

Owns: `levelSize`, the pages that a number of entries takes on each level; that a walk passes a
whole level of a built index and goes on with what its pages link to; that it so passes all
levels, from the root's down; and the profile of every built index, with the blocks that its
tree takes.

Does not own: what is found in a built index by its keys.
-/

namespace ObliviousStorage.Index

open StorageM StorageView Builder

/-! ## How many pages a level has -/

namespace Builder

/-- The pages on a level, counted from that of the leaves, that so many entries take. -/
def levelSize (builder : Builder) (entries : Nat) : (level : Nat) → Nat
  | 0 => builder.leafCount entries
  | level + 1 => builder.parentCount (builder.levelSize entries level)

theorem levelSize_pos (builder : Builder) (entries level : Nat) :
    0 < builder.levelSize entries level := by
  induction level with
  | zero => exact Nat.le_max_left ..
  | succ level inductionHypothesis => exact builder.parentCount_pos inductionHypothesis

/-- Every level has fewer pages than the one below it, up to the first one that has a single
page. -/
theorem levelCounts_levelSize (builder : Builder) (entries level : Nat) :
    ∃ height,
      builder.levelSize entries (level + height) = 1 ∧
        (∀ lower, lower < height → 1 < builder.levelSize entries (level + lower)) ∧
          builder.levelCounts (builder.levelSize entries level) =
            (List.range' level (height + 1)).map (builder.levelSize entries) := by
  generalize counted : builder.levelSize entries level = pages
  induction pages using levelCounts.induct builder generalizing level with
  | case1 pages several inductionHypothesis =>
      obtain ⟨height, single, more, counts⟩ :=
        inductionHypothesis (level + 1) (by rw [levelSize, counted])
      refine ⟨height + 1, ?_, ?_, ?_⟩
      · rwa [Nat.add_right_comm, Nat.add_assoc] at single
      · intro lower below
        cases lower with
        | zero => rwa [Nat.add_zero, counted]
        | succ lower =>
            have above := more lower (Nat.lt_of_succ_lt_succ below)
            rwa [Nat.add_right_comm, Nat.add_assoc] at above
      · have further :
            List.range' level (height + 1 + 1) = level :: List.range' (level + 1) (height + 1) :=
          List.range'_succ
        rw [levelCounts, dif_pos several, counts, further, List.map_cons, counted]
  | case2 pages notSeveral =>
      have single : pages = 1 := by
        have some := builder.levelSize_pos entries level
        omega
      refine ⟨0, by rw [Nat.add_zero, counted, single], fun _ below => absurd below (by simp), ?_⟩
      rw [levelCounts, dif_neg notSeveral, ← counted]
      rfl

theorem levelCounts_ne_nil (builder : Builder) (pages : Nat) : builder.levelCounts pages ≠ [] := by
  rw [levelCounts]
  split <;> simp

theorem flatten_groupsOf
    {α : Type}
    (size : Nat)
    (items : List α) :
    (groupsOf size items).flatten = items := by
  fun_induction groupsOf size items with
  | case1 => rfl
  | case2 first rest inductionHypothesis =>
      rw [List.flatten_cons, inductionHypothesis, List.cons_append, List.take_append_drop]

/-- The blocks that the pages of a level link to: those of their entries, but none from
leaves. -/
def childBlocks (level : Nat) (groups : List (List Entry)) : List BlockNumber :=
  if level = 0 then [] else groups.flatten.map Entry.block

theorem childBlocks_append (level : Nat) (left right : List (List Entry)) :
    childBlocks level (left ++ right) = childBlocks level left ++ childBlocks level right := by
  unfold childBlocks
  split
  · rfl
  · rw [List.flatten_append, List.map_append]

theorem childBlocks_singleton (level : Nat) (group : List Entry) :
    childBlocks level [group] = if decide (level = 0) then [] else group.map Entry.block := by
  unfold childBlocks
  by_cases bottom : level = 0 <;> simp [bottom]

/-- A level above others links to all pages of the one below it, from left to right. -/
theorem childBlocks_parentGroups
    (builder : Builder)
    (level start : Nat)
    (groups : List (List Entry)) :
    childBlocks (level + 1)
        (groupsOf builder.innerCapacity
          (parentEntries (blocksFrom start groups.length) groups)) =
      blocksFrom start groups.length := by
  rw [childBlocks, if_neg (Nat.succ_ne_zero level), flatten_groupsOf]
  apply List.ext_getElem?
  intro index
  rw [List.getElem?_map, getElem?_parentEntries, blocksFrom, List.getElem?_map]
  rcases Nat.lt_or_ge index groups.length with inside | outside
  · rw [List.getElem?_eq_getElem inside, List.getElem?_range' inside, Nat.one_mul]
    rfl
  · rw [List.getElem?_eq_none outside, List.getElem?_eq_none (by simpa using outside)]
    rfl

end Builder

/-! ## Visiting a page of a level -/

/-- Pages that wait in a row, all of them on one level below the root. -/
structure RowAt (depth : Nat) (blocks : List BlockNumber) (row : List Pending) : Prop where
  blocks : row.map Pending.block = blocks
  below : ∀ pending ∈ row, pending.depth = depth ∧ pending.parent.isNone = false

theorem RowAt.length
    {depth : Nat}
    {blocks : List BlockNumber}
    {row : List Pending}
    (waiting : RowAt depth blocks row) :
    row.length = blocks.length := by
  rw [← waiting.blocks, List.length_map]

theorem RowAt.append
    {depth : Nat}
    {blocks more : List BlockNumber}
    {row others : List Pending}
    (first : RowAt depth blocks row)
    (second : RowAt depth more others) :
    RowAt depth (blocks ++ more) (row ++ others) where
  blocks := by rw [List.map_append, first.blocks, second.blocks]
  below pending member :=
    (List.mem_append.mp member).elim (first.below pending) (second.below pending)

section Visits

variable
  {rootLevel level start pages index : Nat}
  {tally : LevelTally}
  {pending : Pending}
  {page : Page}
  {trailer : Trailer}
  {bound : Option Entry}
  {group : List Entry}

theorem links_of_reads
    {slots : List Nat}
    (pending : Pending)
    (reads : Reads page slots group) :
    ∃ children,
      pending.Links page slots children ∧
        RowAt (pending.depth + 1) (group.map Entry.block) children := by
  induction reads with
  | nil => exact ⟨[], .nil, rfl, by simp⟩
  | @cons slot entry slots group read reads inductionHypothesis =>
      obtain ⟨children, links, row⟩ := inductionHypothesis
      have first :
          RowAt (pending.depth + 1) [entry.block]
            [⟨some pending.block, slot, entry.block, pending.depth + 1⟩] :=
        ⟨rfl, by simp⟩
      exact ⟨_ :: children, .cons ⟨entry, read, rfl⟩ links, first.append row⟩

/-- Measuring a built page finds what its group links to, if the page may be visited here. -/
theorem visit_builtOf
    (built : BuiltOf page trailer (bound.toList ++ group))
    (bounded : trailer.isRightmost = bound.isNone)
    (place : pending.checkPlace rootLevel trailer = .ok ())
    (siblings : tally.checkSiblings pending.block trailer = .ok ())
    (counted : trailer.isLeaf = false → Counted tally.nextChild group.length) :
    ∃ visit,
      tally.visit .measure rootLevel pending page = .ok visit ∧ visit.trailer = trailer ∧
        visit.live = group.length ∧
          RowAt (pending.depth + 1) (if trailer.isLeaf then [] else group.map Entry.block)
            visit.children := by
  have reads := reads_dataSlots built bounded
  have live : group.length = (trailer.dataSlots page).length := reads.length_eq.symm
  cases leaf : trailer.isLeaf with
  | true =>
      have none : pending.children .measure trailer tally.nextChild page = .ok ([], page) := by
        rw [Pending.children, if_pos leaf]
      refine ⟨⟨trailer, group.length, [], page⟩, ?_, rfl, rfl, ⟨rfl, by simp⟩⟩
      exact LevelTally.visit_eq_ok_iff.mpr ⟨built.read, place, siblings, live, page, none, rfl⟩
  | false =>
      obtain ⟨children, links, row⟩ := links_of_reads pending reads
      have adopts :
          pending.children .measure trailer tally.nextChild page = .ok (children, page) := by
        rw [Pending.children, leaf]
        exact adopt_measure_iff.mpr ⟨rfl, links, live ▸ counted leaf⟩
      refine ⟨⟨trailer, group.length, children, page⟩, ?_, rfl, rfl, row⟩
      exact LevelTally.visit_eq_ok_iff.mpr ⟨built.read, place, siblings, live, page, adopts, rfl⟩

theorem flags_groupTrailer (level start pages index : Nat) :
    (groupTrailer level start pages index).isRoot = decide (pages = 1) ∧
      (groupTrailer level start pages index).isMeta = false := by
  rw [Trailer.isRoot, Trailer.isMeta, groupTrailer, Trailer.unplaced, levelFlags]
  by_cases bottom : level = 0 <;> by_cases alone : pages = 1 <;>
    simp only [bottom, alone] <;> decide

theorem checkPlace_group
    (low : level < blockNumberBound)
    (role : pending.parent.isNone = decide (pages = 1))
    (levels : level + pending.depth = rootLevel) :
    pending.checkPlace rootLevel (groupTrailer level start pages index) = .ok () := by
  have number : (UInt32.ofNat level).toNat = level := UInt32.toNat_ofNat_of_lt' low
  have bottom : UInt32.ofNat level = 0 ↔ level = 0 := by
    rw [← UInt32.toNat_inj, number]
    rfl
  have flags := flags_groupTrailer level start pages index
  have leaf : (groupTrailer level start pages index).isLeaf = decide (level = 0) :=
    isLeaf_levelFlags ..
  refine bind_eq_ok_iff.mpr ⟨(), require_eq_ok_iff.mpr ⟨flags.1.trans role.symm, flags.2⟩, ?_⟩
  refine require_eq_ok_iff.mpr ⟨?_, ?_⟩
  · show (UInt32.ofNat level).toNat + pending.depth = rootLevel
    rw [number, levels]
  · rw [leaf]
    exact decide_eq_decide.mpr bottom.symm

end Visits

/-! ## Walking a level -/

/-- From this tally and these pages a measuring walk comes to its end, with this profile. -/
def Passes
    (Fetched : BlockNumber → Page → Prop)
    (rootLevel : Nat)
    (tally : LevelTally)
    (queue : List Pending)
    (profile : Profile) : Prop :=
  ∃ placements final,
    Trail Fetched .measure rootLevel tally queue placements final ∧ final.profile = profile

theorem passes_nil_iff
    {Fetched : BlockNumber → Page → Prop}
    {rootLevel : Nat}
    {tally : LevelTally}
    {profile : Profile} :
    Passes Fetched rootLevel tally [] profile ↔ tally.profile = profile := by
  constructor
  · intro passes
    obtain ⟨_, _, trail, shape⟩ := passes
    cases trail
    exact shape
  · exact fun shape => ⟨[], tally, .ended tally, shape⟩

theorem Passes.visited
    {Fetched : BlockNumber → Page → Prop}
    {rootLevel : Nat}
    {tally advanced : LevelTally}
    {pending : Pending}
    {rest : List Pending}
    {page : Page}
    {visit : Visit}
    {profile : Profile}
    (fetched : Fetched pending.block page)
    (visits : tally.visit .measure rootLevel pending page = .ok visit)
    (advances : tally.advance pending visit = .ok advanced)
    (passes : Passes Fetched rootLevel advanced (rest ++ visit.children) profile) :
    Passes Fetched rootLevel tally (pending :: rest) profile := by
  obtain ⟨later, final, trail, shape⟩ := passes
  exact ⟨_, final, .visited fetched visits advances trail, shape⟩

/-- Between two levels, of which the next one has the pages found. -/
def LevelTally.opened (fanouts : List Nat) (found closed : Nat) : LevelTally :=
  ⟨if 0 < found then fanouts ++ [found] else fanouts, found, 0, 0, 0, closed, none⟩

/-- On a level of so many pages, before the page at `index`. -/
def LevelTally.onRow
    (fanouts : List Nat)
    (pages closed start index found : Nat) : LevelTally where
  fanouts := fanouts
  expected := pages
  below := found
  offset := index
  nextChild := found
  closed := closed
  previous :=
    if index = 0 then none else some (UInt32.ofNat (start + index - 1), UInt32.ofNat (start + index))

theorem checkSiblings_onRow
    (fanouts : List Nat)
    (pages closed level start index found : Nat) :
    (LevelTally.onRow fanouts pages closed start index found).checkSiblings
        (UInt32.ofNat (start + index)) (groupTrailer level start pages index) =
      .ok () := by
  unfold LevelTally.checkSiblings LevelTally.expectedPrevious LevelTally.onRow groupTrailer
  by_cases first : index = 0
  · simp [first, Trailer.unplaced, bind, Except.bind, require]
  · simp [first, Trailer.unplaced, bind, Except.bind, require]

section Rows

variable
  {held : Contents}
  {relation : RelationId}
  {rootLevel level start closed depth pages index found foundNow : Nat}
  {groups : List (List Entry)}
  {fanouts : List Nat}
  {profile : Profile}
  {pending : Pending}
  {visit : Visit}

/-- After a page that is not the last of its level. -/
theorem advance_within
    (inner : pending.parent.isNone = false)
    (block : pending.block = UInt32.ofNat (start + index))
    (trailer : visit.trailer = groupTrailer level start pages index)
    (counted : (if visit.trailer.isLeaf then found else found + visit.live) = foundNow)
    (children : found + visit.children.length = foundNow)
    (few : foundNow < blockNumberBound)
    (onTop : closed + 1 < blockNumberBound)
    (further : index + 1 < pages)
    (small : pages < blockNumberBound) :
    (LevelTally.onRow fanouts pages closed start index found).advance pending visit =
      .ok (.onRow fanouts pages closed start (index + 1) foundNow) := by
  have next : visit.trailer.next = UInt32.ofNat (start + (index + 1)) := by
    rw [trailer, groupTrailer, Trailer.unplaced, if_pos further]
    rfl
  have before : start + (index + 1) - 1 = start + index := by omega
  have below : visit.trailer.isLeaf = false → found + visit.live < blockNumberBound := by
    intro notLeaf
    rwa [← counted, notLeaf] at few
  rw [LevelTally.advance_of_fits inner below (Nat.lt_trans further small) onTop]
  simp only [LevelTally.onRow, LevelTally.beside, LevelTally.found, counted, children, next, block,
    before, Nat.ne_of_lt further, Nat.succ_ne_zero, ↓reduceIte]

/-- After the last page of a level. -/
theorem advance_across
    (inner : pending.parent.isNone = false)
    (trailer : visit.trailer = groupTrailer level start pages index)
    (counted : (if visit.trailer.isLeaf then found else found + visit.live) = foundNow)
    (leaf : visit.trailer.isLeaf = true → foundNow = 0)
    (few : foundNow < blockNumberBound)
    (onTop : closed + 1 < blockNumberBound)
    (last : index + 1 = pages)
    (small : pages < blockNumberBound) :
    (LevelTally.onRow fanouts pages closed start index found).advance pending visit =
      .ok (.opened fanouts foundNow (closed + 1)) := by
  have rightmost : visit.trailer.isRightmost = true := by
    rw [trailer, Trailer.isRightmost, groupTrailer, Trailer.unplaced,
      if_neg (Nat.not_lt_of_le (Nat.le_of_eq last.symm))]
    rfl
  have known : (visit.trailer.isLeaf = false ∧ 0 < foundNow) ↔ 0 < foundNow := by
    constructor
    · exact fun both => both.2
    · intro some
      refine ⟨Bool.eq_false_iff.mpr fun isLeaf => ?_, some⟩
      exact Nat.ne_of_gt some (leaf isLeaf)
  have below : visit.trailer.isLeaf = false → found + visit.live < blockNumberBound := by
    intro notLeaf
    rwa [← counted, notLeaf] at few
  rw [LevelTally.advance_of_fits inner below (last ▸ small) onTop]
  simp only [LevelTally.onRow, LevelTally.behindLevel, LevelTally.opened, LevelTally.found, counted,
    last, rightmost, known, ↓reduceIte]

/-- A walk that is on a level of a built index, with `before` visited and `rest` to be visited,
comes to its end if it does so behind the level. -/
theorem passes_rest
    (placed : Placed held relation start (wholeLevel level start groups))
    (fits : ∀ group ∈ groups, group.length ≤ mostEntries)
    (several : 1 < groups.length)
    (small : start + groups.length < blockNumberBound)
    (low : level < blockNumberBound)
    (linked : (childBlocks level groups).length < blockNumberBound)
    (onTop : closed + 1 < blockNumberBound)
    (levels : level + depth = rootLevel)
    (behind :
      ∀ row, RowAt (depth + 1) (childBlocks level groups) row →
        Passes (Held held relation) rootLevel
          (.opened fanouts (childBlocks level groups).length (closed + 1)) row profile)
    {before rest : List (List Entry)}
    (split : groups = before ++ rest)
    (some : rest ≠ [])
    {row next : List Pending}
    (waiting : RowAt depth (blocksFrom (start + before.length) rest.length) row)
    (found : RowAt (depth + 1) (childBlocks level before) next) :
    Passes (Held held relation) rootLevel
      (.onRow fanouts groups.length closed start before.length (childBlocks level before).length)
      (row ++ next) profile := by
  induction rest generalizing before row next with
  | nil => exact absurd rfl some
  | cons group rest inductionHypothesis =>
      have among : groups[before.length]? = Option.some group := by
        rw [split, List.getElem?_append_right (Nat.le_refl _), Nat.sub_self]
        rfl
      obtain ⟨page, bound, onLevel, built, bounded⟩ :=
        builtOf_group level start among (fits group (List.mem_of_getElem? among)) small
      obtain ⟨blocks, below⟩ := waiting
      rw [List.length_cons, blocksFrom_succ] at blocks
      obtain ⟨pending, row, rfl, block, blocks⟩ := List.map_eq_cons_iff.mp blocks
      obtain ⟨atDepth, inner⟩ := below pending (List.mem_cons_self ..)
      have role : pending.parent.isNone = decide (groups.length = 1) := by
        rw [inner, decide_eq_false (Nat.ne_of_gt several)]
      have place :
          pending.checkPlace rootLevel (groupTrailer level start groups.length before.length) =
            .ok () :=
        checkPlace_group low role (by rw [atDepth, levels])
      have siblings :=
        checkSiblings_onRow fanouts groups.length closed level start before.length
          (childBlocks level before).length
      rw [← block] at siblings
      have leaf : (groupTrailer level start groups.length before.length).isLeaf =
          decide (level = 0) :=
        isLeaf_levelFlags ..
      have few : (childBlocks level (before ++ [group])).length < blockNumberBound := by
        rw [split, List.append_cons, childBlocks_append, List.length_append] at linked
        omega
      have fitting :
          (groupTrailer level start groups.length before.length).isLeaf = false →
            Counted (childBlocks level before).length group.length := by
        intro inner
        rw [leaf] at inner
        rw [childBlocks_append, List.length_append, childBlocks_singleton, inner] at few
        exact .inr (by simpa using few)
      obtain ⟨visit, visits, trailer, live, children⟩ :=
        visit_builtOf built bounded place siblings fitting
      have fetched : Held held relation pending.block page := by
        rw [block]
        exact placed before.length page onLevel
      rw [leaf, ← childBlocks_singleton, atDepth] at children
      have foundNow :
          RowAt (depth + 1) (childBlocks level (before ++ [group])) (next ++ visit.children) := by
        rw [childBlocks_append]
        exact found.append children
      have grown :
          (childBlocks level before).length + visit.children.length =
            (childBlocks level (before ++ [group])).length := by
        rw [childBlocks_append, List.length_append, children.length]
      have counted :
          (if visit.trailer.isLeaf then (childBlocks level before).length
            else (childBlocks level before).length + visit.live) =
            (childBlocks level (before ++ [group])).length := by
        rw [trailer, leaf, live, childBlocks_append, List.length_append, childBlocks_singleton]
        by_cases bottom : level = 0 <;> simp [bottom]
      have pageFew : groups.length < blockNumberBound :=
        Nat.lt_of_le_of_lt (Nat.le_add_left ..) small
      cases rest with
      | nil =>
          have last : before.length + 1 = groups.length := by
            rw [split, List.length_append, List.length_singleton]
          have leafless : visit.trailer.isLeaf = true → (childBlocks level groups).length = 0 := by
            intro isLeaf
            rw [trailer, leaf] at isLeaf
            rw [childBlocks, if_pos (of_decide_eq_true isLeaf)]
            rfl
          rw [← split] at foundNow counted few
          obtain rfl : row = [] := List.map_eq_nil_iff.mp blocks
          exact .visited fetched visits
            (advance_across inner trailer counted leafless few onTop last pageFew)
            (behind _ foundNow)
      | cons second others =>
          have further : before.length + 1 < groups.length := by
            rw [split, List.length_append, List.length_cons, List.length_cons]
            omega
          have length : (before ++ [group]).length = before.length + 1 := List.length_append ..
          have remaining :
              RowAt depth
                (blocksFrom (start + (before ++ [group]).length) (second :: others).length) row := by
            refine ⟨by rw [length]; exact blocks, ?_⟩
            exact fun other member => below other (List.mem_cons_of_mem _ member)
          have passes :=
            inductionHypothesis (split.trans (List.append_cons ..)) (List.cons_ne_nil second others)
              remaining foundNow
          rw [length, ← List.append_assoc] at passes
          exact .visited fetched visits
            (advance_within inner block trailer counted grown few onTop further pageFew) passes

/-- A whole level is passed, and what its pages link to waits behind it. -/
theorem passes_row
    (placed : Placed held relation start (wholeLevel level start groups))
    (fits : ∀ group ∈ groups, group.length ≤ mostEntries)
    (several : 1 < groups.length)
    (small : start + groups.length < blockNumberBound)
    (low : level < blockNumberBound)
    (linked : (childBlocks level groups).length < blockNumberBound)
    (onTop : closed + 1 < blockNumberBound)
    (levels : level + depth = rootLevel)
    (behind :
      ∀ row, RowAt (depth + 1) (childBlocks level groups) row →
        Passes (Held held relation) rootLevel
          (.opened (fanouts ++ [groups.length]) (childBlocks level groups).length (closed + 1)) row
          profile)
    {row : List Pending}
    (waiting : RowAt depth (blocksFrom start groups.length) row) :
    Passes (Held held relation) rootLevel (.opened fanouts groups.length closed) row profile := by
  have some : groups ≠ [] := List.length_pos_iff.mp (by omega)
  have none : RowAt (depth + 1) (childBlocks level []) [] := by
    rw [childBlocks]
    exact ⟨by split <;> rfl, by simp⟩
  have passes :=
    passes_rest placed fits several small low linked onTop levels behind
      (List.nil_append groups).symm some waiting none
  rw [List.append_nil] at passes
  have nothing : (childBlocks level []).length = 0 := none.length.symm
  rw [nothing] at passes
  rw [LevelTally.opened, if_pos (Nat.lt_trans Nat.zero_lt_one several)]
  exact passes

/-- The root is passed, and what it links to waits behind it. -/
theorem passes_root
    {group : List Entry}
    (placed : Placed held relation start (wholeLevel level start [group]))
    (fits : group.length ≤ mostEntries)
    (few : start + 1 < blockNumberBound)
    (low : level < blockNumberBound)
    (behind :
      ∀ row, RowAt 1 (childBlocks level [group]) row →
        Passes (Held held relation) level (.opened [] (childBlocks level [group]).length 0) row
          profile) :
    Passes (Held held relation) level .start [.ofRoot (UInt32.ofNat start)] profile := by
  have among : [group][0]? = some group := rfl
  obtain ⟨page, bound, onLevel, built, bounded⟩ := builtOf_group level start among fits few
  have place :
      (Pending.ofRoot (UInt32.ofNat start)).checkPlace level (groupTrailer level start 1 0) =
        .ok () :=
    checkPlace_group low rfl rfl
  have fitting : Counted LevelTally.start.nextChild group.length := by
    rw [LevelTally.start]
    exact .inr (by rw [Nat.zero_add]; exact Nat.lt_of_le_of_lt fits (by decide))
  obtain ⟨visit, visits, trailer, live, children⟩ :=
    visit_builtOf built bounded place (checkSiblings_onRow [] 1 0 level start 0 0) fun _ => fitting
  have fetched : Held held relation (UInt32.ofNat start) page := placed 0 page onLevel
  have isLeaf : (groupTrailer level start 1 0).isLeaf = decide (level = 0) := isLeaf_levelFlags ..
  have leaf : visit.trailer.isLeaf = decide (level = 0) := trailer ▸ isLeaf
  rw [List.length_singleton, isLeaf, ← childBlocks_singleton] at children
  have passes := behind visit.children children
  by_cases bottom : level = 0
  · have none : childBlocks level [group] = [] := by rw [childBlocks, if_pos bottom]
    have alone : visit.children = [] := by
      rw [none] at children
      exact List.map_eq_nil_iff.mp children.blocks
    -- Nothing waits behind a leaf, though its items were counted.
    have advances :
        LevelTally.start.advance (.ofRoot (UInt32.ofNat start)) visit =
          .ok ⟨[], visit.live, 0, 0, 0, 0, Option.none⟩ := by
      simp [LevelTally.advance, LevelTally.start, Pending.ofRoot, leaf, bottom]
    refine .visited fetched visits advances ?_
    rw [alone, none] at passes
    have shape := passes_nil_iff.mp passes
    rw [alone]
    exact passes_nil_iff.mpr shape
  · have counted : (childBlocks level [group]).length = visit.live := by
      rw [childBlocks_singleton, decide_eq_false bottom, live]
      exact List.length_map ..
    have advances :
        LevelTally.start.advance (.ofRoot (UInt32.ofNat start)) visit =
          .ok (.opened [] visit.live 0) := by
      simp [LevelTally.advance, LevelTally.start, LevelTally.opened, Pending.ofRoot, leaf, bottom]
    rw [counted] at passes
    exact .visited fetched visits advances passes

end Rows

/-! ## Walking all levels -/

namespace Builder.Stacked

variable
  {builder : Builder}
  {level start : Nat}
  {groups : List (List Entry)}
  {pages : List Page}
  {metapage : Metapage}

/-- The metapage knows how many levels are stacked. -/
theorem levels
    (stacked : Stacked builder level start groups pages metapage)
    (low : level + pages.length ≤ blockNumberBound) :
    level + (builder.levelCounts groups.length).length = metapage.level.toNat + 1 := by
  induction stacked with
  | top group =>
      rw [length_levelPages] at low
      rw [levelCounts]
      show _ + 1 = (UInt32.ofNat _).toNat + 1
      rw [UInt32.toNat_ofNat_of_lt' (Nat.lt_of_succ_le low)]
  | @under level start groups pages metapage several above inductionHypothesis =>
      rw [List.length_append, length_levelPages] at low
      have further := inductionHypothesis (by omega)
      rw [length_parentGroups] at further
      rw [levelCounts, dif_pos several, List.length_cons]
      omega

/-- A walk over the stack comes to its end if it does so behind its lowest level. -/
theorem passes
    {held : Contents}
    {relation : RelationId}
    {profile : Profile}
    (stacked : Stacked builder level start groups pages metapage)
    (innerFits : builder.innerCapacity ≤ mostEntries)
    (fits : ∀ group ∈ groups, group.length ≤ mostEntries)
    (placed : Placed held relation start pages)
    (few : start + pages.length < blockNumberBound)
    (low : level + pages.length ≤ blockNumberBound)
    (linked : (childBlocks level groups).length < blockNumberBound)
    (behind :
      ∀ row, RowAt (builder.levelCounts groups.length).length (childBlocks level groups) row →
        Passes (Held held relation) metapage.level.toNat
          (.opened (builder.levelCounts groups.length).reverse.tail
            (childBlocks level groups).length ((builder.levelCounts groups.length).length - 1))
          row profile) :
    Passes (Held held relation) metapage.level.toNat .start [.ofRoot metapage.root] profile := by
  induction stacked with
  | @top level start group =>
      rw [length_levelPages, List.length_singleton] at few low
      have single : builder.levelCounts 1 = [1] := by rw [levelCounts]; rfl
      rw [List.length_singleton, single] at behind
      have number : (UInt32.ofNat level).toNat = level :=
        UInt32.toNat_ofNat_of_lt' (Nat.lt_of_succ_le low)
      show Passes _ (UInt32.ofNat level).toNat _ _ _
      rw [number]
      refine passes_root placed (fits group (List.mem_singleton_self group)) few
        (Nat.lt_of_succ_le low) fun row waiting => ?_
      have passes := behind row waiting
      rwa [number] at passes
  | @under level start groups pages metapage several above inductionHypothesis =>
      have counts := levels (.under several above) low
      have length := length_levelPages level (levelFlags level groups.length) noSibling start groups
      rw [List.length_append, length] at few low
      have aboveFits :
          ∀ group ∈ groupsOf builder.innerCapacity
            (parentEntries (blocksFrom start groups.length) groups),
            group.length ≤ mostEntries := fun group member =>
        Nat.le_trans (length_le_of_mem_groupsOf builder.inner_pos member) innerFits
      have aboveFew := above.length_groups_le
      have right := placed.right
      rw [length] at right
      have links :
          (childBlocks (level + 1)
            (groupsOf builder.innerCapacity
              (parentEntries (blocksFrom start groups.length) groups))).length <
            blockNumberBound := by
        rw [childBlocks_parentGroups, length_blocksFrom]
        omega
      refine inductionHypothesis aboveFits right (by omega) (by omega) links ?_
      intro row waiting
      rw [length_parentGroups, childBlocks_parentGroups] at waiting ⊢
      rw [levelCounts, dif_pos several] at behind counts
      generalize parents : builder.levelCounts (builder.parentCount groups.length) = above at *
      have some : above ≠ [] := parents ▸ builder.levelCounts_ne_nil _
      have fanouts : (groups.length :: above).reverse.tail = above.reverse.tail ++ [groups.length] := by
        rw [List.reverse_cons, List.tail_append_of_ne_nil (by simpa using some)]
      have closed : above.length - 1 + 1 = above.length :=
        Nat.sub_add_cancel (List.length_pos_iff.mpr some)
      rw [fanouts, List.length_cons, Nat.add_sub_cancel, ← closed] at behind
      rw [List.length_cons, ← Nat.add_assoc] at counts
      rw [length_blocksFrom]
      have onTop : above.length - 1 + 1 < blockNumberBound := by
        rw [closed]
        exact Nat.lt_of_le_of_lt (Nat.le_add_left ..) (Nat.succ.inj counts ▸ metapage.level.toNat_lt)
      refine passes_row placed.left fits several (by omega) (by omega) linked onTop
        (Nat.succ.inj counts) (fun row waiting => ?_) waiting
      exact behind row (by rwa [closed])

end Builder.Stacked

/-! ## Built indexes -/

/-- The levels of an index of so many entries, from the one below the root down to the leaves. -/
def Builder.profileOf (builder : Builder) (entries height : Nat) : Profile :=
  ⟨(List.range height).reverse.map (builder.levelSize entries), height - 1⟩

section Built

variable
  {builder : Builder}
  {entries : List Entry}
  {height : Nat}
  {pages : List Page}
  {metapage : Metapage}
  {held : Contents}
  {relation : RelationId}

/-- The profile of the levels that end with the first one of a single page. -/
theorem profileOf_levelCounts
    {number : Nat}
    (single : builder.levelSize number height = 1)
    (counts :
      builder.levelCounts (builder.leafCount number) =
        (List.range (height + 1)).map (builder.levelSize number)) :
    builder.profileOf number height =
        ⟨(builder.levelCounts (builder.leafCount number)).reverse.tail,
          (builder.levelCounts (builder.leafCount number)).length - 1 - 1⟩ ∧
      (builder.profileOf number height).counts =
        (builder.levelCounts (builder.leafCount number)).reverse := by
  have reversed :
      (builder.levelCounts (builder.leafCount number)).reverse =
        1 :: (List.range height).reverse.map (builder.levelSize number) := by
    rw [counts, List.range_succ, List.map_append, List.reverse_append, List.map_reverse,
      List.map_singleton, single]
    rfl
  have length : (builder.levelCounts (builder.leafCount number)).length = height + 1 := by
    rw [counts, List.length_map, List.length_range]
  rw [reversed, length]
  exact ⟨rfl, rfl⟩

/-- Measuring a relation that holds a stack over so many entries visits its pages and ends with
their profile. -/
theorem wholeTrail_stacked
    (stacked : Stacked builder 0 1 (builder.leafGroups entries) pages metapage)
    (leafFits : builder.leafCapacity ≤ mostEntries)
    (innerFits : builder.innerCapacity ≤ mostEntries)
    (few : 1 + pages.length < blockNumberBound)
    (single : builder.levelSize entries.length height = 1)
    (counts :
      builder.levelCounts (builder.leafCount entries.length) =
        (List.range (height + 1)).map (builder.levelSize entries.length))
    (present : held relation = some ⟨metapage.page :: pages, Page.zero⟩) :
    ∃ placements,
      WholeTrail (Held held relation) .measure placements
        (builder.profileOf entries.length height) := by
  have leaves : ∀ group ∈ builder.leafGroups entries, group.length ≤ mostEntries :=
    fun group member => Nat.le_trans (length_le_of_mem_leafGroups member) leafFits
  have passes :
      Passes (Held held relation) metapage.level.toNat .start [.ofRoot metapage.root]
        (builder.profileOf entries.length height) := by
    have linked : (childBlocks 0 (builder.leafGroups entries)).length < blockNumberBound := by
      rw [childBlocks, if_pos rfl]
      decide
    refine stacked.passes innerFits leaves (placed_of_present present few) few (by omega) linked ?_
    intro row waiting
    -- No page waits behind the leaves.
    obtain rfl : row = [] := List.map_eq_nil_iff.mp waiting.blocks
    refine passes_nil_iff.mpr ?_
    rw [length_leafGroups, (profileOf_levelCounts single counts).1]
    rfl
  obtain ⟨placements, final, trail, shape⟩ := passes
  have fetched : Held held relation metapageBlock metapage.page :=
    Contents.page_of_some present rfl
  exact ⟨placements, shape ▸ .intro fetched metapage.read_page trail⟩

end Built

/-- Measuring an index that was built from sorted entries finds the levels that the capacities
make necessary, for all capacities that a builder accepts: the leaves that hold the entries, and
on every level above as many pages as it takes to refer to the one below, up to the first level
that has a single page. The store has to have an identity for the index, and block numbers for
its pages. Then building succeeds; and whatever else happens to the store, as long as it stays
sound and the index is not written to, measuring succeeds, the relation has one block more than
the index has pages, and links lead from the root to every block but the metapage's. -/
theorem measure_build
    {leaf inner : Nat}
    {builder : Builder}
    (created : Builder.create leaf inner = .ok builder)
    {entries : List Entry}
    (ascending : keysAscend entries = true)
    (few :
      1 + (builder.levelCounts (builder.leafCount entries.length)).sum < blockNumberBound)
    {σ : Type}
    [Storage σ]
    [LawfulStorage σ]
    {state : σ}
    (sound : Sound state)
    (roomy : 0 < room state) :
    ∃ relation left height,
      (builder.build entries).runOn state = (.ok relation, left) ∧ Sound left ∧
        builder.levelSize entries.length height = 1 ∧
          (∀ level, level < height → builder.levelSize entries.length level ≠ 1) ∧
            ∀ later : σ, Sound later → contents later relation = contents left relation →
              ((measure relation).runOn later).1 =
                  .ok (builder.profileOf entries.length height) ∧
                (∃ count,
                  ((Storage.blockCount relation : StorageM σ BlockNumber).runOn later).1 =
                      .ok count ∧
                    count.toNat = (builder.profileOf entries.length height).size + 1 ∧
                      ∀ block,
                        Reachable ((contents later).page relation) block ↔
                          block ≠ metapageBlock ∧ block < count) := by
  obtain ⟨rfl, rfl, leafFits, innerFits⟩ := create_eq_ok_iff.mp created
  have leaves := length_leafGroups builder entries
  have some : 0 < (builder.leafGroups entries).length := by
    rw [leaves]
    exact Nat.le_max_left ..
  obtain ⟨pages, metapage, stacked⟩ := exists_stacked builder 0 1 some
  have size := stacked.length_pages
  rw [leaves] at size
  rw [← size] at few
  obtain ⟨relation, built, -, leftSound, leftHolds⟩ :=
    build_yields stacked leafFits innerFits ascending sound roomy few
  obtain ⟨height, single, more, counts⟩ := builder.levelCounts_levelSize entries.length 0
  rw [Nat.zero_add] at single
  rw [levelSize, ← List.range_eq_range'] at counts
  have profile := (profileOf_levelCounts single counts).2
  have pageCount : (builder.profileOf entries.length height).size = pages.length := by
    rw [Profile.size_eq_sum, profile, List.sum_reverse, size]
  refine ⟨relation, _, height, runOn_eq_of_outcome built, leftSound, single, ?_, ?_⟩
  · intro level below
    have several := more level below
    rw [Nat.zero_add] at several
    exact Nat.ne_of_gt several
  intro later laterSound kept
  have present : contents later relation = Option.some ⟨metapage.page :: pages, Page.zero⟩ := by
    rw [kept, leftHolds, Contents.put_same]
  have length : (metapage.page :: pages).length = 1 + pages.length := Nat.add_comm ..
  have bounded : (metapage.page :: pages).length < blockNumberBound := length ▸ few
  obtain ⟨placements, whole⟩ :=
    wholeTrail_stacked stacked leafFits innerFits few single counts present
  have number : (UInt32.ofNat (metapage.page :: pages).length).toNat = 1 + pages.length := by
    rw [UInt32.toNat_ofNat_of_lt' bounded, length]
  refine ⟨measure_of_whole laterSound whole, _, count_of_sound laterSound present bounded, ?_, ?_⟩
  · rw [number, pageCount, Nat.add_comm]
  · intro block
    have live :
        ∀ placement ∈ placements,
          liveLinks placement.page = .ok (placement.visit.children.map Pending.block) := by
      intro placement member
      obtain ⟨_, _, visits⟩ := whole.visit_of_mem member
      exact liveLinks_of_visit visits
    rw [whole.reachable_iff live, UInt32.lt_iff_toNat_lt, number]
    constructor
    · intro visited
      obtain ⟨placement, member, rfl⟩ := visited
      have inside := inside_of_held present (whole.visit_of_mem member).1
      rw [length] at inside
      exact ⟨whole.block_ne_metapage (held_functional _ _) member, inside⟩
    · intro holds
      refine whole.exists_visit present bounded ?_ (length ▸ holds.2) holds.1
      rw [← Profile.size_eq_sum, pageCount]
      rfl

/-- Five entries on leaves of two, and inner pages of two: three leaves, two pages above them, and
the root. The last page of either level is not full. -/
theorem measure_build_straddling :
    Builder.create 2 2 = .ok ⟨2, 2, by decide, by decide⟩ ∧
      ∃ relation left,
        ((⟨2, 2, by decide, by decide⟩ : Builder).build straddlingEntries).runOn
            MemoryStorage.empty = (.ok relation, left) ∧
          ((measure relation).runOn left).1 = .ok ⟨[2, 3], 1⟩ ∧
            ((Storage.blockCount relation : StorageM MemoryStorage BlockNumber).runOn left).1 =
                .ok 7 ∧
              Reachable ((contents left).page relation) 6 := by
  have created : Builder.create 2 2 = .ok ⟨2, 2, by decide, by decide⟩ := rfl
  have few :
      1 +
          ((⟨2, 2, by decide, by decide⟩ : Builder).levelCounts
            ((⟨2, 2, by decide, by decide⟩ : Builder).leafCount straddlingEntries.length)).sum <
        blockNumberBound := by
    simp [straddlingEntries, Builder.leafCount, Builder.levelCounts, Builder.parentCount,
      blockNumberBound]
  obtain ⟨relation, left, height, built, sound, single, more, shape⟩ :=
    measure_build created (show keysAscend straddlingEntries = true by decide) few
      (show Sound MemoryStorage.empty from rfl) (by decide)
  obtain ⟨measures, count, counts, number, blocks⟩ := shape left sound rfl
  have two : height = 2 := by
    have atMost : ¬2 < height := fun below => more 2 below rfl
    have notZero : height ≠ 0 := by
      rintro rfl
      exact absurd single (by decide)
    have notOne : height ≠ 1 := by
      rintro rfl
      exact absurd single (by decide)
    omega
  subst two
  have seven : count = 7 := UInt32.toNat_inj.mp number
  subst seven
  exact ⟨created, relation, left, built, measures, counts, (blocks 6).mpr (by decide)⟩

end ObliviousStorage.Index

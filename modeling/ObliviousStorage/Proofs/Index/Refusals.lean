import ObliviousStorage.Proofs.Index.LevelOrder

/-!
Contract: why a walk over an index is refused.

Owns: that reading, checking and changing index pages is refused for nothing but what is
wrong with the page; that a walk breaks off at no sum but that of the links of one level;
and that it only fetches blocks that links lead to. So a walk over an index whose links all
lead to blocks that exist ends with the shape of the index, with the damage that it found, or
on a level that has more links than can be counted.

Does not own: which damage is found first.
-/

namespace ObliviousStorage

/-- Refused for nothing but what is wrong with a page, unless a sum is too large. -/
def DamagedUnless (large : Prop) {α : Type} (outcome : Except Fault α) : Prop :=
  ∀ fault, outcome = .error fault →
    (∃ damage, fault = .corruptPage damage) ∨ fault = .overflow ∧ large

namespace DamagedUnless

variable {α β : Type} {large larger : Prop}

theorem ok (value : α) : DamagedUnless large (.ok value) :=
  fun _ refused => absurd refused (by simp)

theorem error (damage : Damage) :
    DamagedUnless large (.error (.corruptPage damage) : Except Fault α) :=
  fun _ refused => .inl ⟨damage, (Except.error.inj refused).symm⟩

theorem ite
    {condition : Prop}
    [Decidable condition]
    {one other : Except Fault α}
    (first : DamagedUnless large one)
    (second : DamagedUnless large other) :
    DamagedUnless large (if condition then one else other) := by
  split
  · exact first
  · exact second

theorem require
    (condition : Prop)
    [Decidable condition]
    (damage : Damage) :
    DamagedUnless large (ObliviousStorage.require condition (.corruptPage damage)) :=
  ite (ok ()) (error damage)

/-- A sum breaks off exactly where it is too large. -/
theorem wordSum (left right : Nat) :
    DamagedUnless (blockNumberBound ≤ left + right) (ObliviousStorage.wordSum left right) :=
  fun _ refused => .inr (wordSum_eq_error_iff.mp refused).symm

theorem weaken
    {outcome : Except Fault α}
    (damaged : DamagedUnless large outcome)
    (wider : large → larger) :
    DamagedUnless larger outcome := by
  intro fault refused
  rcases damaged fault refused with damage | ⟨breaks, here⟩
  · exact .inl damage
  · exact .inr ⟨breaks, wider here⟩

theorem bind
    {first : Except Fault α}
    {next : α → Except Fault β}
    (begins : DamagedUnless large first)
    (continues : ∀ value, first = .ok value → DamagedUnless large (next value)) :
    DamagedUnless large (first >>= next) := by
  intro fault refused
  cases first with
  | error earlier =>
      obtain rfl : earlier = fault := Except.error.inj refused
      exact begins earlier rfl
  | ok value => exact continues value rfl fault refused

theorem map
    {outcome : Except Fault α}
    (change : α → β)
    (damaged : DamagedUnless large outcome) :
    DamagedUnless large (outcome.map change) := by
  intro fault refused
  cases outcome with
  | error earlier =>
      obtain rfl : earlier = fault := Except.error.inj refused
      exact damaged earlier rfl
  | ok value => exact absurd refused (by simp [Except.map])

/-- A fault that ends one outcome ends another one for the same reason. -/
theorem of_error
    {fault : Fault}
    {outcome : Except Fault α}
    (damaged : DamagedUnless large outcome)
    (refused : outcome = .error fault) :
    DamagedUnless large (.error fault : Except Fault β) := by
  intro other same
  obtain rfl := Except.error.inj same
  exact damaged fault refused

end DamagedUnless

/-! ## Pages -/

variable {large : Prop}

namespace Page

theorem damaged_verify (page : Page) : DamagedUnless large page.verify :=
  .ite (.ok ()) (.error _)

theorem damaged_region (page : Page) (start length : Nat) :
    DamagedUnless large (page.region start length) :=
  .ite (.ok _) (.error _)

theorem damaged_overwrite (page : Page) (start : Nat) (bytes : List UInt8) :
    DamagedUnless large (page.overwrite start bytes) :=
  .ite (.ok _) (.error _)

theorem damaged_slot (page : Page) (number : Nat) : DamagedUnless large (page.slot number) :=
  .bind page.damaged_verify fun _ _ =>
    .bind (.require _ _) fun _ _ =>
      .bind (page.damaged_region _ _) fun _ _ =>
        .bind (.require _ _) fun _ _ => .ok _

theorem damaged_item (page : Page) (number : Nat) : DamagedUnless large (page.item number) :=
  .bind (page.damaged_slot number) fun _ _ => page.damaged_region _ _

end Page

namespace Index

theorem damaged_readTrailer (page : Page) : DamagedUnless large (Trailer.read page) :=
  .bind page.damaged_verify fun _ _ => .bind (.require _ _) fun _ _ => .ok _

theorem damaged_writeTrailer (trailer : Trailer) (page : Page) :
    DamagedUnless large (trailer.write page) :=
  .bind (.require _ _) fun _ _ => .ok _

theorem damaged_readEntry (page : Page) (slot : Nat) : DamagedUnless large (Entry.read page slot) :=
  .bind (page.damaged_item slot) fun _ _ => .bind (.require _ _) fun _ _ => .ok _

theorem damaged_redirect (page : Page) (slot : Nat) (child : BlockNumber) :
    DamagedUnless large (redirect page slot child) :=
  .bind (page.damaged_slot slot) fun _ _ =>
    .bind (.require _ _) fun _ _ => page.damaged_overwrite _ _

theorem damaged_readMetapage (page : Page) : DamagedUnless large (Metapage.read page) :=
  .bind (damaged_readTrailer page) fun _ _ =>
    .bind (.require _ _) fun _ _ =>
      .bind (page.damaged_item 1) fun _ _ => .bind (.require _ _) fun _ _ => .ok _

/-! ## Visits -/

theorem damaged_checkPlace (pending : Pending) (rootLevel : Nat) (trailer : Trailer) :
    DamagedUnless large (pending.checkPlace rootLevel trailer) :=
  .bind (.require _ _) fun _ _ => .require _ _

theorem damaged_checkSiblings (tally : LevelTally) (block : BlockNumber) (trailer : Trailer) :
    DamagedUnless large (tally.checkSiblings block trailer) := by
  refine .bind ?_ fun _ _ => .require _ _
  unfold LevelTally.expectedPrevious
  split
  · exact .ok _
  · exact .ite (.ok _) (.error _)

theorem damaged_relink (mode : WalkMode) (page : Page) (slot position : Nat) :
    DamagedUnless large (mode.relink page slot position) := by
  cases mode with
  | measure => exact .ok page
  | relocate => exact damaged_redirect page slot _

theorem damaged_stamp (mode : WalkMode) (page : Page) (trailer : Trailer) :
    DamagedUnless large (mode.stamp page trailer) := by
  cases mode with
  | measure => exact .ok page
  | relocate => exact damaged_writeTrailer trailer page

/-- Collecting children breaks off only where they cannot be counted. -/
theorem damaged_adopt
    (pending : Pending)
    (mode : WalkMode)
    (slots : List Nat)
    (position : Nat)
    (page : Page) :
    DamagedUnless (blockNumberBound ≤ position + slots.length)
      (pending.adopt mode slots position page) := by
  induction slots generalizing position page with
  | nil => exact .ok _
  | cons slot rest inductionHypothesis =>
      refine
        .bind (damaged_readEntry page slot) fun _ _ =>
          .bind (damaged_relink mode page slot position) fun linked _ => ?_
      refine
        .bind ((DamagedUnless.wordSum position 1).weaken fun large => ?_) fun following sum => ?_
      · exact Nat.le_trans large (Nat.add_le_add_left (Nat.succ_pos rest.length) position)
      · obtain ⟨-, rfl⟩ := wordSum_eq_ok_iff.mp sum
        refine .bind ((inductionHypothesis (position + 1) linked).weaken fun large => ?_)
          fun _ _ => .ok _
        rwa [List.length_cons, Nat.add_comm rest.length, ← Nat.add_assoc]

/-- A page that passes the checks where the walk is, and that links to more pages than the
counter of children has numbers left. -/
def LevelTally.Brims
    (tally : LevelTally)
    (rootLevel : Nat)
    (pending : Pending)
    (page : Page) : Prop :=
  ∃ trailer,
    Trailer.read page = .ok trailer ∧ pending.checkPlace rootLevel trailer = .ok () ∧
      tally.checkSiblings pending.block trailer = .ok () ∧
        blockNumberBound ≤ tally.nextChild + liveDownlinks page

theorem damaged_visit
    (tally : LevelTally)
    (mode : WalkMode)
    (rootLevel : Nat)
    (pending : Pending)
    (page : Page) :
    DamagedUnless (tally.Brims rootLevel pending page)
      (tally.visit mode rootLevel pending page) := by
  refine
    .bind (damaged_readTrailer page) fun trailer read =>
      .bind (damaged_checkPlace pending rootLevel trailer) fun _ place =>
        .bind (damaged_checkSiblings tally pending.block trailer) fun _ siblings =>
          .bind ?_ fun found _ => .bind (damaged_stamp mode found.2 _) fun _ _ => .ok _
  cases isLeaf : trailer.isLeaf with
  | true =>
      rw [Pending.children, if_pos isLeaf]
      exact .ok _
  | false =>
      have links : liveDownlinks page = (trailer.dataSlots page).length := by
        simp [liveDownlinks, read, isLeaf]
      rw [Pending.children, if_neg (ne_true_of_eq_false isLeaf)]
      refine (damaged_adopt pending mode _ _ page).weaken fun large => ?_
      exact ⟨trailer, read, place, siblings, links ▸ large⟩

/-- Behind a visit the counters hold their sums: the level has fewer pages than there are
numbers, its children were counted, and there are no more levels than the root's names. -/
theorem OnLevels.damaged_advance
    {mode : WalkMode}
    {rootLevel visited : Nat}
    {tally : LevelTally}
    {pending : Pending}
    {rest : List Pending}
    {page : Page}
    {visit : Visit}
    (on : OnLevels rootLevel tally (pending :: rest) visited)
    (few : rootLevel < blockNumberBound)
    (visits : tally.visit mode rootLevel pending page = .ok visit) :
    DamagedUnless large (tally.advance pending visit) := by
  cases on with
  | start root => exact .ok _
  | @midway _ current next depth _ _ waiting midway =>
      cases current with
      | nil => exact absurd rfl midway.current_ne
      | cons first others =>
          obtain ⟨rfl, rfl⟩ : pending = first ∧ rest = others ++ next := by simpa using waiting
          obtain ⟨atDepth, inner⟩ := midway.currentAt pending (by simp)
          have below :
              visit.trailer.isLeaf = false → tally.below + visit.live < blockNumberBound := by
            intro notLeaf
            have fits := midway.found_lt visits
            rwa [← (midway.found visits).1, LevelTally.found, notLeaf] at fits
          have remaining := midway.remaining
          have fits := midway.expected_lt
          rw [List.length_cons] at remaining
          have above := midway.depth_le
          have closed := midway.closed
          rw [LevelTally.advance_of_fits inner below (by omega) (by omega)]
          exact .ite (.ite (.ok _) (.error _)) (.ok _)

/-! ## Courses -/

/-- A walk from this root comes to a page with more links than it can count. -/
def Overflows
    (Fetched : BlockNumber → Page → Prop)
    (mode : WalkMode)
    (rootLevel : Nat)
    (root : BlockNumber) : Prop :=
  ∃ earlier tally pending rest page,
    Reached Fetched mode rootLevel root earlier tally (pending :: rest) ∧
      Fetched pending.block page ∧ tally.Brims rootLevel pending page

section Courses

variable
  {fetch : BlockNumber → Except Fault Page}
  {mode : WalkMode}
  {blocks : List BlockNumber}
  {placements : List Placement}

/-- A walk that measures fetches nothing but blocks that links lead to. -/
theorem Course.reachable
    {rootLevel : Nat}
    {tally : LevelTally}
    {queue : List Pending}
    {outcome : Except Fault LevelTally}
    (course : Course fetch .measure rootLevel tally queue blocks placements outcome)
    (waiting : ∀ pending ∈ queue, Reachable fetch pending.block) :
    ∀ block ∈ blocks, Reachable fetch block := by
  induction course with
  | ended => simp
  | unread | rejected | unclosed =>
      intro block member
      rw [List.mem_singleton.mp member]
      exact waiting _ (List.mem_cons_self ..)
  | @visited _ _ pending rest _ visit _ _ _ found visits advances continues
      inductionHypothesis =>
      have behind := Reachable.of_visited waiting found (liveLinks_of_visit visits)
      intro block member
      rcases List.mem_cons.mp member with rfl | among
      · exact waiting pending (List.mem_cons_self ..)
      · exact inductionHypothesis behind block among

/-- A walk over blocks that can be read is refused for nothing but damage, unless it comes to
a page with more links than it can count. -/
theorem Course.damaged
    {rootLevel : Nat}
    {root : BlockNumber}
    {earlier : List Placement}
    {tally : LevelTally}
    {queue : List Pending}
    {outcome : Except Fault LevelTally}
    (course : Course fetch mode rootLevel tally queue blocks placements outcome)
    (few : rootLevel < blockNumberBound)
    (reached :
      Reached (fun block page => fetch block = .ok page) mode rootLevel root earlier tally queue)
    (readable : ∀ block ∈ blocks, ∃ page, fetch block = .ok page) :
    DamagedUnless (Overflows (fun block page => fetch block = .ok page) mode rootLevel root)
      outcome := by
  induction course generalizing earlier with
  | ended tally => exact .ok tally
  | @unread _ pending _ fault missing =>
      obtain ⟨page, found⟩ := readable pending.block (List.mem_cons_self ..)
      exact absurd (missing.symm.trans found) (by simp)
  | rejected found rejects =>
      refine ((damaged_visit _ _ _ _ _).weaken fun brims => ?_).of_error rejects
      exact ⟨_, _, _, _, _, reached, found, brims⟩
  | unclosed found visits stops =>
      exact (reached.onLevels.damaged_advance few visits).of_error stops
  | visited found visits advances continues inductionHypothesis =>
      refine inductionHypothesis (.visited reached found visits advances) fun block member => ?_
      exact readable block (List.mem_cons_of_mem _ member)

/-- Measuring an index whose metapage exists, and whose links all lead to blocks that exist,
ends with its shape or with damage, unless it comes to a page with more links than it can
count. -/
theorem WholeCourse.damaged
    {outcome : Except Fault Profile}
    {first : Page}
    {metapage : Metapage}
    (course : WholeCourse fetch .measure blocks placements outcome)
    (fetched : fetch metapageBlock = .ok first)
    (opens : Metapage.read first = .ok metapage)
    (readable : ∀ block, Reachable fetch block → ∃ page, fetch block = .ok page) :
    DamagedUnless
      (Overflows (fun block page => fetch block = .ok page) .measure metapage.level.toNat
        metapage.root)
      outcome := by
  cases course with
  | unread missing => exact absurd (missing.symm.trans fetched) (by simp)
  | rejected found rejects => exact (damaged_readMetapage _).of_error rejects
  | walked found reads course =>
      obtain rfl := Except.ok.inj (fetched.symm.trans found)
      obtain rfl := Except.ok.inj (opens.symm.trans reads)
      have links := course.reachable (.of_root found reads)
      have whole :=
        course.damaged metapage.level.toNat_lt .start fun block member =>
          readable block (links block member)
      exact whole.map _

end Courses

end Index

end ObliviousStorage

import ObliviousStorage.Proofs.Index.Links

/-!
Contract: the levels of an index in the order of a walk.

Owns: the visits of a walk that were made at one depth; that they are a run of the whole
walk, at the offsets from zero up to the measured number of pages; that the children of
the pages of a level, from left to right, are the pages of the level below it; and that
a walk visits exactly the blocks that links lead to.

Does not own: what a walk makes of the pages.
-/

namespace ObliviousStorage.Index

/-- The visits made at some depth. -/
def onLevel (depth : Nat) (placements : List Placement) : List Placement :=
  placements.filter fun placement => placement.pending.depth = depth

theorem mem_onLevel
    {depth : Nat}
    {placement : Placement}
    {placements : List Placement} :
    placement ∈ onLevel depth placements ↔
      placement ∈ placements ∧ placement.pending.depth = depth := by
  simp [onLevel]

/-! ## Children -/

section Children

variable
  {Fetched : BlockNumber → Page → Prop}
  {mode : WalkMode}
  {rootLevel : Nat}
  {tally final : LevelTally}
  {queue : List Pending}
  {placements : List Placement}

theorem LevelTally.visit_children_depth
    {pending child : Pending}
    {page : Page}
    {visit : Visit}
    (visits : tally.visit mode rootLevel pending page = .ok visit)
    (member : child ∈ visit.children) :
    child.depth = pending.depth + 1 := by
  rcases LevelTally.visit_shape visits with ⟨-, noChildren, -⟩ | ⟨-, -, -, childrenAt⟩
  · simp [noChildren] at member
  · exact (childrenAt child member).1

/-- The children of a visited page wait at one depth only. -/
theorem LevelTally.filter_children
    {pending : Pending}
    {page : Page}
    {visit : Visit}
    (visits : tally.visit mode rootLevel pending page = .ok visit)
    (depth : Nat) :
    visit.children.filter (fun child => child.depth = depth) =
      if pending.depth + 1 = depth then visit.children else [] := by
  have below : ∀ child ∈ visit.children, child.depth = pending.depth + 1 :=
    fun child member => LevelTally.visit_children_depth visits member
  by_cases here : pending.depth + 1 = depth
  · rw [if_pos here]
    refine List.filter_eq_self.mpr ?_
    intro child member
    exact decide_eq_true ((below child member).trans here)
  · rw [if_neg here]
    refine List.filter_eq_nil_iff.mpr ?_
    intro child member same
    exact here ((below child member).symm.trans (of_decide_eq_true same))

/-- The pages waiting at some depth are visited first of all at that depth. Behind them
come the children of the pages that are still to be visited one level above. -/
theorem Trail.onLevel_succ
    (trail : Trail Fetched mode rootLevel tally queue placements final)
    (depth : Nat) :
    (onLevel (depth + 1) placements).map Placement.pending =
      queue.filter (fun pending => pending.depth = depth + 1) ++
        (onLevel depth placements).flatMap fun placement => placement.visit.children := by
  induction trail with
  | ended => rfl
  | @visited tally advanced final pending rest page visit later fetched visits advances continues
      inductionHypothesis =>
      rw [List.filter_append, LevelTally.filter_children visits] at inductionHypothesis
      unfold onLevel at inductionHypothesis ⊢
      by_cases deeper : pending.depth = depth + 1
      · simp [deeper, inductionHypothesis]
      · by_cases here : pending.depth = depth
        · simp [here, inductionHypothesis]
        · simp [deeper, here, inductionHypothesis]

/-- Nothing but what waits there is visited at the root's depth. -/
theorem Trail.onLevel_zero
    (trail : Trail Fetched mode rootLevel tally queue placements final) :
    (onLevel 0 placements).map Placement.pending =
      queue.filter fun pending => pending.depth = 0 := by
  induction trail with
  | ended => rfl
  | @visited tally advanced final pending rest page visit later fetched visits advances continues
      inductionHypothesis =>
      rw [List.filter_append, LevelTally.filter_children visits,
        if_neg (Nat.succ_ne_zero _)] at inductionHypothesis
      unfold onLevel at inductionHypothesis ⊢
      by_cases top : pending.depth = 0
      · simp [top, inductionHypothesis]
      · simp [top, inductionHypothesis]

end Children

/-! ## Places -/

/-- Numbers in level order tell the depths of pages. -/
theorem Placement.InOrder.depth_eq_iff
    {counts : List Nat}
    {number depth : Nat}
    {placement : Placement}
    (inOrder : placement.InOrder counts number) :
    placement.pending.depth = depth ↔
      (counts.take depth).sum ≤ number ∧
        number < (counts.take depth).sum + counts.getD depth 0 := by
  have inside := inOrder.inside
  have place := inOrder.number
  constructor
  · rintro rfl
    omega
  · rintro ⟨above, below⟩
    rcases Nat.lt_trichotomy placement.pending.depth depth with higher | same | lower
    · have before := sum_take_add_getD_le_take counts higher
      omega
    · exact same
    · have before := sum_take_add_getD_le_take counts lower
      omega

/-- What holds exactly at the places of a run filters that run. -/
theorem filter_eq_slice
    {α : Type}
    {among : α → Bool}
    {items : List α}
    {start count : Nat}
    (placed :
      ∀ number item, items[number]? = some item →
        (among item = true ↔ start ≤ number ∧ number < start + count)) :
    items.filter among = (items.drop start).take count := by
  have split :
      items = items.take start ++ ((items.drop start).take count ++ items.drop (start + count)) := by
    rw [← List.drop_drop, List.take_append_drop, List.take_append_drop]
  have before : (items.take start).filter among = [] := by
    refine List.filter_eq_nil_iff.mpr fun item member holds => ?_
    obtain ⟨number, found⟩ := List.mem_iff_getElem?.mp member
    rw [List.getElem?_take] at found
    split at found
    · next earlier =>
        have place := (placed number item found).mp holds
        omega
    · exact absurd found (by simp)
  have within : ((items.drop start).take count).filter among = (items.drop start).take count := by
    refine List.filter_eq_self.mpr fun item member => ?_
    obtain ⟨number, found⟩ := List.mem_iff_getElem?.mp member
    rw [List.getElem?_take] at found
    split at found
    · next inside =>
        rw [List.getElem?_drop] at found
        exact (placed (start + number) item found).mpr (by omega)
    · exact absurd found (by simp)
  have behind : (items.drop (start + count)).filter among = [] := by
    refine List.filter_eq_nil_iff.mpr fun item member holds => ?_
    obtain ⟨number, found⟩ := List.mem_iff_getElem?.mp member
    rw [List.getElem?_drop] at found
    have place := (placed (start + count + number) item found).mp holds
    omega
  calc
    items.filter among =
        (items.take start ++
          ((items.drop start).take count ++ items.drop (start + count))).filter among := by
      rw [← split]
    _ = (items.drop start).take count := by
      rw [List.filter_append, List.filter_append, before, within, behind, List.nil_append,
        List.append_nil]

namespace WholeTrail

variable
  {Fetched : BlockNumber → Page → Prop}
  {mode : WalkMode}
  {placements : List Placement}
  {profile : Profile}

/-- The visits at one depth are a run of the walk. -/
theorem onLevel_eq
    (whole : WholeTrail Fetched mode placements profile)
    (depth : Nat) :
    onLevel depth placements =
      (placements.drop ((profile.counts.take depth).sum)).take (profile.pagesOn depth) := by
  refine filter_eq_slice fun number placement among => ?_
  rw [decide_eq_true_eq]
  exact (whole.inOrder among).depth_eq_iff

/-- The measured profile counts the pages of every level. -/
theorem length_onLevel
    (whole : WholeTrail Fetched mode placements profile)
    (depth : Nat) :
    (onLevel depth placements).length = profile.pagesOn depth := by
  rw [whole.onLevel_eq, List.length_take, List.length_drop, ← whole.size_eq]
  have within := sum_take_add_getD_le profile.counts depth
  rw [Profile.pagesOn]
  omega

/-- The pages of a level are visited from the offset zero on. -/
theorem offset_of_onLevel
    (whole : WholeTrail Fetched mode placements profile)
    {depth offset : Nat}
    {placement : Placement}
    (among : (onLevel depth placements)[offset]? = some placement) :
    placement.tally.offset = offset ∧
      placements[(profile.counts.take depth).sum + offset]? = some placement := by
  obtain ⟨-, atDepth⟩ := mem_onLevel.mp (List.mem_of_getElem? among)
  rw [whole.onLevel_eq, List.getElem?_take] at among
  split at among
  · rw [List.getElem?_drop] at among
    have number := (whole.inOrder among).number
    rw [atDepth] at number
    exact ⟨by omega, among⟩
  · exact absurd among (by simp)

/-- A visited page is found on its level at its offset. -/
theorem getElem?_onLevel
    (whole : WholeTrail Fetched mode placements profile)
    {placement : Placement}
    (member : placement ∈ placements) :
    (onLevel placement.pending.depth placements)[placement.tally.offset]? = some placement := by
  obtain ⟨place, among⟩ := List.mem_iff_getElem?.mp (mem_onLevel.mpr ⟨member, rfl⟩)
  rwa [(whole.offset_of_onLevel among).1]

theorem map_offset_onLevel
    (whole : WholeTrail Fetched mode placements profile)
    (depth : Nat) :
    (onLevel depth placements).map (fun placement => placement.tally.offset) =
      List.range (profile.pagesOn depth) := by
  apply List.ext_getElem
  · rw [List.length_map, List.length_range, whole.length_onLevel]
  · intro offset inside _
    rw [List.length_map] at inside
    rw [List.getElem_map, List.getElem_range]
    exact (whole.offset_of_onLevel (List.getElem?_eq_getElem inside)).1

/-- The root is alone on its level. -/
theorem map_pending_onLevel_zero (whole : WholeTrail Fetched mode placements profile) :
    ∃ first metapage,
      Fetched metapageBlock first ∧ Metapage.read first = .ok metapage ∧
        (onLevel 0 placements).map Placement.pending = [.ofRoot metapage.root] := by
  obtain ⟨fetched, opens, trail⟩ := whole
  exact ⟨_, _, fetched, opens, trail.onLevel_zero⟩

/-- The children of the pages of a level, from left to right, are the pages of the level
below it. -/
theorem map_pending_onLevel_succ
    (whole : WholeTrail Fetched mode placements profile)
    (depth : Nat) :
    (onLevel (depth + 1) placements).map Placement.pending =
      (onLevel depth placements).flatMap fun placement => placement.visit.children := by
  obtain ⟨-, -, trail⟩ := whole
  rw [trail.onLevel_succ depth]
  rfl

/-! ## Siblings -/

/-- Pages below the root are children of another page. -/
theorem inner_of_onLevel_succ
    (whole : WholeTrail Fetched mode placements profile)
    {depth : Nat}
    {placement : Placement}
    (member : placement ∈ onLevel (depth + 1) placements) :
    placement.pending.parent.isNone = false := by
  have among : placement.pending ∈ (onLevel (depth + 1) placements).map Placement.pending :=
    List.mem_map_of_mem member
  rw [whole.map_pending_onLevel_succ] at among
  obtain ⟨parent, above, child⟩ := List.mem_flatMap.mp among
  obtain ⟨-, rootLevel, visits⟩ := whole.visit_of_mem (mem_onLevel.mp above).1
  rcases LevelTally.visit_shape visits with ⟨-, noChildren, -⟩ | ⟨-, -, -, childrenAt⟩
  · simp [noChildren] at child
  · exact (childrenAt _ child).2

/-- The page at the root's depth is no child of another one. -/
theorem isNone_of_onLevel_zero
    (whole : WholeTrail Fetched mode placements profile)
    {placement : Placement}
    (member : placement ∈ onLevel 0 placements) :
    placement.pending.parent.isNone = true := by
  obtain ⟨first, metapage, -, -, alone⟩ := whole.map_pending_onLevel_zero
  have among : placement.pending ∈ (onLevel 0 placements).map Placement.pending :=
    List.mem_map_of_mem member
  rw [alone, List.mem_singleton] at among
  rw [among]
  rfl

/-- The first page of a level has no left link. -/
theorem previous_of_onLevel
    (whole : WholeTrail Fetched mode placements profile)
    {depth : Nat}
    {placement : Placement}
    (among : (onLevel depth placements)[0]? = some placement) :
    placement.visit.trailer.previous = noSibling := by
  obtain ⟨first, -⟩ := whole.offset_of_onLevel among
  have member := (mem_onLevel.mp (List.mem_of_getElem? among)).1
  obtain ⟨-, -, trail⟩ := whole
  exact trail.previous_of_first (.start _) member first

/-- Two pages that follow each other on a level link to each other. -/
theorem linked_of_onLevel
    (whole : WholeTrail Fetched mode placements profile)
    {depth offset : Nat}
    {left right : Placement}
    (before : (onLevel depth placements)[offset]? = some left)
    (among : (onLevel depth placements)[offset + 1]? = some right) :
    left.visit.trailer.next = right.pending.block ∧
      right.visit.trailer.previous = left.pending.block := by
  obtain ⟨-, atLeft⟩ := whole.offset_of_onLevel before
  obtain ⟨place, atRight⟩ := whole.offset_of_onLevel among
  obtain ⟨-, -, trail⟩ := whole
  exact trail.linked_of_next atLeft atRight (by omega)

/-- The last page of a level below the root has no right link. -/
theorem next_of_onLevel
    (whole : WholeTrail Fetched mode placements profile)
    {depth offset : Nat}
    {placement : Placement}
    (among : (onLevel (depth + 1) placements)[offset]? = some placement)
    (last : offset + 1 = profile.pagesOn (depth + 1)) :
    placement.visit.trailer.next = noSibling := by
  obtain ⟨place, atNumber⟩ := whole.offset_of_onLevel among
  have member := List.mem_of_getElem? among
  have atDepth := (mem_onLevel.mp member).2
  by_contra linked
  have follows :=
    (whole.inOrder atNumber).follows (whole.inner_of_onLevel_succ member) linked
  rw [place, atDepth, ← Profile.pagesOn] at follows
  omega

end WholeTrail

/-! ## Blocks -/

section Blocks

variable
  {held : Contents}
  {index : RelationId}
  {mode : WalkMode}
  {placements : List Placement}

/-- The pages that wait and those that are visited from there on lie where links lead
to. -/
theorem Trail.reachable
    {rootLevel : Nat}
    {tally final : LevelTally}
    {queue : List Pending}
    (trail : Trail (Held held index) mode rootLevel tally queue placements final)
    (live :
      ∀ placement ∈ placements,
        liveLinks placement.page = .ok (placement.visit.children.map Pending.block))
    (waiting : ∀ pending ∈ queue, Reachable (held.page index) pending.block) :
    ∀ placement ∈ placements, Reachable (held.page index) placement.pending.block := by
  induction trail with
  | ended => simp
  | @visited tally advanced final pending rest page visit later fetched visits advances continues
      inductionHypothesis =>
      have links := live _ (List.mem_cons_self ..)
      have behind := Reachable.of_visited waiting fetched links
      intro placement member
      rcases List.mem_cons.mp member with rfl | among
      · exact waiting pending (List.mem_cons_self ..)
      · exact inductionHypothesis
          (fun placement member => live placement (List.mem_cons_of_mem _ member)) behind
          placement among

/-- A walk visits exactly the blocks that links lead to. -/
theorem WholeTrail.reachable_iff
    {profile : Profile}
    (whole : WholeTrail (Held held index) mode placements profile)
    (live :
      ∀ placement ∈ placements,
        liveLinks placement.page = .ok (placement.visit.children.map Pending.block))
    (block : BlockNumber) :
    Reachable (held.page index) block ↔
      ∃ placement ∈ placements, placement.pending.block = block := by
  constructor
  · intro reached
    induction reached with
    | @root first metapage found opens =>
        obtain ⟨other, named, placement, fetched, reads, atRoot, pending, -⟩ := whole.root
        obtain rfl := Except.ok.inj (found.symm.trans fetched)
        obtain rfl := Except.ok.inj (opens.symm.trans reads)
        exact ⟨placement, List.mem_of_getElem? atRoot, by rw [pending]; rfl⟩
    | @child parent block page links reached found linked among inductionHypothesis =>
        obtain ⟨placement, member, rfl⟩ := inductionHypothesis
        obtain ⟨fetched, -⟩ := whole.visit_of_mem member
        obtain rfl := Except.ok.inj (found.symm.trans fetched)
        obtain rfl := Except.ok.inj (linked.symm.trans (live placement member))
        obtain ⟨child, childMember, rfl⟩ := List.mem_map.mp among
        obtain ⟨place, atPlace⟩ := List.mem_iff_getElem?.mp childMember
        obtain ⟨follower, visited, pending, -⟩ := whole.child member atPlace
        exact ⟨follower, visited, by rw [pending]⟩
  · rintro ⟨placement, member, rfl⟩
    obtain ⟨fetched, opens, trail⟩ := whole
    exact trail.reachable live (.of_root fetched opens) placement member

end Blocks

end ObliviousStorage.Index

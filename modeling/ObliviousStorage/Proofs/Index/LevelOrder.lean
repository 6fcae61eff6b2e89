import ObliviousStorage.Proofs.Index.Reads

/-!
Contract: the visits of a walk that may be stopped anywhere.

Owns: `Reached`, the visits by which a walk has come to a tally and a queue; `Continues`, a visit
that it makes there; that what was visited on a level and what waits for it are together the
downlinks that were queued from the level above; where a visit follows the one before it; and what
a relocating visit writes into the trailer.

`Trail` and `Course` tell the visits from the first to the last. Here they are told from the last
one backwards, since every beginning of such a list is what a stopped walk has made.

Does not own: reading pages, or handing them over.
-/

namespace ObliviousStorage.Index

/-- The visits of a walk from this root, before it goes on from a tally and a queue. -/
inductive Reached
    (Fetched : BlockNumber → Page → Prop)
    (mode : WalkMode)
    (rootLevel : Nat)
    (root : BlockNumber) :
    List Placement → LevelTally → List Pending → Prop
  | start : Reached Fetched mode rootLevel root [] .start [.ofRoot root]
  | visited
      {earlier : List Placement}
      {tally advanced : LevelTally}
      {pending : Pending}
      {rest : List Pending}
      {page : Page}
      {visit : Visit}
      (reached : Reached Fetched mode rootLevel root earlier tally (pending :: rest))
      (fetched : Fetched pending.block page)
      (visits : tally.visit mode rootLevel pending page = .ok visit)
      (advances : tally.advance pending visit = .ok advanced) :
      Reached Fetched mode rootLevel root (earlier ++ [⟨tally, pending, page, visit⟩]) advanced
        (rest ++ visit.children)

/-- A visit that a walk makes where these visits have brought it. It may be stopped behind it. -/
structure Continues
    (Fetched : BlockNumber → Page → Prop)
    (mode : WalkMode)
    (rootLevel : Nat)
    (root : BlockNumber)
    (earlier : List Placement)
    (placement : Placement) : Prop where
  reached :
    ∃ rest,
      Reached Fetched mode rootLevel root earlier placement.tally (placement.pending :: rest)
  fetched : Fetched placement.pending.block placement.page
  visits :
    placement.tally.visit mode rootLevel placement.pending placement.page = .ok placement.visit

/-- The visits of a walk, as far as it comes: each of them continues those before it. -/
def Made
    (Fetched : BlockNumber → Page → Prop)
    (mode : WalkMode)
    (rootLevel : Nat)
    (root : BlockNumber)
    (visited : List Placement) : Prop :=
  ∀ earlier placement later,
    visited = earlier ++ placement :: later →
      Continues Fetched mode rootLevel root earlier placement

/-- The pages queued for a level, from left to right: the root, and below it the downlinks of the
pages that were visited on the level above. -/
def queuedFor (root : BlockNumber) (visited : List Placement) : (depth : Nat) → List Pending
  | 0 => [.ofRoot root]
  | depth + 1 => (onLevel depth visited).flatMap fun placement => placement.visit.children

/-- The offset and the depth that may come behind these visits: the root's, the next place on the
level of the latest visit while pages queued for that level are left, or the first one below it
when none is left. -/
inductive Follows (root : BlockNumber) (earlier : List Placement) : (offset depth : Nat) → Prop
  | first (none : earlier = []) : Follows root earlier 0 0
  | beside
      {last : Placement}
      (latest : earlier.getLast? = some last)
      (left :
        (onLevel last.pending.depth earlier).length <
          (queuedFor root earlier last.pending.depth).length) :
      Follows root earlier (last.tally.offset + 1) last.pending.depth
  | below
      {last : Placement}
      (latest : earlier.getLast? = some last)
      (complete :
        (onLevel last.pending.depth earlier).length =
          (queuedFor root earlier last.pending.depth).length) :
      Follows root earlier 0 (last.pending.depth + 1)

/-! ## Queues -/

section Queues

variable
  {root : BlockNumber}
  {earlier : List Placement}
  {placement : Placement}

theorem onLevel_concat (depth : Nat) :
    onLevel depth (earlier ++ [placement]) =
      onLevel depth earlier ++ if placement.pending.depth = depth then [placement] else [] := by
  unfold onLevel
  rw [List.filter_append, List.filter_singleton]
  by_cases here : placement.pending.depth = depth
  · rw [if_pos here, decide_eq_true here]
    rfl
  · rw [if_neg here, decide_eq_false here]
    rfl

theorem queuedFor_concat (depth : Nat) :
    queuedFor root (earlier ++ [placement]) depth =
      queuedFor root earlier depth ++
        if placement.pending.depth + 1 = depth then placement.visit.children else [] := by
  cases depth with
  | zero =>
      rw [if_neg (Nat.succ_ne_zero _), List.append_nil]
      rfl
  | succ depth =>
      rw [queuedFor, queuedFor, onLevel_concat, List.flatMap_append]
      by_cases here : placement.pending.depth = depth
      · rw [if_pos here, if_pos (congrArg Nat.succ here), List.flatMap_singleton]
      · rw [if_neg here, if_neg (fun same => here (Nat.succ.inj same)), List.flatMap_nil]

/-- What was queued for a level was visited, and in this order, or it still waits. -/
def Accounted (root : BlockNumber) (visited : List Placement) (queue : List Pending) : Prop :=
  ∀ depth,
    queuedFor root visited depth =
      (onLevel depth visited).map Placement.pending ++
        queue.filter fun pending => pending.depth = depth

theorem accounted_start (root : BlockNumber) : Accounted root [] [.ofRoot root] := by
  intro depth
  cases depth with
  | zero => rfl
  | succ depth => rfl

/-- A visit takes a page from the queue and puts the children of that page behind the others. -/
theorem Accounted.visited
    {mode : WalkMode}
    {rootLevel : Nat}
    {rest : List Pending}
    (accounted : Accounted root earlier (placement.pending :: rest))
    (visits :
      placement.tally.visit mode rootLevel placement.pending placement.page =
        .ok placement.visit) :
    Accounted root (earlier ++ [placement]) (rest ++ placement.visit.children) := by
  intro depth
  rw [queuedFor_concat, onLevel_concat, accounted depth, List.map_append, List.filter_append,
    LevelTally.filter_children visits, List.filter_cons]
  by_cases here : placement.pending.depth = depth
  · simp [here]
  · simp [here]

/-- A page that waits is one that was queued for its level and not visited yet. -/
theorem Accounted.length_lt
    {visited : List Placement}
    {queue : List Pending}
    {pending : Pending}
    (accounted : Accounted root visited queue)
    (waits : pending ∈ queue) :
    (onLevel pending.depth visited).length < (queuedFor root visited pending.depth).length := by
  have among : pending ∈ queue.filter fun waiting => waiting.depth = pending.depth :=
    List.mem_filter.mpr ⟨waits, decide_eq_true rfl⟩
  have some := List.length_pos_of_mem among
  rw [accounted pending.depth, List.length_append, List.length_map]
  omega

/-- A level that nothing waits for was visited in full. -/
theorem Accounted.complete
    {visited : List Placement}
    {queue : List Pending}
    {depth : Nat}
    (accounted : Accounted root visited queue)
    (none : ∀ pending ∈ queue, pending.depth ≠ depth) :
    (onLevel depth visited).map Placement.pending = queuedFor root visited depth := by
  have noneLeft : queue.filter (fun pending => pending.depth = depth) = [] := by
    refine List.filter_eq_nil_iff.mpr ?_
    intro pending member same
    exact none pending member (of_decide_eq_true same)
  rw [accounted depth, noneLeft, List.append_nil]

end Queues

/-! ## Steps -/

section Steps

variable
  {Fetched : BlockNumber → Page → Prop}
  {mode : WalkMode}
  {rootLevel : Nat}
  {root : BlockNumber}
  {tally advanced : LevelTally}
  {pending : Pending}
  {rest queue : List Pending}
  {page : Page}
  {visit : Visit}
  {earlier visited : List Placement}
  {placement : Placement}

/-- The walk goes on to the right while pages of its level wait. -/
theorem Midway.beside
    {second : Pending}
    {others next : List Pending}
    {depth count : Nat}
    (midway : Midway rootLevel tally (pending :: second :: others) next depth count)
    (visits : tally.visit mode rootLevel pending page = .ok visit)
    (advances : tally.advance pending visit = .ok advanced) :
    second.depth = pending.depth ∧ advanced.offset = tally.offset + 1 := by
  constructor
  · rw [(midway.currentAt pending (by simp)).1, (midway.currentAt second (by simp)).1]
  · obtain ⟨onward, counts⟩ := midway.goesOn visits advances
    have before := midway.number
    have behind := onward.number
    rw [counts] at behind
    omega

/-- Behind the last page of a level only pages of the level below wait. -/
theorem Midway.below_last
    {next : List Pending}
    {depth count : Nat}
    (midway : Midway rootLevel tally [pending] next depth count)
    (visits : tally.visit mode rootLevel pending page = .ok visit)
    (advances : tally.advance pending visit = .ok advanced) :
    advanced.offset = 0 ∧
      ∀ waiting ∈ next ++ visit.children, waiting.depth = pending.depth + 1 := by
  have atDepth := (midway.currentAt pending (by simp)).1
  constructor
  · cases LevelTally.advanced_of_advance advances with
    | root => rfl
    | within _ notLast => exact absurd midway.remaining notLast
    | closing => rfl
  · intro child member
    rw [atDepth]
    exact ((midway.found visits).2 child member).1

/-- Behind a visit the walk goes on to the right on the same level, or it begins with a level
below of which nothing was visited. -/
theorem OnLevels.turns
    {count : Nat}
    (on : OnLevels rootLevel tally (pending :: rest) count)
    (visits : tally.visit mode rootLevel pending page = .ok visit)
    (advances : tally.advance pending visit = .ok advanced) :
    (∃ follower others,
        rest = follower :: others ∧ follower.depth = pending.depth ∧
          advanced.offset = tally.offset + 1) ∨
      advanced.offset = 0 ∧
        ∀ waiting ∈ rest ++ visit.children, waiting.depth = pending.depth + 1 := by
  cases on with
  | start root =>
      right
      constructor
      · cases LevelTally.advanced_of_advance advances with
        | root => rfl
        | within inner => exact absurd inner (by simp [Pending.ofRoot])
        | closing => rfl
      · intro child member
        exact LevelTally.visit_children_depth visits member
  | @midway _ current next depth _ _ waiting midway =>
      cases current with
      | nil => exact absurd rfl midway.current_ne
      | cons first others =>
          obtain ⟨rfl, rfl⟩ : pending = first ∧ rest = others ++ next := by simpa using waiting
          cases others with
          | nil =>
              right
              exact midway.below_last visits advances
          | cons second others =>
              left
              obtain ⟨sameDepth, onward⟩ := midway.beside visits advances
              exact ⟨second, others ++ next, rfl, sameDepth, onward⟩

/-- An offset is a word: the level has fewer pages than there are numbers. -/
theorem OnLevels.offset_lt
    {count : Nat}
    (on : OnLevels rootLevel tally (pending :: rest) count) :
    tally.offset < blockNumberBound := by
  cases on with
  | start root => decide
  | midway waiting midway =>
      have remaining := midway.remaining
      have fits := midway.expected_lt
      omega

namespace Reached

theorem onLevels (reached : Reached Fetched mode rootLevel root visited tally queue) :
    OnLevels rootLevel tally queue visited.length := by
  induction reached with
  | start => exact .start root
  | visited reached fetched visits advances inductionHypothesis =>
      rw [List.length_append]
      exact (inductionHypothesis.advance visits advances).1

theorem accounted (reached : Reached Fetched mode rootLevel root visited tally queue) :
    Accounted root visited queue := by
  induction reached with
  | start => exact accounted_start root
  | visited reached fetched visits advances inductionHypothesis =>
      exact inductionHypothesis.visited visits

/-- The page that waits first stands where one may follow. -/
theorem follows
    (reached : Reached Fetched mode rootLevel root visited tally queue)
    (waits : queue = pending :: rest) :
    Follows root visited tally.offset pending.depth := by
  have accounted := reached.accounted
  cases reached with
  | start =>
      obtain ⟨rfl, -⟩ := List.cons.inj waits
      exact .first rfl
  | @visited earlier before _ last behind page visit reached fetched visits advances =>
      have latest :
          (earlier ++ [(⟨before, last, page, visit⟩ : Placement)]).getLast? =
            some ⟨before, last, page, visit⟩ := List.getLast?_concat ..
      rcases reached.onLevels.turns visits advances with
        ⟨follower, others, split, beside, onward⟩ | ⟨opened, below⟩
      · obtain rfl : follower = pending := by
          rw [split, List.cons_append] at waits
          exact (List.cons.inj waits).1
        have left := accounted.length_lt (waits ▸ List.mem_cons_self)
        rw [beside] at left
        rw [onward, beside]
        exact .beside latest left
      · have atDepth : pending.depth = last.depth + 1 := below pending (waits ▸ List.mem_cons_self)
        have complete :
            (onLevel last.depth (earlier ++ [⟨before, last, page, visit⟩])).map Placement.pending =
              queuedFor root (earlier ++ [⟨before, last, page, visit⟩]) last.depth := by
          refine accounted.complete ?_
          intro waiting member same
          have deeper := below waiting member
          omega
        rw [opened, atDepth]
        exact .below latest (by rw [← complete, List.length_map])

/-- Nothing was visited below the level of the page that waits first, and on that level as many
pages as its offset says. -/
theorem row
    (reached : Reached Fetched mode rootLevel root visited tally queue)
    (waits : queue = pending :: rest) :
    (∀ placement ∈ visited, placement.pending.depth ≤ pending.depth) ∧
      (onLevel pending.depth visited).map (fun placement => placement.tally.offset) =
        List.range tally.offset := by
  induction reached generalizing pending rest with
  | start => exact ⟨fun _ member => absurd member List.not_mem_nil, rfl⟩
  | @visited earlier before advanced last behind page visit reached fetched visits advances
      inductionHypothesis =>
      obtain ⟨above, offsets⟩ := inductionHypothesis rfl
      rw [onLevel_concat, List.map_append]
      rcases reached.onLevels.turns visits advances with
        ⟨follower, others, split, beside, onward⟩ | ⟨opened, below⟩
      · obtain rfl : follower = pending := by
          rw [split, List.cons_append] at waits
          exact (List.cons.inj waits).1
        rw [beside, if_pos rfl, offsets, onward, List.range_succ]
        refine ⟨fun placement member => ?_, rfl⟩
        rcases List.mem_append.mp member with early | latest
        · exact above placement early
        · rw [List.mem_singleton.mp latest]
      · have deeper : pending.depth = last.depth + 1 := below pending (waits ▸ List.mem_cons_self)
        have noneThere : onLevel pending.depth earlier = [] := by
          refine List.filter_eq_nil_iff.mpr fun placement member same => ?_
          have least := above placement member
          have there := of_decide_eq_true same
          omega
        have notHere : last.depth ≠ pending.depth := deeper ▸ Nat.ne_of_lt (Nat.lt_succ_self _)
        rw [noneThere, if_neg notHere, opened]
        refine ⟨fun placement member => ?_, rfl⟩
        rcases List.mem_append.mp member with early | latest
        · have least := above placement early
          omega
        · rw [List.mem_singleton.mp latest, deeper]
          exact Nat.le_succ _

end Reached

/-! ## Beginnings -/

/-- An item of a list stands at its end, or it was there before the last one was added. -/
theorem split_concat
    {α : Type}
    {items earlier later : List α}
    {last item : α}
    (split : items ++ [last] = earlier ++ item :: later) :
    (items = earlier ∧ last = item ∧ later = []) ∨
      ∃ between, items = earlier ++ item :: between := by
  rcases List.eq_nil_or_concat later with rfl | ⟨between, final, rfl⟩
  · obtain ⟨same, sameLast⟩ := List.append_inj' split rfl
    exact .inl ⟨same, List.singleton_inj.mp sameLast, rfl⟩
  · have regrouped : items ++ [last] = (earlier ++ item :: between) ++ [final] := by
      rw [split, List.concat_eq_append, List.append_assoc, List.cons_append]
    exact .inr ⟨between, (List.append_inj' regrouped rfl).1⟩

theorem made_nil : Made Fetched mode rootLevel root [] := by
  intro earlier placement later split
  exact absurd split (by simp)

theorem Made.concat
    (made : Made Fetched mode rootLevel root visited)
    (continues : Continues Fetched mode rootLevel root visited placement) :
    Made Fetched mode rootLevel root (visited ++ [placement]) := by
  intro earlier other later split
  rcases split_concat split with ⟨rfl, rfl, -⟩ | ⟨between, before⟩
  · exact continues
  · exact made earlier other between before

/-- Where a walk is stopped, the visits on a level are the first of the pages queued for it. -/
theorem Made.isPrefix
    (made : Made Fetched mode rootLevel root visited)
    (depth : Nat) :
    (onLevel depth visited).map Placement.pending <+: queuedFor root visited depth := by
  have accounted : ∃ queue, Accounted root visited queue := by
    rcases List.eq_nil_or_concat visited with none | ⟨earlier, last, split⟩
    · rw [none]
      exact ⟨_, accounted_start root⟩
    · rw [List.concat_eq_append] at split
      have continues := made earlier last [] split
      obtain ⟨rest, reached⟩ := continues.reached
      rw [split]
      exact ⟨_, reached.accounted.visited continues.visits⟩
  obtain ⟨queue, accounted⟩ := accounted
  exact ⟨_, (accounted depth).symm⟩

theorem Reached.made (reached : Reached Fetched mode rootLevel root visited tally queue) :
    Made Fetched mode rootLevel root visited := by
  induction reached with
  | start => exact made_nil
  | visited reached fetched visits advances inductionHypothesis =>
      exact inductionHypothesis.concat ⟨⟨_, reached⟩, fetched, visits⟩

end Steps

/-! ## Pages -/

/-- How many pages an inner page links to; a leaf links to none. -/
def liveDownlinks (page : Page) : Nat :=
  match Trailer.read page with
  | .ok trailer => if trailer.isLeaf then 0 else (trailer.dataSlots page).length
  | .error _ => 0

section Pages

variable
  {mode : WalkMode}
  {rootLevel : Nat}
  {tally : LevelTally}
  {pending : Pending}
  {page : Page}
  {visit : Visit}

/-- A visit queues a page for each live downlink. -/
theorem LevelTally.visit_liveDownlinks
    (visits : tally.visit mode rootLevel pending page = .ok visit) :
    visit.children.length = liveDownlinks page := by
  obtain ⟨read, -, -, live, -⟩ := LevelTally.visit_eq_ok_iff.mp visits
  rw [liveDownlinks, read]
  rcases LevelTally.visit_shape visits with ⟨isLeaf, noChildren, -⟩ | ⟨inner, sameLength, -⟩
  · simp [isLeaf, noChildren]
  · simp [inner, ← sameLength, live]

/-- The position of the next child counts the downlinks on the level so far. -/
theorem Reached.nextChild_eq
    {Fetched : BlockNumber → Page → Prop}
    {root : BlockNumber}
    {visited : List Placement}
    {rest : List Pending}
    (reached : Reached Fetched mode rootLevel root visited tally (pending :: rest)) :
    tally.nextChild =
      ((onLevel pending.depth visited).map fun placement => liveDownlinks placement.page).sum := by
  have queued :
      (queuedFor root visited (pending.depth + 1)).length =
        ((onLevel pending.depth visited).map fun placement =>
          liveDownlinks placement.page).sum := by
    rw [queuedFor, List.length_flatMap]
    refine congrArg List.sum (List.map_congr_left fun placement member => ?_)
    obtain ⟨early, late, split⟩ := List.append_of_mem (mem_onLevel.mp member).1
    exact LevelTally.visit_liveDownlinks (reached.made early placement late split).visits
  have noneBelow : onLevel (pending.depth + 1) visited = [] := by
    refine List.filter_eq_nil_iff.mpr fun placement member same => ?_
    have above := (reached.row rfl).1 placement member
    have there := of_decide_eq_true same
    omega
  rw [← queued, reached.accounted (pending.depth + 1), noneBelow, List.map_nil, List.nil_append]
  have on := reached.onLevels
  generalize visited.length = count at on
  cases on with
  | start => rfl
  | @midway _ current next depth _ _ waiting midway =>
      have atDepth : pending.depth = depth := by
        obtain ⟨first, others, rfl⟩ := List.exists_cons_of_ne_nil midway.current_ne
        obtain ⟨rfl, -⟩ := List.cons.inj waiting
        exact (midway.currentAt pending (List.mem_cons_self ..)).1
      have noneHere : current.filter (fun waiting => waiting.depth = pending.depth + 1) = [] := by
        refine List.filter_eq_nil_iff.mpr fun waiting member same => ?_
        have here := (midway.currentAt waiting member).1
        have there := of_decide_eq_true same
        omega
      have allBelow : next.filter (fun waiting => waiting.depth = pending.depth + 1) = next := by
        refine List.filter_eq_self.mpr fun waiting member => ?_
        exact decide_eq_true (by rw [(midway.nextAt waiting member).1, atDepth])
      rw [waiting, List.filter_append, noneHere, allBelow, List.nil_append, midway.nextChild]

end Pages

end ObliviousStorage.Index

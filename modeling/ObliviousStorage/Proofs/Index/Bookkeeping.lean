import ObliviousStorage.Proofs.Index.Refusals

/-!
Contract: what the counters of a walk say about the pages that wait, whatever a store holds.

Owns: `ComesTo`, where a walk stands after any number of turns of its loop; `Booked`, the counters
that agree with the queue; `Crossing`, which visits open or close a level; `Shaped`, what the
counters say about the levels behind the walk; that every turn keeps both; and the shape that a walk
returns.

`OnLevels` says where the queued pages lie. It does not tell how many levels were closed or what
became of their counts: that is told here, along the visits of `Reached`.

A turn that would take a counter beyond its word is not one: the walk breaks off there. So the
counters are those of exact sums, as far as a walk comes.

Does not own: which pages a walk visits, or what it hands over.
-/

namespace ObliviousStorage.Index

open StorageM StorageView

variable {σ : Type} [Storage σ]

/-- Where a walk stands between two turns of its loop. -/
structure Standing (σ : Type) where
  tally : LevelTally
  queue : List Pending
  store : σ

/-- One turn: the page that waits first is read, visited and handed over, its children are queued,
and the counters go on. -/
inductive Turn
    (index : RelationId)
    (target : Option (PageTarget σ))
    (rootLevel : Nat) :
    Standing σ → Standing σ → Prop
  | intro
      {tally advanced : LevelTally}
      {pending : Pending}
      {rest : List Pending}
      {page : Page}
      {visit : Visit}
      {before fetched handed : σ}
      (reads : (Storage.read index pending.block).runOn before = (.ok page, fetched))
      (visits : tally.visit (walkMode target) rootLevel pending page = .ok visit)
      (hands :
        (handOver target visit.page tally.offset pending.depth).runOn fetched = (.ok (), handed))
      (advances : tally.advance pending visit = .ok advanced) :
      Turn index target rootLevel ⟨tally, pending :: rest, before⟩
        ⟨advanced, rest ++ visit.children, handed⟩

/-- A walk that was begun on a store stands here after so many turns. The metapage names the level
of the root. -/
inductive ComesTo
    (index : RelationId)
    (target : Option (PageTarget σ))
    (source : σ) :
    (rootLevel turns : Nat) → Standing σ → Prop
  | opened
      {first : Page}
      {metapage : Metapage}
      {left : σ}
      (reads : (Storage.read index metapageBlock).runOn source = (.ok first, left))
      (opens : Metapage.read first = .ok metapage) :
      ComesTo index target source metapage.level.toNat 0 ⟨.start, [.ofRoot metapage.root], left⟩
  | turned
      {rootLevel turns : Nat}
      {standing next : Standing σ}
      (comes : ComesTo index target source rootLevel turns standing)
      (turn : Turn index target rootLevel standing next) :
      ComesTo index target source rootLevel (turns + 1) next

/-- The page is below the root, and no other page of its level waits behind it. -/
def LastOfLevel (pending : Pending) (rest : List Pending) : Prop :=
  pending.parent.isNone = false ∧ ∀ waiting ∈ rest, waiting.depth ≠ pending.depth

/-! ## Runs -/

section Runs

variable
  {index : RelationId}
  {target : Option (PageTarget σ)}
  {source : σ}
  {rootLevel turns : Nat}
  {standing next : Standing σ}

/-- From where a turn begins, the walk does what it does from where the turn ends. -/
theorem Turn.run (turn : Turn index target rootLevel standing next) :
    (walkFrom index target rootLevel standing.tally standing.queue).runOn standing.store =
      (walkFrom index target rootLevel next.tally next.queue).runOn next.store := by
  cases turn with
  | intro reads visits hands advances =>
      simp only [walkFrom_cons, runOn_bind, reads, visits, hands, advances, runOn_lift]

theorem ComesTo.run (comes : ComesTo index target source rootLevel turns standing) :
    (walk index target).runOn source =
      (walkFrom index target rootLevel standing.tally standing.queue).runOn standing.store := by
  induction comes with
  | opened reads opens =>
      unfold walk
      simp only [runOn_bind, reads, opens, runOn_lift]
  | turned comes turn inductionHypothesis => rw [inductionHypothesis, turn.run]

/-- While pages wait, a walk is refused, breaks off or makes another turn. -/
theorem refused_or_turns
    (index : RelationId)
    (target : Option (PageTarget σ))
    (rootLevel : Nat)
    (tally : LevelTally)
    (pending : Pending)
    (rest : List Pending)
    (store : σ) :
    (∃ fault left,
        (walkFrom index target rootLevel tally (pending :: rest)).runOn store =
          (.error fault, left)) ∨
      ∃ next, Turn index target rootLevel ⟨tally, pending :: rest, store⟩ next := by
  rw [walkFrom_cons, runOn_bind]
  rcases reads : (Storage.read index pending.block).runOn store with ⟨fault | page, fetched⟩
  · exact .inl ⟨fault, fetched, rfl⟩
  simp only [runOn_bind, runOn_lift]
  cases visits : tally.visit (walkMode target) rootLevel pending page with
  | error fault => exact .inl ⟨fault, fetched, rfl⟩
  | ok visit =>
      rcases hands : (handOver target visit.page tally.offset pending.depth).runOn fetched with
        ⟨fault | _, handed⟩
      · exact .inl ⟨fault, handed, by simp only [hands]⟩
      cases advances : tally.advance pending visit with
      | error fault => exact .inl ⟨fault, handed, by simp only [hands, advances]⟩
      | ok advanced => exact .inr ⟨_, .intro reads visits hands advances⟩

/-- A walk that succeeds from where it stands comes to a standing at which no page waits, and
returns the shape that its counters tell there. -/
theorem ComesTo.ends
    {tally : LevelTally}
    {queue : List Pending}
    {store left : σ}
    {profile : Profile}
    (comes : ComesTo index target source rootLevel turns ⟨tally, queue, store⟩)
    (succeeds :
      (walkFrom index target rootLevel tally queue).runOn store = (.ok profile, left)) :
    ∃ more final,
      ComesTo index target source rootLevel more ⟨final, [], left⟩ ∧ profile = final.profile := by
  induction tally, queue using walkFrom.induct target rootLevel generalizing turns store with
  | case1 tally =>
      rw [walkFrom, runOn_pure] at succeeds
      obtain ⟨same, rfl⟩ := Prod.mk.inj succeeds
      exact ⟨turns, tally, comes, (Except.ok.inj same).symm⟩
  | case2 tally pending rest inductionHypothesis =>
      rcases refused_or_turns index target rootLevel tally pending rest store with
        ⟨fault, refusedAt, refused⟩ | ⟨next, turn⟩
      · exact absurd (refused.symm.trans succeeds) (by simp)
      · have onward := turn.run
        cases turn with
        | intro reads visits hands advances =>
            exact
              inductionHypothesis _ _ visits _
                (comes.turned (.intro reads visits hands advances)) (onward.symm.trans succeeds)

/-- The visits of the turns are visits in level order, whatever the store holds. -/
theorem ComesTo.reached (comes : ComesTo index target source rootLevel turns standing) :
    ∃ root visited,
      Reached (fun _ _ => True) (walkMode target) rootLevel root visited standing.tally
          standing.queue ∧
        visited.length = turns := by
  induction comes with
  | opened reads opens => exact ⟨_, [], .start, rfl⟩
  | turned comes turn inductionHypothesis =>
      obtain ⟨root, visited, reached, counts⟩ := inductionHypothesis
      cases turn with
      | intro reads visits hands advances =>
          refine ⟨root, _, .visited reached trivial visits advances, ?_⟩
          rw [List.length_append, counts]
          rfl

end Runs

/-! ## Levels behind the walk -/

/-- How a visit stands to the levels of a walk: it is the one of the root, or other pages of the
level wait behind it, or it is the last one of the level. -/
inductive Crossing (rootLevel visited : Nat) (visit : Visit) :
    LevelTally → Pending → List Pending → LevelTally → Prop
  | behindRoot (root : BlockNumber) :
      Crossing rootLevel visited visit .start (.ofRoot root) [] (LevelTally.start.behindRoot visit)
  | beside
      {tally : LevelTally}
      {pending second : Pending}
      {others next : List Pending}
      {depth : Nat}
      (midway : Midway rootLevel tally (pending :: second :: others) next depth visited) :
      Crossing rootLevel visited visit tally pending (second :: others ++ next)
        (tally.beside pending visit)
  | behindLevel
      {tally : LevelTally}
      {pending : Pending}
      {next : List Pending}
      {depth : Nat}
      (midway : Midway rootLevel tally [pending] next depth visited) :
      Crossing rootLevel visited visit tally pending next (tally.behindLevel visit)

/-- What the counters say about the levels behind the walk, and about the page visited last. -/
structure Shaped (tally : LevelTally) (queue : List Pending) : Prop where
  first : tally.previous = none ↔ tally.offset = 0
  positive : ∀ fanout ∈ tally.fanouts, 0 < fanout
  /-- The pages that wait are those of one level that is known, and not closed. -/
  unclosed : queue ≠ [] → tally.closed = tally.fanouts.length - 1
  ended : queue = [] → tally.closed = tally.fanouts.length

theorem shaped_start (root : BlockNumber) : Shaped .start [.ofRoot root] where
  first := ⟨fun _ => rfl, fun _ => rfl⟩
  positive := by
    intro fanout member
    exact absurd member List.not_mem_nil
  unclosed _ := rfl
  ended none := absurd none (List.cons_ne_nil _ _)

section Levels

variable
  {rootLevel visited : Nat}
  {mode : WalkMode}
  {tally advanced : LevelTally}
  {pending : Pending}
  {rest queue : List Pending}
  {page : Page}
  {visit : Visit}

/-- The counters when a level was just opened: it is known if pages of it wait. -/
theorem shaped_of_opened
    {opened : LevelTally}
    {children : List Pending}
    {known : List Nat}
    (positive : ∀ fanout ∈ known, 0 < fanout)
    (levels :
      opened.fanouts = if 0 < children.length then known ++ [children.length] else known)
    (closed : opened.closed = known.length)
    (offset : opened.offset = 0)
    (first : opened.previous = none) :
    Shaped opened children where
  first := ⟨fun _ => offset, fun _ => first⟩
  positive := by
    intro fanout member
    rw [levels] at member
    split at member
    · next some =>
        rcases List.mem_append.mp member with before | last
        · exact positive fanout before
        · rwa [List.mem_singleton.mp last]
    · exact positive fanout member
  unclosed := by
    intro some
    rw [levels, if_pos (List.length_pos_iff.mpr some), closed, List.length_append]
    rfl
  ended := by
    intro none
    rw [levels, closed, none]
    rfl

theorem OnLevels.crosses
    (on : OnLevels rootLevel tally (pending :: rest) visited)
    (advances : tally.advance pending visit = .ok advanced) :
    Crossing rootLevel visited visit tally pending rest advanced := by
  cases on with
  | start root =>
      cases LevelTally.advanced_of_advance advances with
      | root => exact .behindRoot root
      | within inner => exact absurd inner (by simp [Pending.ofRoot])
      | closing inner => exact absurd inner (by simp [Pending.ofRoot])
  | @midway _ current next depth _ _ waiting midway =>
      cases current with
      | nil => exact absurd rfl midway.current_ne
      | cons first others =>
          obtain ⟨rfl, rfl⟩ : pending = first ∧ rest = others ++ next := by simpa using waiting
          have inner := (midway.currentAt pending (by simp)).2
          have remaining := midway.remaining
          rw [List.length_cons] at remaining
          cases LevelTally.advanced_of_advance advances with
          | root isRoot => exact absurd (inner.symm.trans isRoot) (by simp)
          | within _ notLast =>
              cases others with
              | nil => exact absurd remaining notLast
              | cons second others => exact .beside midway
          | closing _ last =>
              obtain rfl : others = [] := List.eq_nil_of_length_eq_zero (by omega)
              exact .behindLevel midway

theorem Shaped.advance
    (shaped : Shaped tally (pending :: rest))
    (crosses : Crossing rootLevel visited visit tally pending rest advanced)
    (visits : tally.visit mode rootLevel pending page = .ok visit) :
    Shaped advanced (rest ++ visit.children) := by
  have closed := shaped.unclosed (List.cons_ne_nil _ _)
  cases crosses with
  | behindRoot root =>
      exact shaped_of_opened shaped.positive (LevelTally.fanouts_behindRoot visits) rfl rfl rfl
  | beside midway =>
      exact
        { first :=
            ⟨fun none => absurd none (Option.some_ne_none _),
              fun zero => absurd zero (Nat.succ_ne_zero _)⟩
          positive := shaped.positive
          unclosed := fun _ => closed
          ended := fun none => absurd none (List.cons_ne_nil _ _) }
  | behindLevel midway =>
      have known := midway.levels
      have positive := midway.depth_pos
      have counted : tally.closed + 1 = tally.fanouts.length := by omega
      exact shaped_of_opened shaped.positive (midway.fanouts_behindLevel visits) counted rfl rfl

/-- A level is closed with its last page, and with no other. -/
theorem Crossing.closes (crosses : Crossing rootLevel visited visit tally pending rest advanced) :
    advanced.closed = tally.closed + 1 ∧ LastOfLevel pending rest ∨
      advanced.closed = tally.closed ∧ ¬LastOfLevel pending rest := by
  cases crosses with
  | behindRoot root => exact .inr ⟨rfl, fun last => Bool.noConfusion last.1⟩
  | @beside _ _ second _ _ _ midway =>
      have atDepth := (midway.currentAt pending (by simp)).1
      have sameDepth := (midway.currentAt second (by simp)).1
      exact .inr ⟨rfl, fun last => last.2 second (by simp) (sameDepth.trans atDepth.symm)⟩
  | behindLevel midway =>
      obtain ⟨atDepth, inner⟩ := midway.currentAt pending (by simp)
      refine .inl ⟨rfl, inner, fun waiting member => ?_⟩
      rw [(midway.nextAt waiting member).1, atDepth]
      exact Nat.succ_ne_self _

end Levels

/-! ## Whole walks -/

section Walks

variable
  {index : RelationId}
  {target : Option (PageTarget σ)}
  {source : σ}
  {rootLevel turns : Nat}
  {standing : Standing σ}

theorem ComesTo.shaped (comes : ComesTo index target source rootLevel turns standing) :
    Shaped standing.tally standing.queue := by
  induction comes with
  | opened reads opens => exact shaped_start _
  | turned comes turn inductionHypothesis =>
      obtain ⟨root, visited, reached, -⟩ := comes.reached
      cases turn with
      | intro reads visits hands advances =>
          exact inductionHypothesis.advance (reached.onLevels.crosses advances) visits

end Walks

end ObliviousStorage.Index

import ObliviousStorage.Proofs.Index.Levels

/-!
Contract: what a walk does on a store that refuses nothing, whatever its pages hold.

Owns: `Course`, the blocks that a walk fetches, the visits that it makes and how it ends,
also where it is refused; that a walk over a store follows the one course that the pages
settle; and that a walk which comes to an end has followed a trail.

Does not own: stores that fail, targets that refuse a page, or the faults of a refused
walk.
-/

namespace ObliviousStorage.Index

open StorageM StorageView

/-- The fetched blocks, the visits and the end of a walk with this tally and queue. A
visited page is handed over before the walk goes on, so that a walk may be refused after
its last visit. -/
inductive Course
    (fetch : BlockNumber → Except Fault Page)
    (mode : WalkMode)
    (rootLevel : Nat) :
    LevelTally → List Pending → List BlockNumber → List Placement → Except Fault LevelTally → Prop
  | ended (tally : LevelTally) : Course fetch mode rootLevel tally [] [] [] (.ok tally)
  | unread
      {tally : LevelTally}
      {pending : Pending}
      {rest : List Pending}
      {fault : Fault}
      (missing : fetch pending.block = .error fault) :
      Course fetch mode rootLevel tally (pending :: rest) [pending.block] [] (.error fault)
  | rejected
      {tally : LevelTally}
      {pending : Pending}
      {rest : List Pending}
      {page : Page}
      {fault : Fault}
      (found : fetch pending.block = .ok page)
      (rejects : tally.visit mode rootLevel pending page = .error fault) :
      Course fetch mode rootLevel tally (pending :: rest) [pending.block] [] (.error fault)
  | unclosed
      {tally : LevelTally}
      {pending : Pending}
      {rest : List Pending}
      {page : Page}
      {visit : Visit}
      {fault : Fault}
      (found : fetch pending.block = .ok page)
      (visits : tally.visit mode rootLevel pending page = .ok visit)
      (stops : tally.advance pending visit = .error fault) :
      Course fetch mode rootLevel tally (pending :: rest) [pending.block]
        [⟨tally, pending, page, visit⟩] (.error fault)
  | visited
      {tally advanced : LevelTally}
      {pending : Pending}
      {rest : List Pending}
      {page : Page}
      {visit : Visit}
      {blocks : List BlockNumber}
      {later : List Placement}
      {outcome : Except Fault LevelTally}
      (found : fetch pending.block = .ok page)
      (visits : tally.visit mode rootLevel pending page = .ok visit)
      (advances : tally.advance pending visit = .ok advanced)
      (continues :
        Course fetch mode rootLevel advanced (rest ++ visit.children) blocks later outcome) :
      Course fetch mode rootLevel tally (pending :: rest) (pending.block :: blocks)
        (⟨tally, pending, page, visit⟩ :: later) outcome

/-- The course of a walk over a whole index, and the shape or the fault that it returns. -/
inductive WholeCourse (fetch : BlockNumber → Except Fault Page) (mode : WalkMode) :
    List BlockNumber → List Placement → Except Fault Profile → Prop
  | unread
      {fault : Fault}
      (missing : fetch metapageBlock = .error fault) :
      WholeCourse fetch mode [metapageBlock] [] (.error fault)
  | rejected
      {first : Page}
      {fault : Fault}
      (found : fetch metapageBlock = .ok first)
      (rejects : Metapage.read first = .error fault) :
      WholeCourse fetch mode [metapageBlock] [] (.error fault)
  | walked
      {first : Page}
      {metapage : Metapage}
      {blocks : List BlockNumber}
      {placements : List Placement}
      {outcome : Except Fault LevelTally}
      (found : fetch metapageBlock = .ok first)
      (opens : Metapage.read first = .ok metapage)
      (course :
        Course fetch mode metapage.level.toNat .start [.ofRoot metapage.root] blocks placements
          outcome) :
      WholeCourse fetch mode (metapageBlock :: blocks) placements
        (outcome.map LevelTally.profile)

/-! ## What settles a course -/

section Settled

variable
  {fetch : BlockNumber → Except Fault Page}
  {mode : WalkMode}
  {rootLevel : Nat}
  {tally : LevelTally}
  {queue : List Pending}
  {blocks otherBlocks : List BlockNumber}
  {placements others : List Placement}
  {outcome other : Except Fault LevelTally}

/-- The course of a walk is settled by the pages. -/
theorem Course.unique
    (course : Course fetch mode rootLevel tally queue blocks placements outcome)
    (another : Course fetch mode rootLevel tally queue otherBlocks others other) :
    blocks = otherBlocks ∧ placements = others ∧ outcome = other := by
  induction course generalizing otherBlocks others other with
  | ended =>
      cases another with
      | ended => exact ⟨rfl, rfl, rfl⟩
  | unread missing =>
      cases another <;> simp_all
  | rejected found rejects =>
      cases another <;> simp_all
  | unclosed found visits stops =>
      cases another <;> simp_all
  | visited found visits advances continues inductionHypothesis =>
      cases another with
      | unread missing => simp_all
      | rejected found' rejects => simp_all
      | unclosed found' visits' stops => simp_all
      | visited found' visits' advances' continues' =>
          obtain rfl := Except.ok.inj (found.symm.trans found')
          obtain rfl := Except.ok.inj (visits.symm.trans visits')
          obtain rfl := Except.ok.inj (advances.symm.trans advances')
          obtain ⟨rfl, rfl, rfl⟩ := inductionHypothesis continues'
          exact ⟨rfl, rfl, rfl⟩

/-- A walk that comes to an end has followed a trail. -/
theorem Course.trail
    {final : LevelTally}
    (course : Course fetch mode rootLevel tally queue blocks placements outcome)
    (ends : outcome = .ok final) :
    Trail (fun block page => fetch block = .ok page) mode rootLevel tally queue placements
      final := by
  induction course with
  | ended tally =>
      obtain rfl := Except.ok.inj ends
      exact .ended tally
  | unread => exact absurd ends (by simp)
  | rejected => exact absurd ends (by simp)
  | unclosed => exact absurd ends (by simp)
  | visited found visits advances continues inductionHypothesis =>
      exact .visited found visits advances (inductionHypothesis ends)

end Settled

section Whole

variable
  {fetch : BlockNumber → Except Fault Page}
  {mode : WalkMode}
  {blocks otherBlocks : List BlockNumber}
  {placements others : List Placement}
  {outcome other : Except Fault Profile}

theorem WholeCourse.unique
    (course : WholeCourse fetch mode blocks placements outcome)
    (another : WholeCourse fetch mode otherBlocks others other) :
    blocks = otherBlocks ∧ placements = others ∧ outcome = other := by
  cases course with
  | unread missing => cases another <;> simp_all
  | rejected found rejects => cases another <;> simp_all
  | walked found opens course =>
      cases another with
      | unread missing => simp_all
      | rejected found' rejects => simp_all
      | walked found' opens' course' =>
          obtain rfl := Except.ok.inj (found.symm.trans found')
          obtain rfl := Except.ok.inj (opens.symm.trans opens')
          obtain ⟨rfl, rfl, rfl⟩ := course.unique course'
          exact ⟨rfl, rfl, rfl⟩

theorem WholeCourse.trail
    {profile : Profile}
    (course : WholeCourse fetch mode blocks placements (.ok profile)) :
    WholeTrail (fun block page => fetch block = .ok page) mode placements profile := by
  generalize ends : (Except.ok profile : Except Fault Profile) = outcome at course
  cases course with
  | unread => exact absurd ends (by simp)
  | rejected => exact absurd ends (by simp)
  | @walked _ _ _ _ outcome found opens course =>
      cases outcome with
      | error fault => exact absurd ends (by simp [Except.map])
      | ok final =>
          obtain rfl : profile = final.profile := Except.ok.inj ends
          exact .intro found opens (course.trail rfl)

end Whole

/-! ## Runs -/

/-- What the calls of a walk lead to: reading fetches the pages, every page that is handed
over is taken, and `At` tells what was fetched and handed over when a state was
reached. -/
structure Attended
    {σ : Type}
    [Storage σ]
    (index : RelationId)
    (target : Option (PageTarget σ))
    (fetch : BlockNumber → Except Fault Page)
    (At : List BlockNumber → List Placement → σ → Prop) : Prop where
  reads :
    ∀ blocks heads state block, At blocks heads state →
      (Storage.read index block : StorageM σ Page).Yields state fun outcome left =>
        outcome = fetch block ∧ At (blocks ++ [block]) heads left
  hands :
    ∀ blocks heads state placement, At blocks heads state →
      (handOver target placement.visit.page placement.tally.offset
          placement.pending.depth).Yields state fun outcome left =>
        outcome = .ok () ∧ At blocks (heads ++ [placement]) left

section Runs

variable
  {σ : Type}
  [Storage σ]
  {index : RelationId}
  {target : Option (PageTarget σ)}
  {fetch : BlockNumber → Except Fault Page}
  {At : List BlockNumber → List Placement → σ → Prop}

theorem walkFrom_course
    {rootLevel : Nat}
    (attended : Attended index target fetch At)
    (tally : LevelTally)
    (queue : List Pending)
    (before : List BlockNumber)
    (heads : List Placement)
    (state : σ)
    (here : At before heads state) :
    (walkFrom index target rootLevel tally queue).Yields state fun outcome left =>
      ∃ blocks placements ended,
        Course fetch (walkMode target) rootLevel tally queue blocks placements ended ∧
          outcome = ended.map LevelTally.profile ∧
            At (before ++ blocks) (heads ++ placements) left := by
  induction tally, queue using walkFrom.induct target rootLevel
    generalizing before heads state with
  | case1 tally =>
      rw [walkFrom]
      exact yields_pure ⟨[], [], .ok tally, .ended tally, rfl, by simpa using here⟩
  | case2 tally pending rest inductionHypothesis =>
      rw [walkFrom]
      apply yields_bind (attended.reads before heads state pending.block here)
      · intro page afterRead holds
        rcases holds with ⟨found, here⟩
        split
        · next fault rejects =>
            exact yields_throw
              ⟨_, [], .error fault, .rejected found.symm rejects, rfl, by simpa using here⟩
        · next visit visits =>
            apply yields_bind
              (attended.hands _ heads afterRead ⟨tally, pending, page, visit⟩ here)
            · intro _ afterHand holds
              rcases holds with ⟨-, here⟩
              apply yields_lift_bind
              · intro advanced advances
                apply (inductionHypothesis page visit visits advanced _ _ _ here).weaken
                intro outcome left holds
                rcases holds with ⟨blocks, placements, ended, course, result, here⟩
                refine ⟨_, _, ended, .visited found.symm visits advances course, result, ?_⟩
                simpa using here
              · intro fault stops
                exact ⟨_, _, .error fault, .unclosed found.symm visits stops, rfl, here⟩
            · intro fault left holds
              exact absurd holds.1 (by simp)
      · intro fault left holds
        rcases holds with ⟨missing, here⟩
        exact ⟨_, [], .error fault, .unread missing.symm, rfl, by simpa using here⟩

/-- A walk over a whole index follows the course that the pages settle. -/
theorem walk_course
    (attended : Attended index target fetch At)
    (state : σ)
    (here : At [] [] state) :
    (walk index target).Yields state fun outcome left =>
      ∃ blocks placements,
        WholeCourse fetch (walkMode target) blocks placements outcome ∧
          At blocks placements left := by
  unfold walk
  apply yields_bind (attended.reads [] [] state metapageBlock here)
  · intro first afterRead holds
    rcases holds with ⟨found, here⟩
    apply yields_lift_bind
    · intro metapage opens
      apply (walkFrom_course attended _ _ _ _ _ here).weaken
      intro outcome left holds
      rcases holds with ⟨blocks, placements, ended, course, rfl, here⟩
      exact ⟨_, placements, .walked found.symm opens course, here⟩
    · intro fault rejects
      exact ⟨_, [], .rejected found.symm rejects, here⟩
  · intro fault left holds
    rcases holds with ⟨missing, here⟩
    exact ⟨_, [], .unread missing.symm, here⟩

end Runs

/-! ## Measuring -/

section Measuring

variable {σ : Type} [Storage σ] [LawfulStorage σ] {index : RelationId}

/-- A store that refuses only what makes no sense reads what it holds. -/
theorem read_of_sound
    {held : Contents}
    {state : σ}
    (sound : Sound state)
    (same : contents state index = held index)
    (block : BlockNumber) :
    (Storage.read index block : StorageM σ Page).Yields state fun outcome left =>
      outcome = held.page index block ∧ Sound left ∧ contents left = contents state := by
  apply (LawfulStorage.read_law state index block).weaken
  intro outcome left reads
  rw [← Contents.page_congr same block]
  cases outcome with
  | error fault => exact ⟨(reads.1 sound).symm, reads.2.keepsSound sound, reads.2.holds⟩
  | ok page => exact ⟨reads.1.symm, reads.2.keepsSound sound, reads.2.holds⟩

theorem attended_measure (index : RelationId) (source : σ) :
    Attended index none ((contents source).page index)
      fun _ _ (state : σ) => Sound state ∧ contents state = contents source where
  reads blocks heads state block here := by
    apply (read_of_sound here.1 (congrFun here.2 index) block).weaken
    intro outcome left holds
    rcases holds with ⟨result, sound, same⟩
    exact ⟨result, sound, same.trans here.2⟩
  hands blocks heads state placement here := yields_pure ⟨rfl, here⟩

/-- Measuring an index of a store that refuses only what makes no sense. -/
theorem measure_course
    {source : σ}
    (sound : Sound source) :
    ∃ blocks placements,
      WholeCourse ((contents source).page index) .measure blocks placements
        ((measure index).runOn source).1 := by
  obtain ⟨blocks, placements, course, -⟩ :=
    walk_course (attended_measure index source) source ⟨sound, rfl⟩
  exact ⟨blocks, placements, course⟩

end Measuring

end ObliviousStorage.Index

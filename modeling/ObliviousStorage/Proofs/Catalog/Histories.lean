import ObliviousStorage.Proofs.Catalog.Mapping
import ObliviousStorage.Proofs.Storage.Failures
import ObliviousStorage.Proofs.Storage.Lawful

/-!
Contract: runs on a store that follows a plan of failures, with calls of a catalog and work
on other relations in any order.

Owns: `history`, what happens in such a run; and that along every history from the creation
of the catalog each call is answered as a finite map answers it, or is refused and leaves
the map as it was, which on a sound store underneath happens only if a call on it was made
to fail or the catalog has all the blocks that there are numbers for.

Does not own: what a map answers.
-/

namespace ObliviousStorage.Catalog

open Faulty StorageM StorageView

/-! ## Failures -/

section Failing

variable
  {σ : Type}
  [Storage σ]
  (catalog : Catalog)

theorem locateIn_failsOrPasses
    (table : RelationId)
    (blocks : List BlockNumber) :
    FailsOrPasses σ (catalog.locateIn table blocks) (catalog.locateIn table blocks) := by
  induction blocks with
  | nil => exact .ofPure none
  | cons block rest inductionHypothesis =>
      refine .bind (.ofGuarded _ _) fun page => .bind (.ofLift _) fun located => ?_
      cases located with
      | none => exact inductionHypothesis
      | some located => exact .ofPure _

theorem locate_failsOrPasses (table : RelationId) :
    FailsOrPasses σ (catalog.locate table) (catalog.locate table) :=
  .bind (.ofBypass _) fun _ => catalog.locateIn_failsOrPasses table _

theorem find_failsOrPasses (table : RelationId) :
    FailsOrPasses σ (catalog.find table) (catalog.find table) := by
  refine .bind (catalog.locate_failsOrPasses table) fun located => ?_
  cases located with
  | none => exact .ofThrow _
  | some located => exact .ofPure located

theorem insertInNewBlock_failsOrPasses (row : Row) :
    FailsOrPasses σ (catalog.insertInNewBlock row) (catalog.insertInNewBlock row) :=
  .bind (.ofGuarded _ _) fun _ => .bind (.ofLift _) fun _ => .ofGuarded _ _

theorem append_failsOrPasses (row : Row) :
    FailsOrPasses σ (catalog.append row) (catalog.append row) := by
  refine .bind (.ofBypass _) fun count => ?_
  split
  · exact catalog.insertInNewBlock_failsOrPasses row
  · refine .bind (.ofGuarded _ _) fun page => ?_
    split
    · exact .bind (.ofLift _) fun _ => .ofGuarded _ _
    · exact catalog.insertInNewBlock_failsOrPasses row

theorem update_failsOrPasses
    (table : RelationId)
    (change : Row → Row) :
    FailsOrPasses σ (catalog.update table change) (catalog.update table change) :=
  .bind (catalog.find_failsOrPasses table) fun _ =>
    .bind (.ofGuarded _ _) fun _ => .bind (.ofLift _) fun _ => .ofGuarded _ _

/-- No call of a catalog swallows a failure of the store. -/
theorem call_failsOrPasses (call : Call) :
    FailsOrPasses σ (call.action catalog) (call.action catalog) := by
  cases call with
  | insert row =>
      have inserts :
          FailsOrPasses σ (catalog.insert row) (catalog.insert row) :=
        .bind (.ofLift _) fun _ =>
          .bind (catalog.locate_failsOrPasses row.table) fun _ =>
            .bind (.ofLift _) fun _ => catalog.append_failsOrPasses row
      exact .bind inserts fun _ => .ofPure _
  | noteFilled table => exact .bind (catalog.update_failsOrPasses table _) fun _ => .ofPure _
  | noteFiles table tableFile indexFile =>
      exact .bind (catalog.update_failsOrPasses table _) fun _ => .ofPure _
  | get table =>
      have gets : FailsOrPasses σ (catalog.get table) (catalog.get table) :=
        .bind (catalog.find_failsOrPasses table) fun _ => .ofPure _
      exact .bind gets fun _ => .ofPure _

end Failing

/-! ## Work on other relations -/

/-- A call of the store that does not change the relation of a catalog. -/
inductive Work (catalog : Catalog) where
  | create
  | count (relation : RelationId)
  | read (relation : RelationId) (block : BlockNumber)
  | write
      (relation : RelationId)
      (block : BlockNumber)
      (page : Page)
      (elsewhere : relation ≠ catalog.relation)
  | extend
      (relation : RelationId)
      (elsewhere : relation ≠ catalog.relation)

def Work.action
    {σ : Type}
    [Storage σ]
    {catalog : Catalog} :
    Work catalog → StorageM σ Unit
  | .create => do
      let _ ← Storage.create
  | .count relation => do
      let _ ← Storage.blockCount relation
  | .read relation block => do
      let _ ← Storage.read relation block
  | .write relation block page _ => Storage.write relation block page
  | .extend relation _ => do
      let _ ← Storage.extend relation

/-- Work on other relations leaves the rows of the catalog where they are. -/
theorem work_keeps
    {σ : Type}
    [Storage σ]
    [LawfulStorage σ]
    {catalog : Catalog}
    {state : σ}
    {map : RowMap}
    (maps : catalog.Maps (contents state) map)
    (work : Work catalog) :
    work.action.Yields state fun _ left =>
      Follows state left ∧ catalog.Maps (contents left) map := by
  have unchanged :
      ∀ {left : σ}, Became state left (contents state) 0 →
        Follows state left ∧ catalog.Maps (contents left) map :=
    fun became => ⟨became.follows, maps.of_same (congrFun became.holds _)⟩
  have elsewhere :
      ∀ {left : σ} {relation : RelationId} {placed : Relation} {spent : Nat},
        Became state left ((contents state).put relation placed) spent →
          catalog.relation ≠ relation →
            Follows state left ∧ catalog.Maps (contents left) map := by
    intro left relation placed spent became apart
    refine ⟨became.follows, maps.of_same ?_⟩
    rw [became.holds, Contents.put_other _ _ apart]
  cases work with
  | create =>
      apply yields_bind (LawfulStorage.create_law state)
      · intro relation left holds
        rcases holds with ⟨fresh, became⟩
        refine yields_pure (elsewhere became fun same => ?_)
        obtain ⟨found, _, present, -⟩ := maps
        rw [same, fresh] at present
        exact absurd present (by simp)
      · exact fun fault left refused => unchanged refused.2
  | count relation =>
      apply yields_bind (LawfulStorage.count_law state relation)
      · exact fun number left holds => yields_pure (unchanged holds.2)
      · exact fun fault left refused => unchanged refused.2
  | read relation block =>
      apply yields_bind (LawfulStorage.read_law state relation block)
      · exact fun page left holds => yields_pure (unchanged holds.2)
      · exact fun fault left refused => unchanged refused.2
  | write relation block page apart =>
      apply (LawfulStorage.write_law state relation block page).weaken
      intro outcome left holds
      cases outcome with
      | ok done =>
          obtain ⟨found, -, -, became⟩ := holds
          exact elsewhere became apart.symm
      | error fault => exact unchanged holds.2
  | extend relation apart =>
      apply yields_bind (LawfulStorage.extend_law state relation)
      · intro block left holds
        rcases holds with ⟨found, -, -, became⟩
        exact yields_pure (elsewhere became apart.symm)
      · exact fun fault left refused => unchanged refused.2

/-! ## Runs -/

inductive Step (catalog : Catalog) where
  | call (request : Call)
  | elsewhere (work : Work catalog)

def Step.action
    {σ : Type}
    [Storage σ]
    {catalog : Catalog} :
    Step catalog → StorageM σ (Option Row)
  | .call request => request.action catalog
  | .elsewhere work => do
      work.action
      return none

/-- A step that was taken, what came of it, and the store before and after it. -/
structure Event (σ : Type) (catalog : Catalog) where
  step : Step catalog
  before : Faulty σ
  outcome : Except Fault (Option Row)
  after : Faulty σ

def Step.event
    {σ : Type}
    [Storage σ]
    {catalog : Catalog}
    (step : Step catalog)
    (store : Faulty σ) : Event σ catalog :=
  let (outcome, left) := step.action.runOn store
  ⟨step, store, outcome, left⟩

/-- What happens when steps are taken one after the other, also after refused ones. -/
def history
    {σ : Type}
    [Storage σ]
    {catalog : Catalog} :
    List (Step catalog) → Faulty σ → List (Event σ catalog)
  | [], _ => []
  | step :: rest, store => step.event store :: history rest (step.event store).after

section Agreeing

variable
  {σ : Type}
  [Storage σ]
  [LawfulStorage σ]
  {catalog : Catalog}

/-- Why a call was refused that a map would have answered: a call of the store was made to
fail, or there is no room for the blocks that the call may add. -/
def Event.Excused (event : Event σ catalog) (request : Call) : Prop :=
  event.before.failed < event.after.failed ∨
    catalog.FullFor (contents event.before.inner) request.growth

/-- An event that a map explains: after it the catalog holds the next map. A call is answered
as the map says, or refused, which needs an excuse if the store underneath is `reliable`.
The map changes neither by a refusal nor by work on other relations. -/
structure Event.Agrees
    (reliable : Prop)
    (event : Event σ catalog)
    (map next : RowMap) : Prop where
  holds : catalog.Maps (contents event.after.inner) next
  keeps : ∀ fault, event.outcome = .error fault → next = map
  answers :
    match event.step with
    | .call request =>
        (event.outcome, next) = request.onMap map ∨
          (∃ fault, event.outcome = .error fault) ∧ (reliable → event.Excused request)
    | .elsewhere _ => next = map

/-- A sequence of events that a map explains, one after the other. -/
inductive Agree (reliable : Prop) : RowMap → List (Event σ catalog) → Prop
  | ended {map : RowMap} : Agree reliable map []
  | next
      {map next : RowMap}
      {event : Event σ catalog}
      {events : List (Event σ catalog)}
      (agrees : event.Agrees reliable map next)
      (continues : Agree reliable next events) :
      Agree reliable map (event :: events)

section Calls

variable
  {event : Event σ catalog}
  {request : Call}
  {map : RowMap}
  {reliable : Prop}

theorem Event.agrees_of_answer
    (isCall : event.step = .call request)
    (same : event.outcome = (request.onMap map).1)
    (holds : catalog.Maps (contents event.after.inner) (request.onMap map).2) :
    event.Agrees reliable map (request.onMap map).2 where
  holds := holds
  keeps _ isError := request.onMap_error (same.symm.trans isError)
  answers := by
    rw [isCall]
    exact Or.inl (by rw [same])

theorem Event.agrees_of_refusal
    (isCall : event.step = .call request)
    (refused : ∃ fault, event.outcome = .error fault)
    (holds : catalog.Maps (contents event.after.inner) map)
    (excused : reliable → event.Excused request) :
    event.Agrees reliable map map where
  holds := holds
  keeps _ _ := rfl
  answers := by
    rw [isCall]
    exact Or.inr ⟨refused, excused⟩

/-- One call, on a store that follows a plan. -/
theorem call_agrees
    {store : Faulty σ}
    (maps : catalog.Maps (contents store.inner) map)
    (sound : reliable → Sound store.inner)
    (isCall : event = (Step.call request).event store) :
    ∃ next, event.Agrees reliable map next ∧ Follows store.inner event.after.inner := by
  have ofCall : event.step = .call request := by rw [isCall]; rfl
  have before : event.before = store := by rw [isCall]; rfl
  have ran : (request.action catalog).runOn store = (event.outcome, event.after) := by
    rw [isCall]; rfl
  have outside : catalog.Maps (contents store) map := maps
  have overPlan := (call_settles outside request).runOn ran
  rcases (catalog.call_failsOrPasses request store).runOn ran with ⟨-, passed⟩ | ⟨failed, refused⟩
  · have underneath := (call_settles maps request).runOn passed.symm
    obtain ⟨follows, ⟨same, holds⟩ | ⟨refused, holds, exhausted⟩⟩ := underneath
    · exact ⟨_, Event.agrees_of_answer ofCall same holds, follows⟩
    · have excused : reliable → event.Excused request := by
        intro isReliable
        refine Or.inr ?_
        rw [before]
        exact exhausted (sound isReliable)
      exact ⟨_, Event.agrees_of_refusal ofCall refused holds excused, follows⟩
  · have excused : event.Excused request := Or.inl (by rwa [before])
    obtain ⟨⟨-, follows⟩, ⟨same, holds⟩ | ⟨-, holds, -⟩⟩ := overPlan
    · exact ⟨_, Event.agrees_of_answer ofCall same holds, follows⟩
    · exact ⟨_, Event.agrees_of_refusal ofCall refused holds fun _ => excused, follows⟩

end Calls

/-- What one event preserves. -/
theorem event_agrees
    {store : Faulty σ}
    {map : RowMap}
    {reliable : Prop}
    (maps : catalog.Maps (contents store.inner) map)
    (sound : reliable → Sound store.inner)
    (step : Step catalog) :
    ∃ next,
      (step.event store).Agrees reliable map next ∧
        Follows store.inner (step.event store).after.inner := by
  cases step with
  | call request => exact call_agrees maps sound rfl
  | elsewhere work =>
      have keeps :
          (Step.elsewhere work).action.Yields store fun _ left =>
            Follows store left ∧ catalog.Maps (contents left) map := by
        have outside : catalog.Maps (contents store) map := maps
        apply yields_bind (work_keeps outside work)
        · exact fun _ left holds => yields_pure holds
        · exact fun fault left holds => holds
      obtain ⟨⟨-, follows⟩, holds⟩ := keeps
      exact ⟨map, ⟨holds, fun _ _ => rfl, rfl⟩, follows⟩

theorem history_agrees
    {store : Faulty σ}
    {map : RowMap}
    {reliable : Prop}
    (maps : catalog.Maps (contents store.inner) map)
    (sound : reliable → Sound store.inner)
    (steps : List (Step catalog)) :
    Agree reliable map (history steps store) := by
  induction steps generalizing store map with
  | nil => exact .ended
  | cons step rest inductionHypothesis =>
      obtain ⟨next, agrees, follows⟩ := event_agrees maps sound step
      exact .next agrees
        (inductionHypothesis agrees.holds (sound_of_follows _ _ follows ∘ sound))

/-- From its creation on a catalog is a finite map, whatever is done to it and to other
relations, and whichever calls the plan makes fail. The store underneath may be one that
refuses calls itself, but then a call is excused by that. -/
theorem catalog_is_map
    {before after : Faulty σ}
    (creates : (Catalog.create : StorageM (Faulty σ) Catalog).runOn before = (.ok catalog, after))
    (steps : List (Step catalog)) :
    Agree (Sound after.inner) .empty (history steps after) := by
  have present := (create_yields before).runOn creates catalog rfl
  exact history_agrees ⟨.created, [], present, ⟨.nil, rfl⟩, .empty⟩ id steps

/-- A store in memory on which a catalog was created, and whose first write will fail. -/
def writeFailingStore : Faulty MemoryStorage where
  inner := ⟨blockSize, #[#[]]⟩
  plan := FaultBudget.plan ⟨none, none, none, some 0, some 1⟩
  calls := ⟨1, 0, 0, 0⟩
  failed := 0

/-- A row is inserted twice, the first time with a failure halfway, and looked up. -/
theorem catalog_is_map_interrupted :
    (Catalog.create : StorageM (Faulty MemoryStorage) Catalog).runOn
          (Faulty.start writeFailingStore.plan ⟨blockSize, #[]⟩) =
        (.ok ⟨1⟩, writeFailingStore) ∧
      Sound writeFailingStore.inner ∧
        let row : Row := ⟨7, 2, 3, some .btree, 4, 5, noRelation, noRelation, false⟩
        let steps : List (Step ⟨1⟩) :=
          [.call (.insert row), .call (.insert row), .elsewhere .create, .call (.get 7)]
        Agree (Sound writeFailingStore.inner) .empty (history steps writeFailingStore) := by
  have creates :
      (Catalog.create : StorageM (Faulty MemoryStorage) Catalog).runOn
          (Faulty.start writeFailingStore.plan ⟨blockSize, #[]⟩) =
        (.ok ⟨1⟩, writeFailingStore) := rfl
  exact ⟨creates, rfl, catalog_is_map creates _⟩

end Agreeing

end ObliviousStorage.Catalog

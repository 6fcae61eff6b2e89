import ObliviousStorage.Proofs.Opening.SmallTable
import ObliviousStorage.Proofs.Storage.Lawful

/-!
Contract: opening the files of a table on a store some of whose calls fail, and opening
them again afterwards.

Owns: that an opening that failed, whichever calls made it fail, leaves the table's row
as it was but for the files it names; and that opening the table again without failures
does what opening it without failures at once would have done.

A store that refuses its first write shows such an opening stop when both files are there.

Does not own: what becomes of the files that a failed opening left behind.
-/

namespace ObliviousStorage

open StorageM StorageView

variable {σ : Type} [Storage σ] [LawfulStorage σ]

/-- A failed opening can be repeated. Whatever calls fail, the row that is left says that
the files are still to be created and differs from the one before only in the files it
names. While identities are left for two relations, opening the table again succeeds
exactly if opening it without failures would have succeeded. The row then names the files
of the later opening, and these have the same blocks as those that the opening without
failures creates. -/
theorem openTable_retry
    {state found : σ}
    {left : Faulty σ}
    {catalog : Catalog}
    {table : RelationId}
    {row : Catalog.Row}
    {names : FileNames}
    {plan : FaultPlan}
    {fault : Fault}
    (sound : Sound state)
    (inUse : catalog.Filled state)
    (recorded : (catalog.get table).runOn state = (.ok row, found))
    (pending : row.status = .ok .pending)
    (heapElsewhere : row.heap ≠ catalog.relation)
    (indexElsewhere : row.index ≠ catalog.relation)
    (fails :
      (openTable catalog table names).runOn (Faulty.start plan state) = (.error fault, left)) :
    (∃ tableFile indexFile,
        ((catalog.get table).runOn left.inner).1 =
          .ok { row with tableFile, indexFile, filled := false }) ∧
      (2 ≤ room state → 2 ≤ room left.inner →
        ((∃ session, ((openTable catalog table names).runOn left.inner).1 = .ok session) ↔
          ∃ session, ((openTable catalog table names).runOn state).1 = .ok session)) ∧
      ∀ session again,
        (openTable catalog table names).runOn left.inner = (.ok session, again) →
          ((catalog.get table).runOn again).1 =
              .ok
                { row with
                  tableFile := session.tableRelation
                  indexFile := session.indexRelation
                  filled := true } ∧
            ∀ direct atOnce,
              (openTable catalog table names).runOn state = (.ok direct, atOnce) →
                ∃ tableBlocks indexBlocks,
                  contents again session.tableRelation = some tableBlocks ∧
                    contents again session.indexRelation = some indexBlocks ∧
                      contents atOnce direct.tableRelation = some tableBlocks ∧
                        contents atOnce direct.indexRelation = some indexBlocks := by
  have records := inUse.records recorded
  obtain ⟨unfilled, method, known⟩ := Catalog.Row.of_pending pending
  have recordsFaulty : catalog.Records (contents (Faulty.start plan state)) table row := records
  have unopened :=
    (openTable_yields recordsFaulty pending known heapElsewhere indexElsewhere names).runOn fails
  have soundLeft : Sound left.inner := sound_of_follows _ _ unopened.became.follows.2 sound
  obtain ⟨sameHeap, sameIndex⟩ := unopened.sources
  obtain rfl := records.ofTable
  obtain ⟨tableFile, indexFile, recordsLeft⟩ := unopened.recorded
  have recordsInner :
      catalog.Records (contents left.inner) row.table { row with tableFile, indexFile } :=
    recordsLeft
  -- What can be materialized before can be materialized after, and the other way round.
  have forth :
      ∀ {layout files indexFiles},
        Materialized (contents state) row method names layout files indexFiles →
          Materialized (contents left.inner) { row with tableFile, indexFile } method names layout
            files indexFiles :=
    fun materialized => materialized.of_same_sources sameHeap sameIndex tableFile indexFile
  have back :
      ∀ {layout files indexFiles},
        Materialized (contents left.inner) { row with tableFile, indexFile } method names layout
            files indexFiles →
          Materialized (contents state) row method names layout files indexFiles :=
    fun materialized =>
      materialized.of_same_sources sameHeap.symm sameIndex.symm row.tableFile row.indexFile
  refine ⟨⟨tableFile, indexFile, ?_⟩, ?_, ?_⟩
  · rw [recordsInner.get_of_sound soundLeft, ← unfilled]
  · intro identities identitiesLeft
    rw [openTable_succeeds_iff soundLeft identitiesLeft recordsInner pending known heapElsewhere
        indexElsewhere,
      openTable_succeeds_iff sound identities records pending known heapElsewhere indexElsewhere]
    constructor
    · intro holds
      rcases holds with ⟨_, _, _, materialized⟩
      exact ⟨_, _, _, back materialized⟩
    · intro holds
      rcases holds with ⟨_, _, _, materialized⟩
      exact ⟨_, _, _, forth materialized⟩
  · intro session again retried
    have openedAgain :=
      (openTable_yields recordsInner pending known heapElsewhere indexElsewhere names).runOn retried
    refine ⟨openedAgain.recorded.get_of_sound (openedAgain.became.keepsSound soundLeft), ?_⟩
    intro direct atOnce ran
    have openedAtOnce :=
      (openTable_yields records pending known heapElsewhere indexElsewhere names).runOn ran
    obtain ⟨layout, tableBlocks, indexBlocks, materialized, -, tableHolds, indexHolds⟩ :=
      openedAgain.files
    obtain ⟨another, files, indexFiles, direct', -, directTable, directIndex⟩ := openedAtOnce.files
    obtain ⟨rfl, rfl, rfl⟩ := (back materialized).unique direct'
    exact ⟨_, _, tableHolds, indexHolds, directTable, directIndex⟩

/-! ## A store that refuses its first write -/

/-- A plan by which a store is read as ever, and the first write fails. -/
def unwritable : FaultPlan := FaultBudget.plan ⟨none, none, none, some 0, some 1⟩

/-- A store of this plan that was only read so far. -/
structure OnlyRead (inner : MemoryStorage) (state : Faulty MemoryStorage) : Prop where
  inner : state.inner = inner
  plan : state.plan = unwritable
  failed : state.failed = 0

section Unwritable

variable
  {inner : MemoryStorage}
  {state : Faulty MemoryStorage}

theorem OnlyRead.read
    (here : OnlyRead inner state)
    (relation : RelationId)
    (block : BlockNumber) :
    (Storage.read relation block : StorageM (Faulty MemoryStorage) Page).Yields state
      fun outcome left => outcome = inner.page relation block ∧ OnlyRead inner left := by
  cases state
  obtain ⟨rfl, rfl, rfl⟩ := here
  exact ⟨rfl, rfl, rfl, rfl⟩

theorem OnlyRead.count (here : OnlyRead inner state) (relation : RelationId) :
    (Storage.blockCount relation : StorageM (Faulty MemoryStorage) BlockNumber).Yields state
      fun outcome left => outcome = inner.count relation ∧ OnlyRead inner left := by
  cases state
  obtain ⟨rfl, rfl, rfl⟩ := here
  exact ⟨rfl, rfl, rfl, rfl⟩

/-- An index is measured as on the store inside. -/
theorem OnlyRead.measure
    {index : RelationId}
    {placements : List Index.Placement}
    {profile : Index.Profile}
    (here : OnlyRead inner state)
    (sound : Sound inner)
    (whole : Index.WholeTrail (Index.Held (contents inner) index) .measure placements profile) :
    (Index.measure index).Yields state fun outcome left =>
      outcome = .ok profile ∧ OnlyRead inner left := by
  have functional := Index.held_functional (contents inner) index
  have calls :
      Index.WalkCalls index none (Index.Held (contents inner) index) (fun _ => True)
        (fun _ => OnlyRead inner) (fun _ => True) True :=
    { functional
      reads := by
        intro heads between block here
        apply (here.read index block).weaken
        intro outcome left holds
        obtain ⟨rfl, here⟩ := holds
        rw [MemoryStorage.page_eq sound]
        cases found : (contents inner).page index block with
        | ok page => exact ⟨found, here⟩
        | error fault =>
            refine ⟨trivial, fun _ page held => ?_⟩
            exact absurd (found.symm.trans held) (by simp)
      hands := fun _ _ _ here => yields_pure ⟨trivial, here⟩
      stops := fun _ _ _ => trivial }
  apply (Index.walk_yields calls state here).weaken
  intro outcome left walked
  cases outcome with
  | ok found =>
      obtain ⟨visited, trail, -, here⟩ := walked
      rw [(trail.unique functional whole).2]
      exact ⟨rfl, here⟩
  | error fault =>
      obtain ⟨placement, -, refused⟩ := walked.2 trivial placements profile whole
      exact absurd trivial refused

/-- The row of a table is looked up as on the store inside. -/
theorem OnlyRead.get
    {row : Catalog.Row}
    {heap index : List Page}
    (here : OnlyRead (tableStore row heap index) state) :
    (smallCatalog.get row.table).Yields state fun outcome left =>
      outcome = .ok row ∧ OnlyRead (tableStore row heap index) left := by
  have searched :
      Catalog.locateOnPage (Page.plain.grownBy row.toBytes) row.table 0 =
        .ok (some ⟨0, 1, row⟩) := by
    have holds : Catalog.PageHolds (Page.plain.grownBy row.toBytes) [row] :=
      Or.inr (rowPage_grownBy row).2
    rcases Catalog.locateOnPage_spec holds row.table 0 with
      ⟨index, other, found, first, -⟩ | ⟨-, lacking⟩
    · obtain ⟨inside, rfl⟩ := List.getElem?_eq_some_iff.mp first
      obtain rfl : index = 0 := Nat.lt_one_iff.mp inside
      exact found
    · exact absurd rfl (lacking row (List.mem_singleton.mpr rfl))
  have counted :
      (Storage.blockCount smallCatalog.relation).Yields state fun outcome left =>
        outcome = .ok 1 ∧ OnlyRead (tableStore row heap index) left :=
    here.count 1
  have locates :
      (smallCatalog.locate row.table).Yields state fun outcome left =>
        outcome = .ok (some ⟨0, 1, row⟩) ∧ OnlyRead (tableStore row heap index) left := by
    refine yields_bind_value counted fun between here => ?_
    show (smallCatalog.locateIn row.table [0]).Yields between _
    refine yields_bind_value (here.read 1 0) fun left here => ?_
    exact yields_lift_bind_value searched (yields_pure ⟨rfl, here⟩)
  have finds :
      (smallCatalog.find row.table).Yields state fun outcome left =>
        outcome = .ok ⟨0, 1, row⟩ ∧ OnlyRead (tableStore row heap index) left :=
    yields_bind_value locates fun _ here => yields_pure ⟨rfl, here⟩
  exact yields_bind_value finds fun _ here => yields_pure ⟨rfl, here⟩

/-- The store that is left when both files of a table were created, and the first page of the
index file was refused. -/
def createdStore (row : Catalog.Row) (heap index : List Page) : MemoryStorage :=
  ⟨blockSize,
    #[#[Page.plain.grownBy row.toBytes], heap.toArray, index.toArray, #[], #[Page.zero]]⟩

theorem OnlyRead.createFiles
    {row : Catalog.Row}
    {heap index : List Page}
    (here : OnlyRead (tableStore row heap index) state)
    (profile : Index.Profile) :
    (createFiles .btree profile smallNames).Yields state fun outcome left =>
      outcome = .error .allocationFailure ∧ left.inner = createdStore row heap index := by
  cases state
  obtain ⟨rfl, rfl, rfl⟩ := here
  exact ⟨rfl, rfl⟩

/-- A small table is measured, and its files are created but not filled. -/
theorem openTable_unwritable :
    (openTable smallCatalog 7 smallNames).Yields (Faulty.start unwritable smallStore)
      fun outcome left =>
        outcome = .error .allocationFailure ∧
          left.inner =
            createdStore (smallRow .btree 2) [Page.plain] (Index.smallestIndex ⟨5, 0, 1⟩) := by
  have present : contents smallStore 3 = _ := smallStore_index
  obtain ⟨placements, whole⟩ := Index.wholeTrail_smallest present
  have fits :
      ∀ state, OnlyRead smallStore state →
        (measureFitting (smallRow .btree 2)).Yields state fun outcome left =>
          outcome = .ok ⟨[], 0⟩ ∧ OnlyRead smallStore left := by
    intro state here
    refine yields_bind_value (here.measure tableStore_sound whole) fun between here => ?_
    refine yields_lift_bind_value ((@require_eq_ok_iff _ _ _ ()).mpr (by decide)) ?_
    have counted :
        (Storage.blockCount (smallRow .btree 2).heap).Yields between fun outcome left =>
          outcome = .ok 1 ∧ OnlyRead smallStore left :=
      here.count 2
    refine yields_bind_value counted fun left here => ?_
    refine yields_lift_bind_value ((@require_eq_ok_iff _ _ _ ()).mpr (by decide)) ?_
    exact yields_pure ⟨rfl, here⟩
  have creates :
      ∀ state, OnlyRead smallStore state →
        (createFilled (smallRow .btree 2) .btree smallNames).Yields state fun outcome left =>
          outcome = .error .allocationFailure ∧
            left.inner =
              createdStore (smallRow .btree 2) [Page.plain] (Index.smallestIndex ⟨5, 0, 1⟩) := by
    intro state here
    refine yields_bind_value (fits state here) fun between here => ?_
    apply yields_bind_stop
    apply (here.createFiles _).weaken
    intro outcome left refused
    exact ⟨refused.1, rfl, refused.2⟩
  have start : OnlyRead smallStore (Faulty.start unwritable smallStore) := ⟨rfl, rfl, rfl⟩
  refine yields_bind_value start.get fun between here => ?_
  have pending : (smallRow .btree 2).status = .ok .pending := by decide
  refine yields_lift_bind_value pending ?_
  apply yields_bind_stop
  apply (creates between here).weaken
  intro outcome left refused
  exact ⟨refused.1, rfl, refused.2⟩

end Unwritable

/-- A small table whose first opening creates both files and stops at the first page of the index
file. Another opening succeeds all the same. -/
theorem openTable_retry_unwritable :
    ∃ left session again,
      (openTable smallCatalog 7 smallNames).runOn (Faulty.start unwritable smallStore) =
        (.error .allocationFailure, left) ∧
        contents left.inner 4 = some ⟨[], Page.zero⟩ ∧
        contents left.inner 5 = some ⟨[Page.zero], Page.zero⟩ ∧
        (openTable smallCatalog 7 smallNames).runOn left.inner = (.ok session, again) ∧
        ((smallCatalog.get 7).runOn again).1 =
          .ok
            { smallRow .btree 2 with
              tableFile := session.tableRelation
              indexFile := session.indexRelation
              filled := true } := by
  have sound : Sound smallStore := tableStore_sound
  have pending : (smallRow .btree 2).status = .ok .pending := by decide
  have gets : ((smallCatalog.get 7).runOn smallStore).1 = .ok (smallRow .btree 2) :=
    tableStore_get _ _ _
  cases fails :
      (openTable smallCatalog 7 smallNames).runOn (Faulty.start unwritable smallStore) with
  | mk outcome left =>
  obtain ⟨rfl, created⟩ := openTable_unwritable.runOn fails
  obtain ⟨direct, opens⟩ :
      ∃ session, ((openTable smallCatalog 7 smallNames).runOn smallStore).1 = .ok session :=
    smallTable_opens pending (by decide) _
  have identities : 2 ≤ room smallStore := Nat.le_trans (by decide) tableStore_room
  have identitiesLeft : 2 ≤ room left.inner := by
    rw [created]
    show 2 ≤ blockNumberBound - 2 - 5
    decide
  have tableFile : contents left.inner 4 = some ⟨[], Page.zero⟩ := by
    rw [created]
    rfl
  have indexFile : contents left.inner 5 = some ⟨[Page.zero], Page.zero⟩ := by
    rw [created]
    rfl
  obtain ⟨-, repeatable, leads⟩ :=
    openTable_retry sound (tableStore_inUse (by decide)) (runOn_eq_of_outcome gets) pending
      (by decide) (by decide) fails
  obtain ⟨session, retried⟩ := (repeatable identities identitiesLeft).mpr ⟨direct, opens⟩
  have again := runOn_eq_of_outcome retried
  exact ⟨left, session, _, rfl, tableFile, indexFile, again, (leads _ _ again).1⟩

end ObliviousStorage

import ObliviousStorage.Proofs.Opening.SmallTable

/-!
Contract: how many blocks the files of a table have after its first opening, and which of
them hold dummy pages.

Owns: the sizes of both files, and the pages behind those of the heap and of the index,
for every store and every catalog.

The index file begins with the pages that the creation of an index leaves. Where a row
declares fewer blocks than these, the file keeps them all, and those that the declared
size does not cover keep what the creation wrote to them.

Does not own: the pages of the heap and of the index.
-/

namespace ObliviousStorage

open StorageM StorageView

/-- A file of this many blocks that holds dummy pages from block `used` on. -/
structure AtCapacity (file : Relation) (capacity used : Nat) : Prop where
  length : file.pages.length = capacity
  rest : ∀ block, used ≤ block → block < capacity → file.pages[block]? = some Page.dummy

theorem emptyTableFile_getElem?
    {row : Catalog.Row}
    {block : Nat}
    (inside : block < declaredBlocks row.tableBlocks) :
    (emptyTableFile row).pages[block]? = some Page.dummy := by
  rw [emptyTableFile]
  refine Relation.getElem?_overlaid ?_
  rw [Page.dummies, List.getElem?_replicate, if_pos inside]

/-- Within its declared size the index file is filled with dummy pages. -/
theorem emptyIndexFile_getElem?
    {row : Catalog.Row}
    {block : Nat}
    (method : Catalog.AccessMethod)
    (inside : block < declaredBlocks row.indexBlocks) :
    (emptyIndexFile row method).pages[block]? = some Page.dummy := by
  rw [emptyIndexFile]
  refine Relation.getElem?_overlaid ?_
  rw [Page.dummies, List.getElem?_replicate, if_pos inside]

/-- Behind its declared size the index file keeps initial pages. -/
theorem emptyIndexFile_getElem?_initial
    {row : Catalog.Row}
    {method : Catalog.AccessMethod}
    {block : Nat}
    (beyond : declaredBlocks row.indexBlocks ≤ block)
    (initial : block < method.initialPages) :
    (emptyIndexFile row method).pages[block]? = some Page.plain := by
  have place :
      declaredBlocks row.indexBlocks + (block - declaredBlocks row.indexBlocks) = block := by
    omega
  rw [emptyIndexFile, Relation.overlaid, List.getElem?_append_right (by simpa [Page.dummies]),
    List.getElem?_drop, initialFile, List.getElem?_replicate]
  simp only [Page.dummies, List.length_replicate, place, if_pos initial]

namespace Materialized

variable
  {held : Contents}
  {row : Catalog.Row}
  {method : Catalog.AccessMethod}
  {names : FileNames}
  {layout : Index.Layout}
  {table index heap : Relation}
  {profile : Index.Profile}

/-- The table file has its declared size and holds dummy pages behind the heap. -/
theorem table_atCapacity
    (materialized : Materialized held row method names layout table index)
    (present : held row.heap = some heap) :
    AtCapacity table (declaredBlocks row.tableBlocks) heap.pages.length := by
  obtain ⟨profile, fitting, -⟩ := materialized.fitting
  obtain ⟨other, images, among, stamps, rfl⟩ := materialized.copied
  obtain rfl := Option.some.inj (present.symm.trans among)
  obtain ⟨_, among, heapFits⟩ := fitting.heapFits
  obtain rfl := Option.some.inj (present.symm.trans among)
  have copied := Heap.length_stampedFrom stamps
  have sameLength :
      ((emptyTableFile row).overlaid images).pages.length = declaredBlocks row.tableBlocks := by
    rw [Relation.length_overlaid, length_emptyTableFile]
    rw [length_emptyTableFile]
    omega
  refine ⟨sameLength, fun block behind inside => ?_⟩
  rw [Relation.overlaid, List.getElem?_append_right (by omega), List.getElem?_drop,
    Nat.add_sub_cancel' (by omega)]
  exact emptyTableFile_getElem? inside

theorem index_length
    (materialized : Materialized held row method names layout table index) :
    index.pages.length = max (declaredBlocks row.indexBlocks) method.initialPages := by
  obtain ⟨placements, another, -, -, rfl⟩ := materialized.relocated
  rw [Index.Layout.length_placedOver, length_emptyIndexFile]

/-- Behind the pages of the index, the index file is as it was before these were
written. -/
theorem index_getElem?
    (materialized : Materialized held row method names layout table index)
    (fits : Fitting held row profile)
    {block : Nat}
    (behind : profile.size ≤ block) :
    index.pages[block]? = (emptyIndexFile row method).pages[block]? := by
  obtain ⟨another, fitting, laidOut⟩ := materialized.fitting
  obtain rfl := fits.unique fitting
  obtain ⟨placements, shape, -, fit, rfl⟩ := materialized.relocated
  rw [profile.size_eq_sum, ← laidOut] at behind
  exact Index.Layout.getElem?_placedOver fit behind

/-- The index file has its declared size, with dummy pages behind the index, exactly if
the row declares room for the initial pages. -/
theorem index_atCapacity_iff
    (materialized : Materialized held row method names layout table index)
    (fits : Fitting held row profile) :
    AtCapacity index (declaredBlocks row.indexBlocks) profile.size ↔
      method.initialPages ≤ declaredBlocks row.indexBlocks := by
  have length := materialized.index_length
  constructor
  · intro atCapacity
    have declared := atCapacity.length
    omega
  · intro roomy
    refine ⟨by omega, fun block behind inside => ?_⟩
    rw [materialized.index_getElem? fits behind]
    exact emptyIndexFile_getElem? method inside

end Materialized

variable {σ : Type} [Storage σ] [LawfulStorage σ]

/-- The files that an opening created, on any catalog. -/
theorem materialize_keeps
    {state left : σ}
    {catalog : Catalog}
    {row : Catalog.Row}
    {method : Catalog.AccessMethod}
    {names : FileNames}
    {session : Session}
    {found : Relation}
    (present : contents state catalog.relation = some found)
    (ran : (materialize catalog row method names).runOn state = (.ok session, left)) :
    ∃ layout table index,
      Materialized (contents state) row method names layout table index ∧
        contents left session.tableRelation = some table ∧
          contents left session.indexRelation = some index := by
  obtain ⟨created, filled, creates, notes⟩ := runOn_bind_eq_ok ran
  obtain ⟨layout, table, index, materialized, -, new, became⟩ :=
    (createFilled_yields row method names state).runOn creates
  obtain ⟨_, noted, notesFiles, marks⟩ := runOn_bind_eq_ok notes
  obtain ⟨_, marked, marksFilled, returns⟩ := runOn_bind_eq_ok marks
  obtain ⟨rfl, rfl⟩ : created = session ∧ marked = left := by simpa using returns
  have kept :
      ∀ relation, relation ≠ catalog.relation →
        contents marked relation = contents filled relation := by
    intro relation elsewhere
    exact ((catalog.update_keeps _ _ _).runOn marksFilled relation elsewhere).trans
      ((catalog.update_keeps _ _ _).runOn notesFiles relation elsewhere)
  have tableElsewhere : created.tableRelation ≠ catalog.relation := fun same =>
    absurd (new.table.symm.trans (same ▸ present)) (by simp)
  have indexElsewhere : created.indexRelation ≠ catalog.relation := fun same =>
    absurd (new.index.symm.trans (same ▸ present)) (by simp)
  refine ⟨layout, table, index, materialized, ?_, ?_⟩
  · rw [kept _ tableElsewhere, became.holds, Contents.withFiles_table new]
  · rw [kept _ indexElsewhere, became.holds, Contents.withFiles_index]

/-- The files that a first opening created, on any catalog, and the shape that it measured
for the index. -/
theorem openTable_materialized
    {state found left : σ}
    {catalog : Catalog}
    {table : RelationId}
    {row : Catalog.Row}
    {names : FileNames}
    {session : Session}
    (recorded : (catalog.get table).runOn state = (.ok row, found))
    (pending : row.status = .ok .pending)
    (opens : (openTable catalog table names).runOn state = (.ok session, left)) :
    ∃ method layout tableFile indexFile profile,
      row.method = some method ∧
        Materialized (contents state) row method names layout tableFile indexFile ∧
        Fitting (contents state) row profile ∧
        ((Index.measure row.index).runOn found).1 = .ok profile ∧
        contents left session.tableRelation = some tableFile ∧
        contents left session.indexRelation = some indexFile := by
  obtain ⟨-, method, known⟩ := Catalog.Row.of_pending pending
  obtain ⟨catalogRelation, present⟩ := Catalog.get_present recorded
  have same : contents found = contents state := (catalog.get_keeps table state).runOn recorded
  obtain ⟨other, between, gets, continues⟩ := runOn_bind_eq_ok opens
  obtain ⟨rfl, rfl⟩ : row = other ∧ found = between := by simpa using recorded.symm.trans gets
  have materializes :
      (materialize catalog row method names).runOn found = (.ok session, left) := by
    simpa [runOn_bind, pending, known] using continues
  obtain ⟨layout, tableFile, indexFile, materialized, tableHolds, indexHolds⟩ :=
    materialize_keeps (same ▸ present) materializes
  obtain ⟨_, _, creates, -⟩ := runOn_bind_eq_ok materializes
  obtain ⟨_, _, fitted, -⟩ := runOn_bind_eq_ok creates
  obtain ⟨profile, afterMeasure, measures, _⟩ := runOn_bind_eq_ok fitted
  obtain ⟨shape, fitting, -⟩ := materialized.fitting
  obtain rfl : profile = shape := by
    obtain ⟨placements, whole⟩ := fitting.measured
    obtain ⟨⟨others, trail⟩, -⟩ := (Index.measure_yields row.index found).runOn measures
    exact (trail.unique (Index.held_functional _ _) whole).2
  exact
    ⟨method, layout, tableFile, indexFile, profile, known, same ▸ materialized, same ▸ fitting,
      by rw [measures], tableHolds, indexHolds⟩

/-- The sizes of a table's files after its first opening, whatever the store and the
catalog. The table file has the declared size and holds dummy pages behind the heap. The
index file has the declared size, or the number of initial pages where that is larger;
behind the index it holds dummy pages as far as the declared size reaches and initial
pages from there on. So the index file has its declared size and holds only dummy pages
behind the index exactly if the row declares room for the initial pages. -/
theorem openTable_capacities
    {state found left : σ}
    {catalog : Catalog}
    {table : RelationId}
    {row : Catalog.Row}
    {names : FileNames}
    {session : Session}
    (recorded : (catalog.get table).runOn state = (.ok row, found))
    (pending : row.status = .ok .pending)
    (opens : (openTable catalog table names).runOn state = (.ok session, left)) :
    ∃ method heap profile tableFile indexFile,
      row.method = some method ∧
        contents state row.heap = some heap ∧
        ((Index.measure row.index).runOn found).1 = .ok profile ∧
        contents left session.tableRelation = some tableFile ∧
        contents left session.indexRelation = some indexFile ∧
        AtCapacity tableFile (declaredBlocks row.tableBlocks) heap.pages.length ∧
        indexFile.pages.length = max (declaredBlocks row.indexBlocks) method.initialPages ∧
        (∀ block, profile.size ≤ block → block < declaredBlocks row.indexBlocks →
          indexFile.pages[block]? = some Page.dummy) ∧
        (∀ block, declaredBlocks row.indexBlocks ≤ block → block < method.initialPages →
          indexFile.pages[block]? = some Page.plain) ∧
        (AtCapacity indexFile (declaredBlocks row.indexBlocks) profile.size ↔
          method.initialPages ≤ declaredBlocks row.indexBlocks) := by
  obtain ⟨method, layout, tableFile, indexFile, profile, known, materialized, fitting, measured,
    tableHolds, indexHolds⟩ := openTable_materialized recorded pending opens
  obtain ⟨heap, heapPresent, -⟩ := fitting.heapFits
  refine ⟨method, heap, profile, tableFile, indexFile, known, heapPresent, measured, tableHolds,
    indexHolds, materialized.table_atCapacity heapPresent, materialized.index_length,
    fun block behind inside => ?_, fun block beyond initial => ?_,
    materialized.index_atCapacity_iff fitting⟩
  · rw [materialized.index_getElem? fitting behind]
    exact emptyIndexFile_getElem? method inside
  · rw [materialized.index_getElem? fitting (Nat.le_trans fitting.indexFits beyond)]
    exact emptyIndexFile_getElem?_initial beyond initial

/-- The files of a small table whose row declares two blocks for each, with a hash index:
the index file keeps all four initial pages, two of them behind its declared size. -/
theorem openTable_capacities_small :
    ∃ session left tableFile indexFile,
      (openTable smallCatalog 7 smallNames).runOn
          (smallTable (smallRow .hash 2) ⟨5, 0, 1⟩) =
        (.ok session, left) ∧
        contents left session.tableRelation = some tableFile ∧
        contents left session.indexRelation = some indexFile ∧
        AtCapacity tableFile 2 1 ∧
        indexFile.pages.length = 4 ∧
        indexFile.pages[1]? = some Page.dummy ∧
        indexFile.pages[2]? = some Page.plain ∧
        indexFile.pages[3]? = some Page.plain := by
  have pending : (smallRow .hash 2).status = .ok .pending := by decide
  obtain ⟨session, opens⟩ := smallTable_opens pending (by decide) ⟨5, 0, 1⟩
  have recorded := runOn_eq_of_outcome (smallTable_gets (smallRow .hash 2) ⟨5, 0, 1⟩).1
  obtain ⟨method, heap, profile, tableFile, indexFile, known, heapPresent, measured, tableHolds,
    indexHolds, atCapacity, length, dummies, initial, -⟩ :=
    openTable_capacities recorded pending (runOn_eq_of_outcome opens)
  have kept := (smallTable_gets (smallRow .hash 2) ⟨5, 0, 1⟩).2
  have present :
      contents (smallTable (smallRow .hash 2) ⟨5, 0, 1⟩) 3 =
        some ⟨Index.smallestIndex ⟨5, 0, 1⟩, Page.zero⟩ :=
    smallTable_index
  rw [← kept.holds] at present
  obtain ⟨placements, whole⟩ := Index.wholeTrail_smallest present
  have shape := Index.measure_of_whole (kept.keepsSound tableStore_sound) whole
  obtain rfl := Except.ok.inj (shape.symm.trans measured)
  obtain rfl := Option.some.inj (tableStore_heap.symm.trans heapPresent)
  obtain rfl := Option.some.inj known
  exact
    ⟨session, _, tableFile, indexFile, runOn_eq_of_outcome opens, tableHolds, indexHolds,
      atCapacity, length, dummies 1 (by decide) (by decide), initial 2 (by decide) (by decide),
      initial 3 (by decide) (by decide)⟩

/-- Not every index file has its declared size: that of a hash index with two declared
blocks has four. -/
theorem not_indexFile_atCapacity :
    ∃ session left indexFile,
      (openTable smallCatalog 7 smallNames).runOn
          (smallTable (smallRow .hash 2) ⟨5, 0, 1⟩) =
        (.ok session, left) ∧
        contents left session.indexRelation = some indexFile ∧
        declaredBlocks (smallRow .hash 2).indexBlocks = 2 ∧
        indexFile.pages.length = 4 := by
  have pending : (smallRow .hash 2).status = .ok .pending := by decide
  have recorded := runOn_eq_of_outcome (smallTable_gets (smallRow .hash 2) ⟨5, 0, 1⟩).1
  obtain ⟨session, opens⟩ := smallTable_opens pending (by decide) ⟨5, 0, 1⟩
  obtain ⟨method, layout, tableFile, indexFile, profile, known, materialized, -, -, -,
    indexHolds⟩ := openTable_materialized recorded pending (runOn_eq_of_outcome opens)
  obtain rfl := Option.some.inj known
  exact
    ⟨session, _, indexFile, runOn_eq_of_outcome opens, indexHolds, by decide,
      materialized.index_length⟩

end ObliviousStorage

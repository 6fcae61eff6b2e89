import ObliviousStorage.Proofs.Opening.SmallTable

/-!
Contract: what the files of a table show after they were opened for the first time.

Owns: that the table file then holds the pages of the heap and that lookups through the
index file end as lookups in the index; and that opening such a table succeeds on a sound
store and is noted in the catalog.

Does not own: tables whose index has overlapping items, or stores that refuse calls.
-/

namespace ObliviousStorage

open StorageM StorageView

namespace Materialized

variable
  {held : Contents}
  {row : Catalog.Row}
  {method : Catalog.AccessMethod}
  {names : FileNames}
  {layout : Index.Layout}
  {table index : Relation}

/-- The page of a heap block is found in the same block of the table file, stamped if it
was formatted. -/
theorem table_page
    (materialized : Materialized held row method names layout table index)
    {block : BlockNumber}
    {page : Page}
    (found : held.page row.heap block = .ok page) :
    table.pages[block.toNat]? =
      some (if page.isUnformatted then page else page.setTag block) := by
  obtain ⟨heap, images, present, stamps, rfl⟩ := materialized.copied
  obtain ⟨other, present', among⟩ := Contents.page_eq_ok_iff.mp found
  obtain rfl := Option.some.inj (present.symm.trans present')
  obtain ⟨image, copied, stampsPage⟩ := Heap.getElem?_stampedFrom stamps among
  rw [Nat.zero_add, UInt32.ofNat_toNat] at stampsPage
  refine Relation.getElem?_overlaid (copied.trans ?_)
  rcases Heap.stamped_eq_ok_iff.mp stampsPage with ⟨unformatted, rfl⟩ | ⟨formatted, -, rfl⟩
  · rw [if_pos unformatted]
  · rw [formatted, if_neg (by simp)]

/-- The images of the index fill the first blocks of the index file. -/
theorem index_overlaid
    (materialized : Materialized held row method names layout table index)
    (apart : Index.InnerItemsApart held row.index) :
    ∃ placements profile,
      Index.WholeTrail (Index.Held held row.index) .relocate placements profile ∧
        (∀ placement ∈ placements, ∃ rootLevel, placement.Faithful rootLevel) ∧
          layout.counts = profile.counts ∧
            index =
              (emptyIndexFile row method).overlaid
                (placements.map fun placement => placement.visit.page) := by
  obtain ⟨profile, fitting, laidOut⟩ := materialized.fitting
  obtain ⟨placements, another, moved, -, rfl⟩ := materialized.relocated
  obtain ⟨visited, whole⟩ := fitting.measured
  obtain ⟨relocated, moved', faithful⟩ := whole.relocate (apart _ _ whole)
  obtain ⟨rfl, rfl⟩ := moved.unique (Index.held_functional held row.index) moved'
  refine ⟨placements, another, moved, faithful, laidOut, ?_⟩
  have inOrder :
      ∀ (number : Nat) (placement : Index.Placement), placements[number]? = some placement →
        placement.InOrder layout.counts (([] : List Page).length + number) := by
    intro number placement among
    rw [laidOut, List.length_nil, Nat.zero_add]
    exact moved.inOrder among
  have roomy :
      ([] : List Page).length + placements.length ≤ (emptyIndexFile row method).pages.length := by
    rw [List.length_nil, Nat.zero_add, ← moved.size_eq, ← another.size_eq_sum,
      length_emptyIndexFile]
    exact Nat.le_trans fitting.indexFits (Nat.le_max_left ..)
  have placed := Index.Layout.placedOver_overlaid inOrder roomy
  rwa [Relation.overlaid_nil, List.nil_append] at placed

end Materialized

variable {σ : Type} [Storage σ] [LawfulStorage σ]

/-- The first opening of a table succeeds on a sound store with two identities left, if
its index can be measured and fits, no items overlap on inner pages of the index, its heap
fits and has only unformatted and well-formed pages, and the names of the files differ.
The files are new and noted in the catalog. The table file holds each page of the heap in
the same block, stamped if it was formatted, and every lookup through the index file ends
as the lookup in the index does. -/
theorem openTable_faithful
    {state found measured : σ}
    {catalog : Catalog}
    {table : RelationId}
    {row : Catalog.Row}
    {names : FileNames}
    {profile : Index.Profile}
    {heap : Relation}
    (sound : Sound state)
    (identities : 2 ≤ room state)
    (inUse : catalog.Filled state)
    (recorded : (catalog.get table).runOn state = (.ok row, found))
    (pending : row.status = .ok .pending)
    (heapElsewhere : row.heap ≠ catalog.relation)
    (indexElsewhere : row.index ≠ catalog.relation)
    (measures : (Index.measure row.index).runOn state = (.ok profile, measured))
    (apart : Index.InnerItemsApart (contents state) row.index)
    (indexFits : profile.size ≤ declaredBlocks row.indexBlocks)
    (heapPresent : contents state row.heap = some heap)
    (heapFits : heap.pages.length ≤ declaredBlocks row.tableBlocks)
    (acceptable : ∀ page ∈ heap.pages, page.isUnformatted = true ∨ page.WellFormed)
    (names_ne : names.tableFile ≠ names.indexFile) :
    ∃ session opened layout,
      (openTable catalog table names).runOn state = (.ok session, opened) ∧
        session.layout = some layout ∧
        session.NewTo (contents state) ∧
        ((catalog.get table).runOn opened).1 =
          .ok
            { row with
              tableFile := session.tableRelation
              indexFile := session.indexRelation
              filled := true } ∧
        (∀ block page,
          (contents state).page row.heap block = .ok page →
            (contents opened).page session.tableRelation block =
              .ok (if page.isUnformatted then page else page.setTag block)) ∧
        ∀ key,
          ((Index.lookupPlaced layout session.indexRelation key).runOn opened).1 =
            ((Index.lookup row.index key).runOn state).1 := by
  have records := inUse.records recorded
  obtain ⟨-, method, known⟩ := Catalog.Row.of_pending pending
  have fitting : Fitting (contents state) row profile :=
    { measured := ((Index.measure_yields row.index state).runOn measures).1
      indexFits
      heapFits := ⟨heap, heapPresent, heapFits⟩ }
  have opens := openTable_yields records pending known heapElsewhere indexElsewhere names
  cases ran : (openTable catalog table names).runOn state with
  | mk outcome left =>
  cases outcome with
  | error fault =>
      have unopened := opens.runOn ran
      obtain ⟨layout, tableFile, indexFile, materialized⟩ :=
        exists_materialized fitting apart heapPresent acceptable names_ne method
      exact absurd materialized (unopened.impossible sound identities _ _ _)
  | ok session =>
      have opened := opens.runOn ran
      obtain ⟨layout, tableFile, indexFile, materialized, serves, tableHolds, indexHolds⟩ :=
        opened.files
      have soundLeft := opened.became.keepsSound sound
      obtain ⟨placements, shape, moved, faithful, laidOut, rfl⟩ :=
        materialized.index_overlaid apart
      have ofTable := records.ofTable
      refine ⟨session, left, layout, rfl, serves.layout, opened.new, ?_,
        fun block page onHeap => ?_, fun key => ?_⟩
      · exact (ofTable ▸ opened.recorded).get_of_sound soundLeft
      · exact Contents.page_of_some tableHolds (materialized.table_page onHeap)
      · exact Index.lookupPlaced_eq sound soundLeft moved faithful laidOut indexHolds key

/-- The table with two heap pages and an index of three is copied page by page. -/
theorem openTable_faithful_filled :
    ∃ session opened layout,
      (openTable smallCatalog 7 smallNames).runOn filledStore = (.ok session, opened) ∧
        ((smallCatalog.get 7).runOn opened).1 =
          .ok
            { smallRow .btree 3 with
              tableFile := session.tableRelation
              indexFile := session.indexRelation
              filled := true } ∧
        (contents opened).page session.tableRelation 0 =
          .ok ((Page.plain.grownBy [1, 2, 3]).setTag 0) ∧
        (contents opened).page session.tableRelation 1 =
          .ok ((Page.plain.grownBy [4, 5]).setTag 1) ∧
        ∀ key,
          ((Index.lookupPlaced layout session.indexRelation key).runOn opened).1 =
            ((Index.lookup 3 key).runOn filledStore).1 := by
  have sound : Sound filledStore := tableStore_sound
  have heap :
      contents filledStore 2 =
        some ⟨[Page.plain.grownBy [1, 2, 3], Page.plain.grownBy [4, 5]], Page.zero⟩ :=
    tableStore_heap
  have gets : ((smallCatalog.get 7).runOn filledStore).1 = .ok (smallRow .btree 3) :=
    filledTable_get _ _ _ _
  have measured : ((Index.measure 3).runOn filledStore).1 = .ok ⟨[2], 0⟩ := filledTable_measure
  obtain ⟨session, opened, layout, opens, -, -, noted, copied, found⟩ :=
    openTable_faithful sound (Nat.le_trans (by decide) tableStore_room)
      (tableStore_inUse (by decide)) (runOn_eq_of_outcome gets) (by decide) (by decide)
      (by decide) (runOn_eq_of_outcome measured)
      (Index.innerItemsApart_linkedIndex filledTable_index) (by decide) heap (by decide)
      (fun _ => filledTable_acceptable filledStore_short) smallNames_ne
  -- Both pages are formatted, so both are stamped.
  have stamped :
      ∀ block record, record ∈ [[1, 2, 3], [4, 5]] →
        (contents filledStore).page 2 block = .ok (Page.plain.grownBy record) →
          (contents opened).page session.tableRelation block =
            .ok ((Page.plain.grownBy record).setTag block) := by
    intro block record among page
    have copy := copied block _ page
    rwa [(wellFormed_recordPage (filledStore_short record among)).isUnformatted] at copy
  exact
    ⟨session, opened, layout, opens, noted,
      stamped 0 [1, 2, 3] (by decide) (Contents.page_of_some heap rfl),
      stamped 1 [4, 5] (by decide) (Contents.page_of_some heap rfl), found⟩

end ObliviousStorage

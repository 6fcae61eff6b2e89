import ObliviousStorage.Proofs.Opening.Lockstep
import ObliviousStorage.Proofs.Opening.SmallTable

/-!
Contract: what opening a table lets on to someone who sees its transfers and its outcome.

Owns: `SourcesAlike`, stores in which the heap and the index of a row look alike; and that an
opening asks two such stores for the same transfers and ends with the same session or the same
fault.

Keys, the records that leaves point to, rows of the heap and free space are not looked at to
decide any of this.

Does not own: what a walk sees of an index.
-/

namespace ObliviousStorage

open Page StorageM StorageView

/-! ## Opening a table -/

/-- Blocks of the catalog look alike only if they are the same. -/
def Catalog.likeness (catalog : Catalog) : Likeness where
  Alike relation _ page other := relation = catalog.relation → page = other
  refl _ _ _ _ := rfl

/-- What the stores have to agree on of each block: everything in the catalog, the header in the
heap of the row, the outline in its index. Nothing elsewhere. -/
def Catalog.Row.likeness (row : Catalog.Row) (catalog : Catalog) : Likeness where
  Alike relation block page other :=
    (relation = catalog.relation → page = other) ∧
      (relation = row.heap → AgreesOn other page 0 headerSize) ∧
        (relation = row.index → Index.SameOutline block page other)
  refl _ block page :=
    ⟨fun _ => rfl, fun _ => agreesOn_refl page _ _, fun _ => .refl block page⟩

namespace Catalog.Row

variable
  {row : Row}
  {catalog : Catalog}
  (block : BlockNumber)
  (page other : Page)

theorem same_in_catalog (alike : (row.likeness catalog).Alike catalog.relation block page other) :
    page = other := alike.1 rfl

theorem header_in_heap (alike : (row.likeness catalog).Alike row.heap block page other) :
    AgreesOn other page 0 headerSize := alike.2.1 rfl

theorem outline_in_index (alike : (row.likeness catalog).Alike row.index block page other) :
    Index.SameOutline block page other := alike.2.2 rfl

end Catalog.Row

section Opening

variable
  {catalog : Catalog}
  {row : Catalog.Row}
  {start start' left right : Traced MemoryStorage}

theorem measureFitting_concurs
    (inStep : InStep (row.likeness catalog) start start' left right) :
    (measureFitting row).Concur (measureFitting row) Eq
      (InStep (row.likeness catalog) start start') left right := by
  refine concur_bind (Index.measure_concurs inStep Catalog.Row.outline_in_index) ?_
  intro profile _ _ _ _ same inStep
  rw [← same]
  refine concur_check_bind inStep fun _ _ => ?_
  refine concur_bind (inStep.blockCount row.heap) ?_
  intro count _ _ _ _ same inStep
  rw [← same]
  refine concur_check_bind inStep fun _ _ => ?_
  exact concur_pure rfl inStep

/-- The files of a session that are not there yet are looked at by nobody. -/
theorem unseen_of_new
    {held : Contents}
    {session : Session}
    {relation : RelationId}
    (catalogThere : ∃ found, held catalog.relation = some found)
    (heapThere : ∃ found, held row.heap = some found)
    (indexThere : ∃ found, held row.index = some found)
    (new : session.NewTo held)
    (owned : session.Owns relation)
    (block : BlockNumber)
    (page other : Page) :
    (row.likeness catalog).Alike relation block page other := by
  have missing : held relation = none := by
    obtain ⟨role, rfl⟩ := owned
    cases role with
    | table => exact new.table
    | index => exact new.index
  have different :
      ∀ another, (∃ found, held another = some found) → relation ≠ another := by
    rintro another ⟨found, present⟩ rfl
    simp [missing] at present
  exact
    ⟨fun same => absurd same (different _ catalogThere),
      fun same => absurd same (different _ heapThere),
      fun same => absurd same (different _ indexThere)⟩

/-- Copying the heap and the index into files that nobody looks at. -/
theorem copySources_concurs
    {gateway : Gateway}
    (inStep : InStep (row.likeness catalog) start start' left right)
    (unseen :
      ∀ relation, gateway.session.Owns relation →
        ∀ block page other, (row.likeness catalog).Alike relation block page other)
    (session : Session) :
    (do
        let _ ← Heap.copy row.heap gateway.target
        Index.relocate row.index gateway.target
        return session : StorageM (Traced MemoryStorage) Session).Concur
      (do
        let _ ← Heap.copy row.heap gateway.target
        Index.relocate row.index gateway.target
        return session)
      Eq (InStep (row.likeness catalog) start start') left right := by
  refine concur_bind (Heap.copy_concurs inStep Catalog.Row.header_in_heap ?_) ?_
  · exact fun page other block _ _ inStep =>
      Gateway.addHeapPage_concurs unseen inStep page other block
  · intro _ _ _ _ _ _ inStep
    refine concur_bind (Index.relocate_concurs inStep Catalog.Row.outline_in_index ?_) ?_
    · exact fun page other offset depth _ _ inStep =>
        Gateway.addIndexPage_concurs unseen inStep page other offset depth
    · exact fun _ _ _ _ _ _ inStep => concur_pure rfl inStep

theorem createFilled_concurs
    (inStep : InStep (row.likeness catalog) start start' left right)
    (catalogThere : ∃ found, contents left catalog.relation = some found)
    (method : Catalog.AccessMethod)
    (names : FileNames) :
    (createFilled row method names).Concur (createFilled row method names) Eq
      (InStep (row.likeness catalog) start start') left right := by
  refine concur_bind (measureFitting_concurs inStep) ?_
  intro profile _ measured _ measures same inStep
  rw [← same]
  obtain ⟨fitting, became⟩ := (measureFitting_yields row left).runOn measures
  refine concur_bind (createFiles_concurs inStep method profile names) ?_
  intro session _ created _ creates same inStep
  rw [← same]
  obtain ⟨-, new, -⟩ :=
    (createFiles_yields method profile names measured fitting.levels_lt).runOn creates
  rw [became.holds] at new
  have heapThere : ∃ found, contents left row.heap = some found := by
    obtain ⟨heap, present, -⟩ := fitting.heapFits
    exact ⟨heap, present⟩
  have unseen :
      ∀ relation, session.Owns relation →
        ∀ block page other, (row.likeness catalog).Alike relation block page other :=
    fun _ => unseen_of_new catalogThere heapThere fitting.index_present new
  refine concur_bind (fillFiles_concurs inStep session row) ?_
  rintro ⟨_, gateway⟩ ⟨_, _⟩ _ _ _ ⟨rfl, sessionIs⟩ inStep
  exact copySources_concurs inStep (sessionIs ▸ unseen) session

theorem materialize_concurs
    (inStep : InStep (row.likeness catalog) start start' left right)
    (catalogThere : ∃ found, contents left catalog.relation = some found)
    (method : Catalog.AccessMethod)
    (names : FileNames) :
    (materialize catalog row method names).Concur (materialize catalog row method names) Eq
      (InStep (row.likeness catalog) start start') left right := by
  refine concur_bind (createFilled_concurs inStep catalogThere method names) ?_
  intro session _ _ _ _ same inStep
  rw [← same]
  refine concur_bind (Catalog.update_concurs inStep Catalog.Row.same_in_catalog row.table _) ?_
  intro _ _ _ _ _ _ inStep
  refine concur_bind (Catalog.update_concurs inStep Catalog.Row.same_in_catalog row.table _) ?_
  intro _ _ _ _ _ _ inStep
  exact concur_pure rfl inStep

end Opening

/-! ## What is let on -/

/-- Two stores in which the heap and the index of a row look alike. -/
structure SourcesAlike (row : Catalog.Row) (store other : MemoryStorage) : Prop where
  heap :
    ∀ block page image,
      store.page row.heap block = .ok page → other.page row.heap block = .ok image →
        AgreesOn image page 0 headerSize
  index :
    ∀ block page image,
      store.page row.index block = .ok page → other.page row.index block = .ok image →
        Index.SameOutline block page image

section Disclosure

variable
  {catalog : Catalog}
  {table : RelationId}
  {store other : MemoryStorage}

theorem page_eq_of_blocks
    {relation : RelationId}
    {block : BlockNumber}
    {page image : Page}
    (same : store.blocks? relation = other.blocks? relation)
    (found : store.page relation block = .ok page)
    (found' : other.page relation block = .ok image) :
    page = image := by
  obtain ⟨-, blocks, present, among⟩ := MemoryStorage.page_eq_ok_iff.mp found
  obtain ⟨-, images, present', among'⟩ := MemoryStorage.page_eq_ok_iff.mp found'
  obtain rfl := Option.some.inj (present.symm.trans (same.trans present'))
  exact Option.some.inj (among.symm.trans among')

/-- Stores of one shape with the same catalog. -/
theorem alike_of_catalog
    (shape : store.SameShape other)
    (sameCatalog : store.blocks? catalog.relation = other.blocks? catalog.relation) :
    store.Alike catalog.likeness other where
  shape := shape
  pages := by
    rintro relation block page image found found' rfl
    exact page_eq_of_blocks sameCatalog found found'

theorem alike_of_sources
    {row : Catalog.Row}
    (shape : store.SameShape other)
    (sameCatalog : store.blocks? catalog.relation = other.blocks? catalog.relation)
    (sources : SourcesAlike row store other) :
    store.Alike (row.likeness catalog) other where
  shape := shape
  pages := by
    intro relation block page image found found'
    refine ⟨?_, ?_, ?_⟩
    · rintro rfl
      exact page_eq_of_blocks sameCatalog found found'
    · rintro rfl
      exact sources.heap block page image found found'
    · rintro rfl
      exact sources.index block page image found found'

/-- Opening a table lets on nothing but shapes. On two stores that record their transfers, with
relations of the same identities and lengths and the same catalog, in which the index of the
table's row has pages of the same outlines and its heap pages of the same headers, it ends with
the same session or the same fault and asks for the same transfers in the same order. Keys, the
records that leaves point to, rows and free space may differ at will, pages may be malformed and
items may overlap. -/
theorem openTable_leaks_shape
    {left right : Traced MemoryStorage}
    (shape : left.inner.SameShape right.inner)
    (sameCatalog : left.inner.blocks? catalog.relation = right.inner.blocks? catalog.relation)
    (sources :
      ∀ row, ((catalog.get table).runOn left).1 = .ok row →
        SourcesAlike row left.inner right.inner)
    (names : FileNames) :
    ((openTable catalog table names).runOn left).1 =
        ((openTable catalog table names).runOn right).1 ∧
      ∃ transfers,
        ((openTable catalog table names).runOn left).2.trace.toList =
            left.trace.toList ++ transfers ∧
          ((openTable catalog table names).runOn right).2.trace.toList =
            right.trace.toList ++ transfers := by
  cases found : ((catalog.get table).runOn left).1 with
  | error fault =>
      have inStep : InStep catalog.likeness left right left right :=
        .of_alike (alike_of_catalog shape sameCatalog)
      have opens :
          (openTable catalog table names).Concur (openTable catalog table names) Eq
            (InStep catalog.likeness left right) left right := by
        refine concur_bind (Catalog.get_concurs inStep (fun _ _ _ alike => alike rfl) table) ?_
        intro row _ between _ gets _ _
        rw [gets] at found
        exact absurd found (by simp)
      exact ⟨opens.1.eq, opens.2.transfers⟩
  | ok row =>
      have inStep : InStep (row.likeness catalog) left right left right :=
        .of_alike (alike_of_sources shape sameCatalog (sources row found))
      have opens :
          (openTable catalog table names).Concur (openTable catalog table names) Eq
            (InStep (row.likeness catalog) left right) left right := by
        refine concur_bind (Catalog.get_concurs inStep Catalog.Row.same_in_catalog table) ?_
        intro another _ between _ gets same inStep
        rw [← same]
        obtain rfl : another = row := by
          rw [gets] at found
          exact Except.ok.inj found
        have catalogThere : ∃ relation, contents between catalog.relation = some relation := by
          rw [(catalog.get_keeps table left).runOn gets]
          exact Catalog.get_present gets
        refine concur_check_bind inStep fun status _ => ?_
        split
        · exact concur_lift (.of_eq rfl) inStep
        · exact materialize_concurs inStep catalogThere _ names
        · exact concur_throw inStep
      exact ⟨opens.1.eq, opens.2.transfers⟩

/-! ## Filled tables -/

/-- Two leaves that differ in the entry put on last have the same outline. -/
theorem sameOutline_of_last
    {page : Page}
    {trailer : Index.Trailer}
    {entries : List Index.Entry}
    (built : Index.BuiltOf page trailer entries)
    (room :
      (entries.length + 1) * (slotSize + Index.Entry.size) ≤
        blockSize - headerSize - Index.Trailer.size)
    (leaf : trailer.isLeaf = true ∧ trailer.isMeta = false)
    (block : BlockNumber)
    (entry another : Index.Entry) :
    Index.SameOutline block (page.grownBy entry.toBytes) (page.grownBy another.toBytes) := by
  have grown := (built.append entry room).2
  have count : (page.grownBy entry.toBytes).slotCount = entries.length + 1 := by
    rw [grown.slotCount, List.length_append, List.length_singleton]
  obtain ⟨wellFormed, start, -⟩ := Index.Trailer.read_eq_ok_iff.mp grown.read
  have lower := wellFormed.lower_eq
  have upper := built.upper
  have lengths : another.toBytes.length = entry.toBytes.length := by
    rw [Index.Entry.length_toBytes, Index.Entry.length_toBytes]
  have body : aligned another.toBytes.length = Index.Entry.size := by
    rw [Index.Entry.length_toBytes]
    rfl
  rw [count] at lower
  -- Between the slot directory and the trailer they may differ, and nowhere else.
  have agrees :
      ∀ position,
        position < (page.grownBy entry.toBytes).lower ∨
            blockSize - Index.Trailer.size ≤ position →
          (page.grownBy another.toBytes).byte position =
            (page.grownBy entry.toBytes).byte position := by
    intro position outside
    apply byte_grownBy_congr lengths
    rw [body, Index.Entry.length_toBytes]
    rw [lower] at outside
    simp only [slotSize, headerSize, Index.Entry.size, Index.Trailer.size, blockSize] at *
    omega
  have ownTrailer :
      ∀ found, Index.Trailer.read (page.grownBy entry.toBytes) = .ok found → found = trailer :=
    fun found read => Except.ok.inj (read.symm.trans grown.read)
  exact
    { header := fun position _ below => agrees position (Or.inl (by omega))
      directory := fun _ position _ below => agrees position (Or.inl below)
      trailer := fun position above _ => agrees position (Or.inr (start ▸ above))
      metapage := by
        intro _ found read role
        rw [ownTrailer found read, leaf.2] at role
        exact absurd role (by simp)
      links := by
        intro inner
        obtain ⟨found, read, role, -⟩ := inner
        rw [ownTrailer found read, leaf.1] at role
        exact absurd role (by simp) }

section FilledTables

variable
  {row : Catalog.Row}
  {records others : List (List UInt8)}
  {low high otherLow otherHigh : Index.Entry}

theorem tableStore_shape
    {heap index otherHeap otherIndex : List Page}
    (heaps : heap.length = otherHeap.length)
    (indexes : index.length = otherIndex.length) :
    (tableStore row heap index).SameShape (tableStore row otherHeap otherIndex) :=
  .of_sizes rfl (by simp [tableStore, heaps, indexes])

theorem filledTable_shape (counts : records.length = others.length) :
    (filledTable row records low high).SameShape (filledTable row others otherLow otherHigh) :=
  tableStore_shape (by rw [List.length_map, List.length_map, counts])
    (by rw [Index.length_linkedIndex, Index.length_linkedIndex])

theorem filledTable_catalog :
    (filledTable row records low high).blocks? smallCatalog.relation =
      (filledTable row others otherLow otherHigh).blocks? smallCatalog.relation :=
  tableStore_blocks.trans tableStore_blocks.symm

/-- Short records of one length lead to the same header. -/
theorem recordPages_header
    {record other : List UInt8}
    (short : record.length ≤ 64)
    (lengths : other.length = record.length) :
    AgreesOn (Page.plain.grownBy other) (Page.plain.grownBy record) 0 headerSize := by
  intro position _ below
  apply byte_grownBy_congr lengths
  rw [Catalog.RowPage.plain.upper, lengths]
  simp only [aligned, alignment, headerSize, blockSize, List.length_nil] at below ⊢
  omega

theorem linkedIndex_sameOutline
    {block : BlockNumber}
    {page image : Page}
    (found : (Index.linkedIndex low high)[block.toNat]? = some page)
    (found' : (Index.linkedIndex otherLow otherHigh)[block.toNat]? = some image) :
    Index.SameOutline block page image := by
  rw [Index.linkedIndex, Index.twoLevelIndex] at found found'
  have room : 2 * (slotSize + Index.Entry.size) ≤ blockSize - headerSize - Index.Trailer.size := by
    decide
  rcases placed : block.toNat with _ | _ | _ | _ | later
  · simp only [placed, List.getElem?_cons_zero, Option.some.injEq] at found found'
    rw [← found, ← found']
    exact .refl block _
  · simp only [placed, List.getElem?_cons_succ, List.getElem?_cons_zero,
      Option.some.injEq] at found found'
    rw [← found, ← found']
    exact .refl block _
  · simp only [placed, List.getElem?_cons_succ, List.getElem?_cons_zero,
      Option.some.injEq] at found found'
    rw [← found, ← found', Index.leftLeaf_eq, Index.leftLeaf_eq]
    exact sameOutline_of_last (Index.builtOf_rightLeaf _ _) room (by decide) block low otherLow
  · simp only [placed, List.getElem?_cons_succ, List.getElem?_cons_zero,
      Option.some.injEq] at found found'
    rw [← found, ← found', Index.rightLeaf_eq, Index.rightLeaf_eq]
    exact
      sameOutline_of_last (Index.builtOf_emptyPage _) (Nat.le_trans (by decide) room)
        (by decide) block high otherHigh
  · rw [placed] at found
    simp at found

theorem filledTable_sources
    (heap : row.heap = 2)
    (index : row.index = 3)
    (short : ∀ record ∈ records, record.length ≤ 64)
    (lengths : others.map List.length = records.map List.length) :
    SourcesAlike row (filledTable row records low high)
      (filledTable row others otherLow otherHigh) where
  heap := by
    intro block page image found found'
    rw [heap, MemoryStorage.page_eq rfl] at found found'
    obtain ⟨pages, present, among⟩ := Contents.page_eq_ok_iff.mp found
    obtain ⟨images, present', among'⟩ := Contents.page_eq_ok_iff.mp found'
    obtain rfl := Option.some.inj (tableStore_heap.symm.trans present)
    obtain rfl := Option.some.inj (tableStore_heap.symm.trans present')
    rw [List.getElem?_map, Option.map_eq_some_iff] at among among'
    obtain ⟨record, ofRecord, rfl⟩ := among
    obtain ⟨other, ofOther, rfl⟩ := among'
    have same := congrArg (fun counts => counts[block.toNat]?) lengths
    simp only [List.getElem?_map, ofRecord, ofOther, Option.map_some, Option.some.injEq] at same
    exact recordPages_header (short record (List.mem_of_getElem? ofRecord)) same
  index := by
    intro block page image found found'
    rw [index, MemoryStorage.page_eq rfl] at found found'
    obtain ⟨pages, present, among⟩ := Contents.page_eq_ok_iff.mp found
    obtain ⟨images, present', among'⟩ := Contents.page_eq_ok_iff.mp found'
    obtain rfl := Option.some.inj (tableStore_index.symm.trans present)
    obtain rfl := Option.some.inj (tableStore_index.symm.trans present')
    exact linkedIndex_sameOutline among among'

end FilledTables

/-- A table of the same shape with other keys and records. -/
def alikeStore : MemoryStorage :=
  filledTable (smallRow .btree 3) [[6, 7, 8], [9, 9]] ⟨2, 1, 1⟩ ⟨40, 0, 1⟩

/-- Two filled tables that hold different keys and records are opened with the same session and
the same transfers. -/
theorem openTable_leaks_shape_filled :
    ∃ session,
      ((openTable smallCatalog 7 smallNames).runOn (Traced.fresh filledStore)).1 = .ok session ∧
        ((openTable smallCatalog 7 smallNames).runOn (Traced.fresh alikeStore)).1 = .ok session ∧
          ((openTable smallCatalog 7 smallNames).runOn (Traced.fresh filledStore)).2.trace =
            ((openTable smallCatalog 7 smallNames).runOn (Traced.fresh alikeStore)).2.trace := by
  have shape : filledStore.SameShape alikeStore := filledTable_shape rfl
  have sameCatalog :
      filledStore.blocks? smallCatalog.relation = alikeStore.blocks? smallCatalog.relation :=
    filledTable_catalog
  have sound : Sound (Traced.fresh filledStore) := Traced.sound_fresh tableStore_sound
  have records :
      smallCatalog.Records (contents (Traced.fresh filledStore)) 7 (smallRow .btree 3) :=
    tableStore_records
  have sources :
      ∀ row,
        ((smallCatalog.get 7).runOn (Traced.fresh filledStore)).1 = .ok row →
          SourcesAlike row filledStore alikeStore := by
    intro row gets
    rw [records.get_of_sound sound, Except.ok.injEq] at gets
    rw [← gets]
    exact filledTable_sources rfl rfl filledStore_short (by decide)
  have present :
      contents (Traced.fresh filledStore) 3 =
        some ⟨Index.linkedIndex ⟨5, 0, 1⟩ ⟨12, 1, 1⟩, Page.zero⟩ :=
    filledTable_index
  obtain ⟨session, opens⟩ :
      ∃ session,
        ((openTable smallCatalog 7 smallNames).runOn (Traced.fresh filledStore)).1 =
          .ok session :=
    openTable_of_tableStore rfl sound (Nat.le_trans (by decide) tableStore_room) rfl
      (Index.linkedLeaves_linkedIndex present).wholeTrail
      (Index.innerItemsApart_linkedIndex present) (by decide) (by decide)
      fun _ => filledTable_acceptable filledStore_short
  have shapeTraced :
      (Traced.fresh filledStore).inner.SameShape (Traced.fresh alikeStore).inner := shape
  obtain ⟨same, transfers, here, there⟩ :=
    openTable_leaks_shape shapeTraced sameCatalog sources smallNames
  have untouched : ∀ store : MemoryStorage, (Traced.fresh store).trace = #[] := fun _ => rfl
  rw [untouched] at here there
  exact ⟨session, opens, same.symm.trans opens, Array.toList_inj.mp (here.trans there.symm)⟩

end Disclosure

end ObliviousStorage

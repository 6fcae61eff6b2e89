import ObliviousStorage.Proofs.Index.Smallest
import ObliviousStorage.Proofs.Index.TwoLevels
import ObliviousStorage.Proofs.Opening.FirstOpening

/-!
Contract: tables on a store in memory: a catalog with one row, a heap and an index.

Owns: that the catalog of such a store is in use and records the row; small tables, of a heap of
one block and an index of one entry, and filled ones, of a heap with a record on each page and an
index of two levels; and that a table can be opened if its row declares room for its blocks.

Does not own: indexes of more levels.
-/

namespace ObliviousStorage

open Page StorageM StorageView

/-- The catalog of a small table. -/
def smallCatalog : Catalog := ⟨1⟩

/-- A store with a table. Its catalog is relation 1, its heap relation 2 and its index
relation 3. -/
def tableStore (row : Catalog.Row) (heap index : List Page) : MemoryStorage :=
  ⟨blockSize, #[#[Page.plain.grownBy row.toBytes], heap.toArray, index.toArray]⟩

section Tables

variable
  {row : Catalog.Row}
  {heap index : List Page}

theorem tableStore_catalog :
    contents (tableStore row heap index) 1 =
      some ⟨[Page.plain.grownBy row.toBytes], Page.zero⟩ := rfl

theorem tableStore_blocks :
    (tableStore row heap index).blocks? smallCatalog.relation =
      some #[Page.plain.grownBy row.toBytes] := rfl

theorem tableStore_heap : contents (tableStore row heap index) 2 = some ⟨heap, Page.zero⟩ := rfl

theorem tableStore_index : contents (tableStore row heap index) 3 = some ⟨index, Page.zero⟩ := rfl

theorem tableStore_sound : Sound (tableStore row heap index) := rfl

theorem tableStore_room : 4 ≤ room (tableStore row heap index) := by
  show 4 ≤ blockNumberBound - 2 - 3
  decide

/-- A row is added to an empty page as its only one. -/
theorem rowPage_grownBy (row : Catalog.Row) :
    Page.plain.append row.toBytes = .ok (1, Page.plain.grownBy row.toBytes) ∧
      Catalog.RowPage (Page.plain.grownBy row.toBytes) [row] := by
  obtain ⟨grown, appends, rowPage⟩ := Catalog.RowPage.plain.append Catalog.hasRoom_plain row
  have fits :
      Page.plain.lower + slotSize + aligned row.toBytes.length ≤ Page.plain.upper := by
    rw [Catalog.RowPage.plain.lower, Catalog.RowPage.plain.upper, Catalog.Row.length_toBytes]
    decide
  have same := append_eq Catalog.RowPage.plain.wellFormed fits
  rw [Catalog.RowPage.plain.slotCount] at same
  obtain rfl := (Prod.mk.inj (Except.ok.inj (appends.symm.trans same))).2
  exact ⟨same, rowPage⟩

theorem tableStore_inUse (named : row.table ≠ noRelation) :
    smallCatalog.Filled (tableStore row heap index) := by
  have created :
      smallCatalog.Filled (⟨blockSize, #[#[]]⟩ : MemoryStorage) :=
    .created (show Catalog.create.runOn MemoryStorage.empty = _ from rfl)
  have inserts :
      (smallCatalog.insert row).runOn (⟨blockSize, #[#[]]⟩ : MemoryStorage) =
        (.ok (), ⟨blockSize, #[#[Page.plain.grownBy row.toBytes]]⟩) := by
    have located :
        (smallCatalog.locate row.table).runOn (⟨blockSize, #[#[]]⟩ : MemoryStorage) =
          (.ok none, ⟨blockSize, #[#[]]⟩) := rfl
    have counted :
        (Storage.blockCount smallCatalog.relation).runOn (⟨blockSize, #[#[]]⟩ : MemoryStorage) =
          (.ok 0, ⟨blockSize, #[#[]]⟩) := rfl
    have appended :
        (smallCatalog.insertInNewBlock row).runOn (⟨blockSize, #[#[]]⟩ : MemoryStorage) =
          (.ok (), ⟨blockSize, #[#[Page.plain.grownBy row.toBytes]]⟩) := by
      rw [Catalog.insertInNewBlock, (rowPage_grownBy row).1]
      rfl
    rw [Catalog.insert, require, if_pos named, Catalog.append]
    simp only [runOn_bind, runOn_lift, located, counted, require, ↓reduceIte, appended]
  exact .elsewhere (.inserted created inserts) rfl

theorem tableStore_listed (row : Catalog.Row) :
    Catalog.Listed ⟨[Page.plain.grownBy row.toBytes], Page.zero⟩ [[row]] :=
  ⟨.cons (Or.inr (rowPage_grownBy row).2) .nil, rfl⟩

theorem tableStore_records :
    smallCatalog.Records (contents (tableStore row heap index)) row.table row := by
  have first : Catalog.FirstIn [row] row.table 0 row :=
    ⟨rfl, rfl, fun _ _ below => absurd below (Nat.not_lt_zero _)⟩
  exact
    ⟨_, [[row]], 0, 0, tableStore_catalog, (by decide : 1 < blockNumberBound),
      tableStore_listed row, ⟨[row], rfl, first⟩,
      fun _ _ below => absurd below (Nat.not_lt_zero _)⟩

/-- Looking the row up finds it and changes nothing. -/
theorem tableStore_gets (row : Catalog.Row) (heap index : List Page) :
    (smallCatalog.get row.table).Yields (tableStore row heap index) fun outcome left =>
      outcome = .ok row ∧
        Became (tableStore row heap index) left (contents (tableStore row heap index)) 0 := by
  have records : smallCatalog.Records (contents (tableStore row heap index)) row.table row :=
    tableStore_records
  have sound : Sound (tableStore row heap index) := tableStore_sound
  -- What the store holds must not be unfolded below.
  generalize tableStore row heap index = state at *
  apply records.get_yields.weaken
  intro outcome left found
  cases outcome with
  | error fault => exact absurd sound found.2
  | ok other => exact ⟨by rw [found.1], found.2⟩

theorem tableStore_get (row : Catalog.Row) (heap index : List Page) :
    ((smallCatalog.get row.table).runOn (tableStore row heap index)).1 = .ok row :=
  (tableStore_gets row heap index).1

/-- The row of a table that declares the same number of blocks for both files. -/
def smallRow (method : Catalog.AccessMethod) (blocks : Int32) : Catalog.Row :=
  ⟨7, 2, 3, some method, blocks, blocks, noRelation, noRelation, false⟩

def smallNames : FileNames := ⟨"obliv_table", "obliv_index"⟩

theorem smallNames_ne : smallNames.tableFile ≠ smallNames.indexFile := by
  decide

/-- A table can be opened on any sound store that holds it. -/
theorem openTable_of_tableStore
    {σ : Type}
    [Storage σ]
    [LawfulStorage σ]
    {state : σ}
    {method : Catalog.AccessMethod}
    {blocks : Int32}
    {profile : Index.Profile}
    (holds : contents state = contents (tableStore (smallRow method blocks) heap index))
    (sound : Sound state)
    (identities : 2 ≤ room state)
    (pending : (smallRow method blocks).status = .ok .pending)
    (measured :
      ∃ placements, Index.WholeTrail (Index.Held (contents state) 3) .measure placements profile)
    (apart : Index.InnerItemsApart (contents state) 3)
    (indexFits : profile.size ≤ declaredBlocks blocks)
    (heapFits : heap.length ≤ declaredBlocks blocks)
    (acceptable : ∀ page ∈ heap, Gateway.Acceptable page) :
    ∃ session, ((openTable smallCatalog 7 smallNames).runOn state).1 = .ok session := by
  have records : smallCatalog.Records (contents state) 7 (smallRow method blocks) :=
    holds ▸ tableStore_records
  have present : contents state 2 = some ⟨heap, Page.zero⟩ := holds ▸ tableStore_heap
  have fitting : Fitting (contents state) (smallRow method blocks) profile :=
    { measured
      indexFits
      heapFits := ⟨⟨heap, Page.zero⟩, present, heapFits⟩ }
  have elsewhere : (2 : RelationId) ≠ smallCatalog.relation ∧ 3 ≠ smallCatalog.relation := by
    decide
  exact
    (openTable_succeeds_iff sound identities records pending rfl elsewhere.1 elsewhere.2
      smallNames).mpr
      (exists_materialized fitting apart present acceptable smallNames_ne method)

end Tables

/-! ## Small tables -/

/-- A store with a small table. -/
def smallTable (row : Catalog.Row) (entry : Index.Entry) : MemoryStorage :=
  tableStore row [Page.plain] (Index.smallestIndex entry)

section SmallTable

variable
  {row : Catalog.Row}
  {entry : Index.Entry}

theorem smallTable_index :
    contents (smallTable row entry) 3 = some ⟨Index.smallestIndex entry, Page.zero⟩ := rfl

theorem smallTable_gets (row : Catalog.Row) (entry : Index.Entry) :
    (smallCatalog.get row.table).Yields (smallTable row entry) fun outcome left =>
      outcome = .ok row ∧
        Became (smallTable row entry) left (contents (smallTable row entry)) 0 :=
  tableStore_gets row _ _

theorem smallTable_acceptable {page : Page} (member : page ∈ [Page.plain]) :
    Gateway.Acceptable page := by
  rw [List.mem_singleton.mp member]
  exact Or.inr Catalog.RowPage.plain.wellFormed

/-- A small table can be opened on any sound store that holds it. -/
theorem openTable_of_smallTable
    {σ : Type}
    [Storage σ]
    [LawfulStorage σ]
    {state : σ}
    {method : Catalog.AccessMethod}
    {blocks : Int32}
    (holds : contents state = contents (smallTable (smallRow method blocks) entry))
    (sound : Sound state)
    (identities : 2 ≤ room state)
    (pending : (smallRow method blocks).status = .ok .pending)
    (declared : 1 ≤ declaredBlocks blocks) :
    ∃ session, ((openTable smallCatalog 7 smallNames).runOn state).1 = .ok session := by
  have present : contents state 3 = some ⟨Index.smallestIndex entry, Page.zero⟩ :=
    holds ▸ smallTable_index
  exact
    openTable_of_tableStore holds sound identities pending (Index.wholeTrail_smallest present)
      (Index.innerItemsApart_smallest present) declared declared fun _ => smallTable_acceptable

theorem smallTable_opens
    {method : Catalog.AccessMethod}
    {blocks : Int32}
    (pending : (smallRow method blocks).status = .ok .pending)
    (declared : 1 ≤ declaredBlocks blocks)
    (entry : Index.Entry) :
    ∃ session,
      ((openTable smallCatalog 7 smallNames).runOn (smallTable (smallRow method blocks) entry)).1 =
        .ok session :=
  openTable_of_smallTable rfl tableStore_sound (Nat.le_trans (by decide) tableStore_room) pending
    declared

/-- A small table whose row declares two blocks for each file. -/
def smallStore : MemoryStorage := smallTable (smallRow .btree 2) ⟨5, 0, 1⟩

theorem smallStore_index :
    contents smallStore 3 = some ⟨Index.smallestIndex ⟨5, 0, 1⟩, Page.zero⟩ := rfl

end SmallTable

/-! ## Filled tables -/

/-- A store with a table whose heap has a page for each of these records, and whose index has two
levels. -/
def filledTable
    (row : Catalog.Row)
    (records : List (List UInt8))
    (low high : Index.Entry) : MemoryStorage :=
  tableStore row (records.map Page.plain.grownBy) (Index.linkedIndex low high)

section FilledTable

variable
  {row : Catalog.Row}
  {records : List (List UInt8)}
  {low high : Index.Entry}

theorem filledTable_index :
    contents (filledTable row records low high) 3 =
      some ⟨Index.linkedIndex low high, Page.zero⟩ := rfl

theorem filledTable_get
    (row : Catalog.Row)
    (records : List (List UInt8))
    (low high : Index.Entry) :
    ((smallCatalog.get row.table).runOn (filledTable row records low high)).1 = .ok row :=
  tableStore_get row _ _

/-- The shape of the index is that of a root with two leaves. -/
theorem filledTable_measure :
    ((Index.measure 3).runOn (filledTable row records low high)).1 = .ok ⟨[2], 0⟩ := by
  have present : contents (filledTable row records low high) 3 = _ := filledTable_index
  obtain ⟨placements, whole⟩ := (Index.linkedLeaves_linkedIndex present).wholeTrail
  exact Index.measure_of_whole tableStore_sound whole

/-- A page on which a short record was put. -/
theorem wellFormed_recordPage {record : List UInt8} (short : record.length ≤ 64) :
    (Page.plain.grownBy record).WellFormed := by
  have plain := Catalog.RowPage.plain
  have fits : Page.plain.lower + slotSize + aligned record.length ≤ Page.plain.upper := by
    rw [plain.lower, plain.upper]
    simp only [aligned, alignment, headerSize, slotSize, blockSize, List.length_nil]
    omega
  exact (appended_grownBy plain.wellFormed fits).wellFormed plain.wellFormed fits

theorem filledTable_acceptable
    (short : ∀ record ∈ records, record.length ≤ 64)
    {page : Page}
    (member : page ∈ records.map Page.plain.grownBy) :
    Gateway.Acceptable page := by
  obtain ⟨record, among, rfl⟩ := List.mem_map.mp member
  exact Or.inr (wellFormed_recordPage (short record among))

end FilledTable

/-- A table of two heap pages and an index of three, whose row declares three blocks for each
file. -/
def filledStore : MemoryStorage :=
  filledTable (smallRow .btree 3) [[1, 2, 3], [4, 5]] ⟨5, 0, 1⟩ ⟨12, 1, 1⟩

theorem filledStore_short :
    ∀ record ∈ ([[1, 2, 3], [4, 5]] : List (List UInt8)), record.length ≤ 64 := by
  decide

end ObliviousStorage

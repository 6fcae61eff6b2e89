import ObliviousStorage.Proofs.Catalog.Searches
import ObliviousStorage.Proofs.Index.Entries

/-!
Contract: what a search finds in a catalog of any rows.

Owns: `RowsOnly`, the pages that hold nothing but items as long as a row, whatever these encode;
`FirstRow`, the first row of a table on such pages; and that a search finds it.

Does not own: which rows the catalog writes.
-/

namespace ObliviousStorage.Catalog

open Page StorageM StorageView

/-! ## Pages of rows -/

/-- A row of a page, as it is encoded there. -/
def RowOn (page : Page) (slot : Nat) (bytes : List UInt8) : Prop :=
  page.isUnformatted = false ∧ page.item slot = .ok bytes

/-- A page that was never formatted, or one whose items are as long as rows and apart from each
other. What the rows say is left open. -/
structure RowsOnly (page : Page) : Prop where
  wellFormed : page.isUnformatted = false → page.WellFormed
  rows :
    page.isUnformatted = false → ∀ slot, 1 ≤ slot → slot ≤ page.slotCount →
      ∃ bytes, page.item slot = .ok bytes ∧ bytes.length = Row.size
  apart : page.isUnformatted = false → page.ItemsApart

/-- The table that an encoded row is about. -/
def tableOf (bytes : List UInt8) : RelationId := Row.columnRelation bytes 0

theorem slot_of_item
    {page : Page}
    {slot : Nat}
    {bytes : List UInt8}
    (item : page.item slot = .ok bytes) :
    1 ≤ slot ∧ slot ≤ page.slotCount := by
  obtain ⟨found, among, -⟩ := item_eq_ok_iff.mp item
  obtain ⟨-, first, last, -⟩ := slot_eq_ok_iff.mp among
  exact ⟨first, last⟩

theorem RowsOnly.length
    {page : Page}
    {slot : Nat}
    {bytes : List UInt8}
    (rowsOnly : RowsOnly page)
    (row : RowOn page slot bytes) :
    bytes.length = Row.size := by
  obtain ⟨formatted, item⟩ := row
  obtain ⟨first, last⟩ := slot_of_item item
  obtain ⟨other, same, long⟩ := rowsOnly.rows formatted slot first last
  obtain rfl := Except.ok.inj (item.symm.trans same)
  exact long

/-! ## Searching -/

/-- What the search of some slots of a page finds: the first row of the table, or none. -/
def FindsAmong
    (page : Page)
    (table : RelationId)
    (block : BlockNumber)
    (first last : Nat) : Option Located → Prop
  | some located =>
      ∃ bytes,
        located.block = block ∧ located.row = Row.decoded bytes ∧ first ≤ located.slot ∧
          page.item located.slot = .ok bytes ∧ tableOf bytes = table ∧
            ∀ slot other,
              first ≤ slot → slot < located.slot → page.item slot = .ok other →
                tableOf other ≠ table
  | none =>
      ∀ slot other,
        first ≤ slot → slot < last → page.item slot = .ok other → tableOf other ≠ table

theorem locateInPage_finds
    {page : Page}
    (table : RelationId)
    (block : BlockNumber)
    (count first : Nat)
    (rows :
      ∀ slot, first ≤ slot → slot < first + count →
        ∃ bytes, page.item slot = .ok bytes ∧ bytes.length = Row.size) :
    ∃ located,
      locateInPage page table block (List.range' first count) = .ok located ∧
        FindsAmong page table block first (first + count) located := by
  induction count generalizing first with
  | zero =>
      refine ⟨none, rfl, ?_⟩
      intro slot other from_ upTo
      omega
  | succ count inductionHypothesis =>
      obtain ⟨bytes, item, long⟩ := rows first (Nat.le_refl _) (by omega)
      have decodes : Row.ofBytes bytes = .ok (Row.decoded bytes) := by
        unfold Row.ofBytes
        rw [long]
        rfl
      rw [List.range'_succ, locateInPage, item]
      by_cases ofTable : tableOf bytes = table
      · refine ⟨some ⟨block, first, Row.decoded bytes⟩, ?_, ?_⟩
        · exact bind_eq_ok_iff.mpr ⟨_, rfl, bind_eq_ok_iff.mpr ⟨_, decodes, if_pos ofTable⟩⟩
        · refine ⟨bytes, rfl, rfl, Nat.le_refl _, item, ofTable, ?_⟩
          intro slot other from_ before
          exact absurd before (Nat.not_lt_of_le from_)
      · obtain ⟨located, finds, among⟩ :=
          inductionHypothesis (first + 1) fun slot from_ upTo => rows slot (by omega) (by omega)
        have here : ∀ other, page.item first = .ok other → tableOf other ≠ table := by
          intro other there
          rwa [← Except.ok.inj (item.symm.trans there)]
        refine ⟨located, ?_, ?_⟩
        · exact bind_eq_ok_iff.mpr
            ⟨_, rfl, bind_eq_ok_iff.mpr ⟨_, decodes, (if_neg ofTable).trans finds⟩⟩
        · cases located with
          | none =>
              intro slot other from_ upTo there
              rcases Nat.eq_or_lt_of_le from_ with rfl | later
              · exact here other there
              · exact among slot other later (by omega) there
          | some located =>
              obtain ⟨bytes, inBlock, row, from_, item, ofTable, before⟩ := among
              refine ⟨bytes, inBlock, row, by omega, item, ofTable, ?_⟩
              intro slot other from_ earlier there
              rcases Nat.eq_or_lt_of_le from_ with rfl | later
              · exact here other there
              · exact before slot other later earlier there

/-- What the search of a page finds: the first row of the table, or none. -/
def FindsOn (page : Page) (table : RelationId) (block : BlockNumber) : Option Located → Prop
  | some located =>
      ∃ bytes,
        located.block = block ∧ located.row = Row.decoded bytes ∧
          RowOn page located.slot bytes ∧ tableOf bytes = table ∧
            ∀ slot other,
              slot < located.slot → RowOn page slot other → tableOf other ≠ table
  | none => ∀ slot other, RowOn page slot other → tableOf other ≠ table

theorem locateOnPage_finds
    {page : Page}
    (rowsOnly : RowsOnly page)
    (table : RelationId)
    (block : BlockNumber) :
    ∃ located,
      locateOnPage page table block = .ok located ∧ FindsOn page table block located := by
  unfold locateOnPage
  cases formatted : page.isUnformatted with
  | true =>
      refine ⟨none, rfl, ?_⟩
      intro slot other row
      exact absurd (formatted.symm.trans row.1) (by decide)
  | false =>
      have verified := (verify_eq_ok_iff page).mpr (rowsOnly.wellFormed formatted)
      obtain ⟨located, finds, among⟩ :=
        locateInPage_finds table block page.slotCount 1 fun slot first last =>
          rowsOnly.rows formatted slot first (by omega)
      refine ⟨located, bind_eq_ok_iff.mpr ⟨_, verified, finds⟩, ?_⟩
      cases located with
      | none =>
          intro slot other row
          obtain ⟨first, last⟩ := slot_of_item row.2
          exact among slot other first (by omega) row.2
      | some located =>
          obtain ⟨bytes, inBlock, same, -, item, ofTable, before⟩ := among
          refine ⟨bytes, inBlock, same, ⟨formatted, item⟩, ofTable, ?_⟩
          intro slot other earlier row
          exact before slot other (slot_of_item row.2).1 earlier row.2

/-! ## Searching the relation -/

/-- A row of a relation, as it is encoded there. -/
def RowAt (relation : Relation) (block slot : Nat) (bytes : List UInt8) : Prop :=
  ∃ page, relation.pages[block]? = some page ∧ RowOn page slot bytes

/-- The first row of a table in the order of blocks and slots. -/
structure FirstRow
    (relation : Relation)
    (table : RelationId)
    (block slot : Nat)
    (bytes : List UInt8) : Prop where
  row : RowAt relation block slot bytes
  ofTable : tableOf bytes = table
  before :
    ∀ earlier number other, RowAt relation earlier number other →
      earlier < block ∨ earlier = block ∧ number < slot → tableOf other ≠ table

/-- No row is about the table. -/
def Lacks (relation : Relation) (table : RelationId) : Prop :=
  ∀ block slot bytes, RowAt relation block slot bytes → tableOf bytes ≠ table

section Searching

variable
  {σ : Type}
  [Storage σ]
  [LawfulStorage σ]
  {catalog : Catalog}
  {relation : Relation}
  {state : σ}

theorem searchable_of_rowsOnly
    (rowsOnly : ∀ page ∈ relation.pages, RowsOnly page)
    (table : RelationId) :
    Searchable relation table := by
  intro block page among
  obtain ⟨located, finds, -⟩ :=
    locateOnPage_finds (rowsOnly page (List.mem_of_getElem? among)) table (UInt32.ofNat block)
  exact ⟨located, finds⟩

theorem NoneBefore.rows
    {table : RelationId}
    {stop : Nat}
    (none : NoneBefore relation table stop)
    (rowsOnly : ∀ page ∈ relation.pages, RowsOnly page) :
    ∀ block slot bytes, block < stop → RowAt relation block slot bytes → tableOf bytes ≠ table := by
  rintro block slot bytes below ⟨page, among, row⟩
  obtain ⟨located, finds, onPage⟩ :=
    locateOnPage_finds (rowsOnly page (List.mem_of_getElem? among)) table (UInt32.ofNat block)
  obtain rfl := Except.ok.inj (finds.symm.trans (none block page below among))
  exact onPage slot bytes row

theorem ComesUpon.lacks
    {table : RelationId}
    (none : ComesUpon relation table none)
    (rowsOnly : ∀ page ∈ relation.pages, RowsOnly page) :
    Lacks relation table := by
  rintro block slot bytes ⟨page, among, row⟩
  have inside := (List.getElem?_eq_some_iff.mp among).1
  exact NoneBefore.rows none rowsOnly block slot bytes inside ⟨page, among, row⟩

/-- What the search comes upon is the first row of the table. -/
theorem ComesUpon.firstRow
    {table : RelationId}
    {located : Located}
    (comesUpon : ComesUpon relation table (some located))
    (rowsOnly : ∀ page ∈ relation.pages, RowsOnly page)
    (few : relation.pages.length < blockNumberBound) :
    ∃ bytes,
      located.row = Row.decoded bytes ∧
        FirstRow relation table located.block.toNat located.slot bytes := by
  obtain ⟨block, page, among, finds, before⟩ := comesUpon
  have inside := (List.getElem?_eq_some_iff.mp among).1
  obtain ⟨other, same, onPage⟩ :=
    locateOnPage_finds (rowsOnly page (List.mem_of_getElem? among)) table (UInt32.ofNat block)
  obtain rfl := Except.ok.inj (same.symm.trans finds)
  obtain ⟨bytes, inBlock, decodes, row, ofTable, earlierOn⟩ := onPage
  have place : located.block.toNat = block := by
    rw [inBlock]
    exact UInt32.toNat_ofNat_of_lt' (Nat.lt_trans inside few)
  refine ⟨bytes, decodes, ⟨page, by rw [place, among], row⟩, ofTable, ?_⟩
  rw [place]
  rintro earlier slot other there (below | ⟨rfl, below⟩)
  · exact before.rows rowsOnly earlier slot other below there
  · obtain ⟨again, amongAgain, otherRow⟩ := there
    obtain rfl := Option.some.inj (among.symm.trans amongAgain)
    exact earlierOn slot other below otherRow

/-- Why no row of a table was changed: there is none, or the store refused a call, which a sound
store does only if the relation has more blocks than there are numbers. -/
def NoneChanged (relation : Relation) (table : RelationId) (state : σ) (fault : Fault) : Prop :=
  fault = .notFound table ∧ Lacks relation table ∨ (Sound state → relation.FullFor 0)

theorem NoneChanged.lacks
    {table : RelationId}
    {fault : Fault}
    (none : NoneChanged relation table state fault)
    (sound : Sound state)
    (few : relation.pages.length < blockNumberBound) :
    Lacks relation table := by
  rcases none with ⟨-, lacks⟩ | refused
  · exact lacks
  · exact absurd (refused sound) (Nat.not_le_of_lt few)

theorem LeftAlone.noneChanged
    {table : RelationId}
    {fault : Fault}
    (alone : LeftAlone relation table state fault)
    (rowsOnly : ∀ page ∈ relation.pages, RowsOnly page) :
    NoneChanged relation table state fault := by
  rcases alone with ⟨missing, none⟩ | refused
  · exact Or.inl ⟨missing, none.lacks rowsOnly⟩
  · exact Or.inr refused

end Searching

end ObliviousStorage.Catalog

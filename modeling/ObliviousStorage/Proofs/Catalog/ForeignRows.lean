import ObliviousStorage.Proofs.Catalog.Columns
import ObliviousStorage.Proofs.Catalog.OpaqueRows
import ObliviousStorage.Proofs.Catalog.RowPages
import ObliviousStorage.Proofs.Page.RecordPages
import ObliviousStorage.Proofs.Storage.Lawful

/-!
Contract: changing a row in a catalog whose rows were not all written by it.

Owns: that noting something about a table changes the forty bytes of its first row and no others;
what becomes of the columns of this row; and a row that loses some of them.

Does not own: what the rows say about their tables.
-/

namespace ObliviousStorage.Catalog

open Page StorageM StorageView

/-! ## Replacing a row -/

/-- Two pages with the same bytes outside a slot's item. -/
def AgreesOutside (left right : Page) (found : Page.Slot) : Prop :=
  ∀ position,
    position < found.start ∨ found.start + found.length ≤ position →
      left.byte position = right.byte position

/-- What replacing a row changes of its page: the bytes of this row. -/
structure Replaced (page changed : Page) (slot : Nat) (old new : List UInt8) : Prop where
  old : RowOn page slot old
  new : RowOn changed slot new
  slots : ∀ number, changed.slot number = page.slot number
  items : ∀ number, number ≠ slot → changed.item number = page.item number
  bytes : ∀ found, page.slot slot = .ok found → AgreesOutside changed page found

section Replacing

variable
  {page changed : Page}
  {slot : Nat}
  {found : Page.Slot}
  {old new : List UInt8}

theorem directory_of_outside
    (among : page.slot slot = .ok found)
    (outside : AgreesOutside changed page found) :
    AgreesOn changed page 0 page.upper := by
  obtain ⟨-, -, -, -, above, -⟩ := slot_eq_ok_iff.mp among
  intro position _ below
  exact outside position (Or.inl (by omega))

/-- The row of a slot is replaced where no byte outside it changes. -/
theorem replaced_of_outside
    (formatted : page.isUnformatted = false)
    (apart : page.ItemsApart)
    (among : page.slot slot = .ok found)
    (outside : AgreesOutside changed page found) :
    Replaced page changed slot (page.slice found.start found.length)
      (changed.slice found.start found.length) := by
  obtain ⟨wellFormed, -⟩ := slot_eq_ok_iff.mp among
  have directory := directory_of_outside among outside
  have slots := slot_of_agreesOn_upper wellFormed directory
  have sameUpper :=
    upper_congr (directory.mono (Nat.le_refl 0) (Nat.le_trans wellFormed.1 wellFormed.2.1))
  constructor
  · exact ⟨formatted, item_eq_ok_iff.mpr ⟨found, among, rfl⟩⟩
  · refine ⟨?_, item_eq_ok_iff.mpr ⟨found, (slots slot).trans among, rfl⟩⟩
    rwa [isUnformatted, sameUpper]
  · exact slots
  · intro number different
    refine item_congr wellFormed (directory.mono (Nat.le_refl 0) wellFormed.2.1) ?_
    intro other there position from_ upTo
    apply outside position
    -- The byte lies in another item, so it is none of those that were replaced.
    by_contra within
    exact different
      (apart number slot other found position there among from_ upTo (by omega) (by omega))
  · intro other there
    obtain rfl := Except.ok.inj (among.symm.trans there)
    exact outside

/-- The page still holds rows only. -/
theorem Replaced.rowsOnly
    (replaced : Replaced page changed slot old new)
    (rowsOnly : RowsOnly page)
    (long : new.length = Row.size) :
    RowsOnly changed := by
  have formatted := replaced.old.1
  obtain ⟨found, among, -⟩ := item_eq_ok_iff.mp replaced.old.2
  obtain ⟨wellFormed, -⟩ := slot_eq_ok_iff.mp among
  have header : AgreesOn changed page 0 headerSize :=
    (directory_of_outside among (replaced.bytes found among)).mono (Nat.le_refl 0)
      (Nat.le_trans wellFormed.1 wellFormed.2.1)
  constructor
  · exact fun _ => (wellFormed_congr header).mpr wellFormed
  · intro _ number first last
    rw [slotCount_congr header] at last
    by_cases same : number = slot
    · exact ⟨new, same ▸ replaced.new.2, long⟩
    · rw [replaced.items number same]
      exact rowsOnly.rows formatted number first last
  · exact fun _ => (rowsOnly.apart formatted).congr replaced.slots

theorem replaceRow_spec
    (rowsOnly : RowsOnly page)
    (row : RowOn page slot old)
    (replacing : Row) :
    ∃ changed,
      replaceRow page slot replacing = .ok changed ∧
        Replaced page changed slot old replacing.toBytes := by
  have long := rowsOnly.length row
  obtain ⟨formatted, item⟩ := row
  obtain ⟨found, among, rfl⟩ := item_eq_ok_iff.mp item
  have width : found.length = Row.size := by simpa using long
  have covered : found.length = replacing.toBytes.length := by
    rw [Row.length_toBytes, width]
  obtain ⟨wellFormed, -, -, -, -, below⟩ := slot_eq_ok_iff.mp among
  have inside : found.start + replacing.toBytes.length ≤ blockSize := by
    have bound := wellFormed.2.2.2.1
    omega
  have outside : AgreesOutside (page.write found.start replacing.toBytes) page found := by
    intro position elsewhere
    rw [byte_write, if_neg (by omega)]
  have replaced := replaced_of_outside formatted (rowsOnly.apart formatted) among outside
  have written := slice_write page inside
  rw [← covered] at written
  rw [written] at replaced
  refine ⟨page.write found.start replacing.toBytes, ?_, replaced⟩
  simp only [replaceRow, among, bind, Except.bind, require, width, ↓reduceIte, overwrite, inside]

end Replacing

/-! ## Noting something about a table -/

section Noting

variable
  {σ : Type}
  [Storage σ]
  [LawfulStorage σ]
  {catalog : Catalog}
  {relation : Relation}
  {state : σ}

theorem update_replaces
    (present : contents state catalog.relation = some relation)
    (rowsOnly : ∀ page ∈ relation.pages, RowsOnly page)
    (table : RelationId)
    (change : Row → Row) :
    (catalog.update table change).Yields state
      (either
        (fun _ left =>
          ∃ block slot old page changed,
            FirstRow relation table block slot old ∧ relation.pages[block]? = some page ∧
              Replaced page changed slot old (change (Row.decoded old)).toBytes ∧
                Became state left
                  ((contents state).put catalog.relation (relation.overwritten block changed)) 0)
        fun fault left =>
          Became state left (contents state) 0 ∧ NoneChanged relation table state fault) := by
  have rewritten :
      ∀ located,
        relation.pages.length < blockNumberBound → ComesUpon relation table (some located) →
          ∃ page changed,
            Rewrites relation change located page changed ∧
              ∃ old,
                FirstRow relation table located.block.toNat located.slot old ∧
                  relation.pages[located.block.toNat]? = some page ∧
                    Replaced page changed located.slot old
                      (change (Row.decoded old)).toBytes := by
    intro located few comesUpon
    obtain ⟨old, decodes, first⟩ := comesUpon.firstRow rowsOnly few
    obtain ⟨page, among, row⟩ := first.row
    have onlyHere := rowsOnly page (List.mem_of_getElem? among)
    obtain ⟨changed, replaces, replaced⟩ := replaceRow_spec onlyHere row (change located.row)
    rw [decodes] at replaced
    exact ⟨page, changed, ⟨among, replaces⟩, old, first, among, replaced⟩
  have updates := update_comesUpon present (searchable_of_rowsOnly rowsOnly table) rewritten
  refine updates.mono ?_ ?_
  · rintro _ left ⟨located, page, changed, ⟨old, first, among, replaced⟩, became⟩
    exact ⟨_, _, old, page, changed, first, among, replaced, became⟩
  · rintro fault left ⟨became, alone⟩
    exact ⟨became, alone.noneChanged rowsOnly⟩

/-- A sound store whose blocks have numbers changes the first row of any table that has one. -/
theorem update_of_sound
    (present : contents state catalog.relation = some relation)
    (rowsOnly : ∀ page ∈ relation.pages, RowsOnly page)
    (sound : Sound state)
    (few : relation.pages.length < blockNumberBound)
    {block slot : Nat}
    {bytes : List UInt8}
    (row : RowAt relation block slot bytes)
    (change : Row → Row) :
    ∃ left, (catalog.update (tableOf bytes) change).runOn state = (.ok (), left) := by
  rcases ran : (catalog.update (tableOf bytes) change).runOn state with ⟨outcome, left⟩
  have updates := (update_replaces present rowsOnly (tableOf bytes) change).runOn ran
  cases outcome with
  | ok done => exact ⟨left, rfl⟩
  | error fault => exact absurd rfl (updates.2.lacks sound few block slot bytes row)

/-- A relation with something noted in the first row of a table, and all else as it was. -/
def NotedIn (note : Note) (table : RelationId) (relation noted : Relation) : Prop :=
  ∃ block slot old new page changed,
    FirstRow relation table block slot old ∧ note.Notes old new ∧
      relation.pages[block]? = some page ∧ Replaced page changed slot old new ∧
        RowsOnly changed ∧ noted = relation.overwritten block changed

/-- Something is noted in the first row of a table and nowhere else, on whichever rows of forty
bytes. Of this row the note changes what it is about; a column that it is not about is decoded and
encoded again, and so is as before exactly if it is plain. When nothing is noted, nothing changes,
and a sound store whose blocks have numbers has no row of the table. -/
theorem note_recodes
    (note : Note)
    (table : RelationId)
    (present : contents state catalog.relation = some relation)
    (rowsOnly : ∀ page ∈ relation.pages, RowsOnly page) :
    (note.action catalog table).Yields state
      (either
        (fun _ left =>
          ∃ noted,
            NotedIn note table relation noted ∧
              Became state left ((contents state).put catalog.relation noted) 0)
        fun fault left =>
          Became state left (contents state) 0 ∧ NoneChanged relation table state fault) := by
  rw [note.action_eq]
  refine (update_replaces present rowsOnly table fun row => note.onRow row).mono ?_
    fun fault left refused => refused
  rintro _ left ⟨block, slot, old, page, changed, first, among, replaced, became⟩
  have onlyHere := rowsOnly page (List.mem_of_getElem? among)
  have noted := note.notes (onlyHere.length replaced.old)
  exact
    ⟨relation.overwritten block changed,
      ⟨block, slot, old, _, page, changed, first, noted, among, replaced,
        replaced.rowsOnly onlyHere noted.length, rfl⟩,
      became⟩

end Noting

/-! ## Rows written elsewhere -/

section Appending

variable {page : Page} {bytes : List UInt8}

/-- The slots of a page of rows that was given one more item. -/
theorem slot_grownBy
    (rowsOnly : RowsOnly page)
    (wellFormed : page.WellFormed)
    (fits : page.lower + slotSize + aligned bytes.length ≤ page.upper)
    {number : Nat}
    {found : Page.Slot}
    (among : (page.grownBy bytes).slot number = .ok found) :
    number = page.slotCount + 1 ∧ found = ⟨page.upper - aligned bytes.length, bytes.length⟩ ∨
      page.slot number = .ok found := by
  have appended := appended_grownBy wellFormed fits
  obtain ⟨-, first, last, -⟩ := slot_eq_ok_iff.mp among
  rw [appended.slotCount wellFormed] at last
  rcases Nat.eq_or_lt_of_le last with rfl | earlier
  · have new := appended.newSlot wellFormed fits
    exact Or.inl ⟨rfl, Except.ok.inj (among.symm.trans new)⟩
  · obtain ⟨other, item, -⟩ :=
      rowsOnly.rows wellFormed.isUnformatted number first (Nat.le_of_lt_succ earlier)
    obtain ⟨there, before, -⟩ := item_eq_ok_iff.mp item
    have kept := appended.slot wellFormed fits before
    rw [Except.ok.inj (among.symm.trans kept)]
    exact Or.inr before

/-- Any forty bytes can be added to a page of rows. -/
theorem RowsOnly.grownBy
    (rowsOnly : RowsOnly page)
    (wellFormed : page.WellFormed)
    (fits : page.lower + slotSize + aligned bytes.length ≤ page.upper)
    (long : bytes.length = Row.size) :
    RowsOnly (page.grownBy bytes) := by
  have appended := appended_grownBy wellFormed fits
  have formatted := wellFormed.isUnformatted
  have padded := le_aligned bytes.length
  constructor
  · exact fun _ => appended.wellFormed wellFormed fits
  · intro _ number first last
    rw [appended.slotCount wellFormed] at last
    rcases Nat.eq_or_lt_of_le last with rfl | earlier
    · exact ⟨bytes, appended.item wellFormed fits, long⟩
    · obtain ⟨other, item, otherLong⟩ :=
        rowsOnly.rows formatted number first (Nat.le_of_lt_succ earlier)
      obtain ⟨there, before, -⟩ := item_eq_ok_iff.mp item
      exact ⟨other, (appended.item_of_slot wellFormed fits before).trans item, otherLong⟩
  · intro _ first second one other position atFirst atSecond oneLow oneHigh otherLow otherHigh
    rcases slot_grownBy rowsOnly wellFormed fits atFirst with ⟨rfl, rfl⟩ | firstOld
    · rcases slot_grownBy rowsOnly wellFormed fits atSecond with ⟨rfl, -⟩ | secondOld
      · rfl
      · obtain ⟨-, -, -, -, above, -⟩ := slot_eq_ok_iff.mp secondOld
        simp only at oneLow oneHigh
        omega
    · rcases slot_grownBy rowsOnly wellFormed fits atSecond with ⟨rfl, rfl⟩ | secondOld
      · obtain ⟨-, -, -, -, above, -⟩ := slot_eq_ok_iff.mp firstOld
        simp only at otherLow otherHigh
        omega
      · exact
          rowsOnly.apart formatted first second one other position firstOld secondOld oneLow
            oneHigh otherLow otherHigh

end Appending

theorem rowsOnly_plain : RowsOnly Page.plain where
  wellFormed _ := RowPage.plain.wellFormed
  rows _ slot first last := by
    rw [RowPage.plain.slotCount] at last
    exact absurd (Nat.le_trans first last) (by decide)
  apart _ := itemsApart_of_slotCount_le (by rw [RowPage.plain.slotCount]; decide)

/-- A row of table 7 whose index is of a kind that is not known and has no declared size. -/
def foreignRow : List UInt8 :=
  LittleEndian.encode 2 224 ++ LittleEndian.encode 2 0 ++
    [7, 5, 6, 999, 2, 0, 0, 0, 0].flatMap fun word => LittleEndian.encode 4 word

/-- The page of the row. It stays closed, or every statement about it would compute its bytes. -/
@[irreducible] def foreignPage : Page := Page.plain.grownBy foreignRow

theorem foreignPage_eq : foreignPage = Page.plain.grownBy foreignRow := by
  unfold foreignPage
  rfl

def foreignCatalog : Catalog := ⟨1⟩

def foreignRelation : Relation := ⟨[foreignPage], Page.zero⟩

def foreignStore : MemoryStorage := ⟨blockSize, #[#[foreignPage]]⟩

theorem plain_fits_foreignRow :
    Page.plain.lower + slotSize + aligned foreignRow.length ≤ Page.plain.upper := by
  rw [RowPage.plain.lower, RowPage.plain.upper]
  decide

theorem appended_foreignPage : Appended Page.plain foreignPage foreignRow := by
  rw [foreignPage_eq]
  exact appended_grownBy RowPage.plain.wellFormed plain_fits_foreignRow

theorem rowsOnly_foreign : ∀ page ∈ foreignRelation.pages, RowsOnly page := by
  intro page among
  rw [List.mem_singleton.mp among, foreignPage_eq]
  exact rowsOnly_plain.grownBy RowPage.plain.wellFormed plain_fits_foreignRow rfl

theorem slotCount_foreignPage : foreignPage.slotCount = 1 := by
  rw [appended_foreignPage.slotCount RowPage.plain.wellFormed, RowPage.plain.slotCount]
  rfl

theorem item_foreignPage : foreignPage.item 1 = .ok foreignRow := by
  have item := appended_foreignPage.item RowPage.plain.wellFormed plain_fits_foreignRow
  rwa [RowPage.plain.slotCount] at item

theorem rowAt_foreign : RowAt foreignRelation 0 1 foreignRow :=
  ⟨foreignPage, rfl,
    (appended_foreignPage.wellFormed RowPage.plain.wellFormed plain_fits_foreignRow).isUnformatted,
    item_foreignPage⟩

/-- The relation holds one row. -/
theorem RowAt.foreign
    {block slot : Nat}
    {bytes : List UInt8}
    (row : RowAt foreignRelation block slot bytes) :
    block = 0 ∧ slot = 1 ∧ bytes = foreignRow := by
  obtain ⟨page, among, -, item⟩ := row
  cases block with
  | succ block => cases among
  | zero =>
      obtain rfl := Option.some.inj among
      obtain ⟨first, last⟩ := slot_of_item item
      rw [slotCount_foreignPage] at last
      obtain rfl : slot = 1 := by omega
      exact ⟨rfl, rfl, Except.ok.inj (item.symm.trans item_foreignPage)⟩

theorem tableOf_foreign : tableOf foreignRow = 7 := by decide

theorem present_foreign : contents foreignStore foreignCatalog.relation = some foreignRelation :=
  rfl

theorem sound_foreignStore : Sound foreignStore := rfl

theorem few_foreign : foreignRelation.pages.length < blockNumberBound :=
  (by decide : 1 < blockNumberBound)

/-- Anything can be noted in the row. -/
theorem note_foreign (note : Note) :
    ∃ left, (note.action foreignCatalog 7).runOn foreignStore = (.ok (), left) := by
  have done :=
    update_of_sound present_foreign rowsOnly_foreign sound_foreignStore few_foreign rowAt_foreign
      fun row => note.onRow row
  rwa [tableOf_foreign, ← note.action_eq] at done

theorem note_recodes_foreign :
    contents foreignStore foreignCatalog.relation = some foreignRelation ∧
      (∀ page ∈ foreignRelation.pages, RowsOnly page) ∧
        ∃ left noted,
          ((Note.files 8 9).action foreignCatalog 7).runOn foreignStore = (.ok (), left) ∧
            NotedIn (.files 8 9) 7 foreignRelation noted ∧
              contents left foreignCatalog.relation = some noted := by
  obtain ⟨left, ran⟩ := note_foreign (.files 8 9)
  have notes := note_recodes (.files 8 9) 7 present_foreign rowsOnly_foreign
  obtain ⟨noted, notedIn, became⟩ := notes.runOn ran
  refine ⟨present_foreign, rowsOnly_foreign, left, noted, ran, notedIn, ?_⟩
  rw [became.holds]
  exact Contents.put_same _ _ noted

/-- Noting that the files of table 7 are filled forgets the kind of its index, and gives the index a
declared size of no blocks. -/
theorem not_kept_foreign :
    ∃ left changed new,
      (contents foreignStore foreignCatalog.relation = some ⟨[foreignPage], Page.zero⟩ ∧
        RowsOnly foreignPage ∧ foreignPage.item 1 = .ok foreignRow) ∧
        (foreignCatalog.noteFilled 7).runOn foreignStore = (.ok (), left) ∧
          contents left foreignCatalog.relation = some ⟨[changed], Page.zero⟩ ∧
            changed.item 1 = .ok new ∧
              (Row.columnWord foreignRow 3 = some 999 ∧ Row.columnWord new 3 = none) ∧
                Row.columnWord foreignRow 5 = none ∧ Row.columnWord new 5 = some 0 := by
  obtain ⟨left, ran⟩ := note_foreign .filled
  have updates :=
    update_replaces present_foreign rowsOnly_foreign 7 fun row => Note.filled.onRow row
  rw [← Note.action_eq] at updates
  obtain ⟨block, slot, old, page, changed, first, among, replaced, became⟩ := updates.runOn ran
  obtain ⟨rfl, rfl, rfl⟩ := first.row.foreign
  have rowsOnly : RowsOnly foreignPage := rowsOnly_foreign _ List.mem_cons_self
  refine
    ⟨left, changed, _, ⟨present_foreign, rowsOnly, item_foreignPage⟩, ran, ?_,
      replaced.new.2, ?_⟩
  · rw [became.holds]
    exact Contents.put_same _ _ _
  · decide

end ObliviousStorage.Catalog

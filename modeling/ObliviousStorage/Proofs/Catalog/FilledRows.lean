import ObliviousStorage.Proofs.Catalog.Answers
import ObliviousStorage.Proofs.Storage.Footprints

/-!
Contract: tables whose files are filled, in the catalog.

Owns: that looking a row up reads the catalog's relation and transfers nothing else;
`RecordsFiles`, that a catalog says of a table that its files are filled, and which they are;
and that adding rows and noting files, by whatever store and however it ends, leaves the
catalog saying so.

Does not own: how a table comes to be recorded as filled.
-/

namespace ObliviousStorage.Catalog

open StorageM StorageView

/-! ## Looking up transfers nothing else -/

section Reading

variable
  {σ : Type}
  [Storage σ]
  (catalog : Catalog)
  (table : RelationId)

theorem locateIn_onlyReads (blocks : List BlockNumber) :
    OnlyReads catalog.relation
      (catalog.locateIn table blocks : StorageM (Traced σ) (Option Located)) := by
  induction blocks with
  | nil => exact .ofPure _
  | cons block rest inductionHypothesis =>
      refine .bind (.ofRead block) fun page => .bind (.ofLift _) fun located => ?_
      cases located with
      | none => exact inductionHypothesis
      | some located => exact .ofPure _

/-- Looking a table up reads blocks of the catalog only. -/
theorem get_onlyReads :
    OnlyReads catalog.relation (catalog.get table : StorageM (Traced σ) Row) := by
  have locates :
      OnlyReads catalog.relation
        (catalog.locate table : StorageM (Traced σ) (Option Located)) :=
    .bind (.ofUntraced _) fun _ => catalog.locateIn_onlyReads table _
  have finds :
      OnlyReads catalog.relation (catalog.find table : StorageM (Traced σ) Located) := by
    refine .bind locates fun located => ?_
    cases located with
    | none => exact .ofThrow _
    | some located => exact .ofPure _
  exact .bind finds fun _ => .ofPure _

end Reading

/-! ## Rows of filled tables -/

namespace Row

/-- The row says that its table's files are filled, and which they are. -/
structure NamesFiles (row : Row) (tableFile indexFile : RelationId) : Prop where
  filled : row.status = .ok .filled
  table : row.tableFile = tableFile
  index : row.indexFile = indexFile

theorem filled_of_status
    {row : Row}
    (filled : row.status = .ok .filled) :
    row.filled = true := by
  simp only [status, bind_eq_ok_iff, require_eq_ok_iff, exists_const, pure, Except.pure,
    Except.ok.injEq] at filled
  obtain ⟨-, -, -, same⟩ := filled
  by_contra notFilled
  simp [notFilled] at same

/-- A row that can be acted on can be acted on when its files are noted. -/
theorem namesFiles_noted
    {row : Row}
    (pending : row.status = .ok .pending)
    (tableFile indexFile : RelationId) :
    NamesFiles { row with tableFile, indexFile, filled := true } tableFile indexFile where
  filled := by
    simp only [status, bind_eq_ok_iff, require_eq_ok_iff, exists_const] at pending ⊢
    exact ⟨pending.1, pending.2.1, pending.2.2.1, rfl⟩
  table := rfl
  index := rfl

end Row

/-- The catalog holds rows only, and the first one of the table says that its files are
filled, and which they are. -/
def RecordsFiles
    (catalog : Catalog)
    (held : Contents)
    (table tableFile indexFile : RelationId) : Prop :=
  ∃ relation pages row,
    held catalog.relation = some relation ∧ Listed relation pages ∧
      rowOf pages.flatten table = some row ∧ row.NamesFiles tableFile indexFile

theorem RecordsFiles.of_same
    {catalog : Catalog}
    {held other : Contents}
    {table tableFile indexFile : RelationId}
    (records : catalog.RecordsFiles held table tableFile indexFile)
    (same : other catalog.relation = held catalog.relation) :
    catalog.RecordsFiles other table tableFile indexFile := by
  obtain ⟨relation, pages, row, present, rest⟩ := records
  exact ⟨relation, pages, row, same.trans present, rest⟩

section Keeping

variable
  {σ : Type}
  [Storage σ]
  [LawfulStorage σ]
  {catalog : Catalog}
  {table tableFile indexFile : RelationId}
  {state : σ}

/-- The store follows on, and the catalog says the same of the table. -/
def StillRecords
    (catalog : Catalog)
    (table tableFile indexFile : RelationId)
    (state left : σ) : Prop :=
  Follows state left ∧ catalog.RecordsFiles (contents left) table tableFile indexFile

theorem RecordsFiles.still_of_unchanged
    {left : σ}
    {spent : Nat}
    (records : catalog.RecordsFiles (contents state) table tableFile indexFile)
    (became : Became state left (contents state) spent) :
    catalog.StillRecords table tableFile indexFile state left :=
  ⟨became.follows, records.of_same (congrFun became.holds _)⟩

theorem RecordsFiles.still_of_keeps
    {Allowed : RelationId → Prop}
    {left : σ}
    (records : catalog.RecordsFiles (contents state) table tableFile indexFile)
    (elsewhere : ¬Allowed catalog.relation)
    (keeps : Keeps Allowed state left) :
    catalog.StillRecords table tableFile indexFile state left :=
  ⟨keeps.follows, records.of_same (keeps.same _ elsewhere)⟩

/-- Changing rows does not matter if it changes those of other tables only, or nothing of a
row whose files are filled. -/
theorem RecordsFiles.update_still
    {other : RelationId}
    {change : Row → Row}
    (records : catalog.RecordsFiles (contents state) table tableFile indexFile)
    (same : ∀ row, (change row).table = row.table)
    (idle : other = table → ∀ row, row.filled = true → change row = row) :
    (catalog.update other change).Yields state fun _ left =>
      catalog.StillRecords table tableFile indexFile state left := by
  have unchanged :
      ∀ left, Became state left (contents state) 0 →
        catalog.StillRecords table tableFile indexFile state left :=
    fun _ => records.still_of_unchanged
  obtain ⟨relation, pages, row, present, listed, isRow, names⟩ := records
  apply (update_rows present listed other change).weaken
  intro outcome left updated
  cases outcome with
  | error fault => exact unchanged left updated
  | ok done =>
      obtain ⟨changed, changedPages, earlier, found, later, ⟨rows, ofOther, before⟩,
        ⟨changedListed, -, changedRows⟩, became⟩ := updated
      have sameRow : rowOf changedPages.flatten table = rowOf pages.flatten table := by
        rw [changedRows, rows]
        by_cases ours : other = table
        · subst ours
          rw [rows, rowOf_split before ofOther] at isRow
          obtain rfl := Option.some.inj isRow
          rw [idle rfl _ (Row.filled_of_status names.filled)]
        · exact rowOf_replaced (same found) fun equal => ours (ofOther ▸ equal.symm)
      refine ⟨became.follows, changed, changedPages, row, ?_, changedListed, ?_, names⟩
      · rw [became.holds, Contents.put_same]
      · rw [sameRow, isRow]

/-- Noting that files were filled says nothing new of a table whose files are filled. -/
theorem RecordsFiles.noteFilled_still
    (records : catalog.RecordsFiles (contents state) table tableFile indexFile)
    (other : RelationId) :
    (catalog.noteFilled other).Yields state fun _ left =>
      catalog.StillRecords table tableFile indexFile state left := by
  apply records.update_still
  · intro row
    rfl
  · intro _ row filled
    rw [← filled]

theorem RecordsFiles.noteFiles_still
    {other : RelationId}
    (records : catalog.RecordsFiles (contents state) table tableFile indexFile)
    (different : other ≠ table)
    (newTable newIndex : RelationId) :
    (catalog.noteFiles other newTable newIndex).Yields state fun _ left =>
      catalog.StillRecords table tableFile indexFile state left := by
  apply records.update_still
  · intro row
    rfl
  · exact fun ours => absurd ours different

theorem RecordsFiles.insert_still
    (records : catalog.RecordsFiles (contents state) table tableFile indexFile)
    (added : Row) :
    (catalog.insert added).Yields state fun _ left =>
      catalog.StillRecords table tableFile indexFile state left := by
  obtain ⟨relation, pages, row, present, listed, isRow, names⟩ := records
  have lists :
      ∀ {left : σ} {listing : List Row},
        catalog.NowLists state left listing → rowOf listing table = some row →
          catalog.StillRecords table tableFile indexFile state left := by
    rintro left _ ⟨grown, grownPages, grownListed, rfl, -, became⟩ isRow
    refine ⟨became.follows, grown, grownPages, row, ?_, grownListed, isRow, names⟩
    rw [became.holds, Contents.put_same]
  apply (insert_yields present listed added).weaken
  intro outcome left inserted
  cases outcome with
  | ok done => exact lists inserted.2.2 (rowOf_append isRow added)
  | error fault => exact lists inserted.1 isRow

end Keeping

end ObliviousStorage.Catalog

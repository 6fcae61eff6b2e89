import ObliviousStorage.Catalog.Rows
import ObliviousStorage.Proofs.Catalog.RowCodec
import ObliviousStorage.Proofs.Page.Appending

/-!
Contract: the pages of the catalog and the rows on them.

Owns: `RowPage`, the pages that hold a list of rows and nothing else; that adding a row
to such a page and replacing one keep it such a page; and which row a search of the
page finds.

Does not own: the relation that the pages are kept in.
-/

namespace ObliviousStorage.Catalog

open LittleEndian Page

/-- A page that holds these rows: their bodies lie one below the other, the first one at
the end of the block. -/
structure RowPage (page : Page) (rows : List Row) : Prop where
  lower : page.lower = headerSize + slotSize * rows.length
  upper : page.upper = blockSize - Row.size * rows.length
  special : page.special = blockSize
  fits : headerSize + (slotSize + Row.size) * rows.length ≤ blockSize
  described :
    ∀ index, index < rows.length →
      page.described (index + 1) = ⟨blockSize - Row.size * (index + 1), Row.size⟩
  bodies :
    ∀ index row, rows[index]? = some row →
      page.slice (blockSize - Row.size * (index + 1)) Row.size = row.toBytes

/-- The row at `index` is the first one of the table. -/
structure FirstIn (rows : List Row) (table : RelationId) (index : Nat) (row : Row) : Prop where
  among : rows[index]? = some row
  ofTable : row.table = table
  before : ∀ earlier other, earlier < index → rows[earlier]? = some other → other.table ≠ table

theorem FirstIn.cons
    {first row : Row}
    {rest : List Row}
    {table : RelationId}
    {index : Nat}
    (other : first.table ≠ table)
    (firstIn : FirstIn rest table index row) :
    FirstIn (first :: rest) table (index + 1) row where
  among := by simpa using firstIn.among
  ofTable := firstIn.ofTable
  before earlier found below at_ := by
    cases earlier with
    | zero =>
        have same : first = found := by simpa using at_
        exact same ▸ other
    | succ earlier => exact firstIn.before earlier found (by omega) (by simpa using at_)

/-- Changing the first row of a table, but not its table, leaves it the first one. -/
theorem FirstIn.set
    {rows : List Row}
    {row changed : Row}
    {table : RelationId}
    {index : Nat}
    (firstIn : FirstIn rows table index row)
    (same : changed.table = table) :
    FirstIn (rows.set index changed) table index changed where
  among := by
    have inside := (List.getElem?_eq_some_iff.mp firstIn.among).1
    rw [List.getElem?_set_self inside]
  ofTable := same
  before earlier other below at_ := by
    rw [List.getElem?_set_ne (by omega)] at at_
    exact firstIn.before earlier other below at_

/-- The place of the first row of a table is settled by the rows. -/
theorem FirstIn.unique
    {rows : List Row}
    {one other : Row}
    {table : RelationId}
    {first second : Nat}
    (atFirst : FirstIn rows table first one)
    (atSecond : FirstIn rows table second other) :
    first = second ∧ one = other := by
  have same : first = second := by
    rcases Nat.lt_trichotomy first second with below | same | above
    · exact absurd atFirst.ofTable (atSecond.before first one below atFirst.among)
    · exact same
    · exact absurd atSecond.ofTable (atFirst.before second other above atSecond.among)
  subst same
  exact ⟨rfl, Option.some.inj (atFirst.among.symm.trans atSecond.among)⟩

namespace RowPage

variable {page : Page} {rows : List Row}

theorem wellFormed (rowPage : RowPage page rows) : page.WellFormed := by
  have lower := rowPage.lower
  have upper := rowPage.upper
  have special := rowPage.special
  have fits := rowPage.fits
  simp only [WellFormed, headerSize, slotSize, Row.size, blockSize] at *
  omega

theorem slotCount (rowPage : RowPage page rows) : page.slotCount = rows.length := by
  have lower := rowPage.lower
  simp only [Page.slotCount, headerSize, slotSize] at *
  omega

theorem formatted (rowPage : RowPage page rows) : page.isUnformatted = false :=
  rowPage.wellFormed.isUnformatted

/-- A freshly formatted page holds no rows. -/
theorem plain : RowPage Page.plain [] := by
  obtain ⟨lower, upper, special⟩ := pointers_formatted (Nat.le_refl blockSize)
  exact
    { lower := lower
      upper := upper
      special := special
      fits := by decide
      described := fun index inside => absurd inside (Nat.not_lt_zero index)
      bodies := by simp }

theorem slot_eq (rowPage : RowPage page rows) {index : Nat} (inside : index < rows.length) :
    page.slot (index + 1) = .ok ⟨blockSize - Row.size * (index + 1), Row.size⟩ := by
  have upper := rowPage.upper
  have special := rowPage.special
  have fits := rowPage.fits
  refine slot_eq_ok_iff.mpr
    ⟨rowPage.wellFormed, by omega, rowPage.slotCount ▸ inside,
      (rowPage.described index inside).symm, ?_, ?_⟩
  · simp only [upper, Row.size, blockSize] at *
    omega
  · simp only [special, headerSize, slotSize, Row.size, blockSize] at *
    omega

theorem item_eq
    (rowPage : RowPage page rows)
    {index : Nat}
    {row : Row}
    (among : rows[index]? = some row) :
    page.item (index + 1) = .ok row.toBytes := by
  have inside := (List.getElem?_eq_some_iff.mp among).1
  exact item_eq_ok_iff.mpr ⟨_, rowPage.slot_eq inside, (rowPage.bodies index row among).symm⟩

/-- A row can be added as long as there is room for it. -/
theorem append
    (rowPage : RowPage page rows)
    (room : hasRoom page = true)
    (row : Row) :
    ∃ grown,
      page.append row.toBytes = .ok (rows.length + 1, grown) ∧ RowPage grown (rows ++ [row]) := by
  have lower := rowPage.lower
  have upper := rowPage.upper
  have fits := rowPage.fits
  have wellFormed := rowPage.wellFormed
  have width : aligned row.toBytes.length = Row.size := by
    rw [Row.length_toBytes]
    exact aligned_eq_of_dvd rfl
  have enough : page.lower + slotSize + aligned row.toBytes.length ≤ page.upper := by
    rw [width]
    simp only [hasRoom, Bool.and_eq_true] at room
    have free : Row.size ≤ page.upper - (page.lower + slotSize) := of_decide_eq_true room.2
    simp only [slotSize, Row.size] at *
    omega
  obtain ⟨grown, succeeds, appended⟩ := append_spec wellFormed enough
  rw [rowPage.slotCount] at succeeds
  refine ⟨grown, succeeds, ?_⟩
  have start :
      page.upper - aligned row.toBytes.length = blockSize - Row.size * (rows.length + 1) := by
    rw [width, upper]
    simp only [Row.size, blockSize]
    omega
  have length : (rows ++ [row]).length = rows.length + 1 := by simp
  refine
    { lower := ?_
      upper := ?_
      special := (appended.special wellFormed).trans rowPage.special
      fits := ?_
      described := ?_
      bodies := ?_ }
  · rw [appended.lower, lower, length]
    simp only [slotSize]
    omega
  · rw [appended.upper, start, length]
  · rw [width, lower, upper] at enough
    rw [length]
    simp only [headerSize, slotSize, Row.size, blockSize] at *
    omega
  · intro index inside
    rw [length] at inside
    rcases Nat.lt_succ_iff_lt_or_eq.mp inside with earlier | rfl
    · rw [appended.described wellFormed (by omega) (by rw [rowPage.slotCount]; omega),
        rowPage.described index earlier]
    · have descriptor := appended.descriptor
      rw [rowPage.slotCount, start, Row.length_toBytes] at descriptor
      exact descriptor
  · intro index other among
    rcases Nat.lt_trichotomy index rows.length with earlier | rfl | beyond
    · rw [List.getElem?_append_left earlier] at among
      rw [← rowPage.bodies index other among]
      refine slice_congr (appended.bodies.mono ?_ ?_)
      · simp only [upper, Row.size, blockSize]
        omega
      · simp only [headerSize, slotSize, Row.size, blockSize] at *
        omega
    · have same : row = other := by simpa using among
      have body := appended.body
      rwa [start, Row.length_toBytes, same] at body
    · rw [List.getElem?_eq_none (by omega)] at among
      exact absurd among (by simp)

/-- A row can be replaced by another one. -/
theorem replace
    (rowPage : RowPage page rows)
    {index : Nat}
    (inside : index < rows.length)
    (row : Row) :
    ∃ changed,
      replaceRow page (index + 1) row = .ok changed ∧ RowPage changed (rows.set index row) := by
  have upper := rowPage.upper
  have fits := rowPage.fits
  have length : (rows.set index row).length = rows.length := List.length_set
  have bound :
      blockSize - Row.size * (index + 1) + row.toBytes.length ≤ blockSize := by
    rw [Row.length_toBytes]
    simp only [headerSize, slotSize, Row.size, blockSize] at *
    omega
  have directory :
      AgreesOn (page.write (blockSize - Row.size * (index + 1)) row.toBytes) page 0 page.upper := by
    refine agreesOn_write page (Or.inl ?_)
    simp only [upper, Row.size, blockSize]
    omega
  have wellFormed := rowPage.wellFormed
  have header :
      AgreesOn (page.write (blockSize - Row.size * (index + 1)) row.toBytes) page 0 headerSize :=
    directory.mono (Nat.le_refl 0) (Nat.le_trans wellFormed.1 wellFormed.2.1)
  refine ⟨page.write (blockSize - Row.size * (index + 1)) row.toBytes, ?_, ?_⟩
  · simp only [replaceRow, rowPage.slot_eq inside, bind, Except.bind, require, ↓reduceIte,
      overwrite, bound]
  · refine
      { lower := by rw [lower_congr header, rowPage.lower, length]
        upper := by rw [upper_congr header, rowPage.upper, length]
        special := by rw [special_congr header, rowPage.special]
        fits := by rw [length]; exact fits
        described := ?_
        bodies := ?_ }
    · intro number among
      rw [length] at among
      rw [← rowPage.described number among]
      have last : number + 1 ≤ page.slotCount := by
        rw [rowPage.slotCount]
        omega
      have position := slotPosition_lt wellFormed (Nat.le_add_left 1 number) last
      have below := wellFormed.2.1
      simp only [slotSize] at position
      rw [Page.described, Page.described, word_congr (directory.mono (by omega) (by omega)),
        word_congr (directory.mono (by omega) (by omega))]
    · intro number other among
      by_cases same : index = number
      · subst same
        rw [List.getElem?_set_self inside] at among
        have written := slice_write page bound
        rw [Row.length_toBytes] at written
        rw [written, Option.some.inj among]
      · rw [List.getElem?_set_ne same] at among
        have bounded := (List.getElem?_eq_some_iff.mp among).1
        rw [← rowPage.bodies number other among]
        apply slice_write_of_disjoint page
        rw [Row.length_toBytes]
        simp only [headerSize, slotSize, Row.size, blockSize] at *
        omega

end RowPage

end ObliviousStorage.Catalog

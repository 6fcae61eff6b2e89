import ObliviousStorage.Proofs.Catalog.Listing

/-!
Contract: what a catalog answers for a table, in terms of its rows in their order.

Owns: `rowOf`, the row that stands for a table; the outcome of looking a row up on a sound
store; and that adding a row and changing one leave the rows of all other tables as they
are, whatever the change.

Does not own: how rows lie on the pages.
-/

namespace ObliviousStorage.Catalog

open StorageM StorageView

/-- The first row of a table. -/
def rowOf (rows : List Row) (table : RelationId) : Option Row := rows.find? (·.table = table)

section Rows

variable
  {earlier later rows : List Row}
  {row changed : Row}
  {table other : RelationId}

theorem rowOf_split
    (before : ∀ other ∈ earlier, other.table ≠ table)
    (ofTable : row.table = table) :
    rowOf (earlier ++ row :: later) table = some row := by
  have none : earlier.find? (·.table = table) = none :=
    List.find?_eq_none.mpr fun other member => by simpa using before other member
  rw [rowOf, List.find?_append, none, Option.none_or]
  exact List.find?_cons_of_pos (decide_eq_true ofTable)

theorem rowOf_eq_none_iff : rowOf rows table = none ↔ ∀ row ∈ rows, row.table ≠ table := by
  rw [rowOf, List.find?_eq_none]
  simp

theorem ofTable_of_rowOf (found : rowOf rows table = some row) : row.table = table := by
  simpa using List.find?_some found

/-- A row that takes the place of one of its table is none of another table. -/
theorem rowOf_replaced
    (same : changed.table = row.table)
    (different : other ≠ row.table) :
    rowOf (earlier ++ changed :: later) other = rowOf (earlier ++ row :: later) other := by
  have notRow : ¬row.table = other := different.symm
  have notChanged : ¬changed.table = other := by rwa [same]
  simp only [rowOf, List.find?_append, List.find?_cons, notRow, notChanged, decide_false]

/-- A row behind all others does not stand for a table that has one. -/
theorem rowOf_append
    (known : rowOf rows table = some row)
    (added : Row) :
    rowOf (rows ++ [added]) table = some row := by
  rw [rowOf, List.find?_append, ← rowOf, known, Option.some_or]

end Rows

theorem FirstAt.rowOf_eq
    {pages : List (List Row)}
    {table : RelationId}
    {block index : Nat}
    {row : Row}
    (first : FirstAt pages table block index row) :
    rowOf pages.flatten table = some row := by
  obtain ⟨_, -, firstIn⟩ := first.onPage
  obtain ⟨earlier, later, rows, before, -⟩ := first.split row
  rw [rows, rowOf_split before firstIn.ofTable]

theorem rowOf_of_finds_none
    {pages : List (List Row)}
    {table : RelationId}
    (absent : Finds pages table none) :
    rowOf pages.flatten table = none := by
  refine rowOf_eq_none_iff.mpr fun row member => ?_
  obtain ⟨pageRows, onPage, among⟩ := List.mem_flatten.mp member
  exact absent pageRows onPage row among

/-- What looking up a table has to answer. A catalog with more blocks than there are
numbers cannot be searched. -/
def answer (relation : Relation) (rows : List Row) (table : RelationId) : Except Fault Row :=
  if relation.pages.length < blockNumberBound then
    match rowOf rows table with
    | some row => .ok row
    | none => .error (.notFound table)
  else
    .error .integerConversion

section Looking

variable
  {σ : Type}
  [Storage σ]
  [LawfulStorage σ]
  {catalog : Catalog}
  {relation : Relation}
  {pages : List (List Row)}
  {state : σ}

theorem get_of_uncountable
    (sound : Sound state)
    (present : contents state catalog.relation = some relation)
    (many : blockNumberBound ≤ relation.pages.length)
    (table : RelationId) :
    ((catalog.get table).runOn state).1 = .error .integerConversion := by
  have counts :
      (catalog.locate table).Yields state fun outcome _ => outcome = .error .integerConversion := by
    apply yields_bind (LawfulStorage.count_law state catalog.relation)
    · rintro number _ ⟨counted, -⟩
      obtain ⟨found, among, length⟩ := Contents.count_eq_ok_iff.mp counted
      obtain rfl := Option.some.inj (present.symm.trans among)
      exact absurd many (Nat.not_le_of_lt (length ▸ number.toNat_lt))
    · rintro fault _ ⟨reason, -⟩
      have counted := reason sound
      simp only [Contents.count, present, toBlockNumber, Nat.not_lt_of_le many,
        ↓reduceIte] at counted
      rw [Except.error.inj counted]
  have finds :
      (catalog.find table).Yields state fun outcome _ => outcome = .error .integerConversion :=
    yields_bind counts (fun _ _ holds => absurd holds (by simp)) fun _ _ holds => by
      rw [Except.error.inj holds]
  have gets :
      (catalog.get table).Yields state fun outcome _ => outcome = .error .integerConversion :=
    yields_bind finds (fun _ _ holds => absurd holds (by simp)) fun _ _ holds => by
      rw [Except.error.inj holds]
  exact gets

/-- On a sound store, looking a table up is answered from the rows. -/
theorem get_answers
    (sound : Sound state)
    (present : contents state catalog.relation = some relation)
    (listed : Listed relation pages)
    (table : RelationId) :
    ((catalog.get table).runOn state).1 = answer relation pages.flatten table := by
  rcases Nat.lt_or_ge relation.pages.length blockNumberBound with few | many
  · have gets := get_yields present listed table
    rw [answer, if_pos few]
    cases ran : (catalog.get table).runOn state with
    | mk outcome left =>
        cases outcome with
        | ok row =>
            obtain ⟨⟨_, _, first⟩, -⟩ := gets.runOn ran
            rw [first.rowOf_eq]
        | error fault =>
            obtain ⟨-, misses⟩ := gets.runOn ran
            rcases misses with ⟨rfl, absent⟩ | refused
            · rw [rowOf_of_finds_none absent]
            · exact absurd (refused sound) (Nat.not_le_of_lt few)
  · rw [get_of_uncountable sound present many, answer, if_neg (Nat.not_lt_of_le many)]

theorem get_missing
    (sound : Sound state)
    (present : contents state catalog.relation = some relation)
    (listed : Listed relation pages)
    (few : relation.pages.length < blockNumberBound)
    {table : RelationId}
    (absent : rowOf pages.flatten table = none) :
    ((catalog.get table).runOn state).1 = .error (.notFound table) := by
  rw [get_answers sound present listed, answer, if_pos few, absent]

/-- The row of a table that has none yet is inserted. -/
theorem insert_of_sound
    {row : Row}
    (sound : Sound state)
    (present : contents state catalog.relation = some relation)
    (listed : Listed relation pages)
    (few : relation.pages.length + 1 < blockNumberBound)
    (named : row.table ≠ noRelation)
    (absent : rowOf pages.flatten row.table = none) :
    (catalog.insert row).Yields state fun outcome left =>
      outcome = .ok () ∧ catalog.NowLists state left (pages.flatten ++ [row]) := by
  apply (insert_yields present listed row).weaken
  intro outcome left inserted
  cases outcome with
  | ok done => exact ⟨rfl, inserted.2.2⟩
  | error fault =>
      obtain ⟨-, rejected⟩ := inserted
      cases rejected with
      | unnamed noTable reported => exact absurd noTable named
      | duplicate named located finds reported =>
          obtain ⟨index, -, first⟩ := finds
          rw [first.rowOf_eq] at absent
          exact absurd absent (by simp)
      | exhausted reason => exact absurd (reason sound) (Nat.not_le_of_lt few)

/-- Changing a row takes the first row of the table and puts another in its place, or does
nothing at all. -/
theorem update_rows
    (present : contents state catalog.relation = some relation)
    (listed : Listed relation pages)
    (table : RelationId)
    (change : Row → Row) :
    (catalog.update table change).Yields state
      (either
        (fun _ left =>
          ∃ changed changedPages earlier row later,
            (pages.flatten = earlier ++ row :: later ∧ row.table = table ∧
                ∀ other ∈ earlier, other.table ≠ table) ∧
              (Listed changed changedPages ∧ changed.pages.length = relation.pages.length ∧
                changedPages.flatten = earlier ++ change row :: later) ∧
              Became state left ((contents state).put catalog.relation changed) 0)
        fun _ left => Became state left (contents state) 0) := by
  apply (update_yields present listed table change).mono
  · rintro _ left ⟨changed, block, index, row, first, changedListed, length, became⟩
    obtain ⟨_, -, firstIn⟩ := first.onPage
    obtain ⟨earlier, later, rows, before, changedRows⟩ := first.split (change row)
    exact
      ⟨changed, _, earlier, row, later, ⟨rows, firstIn.ofTable, before⟩,
        ⟨changedListed, length, changedRows⟩, became⟩
  · exact fun _ _ refused => refused.1

/-- Changing the row that stands for a table, but not its table. -/
theorem update_rowOf
    {table : RelationId}
    {row : Row}
    {change : Row → Row}
    (present : contents state catalog.relation = some relation)
    (listed : Listed relation pages)
    (known : rowOf pages.flatten table = some row)
    (same : (change row).table = row.table) :
    (catalog.update table change).Yields state
      (either
        (fun _ left =>
          ∃ changed changedPages,
            Listed changed changedPages ∧
              rowOf changedPages.flatten table = some (change row) ∧
                Became state left ((contents state).put catalog.relation changed) 0)
        fun _ left => Became state left (contents state) 0) := by
  apply (update_rows present listed table change).mono
  · rintro _ left
      ⟨changed, changedPages, earlier, found, later, ⟨rows, ofTable, before⟩,
        ⟨changedListed, -, changedRows⟩, became⟩
    rw [rows, rowOf_split before ofTable] at known
    obtain rfl := Option.some.inj known
    refine ⟨changed, changedPages, changedListed, ?_, became⟩
    rw [changedRows, rowOf_split before (same.trans ofTable)]
  · exact fun _ _ refused => refused

end Looking

end ObliviousStorage.Catalog

import ObliviousStorage.Proofs.Catalog.Listing

/-!
Contract: what a catalog says about a table, and which relations its operations leave
alone.

Owns: `Records`, that the row of a table is the one that looking it up finds; looking
rows up and changing them in these terms; and that on any catalog, also one whose pages
hold something else, looking up changes nothing and changing a row changes nothing but
the relation of the catalog.

Does not own: what rows mean.
-/

namespace ObliviousStorage.Catalog

open StorageM StorageView

/-- The catalog holds rows only, and the first one of the table is this one. -/
def Records (catalog : Catalog) (held : Contents) (table : RelationId) (row : Row) : Prop :=
  ∃ relation rows block index,
    held catalog.relation = some relation ∧ relation.pages.length < blockNumberBound ∧
      Listed relation rows ∧ FirstAt rows table block index row

namespace Records

variable
  {catalog : Catalog}
  {held : Contents}
  {table : RelationId}
  {row : Row}

theorem ofTable (records : catalog.Records held table row) : row.table = table := by
  obtain ⟨_, _, _, _, -, -, -, first⟩ := records
  obtain ⟨_, -, firstIn⟩ := first.onPage
  exact firstIn.ofTable

theorem present (records : catalog.Records held table row) :
    ∃ relation, held catalog.relation = some relation := by
  obtain ⟨relation, _, _, _, present, -⟩ := records
  exact ⟨relation, present⟩

theorem of_same
    {other : Contents}
    (records : catalog.Records held table row)
    (same : other catalog.relation = held catalog.relation) :
    catalog.Records other table row := by
  obtain ⟨relation, rows, block, index, present, rest⟩ := records
  exact ⟨relation, rows, block, index, same.trans present, rest⟩

end Records

variable {σ : Type} [Storage σ] [LawfulStorage σ]

section Using

variable
  {catalog : Catalog}
  {table : RelationId}
  {row : Row}
  {state : σ}

/-- What looking up finds in a catalog in use is what the catalog records. -/
theorem Filled.records
    {left : σ}
    (filled : catalog.Filled state)
    (gets : (catalog.get table).runOn state = (.ok row, left)) :
    catalog.Records (contents state) table row := by
  obtain ⟨relation, rows, present, listed⟩ := filled.listed
  obtain ⟨⟨block, index, first⟩, few, -⟩ := (get_yields present listed table).runOn gets
  exact ⟨relation, rows, block, index, present, few, listed, first⟩

/-- Nothing is found only if no row of the table is there. -/
theorem FirstAt.not_finds_none
    {rows : List (List Row)}
    {block index : Nat}
    (first : FirstAt rows table block index row) :
    ¬Finds rows table none := by
  intro absent
  obtain ⟨pageRows, among, firstIn⟩ := first.onPage
  exact absent pageRows (List.mem_of_getElem? among) row (List.mem_of_getElem? firstIn.among)
    firstIn.ofTable

theorem Records.get_yields (records : catalog.Records (contents state) table row) :
    (catalog.get table).Yields state
      (either
        (fun found left => found = row ∧ Became state left (contents state) 0)
        fun _ left => Became state left (contents state) 0 ∧ ¬Sound state) := by
  obtain ⟨relation, rows, block, index, present, few, listed, first⟩ := records
  apply (Catalog.get_yields present listed table).mono
  · intro found left holds
    rcases holds with ⟨⟨_, _, also⟩, -, became⟩
    exact ⟨(also.unique first).2.2, became⟩
  · intro fault left refused
    rcases refused with ⟨became, misses⟩
    exact ⟨became, fun sound => first.not_finds_none (misses.finds_none sound few)⟩

/-- On a sound store, looking a row up succeeds. -/
theorem Records.get_of_sound
    (records : catalog.Records (contents state) table row)
    (sound : Sound state) :
    ((catalog.get table).runOn state).1 = .ok row := by
  have gets := records.get_yields
  cases ran : (catalog.get table).runOn state with
  | mk outcome left =>
      cases outcome with
      | ok found => rw [(gets.runOn ran).1]
      | error fault => exact absurd sound (gets.runOn ran).2

/-- Changing a row, but not its table, changes what the catalog records. -/
theorem Records.update_yields
    {change : Row → Row}
    (records : catalog.Records (contents state) table row)
    (same : (change row).table = row.table) :
    (catalog.update table change).Yields state
      (either
        (fun _ left =>
          catalog.Records (contents left) table (change row) ∧
            ∃ changed, Became state left ((contents state).put catalog.relation changed) 0)
        fun _ left => Became state left (contents state) 0 ∧ ¬Sound state) := by
  have ofTable := records.ofTable
  obtain ⟨relation, rows, block, index, present, few, listed, first⟩ := records
  apply (Catalog.update_yields present listed table change).mono
  · intro _ left holds
    rcases holds with ⟨changed, _, _, _, also, changedListed, length, became⟩
    obtain ⟨rfl, rfl, rfl⟩ := also.unique first
    refine ⟨⟨changed, _, _, _, ?_, length ▸ few, changedListed, first.replaced ?_⟩, changed, became⟩
    · rw [became.holds, Contents.put_same]
    · exact same.trans ofTable
  · intro fault left refused
    rcases refused with ⟨became, misses⟩
    exact ⟨became, fun sound => first.not_finds_none (misses.finds_none sound few)⟩

/-- On a sound store, changing a row succeeds. -/
theorem Records.update_of_sound
    {change : Row → Row}
    (records : catalog.Records (contents state) table row)
    (sound : Sound state)
    (same : (change row).table = row.table) :
    ∃ left,
      (catalog.update table change).runOn state = (.ok (), left) ∧ Sound left ∧
        catalog.Records (contents left) table (change row) := by
  have updates := records.update_yields same
  cases ran : (catalog.update table change).runOn state with
  | mk outcome left =>
      cases outcome with
      | ok done =>
          obtain ⟨recorded, _, became⟩ := updates.runOn ran
          exact ⟨left, rfl, became.keepsSound sound, recorded⟩
      | error fault => exact absurd sound (updates.runOn ran).2

end Using

/-! ## Any catalog -/

section Any

variable
  (catalog : Catalog)
  (table : RelationId)

theorem locateIn_keeps
    (blocks : List BlockNumber)
    (state : σ) :
    (catalog.locateIn table blocks).Yields state fun _ left => contents left = contents state := by
  induction blocks generalizing state with
  | nil => exact yields_pure rfl
  | cons block rest inductionHypothesis =>
      apply yields_bind (read_keeps catalog.relation block state)
      · intro page between same
        apply yields_lift_bind
        · intro located _
          cases located with
          | none => exact (inductionHypothesis between).weaken fun _ _ later => later.trans same
          | some located => exact yields_pure same
        · exact fun _ _ => same
      · exact fun _ _ same => same

theorem find_keeps (state : σ) :
    (catalog.find table).Yields state fun _ left => contents left = contents state := by
  have locates :
      (catalog.locate table).Yields state fun _ left => contents left = contents state := by
    apply yields_bind (count_keeps catalog.relation state)
    · intro count between same
      exact (catalog.locateIn_keeps table _ between).weaken fun _ _ later => later.trans same
    · exact fun _ _ same => same
  apply yields_bind locates
  · intro located between same
    cases located with
    | none => exact yields_throw same
    | some located => exact yields_pure same
  · exact fun _ _ same => same

/-- Looking a row up changes nothing. -/
theorem get_keeps (state : σ) :
    (catalog.get table).Yields state fun _ left => contents left = contents state := by
  apply yields_bind (catalog.find_keeps table state)
  · exact fun _ _ same => yields_pure same
  · exact fun _ _ same => same

/-- A catalog in which something is found is there. -/
theorem get_present
    {catalog : Catalog}
    {table : RelationId}
    {row : Row}
    {state left : σ}
    (gets : (catalog.get table).runOn state = (.ok row, left)) :
    ∃ relation, contents state catalog.relation = some relation := by
  obtain ⟨_, _, finds, -⟩ := runOn_bind_eq_ok gets
  obtain ⟨_, _, locates, -⟩ := runOn_bind_eq_ok finds
  obtain ⟨_, _, counts, -⟩ := runOn_bind_eq_ok locates
  obtain ⟨counted, -⟩ := (LawfulStorage.count_law state catalog.relation).runOn counts
  obtain ⟨relation, present, -⟩ := Contents.count_eq_ok_iff.mp counted
  exact ⟨relation, present⟩

/-- Changing a row changes nothing but the catalog. -/
theorem update_keeps
    (change : Row → Row)
    (state : σ) :
    (catalog.update table change).Yields state fun _ left =>
      ∀ relation, relation ≠ catalog.relation →
        contents left relation = contents state relation := by
  apply yields_bind (catalog.find_keeps table state)
  · intro located found sameFound
    apply yields_bind (LawfulStorage.read_law found catalog.relation located.block)
    · intro page read holds
      rcases holds with ⟨-, became⟩
      apply yields_lift_bind
      · intro changed _
        apply (LawfulStorage.write_law read catalog.relation located.block changed).weaken
        intro outcome left written relation other
        cases outcome with
        | error fault => rw [written.2.holds, became.holds, sameFound]
        | ok done =>
            obtain ⟨room, -, -, written⟩ := written
            rw [written.holds, Contents.put_other _ _ other, became.holds, sameFound]
      · intro fault _ relation _
        rw [became.holds, sameFound]
    · rintro fault left ⟨-, became⟩ relation _
      rw [became.holds, sameFound]
  · intro fault left same relation _
    rw [same]

end Any

end ObliviousStorage.Catalog

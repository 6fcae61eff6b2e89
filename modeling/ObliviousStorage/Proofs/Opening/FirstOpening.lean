import ObliviousStorage.Proofs.Catalog.Records
import ObliviousStorage.Proofs.Opening.Materializing

/-!
Contract: opening the files of a table for the first time.

Owns: what a store holds after a table was opened whose files were still to be created,
and what it holds after this was refused; and that a sound store with two identities left
refuses it exactly if the table cannot be materialized.

Does not own: opening a table whose files are filled.
-/

namespace ObliviousStorage

open StorageM StorageView

namespace Catalog.Row

/-- The row of a table whose files were filled. -/
def noted (row : Row) (session : Session) : Row :=
  { row with
    tableFile := session.tableRelation
    indexFile := session.indexRelation
    filled := true }

theorem of_pending
    {row : Row}
    (pending : row.status = .ok .pending) :
    row.filled = false ∧ ∃ method, row.method = some method := by
  simp only [status, bind_eq_ok_iff, require_eq_ok_iff, exists_const, pure, Except.pure,
    Except.ok.injEq] at pending
  obtain ⟨-, -, known, same⟩ := pending
  refine ⟨?_, Option.isSome_iff_exists.mp known⟩
  cases filled : row.filled with
  | true => simp [filled] at same
  | false => rfl

end Catalog.Row

variable {σ : Type} [Storage σ] [LawfulStorage σ]

section Opening

variable
  (catalog : Catalog)
  (row : Catalog.Row)
  (method : Catalog.AccessMethod)
  (names : FileNames)
  (before : σ)

/-- What opening a table for the first time leads to. -/
structure Opened (session : Session) (after : σ) : Prop where
  files :
    ∃ layout table index,
      Materialized (contents before) row method names layout table index ∧
        session.Serves names layout ∧ contents after session.tableRelation = some table ∧
          contents after session.indexRelation = some index
  new : session.NewTo (contents before)
  recorded : catalog.Records (contents after) row.table (row.noted session)
  became : Became before after (contents after) 2

/-- What is left if opening a table for the first time is refused. -/
structure Unopened (after : σ) : Prop where
  recorded :
    ∃ tableFile indexFile,
      catalog.Records (contents after) row.table { row with tableFile, indexFile }
  sources : SourcesKept row before after
  became : Became before after (contents after) 2
  impossible :
    Sound before → 2 ≤ room before →
      ∀ layout table index,
        ¬Materialized (contents before) row method names layout table index

end Opening

section FirstOpening

variable
  {catalog : Catalog}
  {table : RelationId}
  {row : Catalog.Row}
  {state : σ}

theorem Became.here
    {before after : σ}
    {held : Contents}
    {spent : Nat}
    (became : Became before after held spent) :
    Became before after (contents after) spent := by
  rw [became.holds]
  exact became

/-- Changing the catalog leaves the heap and the index of a row alone. -/
theorem SourcesKept.put_catalog
    {before between after : σ}
    {changed : Relation}
    {spent : Nat}
    (kept : SourcesKept row before between)
    (heapElsewhere : row.heap ≠ catalog.relation)
    (indexElsewhere : row.index ≠ catalog.relation)
    (became : Became between after ((contents between).put catalog.relation changed) spent) :
    SourcesKept row before after := by
  rw [SourcesKept, became.holds, Contents.put_other _ _ heapElsewhere,
    Contents.put_other _ _ indexElsewhere]
  exact kept

theorem materialize_yields
    (records : catalog.Records (contents state) row.table row)
    (heapElsewhere : row.heap ≠ catalog.relation)
    (indexElsewhere : row.index ≠ catalog.relation)
    (method : Catalog.AccessMethod)
    (names : FileNames) :
    (materialize catalog row method names).Yields state
      (either
        (fun session left => Opened catalog row method names state session left)
        fun _ left => Unopened catalog row method names state left) := by
  obtain ⟨rowsBefore, catalogPresent⟩ := records.present
  apply yields_bind (createFilled_yields row method names state)
  · intro session filled holds
    rcases holds with ⟨layout, table, index, materialized, serves, new, became⟩
    obtain ⟨profile, fitting, -⟩ := materialized.fitting
    have spared : Spared state filled 2 := spared_withFiles rfl new became
    have sources : SourcesKept row state filled := fitting.sourcesKept spared
    have catalogKept : contents filled catalog.relation = contents state catalog.relation :=
      (spared.keeps _ _ catalogPresent).trans catalogPresent.symm
    have recordsFilled := records.of_same catalogKept
    have tableElsewhere : session.tableRelation ≠ catalog.relation := fun same =>
      absurd (new.table.symm.trans (same ▸ catalogPresent)) (by simp)
    have indexFileElsewhere : session.indexRelation ≠ catalog.relation := fun same =>
      absurd (new.index.symm.trans (same ▸ catalogPresent)) (by simp)
    apply yields_bind (recordsFilled.update_yields rfl)
    · intro _ noted holds
      rcases holds with ⟨recordsNoted, _, becameNoted⟩
      have reached := became.trans becameNoted
      have sourcesNoted := sources.put_catalog heapElsewhere indexElsewhere becameNoted
      apply yields_bind (recordsNoted.update_yields rfl)
      · intro _ left holds
        rcases holds with ⟨recordsLeft, _, becameLeft⟩
        refine yields_pure
          { files := ⟨layout, table, index, materialized, serves, ?_, ?_⟩
            new
            recorded := recordsLeft
            became := (reached.trans becameLeft).here }
        · rw [becameLeft.holds, becameNoted.holds, Contents.put_put,
            Contents.put_other _ _ tableElsewhere, became.holds, Contents.withFiles_table new]
        · rw [becameLeft.holds, becameNoted.holds, Contents.put_put,
            Contents.put_other _ _ indexFileElsewhere, became.holds, Contents.withFiles_index]
      · intro fault left refused
        rcases refused with ⟨becameLeft, unsound⟩
        refine
          { recorded :=
              ⟨_, _, recordsNoted.of_same (congrFun becameLeft.holds _)⟩
            sources := ?_
            became := (reached.trans becameLeft).here
            impossible := fun sound => absurd (reached.keepsSound sound) unsound }
        rw [SourcesKept, becameLeft.holds]
        exact sourcesNoted
    · intro fault left refused
      rcases refused with ⟨becameLeft, unsound⟩
      refine
        { recorded := ⟨_, _, recordsFilled.of_same (congrFun becameLeft.holds _)⟩
          sources := ?_
          became := (became.trans becameLeft).here
          impossible := fun sound => absurd (became.keepsSound sound) unsound }
      rw [SourcesKept, becameLeft.holds]
      exact sources
  · intro fault left refused
    rcases refused with ⟨spared, sources, impossible⟩
    have catalogKept : contents left catalog.relation = contents state catalog.relation :=
      (spared.keeps _ _ catalogPresent).trans catalogPresent.symm
    exact
      { recorded := ⟨_, _, records.of_same catalogKept⟩
        sources
        became := spared.became
        impossible }

/-- What was only read before does not matter. -/
theorem Opened.of_unchanged
    {method : Catalog.AccessMethod}
    {names : FileNames}
    {between after : σ}
    {session : Session}
    (unchanged : Became state between (contents state) 0)
    (opened : Opened catalog row method names between session after) :
    Opened catalog row method names state session after where
  files := unchanged.holds ▸ opened.files
  new := unchanged.holds ▸ opened.new
  recorded := opened.recorded
  became := unchanged.trans opened.became

theorem Unopened.of_unchanged
    {method : Catalog.AccessMethod}
    {names : FileNames}
    {between after : σ}
    (unchanged : Became state between (contents state) 0)
    (unopened : Unopened catalog row method names between after) :
    Unopened catalog row method names state after where
  recorded := unopened.recorded
  sources := by
    have kept := unopened.sources
    rwa [SourcesKept, unchanged.holds] at kept
  became := unchanged.trans unopened.became
  impossible sound identities := by
    have least := unchanged.keepsRoom
    rw [← unchanged.holds]
    exact unopened.impossible (unchanged.keepsSound sound) (by omega)

/-- Opening a table whose files are still to be created. -/
theorem openTable_yields
    {method : Catalog.AccessMethod}
    (records : catalog.Records (contents state) table row)
    (pending : row.status = .ok .pending)
    (known : row.method = some method)
    (heapElsewhere : row.heap ≠ catalog.relation)
    (indexElsewhere : row.index ≠ catalog.relation)
    (names : FileNames) :
    (openTable catalog table names).Yields state
      (either
        (fun session left => Opened catalog row method names state session left)
        fun _ left => Unopened catalog row method names state left) := by
  obtain rfl := records.ofTable
  apply yields_bind records.get_yields
  · intro _ found holds
    rcases holds with ⟨rfl, unchanged⟩
    have recordsFound := records.of_same (congrFun unchanged.holds catalog.relation)
    apply yields_lift_bind
    · intro status result
      obtain rfl := Except.ok.inj (pending.symm.trans result)
      rw [known]
      exact (materialize_yields recordsFound heapElsewhere indexElsewhere method names).mono
        (fun _ _ opened => opened.of_unchanged unchanged)
        fun _ _ unopened => unopened.of_unchanged unchanged
    · intro fault refused
      exact absurd (pending.symm.trans refused) (by simp)
  · intro fault left refused
    rcases refused with ⟨unchanged, unsound⟩
    exact
      { recorded := ⟨_, _, records.of_same (congrFun unchanged.holds _)⟩
        sources := ⟨congrFun unchanged.holds _, congrFun unchanged.holds _⟩
        became := (unchanged.weaken (Nat.zero_le 2)).here
        impossible := fun sound => absurd sound unsound }

/-- A sound store with two identities left opens a table for the first time exactly if the
table can be materialized. -/
theorem openTable_succeeds_iff
    {method : Catalog.AccessMethod}
    (sound : Sound state)
    (identities : 2 ≤ room state)
    (records : catalog.Records (contents state) table row)
    (pending : row.status = .ok .pending)
    (known : row.method = some method)
    (heapElsewhere : row.heap ≠ catalog.relation)
    (indexElsewhere : row.index ≠ catalog.relation)
    (names : FileNames) :
    (∃ session, ((openTable catalog table names).runOn state).1 = .ok session) ↔
      ∃ layout tableFile indexFile,
        Materialized (contents state) row method names layout tableFile indexFile := by
  have opens := openTable_yields records pending known heapElsewhere indexElsewhere names
  cases ran : (openTable catalog table names).runOn state with
  | mk outcome left =>
      cases outcome with
      | ok session =>
          obtain ⟨layout, tableFile, indexFile, materialized, -⟩ := (opens.runOn ran).files
          exact ⟨fun _ => ⟨layout, tableFile, indexFile, materialized⟩, fun _ => ⟨session, rfl⟩⟩
      | error fault =>
          constructor
          · intro holds
            rcases holds with ⟨session, result⟩
            exact absurd result (by simp)
          · intro holds
            rcases holds with ⟨layout, tableFile, indexFile, materialized⟩
            exact absurd materialized ((opens.runOn ran).impossible sound identities _ _ _)

end FirstOpening

end ObliviousStorage

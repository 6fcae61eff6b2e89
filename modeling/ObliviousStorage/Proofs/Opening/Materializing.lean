import ObliviousStorage.Proofs.Opening.Copying
import ObliviousStorage.Proofs.Opening.Relocating

/-!
Contract: what the files of a table hold once they were created and filled.

Owns: `Materialized`, the contents of both files in terms of the row, the file names and
the heap and index that the row names; that nothing else settles them; which tables can be
materialized; and that creating and filling the files leads to these contents, or leaves
what was there as it was.

Does not own: the catalog.
-/

namespace ObliviousStorage

open StorageM StorageView

/-- The files of a table that can be materialized, and what they hold then. -/
structure Materialized
    (held : Contents)
    (row : Catalog.Row)
    (method : Catalog.AccessMethod)
    (names : FileNames)
    (layout : Index.Layout)
    (table index : Relation) : Prop where
  names_ne : names.tableFile ≠ names.indexFile
  fitting : ∃ profile, Fitting held row profile ∧ layout.counts = profile.counts
  copied :
    ∃ heap images,
      held row.heap = some heap ∧ Heap.stampedFrom 0 heap.pages = .ok images ∧
        table = (emptyTableFile row).overlaid images
  relocated :
    ∃ placements profile,
      Index.WholeTrail (Index.Held held row.index) .relocate placements profile ∧
        (∀ placement ∈ placements, layout.Fits placement) ∧
          index = layout.placedOver (emptyIndexFile row method) placements

theorem Index.Layout.ext_counts
    {layout another : Index.Layout}
    (same : layout.counts = another.counts) :
    layout = another := by
  cases layout
  cases another
  simpa using same

namespace Materialized

variable
  {held : Contents}
  {row : Catalog.Row}
  {method : Catalog.AccessMethod}
  {names : FileNames}
  {layout another : Index.Layout}
  {table index table' index' : Relation}

/-- There is one way to materialize a table. -/
theorem unique
    (one : Materialized held row method names layout table index)
    (other : Materialized held row method names another table' index') :
    layout = another ∧ table = table' ∧ index = index' := by
  obtain ⟨-, ⟨profile, fitting, laidOut⟩, ⟨heap, images, present, stamps, rfl⟩,
    ⟨placements, moved, whole, -, rfl⟩⟩ := one
  obtain ⟨-, ⟨profile', fitting', laidOut'⟩, ⟨heap', images', present', stamps', rfl⟩,
    ⟨placements', moved', whole', -, rfl⟩⟩ := other
  obtain rfl := fitting.unique fitting'
  obtain rfl := Index.Layout.ext_counts (laidOut.trans laidOut'.symm)
  obtain rfl := Option.some.inj (present.symm.trans present')
  obtain rfl := Except.ok.inj (stamps.symm.trans stamps')
  obtain ⟨rfl, -⟩ := whole.unique (Index.held_functional held row.index) whole'
  exact ⟨rfl, rfl, rfl⟩

/-- It depends on the heap and the index alone, whatever files the row names already. -/
theorem of_same_sources
    {other : Contents}
    (materialized : Materialized held row method names layout table index)
    (sameHeap : other row.heap = held row.heap)
    (sameIndex : other row.index = held row.index)
    (tableFile indexFile : RelationId) :
    Materialized other { row with tableFile, indexFile } method names layout table index := by
  have fetched : Index.Held other row.index = Index.Held held row.index := by
    funext block page
    rw [Index.Held, Index.Held, Contents.page_congr sameIndex]
  obtain ⟨names_ne, ⟨profile, ⟨measured, indexFits, heapFits⟩, laidOut⟩,
    ⟨heap, images, present, copied⟩, relocated⟩ := materialized
  exact
    { names_ne
      fitting :=
        ⟨profile, ⟨fetched ▸ measured, indexFits, sameHeap ▸ heapFits⟩, laidOut⟩
      copied := ⟨heap, images, sameHeap.trans present, copied⟩
      relocated := fetched ▸ relocated }

end Materialized

/-- A table that fits can be materialized if its index can be relocated and its heap
copied. -/
theorem exists_materialized
    {held : Contents}
    {row : Catalog.Row}
    {profile : Index.Profile}
    {heap : Relation}
    {names : FileNames}
    (fitting : Fitting held row profile)
    (apart : Index.InnerItemsApart held row.index)
    (heapPresent : held row.heap = some heap)
    (acceptable : ∀ page ∈ heap.pages, Gateway.Acceptable page)
    (names_ne : names.tableFile ≠ names.indexFile)
    (method : Catalog.AccessMethod) :
    ∃ layout table index, Materialized held row method names layout table index := by
  obtain ⟨layout, -, laidOut⟩ :=
    Index.Layout.exists_ofProfile fitting.levels_lt fitting.pages_lt
  obtain ⟨images, stamps⟩ := Heap.exists_stampedFrom acceptable 0
  obtain ⟨visited, whole⟩ := fitting.measured
  obtain ⟨placements, moved, -⟩ := whole.relocate (apart _ _ whole)
  refine ⟨layout, _, _, names_ne, ⟨profile, fitting, laidOut⟩,
    ⟨heap, images, heapPresent, stamps, rfl⟩,
    placements, profile, moved, fun placement member => ?_, rfl⟩
  obtain ⟨number, inside, among⟩ := List.mem_iff_getElem.mp member
  rw [Index.Layout.Fits, laidOut]
  exact (moved.inOrder (List.getElem?_eq_some_iff.mpr ⟨inside, among⟩)).inside

variable {σ : Type} [Storage σ] [LawfulStorage σ]

/-- The heap and the index of a row are as they were. -/
def SourcesKept (row : Catalog.Row) (before after : σ) : Prop :=
  contents after row.heap = contents before row.heap ∧
    contents after row.index = contents before row.index

/-- The heap and the index of a table that fits are there, so they are spared with all
other relations. -/
theorem Fitting.sourcesKept
    {row : Catalog.Row}
    {profile : Index.Profile}
    {before after : σ}
    {spent : Nat}
    (fitting : Fitting (contents before) row profile)
    (spared : Spared before after spent) :
    SourcesKept row before after := by
  obtain ⟨index, indexPresent⟩ := fitting.index_present
  obtain ⟨heap, heapPresent, -⟩ := fitting.heapFits
  exact
    ⟨(spared.keeps _ _ heapPresent).trans heapPresent.symm,
      (spared.keeps _ _ indexPresent).trans indexPresent.symm⟩

theorem length_emptyTableFile (row : Catalog.Row) :
    (emptyTableFile row).pages.length = declaredBlocks row.tableBlocks := by
  simp [emptyTableFile, Relation.created, Relation.overlaid, Page.dummies]

theorem length_emptyIndexFile (row : Catalog.Row) (method : Catalog.AccessMethod) :
    (emptyIndexFile row method).pages.length =
      max (declaredBlocks row.indexBlocks) method.initialPages := by
  simp only [emptyIndexFile, initialFile, Relation.overlaid, Page.dummies, List.length_append,
    List.length_replicate, List.length_drop]
  omega

/-- Filling the files of a table that fits, once they were created. -/
theorem fillCreated_yields
    {held : Contents}
    {row : Catalog.Row}
    {method : Catalog.AccessMethod}
    {names : FileNames}
    {layout : Index.Layout}
    {profile : Index.Profile}
    {session : Session}
    {state : σ}
    (fitting : Fitting held row profile)
    (laidOut : layout.counts = profile.counts)
    (serves : session.Serves names layout)
    (new : session.NewTo held)
    (holds : contents state = held.withFiles session .created (initialFile method)) :
    (do
        let ((), gateway) ←
          (fillFiles session row : StorageM (Gateway × σ) Unit).withFirst (.opened session)
        let _ ← Heap.copy row.heap gateway.target
        Index.relocate row.index gateway.target
        return session : StorageM σ Session).Yields state
      (either
        (fun result left =>
          result = session ∧
            ∃ table index,
              Materialized held row method names layout table index ∧
                Became state left (held.withFiles session table index) 0)
        fun _ left =>
          FilesTouched held session state left ∧
            (Sound state →
              ∀ another table index,
                ¬Materialized held row method names another table index)) := by
  obtain ⟨heap, heapPresent, heapFits⟩ := fitting.heapFits
  obtain ⟨plainIndex, indexPresent⟩ := fitting.index_present
  have tableRoom : heap.pages.length ≤ (emptyTableFile row).pages.length := by
    rwa [length_emptyTableFile]
  have tableSmall : (emptyTableFile row).pages.length < blockNumberBound := by
    rw [length_emptyTableFile]
    exact declaredBlocks_lt row.tableBlocks
  have indexRoom : layout.counts.sum ≤ (emptyIndexFile row method).pages.length := by
    rw [length_emptyIndexFile, laidOut, ← profile.size_eq_sum]
    exact Nat.le_trans fitting.indexFits (Nat.le_max_left ..)
  have filling :
      ((fillFiles session row : StorageM (Gateway × σ) Unit).withFirst
          (Gateway.opened session)).Yields state
        (either
          (fun result left =>
            result.2 = Gateway.opened session ∧
              Became state left
                (held.withFiles session (emptyTableFile row) (emptyIndexFile row method)) 0)
          fun _ left => FilesTouched held session state left ∧ ¬Sound state) :=
    yields_withFirst (fillFiles_yields row new holds)
  apply yields_bind filling
  · rintro ⟨_, gateway⟩ filled ⟨same, becameFilled⟩
    obtain rfl : gateway = Gateway.opened session := same
    apply yields_bind (copy_yields new heapPresent tableRoom tableSmall becameFilled.holds)
    · intro count copied holds
      rcases holds with ⟨images, stamps, later⟩
      have becameCopied := becameFilled.trans later
      refine yields_bind
        (relocate_yields new serves.layout indexPresent indexRoom becameCopied.holds) ?_ ?_
      · intro _ left holds
        rcases holds with ⟨placements, another, whole, fit, last⟩
        refine yields_pure ⟨rfl, _, _, ?_, becameCopied.trans last⟩
        exact
          { names_ne := serves.tableFile ▸ serves.indexFile ▸ session.names_ne
            fitting := ⟨profile, fitting, laidOut⟩
            copied := ⟨heap, images, heapPresent, stamps, rfl⟩
            relocated := ⟨placements, another, whole, fit, rfl⟩ }
      · intro fault left refused
        rcases refused with ⟨⟨_, _, last⟩, reason⟩
        refine ⟨⟨_, _, becameCopied.trans last⟩, fun sound _ _ _ materialized => ?_⟩
        obtain ⟨other, fits, sameCounts⟩ := materialized.fitting
        obtain ⟨placements, shape, whole, fit, -⟩ := materialized.relocated
        obtain ⟨placement, member, unfit⟩ :=
          reason (becameCopied.keepsSound sound) placements shape whole
        obtain rfl := fitting.unique fits
        obtain rfl := Index.Layout.ext_counts (laidOut.trans sameCounts.symm)
        exact unfit (fit placement member)
    · intro fault left refused
      rcases refused with ⟨⟨_, _, later⟩, reason⟩
      refine ⟨⟨_, _, becameFilled.trans later⟩, fun sound _ _ _ materialized => ?_⟩
      obtain ⟨other, images, present, stamps, -⟩ := materialized.copied
      obtain rfl := Option.some.inj (heapPresent.symm.trans present)
      exact reason (becameFilled.keepsSound sound) images stamps
  · intro fault left refused
    rcases refused with ⟨touched, unsound⟩
    exact ⟨touched, fun sound => absurd sound unsound⟩

/-- Creating and filling the files of a table. A sound store with two identities left
refuses it only if the table cannot be materialized. -/
theorem createFilled_yields
    (row : Catalog.Row)
    (method : Catalog.AccessMethod)
    (names : FileNames)
    (state : σ) :
    (createFilled row method names).Yields state
      (either
        (fun session left =>
          ∃ layout table index,
            Materialized (contents state) row method names layout table index ∧
              session.Serves names layout ∧ session.NewTo (contents state) ∧
                Became state left ((contents state).withFiles session table index) 2)
        fun _ left =>
          Spared state left 2 ∧ SourcesKept row state left ∧
            (Sound state → 2 ≤ room state →
              ∀ layout table index,
                ¬Materialized (contents state) row method names layout table index)) := by
  apply yields_bind (measureFitting_yields row state)
  · intro profile measured holds
    rcases holds with ⟨fitting, unchanged⟩
    apply yields_bind (createFiles_yields method profile names measured fitting.levels_lt)
    · intro session created holds
      rcases holds with ⟨⟨layout, laidOut, serves⟩, new, became⟩
      rw [unchanged.holds] at new became
      have reached := unchanged.trans became
      apply (fillCreated_yields fitting laidOut serves new became.holds).mono
      · intro _ left holds
        rcases holds with ⟨rfl, table, index, materialized, later⟩
        exact ⟨layout, table, index, materialized, serves, new, reached.trans later⟩
      · intro fault left refused
        rcases refused with ⟨⟨_, _, later⟩, reason⟩
        have spared : Spared state left 2 := spared_withFiles rfl new (reached.trans later)
        exact
          ⟨spared, fitting.sourcesKept spared, fun sound _ => reason (reached.keepsSound sound)⟩
    · intro fault left refused
      rcases refused with ⟨later, reason⟩
      have unchangedSpared : Spared state measured 0 := .of_became unchanged fun _ _ => id
      have spared : Spared state left 2 := unchangedSpared.trans later
      refine ⟨spared, fitting.sourcesKept spared, fun sound identities _ _ _ materialized => ?_⟩
      have least := unchanged.keepsRoom
      rcases reason (unchanged.keepsSound sound) (by omega) with same | large
      · exact materialized.names_ne same
      · exact absurd fitting.pages_lt (Nat.not_lt.mpr large)
  · intro fault left refused
    rcases refused with ⟨unchanged, reason⟩
    have same := unchanged.holds
    refine ⟨(Spared.of_became unchanged fun _ _ => id).weaken (Nat.zero_le 2),
      ⟨congrFun same _, congrFun same _⟩, fun sound _ _ _ _ materialized => ?_⟩
    obtain ⟨profile, fitting, -⟩ := materialized.fitting
    exact reason sound profile fitting

end ObliviousStorage

import ObliviousStorage.Proofs.Catalog.Answers
import ObliviousStorage.Proofs.Opening.Retrying
import ObliviousStorage.Proofs.Storage.Accepted

/-!
Contract: what opening the files of a table leaves alone.

Owns: that opening a table, whichever calls of the store fail and whether it succeeds or
not, changes no relation that was there but the catalog's, and there neither the number of
blocks nor the row of any other table; and that an opening which is refused before the
files are created changes nothing at all.

Does not own: what the new files hold.
-/

namespace ObliviousStorage

open StorageM StorageView

section Framing

variable
  {σ : Type}
  [Storage σ]
  [LawfulStorage σ]
  {catalog : Catalog}
  {table : RelationId}

/-- Relations other than the catalog's that were there are as they were. The catalog has as
many blocks as before, and the same rows for all tables but this one. -/
structure Framed (catalog : Catalog) (table : RelationId) (before after : σ) : Prop where
  follows : Follows before after
  elsewhere :
    ∀ relation found, relation ≠ catalog.relation → contents before relation = some found →
      contents after relation = some found
  listing :
    ∀ relation pages,
      contents before catalog.relation = some relation → Catalog.Listed relation pages →
        ∃ changed changedPages,
          contents after catalog.relation = some changed ∧
            Catalog.Listed changed changedPages ∧
              changed.pages.length = relation.pages.length ∧
                ∀ other, other ≠ table →
                  Catalog.rowOf changedPages.flatten other = Catalog.rowOf pages.flatten other

namespace Framed

theorem trans
    {first second third : σ}
    (begins : Framed catalog table first second)
    (continues : Framed catalog table second third) :
    Framed catalog table first third where
  follows := follows_trans _ _ _ begins.follows continues.follows
  elsewhere relation found other present :=
    continues.elsewhere relation found other (begins.elsewhere relation found other present)
  listing relation pages present listed := by
    obtain ⟨between, betweenPages, presentBetween, listedBetween, length, same⟩ :=
      begins.listing relation pages present listed
    obtain ⟨after, afterPages, presentAfter, listedAfter, lengthAfter, sameAfter⟩ :=
      continues.listing between betweenPages presentBetween listedBetween
    exact
      ⟨after, afterPages, presentAfter, listedAfter, lengthAfter.trans length,
        fun other different => (sameAfter other different).trans (same other different)⟩

theorem of_spared
    {before after : σ}
    {spent : Nat}
    (spared : Spared before after spent) :
    Framed catalog table before after where
  follows := spared.became.follows
  elsewhere relation found _ present := spared.keeps relation found present
  listing relation pages present listed :=
    ⟨relation, pages, spared.keeps _ _ present, listed, rfl, fun _ _ => rfl⟩

theorem of_unchanged
    {before after : σ}
    {spent : Nat}
    (became : Became before after (contents before) spent) :
    Framed catalog table before after :=
  .of_spared (.of_became became fun _ _ => id)

end Framed

variable
  {relation : Relation}
  {pages : List (List Catalog.Row)}
  {state : σ}

/-- Changing the row of a table is within the frame. -/
theorem update_framed
    {change : Catalog.Row → Catalog.Row}
    (same : ∀ row, (change row).table = row.table)
    (present : contents state catalog.relation = some relation)
    (listed : Catalog.Listed relation pages) :
    (catalog.update table change).Yields state fun _ left =>
      Framed catalog table state left := by
  cases ran : (catalog.update table change).runOn state with
  | mk outcome left =>
      rw [Yields, ran]
      have updated :
          ∀ relation pages,
            contents state catalog.relation = some relation → Catalog.Listed relation pages → _ :=
        fun _ _ present listed => (Catalog.update_rows present listed table change).runOn ran
      cases outcome with
      | error fault => exact .of_unchanged (updated _ _ present listed)
      | ok done =>
          obtain ⟨changed, _, _, _, _, -, -, became⟩ := updated _ _ present listed
          refine ⟨became.follows, fun other found different among => ?_, ?_⟩
          · rw [became.holds, Contents.put_other _ _ different, among]
          · intro relation pages present listed
            obtain ⟨changed, changedPages, earlier, row, later, ⟨rows, ofTable, -⟩,
              ⟨changedListed, length, changedRows⟩, became⟩ := updated _ _ present listed
            refine ⟨changed, changedPages, ?_, changedListed, length, fun other different => ?_⟩
            · rw [became.holds, Contents.put_same]
            · rw [changedRows, rows, Catalog.rowOf_replaced (same row) (ofTable ▸ different)]

theorem noteFiles_framed
    (present : contents state catalog.relation = some relation)
    (listed : Catalog.Listed relation pages)
    (tableFile indexFile : RelationId) :
    (catalog.noteFiles table tableFile indexFile).Yields state fun _ left =>
      Framed catalog table state left :=
  update_framed (by intro row; rfl) present listed

theorem noteFilled_framed
    (present : contents state catalog.relation = some relation)
    (listed : Catalog.Listed relation pages) :
    (catalog.noteFilled table).Yields state fun _ left => Framed catalog table state left :=
  update_framed (by intro row; rfl) present listed

theorem materialize_framed
    {row : Catalog.Row}
    (present : contents state catalog.relation = some relation)
    (listed : Catalog.Listed relation pages)
    (method : Catalog.AccessMethod)
    (names : FileNames) :
    (materialize catalog row method names).Yields state fun _ left =>
      Framed catalog row.table state left := by
  apply yields_bind (createFilled_yields row method names state)
  · rintro session filled ⟨layout, table, index, -, -, new, became⟩
    have created : Framed catalog row.table state filled :=
      .of_spared (spared_withFiles rfl new became)
    obtain ⟨noted, notedPages, notedPresent, notedListed, -⟩ :=
      created.listing relation pages present listed
    apply yields_bind (noteFiles_framed notedPresent notedListed _ _)
    · intro _ between noteFiles
      obtain ⟨_, _, leftPresent, leftListed, -⟩ := noteFiles.listing _ _ notedPresent notedListed
      apply yields_bind (noteFilled_framed leftPresent leftListed)
      · exact fun _ left noteFilled => yields_pure (created.trans (noteFiles.trans noteFilled))
      · exact fun _ left noteFilled => created.trans (noteFiles.trans noteFilled)
    · exact fun _ left noteFiles => created.trans noteFiles
  · rintro fault left ⟨spared, -⟩
    exact .of_spared spared

/-- Opening a table stays within the frame, whatever comes of it. -/
theorem openTable_framed
    (present : contents state catalog.relation = some relation)
    (listed : Catalog.Listed relation pages)
    (names : FileNames) :
    (openTable catalog table names).Yields state fun _ left =>
      Framed catalog table state left := by
  apply yields_bind (Catalog.get_yields present listed table)
  · rintro row found ⟨⟨_, _, first⟩, -, became⟩
    obtain ⟨_, -, firstIn⟩ := first.onPage
    obtain rfl := firstIn.ofTable
    have unchanged : Framed catalog row.table state found := .of_unchanged became
    apply yields_lift_bind
    · intro status _
      have presentFound : contents found catalog.relation = some relation :=
        congrFun became.holds _ ▸ present
      split
      · exact yields_lift unchanged
      · exact (materialize_framed presentFound listed _ names).weaken fun _ _ framed =>
          unchanged.trans framed
      · exact yields_throw unchanged
    · exact fun _ _ => unchanged
  · rintro fault left ⟨became, -⟩
    exact .of_unchanged became

/-! ## Early refusals -/

/-- Opening a table is refused before its files are created: it has no row, or the row
cannot be acted on, or its index cannot be measured, or the index or the heap is missing or
does not fit the declared sizes. -/
inductive RefusedEarly (catalog : Catalog) (table : RelationId) (state : σ) (fault : Fault) : Prop
  | noRow (missing : ((catalog.get table).runOn state).1 = .error fault)
  | invalid
      {row : Catalog.Row}
      {found : σ}
      (gets : (catalog.get table).runOn state = (.ok row, found))
      (unusable : row.status = .error fault)
  | unfit
      {row : Catalog.Row}
      {found : σ}
      (gets : (catalog.get table).runOn state = (.ok row, found))
      (pending : row.status = .ok .pending)
      (unfit : ((measureFitting row).runOn found).1 = .error fault)

/-- An early refusal leaves everything as it was. -/
theorem RefusedEarly.openTable_yields
    {fault : Fault}
    (refused : RefusedEarly catalog table state fault)
    (names : FileNames) :
    (openTable catalog table names).Yields state fun outcome left =>
      outcome = .error fault ∧ contents left = contents state := by
  have looks := catalog.get_keeps table state
  cases refused with
  | noRow missing => exact yields_bind_stop ⟨missing, rfl, looks⟩
  | @invalid row found gets unusable =>
      have same : contents found = contents state := looks.runOn gets
      refine yields_bind_value (yields_of_runOn gets ⟨rfl, rfl⟩) ?_
      rintro _ rfl
      exact yields_bind_stop (yields_lift ⟨unusable, rfl, same⟩)
  | @unfit row found gets pending unfit =>
      have same : contents found = contents state := looks.runOn gets
      have measures := (measureFitting_yields row found).runOn (runOn_eq_of_outcome unfit)
      obtain ⟨-, method, known⟩ := Catalog.Row.of_pending pending
      refine yields_bind_value (yields_of_runOn gets ⟨rfl, rfl⟩) ?_
      rintro _ rfl
      apply yields_lift_bind_value pending
      rw [known]
      have creates :
          (createFilled row method names).Yields found fun outcome left =>
            outcome = .error fault ∧ contents left = contents state :=
        yields_bind_stop ⟨unfit, rfl, measures.1.holds.trans same⟩
      exact yields_bind_stop (creates.weaken fun _ _ holds => ⟨holds.1, rfl, holds.2⟩)

end Framing

/-- Opening a table changes nothing else. Whatever calls fail, and whether the table is
opened or not, every relation that was there keeps its blocks, except that the catalog may
say something else of this table: it has as many blocks as before, and looking up any other
table is answered as before. An opening that is refused before the files are created, for
want of a row or because the row, the index or the heap does not do, changes nothing. -/
theorem openTable_frame
    {σ : Type}
    [Storage σ]
    [LawfulStorage σ]
    {state : σ}
    {left : Faulty σ}
    {catalog : Catalog}
    {table : RelationId}
    {names : FileNames}
    {plan : FaultPlan}
    {outcome : Except Fault Session}
    (inUse : catalog.Filled state)
    (runs : (openTable catalog table names).runOn (Faulty.start plan state) = (outcome, left)) :
    (∀ relation found, relation ≠ catalog.relation → contents state relation = some found →
        contents left.inner relation = some found) ∧
      (∃ before after,
        contents state catalog.relation = some before ∧
          contents left.inner catalog.relation = some after ∧
            after.pages.length = before.pages.length) ∧
        (Sound state → ∀ other, other ≠ table →
          ((catalog.get other).runOn left.inner).1 = ((catalog.get other).runOn state).1) ∧
          ∀ fault, RefusedEarly catalog table (Faulty.start plan state) fault →
            outcome = .error fault ∧ contents left.inner = contents state := by
  obtain ⟨before, pages, present, listed⟩ := inUse.listed
  have presentFaulty : contents (Faulty.start plan state) catalog.relation = some before := present
  have framed := (openTable_framed presentFaulty listed names).runOn runs
  obtain ⟨after, afterPages, presentAfter, listedAfter, length, same⟩ :=
    framed.listing before pages presentFaulty listed
  refine ⟨framed.elsewhere, ⟨before, after, present, presentAfter, length⟩, ?_, ?_⟩
  · intro sound other different
    have soundLeft : Sound left.inner := sound_of_follows _ _ framed.follows.2 sound
    rw [Catalog.get_answers soundLeft presentAfter listedAfter,
      Catalog.get_answers sound present listed, Catalog.answer, Catalog.answer, length,
      same other different]
  · intro fault refused
    exact (refused.openTable_yields names).runOn runs

/-- A small table that is opened on a store which writes one page only keeps its heap and its
index, and another table still has no row. Opening that one changes nothing. -/
theorem openTable_frame_small :
    ∃ outcome left another,
      (openTable smallCatalog 7 smallNames).runOn
          (Faulty.start (FaultBudget.plan ⟨none, none, none, some 1, none⟩) smallStore) =
        (outcome, left) ∧
        contents left.inner 2 = some ⟨[Page.plain], Page.zero⟩ ∧
        contents left.inner 3 = some ⟨Index.smallestIndex ⟨5, 0, 1⟩, Page.zero⟩ ∧
        ((smallCatalog.get 8).runOn left.inner).1 = .error (.notFound 8) ∧
        (openTable smallCatalog 8 smallNames).runOn (Faulty.start .none smallStore) =
          (.error (.notFound 8), another) ∧
        contents another.inner = contents smallStore := by
  have sound : Sound smallStore := tableStore_sound
  have soundFaulty : Sound (Faulty.start .none smallStore) :=
    ⟨fun _ _ _ => rfl, tableStore_sound⟩
  have inUse : smallCatalog.Filled smallStore := tableStore_inUse (by decide)
  have present : contents smallStore smallCatalog.relation = _ := tableStore_catalog
  have listed := tableStore_listed (smallRow .btree 2)
  have heap : contents smallStore 2 = _ := tableStore_heap
  have index : contents smallStore 3 = _ := smallStore_index
  -- What the store holds must not be unfolded below.
  generalize smallStore = state at *
  have few :
      [Page.plain.grownBy (smallRow .btree 2).toBytes].length < blockNumberBound :=
    show 1 < blockNumberBound by decide
  have missing : ((smallCatalog.get 8).runOn state).1 = .error (.notFound 8) :=
    Catalog.get_missing sound present listed few rfl
  have missingFaulty :
      ((smallCatalog.get 8).runOn (Faulty.start .none state)).1 = .error (.notFound 8) :=
    Catalog.get_missing soundFaulty present listed few rfl
  have fills :=
    runOn_eq_of_outcome
      (Eq.refl
        ((openTable smallCatalog 7 smallNames).runOn
          (Faulty.start (FaultBudget.plan ⟨none, none, none, some 1, none⟩) state)).1)
  have looks :=
    runOn_eq_of_outcome
      (Eq.refl ((openTable smallCatalog 8 smallNames).runOn (Faulty.start .none state)).1)
  obtain ⟨elsewhere, -, others, -⟩ := openTable_frame inUse fills
  obtain ⟨-, -, -, early⟩ := openTable_frame inUse looks
  obtain ⟨refused, unchanged⟩ := early _ (.noRow missingFaulty)
  exact
    ⟨_, _, _, fills, elsewhere 2 _ (by decide) heap, elsewhere 3 _ (by decide) index,
      (others sound 8 (by decide)).trans missing, runOn_eq_of_outcome refused, unchanged⟩

end ObliviousStorage

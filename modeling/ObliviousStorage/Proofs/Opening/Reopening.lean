import ObliviousStorage.Proofs.Catalog.FilledRows
import ObliviousStorage.Proofs.Gateway.Confinement
import ObliviousStorage.Proofs.Opening.Frames
import ObliviousStorage.Proofs.Storage.Precise

/-!
Contract: a table that was opened stays open.

Owns: that the first opening leads to a catalog that says of the table that its files are
filled, and which they are; that no later operation ends this; and what opening such a table
does.

Does not own: what the files hold. Later operations may well change that.
-/

namespace ObliviousStorage

open StorageM StorageView

/-! ## The first opening -/

section Opening

variable
  {σ : Type}
  [Storage σ]
  [LawfulStorage σ]
  {catalog : Catalog}
  {table : RelationId}
  {names : FileNames}
  {state : σ}

/-- A session over recorded files takes them from the row. -/
theorem openRecorded_eq_ok
    {row : Catalog.Row}
    {session : Session}
    (opens : openRecorded row names = .ok session) :
    session.tableRelation = row.tableFile ∧ session.indexRelation = row.indexFile ∧
      row.tableFile ≠ noRelation ∧ row.indexFile ≠ noRelation := by
  obtain ⟨_, recorded, creates⟩ := bind_eq_ok_iff.mp opens
  obtain ⟨table, index⟩ := require_eq_ok_iff.mp recorded
  rw [Session.create] at creates
  split at creates
  · exact absurd creates (by simp)
  · obtain rfl := Except.ok.inj creates
    exact ⟨rfl, rfl, table, index⟩

/-- The files of a session are relations that can be recorded. -/
def Session.Recordable (session : Session) : Prop :=
  session.tableRelation ≠ noRelation ∧ session.indexRelation ≠ noRelation

theorem createFiles_recordable
    [PreciseStorage σ]
    {method : Catalog.AccessMethod}
    {profile : Index.Profile}
    {session : Session}
    {left : σ}
    (identities : 2 ≤ room state)
    (creates : (createFiles method profile names).runOn state = (.ok session, left)) :
    session.Recordable := by
  obtain ⟨tableRelation, first, createsTable, rest⟩ := runOn_bind_eq_ok creates
  obtain ⟨indexRelation, second, createsIndex, rest⟩ := runOn_bind_eq_ok rest
  obtain ⟨_, _, -, rest⟩ := runOn_bind_eq_ok rest
  obtain ⟨bare, _, made, rest⟩ := runOn_bind_eq_ok rest
  obtain ⟨layout, _, -, returned⟩ := runOn_bind_eq_ok rest
  have tableNamed := (PreciseStorage.create_named state).runOn createsTable (by omega)
  obtain ⟨-, became⟩ := (LawfulStorage.create_law state).runOn createsTable
  have left := became.keepsRoom
  have indexNamed := (PreciseStorage.create_named first).runOn createsIndex (by omega)
  have created :
      Session.create names.tableFile names.indexFile tableRelation indexRelation none =
        .ok bare :=
    congrArg Prod.fst made
  rw [Session.create] at created
  split at created
  · exact absurd created (by simp)
  · obtain rfl := Except.ok.inj created
    obtain rfl := Except.ok.inj (congrArg Prod.fst returned)
    exact ⟨tableNamed, indexNamed⟩

theorem createFilled_recordable
    [PreciseStorage σ]
    {row : Catalog.Row}
    {method : Catalog.AccessMethod}
    {session : Session}
    {left : σ}
    (identities : 2 ≤ room state)
    (creates : (createFilled row method names).runOn state = (.ok session, left)) :
    session.Recordable := by
  obtain ⟨profile, measured, measures, rest⟩ := runOn_bind_eq_ok creates
  obtain ⟨found, _, createsFiles, rest⟩ := runOn_bind_eq_ok rest
  obtain ⟨_, _, -, rest⟩ := runOn_bind_eq_ok rest
  obtain ⟨_, _, -, rest⟩ := runOn_bind_eq_ok rest
  obtain ⟨_, _, -, returned⟩ := runOn_bind_eq_ok rest
  obtain rfl := Except.ok.inj (congrArg Prod.fst returned)
  obtain ⟨-, became⟩ := (measureFitting_yields row state).runOn measures
  have left := became.keepsRoom
  exact createFiles_recordable (by omega) createsFiles

section Recording

variable
  {relation : Relation}
  {pages : List (List Catalog.Row)}
  {session : Session}
  {left : σ}

/-- Files that were just filled are recorded. -/
theorem materialize_records
    [PreciseStorage σ]
    {row : Catalog.Row}
    {method : Catalog.AccessMethod}
    (present : contents state catalog.relation = some relation)
    (listed : Catalog.Listed relation pages)
    (isRow : Catalog.rowOf pages.flatten row.table = some row)
    (pending : row.status = .ok .pending)
    (identities : session.layout ≠ none → 2 ≤ room state)
    (fills : (materialize catalog row method names).runOn state = (.ok session, left)) :
    catalog.StillRecords row.table session.tableRelation session.indexRelation state left ∧
      session.Recordable := by
  obtain ⟨made, filled, creates, rest⟩ := runOn_bind_eq_ok fills
  obtain ⟨_, noted, notesFiles, rest⟩ := runOn_bind_eq_ok rest
  obtain ⟨_, last, notesFilled, returned⟩ := runOn_bind_eq_ok rest
  obtain rfl := Except.ok.inj (congrArg Prod.fst returned)
  obtain rfl : last = left := congrArg Prod.snd returned
  obtain ⟨layout, _, _, -, serves, new, became⟩ :=
    (createFilled_yields row method names state).runOn creates
  have laidOut : made.layout ≠ none := by simp [serves.layout]
  have presentFilled : contents filled catalog.relation = some relation := by
    rw [became.holds, Contents.withFiles_of_some new present]
  obtain ⟨withFiles, pagesNoted, listedNoted, isNoted, becameNoted⟩ :=
    (Catalog.update_rowOf presentFilled listed isRow (by rfl)).runOn notesFiles
  have presentNoted : contents noted catalog.relation = some withFiles := by
    rw [becameNoted.holds, Contents.put_same]
  obtain ⟨asFilled, pagesLast, listedLast, isLast, becameLast⟩ :=
    (Catalog.update_rowOf presentNoted listedNoted isNoted (by rfl)).runOn notesFilled
  have presentLast : contents last catalog.relation = some asFilled := by
    rw [becameLast.holds, Contents.put_same]
  have follows := ((became.trans becameNoted).trans becameLast).follows
  exact
    ⟨⟨follows, asFilled, pagesLast, _, presentLast, listedLast, isLast,
        Catalog.Row.namesFiles_noted pending _ _⟩,
      createFilled_recordable (identities laidOut) creates⟩

/-- After a table was opened, the catalog says which its files are. -/
theorem openTable_records
    [PreciseStorage σ]
    (present : contents state catalog.relation = some relation)
    (listed : Catalog.Listed relation pages)
    (identities : session.layout ≠ none → 2 ≤ room state)
    (opens : (openTable catalog table names).runOn state = (.ok session, left)) :
    catalog.StillRecords table session.tableRelation session.indexRelation state left ∧
      session.Recordable := by
  obtain ⟨row, found, gets, rest⟩ := runOn_bind_eq_ok opens
  obtain ⟨⟨_, _, first⟩, -, looked⟩ := (Catalog.get_yields present listed table).runOn gets
  have isRow := first.rowOf_eq
  obtain rfl := Catalog.ofTable_of_rowOf isRow
  have presentFound : contents found catalog.relation = some relation :=
    congrFun looked.holds _ ▸ present
  obtain ⟨status, same, judges, rest⟩ := runOn_bind_eq_ok rest
  obtain rfl : found = same := congrArg Prod.snd judges
  have judged : row.status = .ok status := congrArg Prod.fst judges
  split at rest
  · have recorded : openRecorded row names = .ok session := congrArg Prod.fst rest
    obtain rfl : found = left := congrArg Prod.snd rest
    obtain ⟨ofTable, ofIndex, tableNamed, indexNamed⟩ := openRecorded_eq_ok recorded
    exact
      ⟨⟨looked.follows, relation, pages, row, presentFound, listed, isRow, judged, ofTable.symm,
          ofIndex.symm⟩,
        ofTable ▸ tableNamed, ofIndex ▸ indexNamed⟩
  · have room := looked.keepsRoom
    obtain ⟨⟨follows, records⟩, recordable⟩ :=
      materialize_records presentFound listed isRow judged
        (fun laidOut => Nat.le_trans (identities laidOut) room) rest
    exact ⟨⟨follows_trans _ _ _ looked.follows follows, records⟩, recordable⟩
  · exact absurd (congrArg Prod.fst rest) (by simp)

end Recording

/-! ## Opening again -/

/-- Opening a table whose files are filled changes nothing. -/
theorem openTable_unchanged
    {tableFile indexFile : RelationId}
    (records : catalog.RecordsFiles (contents state) table tableFile indexFile)
    (names : FileNames) :
    (openTable catalog table names).Yields state fun _ left =>
      Became state left (contents state) 0 := by
  obtain ⟨relation, pages, row, present, listed, isRow, namesFiles⟩ := records
  apply yields_bind (Catalog.get_yields present listed table)
  · rintro found between ⟨⟨_, _, first⟩, -, became⟩
    obtain rfl := Option.some.inj (isRow.symm.trans first.rowOf_eq)
    apply yields_lift_bind_value namesFiles.filled
    exact yields_lift became
  · exact fun _ _ refused => refused.1

/-- Opening any table does not end what the catalog says of a table that was opened. -/
theorem openTable_still
    {tableFile indexFile : RelationId}
    (records : catalog.RecordsFiles (contents state) table tableFile indexFile)
    (other : RelationId)
    (names : FileNames) :
    (openTable catalog other names).Yields state fun _ left =>
      catalog.StillRecords table tableFile indexFile state left := by
  by_cases ours : other = table
  · subst ours
    exact (openTable_unchanged records names).weaken fun _ _ => records.still_of_unchanged
  · obtain ⟨relation, pages, row, present, listed, isRow, namesFiles⟩ := records
    apply (openTable_framed present listed names).weaken
    intro _ left framed
    obtain ⟨changed, changedPages, presentLeft, changedListed, -, same⟩ :=
      framed.listing relation pages present listed
    exact
      ⟨framed.follows, changed, changedPages, row, presentLeft, changedListed,
        (same table (Ne.symm ours)).trans isRow, namesFiles⟩

/-- A session over the files of another one, under these names and without a layout. -/
structure Session.Reopens (again first : Session) (names : FileNames) : Prop where
  tableFile : again.tableFile = names.tableFile
  indexFile : again.indexFile = names.indexFile
  tableRelation : again.tableRelation = first.tableRelation
  indexRelation : again.indexRelation = first.indexRelation
  layout : again.layout = none

theorem openRecorded_reopens
    {row : Catalog.Row}
    {session : Session}
    (namesFiles : row.NamesFiles session.tableRelation session.indexRelation)
    (recordable : session.Recordable)
    (distinct : names.tableFile ≠ names.indexFile) :
    ∃ again, openRecorded row names = .ok again ∧ again.Reopens session names := by
  have recorded : row.tableFile ≠ noRelation ∧ row.indexFile ≠ noRelation := by
    rw [namesFiles.table, namesFiles.index]
    exact recordable
  rw [openRecorded, require, if_pos recorded, Session.create]
  exact
    ⟨_, dif_neg distinct,
      { tableFile := rfl
        indexFile := rfl
        tableRelation := namesFiles.table
        indexRelation := namesFiles.index
        layout := rfl }⟩

theorem few_of_counted
    {relation : Relation}
    {count : BlockNumber}
    (present : contents state catalog.relation = some relation)
    (counted :
      ((Storage.blockCount catalog.relation : StorageM σ BlockNumber).runOn state).1 = .ok count) :
    relation.pages.length < blockNumberBound := by
  obtain ⟨counts, -⟩ :=
    (LawfulStorage.count_law state catalog.relation).runOn (runOn_eq_of_outcome counted)
  obtain ⟨found, among, length⟩ := Contents.count_eq_ok_iff.mp counts
  obtain rfl := Option.some.inj (present.symm.trans among)
  exact length ▸ count.toNat_lt

/-- A sound store that counts the blocks of the catalog finds the row of a table whose files
are recorded. -/
theorem Catalog.RecordsFiles.get_of_sound
    {tableFile indexFile : RelationId}
    {count : BlockNumber}
    (records : catalog.RecordsFiles (contents state) table tableFile indexFile)
    (sound : Sound state)
    (counted :
      ((Storage.blockCount catalog.relation : StorageM σ BlockNumber).runOn state).1 = .ok count) :
    ∃ row : Catalog.Row,
      ((catalog.get table).runOn state).1 = .ok row ∧ row.NamesFiles tableFile indexFile := by
  obtain ⟨relation, pages, row, present, listed, isRow, namesFiles⟩ := records
  refine ⟨row, ?_, namesFiles⟩
  rw [Catalog.get_answers sound present listed, Catalog.answer,
    if_pos (few_of_counted present counted), isRow]

/-- Opening a table whose files are recorded reads blocks of the catalog and does nothing
else. -/
theorem openTable_reopens
    {session : Session}
    {count : BlockNumber}
    (records :
      catalog.RecordsFiles (contents state) table session.tableRelation session.indexRelation)
    (recordable : session.Recordable)
    (sound : Sound state)
    (counted :
      ((Storage.blockCount catalog.relation : StorageM σ BlockNumber).runOn state).1 = .ok count)
    (distinct : names.tableFile ≠ names.indexFile) :
    ∃ (again : Session) (left : Traced σ) (blocks : List BlockNumber),
      (openTable catalog table names).runOn (Traced.fresh state) = (.ok again, left) ∧
        again.Reopens session names ∧ contents left.inner = contents state ∧
          left.trace.toList = blocks.map (Transfer.read catalog.relation) := by
  have outside :
      catalog.RecordsFiles (contents (Traced.fresh state)) table session.tableRelation
        session.indexRelation :=
    records
  obtain ⟨row, gets, namesFiles⟩ := outside.get_of_sound (Traced.sound_fresh sound) counted
  obtain ⟨again, recorded, reopens⟩ := openRecorded_reopens namesFiles recordable distinct
  have runs :
      (openTable catalog table names).Yields (Traced.fresh state) fun outcome left =>
        outcome = .ok again ∧
          ∃ blocks : List BlockNumber,
            left.trace.toList = blocks.map (Transfer.read catalog.relation) := by
    have looks :
        (catalog.get table).Yields (Traced.fresh state) fun outcome left =>
          outcome = .ok row ∧
            ∃ blocks : List BlockNumber,
              left.trace.toList = blocks.map (Transfer.read catalog.relation) :=
      ⟨gets, catalog.get_onlyReads table (Traced.fresh state)⟩
    refine yields_bind_value looks fun found reads => ?_
    exact yields_lift_bind_value namesFiles.filled (yields_lift ⟨recorded, reads⟩)
  obtain ⟨opens, blocks, reads⟩ := runs
  have unchanged := openTable_unchanged outside names
  exact ⟨again, _, blocks, runOn_eq_of_outcome opens, reopens, unchanged.holds, reads⟩

/-! ## Later operations -/

/-- An operation that may follow the opening of a table: on the catalog, though it must not
name other files for the table, or through a session whose files are not the catalog. -/
inductive Operation (catalog : Catalog) (table : RelationId) where
  | openTable (other : RelationId) (names : FileNames)
  | insert (row : Catalog.Row)
  | noteFilled (other : RelationId)
  | noteFiles (other tableFile indexFile : RelationId) (different : other ≠ table)
  | request
      (gateway : Gateway)
      (elsewhere : ¬gateway.session.Owns catalog.relation)
      (asked : Request)
  | addIndexPage
      (gateway : Gateway)
      (elsewhere : ¬gateway.session.Owns catalog.relation)
      (page : Page)
      (offset depth : Nat)
  | addHeapPage
      (gateway : Gateway)
      (elsewhere : ¬gateway.session.Owns catalog.relation)
      (page : Page)
      (block : BlockNumber)
  | append
      (gateway : Gateway)
      (elsewhere : ¬gateway.session.Owns catalog.relation)
      (active : ActiveBlock)
      (record : List UInt8)
  | scan
      (gateway : Gateway)
      (elsewhere : ¬gateway.session.Owns catalog.relation)
      (active : ActiveBlock)
      (before : Scan)

namespace Operation

/-- Performs an operation. Only its effect on the store matters here. -/
def action : Operation catalog table → StorageM σ Unit
  | .openTable other names => do
      let _ ← ObliviousStorage.openTable catalog other names
  | .insert row => catalog.insert row
  | .noteFilled other => catalog.noteFilled other
  | .noteFiles other tableFile indexFile _ => catalog.noteFiles other tableFile indexFile
  | .request gateway _ asked => do
      let _ ← asked.action.withFirst gateway
  | .addIndexPage gateway _ page offset depth => gateway.addIndexPage page offset depth
  | .addHeapPage gateway _ page block => gateway.addHeapPage page block
  | .append gateway _ active record => do
      let _ ← active.append gateway record
  | .scan gateway _ active before => do
      let _ ← (active.scan gateway).withFirst before

/-- The store after operations, each performed whatever came of those before it. -/
def afterAll : List (Operation catalog table) → σ → σ
  | [], state => state
  | operation :: rest, state => afterAll rest (operation.action.runOn state).2

variable {tableFile indexFile : RelationId}

/-- The operation goes through a session over other files. -/
def Aside : Operation catalog table → Prop
  | .openTable .. | .insert _ | .noteFilled _ | .noteFiles .. => False
  | .request .. | .addIndexPage .. | .addHeapPage .. | .append .. | .scan .. => True

/-- What goes through a session over other files leaves the catalog as it is. -/
theorem action_keeps
    {operation : Operation catalog table}
    (aside : operation.Aside) :
    operation.action.Yields state fun _ left =>
      Keeps (fun relation => relation ≠ catalog.relation) state left := by
  have spared :
      ∀ {gateway : Gateway} {left : σ}, ¬gateway.session.Owns catalog.relation →
        Keeps gateway.session.Owns state left →
          Keeps (fun relation => relation ≠ catalog.relation) state left := by
    intro gateway left elsewhere kept
    refine ⟨kept.follows, fun relation same => kept.same relation fun owned => ?_⟩
    exact elsewhere (not_not.mp same ▸ owned)
  cases operation with
  | openTable | insert | noteFilled | noteFiles => exact absurd aside id
  | request gateway elsewhere asked =>
      have keeps :
          (asked.action.withFirst gateway).Yields state fun _ left =>
            Keeps gateway.session.Owns state left :=
        asked.action_keeps gateway state
      exact yields_bind keeps (fun _ _ kept => yields_pure (spared elsewhere kept))
        fun _ _ kept => spared elsewhere kept
  | addIndexPage gateway elsewhere page offset depth =>
      exact ((gateway.addIndexPage_confined page offset depth).keeps state).weaken
        fun _ _ => spared elsewhere
  | addHeapPage gateway elsewhere page block =>
      exact ((gateway.addHeapPage_confined page block).keeps state).weaken
        fun _ _ => spared elsewhere
  | append gateway elsewhere active record =>
      exact yields_bind ((gateway.append_confined active record).keeps state)
        (fun _ _ kept => yields_pure (spared elsewhere kept))
        fun _ _ kept => spared elsewhere kept
  | scan gateway elsewhere active before =>
      have keeps :
          ((active.scan gateway : StorageM (Scan × σ) Bool).withFirst before).Yields state
            fun _ left => Keeps gateway.session.Owns state left :=
        gateway.scan_keeps active before state
      exact yields_bind keeps (fun _ _ kept => yields_pure (spared elsewhere kept))
        fun _ _ kept => spared elsewhere kept

/-- No operation ends what the catalog says of a table that was opened. -/
theorem action_still
    (records : catalog.RecordsFiles (contents state) table tableFile indexFile)
    (operation : Operation catalog table) :
    operation.action.Yields state fun _ left =>
      catalog.StillRecords table tableFile indexFile state left := by
  cases operation with
  | openTable other names =>
      exact yields_bind (openTable_still records other names) (fun _ _ still => yields_pure still)
        fun _ _ still => still
  | insert row => exact records.insert_still row
  | noteFilled other => exact records.noteFilled_still other
  | noteFiles other newTable newIndex different =>
      exact records.noteFiles_still different newTable newIndex
  | request | addIndexPage | addHeapPage | append | scan =>
      apply (action_keeps (by exact trivial)).weaken
      intro outcome left kept
      exact records.still_of_keeps (fun other => other rfl) kept

theorem afterAll_still
    (records : catalog.RecordsFiles (contents state) table tableFile indexFile)
    (operations : List (Operation catalog table)) :
    catalog.StillRecords table tableFile indexFile state (afterAll operations state) := by
  induction operations generalizing state with
  | nil => exact ⟨follows_refl state, records⟩
  | cons operation rest inductionHypothesis =>
      obtain ⟨follows, still⟩ := operation.action_still records
      obtain ⟨later, atEnd⟩ := inductionHypothesis still
      exact ⟨follows_trans _ _ _ follows later, atEnd⟩

/-- The catalog holds rows only, in at most so many blocks. -/
def Short (catalog : Catalog) (bound : Nat) (state : σ) : Prop :=
  ∃ relation pages,
    contents state catalog.relation = some relation ∧ Catalog.Listed relation pages ∧
      relation.pages.length ≤ bound

/-- An operation adds at most one block to the catalog. -/
theorem action_short
    {bound : Nat}
    (short : Short catalog bound state)
    (operation : Operation catalog table) :
    operation.action.Yields state fun _ left => Short catalog (bound + 1) left := by
  obtain ⟨relation, pages, present, listed, few⟩ := short
  have framed :
      ∀ {other : RelationId} {left : σ}, Framed catalog other state left →
        Short catalog (bound + 1) left := by
    intro other left framed
    obtain ⟨grown, grownPages, presentGrown, listedGrown, length, -⟩ :=
      framed.listing relation pages present listed
    exact ⟨grown, grownPages, presentGrown, listedGrown, by omega⟩
  have lists :
      ∀ {left : σ} {listing : List Catalog.Row}, catalog.NowLists state left listing →
        Short catalog (bound + 1) left := by
    intro left listing lists
    obtain ⟨grown, grownPages, listedGrown, -, grows, became⟩ := lists
    have presentGrown : contents left catalog.relation = some grown := by
      rw [became.holds, Contents.put_same]
    have atMost := grows relation present
    exact ⟨grown, grownPages, presentGrown, listedGrown, by omega⟩
  cases operation with
  | openTable other names =>
      exact yields_bind (openTable_framed present listed names)
        (fun _ _ opened => yields_pure (framed opened)) fun _ _ opened => framed opened
  | insert row =>
      apply (Catalog.insert_yields present listed row).weaken
      intro outcome left inserted
      cases outcome with
      | ok done => exact lists inserted.2.2
      | error fault => exact lists inserted.1
  | noteFilled other =>
      exact (noteFilled_framed present listed).weaken fun _ _ => framed
  | noteFiles other newTable newIndex different =>
      exact (noteFiles_framed present listed newTable newIndex).weaken fun _ _ => framed
  | request | addIndexPage | addHeapPage | append | scan =>
      apply (action_keeps (by exact trivial)).weaken
      intro outcome left kept
      have same := kept.same catalog.relation fun other => other rfl
      exact ⟨relation, pages, same.trans present, listed, Nat.le_succ_of_le few⟩

theorem afterAll_short
    {bound : Nat}
    (short : Short catalog bound state)
    (operations : List (Operation catalog table)) :
    Short catalog (bound + operations.length) (afterAll operations state) := by
  induction operations generalizing state bound with
  | nil => exact short
  | cons operation rest inductionHypothesis =>
      rw [List.length_cons, Nat.add_comm rest.length, ← Nat.add_assoc]
      exact inductionHypothesis (operation.action_short short)

end Operation

end Opening

/-- A table that was opened stays open. After whatever operations that do not name other
files for it and do not go through a session over the catalog, whichever calls fail, every row
that is found for it is that of a filled table. On the store underneath, as long as it can
count the blocks of the catalog, the row is found, and opening the table again under any two
names leads to the same two files, reads blocks of the catalog only and changes nothing. -/
theorem openTable_stays_open
    {σ : Type}
    [Storage σ]
    [LawfulStorage σ]
    [PreciseStorage σ]
    {state : σ}
    {left : Faulty σ}
    {catalog : Catalog}
    {table : RelationId}
    {names : FileNames}
    {plan : FaultPlan}
    {session : Session}
    (sound : Sound state)
    (inUse : catalog.Filled state)
    (identities : session.layout ≠ none → 2 ≤ room state)
    (opens : (openTable catalog table names).runOn (Faulty.start plan state) = (.ok session, left))
    (operations : List (Operation catalog table)) :
    let last := Operation.afterAll operations left
    (∀ row later, (catalog.get table).runOn last = (.ok row, later) → row.filled = true) ∧
      ∀ count,
        ((Storage.blockCount catalog.relation : StorageM σ BlockNumber).runOn last.inner).1 =
            .ok count →
          (∃ row : Catalog.Row,
            ((catalog.get table).runOn last.inner).1 = .ok row ∧ row.filled = true) ∧
            ∀ other : FileNames, other.tableFile ≠ other.indexFile →
              ∃ (again : Session) (later : Traced σ) (blocks : List BlockNumber),
                (openTable catalog table other).runOn (Traced.fresh last.inner) =
                    (.ok again, later) ∧
                  again.Reopens session other ∧ contents later.inner = contents last.inner ∧
                    later.trace.toList = blocks.map (Transfer.read catalog.relation) := by
  obtain ⟨relation, pages, present, listed⟩ := inUse.listed
  have presentFaulty : contents (Faulty.start plan state) catalog.relation = some relation :=
    present
  obtain ⟨⟨begins, first⟩, recordable⟩ := openTable_records presentFaulty listed identities opens
  obtain ⟨continues, records⟩ := Operation.afterAll_still first operations
  have soundLast : Sound (Operation.afterAll operations left).inner :=
    sound_of_follows _ _ continues.2 (sound_of_follows _ _ begins.2 sound)
  have recordsInner :
      catalog.RecordsFiles (contents (Operation.afterAll operations left).inner) table
        session.tableRelation session.indexRelation :=
    records
  refine ⟨?_, fun count counted => ⟨?_, fun other distinct => ?_⟩⟩
  · intro row later gets
    obtain ⟨_, _, known, presentLast, listedLast, isRow, namesFiles⟩ := records
    obtain ⟨⟨_, _, found⟩, -, -⟩ :=
      (Catalog.get_yields presentLast listedLast table).runOn gets
    obtain rfl := Option.some.inj (isRow.symm.trans found.rowOf_eq)
    exact Catalog.Row.filled_of_status namesFiles.filled
  · obtain ⟨row, gets, namesFiles⟩ := recordsInner.get_of_sound soundLast counted
    exact ⟨row, gets, Catalog.Row.filled_of_status namesFiles.filled⟩
  · exact openTable_reopens recordsInner recordable soundLast counted distinct

/-- Behind operations that leave room for the numbers of its blocks, a catalog that was short can be
counted on the store underneath. -/
theorem Operation.afterAll_counted
    {σ : Type}
    [Storage σ]
    [LawfulStorage σ]
    {state : Faulty σ}
    {catalog : Catalog}
    {table tableFile indexFile : RelationId}
    {bound : Nat}
    (sound : Sound state)
    (records : catalog.RecordsFiles (contents state) table tableFile indexFile)
    (short : Operation.Short catalog bound state)
    (operations : List (Operation catalog table))
    (room : bound + operations.length < blockNumberBound) :
    ∃ count,
      ((Storage.blockCount catalog.relation : StorageM σ BlockNumber).runOn
        (Operation.afterAll operations state).inner).1 = .ok count := by
  obtain ⟨last, pages, present, -, few⟩ := Operation.afterAll_short short operations
  have follows := (Operation.afterAll_still records operations).1
  have soundLast : Sound (Operation.afterAll operations state).inner :=
    (sound_of_follows _ _ follows sound).2
  have presentInner :
      contents (Operation.afterAll operations state).inner catalog.relation = some last :=
    present
  exact ⟨_, count_of_sound soundLast presentInner (Nat.lt_of_le_of_lt few room)⟩

section Later

/-- The row of another table over the same heap and index. -/
def otherRow : Catalog.Row := { smallRow .btree 2 with table := 8 }

def otherNames : FileNames := ⟨"other_table", "other_index"⟩

/-- A session over the files that a small table gets. -/
def smallSession : Session := ⟨"obliv_table", "obliv_index", 4, 5, none, by decide⟩

theorem smallSession_elsewhere :
    ¬(Gateway.opened smallSession).session.Owns smallCatalog.relation := by
  intro owned
  obtain ⟨role, same⟩ := owned
  cases role <;> exact absurd same (by decide)

/-- What happens after the opening of a small table: another table is added and opened, a block
of the first one is written, and its row is noted as filled once more. -/
def smallOperations : List (Operation smallCatalog 7) :=
  [.insert otherRow, .openTable 8 otherNames,
    .request (.opened smallSession) smallSession_elsewhere
      (.write "obliv_table" [0] Page.plain.toBuffer),
    .noteFilled 7]

/-- On a store on which a small table was opened, another one over its heap and index can be added
and opened. -/
theorem openTable_of_otherRow
    {state : Faulty MemoryStorage}
    {relation : Relation}
    {pages : List (List Catalog.Row)}
    {entry : Index.Entry}
    (sound : Sound state)
    (identities : 2 ≤ room state)
    (present : contents state smallCatalog.relation = some relation)
    (listed : Catalog.Listed relation pages)
    (few : relation.pages.length = 1)
    (absent : Catalog.rowOf pages.flatten 8 = none)
    (heap : contents state 2 = some ⟨[Page.plain], Page.zero⟩)
    (index : contents state 3 = some ⟨Index.smallestIndex entry, Page.zero⟩) :
    (smallCatalog.insert otherRow).Yields state fun outcome left =>
      outcome = .ok () ∧
        ∃ session, ((openTable smallCatalog 8 otherNames).runOn left).1 = .ok session := by
  have room : relation.pages.length + 1 < blockNumberBound := by
    rw [few]
    decide
  apply (Catalog.insert_of_sound sound present listed room (by decide) absent).weaken
  intro outcome left inserted
  obtain ⟨rfl, grown, rows, listedGrown, listing, grows, became⟩ := inserted
  refine ⟨rfl, ?_⟩
  have soundLeft := became.keepsSound sound
  have presentLeft : contents left smallCatalog.relation = some grown := by
    rw [became.holds, Contents.put_same]
  have fewLeft : grown.pages.length < blockNumberBound :=
    Nat.lt_of_le_of_lt (grows relation present) room
  have isRow : Catalog.rowOf rows.flatten 8 = some otherRow := by
    rw [listing]
    exact Catalog.rowOf_split (Catalog.rowOf_eq_none_iff.mp absent) rfl
  have gets : ((smallCatalog.get 8).runOn left).1 = .ok otherRow := by
    rw [Catalog.get_answers soundLeft presentLeft listedGrown, Catalog.answer, if_pos fewLeft,
      isRow]
  obtain ⟨⟨block, place, first⟩, -⟩ :=
    (Catalog.get_yields presentLeft listedGrown 8).runOn (runOn_eq_of_outcome gets)
  have records : smallCatalog.Records (contents left) 8 otherRow :=
    ⟨grown, rows, block, place, presentLeft, fewLeft, listedGrown, first⟩
  have elsewhere : (2 : RelationId) ≠ smallCatalog.relation ∧ 3 ≠ smallCatalog.relation := by
    decide
  have heapLeft : contents left 2 = some ⟨[Page.plain], Page.zero⟩ := by
    rw [became.holds, Contents.put_other _ _ elsewhere.1, heap]
  have indexLeft : contents left 3 = some ⟨Index.smallestIndex entry, Page.zero⟩ := by
    rw [became.holds, Contents.put_other _ _ elsewhere.2, index]
  have identitiesLeft : 2 ≤ StorageView.room left := Nat.le_trans identities became.keepsRoom
  have fitting : Fitting (contents left) otherRow ⟨[], 0⟩ :=
    { measured := Index.wholeTrail_smallest indexLeft
      indexFits := by decide
      heapFits := ⟨_, heapLeft, by decide⟩ }
  exact
    (openTable_succeeds_iff soundLeft identitiesLeft records (by decide) rfl (by decide) (by decide)
      otherNames).mpr
      (exists_materialized fitting (Index.innerItemsApart_smallest indexLeft) heapLeft
        (fun _ => smallTable_acceptable) (by decide) .btree)

end Later

/-- A small table is opened, another table is added and opened, and the first one is written to and
noted as filled once more. Then the first one is opened again. -/
theorem openTable_stays_open_small :
    ∃ session left other again later,
      ∃ blocks : List BlockNumber,
        (openTable smallCatalog 7 smallNames).runOn (Faulty.start .none smallStore) =
            (.ok session, left) ∧
          ((openTable smallCatalog 8 otherNames).runOn
              ((smallCatalog.insert otherRow).runOn left).2).1 = .ok other ∧
            (openTable smallCatalog 7 smallNames).runOn
                (Traced.fresh (Operation.afterAll smallOperations left).inner) =
                (.ok again, later) ∧
              again.tableRelation = session.tableRelation ∧
                later.trace.toList = blocks.map (Transfer.read 1) := by
  have sound : Sound smallStore := tableStore_sound
  have soundFaulty : Sound (Faulty.start .none smallStore) :=
    ⟨fun _ _ _ => rfl, tableStore_sound⟩
  have identities : 4 ≤ room smallStore := tableStore_room
  have identitiesFaulty : 4 ≤ room (Faulty.start .none smallStore) := identities
  have inUse : smallCatalog.Filled smallStore := tableStore_inUse (by decide)
  have records :
      smallCatalog.Records (contents (Faulty.start .none smallStore)) 7 (smallRow .btree 2) :=
    tableStore_records
  have present : contents (Faulty.start .none smallStore) smallCatalog.relation = _ :=
    tableStore_catalog
  have heap : contents (Faulty.start .none smallStore) 2 = _ := tableStore_heap
  have index : contents (Faulty.start .none smallStore) 3 = _ := smallStore_index
  have listed := tableStore_listed (smallRow .btree 2)
  have openable :
      ∃ session,
        ((openTable smallCatalog 7 smallNames).runOn (Faulty.start .none smallStore)).1 =
          .ok session :=
    openTable_of_smallTable rfl soundFaulty (Nat.le_trans (by decide) identitiesFaulty) (by decide)
      (by decide)
  -- What the store holds must not be unfolded below.
  generalize smallStore = state at *
  obtain ⟨session, opened⟩ := openable
  have opens := runOn_eq_of_outcome opened
  have framed := (openTable_framed present listed smallNames).runOn opens
  have first :=
    (openTable_yields records (by decide) rfl (by decide) (by decide) smallNames).runOn opens
  obtain ⟨-, reopens⟩ :=
    openTable_stays_open sound inUse (fun _ => Nat.le_trans (by decide) identities) opens
      smallOperations
  obtain ⟨⟨-, still⟩, -⟩ :=
    openTable_records present listed (fun _ => Nat.le_trans (by decide) identitiesFaulty) opens
  generalize ((openTable smallCatalog 7 smallNames).runOn (Faulty.start .none state)).2 = left at *
  have soundLeft := sound_of_follows _ _ framed.follows soundFaulty
  obtain ⟨relation, pages, presentLeft, listedLeft, length, same⟩ :=
    framed.listing _ _ present listed
  have absent : Catalog.rowOf pages.flatten 8 = none := (same 8 (by decide)).trans rfl
  have identitiesLeft : 2 ≤ room left := by
    have kept := first.became.keepsRoom
    omega
  have adds :=
    openTable_of_otherRow soundLeft identitiesLeft presentLeft listedLeft length absent
      (framed.elsewhere 2 _ (by decide) heap) (framed.elsewhere 3 _ (by decide) index)
  obtain ⟨-, other, opensOther⟩ := adds
  have short : Operation.Short smallCatalog 1 left :=
    ⟨relation, pages, presentLeft, listedLeft, Nat.le_of_eq length⟩
  obtain ⟨count, counted⟩ :=
    Operation.afterAll_counted soundLeft still short smallOperations (by decide)
  obtain ⟨-, opensAgain⟩ := reopens count counted
  obtain ⟨again, later, blocks, ran, reopened, -, reads⟩ := opensAgain smallNames smallNames_ne
  exact
    ⟨session, left, other, again, later, blocks, opens, opensOther, ran, reopened.tableRelation,
      reads⟩

end ObliviousStorage

import ObliviousStorage.Proofs.Catalog.Histories
import ObliviousStorage.Proofs.Catalog.Records

/-!
Contract: where the rows that a catalog returns come from.

Owns: `Row.Usable`, the rows that a table's files can be made by; that along every history each
row that is read was inserted for its table, in all columns but those of the files and of the
flag, and that its flag was inserted with it or noted since; and that such a row is usable
exactly if the inserted one was.

Inserting a row and noting something on it check no column. A row is checked by who acts on it,
with `Row.status`, which lets no unusable row pass.

Does not own: which rows are inserted.
-/

namespace ObliviousStorage.Catalog

open StorageM StorageView

/-! ## Rows -/

namespace Row

/-- The row names both plain relations and declares room in both files. -/
structure Usable (row : Row) : Prop where
  heap : row.heap ≠ noRelation
  index : row.index ≠ noRelation
  tableBlocks : 0 < row.tableBlocks
  indexBlocks : 0 < row.indexBlocks

/-- The row says of its table what another one says, apart from its files and its flag. -/
structure DescendsFrom (row origin : Row) : Prop where
  table : row.table = origin.table
  heap : row.heap = origin.heap
  index : row.index = origin.index
  method : row.method = origin.method
  tableBlocks : row.tableBlocks = origin.tableBlocks
  indexBlocks : row.indexBlocks = origin.indexBlocks

theorem DescendsFrom.refl (row : Row) : row.DescendsFrom row := ⟨rfl, rfl, rfl, rfl, rfl, rfl⟩

theorem DescendsFrom.trans
    {row between origin : Row}
    (later : row.DescendsFrom between)
    (earlier : between.DescendsFrom origin) :
    row.DescendsFrom origin where
  table := later.table.trans earlier.table
  heap := later.heap.trans earlier.heap
  index := later.index.trans earlier.index
  method := later.method.trans earlier.method
  tableBlocks := later.tableBlocks.trans earlier.tableBlocks
  indexBlocks := later.indexBlocks.trans earlier.indexBlocks

theorem DescendsFrom.symm
    {row origin : Row}
    (descends : row.DescendsFrom origin) :
    origin.DescendsFrom row where
  table := descends.table.symm
  heap := descends.heap.symm
  index := descends.index.symm
  method := descends.method.symm
  tableBlocks := descends.tableBlocks.symm
  indexBlocks := descends.indexBlocks.symm

theorem DescendsFrom.usable
    {row origin : Row}
    (descends : row.DescendsFrom origin)
    (usable : origin.Usable) :
    row.Usable where
  heap := descends.heap ▸ usable.heap
  index := descends.index ▸ usable.index
  tableBlocks := descends.tableBlocks ▸ usable.tableBlocks
  indexBlocks := descends.indexBlocks ▸ usable.indexBlocks

theorem DescendsFrom.usable_iff
    {row origin : Row}
    (descends : row.DescendsFrom origin) :
    row.Usable ↔ origin.Usable :=
  ⟨descends.symm.usable, descends.usable⟩

/-- A row that can be acted on is usable. -/
theorem usable_of_status
    {row : Row}
    {status : FileStatus}
    (accepted : row.status = .ok status) :
    row.Usable := by
  simp only [Row.status, bind_eq_ok_iff, require_eq_ok_iff, exists_const] at accepted
  exact ⟨accepted.1.1, accepted.1.2, accepted.2.1.1, accepted.2.1.2⟩

end Row

/-! ## Rows and the events before them -/

variable {σ : Type} {catalog : Catalog}

/-- The event is a call that changed the catalog. -/
def Event.Accepts (event : Event σ catalog) (request : Call) : Prop :=
  event.step = .call request ∧ event.outcome = .ok none

/-- The row was inserted in one of the events, and the events since are these. -/
def InsertedThen (events : List (Event σ catalog)) (origin : Row)
    (since : List (Event σ catalog)) : Prop :=
  ∃ before insertion,
    events = before ++ insertion :: since ∧ insertion.Accepts (.insert origin)

/-- The row was inserted in one of the events, and its flag with it or in a later event. -/
structure InsertedIn
    (events : List (Event σ catalog))
    (row origin : Row)
    (since : List (Event σ catalog)) : Prop where
  inserted : InsertedThen events origin since
  descends : row.DescendsFrom origin
  filled :
    row.filled = true →
      origin.filled = true ∨ ∃ event ∈ since, event.Accepts (.noteFilled origin.table)

theorem InsertedThen.later
    {events since : List (Event σ catalog)}
    {origin : Row}
    (inserted : InsertedThen events origin since)
    (event : Event σ catalog) :
    InsertedThen (events ++ [event]) origin (since ++ [event]) := by
  obtain ⟨before, insertion, rfl, accepts⟩ := inserted
  exact ⟨before, insertion, by simp, accepts⟩

theorem InsertedIn.later
    {events since : List (Event σ catalog)}
    {row origin : Row}
    (insertedIn : InsertedIn events row origin since)
    (event : Event σ catalog) :
    InsertedIn (events ++ [event]) row origin (since ++ [event]) where
  inserted := insertedIn.inserted.later event
  descends := insertedIn.descends
  filled := by
    intro isFilled
    rcases insertedIn.filled isFilled with already | ⟨note, member, accepts⟩
    · exact .inl already
    · exact .inr ⟨note, List.mem_append_left _ member, accepts⟩

/-- Each row of the map was inserted in one of the events. -/
def RowMap.InsertedIn (map : RowMap) (events : List (Event σ catalog)) : Prop :=
  ∀ table row, map table = some row →
    row.table = table ∧ ∃ origin since, Catalog.InsertedIn events row origin since

section Steps

variable
  {map : RowMap}
  {earlier : List (Event σ catalog)}
  {event : Event σ catalog}

theorem RowMap.InsertedIn.later
    (inserted : map.InsertedIn earlier)
    (event : Event σ catalog) :
    map.InsertedIn (earlier ++ [event]) := by
  intro table row known
  rcases inserted table row known with ⟨ofTable, origin, since, insertedIn⟩
  exact ⟨ofTable, origin, _, insertedIn.later event⟩

/-- A row that was changed, but not in what it says of its table, is still the one that was
inserted, provided that its flag is noted when it is set. -/
theorem RowMap.InsertedIn.change
    {next : RowMap}
    {table : RelationId}
    {change : Row → Row}
    (inserted : map.InsertedIn earlier)
    (answered : (event.outcome, next) = map.change table change)
    (descends : ∀ row, (change row).DescendsFrom row)
    (noted :
      ∀ row, (change row).filled = true →
        row.filled = true ∨ (event.outcome = .ok none → event.Accepts (.noteFilled table))) :
    next.InsertedIn (earlier ++ [event]) := by
  have later := inserted.later event
  unfold RowMap.change at answered
  cases known : map table with
  | none =>
      rw [known] at answered
      rw [(Prod.mk.inj answered).2]
      exact later
  | some row =>
      rw [known] at answered
      have accepted := (Prod.mk.inj answered).1
      rw [(Prod.mk.inj answered).2]
      intro other found among
      by_cases same : other = table
      · subst same
        rw [Function.update_self, Option.some.injEq] at among
        subst among
        rcases inserted other row known with ⟨ofTable, origin, since, insertedIn⟩
        have named : origin.table = other := insertedIn.descends.table.symm.trans ofTable
        have goesOn := insertedIn.later event
        refine ⟨(descends row).table.trans ofTable, origin, since ++ [event], ?_⟩
        refine ⟨goesOn.inserted, (descends row).trans insertedIn.descends, ?_⟩
        intro isFilled
        rcases noted row isFilled with already | notes
        · exact goesOn.filled already
        · exact .inr ⟨event, by simp, named ▸ notes accepted⟩
      · rw [Function.update_of_ne same] at among
        exact later other found among

/-- The map after a row was inserted, or was not. -/
theorem RowMap.InsertedIn.insert
    {next : RowMap}
    {row : Row}
    (inserted : map.InsertedIn earlier)
    (isCall : event.step = .call (.insert row))
    (answered : (event.outcome, next) = (Call.insert row).onMap map) :
    next.InsertedIn (earlier ++ [event]) := by
  have later := inserted.later event
  simp only [Call.onMap] at answered
  split at answered
  · rw [(Prod.mk.inj answered).2]
    exact later
  · split at answered
    · rw [(Prod.mk.inj answered).2]
      exact later
    · have accepted := (Prod.mk.inj answered).1
      rw [(Prod.mk.inj answered).2]
      intro table found among
      by_cases same : table = row.table
      · subst same
        rw [Function.update_self, Option.some.injEq] at among
        subst among
        have newest : InsertedThen (earlier ++ [event]) row [] :=
          ⟨earlier, event, rfl, isCall, accepted⟩
        exact ⟨rfl, row, [], newest, .refl row, fun already => .inl already⟩
      · rw [Function.update_of_ne same] at among
        exact later table found among

theorem Call.onMap_get_same (table : RelationId) : ((Call.get table).onMap map).2 = map := by
  simp only [Call.onMap]
  split <;> rfl

variable [Storage σ] [LawfulStorage σ]

/-- What one event preserves. -/
theorem RowMap.InsertedIn.step
    {reliable : Prop}
    {next : RowMap}
    (inserted : map.InsertedIn earlier)
    (agrees : event.Agrees reliable map next) :
    next.InsertedIn (earlier ++ [event]) := by
  have answers := agrees.answers
  split at answers
  · next request isCall =>
      rcases answers with answered | ⟨⟨fault, refused⟩, -⟩
      · cases request with
        | insert row => exact inserted.insert isCall answered
        | noteFilled table =>
            exact inserted.change answered (fun _ => ⟨rfl, rfl, rfl, rfl, rfl, rfl⟩)
              fun _ _ => .inr fun accepted => ⟨isCall, accepted⟩
        | noteFiles table tableFile indexFile =>
            exact inserted.change answered (fun _ => ⟨rfl, rfl, rfl, rfl, rfl, rfl⟩)
              fun _ already => .inl already
        | get table =>
            have same : next = map := (congrArg Prod.snd answered).trans (Call.onMap_get_same table)
            rw [same]
            exact inserted.later event
      · rw [agrees.keeps fault refused]
        exact inserted.later event
  · rw [answers]
    exact inserted.later event

end Steps

/-! ## Rows that are read -/

section Reading

variable [Storage σ] [LawfulStorage σ]

/-- A row that is read is the one of the map. -/
theorem Event.Agrees.read
    {reliable : Prop}
    {map next : RowMap}
    {event : Event σ catalog}
    {table : RelationId}
    {row : Row}
    (agrees : event.Agrees reliable map next)
    (reads : event.step = .call (.get table))
    (found : event.outcome = .ok (some row)) :
    map table = some row := by
  have answers := agrees.answers
  rw [reads] at answers
  rcases answers with answered | ⟨⟨fault, refused⟩, -⟩
  · have result : event.outcome = ((Call.get table).onMap map).1 := congrArg Prod.fst answered
    simp only [found, Call.onMap] at result
    cases known : map table with
    | none => simp [known] at result
    | some other =>
        rw [known] at result
        rw [Option.some.inj (Except.ok.inj result)]
  · exact absurd (found.symm.trans refused) (by simp)

theorem Agree.read
    {reliable : Prop}
    {map : RowMap}
    {before earlier later : List (Event σ catalog)}
    {event : Event σ catalog}
    {table : RelationId}
    {row : Row}
    (agree : Agree reliable map (earlier ++ event :: later))
    (inserted : map.InsertedIn before)
    (reads : event.step = .call (.get table))
    (found : event.outcome = .ok (some row)) :
    row.table = table ∧ ∃ origin since, InsertedIn (before ++ earlier) row origin since := by
  induction earlier generalizing map before with
  | nil =>
      cases agree with
      | next agrees continues =>
          rw [List.append_nil]
          exact inserted table row (agrees.read reads found)
  | cons first rest inductionHypothesis =>
      cases agree with
      | next agrees continues =>
          have later := inductionHypothesis continues (inserted.step agrees)
          rwa [List.append_assoc, List.singleton_append] at later

/-- From the creation of a catalog on, whatever is done to it and elsewhere and whichever calls
are made to fail, each row that is read was inserted for its table, and says of it what the
inserted row said; if it is flagged, it was inserted so or the flag was noted since. So it is
usable exactly if the inserted row was, and all flagged rows that are read are usable if the
inserted rows are that come with the flag or get it. Acting on an unusable row is refused. -/
theorem rows_keep_origin
    {before after : Faulty σ}
    (creates : (Catalog.create : StorageM (Faulty σ) Catalog).runOn before = (.ok catalog, after))
    (steps : List (Step catalog))
    {earlier later : List (Event σ catalog)}
    {event : Event σ catalog}
    (splits : history steps after = earlier ++ event :: later)
    {table : RelationId}
    {row : Row}
    (reads : event.step = .call (.get table))
    (found : event.outcome = .ok (some row)) :
    row.table = table ∧
      (∃ origin since,
        InsertedThen earlier origin since ∧ row.DescendsFrom origin ∧
          (row.Usable ↔ origin.Usable) ∧
          (row.filled = true →
            origin.filled = true ∨ ∃ note ∈ since, note.Accepts (.noteFilled table))) ∧
      ((∀ origin since, InsertedThen earlier origin since →
          (origin.filled = true ∨ ∃ note ∈ since, note.Accepts (.noteFilled origin.table)) →
            origin.Usable) →
        row.filled = true → row.Usable) ∧
      ∀ status, row.status = .ok status → row.Usable := by
  have present := (create_yields before).runOn creates catalog rfl
  have agree : Agree (Sound after.inner) .empty (history steps after) :=
    history_agrees ⟨.created, [], present, ⟨.nil, rfl⟩, .empty⟩ id steps
  rw [splits] at agree
  have none : RowMap.empty.InsertedIn ([] : List (Event σ catalog)) :=
    fun table row known => absurd known (by simp [RowMap.empty])
  rcases agree.read none reads found with ⟨ofTable, origin, since, insertedIn⟩
  rw [List.nil_append] at insertedIn
  have named : origin.table = table := insertedIn.descends.table.symm.trans ofTable
  have usable := insertedIn.descends.usable_iff
  refine ⟨ofTable, ⟨origin, since, insertedIn.inserted, insertedIn.descends, usable, ?_⟩, ?_, ?_⟩
  · exact named ▸ insertedIn.filled
  · intro cared isFilled
    exact usable.mpr (cared origin since insertedIn.inserted (insertedIn.filled isFilled))
  · exact fun _ accepted => Row.usable_of_status accepted

end Reading

/-! ## A row that is inserted, flagged and read -/

section Flagging

/-- A store in memory that refuses nothing, with a catalog of one page or none. -/
def soundStore (pages : Array Page) (calls : CallTally) : Faulty MemoryStorage where
  inner := ⟨blockSize, #[pages]⟩
  plan := .none
  calls := calls
  failed := 0

theorem Step.step_event (step : Step ⟨1⟩) (store : Faulty MemoryStorage) :
    (step.event store).step = step := rfl

theorem soundStore_created :
    (Catalog.create : StorageM (Faulty MemoryStorage) Catalog).runOn (Faulty.sound .empty) =
      (.ok ⟨1⟩, soundStore #[] ⟨1, 0, 0, 0⟩) := rfl

/-- The row of a table is inserted, flagged and read. -/
def flagging (row : Row) : List (Step ⟨1⟩) :=
  [.call (.insert row), .call (.noteFilled row.table), .call (.get row.table)]

/-- The first row of a catalog goes to a new page. -/
theorem insert_into_soundStore {row : Row} (named : row.table ≠ noRelation) :
    ∃ page, RowPage page [row] ∧
      (insert ⟨1⟩ row).runOn (soundStore #[] ⟨1, 0, 0, 0⟩) =
        (.ok (), soundStore #[page] ⟨1, 1, 0, 1⟩) := by
  obtain ⟨page, appends, rowPage⟩ := RowPage.plain.append hasRoom_plain row
  refine ⟨page, rowPage, ?_⟩
  have located :
      (locate ⟨1⟩ row.table).runOn (soundStore #[] ⟨1, 0, 0, 0⟩) =
        (.ok none, soundStore #[] ⟨1, 0, 0, 0⟩) := rfl
  have counted :
      (Storage.blockCount 1).runOn (soundStore #[] ⟨1, 0, 0, 0⟩) =
        (.ok 0, soundStore #[] ⟨1, 0, 0, 0⟩) := rfl
  have added :
      (insertInNewBlock ⟨1⟩ row).runOn (soundStore #[] ⟨1, 0, 0, 0⟩) =
        (.ok (), soundStore #[page] ⟨1, 1, 0, 1⟩) := by
    rw [insertInNewBlock, appends]
    rfl
  rw [insert, require, if_pos named, append]
  simp only [runOn_bind, runOn_lift, located, counted, require, ↓reduceIte, added]

/-- Any row of any table is inserted, flagged and returned with the flag. -/
theorem flagging_outcomes {row : Row} (named : row.table ≠ noRelation) :
    (history (flagging row) (soundStore #[] ⟨1, 0, 0, 0⟩)).map Event.outcome =
      [.ok none, .ok none, .ok (some { row with filled := true })] := by
  obtain ⟨page, rowPage, inserts⟩ := insert_into_soundStore named
  have records :
      Records ⟨1⟩ (contents (soundStore #[page] ⟨1, 1, 0, 1⟩)) row.table row := by
    have first : FirstIn [row] row.table 0 row :=
      ⟨rfl, rfl, fun _ _ below => absurd below (Nat.not_lt_zero _)⟩
    exact
      ⟨⟨[page], Page.zero⟩, [[row]], 0, 0, rfl, (by decide : 1 < blockNumberBound),
        ⟨.cons (Or.inr rowPage) .nil, rfl⟩, ⟨[row], rfl, first⟩,
        fun _ _ below => absurd below (Nat.not_lt_zero _)⟩
  have sound : Sound (soundStore #[page] ⟨1, 1, 0, 1⟩) := ⟨fun _ _ _ => rfl, rfl⟩
  have notes :
      ∃ left,
        (noteFilled ⟨1⟩ row.table).runOn (soundStore #[page] ⟨1, 1, 0, 1⟩) = (.ok (), left) ∧
          Sound left ∧ Records ⟨1⟩ (contents left) row.table { row with filled := true } :=
    records.update_of_sound sound rfl
  obtain ⟨left, ran, stillSound, recorded⟩ := notes
  have gets := recorded.get_of_sound stillSound
  have first :
      (Step.call (.insert row) : Step ⟨1⟩).action.runOn (soundStore #[] ⟨1, 0, 0, 0⟩) =
        (.ok none, soundStore #[page] ⟨1, 1, 0, 1⟩) := by
    simp only [Step.action, Call.action, runOn_bind, inserts, runOn_pure]
  have second :
      (Step.call (.noteFilled row.table) : Step ⟨1⟩).action.runOn
          (soundStore #[page] ⟨1, 1, 0, 1⟩) =
        (.ok none, left) := by
    simp only [Step.action, Call.action, runOn_bind, ran, runOn_pure]
  have third :
      ((Step.call (.get row.table) : Step ⟨1⟩).action.runOn left).1 =
        .ok (some { row with filled := true }) := by
    simp only [Step.action, Call.action, runOn_bind, runOn_pure]
    rw [runOn_eq_of_outcome gets]
  simp only [history, flagging, Step.event, first, second, List.map_cons, List.map_nil, third]

/-- A row that names no plain relation and no room is flagged like any other, and returned. -/
theorem not_usable_flagged :
    let row : Row := ⟨7, noRelation, noRelation, some .btree, 0, 0, noRelation, noRelation, false⟩
    let read : Row := { row with filled := true }
    (Catalog.create : StorageM (Faulty MemoryStorage) Catalog).runOn (Faulty.sound .empty) =
        (.ok ⟨1⟩, soundStore #[] ⟨1, 0, 0, 0⟩) ∧
      (history (flagging row) (soundStore #[] ⟨1, 0, 0, 0⟩)).map Event.outcome =
        [.ok none, .ok none, .ok (some read)] ∧
      read.filled = true ∧ ¬read.Usable :=
  ⟨soundStore_created, flagging_outcomes (by decide), rfl, fun usable => usable.heap rfl⟩

/-- A usable row that is flagged is returned as a usable one. -/
theorem rows_keep_origin_flagged :
    let row : Row := ⟨7, 2, 3, some .btree, 4, 5, noRelation, noRelation, false⟩
    let insertion : Event MemoryStorage ⟨1⟩ :=
      (Step.call (.insert row)).event (soundStore #[] ⟨1, 0, 0, 0⟩)
    let note : Event MemoryStorage ⟨1⟩ := (Step.call (.noteFilled 7)).event insertion.after
    let reading : Event MemoryStorage ⟨1⟩ := (Step.call (.get 7)).event note.after
    reading.outcome = .ok (some { row with filled := true }) ∧
      ∃ origin since,
        InsertedThen [insertion, note] origin since ∧
          Row.DescendsFrom { row with filled := true } origin ∧ origin.Usable ∧
            (origin.filled = true ∨ ∃ event ∈ since, event.Accepts (.noteFilled 7)) := by
  intro row insertion note reading
  have splits :
      history (flagging row) (soundStore #[] ⟨1, 0, 0, 0⟩) = [insertion, note] ++ [reading] := rfl
  have outcomes := @flagging_outcomes row (by decide)
  rw [splits] at outcomes
  have found : reading.outcome = .ok (some { row with filled := true }) := by
    simp only [List.cons_append, List.nil_append, List.map_cons, List.cons.injEq] at outcomes
    exact outcomes.2.2.1
  have reads : reading.step = .call (.get 7) := Step.step_event _ _
  have kept := rows_keep_origin soundStore_created (flagging row) splits reads found
  obtain ⟨origin, since, inserted, descends, usable, noted⟩ := kept.2.1
  have usableRead : Row.Usable { row with filled := true } :=
    ⟨by decide, by decide, by decide, by decide⟩
  exact ⟨found, origin, since, inserted, descends, usable.mp usableRead, noted rfl⟩

end Flagging

end ObliviousStorage.Catalog

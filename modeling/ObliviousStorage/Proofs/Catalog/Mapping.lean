import Mathlib.Data.List.Nodup
import ObliviousStorage.Proofs.Catalog.Listing

/-!
Contract: the catalog as a finite map from tables to rows.

Owns: what the calls of a catalog do to a map; `Maps`, the contents of a catalog that show
a map; and that each call is settled: it is answered as the map says, or it is refused by
the store and the map stays as it was.

Does not own: how rows lie on the pages, or runs of several calls.
-/

namespace ObliviousStorage.Catalog

open StorageM StorageView

/-! ## Maps -/

/-- The rows of some tables. -/
abbrev RowMap := RelationId → Option Row

def RowMap.empty : RowMap := fun _ => none

/-- The calls of a catalog. -/
inductive Call where
  | insert (row : Row)
  | noteFilled (table : RelationId)
  | noteFiles (table tableFile indexFile : RelationId)
  | get (table : RelationId)

/-- Changing the row of a table that has to have one. -/
def RowMap.change (map : RowMap) (table : RelationId) (change : Row → Row) :
    Except Fault (Option Row) × RowMap :=
  match map table with
  | none => (.error (.notFound table), map)
  | some row => (.ok none, Function.update map table (some (change row)))

/-- How many blocks a call adds at most. -/
def Call.growth : Call → Nat
  | .insert _ => 1
  | .noteFilled _ | .noteFiles .. | .get _ => 0

theorem RowMap.change_error
    (map : RowMap)
    {table : RelationId}
    {change : Row → Row}
    {fault : Fault}
    (refuses : (map.change table change).1 = .error fault) :
    (map.change table change).2 = map := by
  revert refuses
  simp only [RowMap.change]
  split <;> simp

/-- What a map answers to a call, and the map after it. -/
def Call.onMap (call : Call) (map : RowMap) : Except Fault (Option Row) × RowMap :=
  match call with
  | .insert row =>
      if row.table = noRelation then
        (.error (.invalidConfiguration .rowWithoutTable), map)
      else if (map row.table).isSome then
        (.error (.invalidConfiguration (.duplicateRow row.table)), map)
      else
        (.ok none, Function.update map row.table (some row))
  | .noteFilled table => map.change table fun row => { row with filled := true }
  | .noteFiles table tableFile indexFile =>
      map.change table fun row => { row with tableFile, indexFile }
  | .get table =>
      match map table with
      | none => (.error (.notFound table), map)
      | some row => (.ok (some row), map)

/-- A map that answers with an error stays as it was. -/
theorem Call.onMap_error
    (call : Call)
    {map : RowMap}
    {fault : Fault}
    (refuses : (call.onMap map).1 = .error fault) :
    (call.onMap map).2 = map := by
  cases call with
  | insert row =>
      revert refuses
      simp only [onMap]
      split
      · exact fun _ => rfl
      · split <;> simp
  | noteFilled table => exact map.change_error refuses
  | noteFiles table tableFile indexFile => exact map.change_error refuses
  | get table =>
      revert refuses
      simp only [onMap]
      split <;> simp

/-- A list with one row for each table that the map knows. -/
structure Tabulates (rows : List Row) (map : RowMap) : Prop where
  distinct : (rows.map Row.table).Nodup
  named : ∀ row ∈ rows, row.table ≠ noRelation
  looksUp : ∀ table row, map table = some row ↔ row ∈ rows ∧ row.table = table

namespace Tabulates

variable
  {rows : List Row}
  {map : RowMap}

theorem empty : Tabulates [] RowMap.empty where
  distinct := List.nodup_nil
  named := by simp
  looksUp := by simp [RowMap.empty]

/-- A row of a table that has none yet. -/
theorem append
    {row : Row}
    (tabulates : Tabulates rows map)
    (new : map row.table = none)
    (named : row.table ≠ noRelation) :
    Tabulates (rows ++ [row]) (Function.update map row.table (some row)) := by
  have absent : ∀ other ∈ rows, other.table ≠ row.table := by
    intro other among same
    have found := (tabulates.looksUp row.table other).mpr ⟨among, same⟩
    exact absurd (new.symm.trans found) (by simp)
  exact
    { distinct := by
        rw [List.map_append, List.map_singleton]
        refine tabulates.distinct.append (List.nodup_singleton _) ?_
        simpa [List.disjoint_singleton] using absent
      named := by
        simpa [or_imp, forall_and] using And.intro tabulates.named named
      looksUp := by
        intro table other
        by_cases ofRow : table = row.table
        · subst ofRow
          rw [Function.update_self, Option.some.injEq, List.mem_append, List.mem_singleton]
          constructor
          · rintro rfl
            exact ⟨Or.inr rfl, rfl⟩
          · rintro ⟨among | rfl, same⟩
            · exact absurd same (absent other among)
            · rfl
        · rw [Function.update_of_ne ofRow, tabulates.looksUp, List.mem_append, List.mem_singleton]
          constructor
          · rintro ⟨among, same⟩
            exact ⟨Or.inl among, same⟩
          · rintro ⟨among | rfl, same⟩
            · exact ⟨among, same⟩
            · exact absurd same.symm ofRow }

/-- A row that takes the place of another one of its table. -/
theorem replace
    {earlier later : List Row}
    {row changed : Row}
    (tabulates : Tabulates (earlier ++ row :: later) map)
    (same : changed.table = row.table) :
    Tabulates (earlier ++ changed :: later) (Function.update map row.table (some changed)) := by
  have distinct : ((earlier ++ changed :: later).map Row.table).Nodup := by
    have before := tabulates.distinct
    rwa [List.map_append, List.map_cons, ← same, ← List.map_cons, ← List.map_append] at before
  have elsewhere :
      ∀ other : Row, other.table ≠ row.table →
        (other ∈ earlier ++ changed :: later ↔ other ∈ earlier ++ row :: later) := by
    intro other apart
    have notRow : other ≠ row := fun equal => apart (congrArg Row.table equal)
    have notChanged : other ≠ changed := fun equal => apart ((congrArg Row.table equal).trans same)
    simp only [List.mem_append, List.mem_cons, notRow, notChanged, false_or]
  exact
    { distinct
      named := by
        intro other among
        by_cases ofRow : other.table = row.table
        · rw [ofRow]
          exact tabulates.named row (by simp)
        · exact tabulates.named other ((elsewhere other ofRow).mp among)
      looksUp := by
        intro table other
        by_cases ofRow : table = row.table
        · subst ofRow
          rw [Function.update_self, Option.some.injEq]
          constructor
          · rintro rfl
            exact ⟨by simp, same⟩
          · rintro ⟨among, ofTable⟩
            exact List.inj_on_of_nodup_map distinct (by simp) among (same.trans ofTable.symm)
        · rw [Function.update_of_ne ofRow, tabulates.looksUp]
          refine and_congr_left fun ofTable => (elsewhere other ?_).symm
          rwa [ofTable] }

section Placed

variable
  {pages : List (List Row)}
  {table : RelationId}
  {block index : Nat}
  {row : Row}

/-- The first row of a table is the one that the map knows. -/
theorem row_of_firstAt
    (tabulates : Tabulates pages.flatten map)
    (first : FirstAt pages table block index row) :
    map table = some row := by
  obtain ⟨pageRows, page, firstIn⟩ := first.onPage
  have among :=
    List.mem_flatten.mpr
      ⟨pageRows, List.mem_of_getElem? page, List.mem_of_getElem? firstIn.among⟩
  exact (tabulates.looksUp table row).mpr ⟨among, firstIn.ofTable⟩

theorem none_of_finds
    (tabulates : Tabulates pages.flatten map)
    (absent : Finds pages table none) :
    map table = none := by
  cases known : map table with
  | none => rfl
  | some row =>
      obtain ⟨among, ofTable⟩ := (tabulates.looksUp table row).mp known
      obtain ⟨pageRows, page, onPage⟩ := List.mem_flatten.mp among
      exact absurd ofTable (absent pageRows page row onPage)

theorem replacedAt
    {changed : Row}
    (tabulates : Tabulates pages.flatten map)
    (first : FirstAt pages table block index row)
    (same : changed.table = table) :
    Tabulates (replacedAt pages block index changed).flatten
      (Function.update map table (some changed)) := by
  obtain ⟨_, -, firstIn⟩ := first.onPage
  obtain ⟨earlier, later, before, -, after⟩ := first.split changed
  rw [before] at tabulates
  rw [after, ← firstIn.ofTable]
  exact tabulates.replace (same.trans firstIn.ofTable.symm)

end Placed

end Tabulates

/-! ## Calls -/

/-- The catalog holds one row for each table that the map knows, and nothing else. -/
def Maps (catalog : Catalog) (held : Contents) (map : RowMap) : Prop :=
  ∃ relation rows,
    held catalog.relation = some relation ∧ Listed relation rows ∧ Tabulates rows.flatten map

theorem Maps.of_same
    {catalog : Catalog}
    {held other : Contents}
    {map : RowMap}
    (maps : catalog.Maps held map)
    (same : other catalog.relation = held catalog.relation) :
    catalog.Maps other map := by
  obtain ⟨relation, rows, present, listed, tabulates⟩ := maps
  exact ⟨relation, rows, same.trans present, listed, tabulates⟩

/-- With so many more blocks, the catalog may have more blocks than there are numbers. -/
def FullFor (catalog : Catalog) (held : Contents) (more : Nat) : Prop :=
  ∃ relation, held catalog.relation = some relation ∧ relation.FullFor more

variable {σ : Type} [Storage σ] [LawfulStorage σ]

/-- What becomes of a call: it is answered as given, with a new map, or it is refused
without an effect, which a sound store does only if there is no room for the blocks that
the call may add. -/
def Settles
    (catalog : Catalog)
    (map : RowMap)
    (more : Nat)
    (given : Except Fault (Option Row) × RowMap)
    (state : σ)
    (outcome : Except Fault (Option Row))
    (left : σ) : Prop :=
  Follows state left ∧
    (outcome = given.1 ∧ catalog.Maps (contents left) given.2 ∨
      (∃ fault, outcome = .error fault) ∧ catalog.Maps (contents left) map ∧
        (Sound state → catalog.FullFor (contents state) more))

def Call.action (catalog : Catalog) : Call → StorageM σ (Option Row)
  | .insert row => do
      catalog.insert row
      return none
  | .noteFilled table => do
      catalog.noteFilled table
      return none
  | .noteFiles table tableFile indexFile => do
      catalog.noteFiles table tableFile indexFile
      return none
  | .get table => do
      let row ← catalog.get table
      return some row

section Calls

variable
  {catalog : Catalog}
  {map : RowMap}
  {state : σ}

theorem insert_settles
    (maps : catalog.Maps (contents state) map)
    (row : Row) :
    ((Call.insert row).action catalog).Yields state
      (catalog.Settles map 1 ((Call.insert row).onMap map) state) := by
  obtain ⟨relation, rows, present, listed, tabulates⟩ := maps
  have maps :
      ∀ {left}, catalog.NowLists state left rows.flatten →
        Follows state left ∧ catalog.Maps (contents left) map := by
    intro left lists
    obtain ⟨grown, others, grownListed, same, -, became⟩ := lists
    exact ⟨became.follows, grown, others, by rw [became.holds, Contents.put_same], grownListed,
      same ▸ tabulates⟩
  apply yields_bind (insert_yields present listed row)
  · intro _ left holds
    rcases holds with ⟨named, absent, grown, others, grownListed, same, -, became⟩
    have new := tabulates.none_of_finds absent
    refine yields_pure ⟨became.follows, Or.inl ?_⟩
    rw [Call.onMap, if_neg named, new, if_neg (by simp)]
    refine ⟨rfl, grown, others, by rw [became.holds, Contents.put_same], grownListed, ?_⟩
    rw [same]
    exact tabulates.append new named
  · intro fault left refused
    obtain ⟨lists, reason⟩ := refused
    obtain ⟨follows, unchanged⟩ := maps lists
    refine ⟨follows, ?_⟩
    cases reason with
    | unnamed noTable reported =>
        rw [Call.onMap, if_pos noTable, reported]
        exact Or.inl ⟨rfl, unchanged⟩
    | duplicate named located finds reported =>
        obtain ⟨index, -, first⟩ := finds
        rw [Call.onMap, if_neg named, tabulates.row_of_firstAt first,
          if_pos Option.isSome_some, reported]
        exact Or.inl ⟨rfl, unchanged⟩
    | exhausted reason =>
        exact Or.inr ⟨⟨fault, rfl⟩, unchanged, fun sound => ⟨relation, present, reason sound⟩⟩

/-- A call that finds no row of its table is settled if the map would not find one either. -/
theorem settles_of_misses
    {relation : Relation}
    {rows : List (List Row)}
    {table : RelationId}
    {given : Except Fault (Option Row) × RowMap}
    {left : σ}
    {fault : Fault}
    (present : contents state catalog.relation = some relation)
    (listed : Listed relation rows)
    (tabulates : Tabulates rows.flatten map)
    (unknown : map table = none → given = (.error (.notFound table), map))
    (became : Became state left (contents state) 0)
    (misses : Misses relation rows table state fault) :
    catalog.Settles map 0 given state (.error fault) left := by
  have maps : catalog.Maps (contents left) map :=
    ⟨relation, rows, congrFun became.holds _ ▸ present, listed, tabulates⟩
  refine ⟨became.follows, ?_⟩
  rcases misses with ⟨rfl, absent⟩ | refused
  · rw [unknown (tabulates.none_of_finds absent)]
    exact Or.inl ⟨rfl, maps⟩
  · exact Or.inr
      ⟨⟨fault, rfl⟩, maps, fun sound => ⟨relation, present, refused sound⟩⟩

theorem update_settles
    (maps : catalog.Maps (contents state) map)
    (table : RelationId)
    {change : Row → Row}
    (same : ∀ row, (change row).table = row.table) :
    (do
        catalog.update table change
        return none : StorageM σ (Option Row)).Yields state
      (catalog.Settles map 0 (map.change table change) state) := by
  obtain ⟨relation, rows, present, listed, tabulates⟩ := maps
  apply yields_bind (update_yields present listed table change)
  · intro _ left holds
    rcases holds with ⟨changed, block, index, row, first, changedListed, -, became⟩
    obtain ⟨_, -, firstIn⟩ := first.onPage
    have known := tabulates.row_of_firstAt first
    refine yields_pure ⟨became.follows, Or.inl ?_⟩
    simp only [RowMap.change, known]
    exact ⟨trivial, changed, _, by rw [became.holds, Contents.put_same], changedListed,
      tabulates.replacedAt first ((same row).trans firstIn.ofTable)⟩
  · intro fault left refused
    rcases refused with ⟨became, misses⟩
    refine settles_of_misses present listed tabulates (fun unknown => ?_) became misses
    simp only [RowMap.change, unknown]

theorem get_settles
    (maps : catalog.Maps (contents state) map)
    (table : RelationId) :
    ((Call.get table).action catalog).Yields state
      (catalog.Settles map 0 ((Call.get table).onMap map) state) := by
  obtain ⟨relation, rows, present, listed, tabulates⟩ := maps
  apply yields_bind (get_yields present listed table)
  · intro row left holds
    rcases holds with ⟨⟨block, index, first⟩, -, became⟩
    refine yields_pure ⟨became.follows, Or.inl ?_⟩
    simp only [Call.onMap, tabulates.row_of_firstAt first]
    exact ⟨trivial, relation, rows, congrFun became.holds _ ▸ present, listed, tabulates⟩
  · intro fault left refused
    rcases refused with ⟨became, misses⟩
    refine settles_of_misses present listed tabulates (fun unknown => ?_) became misses
    simp only [Call.onMap, unknown]

/-- Each call of a catalog is settled, on any store. -/
theorem call_settles
    (maps : catalog.Maps (contents state) map)
    (call : Call) :
    (call.action catalog).Yields state (catalog.Settles map call.growth (call.onMap map) state) := by
  cases call with
  | insert row => exact insert_settles maps row
  | noteFilled table => exact update_settles maps table fun _ => rfl
  | noteFiles table tableFile indexFile => exact update_settles maps table fun _ => rfl
  | get table => exact get_settles maps table

end Calls

end ObliviousStorage.Catalog

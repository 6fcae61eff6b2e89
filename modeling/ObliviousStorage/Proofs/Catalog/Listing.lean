import Mathlib.Data.List.Forall2
import ObliviousStorage.Proofs.Catalog.RowPages
import ObliviousStorage.Proofs.Catalog.Searches

/-!
Contract: the catalog as rows of its pages, and what its operations do to them.

Owns: `Listed`, the relations that hold a catalog; `Filled`, the states that adding and
changing rows leads to; which row is found; and what adding a row and changing one do,
also when the store refuses a call halfway.

Does not own: what rows mean.
-/

namespace ObliviousStorage.Catalog

open Page StorageM StorageView

/-- What a page of the catalog holds. A block that was added but never written holds no
rows. -/
def PageHolds (page : Page) (rows : List Row) : Prop :=
  page.isUnformatted = true ∧ rows = [] ∨ RowPage page rows

/-- The rows of a relation, page by page. -/
structure Listed (relation : Relation) (rows : List (List Row)) : Prop where
  pages : List.Forall₂ PageHolds relation.pages rows
  blank : relation.blank = Page.zero

/-- The first row of a table in the order of pages and slots. -/
structure FirstAt
    (rows : List (List Row))
    (table : RelationId)
    (block index : Nat)
    (row : Row) : Prop where
  onPage : ∃ pageRows, rows[block]? = some pageRows ∧ FirstIn pageRows table index row
  before :
    ∀ earlier pageRows, earlier < block → rows[earlier]? = some pageRows →
      ∀ other ∈ pageRows, other.table ≠ table

/-- What a search for the first row of a table has to find. -/
def Finds (rows : List (List Row)) (table : RelationId) : Option Located → Prop
  | some located =>
      ∃ index,
        located.slot = index + 1 ∧ FirstAt rows table located.block.toNat index located.row
  | none => ∀ pageRows ∈ rows, ∀ row ∈ pageRows, row.table ≠ table

/-- The rows with one of them replaced. -/
def replacedAt (rows : List (List Row)) (block index : Nat) (row : Row) : List (List Row) :=
  rows.modify block fun pageRows => pageRows.set index row

theorem FirstAt.unique
    {rows : List (List Row)}
    {table : RelationId}
    {block other index second : Nat}
    {row another : Row}
    (first : FirstAt rows table block index row)
    (also : FirstAt rows table other second another) :
    block = other ∧ index = second ∧ row = another := by
  obtain ⟨pageRows, among, firstIn⟩ := first.onPage
  obtain ⟨otherRows, otherAmong, alsoIn⟩ := also.onPage
  have same : block = other := by
    rcases Nat.lt_trichotomy block other with below | same | above
    · exact absurd firstIn.ofTable
        (also.before block pageRows below among row (List.mem_of_getElem? firstIn.among))
    · exact same
    · exact absurd alsoIn.ofTable
        (first.before other otherRows above otherAmong another
          (List.mem_of_getElem? alsoIn.among))
  subst same
  obtain rfl := Option.some.inj (among.symm.trans otherAmong)
  obtain ⟨sameIndex, sameRow⟩ := firstIn.unique alsoIn
  exact ⟨rfl, sameIndex, sameRow⟩

/-- Changing the first row of a table, but not its table, leaves it the first one. -/
theorem FirstAt.replaced
    {rows : List (List Row)}
    {table : RelationId}
    {block index : Nat}
    {row changed : Row}
    (first : FirstAt rows table block index row)
    (same : changed.table = table) :
    FirstAt (replacedAt rows block index changed) table block index changed where
  onPage := by
    obtain ⟨pageRows, among, firstIn⟩ := first.onPage
    exact ⟨pageRows.set index changed, by simp [replacedAt, among], firstIn.set same⟩
  before earlier pageRows below among := by
    have different : block ≠ earlier := by omega
    rw [replacedAt, List.getElem?_modify_ne _ _ different] at among
    exact first.before earlier pageRows below among

/-- The first row of a table splits all rows in two; changing it changes nothing else. -/
theorem FirstAt.split
    {rows : List (List Row)}
    {table : RelationId}
    {block index : Nat}
    {row : Row}
    (first : FirstAt rows table block index row)
    (changed : Row) :
    ∃ earlier later,
      rows.flatten = earlier ++ row :: later ∧
        (∀ other ∈ earlier, other.table ≠ table) ∧
          (replacedAt rows block index changed).flatten = earlier ++ changed :: later := by
  obtain ⟨⟨pageRows, page, firstIn⟩, before⟩ := first
  obtain ⟨pageInside, rfl⟩ := List.getElem?_eq_some_iff.mp page
  obtain ⟨inside, rfl⟩ := List.getElem?_eq_some_iff.mp firstIn.among
  refine ⟨(rows.take block).flatten ++ rows[block].take index,
    rows[block].drop (index + 1) ++ (rows.drop (block + 1)).flatten, ?_, ?_, ?_⟩
  · conv_lhs => rw [← List.take_append_drop block rows]
    rw [List.flatten_append, List.drop_eq_getElem_cons pageInside, List.flatten_cons,
      List.append_assoc, ← List.cons_append, ← List.drop_eq_getElem_cons inside,
      ← List.append_assoc (rows[block].take index), List.take_append_drop]
  · intro other member
    rcases List.mem_append.mp member with earlier | earlier
    · obtain ⟨earlierRows, onPage, among⟩ := List.mem_flatten.mp earlier
      obtain ⟨number, below, rfl⟩ := List.mem_take_iff_getElem.mp onPage
      exact before number _ (by omega) (List.getElem?_eq_getElem (by omega)) other among
    · obtain ⟨number, below, rfl⟩ := List.mem_take_iff_getElem.mp earlier
      exact firstIn.before number _ (by omega) (List.getElem?_eq_getElem (by omega))
  · rw [replacedAt, List.modify_eq_take_cons_drop pageInside, List.flatten_append,
      List.flatten_cons, List.set_eq_take_append_cons_drop, if_pos inside]
    simp only [List.append_assoc, List.cons_append]

/-! ## Searching -/

/-- The search of consecutive slots that hold these rows. -/
theorem locateInPage_spec
    {page : Page}
    {rest : List Row}
    (table : RelationId)
    (block : BlockNumber)
    (first : Nat)
    (items : ∀ index row, rest[index]? = some row → page.item (first + index) = .ok row.toBytes) :
    (∃ index row,
        locateInPage page table block (List.range' first rest.length) =
            .ok (some ⟨block, first + index, row⟩) ∧
          FirstIn rest table index row) ∨
      locateInPage page table block (List.range' first rest.length) = .ok none ∧
        ∀ row ∈ rest, row.table ≠ table := by
  induction rest generalizing first with
  | nil => exact Or.inr ⟨rfl, by simp⟩
  | cons row rest inductionHypothesis =>
      have item : page.item first = .ok row.toBytes := items 0 row rfl
      rw [List.length_cons, List.range'_succ]
      by_cases ofTable : row.table = table
      · refine Or.inl ⟨0, row, ?_, ⟨rfl, ofTable, fun _ _ below => absurd below (by simp)⟩⟩
        simp [locateInPage, item, ofTable, bind, Except.bind, pure, Except.pure]
      · have later := inductionHypothesis (first + 1) fun index other among => by
          rw [Nat.add_assoc, Nat.add_comm 1]
          exact items (index + 1) other (by simpa using among)
        simp only [locateInPage, item, bind, Except.bind, Row.ofBytes_toBytes, ofTable, ↓reduceIte]
        rcases later with ⟨index, found, result, firstIn⟩ | ⟨result, absent⟩
        · refine Or.inl ⟨index + 1, found, ?_, firstIn.cons ofTable⟩
          rw [result, Nat.add_assoc, Nat.add_comm 1]
        · refine Or.inr ⟨result, fun other member => ?_⟩
          rcases List.mem_cons.mp member with rfl | among
          · exact ofTable
          · exact absent other among

theorem locateOnPage_spec
    {page : Page}
    {rows : List Row}
    (holds : PageHolds page rows)
    (table : RelationId)
    (block : BlockNumber) :
    (∃ index row,
        locateOnPage page table block = .ok (some ⟨block, index + 1, row⟩) ∧
          FirstIn rows table index row) ∨
      locateOnPage page table block = .ok none ∧ ∀ row ∈ rows, row.table ≠ table := by
  rcases holds with ⟨unformatted, rfl⟩ | rowPage
  · exact Or.inr ⟨by rw [locateOnPage, if_pos unformatted], by simp⟩
  · have verified := (verify_eq_ok_iff page).mpr rowPage.wellFormed
    have searched := locateInPage_spec table block 1 fun index row among => by
      rw [Nat.add_comm]
      exact rowPage.item_eq among
    simp only [locateOnPage, rowPage.formatted, Bool.false_eq_true, ↓reduceIte, verified, bind,
      Except.bind, rowPage.slotCount]
    rcases searched with ⟨index, row, result, firstIn⟩ | ⟨result, absent⟩
    · exact Or.inl ⟨index, row, by rw [result, Nat.add_comm], firstIn⟩
    · exact Or.inr ⟨result, absent⟩

/-- Why no row of a table was found: there is none, or the store refused a call, which a
sound store does only if the relation has more blocks than there are numbers. -/
def Misses
    {σ : Type}
    [StorageView σ]
    (relation : Relation)
    (rows : List (List Row))
    (table : RelationId)
    (state : σ)
    (fault : Fault) : Prop :=
  fault = .notFound table ∧ Finds rows table none ∨ (Sound state → relation.FullFor 0)

theorem Misses.finds_none
    {σ : Type}
    [StorageView σ]
    {relation : Relation}
    {rows : List (List Row)}
    {table : RelationId}
    {state : σ}
    {fault : Fault}
    (misses : Misses relation rows table state fault)
    (sound : Sound state)
    (few : relation.pages.length < blockNumberBound) :
    Finds rows table none := by
  rcases misses with ⟨-, absent⟩ | refused
  · exact absent
  · exact absurd (refused sound) (Nat.not_le_of_lt few)

variable {σ : Type} [Storage σ] [LawfulStorage σ]

section Searching

variable
  {catalog : Catalog}
  {relation : Relation}
  {rows : List (List Row)}
  {state : σ}

theorem Listed.searchable
    (listed : Listed relation rows)
    (table : RelationId) :
    Searchable relation table := by
  intro block page among
  obtain ⟨inside, same⟩ := List.getElem?_eq_some_iff.mp among
  have bound : block < rows.length := listed.pages.length_eq ▸ inside
  have holds : PageHolds page rows[block] := same ▸ listed.pages.get inside bound
  rcases locateOnPage_spec holds table (UInt32.ofNat block) with ⟨_, _, finds, -⟩ | ⟨finds, -⟩
  · exact ⟨_, finds⟩
  · exact ⟨_, finds⟩

theorem Listed.noneBefore
    {table : RelationId}
    {stop : Nat}
    (listed : Listed relation rows)
    (none : NoneBefore relation table stop) :
    ∀ block pageRows, block < stop → rows[block]? = some pageRows →
      ∀ other ∈ pageRows, other.table ≠ table := by
  intro block pageRows below among
  obtain ⟨bound, rfl⟩ := List.getElem?_eq_some_iff.mp among
  have inside : block < relation.pages.length := listed.pages.length_eq ▸ bound
  have holds : PageHolds relation.pages[block] rows[block] := listed.pages.get inside bound
  have missed := none block _ below (List.getElem?_eq_getElem inside)
  rcases locateOnPage_spec holds table (UInt32.ofNat block) with ⟨_, _, finds, -⟩ | ⟨-, absent⟩
  · exact absurd (missed.symm.trans finds) (by simp)
  · exact absent

theorem Listed.findsNone
    {table : RelationId}
    (listed : Listed relation rows)
    (none : ComesUpon relation table none) :
    Finds rows table Option.none := by
  intro pageRows member row among
  obtain ⟨block, inside, same⟩ := List.mem_iff_getElem.mp member
  have bound := listed.pages.length_eq
  refine listed.noneBefore none block pageRows (by omega) ?_ row among
  rw [List.getElem?_eq_getElem inside, same]

/-- What the search comes upon is the first row of the table. -/
theorem Listed.finds
    {table : RelationId}
    {found : Option Located}
    (listed : Listed relation rows)
    (few : relation.pages.length < blockNumberBound)
    (comesUpon : ComesUpon relation table found) :
    Finds rows table found := by
  cases found with
  | none => exact listed.findsNone comesUpon
  | some located =>
      obtain ⟨block, page, among, finds, before⟩ := comesUpon
      obtain ⟨inside, same⟩ := List.getElem?_eq_some_iff.mp among
      have bound : block < rows.length := listed.pages.length_eq ▸ inside
      have holds : PageHolds page rows[block] := same ▸ listed.pages.get inside bound
      have number : (UInt32.ofNat block).toNat = block :=
        UInt32.toNat_ofNat_of_lt' (Nat.lt_trans inside few)
      rcases locateOnPage_spec holds table (UInt32.ofNat block) with
        ⟨index, row, result, firstIn⟩ | ⟨result, -⟩
      · obtain rfl := Option.some.inj (Except.ok.inj (finds.symm.trans result))
        refine ⟨index, rfl, ?_⟩
        rw [number]
        exact ⟨⟨rows[block], List.getElem?_eq_getElem bound, firstIn⟩, listed.noneBefore before⟩
      · exact absurd (finds.symm.trans result) (by simp)

theorem locate_yields
    (present : contents state catalog.relation = some relation)
    (listed : Listed relation rows)
    (table : RelationId) :
    (catalog.locate table).Yields state
      (either
        (fun found left =>
          Finds rows table found ∧ relation.pages.length < blockNumberBound ∧
            Became state left (contents state) 0)
        fun _ left =>
          Became state left (contents state) 0 ∧
            (Sound state → blockNumberBound ≤ relation.pages.length)) := by
  refine (locate_comesUpon present (listed.searchable table)).mono ?_ ?_
  · rintro found left ⟨comesUpon, few, became⟩
    exact ⟨listed.finds few comesUpon, few, became⟩
  · exact fun fault left refused => refused

theorem Listed.misses
    {table : RelationId}
    {fault : Fault}
    (listed : Listed relation rows)
    (alone : LeftAlone relation table state fault) :
    Misses relation rows table state fault := by
  rcases alone with ⟨missing, none⟩ | refused
  · exact Or.inl ⟨missing, listed.findsNone none⟩
  · exact Or.inr refused

theorem find_yields
    (present : contents state catalog.relation = some relation)
    (listed : Listed relation rows)
    (table : RelationId) :
    (catalog.find table).Yields state
      (either
        (fun located left =>
          Finds rows table (some located) ∧ relation.pages.length < blockNumberBound ∧
            Became state left (contents state) 0)
        fun fault left =>
          Became state left (contents state) 0 ∧ Misses relation rows table state fault) := by
  refine (find_comesUpon present (listed.searchable table)).mono ?_ ?_
  · rintro located left ⟨comesUpon, few, became⟩
    exact ⟨listed.finds few comesUpon, few, became⟩
  · rintro fault left ⟨became, alone⟩
    exact ⟨became, listed.misses alone⟩

/-- Looking a row up finds the first one of the table and changes nothing. -/
theorem get_yields
    (present : contents state catalog.relation = some relation)
    (listed : Listed relation rows)
    (table : RelationId) :
    (catalog.get table).Yields state
      (either
        (fun row left =>
          (∃ block index, FirstAt rows table block index row) ∧
            relation.pages.length < blockNumberBound ∧ Became state left (contents state) 0)
        fun fault left =>
          Became state left (contents state) 0 ∧ Misses relation rows table state fault) := by
  apply yields_bind (find_yields present listed table)
  · intro located between holds
    rcases holds with ⟨⟨index, -, first⟩, few, became⟩
    exact yields_pure ⟨⟨_, index, first⟩, few, became⟩
  · intro fault left refused
    exact refused

end Searching

/-! ## Changing a row -/

theorem forall₂_set
    {α β : Type}
    {Related : α → β → Prop}
    {left : List α}
    {right : List β}
    {one : α}
    {other : β}
    (related : List.Forall₂ Related left right)
    (index : Nat)
    (new : Related one other) :
    List.Forall₂ Related (left.set index one) (right.set index other) := by
  induction related generalizing index with
  | nil => exact .nil
  | cons first rest inductionHypothesis =>
      cases index with
      | zero => exact .cons new rest
      | succ index => exact .cons first (inductionHypothesis index)

theorem Listed.overwritten
    {relation : Relation}
    {rows : List (List Row)}
    {page : Page}
    {pageRows : List Row}
    (listed : Listed relation rows)
    (block : Nat)
    (holds : PageHolds page pageRows) :
    Listed (relation.overwritten block page) (rows.set block pageRows) where
  pages := forall₂_set listed.pages block holds
  blank := listed.blank

/-- The page that the first row of a table is on. -/
theorem Listed.page_of_firstAt
    {relation : Relation}
    {rows : List (List Row)}
    {table : RelationId}
    {block index : Nat}
    {row : Row}
    (listed : Listed relation rows)
    (first : FirstAt rows table block index row) :
    ∃ page pageRows,
      relation.pages[block]? = some page ∧ rows[block]? = some pageRows ∧ RowPage page pageRows ∧
        index < pageRows.length := by
  obtain ⟨pageRows, among, firstIn⟩ := first.onPage
  obtain ⟨inside, same⟩ := List.getElem?_eq_some_iff.mp among
  have bound : block < relation.pages.length := listed.pages.length_eq ▸ inside
  have holds : PageHolds relation.pages[block] rows[block] := listed.pages.get bound inside
  have some := (List.getElem?_eq_some_iff.mp firstIn.among).1
  rw [same] at holds
  rcases holds with ⟨-, none⟩ | rowPage
  · simp [none] at some
  · exact ⟨_, pageRows, List.getElem?_eq_getElem bound, among, rowPage, some⟩

section Updating

variable
  {catalog : Catalog}
  {relation : Relation}
  {rows : List (List Row)}
  {state : σ}

/-- Changing a row replaces the first row of the table, or nothing at all. -/
theorem update_yields
    (present : contents state catalog.relation = some relation)
    (listed : Listed relation rows)
    (table : RelationId)
    (change : Row → Row) :
    (catalog.update table change).Yields state
      (either
        (fun _ left =>
          ∃ changed block index row,
            FirstAt rows table block index row ∧
              Listed changed (replacedAt rows block index (change row)) ∧
                changed.pages.length = relation.pages.length ∧
                  Became state left ((contents state).put catalog.relation changed) 0)
        fun fault left =>
          Became state left (contents state) 0 ∧ Misses relation rows table state fault) := by
  have rewritten :
      ∀ located,
        relation.pages.length < blockNumberBound → ComesUpon relation table (some located) →
          ∃ page changed,
            Rewrites relation change located page changed ∧
              ∃ index,
                FirstAt rows table located.block.toNat index located.row ∧
                  Listed (relation.overwritten located.block.toNat changed)
                    (replacedAt rows located.block.toNat index (change located.row)) := by
    intro located few comesUpon
    obtain ⟨index, slot, first⟩ := listed.finds few comesUpon
    obtain ⟨page, pageRows, among, rowsAt, rowPage, inside⟩ := listed.page_of_firstAt first
    obtain ⟨changed, replaces, holds⟩ := rowPage.replace inside (change located.row)
    refine ⟨page, changed, ⟨among, by rw [slot, replaces]⟩, index, first, ?_⟩
    rw [replacedAt, List.modify_eq_set_getElem?, rowsAt]
    exact listed.overwritten _ (Or.inr holds)
  refine (update_comesUpon present (listed.searchable table) rewritten).mono ?_ ?_
  · rintro _ left ⟨located, page, changed, ⟨index, first, changedListed⟩, became⟩
    exact ⟨_, _, index, _, first, changedListed, List.length_set, became⟩
  · rintro fault left ⟨became, alone⟩
    exact ⟨became, listed.misses alone⟩

end Updating

/-! ## Adding a row -/

theorem hasRoom_plain : hasRoom Page.plain = true := by
  rw [hasRoom, RowPage.plain.formatted, freeBytes, RowPage.plain.lower, RowPage.plain.upper]
  decide

theorem Listed.extended
    {relation : Relation}
    {rows : List (List Row)}
    (listed : Listed relation rows) :
    Listed relation.extended (rows ++ [[]]) where
  pages := by
    refine List.rel_append listed.pages (.cons (Or.inl ⟨?_, rfl⟩) .nil)
    rw [listed.blank]
    exact zero_unformatted
  blank := rfl

section Adding

variable
  {catalog : Catalog}
  {relation : Relation}
  {rows : List (List Row)}
  {state : σ}

/-- The catalog's relation holds these rows, in at most one block more, and all others hold what
they held. -/
def NowLists (catalog : Catalog) (state left : σ) (listing : List Row) : Prop :=
  ∃ grown rows,
    Listed grown rows ∧ rows.flatten = listing ∧
      (∀ found, contents state catalog.relation = some found →
        grown.pages.length ≤ found.pages.length + 1) ∧
      Became state left ((contents state).put catalog.relation grown) 0

theorem nowLists_same
    {left : σ}
    (present : contents state catalog.relation = some relation)
    (listed : Listed relation rows)
    (became : Became state left (contents state) 0) :
    catalog.NowLists state left rows.flatten := by
  refine ⟨relation, rows, listed, rfl, fun found among => ?_, ?_⟩
  · rw [Option.some.inj (present.symm.trans among)]
    exact Nat.le_succ _
  · rwa [Contents.put_of_some present]

theorem NowLists.after
    {between left : σ}
    {listing : List Row}
    (became : Became state between (contents state) 0)
    (lists : catalog.NowLists between left listing) :
    catalog.NowLists state left listing := by
  obtain ⟨grown, rows, listed, same, short, later⟩ := lists
  rw [became.holds] at short later
  exact ⟨grown, rows, listed, same, short, became.trans later⟩

theorem insertInNewBlock_yields
    (present : contents state catalog.relation = some relation)
    (listed : Listed relation rows)
    (row : Row) :
    (catalog.insertInNewBlock row).Yields state
      (either
        (fun _ left => catalog.NowLists state left (rows.flatten ++ [row]))
        fun _ left =>
          catalog.NowLists state left rows.flatten ∧ (Sound state → relation.FullFor 1)) := by
  obtain ⟨page, appends, rowPage⟩ := RowPage.plain.append hasRoom_plain row
  rw [insertInNewBlock, appends]
  apply yields_bind (LawfulStorage.extend_law state catalog.relation)
  · intro block between holds
    rcases holds with ⟨found, among, number, became⟩
    obtain rfl := Option.some.inj (present.symm.trans among)
    apply yields_lift_bind
    · rintro ⟨slot, grown⟩ result
      obtain rfl : page = grown := (Prod.mk.inj (Except.ok.inj result)).2
      have extended := listed.extended
      have short :
          ∀ other, contents state catalog.relation = some other →
            relation.extended.pages.length ≤ other.pages.length + 1 := by
        intro other among
        rw [← Option.some.inj (present.symm.trans among)]
        exact Nat.le_of_eq relation.length_extended
      have inside : block.toNat < relation.extended.pages.length := by
        rw [Relation.length_extended]
        omega
      apply (write_known became.holds (Contents.put_same ..) inside page).mono
      · intro _ left written
        rw [Contents.put_put] at written
        refine ⟨_, _, extended.overwritten block.toNat (Or.inr rowPage), ?_, ?_,
          became.trans written⟩
        · rw [number, listed.pages.length_eq, List.set_append_right _ _ (Nat.le_refl _),
            Nat.sub_self, List.set_cons_zero, List.flatten_append, List.flatten_singleton,
            List.nil_append]
        · rwa [Relation.overwritten, List.length_set]
      · intro fault left refused
        rcases refused with ⟨written, unsound⟩
        exact
          ⟨⟨_, _, extended, by simp, short, became.trans written⟩, fun sound =>
            absurd (became.keepsSound sound) unsound⟩
    · intro fault refused
      exact absurd refused (by simp)
  · intro fault left refused
    rcases refused with ⟨reason, became⟩
    exact ⟨nowLists_same present listed became, fun sound => reason sound relation present⟩

theorem flatten_set_last
    {α : Type}
    {items : List (List α)}
    {last more : List α}
    {position : Nat}
    (atEnd : position + 1 = items.length)
    (among : items[position]? = some last) :
    (items.set position (last ++ more)).flatten = items.flatten ++ more := by
  induction items generalizing position with
  | nil => simp at among
  | cons first rest inductionHypothesis =>
      cases position with
      | zero =>
          have none : rest = [] := List.eq_nil_of_length_eq_zero (by simpa using atEnd.symm)
          have same : first = last := by simpa using among
          simp [none, same]
      | succ position =>
          have later := inductionHypothesis (by simpa using atEnd) (by simpa using among)
          simp [later]

/-- Adding a row puts it behind all others, or leaves the rows as they were. -/
theorem append_yields
    (present : contents state catalog.relation = some relation)
    (listed : Listed relation rows)
    (row : Row) :
    (catalog.append row).Yields state
      (either
        (fun _ left => catalog.NowLists state left (rows.flatten ++ [row]))
        fun _ left =>
          catalog.NowLists state left rows.flatten ∧ (Sound state → relation.FullFor 1)) := by
  apply yields_bind (LawfulStorage.count_law state catalog.relation)
  · intro count between holds
    rcases holds with ⟨counted, became⟩
    obtain ⟨found, among, length⟩ := Contents.count_eq_ok_iff.mp counted
    obtain rfl := Option.some.inj (present.symm.trans among)
    have presentBetween : contents between catalog.relation = some relation :=
      congrFun became.holds _ ▸ present
    split
    · exact (insertInNewBlock_yields presentBetween listed row).mono
        (fun _ left lists => lists.after became)
        fun _ left refused => ⟨refused.1.after became, refused.2 ∘ became.keepsSound⟩
    · next some =>
        have positive : count.toNat ≠ 0 := fun zero => some (UInt32.toNat_inj.mp zero)
        have number : (count - 1).toNat = count.toNat - 1 :=
          UInt32.toNat_sub_of_le _ _
            (UInt32.le_iff_toNat_le.mpr (Nat.one_le_iff_ne_zero.mpr positive))
        have inside : count.toNat - 1 < relation.pages.length := by omega
        have bound : count.toNat - 1 < rows.length := listed.pages.length_eq ▸ inside
        have holds : PageHolds relation.pages[count.toNat - 1] rows[count.toNat - 1] :=
          listed.pages.get inside bound
        have found :
            (contents state).page catalog.relation (count - 1) =
              .ok relation.pages[count.toNat - 1] :=
          Contents.page_of_some present (by rw [number, List.getElem?_eq_getElem inside])
        apply yields_bind (read_known became.holds found)
        · rintro page afterRead ⟨rfl, read⟩
          have reached := became.trans read
          split
          · next room =>
              rcases holds with ⟨unformatted, -⟩ | rowPage
              · simp [hasRoom, unformatted] at room
              · obtain ⟨grown, appends, grownPage⟩ := rowPage.append room row
                rw [appends]
                apply yields_lift_bind
                · rintro ⟨slot, extended⟩ result
                  obtain rfl : grown = extended := (Prod.mk.inj (Except.ok.inj result)).2
                  apply (write_known read.holds present (number ▸ inside) grown).mono
                  · intro _ left written
                    refine ⟨_, _, listed.overwritten _ (Or.inr grownPage), ?_, ?_,
                      reached.trans written⟩
                    · rw [number]
                      exact flatten_set_last (by rw [← listed.pages.length_eq]; omega)
                        (List.getElem?_eq_getElem bound)
                    · intro other among
                      rw [Relation.overwritten, List.length_set,
                        Option.some.inj (present.symm.trans among)]
                      exact Nat.le_succ _
                  · intro fault left refused
                    rcases refused with ⟨written, unsound⟩
                    exact
                      ⟨nowLists_same present listed (reached.trans written), fun sound =>
                        absurd (reached.keepsSound sound) unsound⟩
                · intro fault refused
                  exact absurd refused (by simp)
          · exact (insertInNewBlock_yields (congrFun reached.holds _ ▸ present) listed row).mono
              (fun _ left lists => lists.after reached)
              fun _ left refused => ⟨refused.1.after reached, refused.2 ∘ reached.keepsSound⟩
        · intro fault left refused
          rcases refused with ⟨read, unsound⟩
          exact
            ⟨nowLists_same present listed (became.trans read), fun sound =>
              absurd (became.keepsSound sound) unsound⟩
  · intro fault left refused
    rcases refused with ⟨reason, became⟩
    refine ⟨nowLists_same present listed became, fun sound => ?_⟩
    exact Nat.le_succ_of_le (length_of_uncounted present (reason sound))

/-- Why a row is not inserted: it names no table, its table has a row already, or the store
refused a call, which a sound store does only if there is no block left. -/
inductive Rejects
    (relation : Relation)
    (rows : List (List Row))
    (row : Row)
    (state : σ)
    (fault : Fault) : Prop
  | unnamed
      (noTable : row.table = noRelation)
      (reported : fault = .invalidConfiguration .rowWithoutTable)
  | duplicate
      (named : row.table ≠ noRelation)
      (located : Located)
      (finds : Finds rows row.table (some located))
      (reported : fault = .invalidConfiguration (.duplicateRow row.table))
  | exhausted (reason : Sound state → relation.FullFor 1)

/-- Inserting a row puts it behind all others, or leaves the rows as they were. -/
theorem insert_yields
    (present : contents state catalog.relation = some relation)
    (listed : Listed relation rows)
    (row : Row) :
    (catalog.insert row).Yields state
      (either
        (fun _ left =>
          row.table ≠ noRelation ∧ Finds rows row.table none ∧
            catalog.NowLists state left (rows.flatten ++ [row]))
        fun fault left =>
          catalog.NowLists state left rows.flatten ∧ Rejects relation rows row state fault) := by
  apply yields_lift_bind
  · intro _ named
    apply yields_bind (locate_yields present listed row.table)
    · intro found between holds
      rcases holds with ⟨finds, -, became⟩
      apply yields_lift_bind
      · intro _ absent
        obtain rfl := require_eq_ok_iff.mp absent
        apply (append_yields (congrFun became.holds _ ▸ present) listed row).mono
        · intro _ left lists
          exact ⟨require_eq_ok_iff.mp named, finds, lists.after became⟩
        · intro fault left refused
          exact ⟨refused.1.after became, .exhausted (refused.2 ∘ became.keepsSound)⟩
      · intro fault rejected
        obtain ⟨taken, rfl⟩ := require_eq_error_iff.mp rejected
        obtain ⟨located, rfl⟩ := Option.ne_none_iff_exists'.mp taken
        exact ⟨nowLists_same present listed became,
          .duplicate (require_eq_ok_iff.mp named) located finds rfl⟩
    · intro fault left refused
      rcases refused with ⟨became, reason⟩
      exact ⟨nowLists_same present listed became,
        .exhausted fun sound => Nat.le_succ_of_le (reason sound)⟩
  · intro fault rejected
    obtain ⟨unnamed, rfl⟩ := require_eq_error_iff.mp rejected
    exact ⟨nowLists_same present listed (.refl state), .unnamed (not_not.mp unnamed) rfl⟩

end Adding

/-! ## Catalogs in use -/

/-- The states in which a catalog can be: it was created, rows were inserted and changed,
each time with whatever outcome, and its relation was left alone in between. -/
inductive Filled (catalog : Catalog) : σ → Prop
  | created
      {before after : σ}
      (creates : (Catalog.create : StorageM σ Catalog).runOn before = (.ok catalog, after)) :
      Filled catalog after
  | inserted
      {before after : σ}
      {row : Row}
      {outcome : Except Fault Unit}
      (filled : Filled catalog before)
      (inserts : (catalog.insert row).runOn before = (outcome, after)) :
      Filled catalog after
  | updated
      {before after : σ}
      {table : RelationId}
      {change : Row → Row}
      {outcome : Except Fault Unit}
      (filled : Filled catalog before)
      (updates : (catalog.update table change).runOn before = (outcome, after)) :
      Filled catalog after
  | elsewhere
      {before after : σ}
      (filled : Filled catalog before)
      (same : contents after catalog.relation = contents before catalog.relation) :
      Filled catalog after

/-- A catalog that was created has a relation without blocks. -/
theorem create_yields (state : σ) :
    (Catalog.create : StorageM σ Catalog).Yields state fun outcome left =>
      ∀ made, outcome = .ok made → contents left made.relation = some .created := by
  apply yields_bind (LawfulStorage.create_law state)
  · intro relation left holds
    rcases holds with ⟨-, became⟩
    refine yields_pure fun made result => ?_
    obtain rfl := Except.ok.inj result
    rw [became.holds, Contents.put_same]
  · rintro fault left - made result
    exact absurd result (by simp)

/-- The relation of a catalog in use holds rows only. -/
theorem Filled.listed
    {catalog : Catalog}
    {state : σ}
    (filled : catalog.Filled state) :
    ∃ relation rows, contents state catalog.relation = some relation ∧ Listed relation rows := by
  induction filled with
  | @created before after creates =>
      exact ⟨.created, [], (create_yields before).runOn creates catalog rfl, .nil, rfl⟩
  | @inserted before after row outcome filled inserts inductionHypothesis =>
      obtain ⟨relation, rows, present, listed⟩ := inductionHypothesis
      have lists := (insert_yields present listed row).runOn inserts
      cases outcome with
      | ok done =>
          obtain ⟨-, -, grown, grownRows, grownListed, -, -, became⟩ := lists
          exact ⟨grown, grownRows, by rw [became.holds, Contents.put_same], grownListed⟩
      | error fault =>
          obtain ⟨⟨grown, grownRows, grownListed, -, -, became⟩, -⟩ := lists
          exact ⟨grown, grownRows, by rw [became.holds, Contents.put_same], grownListed⟩
  | @updated before after table change outcome filled updates inductionHypothesis =>
      obtain ⟨relation, rows, present, listed⟩ := inductionHypothesis
      have changes := (update_yields present listed table change).runOn updates
      cases outcome with
      | ok done =>
          obtain ⟨changed, _, _, _, -, changedListed, -, became⟩ := changes
          exact ⟨changed, _, by rw [became.holds, Contents.put_same], changedListed⟩
      | error fault =>
          exact ⟨relation, rows, congrFun changes.1.holds _ ▸ present, listed⟩
  | elsewhere filled same inductionHypothesis =>
      obtain ⟨relation, rows, present, listed⟩ := inductionHypothesis
      exact ⟨relation, rows, same.trans present, listed⟩

end ObliviousStorage.Catalog

import ObliviousStorage.Catalog.Rows
import ObliviousStorage.Proofs.Storage.Accepted

/-!
Contract: searching a catalog's blocks and changing the row found there, whatever its pages hold.

Owns: that a catalog none of whose pages refuses the search is searched block by block up to the
first page with a row of the table; that an update replaces the row found there; and what a store
can do about either.

Does not own: which pages refuse the search, or what it finds on the others.
-/

namespace ObliviousStorage.Catalog

open StorageM StorageView

/-- No page refuses to be searched for a row of the table. -/
def Searchable (relation : Relation) (table : RelationId) : Prop :=
  ∀ block page,
    relation.pages[block]? = some page →
      ∃ located, locateOnPage page table (UInt32.ofNat block) = .ok located

/-- No page in front of the block has a row of the table. -/
def NoneBefore (relation : Relation) (table : RelationId) (stop : Nat) : Prop :=
  ∀ block page,
    block < stop → relation.pages[block]? = some page →
      locateOnPage page table (UInt32.ofNat block) = .ok none

/-- What a search comes upon: a row on the first page that has one, or none on any page. -/
def ComesUpon (relation : Relation) (table : RelationId) : Option Located → Prop
  | some located =>
      ∃ block page,
        relation.pages[block]? = some page ∧
          locateOnPage page table (UInt32.ofNat block) = .ok (some located) ∧
            NoneBefore relation table block
  | none => NoneBefore relation table relation.pages.length

variable
  {σ : Type}
  [Storage σ]
  [LawfulStorage σ]
  {catalog : Catalog}
  {relation : Relation}
  {table : RelationId}
  {state : σ}

/-- The search of the blocks from `start` on, when the pages before it have no row of the table. -/
theorem locateIn_comesUpon
    (present : contents state catalog.relation = some relation)
    (searchable : Searchable relation table)
    (few : relation.pages.length < blockNumberBound)
    (count start : Nat)
    (whole : start + count = relation.pages.length)
    (before : NoneBefore relation table start) :
    (catalog.locateIn table ((List.range' start count).map UInt32.ofNat)).Yields state
      (either
        (fun found left =>
          ComesUpon relation table found ∧ Became state left (contents state) 0)
        fun _ left => Became state left (contents state) 0 ∧ ¬Sound state) := by
  induction count generalizing start state with
  | zero =>
      rw [Nat.add_zero] at whole
      subst whole
      exact yields_pure ⟨before, .refl state⟩
  | succ count inductionHypothesis =>
      have inside : start < relation.pages.length := by omega
      have number : (UInt32.ofNat start).toNat = start :=
        UInt32.toNat_ofNat_of_lt' (Nat.lt_trans inside few)
      have among : relation.pages[start]? = some relation.pages[start] :=
        List.getElem?_eq_getElem inside
      have held :
          (contents state).page catalog.relation (UInt32.ofNat start) =
            .ok relation.pages[start] :=
        Contents.page_of_some present (by rw [number, among])
      obtain ⟨located, finds⟩ := searchable start _ among
      rw [List.range'_succ, List.map_cons, locateIn]
      refine yields_bind (read_known rfl held) ?_ fun fault left refused => refused
      rintro page between ⟨rfl, became⟩
      refine yields_lift_bind_value finds ?_
      cases located with
      | some located => exact yields_pure ⟨⟨start, _, among, finds, before⟩, became⟩
      | none =>
          have beforeNext : NoneBefore relation table (start + 1) := by
            intro block page below there
            rcases Nat.lt_succ_iff_lt_or_eq.mp below with earlier | rfl
            · exact before block page earlier there
            · rwa [← Option.some.inj (among.symm.trans there)]
          have continues :=
            inductionHypothesis (congrFun became.holds _ ▸ present) (start + 1) (by omega)
              beforeNext
          refine continues.mono ?_ ?_
          · rintro found left ⟨comesUpon, later⟩
            rw [became.holds] at later
            exact ⟨comesUpon, became.trans later⟩
          · rintro fault left ⟨later, unsound⟩
            rw [became.holds] at later
            exact ⟨became.trans later, fun sound => unsound (became.keepsSound sound)⟩

/-- A relation whose blocks are not counted has too many of them. -/
theorem length_of_uncounted
    {held : Contents}
    {fault : Fault}
    (present : held catalog.relation = some relation)
    (refused : held.count catalog.relation = .error fault) :
    blockNumberBound ≤ relation.pages.length := by
  simp only [Contents.count, present, toBlockNumber] at refused
  split at refused
  · exact absurd refused (by simp)
  · omega

theorem locate_comesUpon
    (present : contents state catalog.relation = some relation)
    (searchable : Searchable relation table) :
    (catalog.locate table).Yields state
      (either
        (fun found left =>
          ComesUpon relation table found ∧ relation.pages.length < blockNumberBound ∧
            Became state left (contents state) 0)
        fun _ left =>
          Became state left (contents state) 0 ∧ (Sound state → relation.FullFor 0)) := by
  refine yields_bind (LawfulStorage.count_law state catalog.relation) ?_ ?_
  · rintro count between ⟨counted, became⟩
    obtain ⟨found, among, length⟩ := Contents.count_eq_ok_iff.mp counted
    obtain rfl := Option.some.inj (present.symm.trans among)
    have few : relation.pages.length < blockNumberBound := length ▸ count.toNat_lt
    have range : blockRange count = (List.range' 0 count.toNat).map UInt32.ofNat := by
      rw [blockRange, List.range_eq_range']
    have searched :=
      locateIn_comesUpon (congrFun became.holds _ ▸ present) searchable few count.toNat 0 (by omega)
        fun _ _ below => absurd below (Nat.not_lt_zero _)
    rw [range]
    refine searched.mono ?_ ?_
    · rintro found left ⟨comesUpon, later⟩
      rw [became.holds] at later
      exact ⟨comesUpon, few, became.trans later⟩
    · rintro fault left ⟨later, unsound⟩
      rw [became.holds] at later
      exact ⟨became.trans later, fun sound => absurd (became.keepsSound sound) unsound⟩
  · rintro fault left ⟨reason, became⟩
    exact ⟨became, fun sound => length_of_uncounted present (reason sound)⟩

/-- Why nothing was found to change: no page has a row of the table, or the store refused a call,
which a sound store does only if the relation has more blocks than there are numbers. -/
def LeftAlone (relation : Relation) (table : RelationId) (state : σ) (fault : Fault) : Prop :=
  fault = .notFound table ∧ ComesUpon relation table none ∨ (Sound state → relation.FullFor 0)

theorem find_comesUpon
    (present : contents state catalog.relation = some relation)
    (searchable : Searchable relation table) :
    (catalog.find table).Yields state
      (either
        (fun located left =>
          ComesUpon relation table (some located) ∧ relation.pages.length < blockNumberBound ∧
            Became state left (contents state) 0)
        fun fault left =>
          Became state left (contents state) 0 ∧ LeftAlone relation table state fault) := by
  refine yields_bind (locate_comesUpon present searchable) ?_ ?_
  · rintro found between ⟨comesUpon, few, became⟩
    cases found with
    | none => exact yields_throw ⟨became, Or.inl ⟨rfl, comesUpon⟩⟩
    | some located => exact yields_pure ⟨comesUpon, few, became⟩
  · rintro fault left ⟨became, reason⟩
    exact ⟨became, Or.inr reason⟩

/-- A page with the row that a search came upon, and the page that replacing this row leads to. -/
structure Rewrites
    (relation : Relation)
    (change : Row → Row)
    (located : Located)
    (page changed : Page) : Prop where
  among : relation.pages[located.block.toNat]? = some page
  replaces : replaceRow page located.slot (change located.row) = .ok changed

/-- An update replaces the row that the search comes upon, if its page takes another row there.
Whatever is known of this page and the one it becomes holds of what the update writes. -/
theorem update_comesUpon
    {change : Row → Row}
    {Known : Located → Page → Page → Prop}
    (present : contents state catalog.relation = some relation)
    (searchable : Searchable relation table)
    (rewritten :
      ∀ located,
        relation.pages.length < blockNumberBound → ComesUpon relation table (some located) →
          ∃ page changed,
            Rewrites relation change located page changed ∧ Known located page changed) :
    (catalog.update table change).Yields state
      (either
        (fun _ left =>
          ∃ located page changed,
            Known located page changed ∧
              Became state left
                ((contents state).put catalog.relation
                  (relation.overwritten located.block.toNat changed)) 0)
        fun fault left =>
          Became state left (contents state) 0 ∧ LeftAlone relation table state fault) := by
  refine yields_bind (find_comesUpon present searchable) ?_ fun fault left refused => refused
  rintro located afterFind ⟨comesUpon, few, found⟩
  obtain ⟨page, changed, rewrites, known⟩ := rewritten located few comesUpon
  have inside := (List.getElem?_eq_some_iff.mp rewrites.among).1
  have reads := Contents.page_of_some present rewrites.among
  refine yields_bind (read_known found.holds reads) ?_ ?_
  · rintro _ afterRead ⟨rfl, read⟩
    have reached := found.trans read
    refine yields_lift_bind_value rewrites.replaces ?_
    refine (write_known read.holds present inside changed).mono ?_ ?_
    · intro _ left written
      exact ⟨located, _, changed, known, reached.trans written⟩
    · rintro fault left ⟨written, unsound⟩
      exact
        ⟨reached.trans written, Or.inr fun sound => absurd (reached.keepsSound sound) unsound⟩
  · rintro fault left ⟨read, unsound⟩
    exact ⟨found.trans read, Or.inr fun sound => absurd (found.keepsSound sound) unsound⟩

end ObliviousStorage.Catalog

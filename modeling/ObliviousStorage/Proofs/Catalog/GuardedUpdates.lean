import ObliviousStorage.Proofs.Catalog.ForeignRows
import ObliviousStorage.Proofs.Catalog.Records
import ObliviousStorage.Proofs.Index.GuardedPages

/-!
Contract: changing a row of a catalog, told with guards.

Owns: that the row which a search finds is an item as long as a row, in the page that is read again
to change it; that copying the changed row into this item therefore never lapses; and that no
operation on a page of any kind lapses, whatever the page holds.

A row is copied into its item without a look at the length of the item. That the lengths agree
follows from what the search has decoded, and from the store: it yields the same page twice.

Does not own: what the search finds, or what a change makes of a row.
-/

namespace ObliviousStorage.Guarded

open Catalog Page StorageM StorageView

variable
  {σ : Type}
  [Storage σ]
  {catalog : Catalog}
  {table : RelationId}

/-- The page with a row copied into the item of a slot. -/
def replaceRow (page : Page) (slot : Nat) (row : Row) : Guarded Page := do
  let region ← itemRegion page slot
  region.copyFrom page row.toBytes

/-- Changes the row of a table in place. -/
def update (catalog : Catalog) (table : RelationId) (change : Row → Row) :
    StorageM σ (Except Lapse Unit) := do
  let located ← catalog.find table
  let page ← Storage.read catalog.relation located.block
  match (replaceRow page located.slot (change located.row)).run with
  | .error cause => return .error cause
  | .ok outcome => do
      let changed ← liftM outcome
      Storage.write catalog.relation located.block changed
      return .ok ()

/-! ## The item that is changed -/

/-- The slot describes an item as long as a row. -/
def HoldsRow (page : Page) (slot : Nat) : Prop :=
  ∃ found, page.slot slot = .ok found ∧ found.length = Row.size

/-- The row that a search found is an item as long as a row. -/
def HoldsLocated (held : Contents) (relation : RelationId) (located : Located) : Prop :=
  ∃ page, held.page relation located.block = .ok page ∧ HoldsRow page located.slot

theorem locateInPage_holdsRow
    {page : Page}
    {block : BlockNumber}
    {slots : List Nat}
    {located : Located}
    (finds : locateInPage page table block slots = .ok (some located)) :
    located.block = block ∧ HoldsRow page located.slot := by
  induction slots with
  | nil => exact absurd finds (by simp [locateInPage])
  | cons slot rest inductionHypothesis =>
      simp only [locateInPage, bind_eq_ok_iff] at finds
      obtain ⟨bytes, item, row, decodes, later⟩ := finds
      split at later
      · have same : ⟨block, slot, row⟩ = located := Option.some.inj (Except.ok.inj later)
        subst same
        obtain ⟨found, among, rfl⟩ := item_eq_ok_iff.mp item
        simp only [Row.ofBytes, bind_eq_ok_iff, require_eq_ok_iff, length_slice] at decodes
        obtain ⟨_, long, -⟩ := decodes
        exact ⟨rfl, found, among, long⟩
      · exact inductionHypothesis later

theorem locateOnPage_holdsRow
    {page : Page}
    {block : BlockNumber}
    {located : Located}
    (finds : locateOnPage page table block = .ok (some located)) :
    located.block = block ∧ HoldsRow page located.slot := by
  unfold locateOnPage at finds
  split at finds
  · exact absurd finds (by simp)
  · obtain ⟨_, -, finds⟩ := bind_eq_ok_iff.mp finds
    exact locateInPage_holdsRow finds

section Searching

variable [LawfulStorage σ]

theorem locateIn_holdsRow
    (catalog : Catalog)
    (table : RelationId)
    (blocks : List BlockNumber)
    (state : σ) :
    (catalog.locateIn table blocks).Yields state fun outcome _ =>
      ∀ located,
        outcome = .ok (some located) →
          HoldsLocated (contents state) catalog.relation located := by
  induction blocks generalizing state with
  | nil => exact yields_pure fun located same => absurd same (by simp)
  | cons block rest inductionHypothesis =>
      refine yields_bind (LawfulStorage.read_law state catalog.relation block) ?_ ?_
      · intro page between holds
        refine yields_lift_bind ?_ ?_
        · intro found finds
          cases found with
          | none =>
              refine (inductionHypothesis between).weaken ?_
              intro outcome left later located same
              rw [← holds.2.holds]
              exact later located same
          | some other =>
              refine yields_pure ?_
              intro located same
              obtain rfl : other = located := by simpa using same
              obtain ⟨inBlock, row⟩ := locateOnPage_holdsRow finds
              exact ⟨page, inBlock ▸ holds.1, row⟩
        · exact fun fault _ located same => absurd same (by simp)
      · exact fun fault left _ located same => absurd same (by simp)

theorem find_holdsRow (catalog : Catalog) (table : RelationId) (state : σ) :
    (catalog.find table).Yields state fun outcome _ =>
      ∀ located,
        outcome = .ok located → HoldsLocated (contents state) catalog.relation located := by
  have locates :
      (catalog.locate table).Yields state fun outcome _ =>
        ∀ located,
          outcome = .ok (some located) →
            HoldsLocated (contents state) catalog.relation located := by
    refine yields_bind (count_keeps catalog.relation state) ?_ ?_
    · intro count between same
      rw [← same]
      exact locateIn_holdsRow catalog table _ between
    · exact fun fault left _ located same => absurd same (by simp)
  refine yields_bind locates ?_ ?_
  · intro found between holds
    cases found with
    | none => exact yields_throw fun located same => absurd same (by simp)
    | some other =>
        refine yields_pure ?_
        intro located same
        obtain rfl : other = located := by simpa using same
        exact holds _ rfl
  · exact fun fault left _ located same => absurd same (by simp)

/-- The page that is read again to change a row holds it in an item as long as a row. -/
theorem holdsRow_of_runs
    {state afterFind afterRead : σ}
    {located : Located}
    {page : Page}
    (finds : (catalog.find table).runOn state = (.ok located, afterFind))
    (reads :
      (Storage.read catalog.relation located.block).runOn afterFind = (.ok page, afterRead)) :
    HoldsRow page located.slot := by
  obtain ⟨again, held, row⟩ := (find_holdsRow catalog table state).runOn finds _ rfl
  have kept := (catalog.find_keeps table state).runOn finds
  have found := (LawfulStorage.read_law afterFind catalog.relation located.block).runOn reads
  have same : again = page := by
    have present := found.1
    rw [kept] at present
    exact Except.ok.inj (held.symm.trans present)
  exact same ▸ row

end Searching

/-! ## Agreement -/

theorem replaceRow_eq
    {page : Page}
    {slot : Nat}
    (holds : HoldsRow page slot)
    (row : Row) :
    replaceRow page slot row = safely (Catalog.replaceRow page slot row) := by
  refine itemRegion_bind ?_
  intro region among
  obtain ⟨found, same, long⟩ := holds
  obtain rfl := Except.ok.inj (same.symm.trans among)
  have copies : row.toBytes.length = region.length := row.length_toBytes.trans long.symm
  have fits : region.slot.start + row.toBytes.length ≤ blockSize := copies ▸ region.inside
  have overwrites :
      page.overwrite region.slot.start row.toBytes = .ok (page.write region.start row.toBytes) :=
    if_pos fits
  rw [Region.copyFrom, provided_of copies, require, if_pos long, overwrites]
  rfl

/-- How a run ended, as the end of one that may lapse besides. -/
def withoutLapse {τ α : Type} (ran : Except Fault α × τ) : Except Fault (Except Lapse α) × τ :=
  (ran.1.map .ok, ran.2)

/-- Runs with the same beginning end alike if they go on alike wherever it succeeds. -/
theorem runOn_bind_withoutLapse
    {τ α β : Type}
    {first : StorageM τ α}
    {next : α → StorageM τ (Except Lapse β)}
    {plain : α → StorageM τ β}
    {state : τ}
    (agrees :
      ∀ value left,
        first.runOn state = (.ok value, left) →
          (next value).runOn left = withoutLapse ((plain value).runOn left)) :
    (first >>= next).runOn state = withoutLapse ((first >>= plain).runOn state) := by
  rw [runOn_bind, runOn_bind]
  rcases ran : first.runOn state with ⟨fault | value, left⟩
  · rfl
  · exact agrees value left ran

/-- Copying a changed row into its item never lapses, whatever the catalog holds. -/
theorem update_eq [LawfulStorage σ] (change : Row → Row) (state : σ) :
    (update catalog table change).runOn state =
      withoutLapse ((catalog.update table change).runOn state) := by
  refine runOn_bind_withoutLapse ?_
  intro located afterFind finds
  refine runOn_bind_withoutLapse ?_
  intro page afterRead reads
  rw [replaceRow_eq (holdsRow_of_runs finds reads)]
  refine runOn_bind_withoutLapse ?_
  intro changed afterReplacing _
  conv_rhs => rw [← bind_pure (Storage.write catalog.relation located.block changed)]
  refine runOn_bind_withoutLapse ?_
  intro _ afterWrite _
  rfl

/-! ## All operations -/

/-- An item that a process can hold: it has as many addresses as there are numbers of eight bytes
with a sign that are not negative, and the page that the item goes to takes some of them. -/
def Addressable (body : List UInt8) : Prop := body.length + blockSize ≤ signBound

/-- The operations on a page come to their outcomes without a lapse, and what they expose of its
items lies in the item area. -/
structure Confined (page : Page) : Prop where
  verify : Guarded.verify page = safely page.verify
  slot : ∀ number, Guarded.slot page number = safely (page.slot number)
  item : ∀ number, Guarded.item page number = safely (page.item number)
  exposes : ∀ number, Region.slot <$> itemRegion page number = safely (page.slot number)
  inside :
    ∀ number region,
      itemRegion page number = pure region →
        page.upper ≤ region.start ∧ region.start + region.length ≤ page.special
  append :
    ∀ body, Addressable body → Guarded.append page body = safely (page.append body)
  trailer : Guarded.trailer page = safely (.ok page.trailer)
  identity : Guarded.identity page = safely page.identity
  setIdentity : ∀ block, Guarded.setIdentity page block = safely (page.setIdentity block)
  isDummy : Guarded.isDummy page = safely (.ok page.isDummy)
  readTrailer : Guarded.readTrailer page = safely (Index.Trailer.read page)
  writeTrailer :
    ∀ trailer : Index.Trailer, Guarded.writeTrailer trailer page = safely (trailer.write page)
  readEntry : ∀ slot, Guarded.readEntry page slot = safely (Index.Entry.read page slot)
  redirect :
    ∀ slot child, Guarded.redirect page slot child = safely (Index.redirect page slot child)
  readMetapage : Guarded.readMetapage page = safely (Index.Metapage.read page)

theorem confined (page : Page) : Confined page where
  verify := verify_eq page
  slot := slot_eq page
  item := item_eq page
  exposes number := by
    have exposes :
        (itemRegion page number >>= fun region => pure region.slot) =
          safely (page.slot number >>= pure) :=
      itemRegion_bind fun region _ => rfl
    rw [map_eq_pure_bind, exposes, bind_pure]
  inside number region exposes := itemRegion_inside exposes
  append body addressable := by
    refine append_eq page ?_
    unfold Addressable blockSize at addressable
    unfold alignment
    omega
  trailer := trailer_eq page
  identity := identity_eq page
  setIdentity := setIdentity_eq page
  isDummy := isDummy_eq page
  readTrailer := readTrailer_eq page
  writeTrailer := writeTrailer_eq page
  readEntry := readEntry_eq page
  redirect := redirect_eq page
  readMetapage := readMetapage_eq page

/-- An update comes to its end without a lapse: where it copies the changed row, both the row and
the item are of the same length. -/
structure CopiesRow
    (catalog : Catalog)
    (table : RelationId)
    (change : Row → Row)
    (state : σ) : Prop where
  agrees :
    (update catalog table change).runOn state =
      withoutLapse ((catalog.update table change).runOn state)
  lengths :
    ∀ located page afterFind afterRead,
      (catalog.find table).runOn state = (.ok located, afterFind) →
        (Storage.read catalog.relation located.block).runOn afterFind = (.ok page, afterRead) →
          ∃ region,
            itemRegion page located.slot = pure region ∧ region.length = Row.size ∧
              (change located.row).toBytes.length = Row.size

/-- Whatever the pages of a store hold, no operation on them accesses a byte outside its region,
comes to a number that its type does not have, or copies between different lengths. -/
theorem nothing_lapses :
    (∀ page, Confined page) ∧
      ∀ {σ : Type} [Storage σ] [LawfulStorage σ] (catalog : Catalog) (table : RelationId)
        (change : Row → Row) (state : σ),
        CopiesRow catalog table change state := by
  refine ⟨confined, ?_⟩
  intro σ _ _ catalog table change state
  refine ⟨update_eq change state, ?_⟩
  intro located page afterFind afterRead finds reads
  obtain ⟨found, among, long⟩ := holdsRow_of_runs finds reads
  obtain ⟨region, exposes, rfl⟩ := itemRegion_of_slot among
  exact ⟨region, exposes, long, Row.length_toBytes _⟩

/-- A page with one row takes another one, and the row is changed in place. -/
theorem nothing_lapses_foreign :
    Addressable foreignRow ∧
      Guarded.append foreignPage foreignRow = safely (foreignPage.append foreignRow) ∧
        Guarded.item foreignPage 1 = safely (.ok foreignRow) ∧
          ∃ left,
            (update foreignCatalog 7 fun row => Note.filled.onRow row).runOn foreignStore =
              (.ok (.ok ()), left) := by
  have addressable : Addressable foreignRow := by
    have length : foreignRow.length = Row.size := rfl
    unfold Addressable
    rw [length, signBound_eq]
    decide
  obtain ⟨confined, copies⟩ := nothing_lapses
  obtain ⟨left, ran⟩ := note_foreign .filled
  rw [Note.action_eq] at ran
  refine ⟨addressable, (confined foreignPage).append foreignRow addressable, ?_, left, ?_⟩
  · rw [(confined foreignPage).item 1, item_foreignPage]
  · rw [(copies foreignCatalog 7 _ foreignStore).agrees, ran]
    rfl

end ObliviousStorage.Guarded

import Mathlib.Data.List.Forall2
import ObliviousStorage.Index.Search
import ObliviousStorage.Index.Walk
import ObliviousStorage.Proofs.Index.Entries

/-!
Contract: what a relocating visit makes of a page that a measuring visit accepts.

Owns: the children that a page links to, as a relation between slots and children;
the effect of a relocating visit on a page whose items do not overlap; and the
comparison of what a page and its image say about a key.

On a leaf the image says the same. On an inner page it sends every key to the same
slot, whose link is the position of the child within its level.

Does not own: which pages a walk visits, or where their images go.
-/

namespace ObliviousStorage.Index

open Page

/-- The child that a slot of a visited page links to. -/
def Pending.childOf (pending : Pending) (slot : Nat) (entry : Entry) : Pending :=
  ⟨some pending.block, slot, entry.block, pending.depth + 1⟩

/-- The children are what the entries in these slots of the page link to, in order. -/
def Pending.Links (pending : Pending) (page : Page) (slots : List Nat) (children : List Pending) :
    Prop :=
  List.Forall₂
    (fun slot child =>
      ∃ entry, Entry.read page slot = .ok entry ∧ child = pending.childOf slot entry)
    slots children

theorem Pending.Links.congr
    {pending : Pending}
    {page changed : Page}
    {slots : List Nat}
    {children : List Pending}
    (links : pending.Links page slots children)
    (same : ∀ slot ∈ slots, Entry.read changed slot = Entry.read page slot) :
    pending.Links changed slots children := by
  refine ((List.forall₂_and_left _ _).mpr ⟨same, links⟩).imp ?_
  intro slot child holds
  rcases holds with ⟨sameEntry, entry, read, linked⟩
  exact ⟨entry, sameEntry.trans read, linked⟩

/-- What replacing the links in some slots by consecutive positions does to a page. -/
structure Relinked (page changed : Page) (slots : List Nat) (position : Nat) : Prop where
  /-- The header and the slot directory stay as they were. -/
  directory : AgreesOn changed page 0 page.upper
  /-- So does the trailer. -/
  trailer : AgreesOn changed page page.special blockSize
  entries :
    ∀ index slot entry,
      slots[index]? = some slot → Entry.read page slot = .ok entry →
        Entry.read changed slot = .ok { entry with block := UInt32.ofNat (position + index) }
  others : ∀ slot, slot ∉ slots → changed.item slot = page.item slot

/-- Words of 32 bits hold the positions of so many children, from `position` on, and the
position behind the last of them. -/
def Counted (position children : Nat) : Prop :=
  children = 0 ∨ position + children < blockNumberBound

theorem counted_succ {position children : Nat} :
    Counted position (children + 1) ↔
      position + 1 < blockNumberBound ∧ Counted (position + 1) children := by
  unfold Counted
  omega

theorem adopt_measure_iff
    {pending : Pending}
    {slots : List Nat}
    {position : Nat}
    {page adopted : Page}
    {children : List Pending} :
    pending.adopt .measure slots position page = .ok (children, adopted) ↔
      adopted = page ∧ pending.Links page slots children ∧ Counted position slots.length := by
  induction slots generalizing position children with
  | nil =>
      simp only [Pending.adopt, Except.ok.injEq, Prod.mk.injEq, Pending.Links,
        List.forall₂_nil_left_iff]
      constructor
      · intro holds
        rcases holds with ⟨rfl, rfl⟩
        exact ⟨rfl, rfl, .inl rfl⟩
      · intro holds
        rcases holds with ⟨rfl, rfl, -⟩
        exact ⟨rfl, rfl⟩
  | cons slot rest inductionHypothesis =>
      simp only [Pending.adopt, WalkMode.relink, bind_eq_ok_iff, pure, Except.pure,
        Except.ok.injEq, Prod.mk.injEq, Prod.exists, Pending.Links, List.forall₂_cons_left_iff,
        wordSum_eq_ok_iff, List.length_cons, counted_succ]
      constructor
      · intro holds
        rcases holds with
          ⟨entry, read, linked, rfl, _, ⟨fits, rfl⟩, others, changed, later, rfl, rfl⟩
        obtain ⟨rfl, links, counted⟩ := inductionHypothesis.mp later
        exact ⟨rfl, ⟨_, others, ⟨entry, read, rfl⟩, links, rfl⟩, fits, counted⟩
      · intro holds
        rcases holds with ⟨rfl, ⟨_, others, ⟨entry, read, rfl⟩, links, rfl⟩, fits, counted⟩
        exact
          ⟨entry, read, _, rfl, _, ⟨fits, rfl⟩, others, adopted,
            inductionHypothesis.mpr ⟨rfl, links, counted⟩, rfl, rfl⟩

/-- Children that were collected were counted. -/
theorem adopt_counted
    {pending : Pending}
    {mode : WalkMode}
    {slots : List Nat}
    {position : Nat}
    {page adopted : Page}
    {children : List Pending}
    (succeeds : pending.adopt mode slots position page = .ok (children, adopted)) :
    Counted position slots.length := by
  induction slots generalizing position page adopted children with
  | nil => exact .inl rfl
  | cons slot rest inductionHypothesis =>
      simp only [Pending.adopt, bind_eq_ok_iff] at succeeds
      obtain ⟨_, -, _, -, _, counts, ⟨others, changed⟩, later, -⟩ := succeeds
      obtain ⟨fits, rfl⟩ := wordSum_eq_ok_iff.mp counts
      exact counted_succ.mpr ⟨fits, inductionHypothesis later⟩

theorem relinked_nil (page : Page) (position : Nat) : Relinked page page [] position where
  directory := agreesOn_refl page _ _
  trailer := agreesOn_refl page _ _
  entries index slot entry among := by simp at among
  others _ _ := rfl

/-- Redirecting one entry and then relinking the others relinks all of them. -/
theorem Relinked.cons
    {page linked adopted : Page}
    {slot : Nat}
    {rest : List Nat}
    {position : Nat}
    {entry : Entry}
    (wellFormed : page.WellFormed)
    (apart : page.ItemsApart)
    (fresh : slot ∉ rest)
    (read : Entry.read page slot = .ok entry)
    (redirected : Redirected page linked slot (UInt32.ofNat position))
    (relinked : Relinked linked adopted rest (position + 1)) :
    Relinked page adopted (slot :: rest) position := by
  have header : AgreesOn linked page 0 headerSize :=
    redirected.directory.mono (Nat.le_refl 0) (Nat.le_trans wellFormed.1 wellFormed.2.1)
  refine ⟨?_, ?_, ?_, ?_⟩
  · have later := relinked.directory
    rw [upper_congr header] at later
    exact later.trans redirected.directory
  · have later := relinked.trailer
    rw [special_congr header] at later
    exact later.trans redirected.trailer
  · intro index other found among original
    cases index with
    | zero =>
        have same : slot = other := by simpa using among
        subst same
        have unchanged := Entry.read_congr (relinked.others slot fresh)
        rw [unchanged, redirected.entry found original, Nat.add_zero]
    | succ index =>
        have later : rest[index]? = some other := by simpa using among
        have different : other ≠ slot := by
          rintro rfl
          exact fresh (List.mem_of_getElem? later)
        have unchanged := Entry.read_congr (redirected.others apart other different)
        rw [relinked.entries index other found later (unchanged.trans original)]
        congr 3
        omega
  · intro other missing
    rw [List.mem_cons, not_or] at missing
    rw [relinked.others other missing.2, redirected.others apart other missing.1]

/-- A page whose items do not overlap can be relinked wherever its entries can be
read, and the children found on the way are those of the page as it was. -/
theorem adopt_relocate
    {pending : Pending}
    {slots : List Nat}
    {page : Page}
    {children : List Pending}
    {position : Nat}
    (links : pending.Links page slots children)
    (counted : Counted position slots.length)
    (distinct : slots.Nodup)
    (apart : page.ItemsApart) :
    ∃ adopted,
      pending.adopt .relocate slots position page = .ok (children, adopted) ∧
        Relinked page adopted slots position := by
  induction slots generalizing position page children with
  | nil =>
      have none : children = [] := by simpa [Pending.Links] using links
      exact ⟨page, by rw [none, Pending.adopt], relinked_nil page _⟩
  | cons slot rest inductionHypothesis =>
      simp only [Pending.Links, List.forall₂_cons_left_iff] at links
      obtain ⟨_, others, ⟨entry, read, rfl⟩, later, rfl⟩ := links
      obtain ⟨fits, restCounted⟩ := counted_succ.mp counted
      obtain ⟨fresh, restDistinct⟩ := List.nodup_cons.mp distinct
      obtain ⟨found, among, -⟩ := Entry.read_eq_ok_iff.mp read
      have wellFormed := (slot_eq_ok_iff.mp among).1
      obtain ⟨linked, succeeds, redirected⟩ :=
        redirect_spec (UInt32.ofNat position) read
      have laterLinked : pending.Links linked rest others := by
        refine Pending.Links.congr later fun other member => ?_
        have different : other ≠ slot := by
          rintro rfl
          exact fresh member
        exact Entry.read_congr (redirected.others apart other different)
      have linkedApart : linked.ItemsApart :=
        apart.congr (slot_of_agreesOn_upper wellFormed redirected.directory)
      obtain ⟨adopted, adopts, relinked⟩ :=
        inductionHypothesis laterLinked restCounted restDistinct linkedApart
      refine ⟨adopted, ?_, relinked.cons wellFormed apart fresh read redirected⟩
      simp only [Pending.adopt, WalkMode.relink, bind_eq_ok_iff]
      exact
        ⟨entry, read, linked, succeeds, _, wordSum_eq_ok_iff.mpr ⟨fits, rfl⟩, (others, adopted),
          adopts, rfl⟩

/-! ## Visits -/

theorem LevelTally.visit_eq_ok_iff
    {tally : LevelTally}
    {mode : WalkMode}
    {rootLevel : Nat}
    {pending : Pending}
    {page : Page}
    {visit : Visit} :
    tally.visit mode rootLevel pending page = .ok visit ↔
      Trailer.read page = .ok visit.trailer ∧
        pending.checkPlace rootLevel visit.trailer = .ok () ∧
          tally.checkSiblings pending.block visit.trailer = .ok () ∧
            visit.live = (visit.trailer.dataSlots page).length ∧
              ∃ linked,
                pending.children mode visit.trailer tally.nextChild page =
                    .ok (visit.children, linked) ∧
                  mode.stamp linked
                      (visit.trailer.placed pending.parent.isNone tally.offset pending.depth) =
                    .ok visit.page := by
  simp only [LevelTally.visit, bind_eq_ok_iff, pure, Except.pure, Except.ok.injEq, Prod.exists]
  constructor
  · intro holds
    rcases holds with ⟨trailer, read, ⟨⟩, place, ⟨⟩, siblings, children, linked, adopts, stamped,
      stamps, rfl⟩
    exact ⟨read, place, siblings, rfl, linked, adopts, stamps⟩
  · intro holds
    rcases holds with ⟨read, place, siblings, live, linked, adopts, stamps⟩
    exact ⟨visit.trailer, read, ⟨⟩, place, ⟨⟩, siblings, visit.children, linked, adopts,
      visit.page, stamps, by rw [← live]⟩

/-- What a relocating visit makes of a page that it reaches with this tally. -/
structure Relocated
    (tally : LevelTally)
    (pending : Pending)
    (trailer : Trailer)
    (page image : Page) : Prop where
  stamp :
    Trailer.read image =
      .ok (trailer.placed pending.parent.isNone tally.offset pending.depth)
  slotCount : image.slotCount = page.slotCount
  leaf : trailer.isLeaf = true → ∀ slot, Entry.read image slot = Entry.read page slot
  inner :
    trailer.isLeaf = false →
      ∀ index slot entry,
        (trailer.dataSlots page)[index]? = some slot → Entry.read page slot = .ok entry →
          Entry.read image slot =
            .ok { entry with block := UInt32.ofNat (tally.nextChild + index) }

/-- Writing a trailer leaves every entry. -/
theorem entry_of_write
    {page changed : Page}
    {trailer replacing : Trailer}
    (read : Trailer.read page = .ok trailer)
    (written : replacing.write page = .ok changed)
    (slot : Nat) :
    Entry.read changed slot = Entry.read page slot := by
  have wellFormed := (Trailer.read_eq_ok_iff.mp read).1
  have agrees := Trailer.agreesOn_of_write read written
  have directory := wellFormed.2.1
  have bodies := wellFormed.2.2.1
  refine Entry.read_congr (item_congr wellFormed (agrees.mono (Nat.le_refl 0) (by omega)) ?_)
  intro found among
  obtain ⟨-, -, -, -, -, below⟩ := slot_eq_ok_iff.mp among
  exact agrees.mono (Nat.zero_le _) below

theorem slotCount_of_write
    {page changed : Page}
    {trailer replacing : Trailer}
    (read : Trailer.read page = .ok trailer)
    (written : replacing.write page = .ok changed) :
    changed.slotCount = page.slotCount := by
  obtain ⟨⟨header, directory, bodies, -⟩, -⟩ := Trailer.read_eq_ok_iff.mp read
  exact slotCount_congr
    ((Trailer.agreesOn_of_write read written).mono (Nat.le_refl 0) (by omega))

/-- Relinked pages keep their trailer. -/
theorem Relinked.trailer_read
    {page linked : Page}
    {slots : List Nat}
    {position : Nat}
    {trailer : Trailer}
    (relinked : Relinked page linked slots position)
    (read : Trailer.read page = .ok trailer) :
    Trailer.read linked = .ok trailer :=
  Trailer.read_of_agreesOn relinked.directory relinked.trailer read

theorem Relinked.slotCount
    {page linked : Page}
    {slots : List Nat}
    {position : Nat}
    (relinked : Relinked page linked slots position)
    (wellFormed : page.WellFormed) :
    linked.slotCount = page.slotCount :=
  slotCount_congr
    (relinked.directory.mono (Nat.le_refl 0) (Nat.le_trans wellFormed.1 wellFormed.2.1))

theorem dataSlots_nodup (trailer : Trailer) (page : Page) : (trailer.dataSlots page).Nodup :=
  List.nodup_range'

/-- A page that a measuring visit accepts is accepted by a relocating one, which finds
the same children and changes the page as `Relocated` says. -/
theorem LevelTally.visit_relocate
    {tally : LevelTally}
    {rootLevel : Nat}
    {pending : Pending}
    {page : Page}
    {visit : Visit}
    (measured : tally.visit .measure rootLevel pending page = .ok visit)
    (apart : visit.trailer.isLeaf = false → page.ItemsApart) :
    ∃ image,
      tally.visit .relocate rootLevel pending page = .ok { visit with page := image } ∧
        Relocated tally pending visit.trailer page image := by
  obtain ⟨read, place, siblings, live, linked, adopts, -⟩ :=
    LevelTally.visit_eq_ok_iff.mp measured
  have wellFormed := (Trailer.read_eq_ok_iff.mp read).1
  cases isLeaf : visit.trailer.isLeaf with
  | true =>
      obtain ⟨noChildren, rfl⟩ : [] = visit.children ∧ page = linked := by
        simpa [Pending.children, isLeaf] using adopts
      obtain ⟨image, written⟩ := Trailer.exists_write_of_read
        (visit.trailer.placed pending.parent.isNone tally.offset pending.depth) read
      refine ⟨image, LevelTally.visit_eq_ok_iff.mpr
        ⟨read, place, siblings, live, page, ?_, written⟩, ?_⟩
      · simp [Pending.children, isLeaf, noChildren]
      · exact
          { stamp := Trailer.read_of_write read written
            slotCount := slotCount_of_write read written
            leaf := fun _ => entry_of_write read written
            inner := fun inner => absurd inner (by simp [isLeaf]) }
  | false =>
      obtain ⟨links, counted⟩ :
          pending.Links page (visit.trailer.dataSlots page) visit.children ∧
            Counted tally.nextChild (visit.trailer.dataSlots page).length := by
        have measures :
            pending.adopt .measure (visit.trailer.dataSlots page) tally.nextChild page =
              .ok (visit.children, linked) := by
          simpa [Pending.children, isLeaf] using adopts
        exact (adopt_measure_iff.mp measures).2
      obtain ⟨relinkedPage, relocates, relinked⟩ :=
        adopt_relocate links counted (dataSlots_nodup _ _) (apart isLeaf)
      have linkedRead := relinked.trailer_read read
      obtain ⟨image, written⟩ := Trailer.exists_write_of_read
        (visit.trailer.placed pending.parent.isNone tally.offset pending.depth) linkedRead
      refine ⟨image, LevelTally.visit_eq_ok_iff.mpr
        ⟨read, place, siblings, live, relinkedPage, ?_, written⟩, ?_⟩
      · simpa [Pending.children, isLeaf] using relocates
      · exact
          { stamp := Trailer.read_of_write linkedRead written
            slotCount :=
              (slotCount_of_write linkedRead written).trans (relinked.slotCount wellFormed)
            leaf := fun leaf => absurd leaf (by simp [isLeaf])
            inner := fun _ index slot entry among original =>
              (entry_of_write linkedRead written slot).trans
                (relinked.entries index slot entry among original) }

/-! ## What a page and its image say about a key -/

theorem findKey_congr
    {page image : Page}
    (same : ∀ slot, Entry.read image slot = Entry.read page slot)
    (key : Int64)
    (slots : List Nat) :
    findKey image key slots = findKey page key slots := by
  induction slots with
  | nil => rfl
  | cons slot rest inductionHypothesis =>
      simp only [findKey, same, inductionHypothesis]

/-- A leaf never sends a key on to a child. -/
theorem findKey_ne_child
    (page : Page)
    (key : Int64)
    (block : BlockNumber)
    (slots : List Nat) :
    findKey page key slots ≠ .ok (.child block) := by
  induction slots with
  | nil => simp [findKey]
  | cons slot rest inductionHypothesis =>
      cases read : Entry.read page slot with
      | error fault => simp [findKey, read, bind, Except.bind]
      | ok entry =>
          by_cases same : entry.key = key
          · simp [findKey, read, same, bind, Except.bind, pure, Except.pure]
          · simpa [findKey, read, same, bind, Except.bind, pure, Except.pure] using
              inductionHypothesis

/-- Two pages whose entries have the same keys, and links that correspond, send a key to
children that correspond. -/
theorem chooseChild_related
    {page image : Page}
    {Related : BlockNumber → BlockNumber → Prop}
    {child position : BlockNumber}
    {slots : List Nat}
    (key : Int64)
    (before : Related child position)
    (entries :
      ∀ slot ∈ slots,
        ∃ entry linked,
          Entry.read page slot = .ok entry ∧
            Entry.read image slot = .ok { entry with block := linked } ∧
              Related entry.block linked) :
    ∃ chosen linked,
      Related chosen linked ∧ chooseChild page key child slots = .ok (.child chosen) ∧
        chooseChild image key position slots = .ok (.child linked) := by
  induction slots generalizing child position with
  | nil => exact ⟨child, position, before, rfl, rfl⟩
  | cons slot rest inductionHypothesis =>
      obtain ⟨entry, linked, read, imageRead, related⟩ := entries slot (by simp)
      by_cases beyond : key < entry.key
      · refine ⟨child, position, before, ?_, ?_⟩
        · simp [chooseChild, read, beyond, bind, Except.bind, pure, Except.pure]
        · simp [chooseChild, imageRead, beyond, bind, Except.bind, pure, Except.pure]
      · obtain ⟨chosen, target, corresponds, onPage, onImage⟩ :=
          inductionHypothesis related fun other member => entries other (by simp [member])
        refine ⟨chosen, target, corresponds, ?_, ?_⟩
        · simpa [chooseChild, read, beyond, bind, Except.bind, pure, Except.pure] using onPage
        · simpa [chooseChild, imageRead, beyond, bind, Except.bind, pure, Except.pure] using onImage

theorem dataSlots_placed
    {trailer : Trailer}
    {page image : Page}
    {isRoot : Bool}
    {offset depth : Nat}
    (slots : image.slotCount = page.slotCount)
    (ends : isRoot = false → trailer.next ≠ noSibling → UInt32.ofNat (offset + 1) ≠ noSibling) :
    (trailer.placed isRoot offset depth).dataSlots image = trailer.dataSlots page := by
  have sameEnd :
      (trailer.placed isRoot offset depth).isRightmost = trailer.isRightmost := by
    simp only [Trailer.isRightmost, Trailer.placed]
    split
    · next inner => rw [decide_eq_false (ends inner.1 inner.2), decide_eq_false inner.2]
    · rfl
  rw [Trailer.dataSlots, Trailer.dataSlots, Trailer.firstDataSlot, Trailer.firstDataSlot, sameEnd,
    slots]

/-- The children of an inner page that a measuring visit accepts. -/
theorem LevelTally.visit_links
    {tally : LevelTally}
    {rootLevel : Nat}
    {pending : Pending}
    {page : Page}
    {visit : Visit}
    (measured : tally.visit .measure rootLevel pending page = .ok visit)
    (inner : visit.trailer.isLeaf = false) :
    pending.Links page (visit.trailer.dataSlots page) visit.children := by
  obtain ⟨-, -, -, -, linked, adopts, -⟩ := LevelTally.visit_eq_ok_iff.mp measured
  have measures :
      pending.adopt .measure (visit.trailer.dataSlots page) tally.nextChild page =
        .ok (visit.children, linked) := by
    simpa [Pending.children, inner] using adopts
  exact (adopt_measure_iff.mp measures).2.1

theorem route_of_leaf
    {page : Page}
    {trailer : Trailer}
    (read : Trailer.read page = .ok trailer)
    (leaf : trailer.isLeaf = true)
    (key : Int64) :
    route page key = findKey page key (trailer.dataSlots page) := by
  simp only [route, read, bind, Except.bind, leaf, ↓reduceIte]

theorem route_of_inner
    {page : Page}
    {trailer : Trailer}
    (read : Trailer.read page = .ok trailer)
    (inner : trailer.isLeaf = false)
    (key : Int64) :
    route page key =
      match trailer.dataSlots page with
      | [] => .ok .absent
      | first :: rest =>
          Entry.read page first >>= fun entry => chooseChild page key entry.block rest := by
  simp only [route, read, bind, Except.bind, inner, Bool.false_eq_true, ↓reduceIte]
  rfl

/-- The entries of an inner page and those of its image, slot by slot. -/
theorem Relocated.corresponding
    {tally : LevelTally}
    {rootLevel : Nat}
    {pending : Pending}
    {page image : Page}
    {visit : Visit}
    (relocated : Relocated tally pending visit.trailer page image)
    (measured : tally.visit .measure rootLevel pending page = .ok visit)
    (inner : visit.trailer.isLeaf = false) :
    ∀ slot ∈ visit.trailer.dataSlots page,
      ∃ entry linked,
        Entry.read page slot = .ok entry ∧
          Entry.read image slot = .ok { entry with block := linked } ∧
            ∃ index child,
              visit.children[index]? = some child ∧ child.block = entry.block ∧
                linked = UInt32.ofNat (tally.nextChild + index) := by
  intro slot member
  have links := LevelTally.visit_links measured inner
  obtain ⟨index, inside, among⟩ := List.mem_iff_getElem.mp member
  have sameLength := links.length_eq
  obtain ⟨entry, original, linkedChild⟩ := links.get inside (sameLength ▸ inside)
  rw [List.get_eq_getElem, among] at original
  have atIndex : (visit.trailer.dataSlots page)[index]? = some slot := by
    rw [List.getElem?_eq_getElem inside, among]
  refine ⟨entry, _, original, relocated.inner inner index slot entry atIndex original,
    index, _, List.getElem?_eq_getElem (sameLength ▸ inside), ?_, rfl⟩
  rw [List.get_eq_getElem] at linkedChild
  rw [linkedChild, Pending.childOf]

/-- A page and its image say the same about a key, except that where the page names a
child the image names the position of that child. -/
theorem route_relocated
    {tally : LevelTally}
    {rootLevel : Nat}
    {pending : Pending}
    {page image : Page}
    {visit : Visit}
    (measured : tally.visit .measure rootLevel pending page = .ok visit)
    (relocated : Relocated tally pending visit.trailer page image)
    (ends :
      pending.parent.isNone = false → visit.trailer.next ≠ noSibling →
        UInt32.ofNat (tally.offset + 1) ≠ noSibling)
    (key : Int64) :
    (route image key = route page key ∧ ∀ block, route page key ≠ .ok (.child block)) ∨
      ∃ index child,
        visit.children[index]? = some child ∧ route page key = .ok (.child child.block) ∧
          route image key = .ok (.child (UInt32.ofNat (tally.nextChild + index))) := by
  obtain ⟨read, -⟩ := LevelTally.visit_eq_ok_iff.mp measured
  have sameSlots :
      (visit.trailer.placed pending.parent.isNone tally.offset pending.depth).dataSlots image =
        visit.trailer.dataSlots page :=
    dataSlots_placed relocated.slotCount ends
  -- Placing a trailer leaves its flags, so both pages are leaves or neither is.
  have sameRole :
      (visit.trailer.placed pending.parent.isNone tally.offset pending.depth).isLeaf =
        visit.trailer.isLeaf := rfl
  cases isLeaf : visit.trailer.isLeaf with
  | true =>
      refine Or.inl ⟨?_, fun block => ?_⟩
      · rw [route_of_leaf read isLeaf, route_of_leaf relocated.stamp (sameRole.trans isLeaf),
          sameSlots, findKey_congr (relocated.leaf isLeaf)]
      · rw [route_of_leaf read isLeaf]
        exact findKey_ne_child page key block _
  | false =>
      have onPage := route_of_inner read isLeaf key
      have onImage := route_of_inner relocated.stamp (sameRole.trans isLeaf) key
      have entries := relocated.corresponding measured isLeaf
      rw [sameSlots] at onImage
      cases slots : visit.trailer.dataSlots page with
      | nil =>
          rw [slots] at onPage onImage
          exact Or.inl ⟨onImage.trans onPage.symm, fun block => by rw [onPage]; simp⟩
      | cons first rest =>
          rw [slots] at onPage onImage entries
          obtain ⟨entry, linked, original, imageEntry, related⟩ := entries first (by simp)
          obtain ⟨chosen, target, ⟨index, child, among, sameBlock, rfl⟩, pageChoice, imageChoice⟩ :=
            @chooseChild_related page image
              (fun block linked =>
                ∃ index child,
                  visit.children[index]? = some child ∧ child.block = block ∧
                    linked = UInt32.ofNat (tally.nextChild + index))
              entry.block linked rest key related
              fun slot member => entries slot (List.mem_cons_of_mem _ member)
          refine Or.inr ⟨index, child, among, ?_, ?_⟩
          · simpa [original, bind, Except.bind, sameBlock, pageChoice] using onPage
          · simpa [imageEntry, bind, Except.bind, imageChoice] using onImage

end ObliviousStorage.Index

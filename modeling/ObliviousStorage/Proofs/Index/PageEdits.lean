import ObliviousStorage.Proofs.Index.Building
import ObliviousStorage.Proofs.Page.Capacity

/-!
Contract: changes of an index page, one after the other and in any order.

Owns: the three kinds of change, each as an action on the image that the one before it left; that
every run of them on an empty page leaves a page built of a trailer and entries; and which ones:
the trailer that was written last, and for every slot the entry that was added there with the
child that it was redirected to last.

Does not own: which changes an index needs.
-/

namespace ObliviousStorage.Index

open LittleEndian Page StorageM

/-! ## Redirecting an entry of a built page -/

theorem slice_add (page : Page) (start first rest : Nat) :
    page.slice start (first + rest) =
      page.slice start first ++ page.slice (start + first) rest := by
  unfold slice
  rw [List.range_add, List.map_append, List.map_map]
  congr 1
  apply List.map_congr_left
  intro index _
  show page.byte (start + (first + index)) = page.byte (start + first + index)
  rw [Nat.add_assoc]

/-- An entry of a page is its key, its child and what stands behind the child. -/
theorem Entry.slice_eq (page : Page) (start : Nat) :
    page.slice start size =
      page.slice start blockPosition ++ page.slice (start + blockPosition) 4 ++
        page.slice (start + blockPosition + 4) 4 := by
  rw [show size = blockPosition + 4 + 4 from rfl, slice_add, slice_add]
  rfl

/-- Replacing the child of an encoded entry yields the encoding of the entry redirected. -/
theorem Entry.slice_redirected
    {page : Page}
    {start : Nat}
    {entry : Entry}
    (child : BlockNumber)
    (inside : start + size ≤ blockSize)
    (body : page.slice start size = entry.toBytes) :
    (page.write (start + blockPosition) (encode 4 child.toNat)).slice start size =
      { entry with block := child }.toBytes := by
  have parts := Entry.slice_eq page start
  rw [body] at parts
  unfold Entry.toBytes at parts
  rw [List.append_assoc] at parts
  obtain ⟨front, last⟩ := List.append_inj parts (by simp)
  obtain ⟨key, -⟩ := List.append_inj front (by simp)
  have before :
      (page.write (start + blockPosition) (encode 4 child.toNat)).slice start blockPosition =
        page.slice start blockPosition :=
    slice_write_of_disjoint page (Or.inl (Nat.le_refl _))
  have here :
      (page.write (start + blockPosition) (encode 4 child.toNat)).slice (start + blockPosition) 4 =
        encode 4 child.toNat := by
    have fits : start + blockPosition + (encode 4 child.toNat).length ≤ blockSize := by
      rw [length_encode]
      simp only [size, blockPosition] at *
      omega
    have written := slice_write page fits
    rwa [length_encode] at written
  have behind :
      (page.write (start + blockPosition) (encode 4 child.toNat)).slice
          (start + blockPosition + 4) 4 =
        page.slice (start + blockPosition + 4) 4 :=
    slice_write_of_disjoint page (Or.inr (by simp))
  rw [Entry.slice_eq, before, here, behind, ← key, ← last]
  unfold Entry.toBytes
  simp only [List.append_assoc]

namespace BuiltOf

variable
  {page : Page}
  {trailer : Trailer}
  {entries : List Entry}

/-- A page that differs in its trailer only is built of the same entries. -/
theorem retrailed
    {changed : Page}
    {replacing : Trailer}
    (built : BuiltOf page trailer entries)
    (written : replacing.write page = .ok changed) :
    BuiltOf changed replacing entries := by
  have wellFormed := (Trailer.read_eq_ok_iff.mp built.read).1
  have agrees := Trailer.agreesOn_of_write built.read written
  have below : page.lower ≤ page.special := Nat.le_trans wellFormed.2.1 wellFormed.2.2.1
  have sameDirectory : AgreesOn changed page 0 page.lower := agrees.mono (Nat.le_refl 0) below
  have sameHeader : AgreesOn changed page 0 headerSize :=
    sameDirectory.mono (Nat.le_refl 0) wellFormed.1
  have slots := fun number => slot_congr wellFormed sameDirectory number
  exact
    { read := Trailer.read_of_write built.read written
      slotCount := (slotCount_congr sameHeader).trans built.slotCount
      upper := by rw [upper_congr sameHeader, built.upper]
      slots := fun index inside => (slots _).trans (built.slots index inside)
      items := by
        intro index entry among
        rw [← built.items index entry among]
        apply item_congr wellFormed sameDirectory
        intro found there
        obtain ⟨-, -, -, -, -, below⟩ := slot_eq_ok_iff.mp there
        exact agrees.mono (Nat.zero_le _) below }

/-- The entry of one slot is redirected, and all others stay. -/
theorem redirected
    {index : Nat}
    (built : BuiltOf page trailer entries)
    (inside : index < entries.length)
    (child : BlockNumber) :
    ∃ changed,
      redirect page (index + 1) child = .ok changed ∧
        BuiltOf changed trailer
          (entries.modify index fun entry => { entry with block := child }) := by
  have wellFormed := (Trailer.read_eq_ok_iff.mp built.read).1
  have among := built.slots index inside
  have body := built.items index entries[index] (List.getElem?_eq_getElem inside)
  obtain ⟨found, there, same⟩ := item_eq_ok_iff.mp body
  obtain rfl := Except.ok.inj (among.symm.trans there)
  obtain ⟨changed, redirects, spec⟩ :=
    redirect_spec child (Entry.read_of_item body)
  have image := Except.ok.inj (redirects.symm.trans (redirect_of_read among rfl))
  have sameSlots := slot_of_agreesOn_upper wellFormed spec.directory
  have header : AgreesOn changed page 0 headerSize :=
    spec.directory.mono (Nat.le_refl 0) (Nat.le_trans wellFormed.1 wellFormed.2.1)
  refine ⟨changed, redirects, ?_⟩
  exact
    { read := Trailer.read_of_agreesOn spec.directory spec.trailer built.read
      slotCount := by rw [slotCount_congr header, built.slotCount, List.length_modify]
      upper := by rw [upper_congr header, List.length_modify, built.upper]
      slots := by
        intro number bound
        rw [List.length_modify] at bound
        rw [sameSlots, built.slots number bound]
      items := by
        intro number entry atNumber
        rw [List.getElem?_modify] at atNumber
        by_cases here : index = number
        · subst here
          rw [List.getElem?_eq_getElem inside] at atNumber
          obtain rfl : { entries[index] with block := child } = entry := by simpa using atNumber
          refine item_eq_ok_iff.mpr ⟨_, (sameSlots _).trans among, ?_⟩
          obtain ⟨-, -, -, -, -, below⟩ := slot_eq_ok_iff.mp among
          rw [image]
          have fits := Nat.le_trans below wellFormed.2.2.2.1
          exact (Entry.slice_redirected child fits same.symm).symm
        · have other : entries[number]? = some entry := by simpa [here] using atNumber
          rw [spec.others built.apart (number + 1) (by omega)]
          exact built.items number entry other }

end BuiltOf

/-! ## Single changes -/

/-- A change of an index page. -/
inductive Edit where
  | add (entry : Entry)
  | retrail (trailer : Trailer)
  | redirect (slot : Nat) (child : BlockNumber)

/-- As many entries fit on an index page. -/
def pageCapacity : Nat := (blockSize - headerSize - Trailer.size) / (slotSize + Entry.size)

theorem pageCapacity_eq : pageCapacity = 407 := rfl

namespace Edit

/-- The change in place; returns the slot of an entry that was added. -/
def action : Edit → StorageM Page (Option Nat)
  | add entry => do
      let slot ← Page.add entry.toBytes
      return some slot
  | retrail trailer => do
      let page ← get
      let changed ← trailer.write page
      set changed
      return none
  | redirect slot child => do
      let page ← get
      let changed ← Index.redirect page slot child
      set changed
      return none

/-- Whether the change can be made to a page with so many slots. -/
def Fits (slots : Nat) : Edit → Prop
  | add _ => slots < pageCapacity
  | retrail _ => True
  | redirect slot _ => 1 ≤ slot ∧ slot ≤ slots

/-- The trailer that the change writes. -/
def trailer? : Edit → Option Trailer
  | retrail trailer => some trailer
  | add _ | redirect _ _ => none

/-- The child that the change gives to the entry of this slot. -/
def childOf (slot : Nat) : Edit → Option BlockNumber
  | redirect other child => if other = slot then some child else none
  | add _ | retrail _ => none

/-- What the change makes of the entries of a page. -/
def onEntries (entries : List Entry) : Edit → List Entry
  | add entry => if entries.length < pageCapacity then entries ++ [entry] else entries
  | retrail _ => entries
  | redirect 0 _ => entries
  | redirect (index + 1) child => entries.modify index fun entry => { entry with block := child }

/-- The slot that adding an entry to this many returns, and that no other change does. -/
def slotAdded (slots : Nat) : Edit → Option Nat
  | add _ => if slots < pageCapacity then some (slots + 1) else none
  | retrail _ | redirect _ _ => none

/-- How a change ends on a page that is built of these entries, and what it leaves. -/
structure Done
    (edit : Edit)
    (trailer : Trailer)
    (entries : List Entry)
    (outcome : Except Fault (Option Nat))
    (left : Page) : Prop where
  built : BuiltOf left (edit.trailer?.getD trailer) (edit.onEntries entries)
  succeeds_iff : (∃ added, outcome = .ok added) ↔ edit.Fits entries.length
  added : outcome.toOption.join = edit.slotAdded entries.length

theorem length_onEntries_le
    {entries : List Entry}
    (few : entries.length ≤ pageCapacity)
    (edit : Edit) :
    (edit.onEntries entries).length ≤ pageCapacity := by
  unfold onEntries
  split
  · split
    · next room =>
        rw [List.length_append, List.length_singleton]
        exact room
    · exact few
  · exact few
  · exact few
  · rwa [List.length_modify]

/-- The slots that a change leaves are those that there were and the one that it returns. -/
theorem range_onEntries (entries : List Entry) (edit : Edit) :
    List.range' 1 entries.length ++ (edit.slotAdded entries.length).toList =
      List.range' 1 (edit.onEntries entries).length := by
  cases edit with
  | add entry =>
      by_cases room : entries.length < pageCapacity
      · simp only [slotAdded, onEntries, room, ↓reduceIte, Option.toList_some, List.length_append,
          List.length_singleton]
        rw [List.range'_concat, Nat.one_mul, Nat.add_comm 1]
      · simp only [slotAdded, onEntries, room, ↓reduceIte, Option.toList_none, List.append_nil]
  | retrail trailer => exact List.append_nil _
  | redirect slot child =>
      show List.range' 1 entries.length ++ [] = _
      rw [List.append_nil]
      cases slot with
      | zero => rfl
      | succ index =>
          show _ = List.range' 1 (entries.modify index _).length
          rw [List.length_modify]

section Single

variable
  {page : Page}
  {trailer : Trailer}
  {entries : List Entry}
  (built : BuiltOf page trailer entries)

include built

theorem add_done (entry : Entry) :
    (add entry).action.Yields page ((add entry).Done trailer entries) := by
  unfold Edit.action
  have wellFormed := (Trailer.read_eq_ok_iff.mp built.read).1
  have ran := runOn_add page entry.toBytes
  by_cases room : entries.length < pageCapacity
  · have enough :
        (entries.length + 1) * (slotSize + Entry.size) ≤
          blockSize - headerSize - Trailer.size := by
      rw [pageCapacity_eq] at room
      simp only [slotSize, Entry.size, blockSize, headerSize, Trailer.size]
      omega
    obtain ⟨appends, grown⟩ := built.append entry enough
    rw [appends] at ran
    refine yields_bind_value (yields_of_runOn ran ⟨rfl, rfl⟩) ?_
    rintro left rfl
    refine yields_pure ?_
    exact
      { built := by simpa [trailer?, onEntries, room] using grown
        succeeds_iff := iff_of_true ⟨_, rfl⟩ room
        added := by simp [slotAdded, room, built.slotCount, Except.toOption] }
  · have full : ¬page.lower + slotSize + aligned entry.toBytes.length ≤ page.upper := by
      have lower := wellFormed.lower_eq
      have upper := built.upper
      have body : aligned entry.toBytes.length = Entry.size := by rw [Entry.length_toBytes]; rfl
      rw [built.slotCount] at lower
      rw [pageCapacity_eq] at room
      rw [body]
      simp only [headerSize, slotSize, Entry.size, Trailer.size, blockSize] at *
      omega
    rw [append_of_full wellFormed full] at ran
    refine yields_bind_stop (yields_of_runOn ran ⟨rfl, ?_⟩)
    exact
      { built := by simpa [trailer?, onEntries, room] using built
        succeeds_iff := iff_of_false (by simp) room
        added := by simp [slotAdded, room, Except.toOption] }

theorem retrail_done (replacing : Trailer) :
    (retrail replacing).action.Yields page ((retrail replacing).Done trailer entries) := by
  unfold Edit.action
  obtain ⟨changed, written⟩ := Trailer.exists_write_of_read replacing built.read
  refine yields_get_bind (yields_lift_bind_value written (yields_set_bind (yields_pure ?_)))
  exact
    { built := built.retrailed written
      succeeds_iff := iff_of_true ⟨_, rfl⟩ trivial
      added := rfl }

theorem redirect_done (slot : Nat) (child : BlockNumber) :
    (redirect slot child).action.Yields page ((redirect slot child).Done trailer entries) := by
  unfold Edit.action
  refine yields_get_bind ?_
  by_cases among : 1 ≤ slot ∧ slot ≤ entries.length
  · obtain ⟨index, rfl⟩ := Nat.exists_eq_add_of_le' among.1
    obtain ⟨changed, redirects, edited⟩ := built.redirected (Nat.lt_of_succ_le among.2) child
    refine yields_lift_bind_value redirects (yields_set_bind (yields_pure ?_))
    exact
      { built := edited
        succeeds_iff := iff_of_true ⟨_, rfl⟩ among
        added := rfl }
  · have verified := (verify_eq_ok_iff page).mpr (Trailer.read_eq_ok_iff.mp built.read).1
    have missing :
        Index.redirect page slot child =
          .error (.corruptPage (.slotOutside slot page.slotCount)) := by
      have none : page.slot slot = .error (.corruptPage (.slotOutside slot page.slotCount)) := by
        simp only [Page.slot, verified, built.slotCount, require, among, ↓reduceIte, bind,
          Except.bind]
      simp only [Index.redirect, none, bind, Except.bind]
    have same : (redirect slot child).onEntries entries = entries := by
      unfold onEntries
      split
      · next asAdded => exact absurd asAdded (by simp)
      · rfl
      · rfl
      · next index _ asIndex =>
          obtain ⟨rfl, rfl⟩ := Edit.redirect.inj asIndex
          exact List.modify_eq_self (by omega)
    refine yields_lift_bind_stop missing ?_
    exact
      { built := by rw [same]; exact built
        succeeds_iff := iff_of_false (by simp) among
        added := rfl }

/-- Every change of a built page leaves a built page. -/
theorem action_done (edit : Edit) : edit.action.Yields page (edit.Done trailer entries) := by
  cases edit with
  | add entry => exact add_done built entry
  | retrail replacing => exact retrail_done built replacing
  | redirect slot child => exact redirect_done built slot child

end Single

end Edit

/-! ## Runs of changes -/

/-- An image after changes, one after the other. -/
def edited : (edits : List Edit) → (page : Page) → Page
  | [], page => page
  | edit :: rest, page => edited rest (edit.action.runOn page).2

/-- The slots that the additions among the changes returned. -/
def slotsAdded : (edits : List Edit) → (page : Page) → List Nat
  | [], _ => []
  | edit :: rest, page =>
      let (outcome, left) := edit.action.runOn page
      outcome.toOption.join.toList ++ slotsAdded rest left

/-- The trailer that was written last. -/
def lastTrailer (trailer : Trailer) (edits : List Edit) : Trailer :=
  (edits.filterMap Edit.trailer?).getLastD trailer

/-- The child that the entry of this slot was redirected to last. -/
def lastChild (slot : Nat) (child : BlockNumber) (edits : List Edit) : BlockNumber :=
  (edits.filterMap (Edit.childOf slot)).getLastD child

def heldAfter (entries : List Entry) (edits : List Edit) : List Entry :=
  edits.foldl Edit.onEntries entries

theorem lastTrailer_cons (trailer : Trailer) (edit : Edit) (rest : List Edit) :
    lastTrailer trailer (edit :: rest) = lastTrailer (edit.trailer?.getD trailer) rest := by
  unfold lastTrailer
  cases written : edit.trailer? with
  | none => rw [List.filterMap_cons_none written, Option.getD_none]
  | some replacing =>
      rw [List.filterMap_cons_some written, Option.getD_some, List.getLastD_cons]

theorem lastChild_cons (slot : Nat) (child : BlockNumber) (edit : Edit) (rest : List Edit) :
    lastChild slot child (edit :: rest) = lastChild slot ((edit.childOf slot).getD child) rest := by
  unfold lastChild
  cases given : edit.childOf slot with
  | none => rw [List.filterMap_cons_none given, Option.getD_none]
  | some other => rw [List.filterMap_cons_some given, Option.getD_some, List.getLastD_cons]

theorem slotsAdded_cons (edit : Edit) (rest : List Edit) (page : Page) :
    slotsAdded (edit :: rest) page =
      (edit.action.runOn page).1.toOption.join.toList ++
        slotsAdded rest (edit.action.runOn page).2 :=
  rfl

theorem edited_append (earlier later : List Edit) (page : Page) :
    edited (earlier ++ later) page = edited later (edited earlier page) := by
  induction earlier generalizing page with
  | nil => rfl
  | cons edit rest inductionHypothesis => exact inductionHypothesis _

/-- What a change makes of the entry in a slot. -/
theorem Edit.getElem?_onEntries
    {entries : List Entry}
    {index : Nat}
    {entry : Entry}
    (among : entries[index]? = some entry)
    (edit : Edit) :
    (edit.onEntries entries)[index]? =
      some { entry with block := (edit.childOf (index + 1)).getD entry.block } := by
  have inside := (List.getElem?_eq_some_iff.mp among).1
  cases edit with
  | add added =>
      show (if entries.length < pageCapacity then entries ++ [added] else entries)[index]? = _
      split
      · rw [List.getElem?_append_left inside, among]
        rfl
      · exact among
  | retrail trailer => exact among
  | redirect slot child =>
      cases slot with
      | zero => exact among
      | succ other =>
          show (entries.modify other fun entry => { entry with block := child })[index]? = _
          rw [List.getElem?_modify, among]
          by_cases same : other = index
          · simp [childOf, same]
          · simp [childOf, same]

theorem getElem?_heldAfter
    {entries : List Entry}
    {index : Nat}
    {entry : Entry}
    (among : entries[index]? = some entry)
    (edits : List Edit) :
    (heldAfter entries edits)[index]? =
      some { entry with block := lastChild (index + 1) entry.block edits } := by
  induction edits generalizing entries entry with
  | nil => exact among
  | cons edit rest inductionHypothesis =>
      have step := edit.getElem?_onEntries among
      have later := inductionHypothesis step
      rwa [lastChild_cons]

section Runs

variable
  {page : Page}
  {trailer : Trailer}
  {entries : List Entry}

/-- A built page is, after any changes, built of the trailer that was written last and of its
entries as the changes leave them. -/
theorem BuiltOf.edited
    (built : BuiltOf page trailer entries)
    (edits : List Edit) :
    BuiltOf (edited edits page) (lastTrailer trailer edits) (heldAfter entries edits) := by
  induction edits generalizing page trailer entries with
  | nil => exact built
  | cons edit rest inductionHypothesis =>
      rw [lastTrailer_cons]
      exact inductionHypothesis (edit.action_done built).built

theorem length_heldAfter_le
    (few : entries.length ≤ pageCapacity)
    (edits : List Edit) :
    (heldAfter entries edits).length ≤ pageCapacity := by
  induction edits generalizing entries with
  | nil => exact few
  | cons edit rest inductionHypothesis => exact inductionHypothesis (edit.length_onEntries_le few)

/-- The slots of a page are those that it had and those that were added, in order. -/
theorem BuiltOf.slotsAdded
    (built : BuiltOf page trailer entries)
    (edits : List Edit) :
    List.range' 1 entries.length ++ slotsAdded edits page =
      List.range' 1 (heldAfter entries edits).length := by
  induction edits generalizing page trailer entries with
  | nil => exact List.append_nil _
  | cons edit rest inductionHypothesis =>
      have done := edit.action_done built
      rw [slotsAdded_cons, done.added, ← List.append_assoc, edit.range_onEntries]
      exact inductionHypothesis done.built

/-- As long as there is room, an entry goes to the slot behind those that are there. -/
theorem BuiltOf.adds
    (built : BuiltOf page trailer entries)
    (room : entries.length < pageCapacity)
    (entry : Entry) :
    ((Edit.add entry).action.runOn page).1 = .ok (some (entries.length + 1)) := by
  have done := (Edit.add entry).action_done built
  obtain ⟨added, succeeds⟩ := done.succeeds_iff.mpr room
  have returned := done.added
  rw [succeeds] at returned ⊢
  unfold Edit.slotAdded at returned
  rw [if_pos room] at returned
  exact congrArg Except.ok returned

/-- An entry that was added stands in the slot that was returned. -/
theorem BuiltOf.added
    {entry : Entry}
    {slot : Nat}
    (built : BuiltOf page trailer entries)
    (succeeds : ((Edit.add entry).action.runOn page).1 = .ok (some slot)) :
    slot = entries.length + 1 ∧
      ((Edit.add entry).onEntries entries)[entries.length]? = some entry := by
  have done := (Edit.add entry).action_done built
  have room : entries.length < pageCapacity := done.succeeds_iff.mp ⟨_, succeeds⟩
  constructor
  · exact Option.some.inj (Except.ok.inj (succeeds.symm.trans (built.adds room entry)))
  · show (if entries.length < pageCapacity then entries ++ [entry] else entries)[_]? = _
    rw [if_pos room]
    exact List.getElem?_concat_length

end Runs

/-- The empty page of a trailer, as it is made from an empty page and the trailer written to it. -/
theorem Trailer.empty_write (trailer : Trailer) :
    (Page.empty size >>= trailer.write) = .ok trailer.emptyPage := by
  obtain ⟨-, -, special⟩ := pointers_formatted (Nat.sub_le blockSize size)
  have start : (formatted (blockSize - size)).trailerStart = blockSize - size := by
    unfold trailerStart
    rw [special]
    rfl
  have width : (formatted (blockSize - size)).trailerSize = size := by
    unfold trailerSize
    rw [start]
    rfl
  have blank : Page.empty size = .ok (formatted (blockSize - size)) := by
    unfold Page.empty
    exact if_neg (by decide)
  refine bind_eq_ok_iff.mpr ⟨_, blank, ?_⟩
  unfold Trailer.write Trailer.emptyPage setTrailer
  rw [width, start, List.take_of_length_le (Nat.le_of_eq trailer.length_toBytes)]
  exact bind_eq_ok_iff.mpr ⟨⟨⟩, require_eq_ok_iff.mpr rfl, rfl⟩

/-- Changes of an index page do not disturb each other. Made in any order to an empty page, they
leave the trailer that was written last, as many slots as entries were added, and in the slot of
every added entry that entry with the child that the slot was redirected to last. -/
theorem edits_keepApart (trailer : Trailer) (edits : List Edit) :
    (Page.empty Trailer.size >>= trailer.write) = .ok trailer.emptyPage ∧
      Trailer.read (edited edits trailer.emptyPage) = .ok (lastTrailer trailer edits) ∧
      slotsAdded edits trailer.emptyPage =
        List.range' 1 (edited edits trailer.emptyPage).slotCount ∧
      (edited edits trailer.emptyPage).slotCount ≤ pageCapacity ∧
      (∀ earlier entry later slot,
        edits = earlier ++ .add entry :: later →
          ((Edit.add entry).action.runOn (edited earlier trailer.emptyPage)).1 = .ok (some slot) →
            Entry.read (edited edits trailer.emptyPage) slot =
              .ok { entry with block := lastChild slot entry.block later }) ∧
      (∀ edit : Edit,
        (∃ added, (edit.action.runOn (edited edits trailer.emptyPage)).1 = .ok added) ↔
          edit.Fits (edited edits trailer.emptyPage).slotCount) ∧
      ∀ metapage : Metapage, (metapage.toPage >>= Metapage.read) = .ok metapage := by
  have built := (builtOf_emptyPage trailer).edited edits
  have slots := built.slotCount
  refine ⟨trailer.empty_write, built.read, ?_, ?_, ?_, ?_, ?_⟩
  · rw [slots]
    exact (builtOf_emptyPage trailer).slotsAdded edits
  · rw [slots]
    exact length_heldAfter_le (Nat.zero_le _) edits
  · rintro earlier entry later slot rfl added
    have before := (builtOf_emptyPage trailer).edited earlier
    obtain ⟨rfl, among⟩ := before.added added
    have after := ((Edit.add entry).action_done before).built
    rw [edited_append]
    exact (after.edited later).entry (getElem?_heldAfter among later)
  · intro edit
    rw [slots]
    exact (edit.action_done built).succeeds_iff
  · intro metapage
    exact bind_eq_ok_iff.mpr ⟨_, metapage.toPage_eq, metapage.read_page⟩

/-- The first change finds no slot and is refused; of the redirections behind the addition the last
one counts, whatever was written to the trailer in between. -/
theorem edits_keepApart_oneEntry :
    let later : List Edit :=
      [.redirect 1 8, .retrail (.unplaced 2 noSibling 0 Trailer.leafFlag), .redirect 1 9]
    let edits : List Edit := .redirect 1 3 :: .add ⟨5, 1, 0⟩ :: later
    ((Edit.add ⟨5, 1, 0⟩).action.runOn (edited [.redirect 1 3] rootLeafTrailer.emptyPage)).1 =
        .ok (some 1) ∧
      Trailer.read (edited edits rootLeafTrailer.emptyPage) =
        .ok (.unplaced 2 noSibling 0 Trailer.leafFlag) ∧
      Entry.read (edited edits rootLeafTrailer.emptyPage) 1 = .ok ⟨5, 9, 0⟩ := by
  intro later edits
  have before := (builtOf_emptyPage rootLeafTrailer).edited [.redirect 1 3]
  have added := before.adds (by decide) ⟨5, 1, 0⟩
  obtain ⟨-, trailer, -, -, entries, -⟩ := edits_keepApart rootLeafTrailer edits
  exact ⟨added, trailer, entries [.redirect 1 3] _ later 1 rfl added⟩

end ObliviousStorage.Index

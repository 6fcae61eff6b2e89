import ObliviousStorage.Proofs.Gateway.Arrays

/-!
Contract: the images of a request to establish a file, and which of them it refuses.

Owns: `Gateway.Admits`, that a request passes its checks up to that of the images; how such a
request goes on; that a request is refused for its range, or for the first image, if any, that is
formatted but not well formed, before the store is asked for anything; and that an image which
only looks as if it was never formatted is written like any other.

Does not own: requests that fail one of the earlier checks.
-/

namespace ObliviousStorage.Gateway

open StorageM StorageView

/-- The image is all zeros or a well-formed page. -/
def Admissible (image : Page) : Prop := image = Page.zero ∨ image.WellFormed

theorem Admissible.acceptable {image : Page} (admissible : Admissible image) : Acceptable image := by
  rcases admissible with rfl | wellFormed
  · exact Or.inl Page.zero_unformatted
  · exact Or.inr wellFormed

section Images

variable {images : List Page} {index : Nat} {image : Page}

/-- The first image that is not acceptable is the one that is reported. -/
theorem requireWellFormed_first
    (there : images[index]? = some image)
    (refused : ¬Acceptable image)
    (earlier : ∀ other ∈ images.take index, Acceptable other)
    (block : Nat) :
    requireWellFormed block images = .error (.corruptInput (UInt32.ofNat (block + index))) := by
  induction images generalizing index block with
  | nil => simp at there
  | cons first rest inductionHypothesis =>
      cases index with
      | zero =>
          obtain rfl : first = image := by simpa using there
          have unfit : ¬(first.isUnformatted = true ∨ first.WellFormed) := refused
          rw [requireWellFormed, require, if_neg unfit]
          rfl
      | succ index =>
          rw [List.take_succ_cons, List.forall_mem_cons] at earlier
          have fit : first.isUnformatted = true ∨ first.WellFormed := earlier.1
          have later :=
            inductionHypothesis (by simpa using there) earlier.2 (block + 1)
          rw [Nat.add_right_comm, Nat.add_assoc] at later
          rw [requireWellFormed, require, if_pos fit]
          exact later

end Images

section Screening

variable {σ : Type} [Storage σ]

/-- A request to establish a file passes its checks of the block size, the buffer and the name,
which is that of this role. -/
structure Nominates
    (gateway : Gateway)
    (store : σ)
    (name : String)
    (buffer : Buffer)
    (count : BlockNumber)
    (requestedBlockSize : Nat)
    (role : FileRole) : Prop where
  requested : requestedBlockSize = blockSize
  pageSized : Storage.blockBytes store = blockSize
  complete : buffer.size = count.toNat * blockSize
  named : gateway.session.roleOf name = some role

/-- A request to establish the file of this role passes its checks up to that of the range. -/
structure Admits
    (gateway : Gateway)
    (store : σ)
    (name : String)
    (buffer : Buffer)
    (count : BlockNumber)
    (requestedBlockSize : Nat)
    (start : BlockNumber)
    (role : FileRole) : Prop extends
    Nominates gateway store name buffer count requestedBlockSize role where
  ranged : start.toNat + count.toNat < blockNumberBound

/-- Writes images to a relation from block `start` on. -/
def fill (relation : RelationId) (start : BlockNumber) (images : List Page) : StorageM σ Unit := do
  let existing ← Storage.blockCount relation
  placeImages relation existing start.toNat images

theorem requirePageSized_of_pageSized
    {store : σ}
    (pageSized : Storage.blockBytes store = blockSize) :
    (requirePageSized : StorageM σ Unit).Yields store fun outcome left =>
      outcome = .ok () ∧ left = store :=
  yields_get_bind (yields_lift ⟨require_eq_ok_iff.mpr pageSized, rfl⟩)

theorem yields_bind_of_pageSized
    {τ α : Type}
    {next : Unit → StorageM (τ × σ) α}
    {beside : τ}
    {store : σ}
    {after : Except Fault α → τ × σ → Prop}
    (pageSized : Storage.blockBytes store = blockSize)
    (continues : (next ()).Yields (beside, store) after) :
    ((requirePageSized : StorageM σ Unit).onSecond >>= next).Yields (beside, store) after := by
  refine yields_onSecond_bind (requirePageSized_of_pageSized pageSized) ?_
    fun _ _ refused => absurd refused.1 (by simp)
  rintro _ _ ⟨-, rfl⟩
  exact continues

variable
  {gateway : Gateway}
  {store : σ}
  {name : String}
  {buffer : Buffer}
  {count : BlockNumber}
  {requestedBlockSize : Nat}
  {start : BlockNumber}
  {role : FileRole}

theorem Nominates.length_images
    (nominates : gateway.Nominates store name buffer count requestedBlockSize role) :
    (Page.allOf buffer).length = count.toNat := by
  rw [Page.length_allOf, nominates.complete, Nat.mul_div_cancel _ (by decide)]

/-- A request that names a file has opened it. It is refused for its range or its images, or goes
on to write them. -/
theorem establish_yields_of_nominates
    (nominates : gateway.Nominates store name buffer count requestedBlockSize role)
    {after : Except Fault Unit → Gateway × σ → Prop}
    (outOfRange :
      blockNumberBound ≤ start.toNat + count.toNat →
        after (.error (.invalidConfiguration (.rangeOverflow count.toNat start.toNat)))
          (gateway.setOpen role true, store))
    (malformed :
      start.toNat + count.toNat < blockNumberBound →
        ∀ fault, requireWellFormed start.toNat (Page.allOf buffer) = .error fault →
          after (.error fault) (gateway.setOpen role true, store))
    (wellFormed :
      start.toNat + count.toNat < blockNumberBound →
        requireWellFormed start.toNat (Page.allOf buffer) = .ok () →
          (fill (gateway.session.relation role) start (Page.allOf buffer) : StorageM σ Unit).Yields
            store fun outcome left => after outcome (gateway.setOpen role true, left)) :
    (establish name buffer count requestedBlockSize start : StorageM (Gateway × σ) Unit).Yields
      (gateway, store) after := by
  have requested :
      require (requestedBlockSize = blockSize) (.sizeMismatch blockSize requestedBlockSize) =
        .ok () :=
    require_eq_ok_iff.mpr nominates.requested
  have complete : requireLength count.toNat buffer.size = .ok () :=
    require_eq_ok_iff.mpr nominates.complete
  apply yields_lift_bind_value requested
  apply yields_bind_of_pageSized nominates.pageSized
  apply yields_lift_bind_value complete
  apply yields_bind_of_pageSized nominates.pageSized
  refine yields_bind_value (reopen_yields nominates.named) ?_
  rintro _ rfl
  -- From here on the file is open, whatever comes of the request.
  rw [nominates.length_images]
  refine yields_lift_bind ?_ fun fault refused => ?_
  · intro _ inRange
    have ranged : start.toNat + count.toNat < blockNumberBound := require_eq_ok_iff.mp inRange
    refine yields_lift_bind ?_ (malformed ranged)
    exact fun _ screened => yields_onSecond_onSecond (wellFormed ranged screened)
  · obtain ⟨beyond, rfl⟩ := require_eq_error_iff.mp refused
    exact outOfRange (Nat.le_of_not_lt beyond)

/-- A range that reaches past the last block number is refused after the file was opened. -/
theorem establish_refuses_range
    (nominates : gateway.Nominates store name buffer count requestedBlockSize role)
    (beyond : blockNumberBound ≤ start.toNat + count.toNat) :
    (establish name buffer count requestedBlockSize start : StorageM (Gateway × σ) Unit).runOn
        (gateway, store) =
      (.error (.invalidConfiguration (.rangeOverflow count.toNat start.toNat)),
        (gateway.setOpen role true, store)) := by
  have stops :
      (establish name buffer count requestedBlockSize start : StorageM (Gateway × σ) Unit).Yields
        (gateway, store) fun outcome left =>
          outcome = .error (.invalidConfiguration (.rangeOverflow count.toNat start.toNat)) ∧
            left = (gateway.setOpen role true, store) := by
    apply establish_yields_of_nominates nominates
    · exact fun _ => ⟨rfl, rfl⟩
    · exact fun ranged => absurd ranged (Nat.not_lt_of_le beyond)
    · exact fun ranged => absurd ranged (Nat.not_lt_of_le beyond)
  exact Prod.ext stops.1 stops.2

/-- A request that passes its checks up to that of the range is refused for its images, or goes on
to write them. -/
theorem establish_yields_of_admits
    (admits : gateway.Admits store name buffer count requestedBlockSize start role)
    {after : Except Fault Unit → Gateway × σ → Prop}
    (malformed :
      ∀ fault, requireWellFormed start.toNat (Page.allOf buffer) = .error fault →
        after (.error fault) (gateway.setOpen role true, store))
    (wellFormed :
      requireWellFormed start.toNat (Page.allOf buffer) = .ok () →
        (fill (gateway.session.relation role) start (Page.allOf buffer) : StorageM σ Unit).Yields
          store fun outcome left => after outcome (gateway.setOpen role true, left)) :
    (establish name buffer count requestedBlockSize start : StorageM (Gateway × σ) Unit).Yields
      (gateway, store) after := by
  apply establish_yields_of_nominates admits.toNominates
  · exact fun beyond => absurd admits.ranged (Nat.not_lt_of_le beyond)
  · exact fun _ => malformed
  · exact fun _ => wellFormed

/-- The request is refused for the first image that is neither unformatted nor well formed. The
store is not asked for anything before. -/
theorem establish_refuses_image
    {index : Nat}
    {image : Page}
    (admits : gateway.Admits store name buffer count requestedBlockSize start role)
    (there : (Page.allOf buffer)[index]? = some image)
    (refused : ¬Acceptable image)
    (earlier : ∀ other ∈ (Page.allOf buffer).take index, Acceptable other) :
    (establish name buffer count requestedBlockSize start : StorageM (Gateway × σ) Unit).runOn
        (gateway, store) =
      (.error (.corruptInput (UInt32.ofNat (start.toNat + index))),
        (gateway.setOpen role true, store)) := by
  have refuses := requireWellFormed_first there refused earlier start.toNat
  have stops :
      (establish name buffer count requestedBlockSize start : StorageM (Gateway × σ) Unit).Yields
        (gateway, store) fun outcome left =>
          outcome = .error (.corruptInput (UInt32.ofNat (start.toNat + index))) ∧
            left = (gateway.setOpen role true, store) := by
    apply establish_yields_of_admits admits
    · intro fault malformed
      exact ⟨malformed.symm.trans refuses, rfl⟩
    · intro wellFormed
      exact absurd (wellFormed.symm.trans refuses) (by simp)
  exact Prod.ext stops.1 stops.2

end Screening

section Filling

variable
  {σ : Type}
  [Storage σ]
  [LawfulStorage σ]
  {gateway : Gateway}
  {store : σ}
  {name : String}
  {buffer : Buffer}
  {count : BlockNumber}
  {requestedBlockSize : Nat}
  {start : BlockNumber}
  {role : FileRole}
  {file : Relation}

/-- A sound store gets all images of a request that is accepted. -/
theorem establish_places
    (admits : gateway.Admits store name buffer count requestedBlockSize start role)
    (sound : Sound store)
    (present : contents store (gateway.session.relation role) = some file)
    (few : file.pages.length < blockNumberBound)
    (acceptable : ∀ image ∈ Page.allOf buffer, Acceptable image) :
    (establish name buffer count requestedBlockSize start : StorageM (Gateway × σ) Unit).Yields
      (gateway, store) fun outcome left =>
        outcome = .ok () ∧
          contents left.2 =
            (contents store).put (gateway.session.relation role)
              ((Journal.start file).place start.toNat (Page.allOf buffer)).relation := by
  have accepted := requireWellFormed_eq_ok acceptable start.toNat
  apply establish_yields_of_admits admits
  · intro fault malformed
    exact absurd (accepted.symm.trans malformed) (by simp)
  · intro _
    have ranged : start.toNat + (Page.allOf buffer).length < blockNumberBound := by
      rw [admits.length_images]
      exact admits.ranged
    have counted := count_answers sound (gateway.session.relation role)
    have number := UInt32.toNat_ofNat_of_lt' few
    rw [Contents.count_eq_ok_iff.mpr ⟨file, present, number.symm⟩] at counted
    refine yields_bind_value counted ?_
    rintro between ⟨soundBetween, same⟩
    have journalled :
        contents between (gateway.session.relation role) =
          some (Journal.start file).relation := by
      rw [same, present, Journal.relation_start]
    have filled :
        (Journal.start file).length ≤
          max (UInt32.ofNat file.pages.length).toNat start.toNat := by
      rw [number]
      exact Nat.le_max_left ..
    apply (placeImages_places soundBetween journalled (Nat.le_of_eq number) filled ranged).weaken
    rintro outcome left ⟨done, -, holds⟩
    exact ⟨done, by rw [holds, same]⟩

/-- What the blocks of a file hold after images were placed. -/
theorem page_of_placed
    {held : Contents}
    {relation : RelationId}
    {images : List Page}
    {index : Nat}
    {image : Page}
    {block : BlockNumber}
    (holds : held relation = some ((Journal.start file).place start.toNat images).relation)
    (there : images[index]? = some image)
    (number : block.toNat = start.toNat + index) :
    held.page relation block = .ok image := by
  obtain ⟨inside, -⟩ := List.getElem?_eq_some_iff.mp there
  have nonempty : images ≠ [] := List.ne_nil_of_length_pos (by omega)
  have has :
      start.toNat + index < ((Journal.start file).place start.toNat images).length := by
    rw [Journal.length_place_of_ne_nil _ nonempty]
    omega
  apply Contents.page_of_some holds
  rw [number, Journal.getElem?_relation _ has, Journal.block_place, if_pos (by omega),
    Nat.add_sub_cancel_left, List.getD_eq_getElem?_getD, there, Option.getD_some]

/-- Of a request that passes its other checks, consider the first image that is neither all zeros
nor a well-formed page. If it is formatted, the request is refused with the number of its block
and the store is left alone. If it only looks unformatted, it passes for a blank page: a sound
store gets it along with the others, if the rest of the images do not stop the request. -/
theorem establish_screens
    {index : Nat}
    {image : Page}
    (admits : gateway.Admits store name buffer count requestedBlockSize start role)
    (there : (Page.allOf buffer)[index]? = some image)
    (malformed : ¬Admissible image)
    (earlier : ∀ other ∈ (Page.allOf buffer).take index, Admissible other) :
    (image.isUnformatted = false →
      ∃ block : BlockNumber,
        block.toNat = start.toNat + index ∧
          (establish name buffer count requestedBlockSize start :
              StorageM (Gateway × σ) Unit).runOn (gateway, store) =
            (.error (.corruptInput block), (gateway.setOpen role true, store))) ∧
      (image.isUnformatted = true →
        (∀ later ∈ (Page.allOf buffer).drop (index + 1), Admissible later) →
          Sound store → ∀ file : Relation,
            contents store (gateway.session.relation role) = some file →
              file.pages.length < blockNumberBound →
                (establish name buffer count requestedBlockSize start :
                    StorageM (Gateway × σ) Unit).Yields (gateway, store) fun outcome left =>
                  outcome = .ok () ∧
                    ∃ block : BlockNumber,
                      block.toNat = start.toNat + index ∧
                        (contents left.2).page (gateway.session.relation role) block =
                          .ok image) := by
  obtain ⟨inside, _⟩ := List.getElem?_eq_some_iff.mp there
  have number : (UInt32.ofNat (start.toNat + index)).toNat = start.toNat + index := by
    have ranged := admits.ranged
    rw [← admits.length_images] at ranged
    exact UInt32.toNat_ofNat_of_lt' (show start.toNat + index < blockNumberBound by omega)
  constructor
  · intro formatted
    have refused : ¬Acceptable image := by
      rintro (unformatted | wellFormed)
      · exact absurd (unformatted.symm.trans formatted) (by decide)
      · exact malformed (Or.inr wellFormed)
    exact
      ⟨_, number,
        establish_refuses_image admits there refused
          fun other member => (earlier other member).acceptable⟩
  · intro unformatted later sound file present few
    have acceptable : ∀ other ∈ Page.allOf buffer, Acceptable other := by
      intro other member
      rw [← List.take_append_drop index (Page.allOf buffer), List.drop_eq_getElem_cons inside,
        List.mem_append, List.mem_cons] at member
      rcases member with before | rfl | behind
      · exact (earlier other before).acceptable
      · have same := there
        rw [List.getElem?_eq_getElem inside] at same
        rw [Option.some.inj same]
        exact Or.inl unformatted
      · exact (later other behind).acceptable
    apply (establish_places admits sound present few acceptable).weaken
    rintro outcome left ⟨done, holds⟩
    have placed := congrFun holds (gateway.session.relation role)
    rw [Contents.put_same] at placed
    exact ⟨done, _, number, page_of_placed placed there number⟩

end Filling

/-! ## Images that are not well formed -/

/-- A page whose free space ends before it begins. -/
def crossedPage : Page := (Page.zero.setWord 2 0 8000).setWord 2 2 100

/-- A page of zeros but for the header word set aside for a block number. -/
def strayPage : Page := Page.zero.setTag 7

theorem crossedPage_formatted : crossedPage.isUnformatted = false := by
  have upper : crossedPage.upper = 100 := by
    rw [crossedPage, Page.upper, Page.word_setWord _ _ (by decide)]
    rfl
  rw [Page.isUnformatted, upper]
  rfl

theorem not_acceptable_crossedPage : ¬Acceptable crossedPage := by
  rintro (unformatted | ⟨-, ordered, -⟩)
  · exact absurd (unformatted.symm.trans crossedPage_formatted) (by decide)
  · have lower : crossedPage.lower = 8000 := by
      rw [crossedPage, Page.lower, Page.word_setWord_of_disjoint _ _ (by decide),
        Page.word_setWord _ _ (by decide)]
      rfl
    have upper : crossedPage.upper = 100 := by
      rw [crossedPage, Page.upper, Page.word_setWord _ _ (by decide)]
      rfl
    rw [lower, upper] at ordered
    exact absurd ordered (by decide)

theorem not_admissible_crossedPage : ¬Admissible crossedPage :=
  fun admissible => not_acceptable_crossedPage admissible.acceptable

/-- A dummy page and one that is not well formed. -/
def crossedBuffer : Buffer := Page.dummy.toBuffer ++ crossedPage.toBuffer

theorem allOf_crossedBuffer : Page.allOf crossedBuffer = [Page.dummy, crossedPage] := by
  rw [crossedBuffer, Page.allOf_append, Page.allOf_toBuffer]

theorem admits_crossedBuffer (tableOpen indexOpen : Bool) :
    (Gateway.mk pairSession tableOpen indexOpen).Admits pairStore "t" crossedBuffer 2 blockSize 4
      .table where
  requested := rfl
  pageSized := rfl
  complete := by
    rw [crossedBuffer, Array.size_append, Page.size_toBuffer, Page.size_toBuffer]
    rfl
  named := rfl
  ranged := by decide

theorem establish_screens_crossed :
    (Gateway.opened pairSession).Admits pairStore "t" crossedBuffer 2 blockSize 4 .table ∧
      (Page.allOf crossedBuffer)[1]? = some crossedPage ∧
        ¬Admissible crossedPage ∧
          (∀ other ∈ (Page.allOf crossedBuffer).take 1, Admissible other) ∧
            ∃ block : BlockNumber,
              block.toNat = (4 : BlockNumber).toNat + 1 ∧
                (establish "t" crossedBuffer 2 blockSize 4 :
                    StorageM (Gateway × MemoryStorage) Unit).runOn
                    (Gateway.opened pairSession, pairStore) =
                  (.error (.corruptInput block),
                    ((Gateway.opened pairSession).setOpen .table true, pairStore)) := by
  have there : (Page.allOf crossedBuffer)[1]? = some crossedPage := by
    rw [allOf_crossedBuffer]
    rfl
  have earlier : ∀ other ∈ (Page.allOf crossedBuffer).take 1, Admissible other := by
    rw [allOf_crossedBuffer]
    intro other member
    rw [List.mem_singleton.mp member]
    exact Or.inr (wellFormed_forRecords dummyIdentity)
  have screens :=
    establish_screens (admits_crossedBuffer true true) there not_admissible_crossedPage earlier
  exact
    ⟨admits_crossedBuffer true true, there, not_admissible_crossedPage, earlier,
      screens.1 crossedPage_formatted⟩

theorem not_admissible_strayPage : ¬Admissible strayPage := by
  rintro (zero | ⟨header, -⟩)
  · have tag : strayPage.word 4 8 = 7 := by
      rw [strayPage, Page.setTag, Page.word_setWord _ _ (by decide)]
      rfl
    rw [zero, Page.word_zero] at tag
    exact absurd tag (by decide)
  · have lower : strayPage.lower = 0 := by
      rw [strayPage, Page.setTag, Page.lower, Page.word_setWord_of_disjoint _ _ (by decide),
        Page.word_zero]
    rw [lower] at header
    exact absurd header (by decide)

theorem admits_strayPage :
    (Gateway.opened pairSession).Admits pairStore "t" strayPage.toBuffer 1 blockSize 0 .table where
  requested := rfl
  pageSized := rfl
  complete := by
    rw [Page.size_toBuffer]
    rfl
  named := rfl
  ranged := by decide

/-- An image that is neither all zeros nor a well-formed page is taken and written if the header
word that says where the items start is zero. -/
theorem not_refuses_stray :
    (Gateway.opened pairSession).Admits pairStore "t" strayPage.toBuffer 1 blockSize 0 .table ∧
      Page.allOf strayPage.toBuffer = [strayPage] ∧
        ¬Admissible strayPage ∧
          (establish "t" strayPage.toBuffer 1 blockSize 0 :
              StorageM (Gateway × MemoryStorage) Unit).Yields
            (Gateway.opened pairSession, pairStore) fun outcome left =>
              outcome = .ok () ∧ (contents left.2).page 1 0 = .ok strayPage := by
  have acceptable : ∀ image ∈ Page.allOf strayPage.toBuffer, Acceptable image := by
    rw [Page.allOf_toBuffer]
    intro image member
    rw [List.mem_singleton.mp member]
    refine Or.inl ?_
    rw [strayPage, Page.setTag, Page.isUnformatted, Page.upper,
      Page.word_setWord_of_disjoint _ _ (by decide), Page.word_zero]
    rfl
  have sound : Sound pairStore := rfl
  have present :
      contents pairStore ((Gateway.opened pairSession).session.relation .table) =
        some Relation.created :=
    rfl
  have few : Relation.created.pages.length < blockNumberBound := by decide
  have places := establish_places admits_strayPage sound present few acceptable
  refine ⟨admits_strayPage, Page.allOf_toBuffer _, not_admissible_strayPage, places.weaken ?_⟩
  rintro outcome left ⟨done, holds⟩
  have placed := congrFun holds 1
  rw [Page.allOf_toBuffer] at placed
  have there : [strayPage][0]? = some strayPage := rfl
  exact ⟨done, page_of_placed placed there rfl⟩

end ObliviousStorage.Gateway

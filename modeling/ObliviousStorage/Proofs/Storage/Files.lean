import ObliviousStorage.Proofs.Page.Buffers
import ObliviousStorage.Proofs.Storage.Precise
import ObliviousStorage.Storage.Files

/-!
Contract: the laws of the store that keeps relations in files.

Owns: what a file holds as a relation; that the store is sound as long as no file has more
blocks than there are numbers; and that it has identities for new relations up to the first one
that already has a file. Bytes behind the last whole block of a file are not part of any block,
but an extension makes them the beginning of the next one.

Does not own: files that are changed by others.
-/

namespace ObliviousStorage

open StorageM StorageView

/-! ## Directories -/

namespace Directory

theorem find?_place
    (name other : String)
    (contents : Buffer)
    (files : List (String × Buffer)) :
    (place name contents files).find? (fun file => file.1 = other) =
      if name = other then some (name, contents) else files.find? fun file => file.1 = other := by
  induction files with
  | nil => by_cases same : name = other <;> simp [place, same]
  | cons file rest inductionHypothesis =>
      obtain ⟨there, kept⟩ := file
      rw [place]
      split
      · next replaced =>
          subst replaced
          by_cases same : name = other <;> simp [same]
      · next apart =>
          split
          · by_cases same : name = other <;> simp [same]
          · rw [List.find?_cons, inductionHypothesis, List.find?_cons]
            by_cases same : name = other
            · subst same
              simp [Ne.symm apart]
            · simp [same]

/-- A file that was written is found again, and all others as before. -/
theorem contents?_put (directory : Directory) (name other : String) (contents : Buffer) :
    (directory.put name contents).contents? other =
      if name = other then some contents else directory.contents? other := by
  rw [contents?, put, find?_place]
  by_cases same : name = other <;> simp [same, contents?]

end Directory

/-! ## Names of relation files -/

theorem toString_injective
    {number other : Nat}
    (same : toString number = toString other) :
    number = other := by
  rw [Nat.toString_eq_ofList_toDigits, Nat.toString_eq_ofList_toDigits, String.ofList_inj] at same
  have values := congrArg (fun digits => Nat.ofDigitChars 10 digits 0) same
  rwa [Nat.ofDigitChars_ten_toDigits, Nat.ofDigitChars_ten_toDigits] at values

theorem relationFile_injective
    {relation other : RelationId}
    (same : relationFile relation = relationFile other) :
    relation = other :=
  UInt32.toNat_inj.mp (toString_injective same)

/-- How many numbers from `first` on, at most `limit`, have no file before one that has. -/
def unused (directory : Directory) : (limit first : Nat) → Nat
  | 0, _ => 0
  | limit + 1, first =>
      if (directory.contents? (toString first)).isNone then
        unused directory limit (first + 1) + 1
      else
        0

theorem unused_congr
    {directory other : Directory}
    {limit first : Nat}
    (same :
      ∀ number, first ≤ number →
        (directory.contents? (toString number)).isNone =
          (other.contents? (toString number)).isNone) :
    unused directory limit first = unused other limit first := by
  induction limit generalizing first with
  | zero => rfl
  | succ limit inductionHypothesis =>
      have here := same first (Nat.le_refl _)
      have later := inductionHypothesis fun number behind => same number (Nat.le_of_succ_le behind)
      rw [unused, unused, here, later]

/-! ## Files as relations -/

/-- The pages of a file, and the page that its bytes behind them begin. -/
def fileRelation (contents : Buffer) : Relation where
  pages := Page.allOf contents
  blank := Page.atPosition contents (contents.size / blockSize * blockSize)

section FileRelation

variable (contents : Buffer)

theorem length_fileRelation : (fileRelation contents).pages.length = contents.size / blockSize := by
  simp [fileRelation]

/-- A file that has whole blocks only is extended by a zero-filled one. -/
theorem blank_of_whole
    (whole : contents.size % blockSize = 0) :
    (fileRelation contents).blank = Page.zero := by
  apply Page.ext_byte
  intro position inside
  have last : contents.size / blockSize * blockSize = contents.size :=
    Nat.div_mul_cancel (Nat.dvd_of_mod_eq_zero whole)
  rw [fileRelation, last, Page.byte_atPosition _ _ inside, Page.byte_zero,
    Array.getD_eq_getD_getElem?, Array.getElem?_eq_none (Nat.le_add_right ..), Option.getD_none]

theorem fileRelation_empty : fileRelation #[] = .created := by
  have blank : (fileRelation #[]).blank = Page.zero := blank_of_whole #[] rfl
  rw [Relation.created, ← blank]
  rfl

/-- A page whose bytes the buffer is not cut before is cut from it as before. -/
theorem atPosition_resized
    {length start : Nat}
    (kept : ∀ position, position < blockSize →
      start + position < length ∨ contents.size ≤ start + position) :
    Page.atPosition (Buffer.resized contents length) start = Page.atPosition contents start := by
  apply Page.ext_byte
  intro position inside
  rw [Page.byte_atPosition _ _ inside, Page.byte_atPosition _ _ inside, Buffer.getD_resized]
  rcases kept position inside with below | beyond
  · rw [if_pos below]
  · have none : contents.getD (start + position) 0 = 0 := by
      rw [Array.getD_eq_getD_getElem?, Array.getElem?_eq_none beyond, Option.getD_none]
    rw [none, ite_self]

/-- The position of a byte of a block, in terms of the blocks up to it. -/
theorem position_lt
    {block blocks position : Nat}
    (inside : position < blockSize)
    (before : block < blocks) :
    block * blockSize + position < blocks * blockSize := by
  have reach := Page.block_fits before (Nat.le_refl _)
  omega

theorem fileRelation_extended :
    fileRelation (Buffer.resized contents ((contents.size / blockSize + 1) * blockSize)) =
      (fileRelation contents).extended := by
  have count :
      (contents.size / blockSize + 1) * blockSize / blockSize = contents.size / blockSize + 1 :=
    Nat.mul_div_cancel _ (by decide)
  have kept :
      ∀ block, block < contents.size / blockSize + 1 →
        Page.atPosition
            (Buffer.resized contents ((contents.size / blockSize + 1) * blockSize))
            (block * blockSize) =
          Page.atPosition contents (block * blockSize) :=
    fun block before =>
      atPosition_resized contents fun _ inside => Or.inl (position_lt inside before)
  have pages :
      Page.allOf (Buffer.resized contents ((contents.size / blockSize + 1) * blockSize)) =
        Page.allOf contents ++
          [Page.atPosition contents (contents.size / blockSize * blockSize)] := by
    apply List.ext_getElem
    · simp [count]
    · intro block bound _
      have before : block < contents.size / blockSize + 1 := by
        rwa [Page.length_allOf, Buffer.size_resized, count] at bound
      rw [Page.getElem_allOf, kept block before, List.getElem_append]
      split
      · rw [Page.getElem_allOf]
      · next last =>
          rw [Page.length_allOf] at last
          have same : block = contents.size / blockSize := by omega
          simp [same]
  have blank :
      Page.atPosition (Buffer.resized contents ((contents.size / blockSize + 1) * blockSize))
          ((contents.size / blockSize + 1) * blockSize) = Page.zero := by
    apply Page.ext_byte
    intro position inside
    rw [Page.byte_atPosition _ _ inside, Buffer.getD_resized, if_neg (by omega), Page.byte_zero]
  rw [fileRelation, Relation.extended, Buffer.size_resized, count, pages, blank]
  rfl

theorem fileRelation_overwritten
    {block : Nat}
    (inside : block < contents.size / blockSize)
    (page : Page) :
    fileRelation (Buffer.replaced contents (block * blockSize) page.toBuffer) =
      (fileRelation contents).overwritten block page := by
  have whole : contents.size / blockSize * blockSize ≤ contents.size := Nat.div_mul_le_self ..
  have pages :
      Page.allOf (Buffer.replaced contents (block * blockSize) page.toBuffer) =
        (Page.allOf contents).set block page := by
    apply List.ext_getElem
    · simp
    · intro other _ _
      rw [Page.getElem_allOf, List.getElem_set]
      split
      · next same =>
          subst same
          exact Page.atPosition_replaced page (Page.block_fits inside whole)
      · next apart =>
          rw [Page.getElem_allOf, Page.atBlock_replaced_of_ne _ _ (Ne.symm apart)]
  have blank :
      Page.atPosition (Buffer.replaced contents (block * blockSize) page.toBuffer)
          (contents.size / blockSize * blockSize) =
        Page.atPosition contents (contents.size / blockSize * blockSize) :=
    Page.atBlock_replaced_of_ne contents page (Nat.ne_of_gt inside)
  rw [fileRelation, Relation.overwritten, Buffer.size_replaced, pages, blank]
  rfl

end FileRelation

/-! ## The store -/

namespace FileStorage

instance : StorageView FileStorage where
  contents store relation :=
    (store.directory.contents? (relationFile relation)).map fileRelation
  Sound store :=
    ∀ relation contents, store.directory.contents? (relationFile relation) = some contents →
      contents.size / blockSize < blockNumberBound
  room store :=
    if store.next = noRelation then 0
    else unused store.directory (blockNumberBound - 1 - store.next.toNat) store.next.toNat

section Calls

variable {store : FileStorage} {relation : RelationId} {contents : Buffer} {block : BlockNumber}

theorem room_of_none (none : store.next = noRelation) : room store = 0 := if_pos none

theorem room_of_named (named : store.next ≠ noRelation) :
    room store =
      unused store.directory (blockNumberBound - 1 - store.next.toNat) store.next.toNat :=
  if_neg named

theorem contents_of_some
    (present : store.directory.contents? (relationFile relation) = some contents) :
    StorageView.contents store relation = some (fileRelation contents) := by
  simp [StorageView.contents, present]

theorem contents_ok
    (present : store.directory.contents? (relationFile relation) = some contents) :
    store.contents relation = .ok contents := by
  rw [FileStorage.contents, present]

theorem contents_putContents
    (store : FileStorage)
    (relation : RelationId)
    (contents : Buffer) :
    StorageView.contents (store.putContents relation contents) =
      (StorageView.contents store).put relation (fileRelation contents) := by
  funext other
  simp only [StorageView.contents, putContents, Directory.contents?_put, Contents.put]
  by_cases same : other = relation
  · simp [same]
  · have apart : relationFile relation ≠ relationFile other :=
      fun named => same (relationFile_injective named).symm
    simp [same, apart]

/-- A file of not too many blocks leaves a sound store sound. -/
theorem sound_putContents
    (few : contents.size / blockSize < blockNumberBound)
    (sound : Sound store) :
    Sound (store.putContents relation contents) := by
  intro other found present
  rw [putContents, Directory.contents?_put] at present
  split at present
  · exact Option.some.inj present ▸ few
  · exact sound other found present

/-- Writing the file of a relation that exists. -/
theorem putContents_became
    {before : Buffer}
    (present : store.directory.contents? (relationFile relation) = some before)
    (few : contents.size / blockSize < blockNumberBound) :
    Became store (store.putContents relation contents)
      ((StorageView.contents store).put relation (fileRelation contents)) 0 where
  holds := contents_putContents store relation contents
  keepsRoom := by
    by_cases none : store.next = noRelation
    · rw [room_of_none none]
      exact Nat.zero_le _
    · have still : (store.putContents relation contents).next ≠ noRelation := none
      rw [room_of_named none, room_of_named still, Nat.add_zero]
      apply Nat.le_of_eq
      apply unused_congr
      intro number _
      rw [putContents, Directory.contents?_put]
      split
      · next same =>
          rw [← same, present]
          rfl
      · rfl
  follows := sound_putContents few

theorem count_eq (store : FileStorage) (relation : RelationId) :
    store.count relation = (StorageView.contents store).count relation := by
  simp only [count, FileStorage.contents, Contents.count, StorageView.contents]
  cases store.directory.contents? (relationFile relation) with
  | none => rfl
  | some contents => simp [bind, Except.bind, length_fileRelation]

theorem checkBlock_eq_ok_iff :
    store.checkBlock relation block = .ok () ↔
      ∃ contents, store.directory.contents? (relationFile relation) = some contents ∧
        contents.size / blockSize < blockNumberBound ∧
          block.toNat < contents.size / blockSize := by
  simp only [checkBlock, count, FileStorage.contents, bind_eq_ok_iff, require_eq_ok_iff]
  cases store.directory.contents? (relationFile relation) with
  | none => simp
  | some contents =>
      simp only [Except.ok.injEq, exists_eq_left', Option.some.injEq,
        Contents.toBlockNumber_eq_ok_iff]
      constructor
      · rintro ⟨count, counted, inside⟩
        rw [UInt32.lt_iff_toNat_lt, counted] at inside
        exact ⟨counted ▸ count.toNat_lt, inside⟩
      · rintro ⟨few, inside⟩
        have counted := UInt32.toNat_ofNat_of_lt' few
        refine ⟨UInt32.ofNat (contents.size / blockSize), counted, ?_⟩
        rwa [UInt32.lt_iff_toNat_lt, counted]

theorem page_of_checkBlock_ok
    (present : store.directory.contents? (relationFile relation) = some contents)
    (inside : block.toNat < contents.size / blockSize) :
    (StorageView.contents store).page relation block =
      .ok (Page.atPosition contents (blockStart block.toNat)) := by
  apply Contents.page_of_some (contents_of_some present)
  have bound : block.toNat < (Page.allOf contents).length := by rwa [Page.length_allOf]
  rw [fileRelation, List.getElem?_eq_getElem bound, Page.getElem_allOf, blockStart]

/-- A sound store refuses a block for the reason for which it is not there. -/
theorem page_of_checkBlock_error
    {fault : Fault}
    (sound : Sound store)
    (refused : store.checkBlock relation block = .error fault) :
    (StorageView.contents store).page relation block = .error fault := by
  rcases bind_eq_error_iff.mp refused with uncounted | ⟨count, counted, refused⟩
  · rw [count_eq] at uncounted
    cases present : store.directory.contents? (relationFile relation) with
    | none =>
        simp only [Contents.count, Contents.page, StorageView.contents, present, Option.map_none]
          at uncounted ⊢
        rw [Except.error.inj uncounted]
    | some contents =>
        have few := sound relation contents present
        rw [← length_fileRelation] at few
        simp [Contents.count, contents_of_some present, toBlockNumber, few] at uncounted
  · obtain ⟨outside, rfl⟩ := require_eq_error_iff.mp refused
    rw [count_eq] at counted
    obtain ⟨found, present, length⟩ := Contents.count_eq_ok_iff.mp counted
    rw [UInt32.lt_iff_toNat_lt, ← length] at outside
    have none : found.pages[block.toNat]? = none :=
      List.getElem?_eq_none (Nat.le_of_not_lt outside)
    simp [Contents.page, present, none]

/-- There is no room if the file of the next relation exists. -/
theorem room_of_taken
    (taken : store.directory.contents? (relationFile store.next) = some contents) :
    room store = 0 := by
  by_cases none : store.next = noRelation
  · exact room_of_none none
  · rw [room_of_named none]
    rw [relationFile] at taken
    cases blockNumberBound - 1 - store.next.toNat with
    | zero => rfl
    | succ limit => rw [unused, taken, if_neg (by simp)]

/-- There is none either if no identity comes after the next one. -/
theorem room_of_last (last : blockNumberBound ≤ store.next.toNat + 1) : room store = 0 := by
  by_cases none : store.next = noRelation
  · exact room_of_none none
  · have exhausted : blockNumberBound - 1 - store.next.toNat = 0 := by omega
    rw [room_of_named none, exhausted]
    rfl

/-- Creating a relation uses up one identity. -/
theorem room_le_created
    (fresh : store.directory.contents? (relationFile store.next) = none)
    (more : store.next.toNat + 1 < blockNumberBound) :
    room store ≤
      room
          { store.putContents store.next #[] with
            next := UInt32.ofNat (store.next.toNat + 1) } +
        1 := by
  by_cases none : store.next = noRelation
  · rw [room_of_none none]
    exact Nat.zero_le _
  · have number := UInt32.toNat_ofNat_of_lt' more
    obtain ⟨limit, left⟩ : ∃ limit, blockNumberBound - 1 - store.next.toNat = limit + 1 :=
      ⟨blockNumberBound - 1 - store.next.toNat - 1, by omega⟩
    have first :
        unused store.directory (limit + 1) store.next.toNat =
          unused store.directory limit (store.next.toNat + 1) + 1 := by
      rw [relationFile] at fresh
      rw [unused, fresh, if_pos Option.isNone_none]
    rw [room_of_named none, left, first]
    apply Nat.succ_le_succ
    have named : UInt32.ofNat (store.next.toNat + 1) ≠ noRelation := by
      intro none
      rw [none] at number
      exact absurd number (by simp [noRelation])
    have rest : blockNumberBound - 1 - (store.next.toNat + 1) = limit := by omega
    rw [room_of_named named, number, rest]
    apply Nat.le_of_eq
    apply unused_congr
    intro other behind
    have apart : relationFile store.next ≠ toString other := by
      intro same
      have equal := toString_injective same
      omega
    rw [putContents, Directory.contents?_put, if_neg apart]

end Calls

instance : LawfulStorage FileStorage where
  blockBytes_of_sound _ := rfl
  create_law store := by
    refine yields_get_bind ?_
    cases present : store.directory.contents? (relationFile store.next) with
    | some contents =>
        simp only [present]
        exact ⟨fun _ => room_of_taken present, .refl store⟩
    | none =>
        simp only [present]
        refine yields_lift_bind ?_ ?_
        · intro following counted
          obtain ⟨more, rfl⟩ := wordSum_eq_ok_iff.mp counted
          refine yields_set_bind (yields_pure ⟨?_, ?_, ?_, ?_⟩)
          · simp [StorageView.contents, present]
          · rw [← fileRelation_empty]
            exact contents_putContents store store.next #[]
          · exact room_le_created present more
          · exact sound_putContents (by decide)
        · intro fault refused
          exact ⟨fun _ => room_of_last (wordSum_eq_error_iff.mp refused).1, .refl store⟩
  count_law store relation := by
    refine yields_get_bind (yields_lift ?_)
    rw [count_eq]
    cases (StorageView.contents store).count relation with
    | ok number => exact ⟨rfl, .refl store⟩
    | error fault => exact ⟨fun _ => rfl, .refl store⟩
  read_law store relation block := by
    refine yields_get_bind (yields_lift_bind ?_ ?_)
    · intro _ checked
      obtain ⟨contents, present, -, inside⟩ := checkBlock_eq_ok_iff.mp checked
      refine yields_lift_bind ?_ ?_
      · intro other found
        obtain rfl := Except.ok.inj ((contents_ok present).symm.trans found)
        exact yields_pure ⟨page_of_checkBlock_ok present inside, .refl store⟩
      · intro fault missing
        exact absurd ((contents_ok present).symm.trans missing) (by simp)
    · intro fault refused
      exact ⟨fun sound => page_of_checkBlock_error sound refused, .refl store⟩
  write_law store relation block page := by
    refine yields_get_bind (yields_lift_bind ?_ ?_)
    · intro _ checked
      obtain ⟨contents, present, few, inside⟩ := checkBlock_eq_ok_iff.mp checked
      refine yields_lift_bind ?_ ?_
      · intro other found
        obtain rfl := Except.ok.inj ((contents_ok present).symm.trans found)
        refine yields_set ⟨fileRelation contents, contents_of_some present, ?_, ?_⟩
        · rwa [length_fileRelation]
        · rw [← fileRelation_overwritten contents inside]
          exact putContents_became present (by rwa [Buffer.size_replaced])
      · intro fault missing
        exact absurd ((contents_ok present).symm.trans missing) (by simp)
    · intro fault refused
      refine ⟨fun sound found present => Nat.le_of_not_lt fun inside => ?_, .refl store⟩
      have reason := page_of_checkBlock_error sound refused
      rw [Contents.page_of_some present (List.getElem?_eq_getElem inside)] at reason
      exact absurd reason (by simp)
  extend_law store relation := by
    refine yields_get_bind (yields_lift_bind ?_ ?_)
    · intro block counted
      rw [count_eq] at counted
      obtain ⟨found, held, length⟩ := Contents.count_eq_ok_iff.mp counted
      obtain ⟨contents, present, rfl⟩ := Option.map_eq_some_iff.mp held
      rw [length_fileRelation] at length
      refine yields_lift_bind ?_ ?_
      · intro extended counted
        obtain ⟨fits, rfl⟩ := wordSum_eq_ok_iff.mp counted
        refine yields_lift_bind ?_ ?_
        · intro other found
          obtain rfl := Except.ok.inj ((contents_ok present).symm.trans found)
          refine yields_set_bind (yields_pure ⟨_, held, ?_, ?_⟩)
          · rw [length_fileRelation, length]
          · rw [← fileRelation_extended, blockStart, length]
            apply putContents_became present
            rwa [Buffer.size_resized, Nat.mul_div_cancel _ (by decide)]
        · intro fault missing
          exact absurd ((contents_ok present).symm.trans missing) (by simp)
      · intro fault refused
        refine ⟨fun _ other present => ?_, .refl store⟩
        obtain rfl := Option.some.inj (held.symm.trans present)
        rw [length_fileRelation, length]
        exact (wordSum_eq_error_iff.mp refused).1
    · intro fault refused
      refine ⟨fun sound found held => ?_, .refl store⟩
      obtain ⟨contents, present, rfl⟩ := Option.map_eq_some_iff.mp held
      have few := sound relation contents present
      rw [← length_fileRelation] at few
      rw [count_eq] at refused
      simp [Contents.count, held, toBlockNumber, few] at refused

instance : PreciseStorage FileStorage where
  create_named store := by
    refine yields_get_bind ?_
    cases present : store.directory.contents? (relationFile store.next) with
    | some contents =>
        simp only [present]
        exact trivial
    | none =>
        simp only [present]
        refine yields_lift_bind (fun _ _ => yields_set_bind (yields_pure fun roomy none => ?_))
          fun _ _ => trivial
        exact absurd (room_of_none none) (Nat.ne_of_gt roomy)
  write_reported store relation block page := by
    refine yields_get_bind (yields_lift_bind ?_ ?_)
    · intro _ checked
      obtain ⟨contents, present, -, -⟩ := checkBlock_eq_ok_iff.mp checked
      refine yields_lift_bind (fun _ _ => yields_set trivial) fun fault missing => ?_
      exact absurd ((contents_ok present).symm.trans missing) (by simp)
    · exact fun fault refused sound => page_of_checkBlock_error sound refused

end FileStorage

end ObliviousStorage

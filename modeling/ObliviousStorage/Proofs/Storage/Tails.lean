import ObliviousStorage.Proofs.Storage.Accepted
import ObliviousStorage.Proofs.Storage.Files

/-!
Contract: the bytes behind the last whole block of a file, and what an extension makes of them.

Owns: the calls on one file of a directory, whatever else is in the directory; that an extension
makes the bytes behind the last whole block the beginning of the block that it adds, so that this
block is zero-filled exactly if they are all zero; and that the blocks before it stay as they were.

Does not own: stores in memory, whose relations end with a whole block.
-/

namespace ObliviousStorage

open StorageM StorageView

/-- Behind the last whole block of the file there is nothing but zeros. -/
def TailBlank (file : Buffer) : Prop :=
  ∀ position, file.size / blockSize * blockSize ≤ position → file.getD position 0 = 0

/-- The block that an extension adds is zero-filled exactly if the tail is blank. -/
theorem blank_eq_zero_iff (file : Buffer) :
    (fileRelation file).blank = Page.zero ↔ TailBlank file := by
  constructor
  · intro blank position behind
    obtain ⟨offset, rfl⟩ := Nat.exists_eq_add_of_le behind
    rcases Nat.lt_or_ge offset blockSize with inside | beyond
    · have byte := congrArg (fun page : Page => page.byte offset) blank
      simp only [fileRelation, Page.byte_atPosition _ _ inside, Page.byte_zero] at byte
      exact byte
    · -- The tail is shorter than a block.
      have past : file.size ≤ file.size / blockSize * blockSize + offset := by
        simp only [blockSize] at beyond ⊢
        omega
      rw [Array.getD_eq_getD_getElem?, Array.getElem?_eq_none past, Option.getD_none]
  · intro tailBlank
    apply Page.ext_byte
    intro position inside
    rw [fileRelation, Page.byte_atPosition _ _ inside, Page.byte_zero]
    exact tailBlank _ (Nat.le_add_right ..)

namespace FileStorage

section Calls

variable {store : FileStorage} {relation : RelationId} {file : Buffer}

theorem count_of_some
    (present : store.directory.contents? (relationFile relation) = some file) :
    store.count relation = toBlockNumber (file.size / blockSize) := by
  rw [count_eq, Contents.count, contents_of_some present]
  exact congrArg toBlockNumber (length_fileRelation file)

/-- If the blocks of a file can be counted, reading one of them yields what it holds. -/
theorem read_of_counted
    {number : BlockNumber}
    (counted : store.count relation = .ok number)
    (block : BlockNumber) :
    (Storage.read relation block : StorageM FileStorage Page).runOn store =
      ((StorageView.contents store).page relation block, store) := by
  have reads :
      (Storage.read relation block : StorageM FileStorage Page).Yields store fun outcome left =>
        outcome = (StorageView.contents store).page relation block ∧ left = store := by
    refine yields_get_bind ?_
    cases checks : store.checkBlock relation block with
    | ok done =>
        obtain ⟨file, present, -, inside⟩ := checkBlock_eq_ok_iff.mp checks
        refine yields_lift_bind_value rfl (yields_lift_bind_value (contents_ok present) ?_)
        exact yields_pure ⟨(page_of_checkBlock_ok present inside).symm, rfl⟩
    | error fault =>
        rw [count_eq] at counted
        obtain ⟨found, present, length⟩ := Contents.count_eq_ok_iff.mp counted
        rcases bind_eq_error_iff.mp checks with uncounted | ⟨other, same, outside⟩
        · rw [count_eq, counted] at uncounted
          exact absurd uncounted (by simp)
        · rw [count_eq, counted] at same
          obtain rfl := Except.ok.inj same
          obtain ⟨lacks, rfl⟩ := require_eq_error_iff.mp outside
          rw [UInt32.lt_iff_toNat_lt, ← length] at lacks
          have none : found.pages[block.toNat]? = none :=
            List.getElem?_eq_none (Nat.le_of_not_lt lacks)
          exact yields_lift_bind_stop rfl ⟨by simp [Contents.page, present, none], rfl⟩
  exact Prod.ext reads.1 reads.2

/-- An extension cuts off or fills up the file to one block more than it has. -/
theorem extend_of_few
    (present : store.directory.contents? (relationFile relation) = some file)
    (few : file.size / blockSize + 1 < blockNumberBound) :
    (Storage.extend relation : StorageM FileStorage BlockNumber).runOn store =
      (.ok (UInt32.ofNat (file.size / blockSize)),
        store.putContents relation
          (Buffer.resized file ((file.size / blockSize + 1) * blockSize))) := by
  have number :
      (UInt32.ofNat (file.size / blockSize)).toNat = file.size / blockSize :=
    UInt32.toNat_ofNat_of_lt' (Nat.lt_of_succ_lt few)
  have counted : store.count relation = .ok (UInt32.ofNat (file.size / blockSize)) := by
    rw [count_of_some present]
    exact Contents.toBlockNumber_eq_ok_iff.mpr number
  have extended :
      wordSum (UInt32.ofNat (file.size / blockSize)).toNat 1 =
        .ok (file.size / blockSize + 1) := by
    rw [number]
    exact if_pos few
  have extends_ :
      (Storage.extend relation : StorageM FileStorage BlockNumber).Yields store
        fun outcome left =>
          outcome = .ok (UInt32.ofNat (file.size / blockSize)) ∧
            left =
              store.putContents relation
                (Buffer.resized file ((file.size / blockSize + 1) * blockSize)) := by
    refine yields_get_bind (yields_lift_bind_value counted (yields_lift_bind_value extended ?_))
    exact yields_lift_bind_value (contents_ok present) (yields_set_bind (yields_pure ⟨rfl, rfl⟩))
  exact Prod.ext extends_.1 extends_.2

/-- Behind the block with the last number an extension breaks off. -/
theorem extend_of_last
    (present : store.directory.contents? (relationFile relation) = some file)
    (last : file.size / blockSize + 1 = blockNumberBound) :
    (Storage.extend relation : StorageM FileStorage BlockNumber).Yields store fun outcome _ =>
      outcome = .error .overflow := by
  have number :
      (UInt32.ofNat (file.size / blockSize)).toNat = file.size / blockSize :=
    UInt32.toNat_ofNat_of_lt' (Nat.lt_of_succ_le (Nat.le_of_eq last))
  have counted : store.count relation = .ok (UInt32.ofNat (file.size / blockSize)) := by
    rw [count_of_some present]
    exact Contents.toBlockNumber_eq_ok_iff.mpr number
  have breaks :
      wordSum (UInt32.ofNat (file.size / blockSize)).toNat 1 = .error .overflow := by
    rw [number]
    exact if_neg (by omega)
  exact yields_get_bind (yields_lift_bind_value counted (yields_lift_bind_stop breaks rfl))

/-- A file with more blocks than there are numbers is not extended. -/
theorem extend_of_full
    (present : store.directory.contents? (relationFile relation) = some file)
    (full : blockNumberBound ≤ file.size / blockSize) :
    (Storage.extend relation : StorageM FileStorage BlockNumber).Yields store
      fun outcome left => outcome = .error .integerConversion ∧ left = store := by
  have uncounted : store.count relation = .error .integerConversion := by
    rw [count_of_some present]
    exact if_neg (Nat.not_lt.mpr full)
  exact yields_get_bind (yields_lift_bind_stop uncounted ⟨rfl, rfl⟩)

end Calls

/-- The file of a relation was extended by one block, which begins with the tail of the file. -/
structure Lengthened
    (store : FileStorage)
    (relation : RelationId)
    (file : Buffer)
    (block : BlockNumber)
    (left : FileStorage) : Prop where
  number : block.toNat = file.size / blockSize
  counted :
    ∃ count,
      (Storage.blockCount relation : StorageM FileStorage BlockNumber).runOn left =
          (.ok count, left) ∧
        count.toNat = block.toNat + 1
  /-- Reading the new block yields the tail, filled up with zeros. -/
  added :
    (Storage.read relation block : StorageM FileStorage Page).runOn left =
      (.ok (Page.atPosition file (block.toNat * blockSize)), left)
  added_zero_iff : Page.atPosition file (block.toNat * blockSize) = Page.zero ↔ TailBlank file
  below :
    ∀ earlier, earlier < block →
      ∃ page,
        (Storage.read relation earlier : StorageM FileStorage Page).runOn store =
            (.ok page, store) ∧
          (Storage.read relation earlier : StorageM FileStorage Page).runOn left = (.ok page, left)

theorem lengthened_of_few
    {store : FileStorage}
    {relation : RelationId}
    {file : Buffer}
    (present : store.directory.contents? (relationFile relation) = some file)
    (few : file.size / blockSize + 1 < blockNumberBound) :
    Lengthened store relation file (UInt32.ofNat (file.size / blockSize))
      (store.putContents relation
        (Buffer.resized file ((file.size / blockSize + 1) * blockSize))) := by
  have number : (UInt32.ofNat (file.size / blockSize)).toNat = file.size / blockSize :=
    UInt32.toNat_ofNat_of_lt' (Nat.lt_of_succ_lt few)
  have further :
      (UInt32.ofNat (file.size / blockSize + 1)).toNat = file.size / blockSize + 1 :=
    UInt32.toNat_ofNat_of_lt' few
  have before : store.count relation = .ok (UInt32.ofNat (file.size / blockSize)) := by
    rw [count_of_some present]
    exact Contents.toBlockNumber_eq_ok_iff.mpr number
  have holds :
      StorageView.contents
          (store.putContents relation
            (Buffer.resized file ((file.size / blockSize + 1) * blockSize))) =
        (StorageView.contents store).put relation (fileRelation file).extended := by
    rw [contents_putContents, fileRelation_extended]
  generalize store.putContents relation
    (Buffer.resized file ((file.size / blockSize + 1) * blockSize)) = left at holds ⊢
  have after : left.count relation = .ok (UInt32.ofNat (file.size / blockSize + 1)) := by
    rw [count_eq, holds]
    refine Contents.count_eq_ok_iff.mpr ⟨_, Contents.put_same .., ?_⟩
    rw [Relation.length_extended, length_fileRelation, further]
  exact {
    number := number
    counted := ⟨_, congrArg (·, left) after, by rw [further, number]⟩
    added := by
      rw [read_of_counted after, holds]
      refine congrArg (·, left) (Contents.page_of_some (Contents.put_same ..) ?_)
      rw [number, ← length_fileRelation, Relation.extended, List.getElem?_concat_length]
      rw [length_fileRelation]
      rfl
    added_zero_iff := by
      rw [number]
      exact blank_eq_zero_iff file
    below := by
      intro earlier isEarlier
      rw [UInt32.lt_iff_toNat_lt, number, ← length_fileRelation] at isEarlier
      have among := List.getElem?_eq_getElem isEarlier
      refine ⟨(fileRelation file).pages[earlier.toNat], ?_, ?_⟩
      · rw [read_of_counted before]
        exact congrArg (·, store) (Contents.page_of_some (contents_of_some present) among)
      · rw [read_of_counted after, holds]
        refine congrArg (·, left) (Contents.page_of_some (Contents.put_same ..) ?_)
        rw [Relation.extended, List.getElem?_append_left isEarlier, among] }

/-- Extending a relation that has a file, whatever its length and its bytes and whatever other
files there are, adds one block behind its whole blocks. The new block is zero-filled exactly if
nothing but zeros stood behind them. If the last whole block has the last number there is, the
extension breaks off; if there are more blocks than numbers, it is refused and changes nothing. -/
theorem extend_lengthens
    {store : FileStorage}
    {relation : RelationId}
    {file : Buffer}
    (present : store.directory.contents? (relationFile relation) = some file) :
    (Storage.extend relation : StorageM FileStorage BlockNumber).Yields store
      (either (Lengthened store relation file) fun fault left =>
        fault = .overflow ∧ file.size / blockSize + 1 = blockNumberBound ∨
          fault = .integerConversion ∧ left = store ∧
            blockNumberBound ≤ file.size / blockSize) := by
  rcases Nat.lt_trichotomy (file.size / blockSize + 1) blockNumberBound with few | last | more
  · exact yields_of_runOn (extend_of_few present few) (lengthened_of_few present few)
  · apply (extend_of_last present last).weaken
    rintro outcome left rfl
    exact .inl ⟨rfl, last⟩
  · have full := Nat.le_of_lt_succ more
    apply (extend_of_full present full).weaken
    rintro outcome left ⟨rfl, rfl⟩
    exact .inr ⟨rfl, rfl, full⟩

/-! ## A file with a tail -/

/-- One whole block of zeros and one byte behind it. -/
def raggedFile : Buffer := Buffer.zeros blockSize ++ #[7]

def raggedStore : FileStorage := openAt ⟨[("1", raggedFile)]⟩

theorem raggedStore_file : raggedStore.directory.contents? (relationFile 1) = some raggedFile := rfl

theorem wholeBlocks_raggedFile : raggedFile.size / blockSize = 1 := by
  rw [raggedFile, Buffer.zeros, Array.size_append, Array.size_replicate]
  rfl

/-- The file is extended by its second block. -/
theorem raggedStore_extends :
    ∃ left,
      (Storage.extend 1 : StorageM FileStorage BlockNumber).runOn raggedStore = (.ok 1, left) ∧
        Lengthened raggedStore 1 raggedFile 1 left := by
  have few : raggedFile.size / blockSize + 1 < blockNumberBound := by
    rw [wholeBlocks_raggedFile]
    decide
  have extended := extend_of_few raggedStore_file few
  have lengthened := lengthened_of_few raggedStore_file few
  rw [wholeBlocks_raggedFile] at extended lengthened
  exact ⟨_, extended, lengthened⟩

theorem extend_lengthens_ragged :
    raggedStore.directory.contents? (relationFile 1) = some raggedFile ∧
      ∃ left,
        (Storage.extend 1 : StorageM FileStorage BlockNumber).runOn raggedStore = (.ok 1, left) ∧
          Lengthened raggedStore 1 raggedFile 1 left := by
  -- Stated for every store that has the file, so that the call is not evaluated on this one.
  have lengthens :
      ∀ {store left : FileStorage},
        store.directory.contents? (relationFile 1) = some raggedFile →
          (Storage.extend 1 : StorageM FileStorage BlockNumber).runOn store = (.ok 1, left) →
            Lengthened store 1 raggedFile 1 left :=
    fun present extended => (extend_lengthens present).runOn extended
  obtain ⟨left, extended, -⟩ := raggedStore_extends
  exact ⟨raggedStore_file, left, extended, lengthens raggedStore_file extended⟩

/-- The block that is added to a file with a tail need not be zero-filled. -/
theorem not_extended_zero :
    ∃ left page,
      (Storage.extend 1 : StorageM FileStorage BlockNumber).runOn raggedStore = (.ok 1, left) ∧
        (Storage.read 1 1 : StorageM FileStorage Page).runOn left = (.ok page, left) ∧
          page ≠ Page.zero := by
  obtain ⟨left, extended, lengthened⟩ := raggedStore_extends
  refine ⟨left, _, extended, lengthened.added, fun zero => ?_⟩
  have whole : raggedFile.size / blockSize * blockSize = blockSize := by
    rw [wholeBlocks_raggedFile, Nat.one_mul]
  have blank : raggedFile.getD blockSize 0 = 0 :=
    lengthened.added_zero_iff.mp zero blockSize (Nat.le_of_eq whole)
  have size : (Buffer.zeros blockSize).size = blockSize := Array.size_replicate
  have seven : raggedFile.getD blockSize 0 = 7 := by
    rw [raggedFile, Array.getD_eq_getD_getElem?,
      Array.getElem?_append_right (Nat.le_of_eq size), size]
    rfl
  exact absurd (seven.symm.trans blank) (by decide)

end FileStorage

end ObliviousStorage

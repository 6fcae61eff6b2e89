import ObliviousStorage.Proofs.Storage.Files

/-!
Contract: the identities that the names in a directory of relation files spell.

Owns: that the name of a relation's file spells the relation's identity again; and what the
largest identity spelled in a directory is, so that a store opened there goes on numbering where
the one before it stopped.

Does not own: which calls lead to which directory.
-/

namespace ObliviousStorage

/-! ## Names that spell an identity -/

theorem decimalValue_of_digits
    {characters : List Char}
    (digits : ∀ character ∈ characters, character.isDigit)
    (value : Nat) :
    decimalValue value characters = some (Nat.ofDigitChars 10 characters value) := by
  induction characters generalizing value with
  | nil => rfl
  | cons first rest inductionHypothesis =>
      have later :=
        inductionHypothesis fun character among => digits character (List.mem_cons_of_mem _ among)
      rw [decimalValue, if_pos (digits first List.mem_cons_self), later, Nat.ofDigitChars_cons,
        Nat.mul_comm]

/-- A relation is found again from the name of its file. -/
theorem relationNamed_relationFile (relation : RelationId) :
    relationNamed (relationFile relation) = some relation := by
  have spelled : (relationFile relation).toList = Nat.toDigits 10 relation.toNat := by
    rw [relationFile, Nat.toString_eq_ofList_toDigits, String.toList_ofList]
  have digits : ∀ character ∈ Nat.toDigits 10 relation.toNat, character.isDigit :=
    fun _ among => Nat.isDigit_of_mem_toDigits (by decide) (by decide) among
  have value :
      decimalValue 0 (Nat.toDigits 10 relation.toNat) = some relation.toNat := by
    rw [decimalValue_of_digits digits, Nat.ofDigitChars_ten_toDigits]
  unfold relationNamed
  rw [spelled]
  cases characters : Nat.toDigits 10 relation.toNat with
  | nil => exact absurd characters Nat.toDigits_ne_nil
  | cons first rest =>
      rw [characters] at digits value
      have plain : first ≠ '+' := by
        intro same
        have digit := digits first List.mem_cons_self
        rw [same] at digit
        exact absurd digit (by decide)
      have small : relation.toNat < 4294967296 := relation.toNat_lt
      simp [plain, value, small]

/-! ## Directories of relation files -/

namespace Directory

theorem mem_place
    {name : String}
    {contents : Buffer}
    {files : List (String × Buffer)}
    {file : String × Buffer}
    (among : file ∈ place name contents files) :
    file.1 = name ∨ file ∈ files := by
  induction files with
  | nil =>
      rw [place, List.mem_singleton] at among
      exact .inl (congrArg Prod.fst among)
  | cons first rest inductionHypothesis =>
      rw [place] at among
      split at among
      · rcases List.mem_cons.mp among with same | later
        · exact .inl (congrArg Prod.fst same)
        · exact .inr (List.mem_cons_of_mem _ later)
      · split at among
        · rcases List.mem_cons.mp among with same | later
          · exact .inl (congrArg Prod.fst same)
          · exact .inr later
        · rcases List.mem_cons.mp among with same | later
          · exact .inr (same ▸ List.mem_cons_self)
          · rcases inductionHypothesis later with named | kept
            · exact .inl named
            · exact .inr (List.mem_cons_of_mem _ kept)

theorem isSome_contents?_iff {directory : Directory} {name : String} :
    (directory.contents? name).isSome ↔ ∃ file ∈ directory.files, file.1 = name := by
  simp [contents?]

/-- Every file of the directory holds a relation. -/
def OnlyRelations (directory : Directory) : Prop :=
  ∀ file ∈ directory.files, ∃ relation, file.1 = relationFile relation

theorem OnlyRelations.put
    {directory : Directory}
    (only : directory.OnlyRelations)
    (relation : RelationId)
    (contents : Buffer) :
    (directory.put (relationFile relation) contents).OnlyRelations := by
  intro file among
  rcases mem_place among with named | kept
  · exact ⟨relation, named⟩
  · exact only file kept

end Directory

/-! ## The largest identity -/

theorem toNat_foldl_max (identities : List RelationId) (first : RelationId) :
    (identities.foldl max first).toNat = (identities.map UInt32.toNat).foldl max first.toNat := by
  induction identities generalizing first with
  | nil => rfl
  | cons identity rest inductionHypothesis =>
      have larger : (max first identity).toNat = max first.toNat identity.toNat := by
        show (if first ≤ identity then identity else first).toNat = _
        rw [apply_ite UInt32.toNat, Nat.max_def]
        simp only [UInt32.le_iff_toNat_le]
      rw [List.foldl_cons, inductionHypothesis, larger, List.map_cons, List.foldl_cons]

/-- Identities from one to a number, in any order and with repetitions: the largest is that
number. -/
theorem toNat_foldl_max_of_numbered
    {identities : List RelationId}
    {relations : Nat}
    (few : relations < blockNumberBound)
    (numbered :
      ∀ relation, relation ∈ identities ↔ relation ≠ noRelation ∧ relation.toNat ≤ relations) :
    (identities.foldl max noRelation).toNat = relations := by
  rw [toNat_foldl_max]
  cases relations with
  | zero =>
      have none : identities = [] := by
        apply List.eq_nil_iff_forall_not_mem.mpr
        intro relation among
        have small := (numbered relation).mp among
        exact small.1 (UInt32.toNat_inj.mp (Nat.le_zero.mp small.2))
      rw [none]
      rfl
  | succ earlier =>
      have number : (UInt32.ofNat (earlier + 1)).toNat = earlier + 1 :=
        UInt32.toNat_ofNat_of_lt' few
      have named : UInt32.ofNat (earlier + 1) ≠ noRelation := by
        intro same
        rw [same] at number
        exact absurd number (by simp [noRelation])
      have last : UInt32.ofNat (earlier + 1) ∈ identities :=
        (numbered _).mpr ⟨named, Nat.le_of_eq number⟩
      have largest : (identities.map UInt32.toNat).max? = some (earlier + 1) := by
        rw [List.max?_eq_some_iff]
        constructor
        · exact List.mem_map.mpr ⟨_, last, number⟩
        · intro value among
          rcases List.mem_map.mp among with ⟨relation, member, rfl⟩
          exact ((numbered relation).mp member).2
      rw [List.foldl_max, largest, Option.getD_some]
      exact Nat.max_eq_right (Nat.zero_le _)

namespace FileStorage

variable {directory : Directory} (only : directory.OnlyRelations)

include only

/-- In a directory of relation files, the identities that are spelled are those of the files. -/
theorem mem_spelled_iff (relation : RelationId) :
    relation ∈ directory.files.filterMap (fun file => relationNamed file.1) ↔
      (directory.contents? (relationFile relation)).isSome := by
  rw [Directory.isSome_contents?_iff, List.mem_filterMap]
  constructor
  · intro found
    rcases found with ⟨file, among, names⟩
    rcases only file among with ⟨other, called⟩
    rw [called, relationNamed_relationFile] at names
    exact ⟨file, among, Option.some.inj names ▸ called⟩
  · intro found
    rcases found with ⟨file, among, called⟩
    exact ⟨file, among, called ▸ relationNamed_relationFile relation⟩

/-- The relations that have files are numbered from one, without a gap: then the largest
identity spelled there is their number. -/
theorem highest_of_numbered
    {relations : Nat}
    (few : relations < blockNumberBound)
    (numbered :
      ∀ relation, (directory.contents? (relationFile relation)).isSome ↔
        relation ≠ noRelation ∧ relation.toNat ≤ relations) :
    (highest directory).toNat = relations := by
  apply toNat_foldl_max_of_numbered few
  intro relation
  rw [mem_spelled_iff only, numbered]

end FileStorage

end ObliviousStorage

import ObliviousStorage.Proofs.Storage.Contents

/-!
Contract: what a file holds in terms of what was transferred to it.

Owns: `Journal`, the blocks that a file had at first, how many it has now, and the images that
were transferred to it, the latest first; the relation that such a file is; and what adding
blocks, overwriting one, and the transfers of whole requests do to both.

Does not own: the requests.
-/

namespace ObliviousStorage

/-- A block as it is before anything was transferred to it. Of the blocks that a relation
does not have yet, the next one will be what an extension adds, and later ones zero-filled. -/
def Relation.initial (relation : Relation) (number : Nat) : Page :=
  relation.pages.getD number (if number = relation.pages.length then relation.blank else Page.zero)

/-- The images of a request with the blocks that they are meant for. -/
def deposits (blocks : List BlockNumber) (images : List Page) : List (Nat × Page) :=
  List.zipWith (fun block image => (block.toNat, image)) blocks images

theorem deposits_cons
    (block : BlockNumber)
    (blocks : List BlockNumber)
    (image : Page)
    (images : List Page) :
    deposits (block :: blocks) (image :: images) =
      (block.toNat, image) :: deposits blocks images := rfl

/-- Images with the consecutive blocks that they go to. -/
def placements (number : Nat) (images : List Page) : List (Nat × Page) :=
  (images.zipIdx number).map Prod.swap

/-- A file as it was at first, its length now, and what was transferred to it since, the
latest image first. -/
structure Journal where
  first : Relation
  length : Nat
  entries : List (Nat × Page)
  grown : first.pages.length ≤ length
  inside : ∀ entry ∈ entries, entry.1 < length

namespace Journal

/-- The journal of a file to which nothing was transferred yet. -/
def start (relation : Relation) : Journal where
  first := relation
  length := relation.pages.length
  entries := []
  grown := Nat.le_refl _
  inside _ member := absurd member (by simp)

/-- What a block holds: the image that was most recently transferred to it, or else what it
held at first. -/
def block (journal : Journal) (number : Nat) : Page :=
  (journal.entries.lookup number).getD (journal.first.initial number)

/-- The file as a relation. -/
def relation (journal : Journal) : Relation where
  pages := (List.range journal.length).map journal.block
  blank :=
    if journal.length = journal.first.pages.length then journal.first.blank else Page.zero

/-- The file with blocks added until it has so many. -/
def growTo (journal : Journal) (length : Nat) : Journal where
  first := journal.first
  length := max journal.length length
  entries := journal.entries
  grown := Nat.le_trans journal.grown (Nat.le_max_left ..)
  inside entry member := Nat.lt_of_lt_of_le (journal.inside entry member) (Nat.le_max_left ..)

/-- One image goes to a block. -/
def record
    (journal : Journal)
    (number : Nat)
    (image : Page)
    (has : number < journal.length) : Journal where
  first := journal.first
  length := journal.length
  entries := (number, image) :: journal.entries
  grown := journal.grown
  inside entry member := by
    rcases List.mem_cons.mp member with rfl | earlier
    · exact has
    · exact journal.inside entry earlier

/-- Images go to the blocks given, up to the first block that the file does not have. -/
def transfer (journal : Journal) : List (Nat × Page) → Journal
  | [] => journal
  | (number, image) :: rest =>
      if has : number < journal.length then
        (journal.record number image has).transfer rest
      else
        journal

/-- Images go to consecutive blocks, which are added as far as the file does not have them. -/
def place (journal : Journal) : (number : Nat) → (images : List Page) → Journal
  | _, [] => journal
  | number, image :: rest =>
      ((journal.growTo (number + 1)).record number image (Nat.le_max_right ..)).place
        (number + 1) rest

/-- An image is what the file last got for a block: the image that was most recently transferred
to it, or else what the block held at first. A block that was added is zero-filled, unless an
extension of the file as it was at first would not have added a zero-filled one. -/
structure Shows (journal : Journal) (number : Nat) (image : Page) : Prop where
  latest :
    ∀ transferred, journal.entries.lookup number = some transferred → image = transferred
  original :
    journal.entries.lookup number = none →
      ∀ page, journal.first.pages[number]? = some page → image = page
  added :
    journal.entries.lookup number = none → journal.first.pages.length ≤ number →
      journal.first.blank = Page.zero → image = Page.zero

variable (journal : Journal)

theorem shows_block (number : Nat) : journal.Shows number (journal.block number) where
  latest transferred found := by simp [block, found]
  original none page among := by simp [block, none, Relation.initial, among]
  added none beyond blank := by
    simp [block, none, Relation.initial, List.getElem?_eq_none beyond, blank]

/-! ## The relation of a journal -/

@[simp] theorem length_relation : journal.relation.pages.length = journal.length := by
  simp [relation]

theorem getElem?_relation
    {number : Nat}
    (has : number < journal.length) :
    journal.relation.pages[number]? = some (journal.block number) := by
  simp [relation, has]

@[simp] theorem relation_start (relation : Relation) : (start relation).relation = relation := by
  have pages : (start relation).relation.pages = relation.pages := by
    apply List.ext_getElem
    · simp [start]
    · intro number _ bound
      simp [Journal.relation, start, block, Relation.initial, bound]
  cases relation
  simp only [Journal.relation] at pages ⊢
  rw [pages]
  simp [start]

/-- Overwriting a block is one more entry. -/
theorem relation_record
    {number : Nat}
    (image : Page)
    (has : number < journal.length) :
    (journal.record number image has).relation = journal.relation.overwritten number image := by
  have pages :
      (List.range journal.length).map (journal.record number image has).block =
        ((List.range journal.length).map journal.block).set number image := by
    apply List.ext_getElem
    · simp
    · intro other bound _
      have different : (other == number) = decide (number = other) := by
        simp [Bool.beq_eq_decide_eq, eq_comm]
      by_cases same : number = other
      · simp [block, record, same]
      · simp [block, record, same, List.lookup_cons, different]
  simp only [relation, Relation.overwritten, record] at pages ⊢
  rw [pages]
  rfl

/-- No image was transferred to a block that is not there. -/
theorem block_of_le
    {number : Nat}
    (beyond : journal.length ≤ number) :
    journal.block number = journal.first.initial number := by
  have none : journal.entries.lookup number = none := by
    rw [List.lookup_eq_none_iff]
    intro entry member
    have inside := journal.inside entry member
    have different : number ≠ entry.1 := by omega
    simpa using different
  rw [block, none, Option.getD_none]

/-- Extending the relation adds one block. -/
theorem relation_growTo_succ :
    (journal.growTo (journal.length + 1)).relation = journal.relation.extended := by
  have grown := journal.grown
  have length : max journal.length (journal.length + 1) = journal.length + 1 := by omega
  have added : journal.first.initial journal.length = journal.relation.blank := by
    rw [Relation.initial, List.getD_eq_getElem?_getD, List.getElem?_eq_none grown,
      Option.getD_none, relation]
  have notFirst : ¬journal.length + 1 = journal.first.pages.length := by omega
  rw [relation, Relation.extended]
  simp only [growTo, length, notFirst, if_false, List.range_succ, List.map_append, List.map_cons,
    List.map_nil]
  rw [← added, ← journal.block_of_le (Nat.le_refl _)]
  rfl

theorem growTo_of_le
    {length : Nat}
    (reached : length ≤ journal.length) :
    journal.growTo length = journal := by
  cases journal
  simp only [growTo] at reached ⊢
  simp [Nat.max_eq_left reached]

theorem growTo_growTo
    {length further : Nat}
    (more : length ≤ further) :
    (journal.growTo length).growTo further = journal.growTo further := by
  simp only [growTo]
  have same : max (max journal.length length) further = max journal.length further := by omega
  simp [same]

/-! ## Transfers of requests -/

section Transferring

variable
  {journal : Journal}
  {number : Nat}
  {image : Page}
  {rest : List (Nat × Page)}

theorem transfer_cons_of_has (has : number < journal.length) :
    journal.transfer ((number, image) :: rest) =
      (journal.record number image has).transfer rest :=
  dif_pos has

theorem transfer_cons_of_lacks (lacks : journal.length ≤ number) :
    journal.transfer ((number, image) :: rest) = journal :=
  dif_neg (Nat.not_lt_of_le lacks)

end Transferring

theorem length_transfer (images : List (Nat × Page)) :
    (journal.transfer images).length = journal.length := by
  induction images generalizing journal with
  | nil => rfl
  | cons image rest inductionHypothesis =>
      rcases Nat.lt_or_ge image.1 journal.length with has | lacks
      · rw [transfer_cons_of_has has, inductionHypothesis]
        rfl
      · rw [transfer_cons_of_lacks lacks]

/-- Placing images transfers all of them. -/
theorem entries_place (number : Nat) (images : List Page) :
    (journal.place number images).entries =
      (placements number images).reverse ++ journal.entries := by
  induction images generalizing journal number with
  | nil => rfl
  | cons image rest inductionHypothesis =>
      rw [place, inductionHypothesis, placements, placements, List.zipIdx_cons, List.map_cons,
        List.reverse_cons, List.append_assoc]
      rfl

theorem length_place_of_ne_nil
    {images : List Page}
    (some : images ≠ [])
    (number : Nat) :
    (journal.place number images).length = max journal.length (number + images.length) := by
  induction images generalizing journal number with
  | nil => exact absurd rfl some
  | cons image rest inductionHypothesis =>
      cases rest with
      | nil => rfl
      | cons next rest =>
          rw [place, inductionHypothesis _ (by simp)]
          simp only [record, growTo, List.length_cons]
          omega

theorem first_transfer (images : List (Nat × Page)) :
    (journal.transfer images).first = journal.first := by
  induction images generalizing journal with
  | nil => rfl
  | cons image rest inductionHypothesis =>
      rcases Nat.lt_or_ge image.1 journal.length with has | lacks
      · exact (congrArg first (transfer_cons_of_has has)).trans (inductionHypothesis _)
      · rw [transfer_cons_of_lacks lacks]

theorem first_place (number : Nat) (images : List Page) :
    (journal.place number images).first = journal.first := by
  induction images generalizing journal number with
  | nil => rfl
  | cons image rest inductionHypothesis =>
      rw [place, inductionHypothesis]
      rfl

theorem block_record
    {number : Nat}
    (image : Page)
    (has : number < journal.length)
    (other : Nat) :
    (journal.record number image has).block other =
      if other = number then image else journal.block other := by
  by_cases same : other = number
  · simp [block, record, same]
  · have different : (other == number) = false := by simpa using same
    simp [block, record, List.lookup_cons, same, different]

/-- Placing images changes the blocks that they go to and no others. -/
theorem block_place (number : Nat) (images : List Page) (other : Nat) :
    (journal.place number images).block other =
      if number ≤ other ∧ other < number + images.length then
        images.getD (other - number) Page.zero
      else
        journal.block other := by
  induction images generalizing journal number with
  | nil =>
      rw [if_neg (by rw [List.length_nil]; omega)]
      rfl
  | cons image rest inductionHypothesis =>
      have recorded :
          ((journal.growTo (number + 1)).record number image (Nat.le_max_right ..)).block other =
            if other = number then image else journal.block other :=
        block_record (journal.growTo (number + 1)) image (Nat.le_max_right ..) other
      rw [place, inductionHypothesis, List.length_cons]
      by_cases first : other = number
      · subst first
        rw [if_neg (by omega), if_pos (by omega), Nat.sub_self]
        exact recorded.trans (if_pos rfl)
      · by_cases later : number + 1 ≤ other ∧ other < number + 1 + rest.length
        · have behind : other - number = other - (number + 1) + 1 := by omega
          rw [if_pos later, if_pos (by omega), behind, List.getD_cons_succ]
        · rw [if_neg later, if_neg (by omega)]
          exact recorded.trans (if_neg first)

/-! ## Requests for blocks -/

/-- The first of these blocks that the file does not have. -/
def missing (journal : Journal) (blocks : List BlockNumber) : Option BlockNumber :=
  blocks.find? fun block => journal.length ≤ block.toNat

/-- A request for blocks is answered unless the file lacks one of them. -/
def outcome
    {α : Type}
    (journal : Journal)
    (relation : RelationId)
    (blocks : List BlockNumber)
    (answer : α) : Except Fault α :=
  match journal.missing blocks with
  | none => .ok answer
  | some block => .error (.blockOutOfBounds relation block)

section Outcomes

variable
  {α : Type}
  {journal : Journal}
  {relation : RelationId}
  {block : BlockNumber}
  {rest : List BlockNumber}
  {answer : α}

theorem outcome_nil : journal.outcome relation [] answer = .ok answer := rfl

theorem outcome_cons_of_has (has : block.toNat < journal.length) :
    journal.outcome relation (block :: rest) answer = journal.outcome relation rest answer := by
  rw [outcome, missing, List.find?_cons_of_neg (by simpa using has)]
  rfl

theorem outcome_cons_of_lacks (lacks : journal.length ≤ block.toNat) :
    journal.outcome relation (block :: rest) answer = .error (.blockOutOfBounds relation block) := by
  rw [outcome, missing, List.find?_cons_of_pos (by simpa using lacks)]

theorem outcome_of_has
    {blocks : List BlockNumber}
    (has : ∀ block ∈ blocks, block.toNat < journal.length) :
    journal.outcome relation blocks answer = .ok answer := by
  have none : journal.missing blocks = none := by
    rw [missing, List.find?_eq_none]
    intro block member
    simpa using has block member
  rw [outcome, none]

/-- The first block that the file lacks is the one that is reported. -/
theorem outcome_of_lacks
    {blocks : List BlockNumber}
    {position : Nat}
    (there : blocks[position]? = some block)
    (has : ∀ earlier ∈ blocks.take position, earlier.toNat < journal.length)
    (lacks : journal.length ≤ block.toNat) :
    journal.outcome relation blocks answer = .error (.blockOutOfBounds relation block) := by
  induction blocks generalizing position with
  | nil => simp at there
  | cons first rest inductionHypothesis =>
      cases position with
      | zero =>
          obtain rfl : first = block := by simpa using there
          exact outcome_cons_of_lacks lacks
      | succ position =>
          rw [List.take_succ_cons, List.forall_mem_cons] at has
          rw [outcome_cons_of_has has.1]
          exact inductionHypothesis (by simpa using there) has.2

/-- Whether a request for blocks is answered does not depend on the answer. -/
theorem outcome_of_ok
    {β : Type}
    {value : α}
    (answered : journal.outcome relation rest answer = .ok value)
    (other : β) :
    journal.outcome relation rest other = .ok other := by
  rw [outcome] at answered ⊢
  cases lacking : journal.missing rest with
  | none => rfl
  | some block => simp [lacking] at answered

theorem outcome_of_error
    {β : Type}
    {fault : Fault}
    (refused : journal.outcome relation rest answer = .error fault)
    (other : β) :
    journal.outcome relation rest other = .error fault := by
  rw [outcome] at refused ⊢
  cases lacking : journal.missing rest with
  | none => simp [lacking] at refused
  | some block => simpa [lacking] using refused

/-- A request for blocks is refused for a block that the file lacks only. -/
theorem outOfBounds_of_error
    {fault : Fault}
    (refused : journal.outcome relation rest answer = .error fault) :
    ∃ block, fault = .blockOutOfBounds relation block := by
  rw [outcome] at refused
  cases lacking : journal.missing rest with
  | none => simp [lacking] at refused
  | some block => exact ⟨block, by simpa [lacking, eq_comm] using refused⟩

end Outcomes

section Depositing

variable {journal : Journal} {blocks : List BlockNumber}

theorem entries_deposits_of_has
    (has : ∀ block ∈ blocks, block.toNat < journal.length)
    (images : List Page) :
    (journal.transfer (deposits blocks images)).entries =
      (deposits blocks images).reverse ++ journal.entries := by
  induction blocks generalizing journal images with
  | nil => rfl
  | cons block blocks inductionHypothesis =>
      rw [List.forall_mem_cons] at has
      cases images with
      | nil => rfl
      | cons image images =>
          have later :
              ((journal.record block.toNat image has.1).transfer (deposits blocks images)).entries =
                (deposits blocks images).reverse ++ (block.toNat, image) :: journal.entries :=
            inductionHypothesis (by exact has.2) images
          rw [deposits_cons, transfer_cons_of_has has.1, later, List.reverse_cons,
            List.append_assoc, List.singleton_append]

/-- A request that comes to a block which the file lacks has transferred the images before it. -/
theorem entries_deposits_of_lacks
    {block : BlockNumber}
    {position : Nat}
    {images : List Page}
    (there : blocks[position]? = some block)
    (has : ∀ earlier ∈ blocks.take position, earlier.toNat < journal.length)
    (lacks : journal.length ≤ block.toNat) :
    (journal.transfer (deposits blocks images)).entries =
      (deposits (blocks.take position) (images.take position)).reverse ++ journal.entries := by
  induction blocks generalizing journal position images with
  | nil => simp at there
  | cons first rest inductionHypothesis =>
      cases images with
      | nil =>
          rw [List.take_nil]
          cases position <;> rfl
      | cons image images =>
          cases position with
          | zero =>
              obtain rfl : first = block := by simpa using there
              rw [deposits_cons, transfer_cons_of_lacks lacks]
              rfl
          | succ position =>
              rw [List.take_succ_cons, List.forall_mem_cons] at has
              have later :
                  ((journal.record first.toNat image has.1).transfer
                      (deposits rest images)).entries =
                    (deposits (rest.take position) (images.take position)).reverse ++
                      (first.toNat, image) :: journal.entries :=
                inductionHypothesis (by simpa using there) has.2 lacks
              rw [deposits_cons, transfer_cons_of_has has.1, later, List.take_succ_cons,
                List.take_succ_cons, deposits_cons, List.reverse_cons, List.append_assoc,
                List.singleton_append]

end Depositing

/-- What reading a block of the file yields. -/
theorem page_eq
    {journal : Journal}
    {held : Contents}
    {relation : RelationId}
    (present : held relation = some journal.relation)
    (block : BlockNumber) :
    held.page relation block = journal.outcome relation [block] (journal.block block.toNat) := by
  rcases Nat.lt_or_ge block.toNat journal.length with has | lacks
  · rw [outcome_cons_of_has has, outcome_nil]
    exact Contents.page_of_some present (journal.getElem?_relation has)
  · have none : journal.relation.pages[block.toNat]? = none :=
      List.getElem?_eq_none (by rwa [length_relation])
    rw [outcome_cons_of_lacks lacks, Contents.page, present]
    simp [none]

theorem count_eq
    {journal : Journal}
    {held : Contents}
    {relation : RelationId}
    (present : held relation = some journal.relation) :
    held.count relation = toBlockNumber journal.length := by
  simp [Contents.count, present]

end Journal

end ObliviousStorage

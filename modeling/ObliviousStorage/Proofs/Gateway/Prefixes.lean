import ObliviousStorage.Proofs.Gateway.Screening
import ObliviousStorage.Proofs.Storage.Failures
import ObliviousStorage.Proofs.Storage.Tails

/-!
Contract: how far a request to establish a file gets on a store that fails some of its calls.

Owns: `ExtendsUntil`, the loop that adds blocks without any limit to how many, and that adding
them with a limit is this loop, which ends; `HoldsPrefix`, what a relation holds after some of the
images of a request were written to it; and that a request on a sound store which follows a plan
of failures writes all of its images, or stops with a fault of the plan at one of them and leaves
those before it.

Does not own: requests whose images are refused.
-/

namespace ObliviousStorage

open StorageM StorageView

namespace Gateway

/-! ## Adding blocks -/

section Extending

variable {σ : Type} [Storage σ]

/-- The loop that extends a relation until it has a block: from `state` it leads to this outcome
and this state. -/
inductive ExtendsUntil (relation : RelationId) (block : BlockNumber) :
    (state : σ) → Except Fault Unit → (left : σ) → Prop where
  | refused
      {state left : σ}
      {fault : Fault}
      (ran :
        (Storage.extend relation : StorageM σ BlockNumber).runOn state = (.error fault, left)) :
      ExtendsUntil relation block state (.error fault) left
  | reached
      {state left : σ}
      {added : BlockNumber}
      (ran : (Storage.extend relation : StorageM σ BlockNumber).runOn state = (.ok added, left))
      (enough : ¬added < block) :
      ExtendsUntil relation block state (.ok ()) left
  | again
      {state between left : σ}
      {added : BlockNumber}
      {outcome : Except Fault Unit}
      (ran :
        (Storage.extend relation : StorageM σ BlockNumber).runOn state = (.ok added, between))
      (more : added < block)
      (later : ExtendsUntil relation block between outcome left) :
      ExtendsUntil relation block state outcome left

variable {relation : RelationId} {block : BlockNumber} {limit : Nat}

/-- The loop leads to one outcome and one state. -/
theorem ExtendsUntil.unique
    {state left otherLeft : σ}
    {outcome other : Except Fault Unit}
    (loop : ExtendsUntil relation block state outcome left)
    (otherLoop : ExtendsUntil relation block state other otherLeft) :
    outcome = other ∧ left = otherLeft := by
  induction loop with
  | refused ran =>
      cases otherLoop with
      | refused otherRan => simpa [ran] using otherRan
      | reached otherRan => simp [ran] at otherRan
      | again otherRan => simp [ran] at otherRan
  | reached ran enough =>
      cases otherLoop with
      | refused otherRan => simp [ran] at otherRan
      | reached otherRan => exact ⟨rfl, congrArg Prod.snd (ran.symm.trans otherRan)⟩
      | again otherRan more =>
          have same := congrArg Prod.fst (ran.symm.trans otherRan)
          exact absurd (Except.ok.inj same ▸ more) enough
  | again ran more later inductionHypothesis =>
      cases otherLoop with
      | refused otherRan => simp [ran] at otherRan
      | reached otherRan enough =>
          have same := congrArg Prod.fst (ran.symm.trans otherRan)
          exact absurd (Except.ok.inj same ▸ more) enough
      | again otherRan _ otherLater =>
          obtain rfl : _ = _ := congrArg Prod.snd (ran.symm.trans otherRan)
          exact inductionHypothesis otherLater

/-- One round of the loop, if the rounds after it are left to the rest of the limit. -/
theorem extendTo_succ_extendsUntil
    {state : σ}
    (later :
      ∀ added between,
        (Storage.extend relation : StorageM σ BlockNumber).runOn state = (.ok added, between) →
          added < block →
            (extendTo relation block limit : StorageM σ Unit).Yields between
              (ExtendsUntil relation block between)) :
    (extendTo relation block (limit + 1) : StorageM σ Unit).Yields state
      (ExtendsUntil relation block state) := by
  have begins :
      (Storage.extend relation : StorageM σ BlockNumber).Yields state fun outcome between =>
        (Storage.extend relation : StorageM σ BlockNumber).runOn state = (outcome, between) :=
    rfl
  apply yields_bind begins
  · intro added between ran
    split
    · next more =>
        exact (later added between ran more).weaken fun _ _ loop => .again ran more loop
    · next enough => exact yields_pure (.reached ran enough)
  · exact fun _ _ ran => .refused ran

/-- A limit to the number of rounds that is above the number of the block is not noticed: the loop
ends within it. -/
theorem extendTo_extendsUntil
    [LawfulStorage σ]
    {state : σ}
    (enough :
      ∀ found, contents state relation = some found → block.toNat ≤ found.pages.length + limit) :
    (extendTo relation block (limit + 1) : StorageM σ Unit).Yields state
      (ExtendsUntil relation block state) := by
  induction limit generalizing state with
  | zero =>
      apply extendTo_succ_extendsUntil
      intro added between ran more
      obtain ⟨found, present, number, -⟩ := (LawfulStorage.extend_law state relation).runOn ran
      have last := enough found present
      rw [UInt32.lt_iff_toNat_lt, number] at more
      exact absurd more (Nat.not_lt_of_le last)
  | succ limit inductionHypothesis =>
      apply extendTo_succ_extendsUntil
      intro added between ran more
      obtain ⟨found, present, number, became⟩ := (LawfulStorage.extend_law state relation).runOn ran
      -- The block that was added is one fewer for the rest of the limit.
      apply inductionHypothesis
      intro longer presentBetween
      rw [became.holds, Contents.put_same] at presentBetween
      rw [← Option.some.inj presentBetween, Relation.length_extended]
      have before := enough found present
      omega

/-- Whatever the store does, the loop that adds the blocks before an image ends, and the limit that
it is given changes nothing. -/
theorem runOn_extendTo_iff
    [LawfulStorage σ]
    (relation : RelationId)
    (block : BlockNumber)
    (state : σ)
    (outcome : Except Fault Unit)
    (left : σ) :
    (extendTo relation block (block.toNat + 1) : StorageM σ Unit).runOn state = (outcome, left) ↔
      ExtendsUntil relation block state outcome left := by
  have ends :
      (extendTo relation block (block.toNat + 1) : StorageM σ Unit).Yields state
        (ExtendsUntil relation block state) :=
    extendTo_extendsUntil fun _ _ => Nat.le_add_left ..
  constructor
  · exact fun ran => ends.runOn ran
  · intro loop
    obtain ⟨sameOutcome, sameLeft⟩ := ExtendsUntil.unique ends loop
    exact Prod.ext sameOutcome sameLeft

end Extending

end Gateway

/-! ## Images of which some were written -/

/-- What is left of a relation after `placed` of these images were written to it from block `start`
on. -/
structure Relation.HoldsPrefix
    (before after : Relation)
    (start : Nat)
    (images : List Page)
    (placed : Nat) : Prop where
  written :
    ∀ index image, index < placed → images[index]? = some image →
      after.pages[start + index]? = some image
  kept :
    ∀ block page, ¬(start ≤ block ∧ block < start + placed) → before.pages[block]? = some page →
      after.pages[block]? = some page
  /-- The blocks that were added are zero-filled, but for the first of them if an extension of the
  relation would not have added a zero-filled one. -/
  added :
    ∀ block, ¬(start ≤ block ∧ block < start + placed) → before.pages.length ≤ block →
      block < after.pages.length →
        after.pages[block]? =
          some (if block = before.pages.length then before.blank else Page.zero)
  grown : before.pages.length ≤ after.pages.length

/-- All images were written. -/
structure Relation.FilledBy (before after : Relation) (start : Nat) (images : List Page) : Prop where
  holds : before.HoldsPrefix after start images images.length
  unchanged : images = [] → after = before
  length : images ≠ [] → after.pages.length = max before.pages.length (start + images.length)

/-- The image behind the first `placed` ones could not be written. -/
structure Relation.CutShort
    (before after : Relation)
    (start : Nat)
    (images : List Page)
    (placed : Nat) : Prop where
  within : placed < images.length
  holds : before.HoldsPrefix after start images placed
  length : after.pages.length ≤ max before.pages.length (start + placed + 1)

namespace Journal

variable {file : Relation} {start : Nat} {images : List Page} {placed : Nat}

/-- A journal that begins with a file and has these images in their blocks is such a relation. -/
theorem holdsPrefix_of_blocks
    {journal : Journal}
    (first : journal.first = file)
    (reached : ∀ index, index < placed → start + index < journal.length)
    (blocks :
      ∀ block, journal.block block =
        if start ≤ block ∧ block < start + placed then
          images.getD (block - start) Page.zero
        else
          file.initial block) :
    file.HoldsPrefix journal.relation start images placed where
  written index image among there := by
    have has := reached index among
    rw [getElem?_relation _ has, blocks, if_pos (by omega), Nat.add_sub_cancel_left,
      List.getD_eq_getElem?_getD, there, Option.getD_some]
  kept block page outside there := by
    have inside := (List.getElem?_eq_some_iff.mp there).1
    have has := Nat.lt_of_lt_of_le (first ▸ inside) journal.grown
    rw [getElem?_relation _ has, blocks, if_neg outside, Relation.initial,
      List.getD_eq_getElem?_getD, there, Option.getD_some]
  added block outside beyond has := by
    rw [length_relation] at has
    rw [getElem?_relation _ has, blocks, if_neg outside, Relation.initial,
      List.getD_eq_getElem?_getD, List.getElem?_eq_none beyond, Option.getD_none]
  grown := by
    rw [length_relation, ← first]
    exact journal.grown

theorem filledBy_place (file : Relation) (start : Nat) (images : List Page) :
    file.FilledBy ((Journal.start file).place start images).relation start images where
  holds := by
    apply holdsPrefix_of_blocks (first_place (Journal.start file) start images)
    · intro index among
      rw [length_place_of_ne_nil _ (List.ne_nil_of_length_pos (by omega))]
      omega
    · exact block_place (Journal.start file) start images
  unchanged none := by rw [none, place, relation_start]
  length some := by
    rw [length_relation, length_place_of_ne_nil _ some]
    rfl

/-- What is left if blocks were added behind the first images, at most up to the next one. -/
theorem cutShort_place
    (file : Relation)
    {length : Nat}
    (within : placed < images.length)
    (below : length ≤ start + placed + 1) :
    file.CutShort
      (((Journal.start file).place start (images.take placed)).growTo length).relation start images
      placed := by
  have taken : (images.take placed).length = placed := List.length_take_of_le (Nat.le_of_lt within)
  have reached (some : 0 < placed) :
      ((Journal.start file).place start (images.take placed)).length =
        max file.pages.length (start + placed) := by
    rw [length_place_of_ne_nil _ (List.ne_nil_of_length_pos (by omega)), taken]
    rfl
  exact {
    within := within
    holds := by
      apply holdsPrefix_of_blocks
      · exact first_place (Journal.start file) start (images.take placed)
      · intro index among
        have enough := reached (Nat.zero_lt_of_lt among)
        exact Nat.lt_of_lt_of_le (by omega) (Nat.le_max_left ..)
      · intro block
        have held := block_place (Journal.start file) start (images.take placed) block
        rw [taken] at held
        refine held.trans ?_
        split
        · next among =>
            rw [List.getD_eq_getElem?_getD, List.getElem?_take_of_lt (by omega),
              ← List.getD_eq_getElem?_getD]
        · rfl
    length := by
      rw [length_relation]
      refine Nat.max_le.mpr ⟨?_, by omega⟩
      rcases Nat.eq_zero_or_pos placed with rfl | some
      · exact Nat.le_max_left ..
      · rw [reached some]
        omega }

end Journal

namespace Gateway

section Prefixes

variable {σ : Type} [Storage σ]

theorem extendTo_failsByPlan (relation : RelationId) (block : BlockNumber) (limit : Nat) :
    Faulty.FailsByPlan σ (extendTo relation block limit) (extendTo relation block limit) := by
  induction limit with
  | zero => exact .ofPure ()
  | succ limit inductionHypothesis =>
      refine .bind (.ofGuarded _ _) fun added => ?_
      split
      · exact inductionHypothesis
      · exact .ofPure ()

theorem ensureBlock_failsByPlan (relation : RelationId) (existing block : BlockNumber) :
    Faulty.FailsByPlan σ (ensureBlock relation existing block)
      (ensureBlock relation existing block) := by
  unfold ensureBlock
  split
  · exact extendTo_failsByPlan relation block _
  · exact .ofPure ()

theorem placeImages_failsByPlan
    (relation : RelationId)
    (existing : BlockNumber)
    (block : Nat)
    (images : List Page) :
    Faulty.FailsByPlan σ (placeImages relation existing block images)
      (placeImages relation existing block images) := by
  induction images generalizing block with
  | nil => exact .ofPure ()
  | cons image rest inductionHypothesis =>
      refine .bind (ensureBlock_failsByPlan relation existing _) fun _ => ?_
      exact .bind (.ofGuarded _ _) fun _ => inductionHypothesis (block + 1)

variable [LawfulStorage σ] {store : Faulty σ} {relation : RelationId} {file : Relation}

/-- A plan of failures does not touch the counting of blocks. -/
theorem count_planned (sound : Sound store.inner) (relation : RelationId) :
    (Storage.blockCount relation : StorageM (Faulty σ) BlockNumber).Yields store
      fun outcome left =>
        outcome = (contents store).count relation ∧ left.plan = store.plan ∧ Sound left.inner ∧
          contents left = contents store := by
  obtain ⟨counted, soundLeft, same⟩ := count_answers sound relation
  exact ⟨counted, rfl, soundLeft, same⟩

/-- Writing images to a relation writes all of them, or stops with a fault of the plan. -/
theorem fill_planned
    {start : BlockNumber}
    {images : List Page}
    (sound : Sound store.inner)
    (present : contents store relation = some file)
    (few : file.pages.length < blockNumberBound)
    (ranged : start.toNat + images.length < blockNumberBound) :
    (fill relation start images : StorageM (Faulty σ) Unit).Yields store
      (either
        (fun _ left =>
          contents left =
            (contents store).put relation ((Journal.start file).place start.toNat images).relation)
        fun fault left =>
          store.plan.Injects fault ∧
            ∃ placed length, placed < images.length ∧ length ≤ start.toNat + placed + 1 ∧
              contents left =
                (contents store).put relation
                  (((Journal.start file).place start.toNat (images.take placed)).growTo
                    length).relation) := by
  have counts := count_planned sound relation
  have number := UInt32.toNat_ofNat_of_lt' few
  rw [Contents.count_eq_ok_iff.mpr ⟨file, present, number.symm⟩] at counts
  refine yields_bind_value counts ?_
  rintro between ⟨samePlan, soundBetween, same⟩
  have journalled : contents between relation = some (Journal.start file).relation := by
    rw [same, present, Journal.relation_start]
  have filled :
      (Journal.start file).length ≤ max (UInt32.ofNat file.pages.length).toNat start.toNat := by
    rw [number]
    exact Nat.le_max_left ..
  have unplanned :
      (placeImages relation (UInt32.ofNat file.pages.length) start.toNat images :
          StorageM σ Unit).Yields between.inner _ :=
    placeImages_places soundBetween journalled (Nat.le_of_eq number) filled ranged
  apply ((placeImages_extends journalled (Nat.le_of_eq number) filled ranged).and
    (placeImages_failsByPlan relation _ start.toNat images between)).weaken
  intro outcome left holds
  rcases holds with ⟨places, -, how⟩
  cases outcome with
  | ok done => exact places.holds.trans (by rw [same])
  | error fault =>
      obtain ⟨-, placed, length, within, below, became⟩ := places
      rcases how with passed | ⟨other, refused, injected⟩
      · exact absurd (unplanned.runOn passed.symm).1 (by simp)
      · obtain rfl := Except.error.inj refused
        rw [samePlan] at injected
        exact ⟨injected, placed, length, within, below, by rw [became.holds, same]⟩

/-- A request to establish a file, on a sound store that fails calls by any plan, writes all of its
images or, if a call fails, those before one of them. It changes no other block of the file and no
other relation. Blocks that it adds besides are zero-filled, but for the first of them if the file
would not have been extended by a zero-filled one. The loop that adds them always ends. -/
theorem establish_writes_prefix
    {gateway : Gateway}
    {name : String}
    {buffer : Buffer}
    {count : BlockNumber}
    {requestedBlockSize : Nat}
    {start : BlockNumber}
    {role : FileRole}
    (admits : gateway.Admits store name buffer count requestedBlockSize start role)
    (sound : Sound store.inner)
    (present : contents store (gateway.session.relation role) = some file)
    (few : file.pages.length < blockNumberBound)
    (acceptable : ∀ image ∈ Page.allOf buffer, Acceptable image) :
    (establish name buffer count requestedBlockSize start :
          StorageM (Gateway × Faulty σ) Unit).Yields (gateway, store)
        (either
          (fun _ left =>
            ∃ after,
              contents left.2 =
                  (contents store).put (gateway.session.relation role) after ∧
                file.FilledBy after start.toNat (Page.allOf buffer))
          fun fault left =>
            store.plan.Injects fault ∧
              ∃ placed after,
                contents left.2 =
                    (contents store).put (gateway.session.relation role) after ∧
                  file.CutShort after start.toNat (Page.allOf buffer) placed) ∧
      ∀ (block : BlockNumber) (state : Faulty σ) (outcome : Except Fault Unit) (left : Faulty σ),
        (extendTo (gateway.session.relation role) block (block.toNat + 1) :
              StorageM (Faulty σ) Unit).runOn state = (outcome, left) ↔
          ExtendsUntil (gateway.session.relation role) block state outcome left := by
  have accepted := requireWellFormed_eq_ok acceptable start.toNat
  have ranged : start.toNat + (Page.allOf buffer).length < blockNumberBound := by
    rw [admits.length_images]
    exact admits.ranged
  refine ⟨?_, runOn_extendTo_iff _⟩
  apply establish_yields_of_admits admits
  · intro fault malformed
    exact absurd (accepted.symm.trans malformed) (by simp)
  · intro _
    apply (fill_planned sound present few ranged).weaken
    intro outcome left holds
    cases outcome with
    | ok done => exact ⟨_, holds, Journal.filledBy_place file start.toNat _⟩
    | error fault =>
        obtain ⟨injected, placed, length, within, below, holds⟩ := holds
        exact ⟨injected, placed, _, holds, Journal.cutShort_place file within below⟩

end Prefixes

/-! ## Two small files -/

/-- A store in memory with two empty relations that fails every write after the first one. -/
def failingStore : Faulty MemoryStorage :=
  Faulty.start (FaultBudget.plan ⟨none, none, none, some 1, none⟩) pairStore

/-- Two dummy pages. -/
def dummyBuffer : Buffer := Page.dummy.toBuffer ++ Page.dummy.toBuffer

/-- The store after two images were to be written to its first relation from block one on: the
second one was refused, and its block is zero-filled. -/
def cutStore (image : Page) : Faulty MemoryStorage :=
  ⟨⟨blockSize, #[#[Page.zero, image, Page.zero], #[]]⟩, failingStore.plan, ⟨0, 3, 0, 2⟩, 1⟩

theorem fill_failingStore (image : Page) :
    (fill 1 1 [image, image] : StorageM (Faulty MemoryStorage) Unit).runOn failingStore =
      (.error .allocationFailure, cutStore image) := rfl

theorem contents_cutStore (image : Page) :
    contents (cutStore image) 1 = some ⟨[Page.zero, image, Page.zero], Page.zero⟩ := rfl

/-- If the second of two images is refused, one was placed. -/
theorem cutShort_of_cutStore
    {action : StorageM (Gateway × Faulty MemoryStorage) Unit}
    {state : Gateway × Faulty MemoryStorage}
    {Filled : Gateway × Faulty MemoryStorage → Prop}
    {image : Page}
    (cuts :
      action.Yields state fun outcome left =>
        outcome = .error .allocationFailure ∧ left.2 = cutStore image)
    (writes :
      action.Yields state
        (either (fun _ left => Filled left)
          fun fault left =>
            failingStore.plan.Injects fault ∧
              ∃ placed after,
                contents left.2 = (contents failingStore).put 1 after ∧
                  Relation.created.CutShort after 1 [image, image] placed)) :
    action.Yields state fun outcome left =>
      outcome = .error .allocationFailure ∧
        failingStore.plan.Injects .allocationFailure ∧
          contents left.2 =
              (contents failingStore).put 1 ⟨[Page.zero, image, Page.zero], Page.zero⟩ ∧
            Relation.created.CutShort ⟨[Page.zero, image, Page.zero], Page.zero⟩ 1 [image, image]
              1 := by
  apply (writes.and cuts).weaken
  intro outcome left holds
  obtain ⟨stops, rfl, cut⟩ := holds
  obtain ⟨injects, placed, after, leaves, short⟩ := stops
  have same : after = ⟨[Page.zero, image, Page.zero], Page.zero⟩ := by
    have found := congrFun leaves 1
    rw [cut, contents_cutStore, Contents.put_same] at found
    exact (Option.some.inj found).symm
  subst same
  -- Three blocks are more than there are without an image.
  have one : placed = 1 := by
    have within : placed < 2 := short.within
    have length : 3 ≤ max 0 (1 + placed + 1) := short.length
    omega
  exact ⟨rfl, injects, leaves, one ▸ short⟩

/-- The first of two images is written behind a block that is added for the gap, the second one is
refused. -/
theorem establish_writes_prefix_failing :
    (Gateway.opened pairSession).Admits failingStore "t" dummyBuffer 2 blockSize 1 .table ∧
      Sound failingStore.inner ∧
        contents failingStore 1 = some .created ∧
          Relation.created.pages.length < blockNumberBound ∧
          (∀ image ∈ Page.allOf dummyBuffer, Acceptable image) ∧
            (establish "t" dummyBuffer 2 blockSize 1 :
                  StorageM (Gateway × Faulty MemoryStorage) Unit).Yields
                (Gateway.opened pairSession, failingStore)
                (fun outcome left =>
                  outcome = .error .allocationFailure ∧
                    failingStore.plan.Injects .allocationFailure ∧
                      contents left.2 =
                          (contents failingStore).put 1
                            ⟨[Page.zero, Page.dummy, Page.zero], Page.zero⟩ ∧
                        Relation.created.CutShort ⟨[Page.zero, Page.dummy, Page.zero], Page.zero⟩
                          1 [Page.dummy, Page.dummy] 1) ∧
              ∀ (block : BlockNumber) (state : Faulty MemoryStorage)
                (outcome : Except Fault Unit) (left : Faulty MemoryStorage),
                (extendTo 1 block (block.toNat + 1) :
                      StorageM (Faulty MemoryStorage) Unit).runOn state = (outcome, left) ↔
                  ExtendsUntil 1 block state outcome left := by
  have images : Page.allOf dummyBuffer = [Page.dummy, Page.dummy] := by
    rw [dummyBuffer, Page.allOf_append, Page.allOf_toBuffer]
  have admits :
      (Gateway.opened pairSession).Admits failingStore "t" dummyBuffer 2 blockSize 1 .table := by
    refine ⟨⟨rfl, rfl, ?_, rfl⟩, by decide⟩
    rw [dummyBuffer, Array.size_append, Page.size_toBuffer]
    rfl
  have sound : Sound failingStore.inner := rfl
  have present : contents failingStore 1 = some .created := rfl
  have few : Relation.created.pages.length < blockNumberBound := by decide
  have acceptable : ∀ image ∈ Page.allOf dummyBuffer, Acceptable image := by
    rw [images]
    intro image member
    simp only [List.mem_cons, List.not_mem_nil, or_false, or_self] at member
    rw [member]
    exact acceptable_forRecords dummyIdentity
  have relation : (Gateway.opened pairSession).session.relation .table = 1 := rfl
  have start : (1 : BlockNumber).toNat = 1 := rfl
  have writes := establish_writes_prefix admits sound present few acceptable
  have cuts :
      (establish "t" dummyBuffer 2 blockSize 1 :
            StorageM (Gateway × Faulty MemoryStorage) Unit).Yields
        (Gateway.opened pairSession, failingStore) fun outcome left =>
          outcome = .error .allocationFailure ∧ left.2 = cutStore Page.dummy := by
    apply establish_yields_of_admits admits
    · intro fault malformed
      have accepted := requireWellFormed_eq_ok acceptable (1 : BlockNumber).toNat
      exact absurd (accepted.symm.trans malformed) (by simp)
    · intro _
      rw [relation, images]
      exact yields_of_runOn (fill_failingStore Page.dummy) ⟨rfl, rfl⟩
  rw [relation, start, images] at writes
  exact
    ⟨admits, sound, present, few, acceptable, writes.imp_left (cutShort_of_cutStore cuts)⟩

/-- The block that bridges the gap before an image need not be zero-filled: not if the file ended
with a part of a block. -/
theorem not_gap_zero :
    contents (FileStorage.openAt partDirectory) 1 = some (fileRelation #[7]) ∧
      (fileRelation #[7]).pages.length = 0 ∧
        (establish "t" Page.dummy.toBuffer 1 blockSize 1 :
              StorageM (Gateway × FileStorage) Unit).Yields
            (Gateway.opened pairSession, FileStorage.openAt partDirectory) fun outcome left =>
          outcome = .ok () ∧
            ∃ page, (contents left.2).page 1 0 = .ok page ∧ page ≠ Page.zero := by
  have admits :
      (Gateway.opened pairSession).Admits (FileStorage.openAt partDirectory) "t"
        Page.dummy.toBuffer 1 blockSize 1 .table := by
    refine ⟨⟨rfl, rfl, ?_, rfl⟩, by decide⟩
    rw [Page.size_toBuffer]
    rfl
  have present :
      contents (FileStorage.openAt partDirectory)
          ((Gateway.opened pairSession).session.relation .table) =
        some (fileRelation #[7]) :=
    rfl
  have whole : (#[7] : Buffer).size / blockSize = 0 := by decide
  have length : (fileRelation #[7]).pages.length = 0 := (length_fileRelation _).trans whole
  have acceptable : ∀ image ∈ Page.allOf Page.dummy.toBuffer, Acceptable image := by
    rw [Page.allOf_toBuffer]
    exact fun image member => List.mem_singleton.mp member ▸ acceptable_forRecords _
  have few : (fileRelation #[7]).pages.length < blockNumberBound := by
    rw [length]
    decide
  refine ⟨present, length, ?_⟩
  apply (establish_places admits partDirectory_sound present few acceptable).weaken
  intro outcome left places
  rcases places with ⟨done, holds⟩
  have filled :=
    Journal.filledBy_place (fileRelation #[7]) (1 : BlockNumber).toNat
      (Page.allOf Page.dummy.toBuffer)
  have placed := congrFun holds 1
  generalize ((Journal.start (fileRelation #[7])).place (1 : BlockNumber).toNat
    (Page.allOf Page.dummy.toBuffer)).relation = after at filled placed
  have some : Page.allOf Page.dummy.toBuffer ≠ [] := by simp [Page.allOf_toBuffer]
  have longer : 0 < after.pages.length := by
    rw [filled.length some, Page.allOf_toBuffer]
    exact Nat.lt_of_lt_of_le (Nat.succ_pos 1) (Nat.le_max_right ..)
  have before :
      ¬((1 : BlockNumber).toNat ≤ 0 ∧
        0 < (1 : BlockNumber).toNat + (Page.allOf Page.dummy.toBuffer).length) :=
    fun inside => absurd inside.1 (by decide)
  have gap := filled.holds.added 0 before (Nat.le_of_eq length) longer
  rw [if_pos length.symm] at gap
  refine ⟨done, _, Contents.page_of_some placed gap, fun zero => ?_⟩
  have behind : (#[7] : Buffer).size / blockSize * blockSize ≤ 0 :=
    Nat.le_of_eq (by rw [whole, Nat.zero_mul])
  have blank := (blank_eq_zero_iff #[7]).mp zero 0 behind
  exact absurd blank (by decide)

end Gateway

end ObliviousStorage

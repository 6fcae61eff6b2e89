import ObliviousStorage.Index.Layout
import ObliviousStorage.Proofs.Index.Building
import ObliviousStorage.Proofs.Index.Groups
import ObliviousStorage.Proofs.Storage.Accepted

/-!
Contract: the pages that building an index leaves.

Owns: the page that a group of entries goes on; the pages of a level, in the blocks that
were taken for them; `Stacked`, the levels of an index one above the other, each referring
to the one below; how many pages each level takes; and that building from sorted entries
on a sound store succeeds and leaves exactly such a stack behind its metapage.

Does not own: what is found in it.
-/

namespace ObliviousStorage.Index

open StorageM StorageView

/-! ## Capacities -/

namespace Builder

theorem create_eq_ok_iff
    {leaf inner : Nat}
    {builder : Builder} :
    create leaf inner = .ok builder ↔
      builder.leafCapacity = leaf ∧ builder.innerCapacity = inner ∧
        leaf ≤ mostEntries ∧ inner ≤ mostEntries := by
  rw [create]
  constructor
  · intro created
    split at created
    · next valid =>
        obtain rfl := Except.ok.inj created
        exact ⟨rfl, rfl, valid.2.2⟩
    · exact absurd created (by simp)
  · rintro ⟨rfl, rfl, fits⟩
    rw [dif_pos ⟨builder.leaf_pos, builder.inner_two, fits⟩]

theorem inner_pos (builder : Builder) : 0 < builder.innerCapacity :=
  Nat.lt_of_lt_of_le (by decide) builder.inner_two

/-- A page has room for a bound and as many entries as a builder may put on it. -/
theorem room_of_le_mostEntries
    {entries : Nat}
    (few : entries ≤ mostEntries) :
    (1 + entries) * (Page.slotSize + Entry.size) ≤
      blockSize - Page.headerSize - Trailer.size := by
  simp only [mostEntries, blockSize, Page.headerSize, Trailer.size, Page.slotSize,
    Entry.size] at few ⊢
  omega

/-- The pages that it takes to refer to so many pages. -/
def parentCount (builder : Builder) (pages : Nat) : Nat :=
  (pages + builder.innerCapacity - 1) / builder.innerCapacity

theorem parentCount_lt
    (builder : Builder)
    {pages : Nat}
    (several : 1 < pages) :
    builder.parentCount pages < pages := by
  have two := builder.inner_two
  obtain ⟨more, rfl⟩ : ∃ more, pages = more + 1 := ⟨pages - 1, by omega⟩
  have least : more * 2 ≤ more * builder.innerCapacity := Nat.mul_le_mul_left more two
  rw [parentCount, Nat.div_lt_iff_lt_mul builder.inner_pos, Nat.succ_mul]
  omega

theorem parentCount_pos
    (builder : Builder)
    {pages : Nat}
    (some : 0 < pages) :
    0 < builder.parentCount pages := by
  rw [parentCount, Nat.div_pos_iff]
  have two := builder.inner_two
  omega

/-- The pages on each level, from one that has so many up to the root's. -/
def levelCounts (builder : Builder) (pages : Nat) : List Nat :=
  if _several : 1 < pages then
    pages :: builder.levelCounts (builder.parentCount pages)
  else
    [pages]
termination_by pages
decreasing_by exact builder.parentCount_lt _several

/-- The leaves that so many entries take. -/
def leafCount (builder : Builder) (entries : Nat) : Nat :=
  max 1 ((entries + builder.leafCapacity - 1) / builder.leafCapacity)

theorem length_leafGroups (builder : Builder) (entries : List Entry) :
    (builder.leafGroups entries).length = builder.leafCount entries.length := by
  have positive := builder.leaf_pos
  cases entries with
  | nil =>
      have none : (0 + builder.leafCapacity - 1) / builder.leafCapacity = 0 :=
        Nat.div_eq_of_lt (by omega)
      rw [leafCount, List.length_nil, none]
      rfl
  | cons first rest =>
      have some : 1 ≤ (rest.length + 1 + builder.leafCapacity - 1) / builder.leafCapacity := by
        rw [Nat.le_div_iff_mul_le positive]
        omega
      rw [leafCount, leafGroups, List.length_cons, Nat.max_eq_right some]
      exact length_groupsOf positive _

theorem length_le_of_mem_leafGroups
    {builder : Builder}
    {entries group : List Entry}
    (member : group ∈ builder.leafGroups entries) :
    group.length ≤ builder.leafCapacity := by
  rw [leafGroups] at member
  split at member
  · rw [List.mem_singleton.mp member]
    exact Nat.zero_le _
  · exact length_le_of_mem_groupsOf builder.leaf_pos member

theorem mem_of_mem_leafGroups
    {builder : Builder}
    {entries group : List Entry}
    (member : group ∈ builder.leafGroups entries)
    {entry : Entry}
    (among : entry ∈ group) :
    entry ∈ entries := by
  rw [leafGroups] at member
  split at member
  · rw [List.mem_singleton.mp member] at among
    exact absurd among List.not_mem_nil
  · exact (sublist_of_mem_groupsOf builder.leaf_pos member).subset among

/-! ## The pages of a level -/

/-- So many blocks that follow each other. -/
def blocksFrom (start count : Nat) : List BlockNumber :=
  (List.range' start count).map UInt32.ofNat

@[simp] theorem length_blocksFrom (start count : Nat) :
    (blocksFrom start count).length = count := by
  simp [blocksFrom]

theorem blocksFrom_succ (start count : Nat) :
    blocksFrom start (count + 1) = UInt32.ofNat start :: blocksFrom (start + 1) count := by
  rw [blocksFrom, List.range'_succ, List.map_cons]
  rfl

/-- The page that a group of entries goes on. -/
def groupPage
    (level : Nat)
    (flags : UInt16)
    (previous next : BlockNumber)
    (group : List Entry)
    (right : Option (List Entry)) :
    Page :=
  entryPage (.unplaced previous next (UInt32.ofNat level) flags)
    ((right.map boundEntry).toList ++ group)

theorem groupPage_builtOf
    {group : List Entry}
    (few : group.length ≤ mostEntries)
    (level : Nat)
    (flags : UInt16)
    (previous next : BlockNumber)
    (right : Option (List Entry)) :
    levelPage level flags previous next group right =
        .ok (groupPage level flags previous next group right) ∧
      BuiltOf (groupPage level flags previous next group right)
        (.unplaced previous next (UInt32.ofNat level) flags)
        ((right.map boundEntry).toList ++ group) := by
  refine pageOf_builtOf _ _ (Nat.le_trans (Nat.mul_le_mul_right _ ?_) (room_of_le_mostEntries few))
  rw [List.length_append]
  cases right <;> simp

/-- The pages of a level in the order of its groups, each linked to its neighbours; to the
left of the first one is `previous`. -/
def levelPages (level : Nat) (flags : UInt16) :
    (previous : BlockNumber) →
      (blocks : List BlockNumber) → (groups : List (List Entry)) → List Page
  | previous, block :: blocks, group :: groups =>
      groupPage level flags previous (blocks.head?.getD noSibling) group groups.head? ::
        levelPages level flags block blocks groups
  | _, _, _ => []

theorem length_levelPages
    (level : Nat)
    (flags : UInt16)
    (previous : BlockNumber)
    (start : Nat)
    (groups : List (List Entry)) :
    (levelPages level flags previous (blocksFrom start groups.length) groups).length =
      groups.length := by
  induction groups generalizing previous start with
  | nil => rfl
  | cons group groups inductionHypothesis =>
      rw [List.length_cons, blocksFrom_succ, levelPages, List.length_cons, inductionHypothesis]

/-- What is on each page of a level. -/
theorem getElem?_levelPages
    (level : Nat)
    (flags : UInt16)
    (previous : BlockNumber)
    (start : Nat)
    (groups : List (List Entry))
    (index : Nat) :
    (levelPages level flags previous (blocksFrom start groups.length) groups)[index]? =
      groups[index]?.map fun group =>
        groupPage level flags
          (if index = 0 then previous else UInt32.ofNat (start + index - 1))
          (if index + 1 < groups.length then UInt32.ofNat (start + index + 1) else noSibling)
          group groups[index + 1]? := by
  induction groups generalizing previous start index with
  | nil => rfl
  | cons group groups inductionHypothesis =>
      rw [List.length_cons, blocksFrom_succ, levelPages]
      cases index with
      | zero =>
          cases groups with
          | nil => rfl
          | cons second groups =>
              rw [List.length_cons, blocksFrom_succ]
              simp
      | succ index =>
          rw [List.getElem?_cons_succ, List.getElem?_cons_succ, List.getElem?_cons_succ,
            inductionHypothesis]
          have place : start + (index + 1) + 1 = start + 1 + index + 1 := by omega
          have inside : index + 1 + 1 < groups.length + 1 ↔ index + 1 < groups.length := by omega
          simp only [place, inside, Nat.succ_ne_zero, ↓reduceIte]
          cases index with
          | zero => rfl
          | succ index =>
              have before : start + 1 + (index + 1) - 1 = start + (index + 1 + 1) - 1 := by omega
              simp only [before, Nat.succ_ne_zero, ↓reduceIte]

/-- The pages of a whole level. -/
abbrev wholeLevel (level start : Nat) (groups : List (List Entry)) : List Page :=
  levelPages level (levelFlags level groups.length) noSibling (blocksFrom start groups.length)
    groups

/-! ## Levels one above the other -/

/-- The pages from a level up to the root's are these, the level's first one in block
`start`, and the metapage leads to the last of them. -/
inductive Stacked (builder : Builder) :
    (level start : Nat) →
      (groups : List (List Entry)) → (pages : List Page) → (metapage : Metapage) → Prop
  | top {level start : Nat} (group : List Entry) :
      Stacked builder level start [group] (wholeLevel level start [group])
        ⟨UInt32.ofNat start, UInt32.ofNat level⟩
  | under
      {level start : Nat}
      {groups : List (List Entry)}
      {pages : List Page}
      {metapage : Metapage}
      (several : 1 < groups.length)
      (above :
        Stacked builder (level + 1) (start + groups.length)
          (groupsOf builder.innerCapacity
            (parentEntries (blocksFrom start groups.length) groups))
          pages metapage) :
      Stacked builder level start groups (wholeLevel level start groups ++ pages) metapage

theorem length_parentEntries (start : Nat) (groups : List (List Entry)) :
    (parentEntries (blocksFrom start groups.length) groups).length = groups.length := by
  simp [parentEntries]

/-- The level above refers to each page by its lowest key and its block. -/
theorem getElem?_parentEntries (start : Nat) (groups : List (List Entry)) (index : Nat) :
    (parentEntries (blocksFrom start groups.length) groups)[index]? =
      groups[index]?.map fun group => ⟨lowestKey group, UInt32.ofNat (start + index), 0⟩ := by
  rw [parentEntries, List.getElem?_map]
  rcases Nat.lt_or_ge index groups.length with inside | outside
  · have block :
        (blocksFrom start groups.length)[index]? = some (UInt32.ofNat (start + index)) := by
      rw [blocksFrom, List.getElem?_map, List.getElem?_range' inside, Nat.one_mul]
      rfl
    have pair :
        ((blocksFrom start groups.length).zip groups)[index]? =
          some (UInt32.ofNat (start + index), groups[index]) :=
      List.getElem?_zip_eq_some.mpr ⟨block, List.getElem?_eq_getElem inside⟩
    rw [pair, List.getElem?_eq_getElem inside]
    rfl
  · rw [List.getElem?_eq_none outside, List.getElem?_eq_none (by simpa using outside)]
    rfl

theorem map_key_parentEntries (start : Nat) (groups : List (List Entry)) :
    (parentEntries (blocksFrom start groups.length) groups).map Entry.key =
      groups.map lowestKey := by
  apply List.ext_getElem?
  intro index
  rw [List.getElem?_map, getElem?_parentEntries, List.getElem?_map, Option.map_map]
  rfl

theorem length_parentGroups (builder : Builder) (start : Nat) (groups : List (List Entry)) :
    (groupsOf builder.innerCapacity
        (parentEntries (blocksFrom start groups.length) groups)).length =
      builder.parentCount groups.length := by
  rw [length_groupsOf builder.inner_pos, length_parentEntries]
  rfl

theorem Stacked.length_pages
    {builder : Builder}
    {level start : Nat}
    {groups : List (List Entry)}
    {pages : List Page}
    {metapage : Metapage}
    (stacked : Stacked builder level start groups pages metapage) :
    pages.length = (builder.levelCounts groups.length).sum := by
  induction stacked with
  | top group =>
      rw [length_levelPages, levelCounts]
      rfl
  | under several above inductionHypothesis =>
      rw [List.length_append, length_levelPages, inductionHypothesis, length_parentGroups,
        levelCounts.eq_def _ (List.length _), dif_pos several, List.sum_cons]

theorem Stacked.length_groups_le
    {builder : Builder}
    {level start : Nat}
    {groups : List (List Entry)}
    {pages : List Page}
    {metapage : Metapage}
    (stacked : Stacked builder level start groups pages metapage) :
    groups.length ≤ pages.length := by
  cases stacked with
  | top group => exact Nat.le_refl 1
  | under several above =>
      rw [List.length_append, length_levelPages]
      exact Nat.le_add_right ..

/-- Every level that has a page has a stack above it. -/
theorem exists_stacked
    (builder : Builder)
    (level start : Nat)
    {groups : List (List Entry)}
    (some : 0 < groups.length) :
    ∃ pages metapage, Stacked builder level start groups pages metapage := by
  generalize counted : groups.length = count at some
  induction count using levelCounts.induct builder generalizing groups level start with
  | case1 count several inductionHypothesis =>
      subst counted
      obtain ⟨pages, metapage, above⟩ :=
        inductionHypothesis (level + 1) (start + groups.length)
          (length_parentGroups builder start groups) (builder.parentCount_pos some)
      exact ⟨_, metapage, .under several above⟩
  | case2 count notSeveral =>
      obtain ⟨group, rfl⟩ : ∃ group, groups = [group] := List.length_eq_one_iff.mp (by omega)
      exact ⟨_, _, .top group⟩

/-! ## Building them -/

section Building

variable
  {σ : Type}
  [Storage σ]
  [LawfulStorage σ]
  {held : Contents}
  {relation : RelationId}
  {done : List Page}
  {state : σ}

theorem takeBlocks_yields
    (groups : List (List Entry))
    (sound : Sound state)
    (holds : contents state = held.put relation ⟨done, Page.zero⟩)
    (few : done.length + groups.length < blockNumberBound) :
    (takeBlocks relation groups : StorageM σ (List BlockNumber)).Yields state fun outcome left =>
      outcome = .ok (blocksFrom done.length groups.length) ∧ Sound left ∧
        contents left =
          held.put relation ⟨done ++ List.replicate groups.length Page.zero, Page.zero⟩ := by
  induction groups generalizing done state with
  | nil => exact yields_pure ⟨rfl, sound, by simpa using holds⟩
  | cons group groups inductionHypothesis =>
      rw [List.length_cons] at few
      apply yields_bind_value
        (extend_of_sound sound holds (Contents.put_same ..)
          (show done.length + 1 < blockNumberBound by omega))
      rintro between ⟨stillSound, became⟩
      have grown : (done ++ [Page.zero]).length = done.length + 1 := List.length_append ..
      rw [Contents.put_put, Relation.extended] at became
      dsimp only at became
      apply yields_bind_value (inductionHypothesis stillSound became (by omega))
      rintro left ⟨leftSound, leftHolds⟩
      refine yields_pure ⟨?_, leftSound, ?_⟩
      · rw [grown, List.length_cons, blocksFrom_succ]
      · rw [leftHolds, List.append_assoc, List.length_cons, List.replicate_succ,
          List.singleton_append]

theorem writePages_yields
    {groups : List (List Entry)}
    (fits : ∀ group ∈ groups, group.length ≤ mostEntries)
    (level : Nat)
    (flags : UInt16)
    (previous : BlockNumber)
    (sound : Sound state)
    (holds :
      contents state =
        held.put relation ⟨done ++ List.replicate groups.length Page.zero, Page.zero⟩)
    (few : done.length + groups.length < blockNumberBound) :
    (writePages relation level flags previous (blocksFrom done.length groups.length) groups :
        StorageM σ Unit).Yields state fun outcome left =>
      outcome = .ok () ∧ Sound left ∧
        contents left =
          held.put relation
            ⟨done ++
              levelPages level flags previous (blocksFrom done.length groups.length) groups,
              Page.zero⟩ := by
  induction groups generalizing done previous state with
  | nil => exact yields_pure ⟨rfl, sound, holds⟩
  | cons group groups inductionHypothesis =>
      rw [List.length_cons] at few
      have number : (UInt32.ofNat done.length).toNat = done.length :=
        UInt32.toNat_ofNat_of_lt' (Nat.lt_of_le_of_lt (Nat.le_add_right _ _) few)
      have inside :
          (UInt32.ofNat done.length).toNat <
            (done ++ List.replicate (groups.length + 1) Page.zero).length := by
        rw [number, List.length_append, List.length_replicate]
        omega
      rw [List.length_cons, blocksFrom_succ]
      rw [List.length_cons] at holds
      obtain ⟨page, -⟩ :=
        groupPage_builtOf (fits group (List.mem_cons_self ..)) level flags previous
          ((blocksFrom (done.length + 1) groups.length).head?.getD noSibling) groups.head?
      rw [writePages, page]
      apply yields_lift_bind
      · rintro _ same
        obtain rfl := Except.ok.inj same
        apply yields_bind_value (write_of_sound sound holds (Contents.put_same ..) inside _)
        rintro between ⟨stillSound, became⟩
        have grown : ∀ page : Page, (done ++ [page]).length = done.length + 1 :=
          fun page => List.length_append ..
        rw [Contents.put_put, Relation.overwritten, number,
          List.set_append_right _ _ (Nat.le_refl _), Nat.sub_self, List.replicate_succ,
          List.set_cons_zero, ← List.singleton_append, ← List.append_assoc] at became
        have continues :=
          inductionHypothesis (fun group member => fits group (List.mem_cons_of_mem _ member))
            (UInt32.ofNat done.length) stillSound became (by rw [grown]; omega)
        rw [grown] at continues
        apply continues.weaken
        rintro outcome left ⟨same, leftSound, leftHolds⟩
        refine ⟨same, leftSound, ?_⟩
        rw [leftHolds, List.append_assoc, List.singleton_append]
        rfl
      · intro fault refused
        exact absurd refused (by simp)

theorem writeLevel_yields
    {groups : List (List Entry)}
    (fits : ∀ group ∈ groups, group.length ≤ mostEntries)
    (level : Nat)
    (sound : Sound state)
    (holds : contents state = held.put relation ⟨done, Page.zero⟩)
    (few : done.length + groups.length < blockNumberBound) :
    (writeLevel relation level groups : StorageM σ (List BlockNumber)).Yields state
      fun outcome left =>
        outcome = .ok (blocksFrom done.length groups.length) ∧ Sound left ∧
          contents left =
            held.put relation ⟨done ++ wholeLevel level done.length groups, Page.zero⟩ := by
  apply yields_bind_value (takeBlocks_yields groups sound holds few)
  rintro taken ⟨takenSound, takenHolds⟩
  apply yields_bind_value (writePages_yields fits level _ _ takenSound takenHolds few)
  rintro left ⟨leftSound, leftHolds⟩
  exact yields_pure ⟨rfl, leftSound, leftHolds⟩

/-- Writing the levels from one up to the root's leaves the stack of them. -/
theorem writeLevels_yields
    {builder : Builder}
    {level : Nat}
    {groups : List (List Entry)}
    {pages : List Page}
    {metapage : Metapage}
    (stacked : Stacked builder level done.length groups pages metapage)
    (innerFits : builder.innerCapacity ≤ mostEntries)
    (fits : ∀ group ∈ groups, group.length ≤ mostEntries)
    (sound : Sound state)
    (holds : contents state = held.put relation ⟨done, Page.zero⟩)
    (few : done.length + pages.length < blockNumberBound) :
    (writeLevels builder relation level groups : StorageM σ Metapage).Yields state
      fun outcome left =>
        outcome = .ok metapage ∧ Sound left ∧
          contents left = held.put relation ⟨done ++ pages, Page.zero⟩ := by
  generalize placed : done.length = start at stacked
  induction stacked generalizing done state with
  | @top level start group =>
      subst placed
      rw [length_levelPages] at few
      rw [writeLevels]
      apply yields_bind_value (writeLevel_yields fits level sound holds few)
      rintro left ⟨leftSound, leftHolds⟩
      exact yields_pure ⟨rfl, leftSound, leftHolds⟩
  | @under level start groups pages metapage several above inductionHypothesis =>
      subst placed
      have length := length_levelPages level (levelFlags level groups.length) noSibling done.length
        groups
      rw [List.length_append, length] at few
      have grown :
          (done ++ wholeLevel level done.length groups).length = done.length + groups.length := by
        rw [List.length_append, length]
      have fitsAbove :
          ∀ group ∈ groupsOf builder.innerCapacity
            (parentEntries (blocksFrom done.length groups.length) groups),
            group.length ≤ mostEntries := fun group member =>
        Nat.le_trans (length_le_of_mem_groupsOf builder.inner_pos member) innerFits
      rw [writeLevels]
      apply yields_bind_value (writeLevel_yields fits level sound holds (by omega))
      rintro between ⟨stillSound, became⟩
      rw [dif_pos several]
      apply (inductionHypothesis fitsAbove stillSound became (by omega) grown).weaken
      rintro outcome left ⟨same, leftSound, leftHolds⟩
      exact ⟨same, leftSound, by rw [leftHolds, List.append_assoc]⟩

/-- Building from sorted entries succeeds on a sound store that has an identity and the
blocks to give, and leaves the metapage and the stack of levels behind it. -/
theorem build_yields
    {builder : Builder}
    {entries : List Entry}
    {pages : List Page}
    {metapage : Metapage}
    (stacked : Stacked builder 0 1 (builder.leafGroups entries) pages metapage)
    (leafFits : builder.leafCapacity ≤ mostEntries)
    (innerFits : builder.innerCapacity ≤ mostEntries)
    (ascending : keysAscend entries = true)
    (sound : Sound state)
    (roomy : 0 < room state)
    (few : 1 + pages.length < blockNumberBound) :
    (builder.build entries : StorageM σ RelationId).Yields state fun outcome left =>
      ∃ relation,
        outcome = .ok relation ∧ contents state relation = none ∧ Sound left ∧
          contents left =
            (contents state).put relation ⟨metapage.page :: pages, Page.zero⟩ := by
  have leaves : ∀ group ∈ builder.leafGroups entries, group.length ≤ mostEntries :=
    fun group member => Nat.le_trans (length_le_of_mem_leafGroups member) leafFits
  apply yields_lift_bind_value (require_eq_ok_iff.mpr ascending : require _ _ = .ok ())
  apply yields_bind (create_of_sound sound roomy)
  · rintro relation created ⟨_, same, fresh, createdSound, createdHolds⟩
    obtain rfl := Except.ok.inj same
    apply yields_bind_value
      (extend_of_sound createdSound createdHolds (Contents.put_same ..) (by decide))
    rintro opened ⟨openedSound, openedHolds⟩
    rw [Contents.put_put] at openedHolds
    apply yields_bind_value
      (writeLevels_yields stacked innerFits leaves openedSound openedHolds few)
    rintro filled ⟨filledSound, filledHolds⟩
    apply yields_lift_bind_value metapage.toPage_eq
    apply yields_bind_value
      (write_of_sound filledSound filledHolds (Contents.put_same ..)
        (show metapageBlock.toNat < (Page.zero :: pages).length from Nat.succ_pos _) _)
    rintro left ⟨leftSound, leftHolds⟩
    rw [Contents.put_put] at leftHolds
    exact yields_pure ⟨relation, rfl, fresh, leftSound, leftHolds⟩
  · rintro fault left ⟨relation, failed, -⟩
    exact absurd failed (by simp)

end Building

end Builder

end ObliviousStorage.Index

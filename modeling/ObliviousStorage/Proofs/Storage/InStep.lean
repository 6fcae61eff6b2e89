import ObliviousStorage.Proofs.Storage.Concurring
import ObliviousStorage.Proofs.Storage.Lengths

/-!
Contract: two stores in memory that cannot be told apart but by what some of their bytes are.

Owns: `Likeness`, which pages look alike in which block; `MemoryStorage.Alike`, stores of one
shape whose pages look alike; `InStep`, such stores that were asked for the same transfers
since they were first compared; and that every call keeps stores in step and has the same
outcome on both, except that a read returns pages that look alike.

Does not own: which pages look alike, or what is done with them.
-/

namespace ObliviousStorage

open StorageM

/-- When two pages look alike, depending on the block they are in. -/
structure Likeness where
  Alike : RelationId → BlockNumber → Page → Page → Prop
  refl : ∀ relation block page, Alike relation block page page

namespace MemoryStorage

/-- Two stores with relations of the same identities and lengths. -/
structure SameShape (store other : MemoryStorage) : Prop where
  blockBytes : store.blockBytes = other.blockBytes
  identities : store.relations.size = other.relations.size
  lengths : ∀ relation, store.length? relation = other.length? relation

theorem SameShape.of_sizes
    {store other : MemoryStorage}
    (blockBytes : store.blockBytes = other.blockBytes)
    (sizes : store.relations.map Array.size = other.relations.map Array.size) :
    store.SameShape other where
  blockBytes := blockBytes
  identities := by simpa only [Array.size_map] using congrArg Array.size sizes
  lengths := by
    intro relation
    unfold length? blocks?
    split
    · rfl
    · rw [← Array.getElem?_map, ← Array.getElem?_map, sizes]

/-- Two stores of one shape whose pages look alike. -/
structure Alike (likeness : Likeness) (store other : MemoryStorage) : Prop where
  shape : store.SameShape other
  pages :
    ∀ relation block page image,
      store.page relation block = .ok page → other.page relation block = .ok image →
        likeness.Alike relation block page image

theorem blocks_eq_ok_iff
    {store : MemoryStorage}
    {relation : RelationId}
    {blocks : Array Page} :
    store.blocks relation = .ok blocks ↔ store.blocks? relation = some blocks := by
  rw [blocks_eq]
  cases store.blocks? relation <;> simp

theorem page_eq_ok_iff
    {store : MemoryStorage}
    {relation : RelationId}
    {block : BlockNumber}
    {found : Page} :
    store.page relation block = .ok found ↔
      store.blockBytes = blockSize ∧
        ∃ blocks, store.blocks? relation = some blocks ∧ blocks[block.toNat]? = some found := by
  simp only [page, blocks_eq]
  cases store.blocks? relation with
  | none => simp [bind, Except.bind]
  | some blocks =>
      cases among : blocks[block.toNat]? with
      | none => simp [bind, Except.bind, among, throw, throwThe, MonadExceptOf.throw]
      | some page =>
          by_cases sized : store.blockBytes = blockSize <;>
            simp [bind, Except.bind, among, require, sized, pure, Except.pure]

namespace Alike

variable
  {likeness : Likeness}
  {store other : MemoryStorage}
  {relation : RelationId}
  (alike : store.Alike likeness other)

include alike

theorem page_same (block : BlockNumber) :
    SameOutcome (likeness.Alike relation block) (store.page relation block)
      (other.page relation block) := by
  have verdicts :=
    page_congr alike.shape.blockBytes (alike.shape.lengths relation) block
  cases found : store.page relation block with
  | ok page =>
      cases found' : other.page relation block with
      | ok image => exact .accepted (alike.pages relation block page image found found')
      | error fault => simp [found, found', Except.map] at verdicts
  | error fault =>
      cases found' : other.page relation block with
      | ok image => simp [found, found', Except.map] at verdicts
      | error fault' =>
          have same : fault = fault' := by simpa [found, found', Except.map] using verdicts
          exact same ▸ .refused fault

/-- Changing a relation keeps stores alike if it becomes equally long on both sides and its
blocks look alike. -/
theorem change
    {blocks images : Array Page}
    {change change' : Array Page → Array Page}
    (present : store.blocks? relation = some blocks)
    (present' : other.blocks? relation = some images)
    (sizes : (change blocks).size = (change' images).size)
    (changed :
      store.blockBytes = blockSize →
        ∀ (block : BlockNumber) page image,
          (change blocks)[block.toNat]? = some page →
            (change' images)[block.toNat]? = some image →
              likeness.Alike relation block page image) :
    (store.changeBlocks relation change).Alike likeness (other.changeBlocks relation change') where
  shape :=
    { blockBytes := alike.shape.blockBytes
      identities := by
        simpa only [changeBlocks, Array.size_modify] using alike.shape.identities
      lengths := by
        intro another
        rw [length?, length?, blocks?_changeBlocks _ present, blocks?_changeBlocks _ present']
        by_cases same : another = relation
        · simp [same, sizes]
        · rw [if_neg same, if_neg same]
          exact alike.shape.lengths another }
  pages := by
    intro another block page image found found'
    obtain ⟨sized, pages, held, among⟩ := page_eq_ok_iff.mp found
    obtain ⟨sized', pages', held', among'⟩ := page_eq_ok_iff.mp found'
    rw [blocks?_changeBlocks _ present] at held
    rw [blocks?_changeBlocks _ present'] at held'
    by_cases same : another = relation
    · rw [if_pos same, Option.some_inj] at held held'
      rw [same]
      exact changed sized block page image (held ▸ among) (held' ▸ among')
    · rw [if_neg same] at held held'
      exact alike.pages another block page image (page_eq_ok_iff.mpr ⟨sized, pages, held, among⟩)
        (page_eq_ok_iff.mpr ⟨sized', pages', held', among'⟩)

/-- The blocks of one relation, where they can be read at all. -/
theorem blocks_alike
    {blocks images : Array Page}
    {block : BlockNumber}
    {page image : Page}
    (sized : store.blockBytes = blockSize)
    (present : store.blocks? relation = some blocks)
    (present' : other.blocks? relation = some images)
    (among : blocks[block.toNat]? = some page)
    (among' : images[block.toNat]? = some image) :
    likeness.Alike relation block page image :=
  alike.pages relation block page image (page_eq_ok_iff.mpr ⟨sized, blocks, present, among⟩)
    (page_eq_ok_iff.mpr ⟨alike.shape.blockBytes ▸ sized, images, present', among'⟩)

/-- A relation that one of the stores has is as long in the other. -/
theorem exists_blocks
    {blocks : Array Page}
    (present : store.blocks? relation = some blocks) :
    ∃ images, other.blocks? relation = some images ∧ blocks.size = images.size := by
  have long : other.length? relation = some blocks.size := by
    rw [← alike.shape.lengths relation, length?, present, Option.map_some]
  obtain ⟨images, present', size⟩ := blocks_of_length long
  exact ⟨images, present', size.symm⟩

/-! ## Calls of stores in memory -/

theorem read_concurs (block : BlockNumber) :
    (Storage.read relation block : StorageM MemoryStorage Page).Concur
      (Storage.read relation block) (likeness.Alike relation block) (Alike likeness) store other :=
  concur_get_bind (concur_lift (alike.page_same block) alike)

theorem count_concurs (relation : RelationId) :
    (Storage.blockCount relation : StorageM MemoryStorage BlockNumber).Concur
      (Storage.blockCount relation) Eq (Alike likeness) store other :=
  concur_get_bind (concur_lift (.of_eq (count_congr (alike.shape.lengths relation))) alike)

theorem write_concurs
    {block : BlockNumber}
    {page image : Page}
    (like : likeness.Alike relation block page image) :
    (Storage.write relation block page : StorageM MemoryStorage Unit).Concur
      (Storage.write relation block image) Eq (Alike likeness) store other := by
  have checks :=
    checkWrite_congr alike.shape.blockBytes (alike.shape.lengths relation) block
  refine concur_get_bind (concur_lift_bind (.of_eq checks) alike ?_)
  intro _ _ checked _ _
  obtain ⟨-, blocks, present, -⟩ := checkWrite_eq_ok_iff.mp checked
  obtain ⟨images, present', size⟩ := alike.exists_blocks present
  refine concur_set (alike.change present present' ?_ ?_)
  · simp only [Array.size_setIfInBounds, size]
  · intro sized another found found' among among'
    rw [Array.getElem?_setIfInBounds] at among among'
    by_cases same : block.toNat = another.toNat
    · rw [if_pos same] at among among'
      obtain ⟨-, written⟩ := Option.ite_none_right_eq_some.mp among
      obtain ⟨-, written'⟩ := Option.ite_none_right_eq_some.mp among'
      rw [← Option.some.inj written, ← Option.some.inj written', ← UInt32.toNat_inj.mp same]
      exact like
    · rw [if_neg same] at among among'
      exact alike.blocks_alike sized present present' among among'

theorem extend_concurs (relation : RelationId) :
    (Storage.extend relation : StorageM MemoryStorage BlockNumber).Concur
      (Storage.extend relation) Eq (Alike likeness) store other := by
  have counts := count_congr (alike.shape.lengths relation)
  refine concur_get_bind (concur_lift_bind (.of_eq counts) alike ?_)
  intro block block' counted _ same
  obtain ⟨blocks, held, -⟩ := bind_eq_ok_iff.mp counted
  have present := blocks_eq_ok_iff.mp held
  obtain ⟨images, present', size⟩ := alike.exists_blocks present
  have extended :
      (store.changeBlocks relation fun blocks => blocks.push Page.zero).Alike likeness
        (other.changeBlocks relation fun blocks => blocks.push Page.zero) := by
    refine alike.change present present' (by simp only [Array.size_push, size]) ?_
    intro sized another page image among among'
    rw [Array.getElem?_push] at among among'
    by_cases added : another.toNat = blocks.size
    · rw [if_pos added] at among
      rw [if_pos (added.trans size)] at among'
      rw [← Option.some.inj among, ← Option.some.inj among']
      exact likeness.refl relation another Page.zero
    · rw [if_neg added] at among
      rw [if_neg fun last => added (last.trans size.symm)] at among'
      exact alike.blocks_alike sized present present' among among'
  exact ⟨.accepted same, extended⟩

/-- Both stores give a new relation the same identity, which neither has in use. -/
theorem create_concurs :
    (Storage.create : StorageM MemoryStorage RelationId).Concur Storage.create Eq (Alike likeness)
      store other := by
  have following :
      wordSum (store.relations.size + 1) 1 = wordSum (other.relations.size + 1) 1 := by
    rw [alike.shape.identities]
  refine concur_get_bind (concur_lift_bind (.of_eq following) alike ?_)
  intro _ _ counted _ _
  have fits := Nat.lt_of_succ_lt (wordSum_eq_ok_iff.mp counted).1
  generalize numbered : UInt32.ofNat (store.relations.size + 1) = relation
  have number : relation.toNat = store.relations.size + 1 :=
    numbered ▸ UInt32.toNat_ofNat_of_lt' fits
  have number' : relation.toNat = other.relations.size + 1 := alike.shape.identities ▸ number
  have added : store.addRelation.Alike likeness other.addRelation :=
    { shape :=
        { blockBytes := alike.shape.blockBytes
          identities := by simp only [addRelation, Array.size_push, alike.shape.identities]
          lengths := by
            intro another
            rw [length?, length?, blocks?_addRelation number, blocks?_addRelation number']
            by_cases new : another = relation
            · rw [if_pos new, if_pos new]
            · rw [if_neg new, if_neg new]
              exact alike.shape.lengths another }
      pages := by
        intro another block page image found found'
        obtain ⟨sized, pages, held, among⟩ := page_eq_ok_iff.mp found
        obtain ⟨-, pages', held', among'⟩ := page_eq_ok_iff.mp found'
        rw [blocks?_addRelation number] at held
        rw [blocks?_addRelation number'] at held'
        by_cases new : another = relation
        · rw [if_pos new, Option.some_inj] at held
          simp [← held] at among
        · rw [if_neg new] at held held'
          exact alike.blocks_alike sized held held' among among' }
  exact ⟨.accepted (by rw [← numbered, alike.shape.identities]), added⟩

end Alike

end MemoryStorage

/-! ## Stores that record transfers -/

/-- Two stores that are alike and were asked for the same transfers since they were in these
two states. -/
structure InStep
    (likeness : Likeness)
    (start start' : Traced MemoryStorage)
    (left right : Traced MemoryStorage) : Prop where
  alike : left.inner.Alike likeness right.inner
  transfers :
    ∃ since,
      left.trace.toList = start.trace.toList ++ since ∧
        right.trace.toList = start'.trace.toList ++ since

namespace InStep

variable
  {likeness : Likeness}
  {start start' left right : Traced MemoryStorage}
  {relation : RelationId}

theorem of_alike (alike : left.inner.Alike likeness right.inner) :
    InStep likeness left right left right :=
  ⟨alike, [], (List.append_nil _).symm, (List.append_nil _).symm⟩

/-- One more transfer that both stores are asked for. -/
theorem recorded
    (inStep : InStep likeness start start' left right)
    (transfer : Transfer) :
    InStep likeness start start' ⟨left.inner, left.trace.push transfer⟩
      ⟨right.inner, right.trace.push transfer⟩ where
  alike := inStep.alike
  transfers := by
    obtain ⟨since, here, there⟩ := inStep.transfers
    refine ⟨since ++ [transfer], ?_, ?_⟩
    · rw [Array.toList_push, here, List.append_assoc]
    · rw [Array.toList_push, there, List.append_assoc]

/-- A call that leaves no trace keeps stores in step if it keeps them alike. -/
theorem untraced
    {α : Type}
    {Same : α → α → Prop}
    {action action' : StorageM MemoryStorage α}
    (inStep : InStep likeness start start' left right)
    (concur :
      action.Concur action' Same (MemoryStorage.Alike likeness) left.inner right.inner) :
    (Traced.untraced action).Concur (Traced.untraced action') Same
      (InStep likeness start start') left right :=
  ⟨concur.1, concur.2, inStep.transfers⟩

theorem read
    (inStep : InStep likeness start start' left right)
    (relation : RelationId)
    (block : BlockNumber) :
    (Storage.read relation block : StorageM (Traced MemoryStorage) Page).Concur
      (Storage.read relation block) (likeness.Alike relation block)
      (InStep likeness start start') left right :=
  (inStep.recorded (.read relation block)).untraced (inStep.alike.read_concurs block)

theorem write
    {block : BlockNumber}
    {page image : Page}
    (inStep : InStep likeness start start' left right)
    (like : likeness.Alike relation block page image) :
    (Storage.write relation block page : StorageM (Traced MemoryStorage) Unit).Concur
      (Storage.write relation block image) Eq (InStep likeness start start') left right :=
  (inStep.recorded (.write relation block)).untraced (inStep.alike.write_concurs like)

theorem blockCount
    (inStep : InStep likeness start start' left right)
    (relation : RelationId) :
    (Storage.blockCount relation : StorageM (Traced MemoryStorage) BlockNumber).Concur
      (Storage.blockCount relation) Eq (InStep likeness start start') left right :=
  inStep.untraced (inStep.alike.count_concurs relation)

theorem extend
    (inStep : InStep likeness start start' left right)
    (relation : RelationId) :
    (Storage.extend relation : StorageM (Traced MemoryStorage) BlockNumber).Concur
      (Storage.extend relation) Eq (InStep likeness start start') left right :=
  inStep.untraced (inStep.alike.extend_concurs relation)

theorem create (inStep : InStep likeness start start' left right) :
    (Storage.create : StorageM (Traced MemoryStorage) RelationId).Concur Storage.create Eq
      (InStep likeness start start') left right :=
  inStep.untraced inStep.alike.create_concurs

end InStep

end ObliviousStorage

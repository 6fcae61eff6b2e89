import ObliviousStorage.Gateway.Opening
import ObliviousStorage.Proofs.Gateway.Confinement
import ObliviousStorage.Proofs.Index.Outlines
import ObliviousStorage.Proofs.Storage.InStep

/-!
Contract: the steps of an opening on two stores that are in step.

Owns: that looking up and changing rows, establishing files, copying a heap, walking over an
index and creating files keep stores in step and have the same outcome on both, each under what
it has to see alike: the blocks of the catalog, the headers of the heap, the outlines of the
index, and nothing of the files that pages are handed over to.

Does not own: in which order an opening takes these steps.
-/

namespace ObliviousStorage

open Page StorageM

section Steps

variable
  {likeness : Likeness}
  {start start' left right : Traced MemoryStorage}
  (inStep : InStep likeness start start' left right)

/-! ## The catalog -/

namespace Catalog

variable
  {catalog : Catalog}
  (equal : ∀ block page other, likeness.Alike catalog.relation block page other → page = other)

include equal inStep

theorem locateIn_concurs (table : RelationId) (blocks : List BlockNumber) :
    (catalog.locateIn table blocks).Concur (catalog.locateIn table blocks) Eq
      (InStep likeness start start') left right := by
  induction blocks generalizing left right with
  | nil => exact concur_pure rfl inStep
  | cons block rest inductionHypothesis =>
      refine concur_bind (inStep.read catalog.relation block) ?_
      intro page other between between' _ alike inStep
      rw [← equal block page other alike]
      refine concur_check_bind inStep fun located _ => ?_
      cases located with
      | none => exact inductionHypothesis inStep
      | some located => exact concur_pure rfl inStep

theorem find_concurs (table : RelationId) :
    (catalog.find table).Concur (catalog.find table) Eq (InStep likeness start start') left
      right := by
  have locates :
      (catalog.locate table).Concur (catalog.locate table) Eq (InStep likeness start start') left
        right := by
    refine concur_bind (inStep.blockCount catalog.relation) ?_
    intro count _ between between' _ same inStep
    rw [← same]
    exact locateIn_concurs inStep equal table _
  refine concur_bind locates ?_
  intro located _ between between' _ same inStep
  rw [← same]
  cases located with
  | none => exact concur_throw inStep
  | some located => exact concur_pure rfl inStep

theorem get_concurs (table : RelationId) :
    (catalog.get table).Concur (catalog.get table) Eq (InStep likeness start start') left
      right := by
  refine concur_bind (find_concurs inStep equal table) ?_
  intro located _ between between' _ same inStep
  exact concur_pure (by rw [same]) inStep

theorem update_concurs (table : RelationId) (change : Row → Row) :
    (catalog.update table change).Concur (catalog.update table change) Eq
      (InStep likeness start start') left right := by
  refine concur_bind (find_concurs inStep equal table) ?_
  intro located _ _ _ _ same inStep
  rw [← same]
  refine concur_bind (inStep.read catalog.relation located.block) ?_
  intro page other _ _ _ alike inStep
  rw [← equal located.block page other alike]
  refine concur_check_bind inStep fun changed _ => ?_
  exact inStep.write (likeness.refl _ _ _)

end Catalog

/-! ## Requests -/

namespace Gateway

include inStep

theorem extendTo_concurs (relation : RelationId) (block : BlockNumber) (limit : Nat) :
    (extendTo relation block limit).Concur (extendTo relation block limit) Eq
      (InStep likeness start start') left right := by
  induction limit generalizing left right with
  | zero => exact concur_pure rfl inStep
  | succ limit inductionHypothesis =>
      refine concur_bind (inStep.extend relation) ?_
      intro added _ between between' _ same inStep
      rw [← same]
      split
      · exact inductionHypothesis inStep
      · exact concur_pure rfl inStep

theorem placeImages_concurs
    (relation : RelationId)
    (existing : BlockNumber)
    (block : Nat)
    (images : List Page) :
    (placeImages relation existing block images).Concur (placeImages relation existing block images)
      Eq (InStep likeness start start') left right := by
  induction images generalizing block left right with
  | nil => exact concur_pure rfl inStep
  | cons image rest inductionHypothesis =>
      have ensures :
          (ensureBlock relation existing (UInt32.ofNat block)).Concur
            (ensureBlock relation existing (UInt32.ofNat block)) Eq (InStep likeness start start')
            left right := by
        rw [ensureBlock]
        split
        · exact extendTo_concurs inStep relation _ _
        · exact concur_pure rfl inStep
      refine concur_bind ensures ?_
      intro _ _ _ _ _ _ inStep
      refine concur_bind (inStep.write (likeness.refl _ _ image)) ?_
      intro _ _ _ _ _ _ inStep
      exact inductionHypothesis inStep _

theorem requirePageSized_concurs :
    (requirePageSized : StorageM (Traced MemoryStorage) Unit).Concur requirePageSized Eq
      (InStep likeness start start') left right := by
  refine concur_get_bind (concur_lift (.of_eq ?_) inStep)
  have sameBytes : Storage.blockBytes left = Storage.blockBytes right :=
    inStep.alike.shape.blockBytes
  rw [sameBytes]

/-- The same gateway over the files of a session. -/
structure SameOver (session : Session) (gateway other : Gateway) : Prop where
  same : gateway = other
  session : gateway.session = session

omit inStep

theorem reopen_concurs
    {session : Session}
    {gateway gateway' : Gateway}
    (together : SameOver session gateway gateway')
    (inStep : InStep likeness start start' left right)
    (name : String) :
    (reopen name : StorageM (Gateway × Traced MemoryStorage) RelationId).Concur (reopen name) Eq
      (Beside (SameOver session) (InStep likeness start start')) (gateway, left)
      (gateway', right) := by
  obtain ⟨rfl, sessionIs⟩ := together
  refine concur_get_bind (concur_check_bind ⟨⟨rfl, sessionIs⟩, inStep⟩ fun role _ => ?_)
  refine concur_modify_bind (concur_pure rfl ⟨⟨rfl, ?_⟩, inStep⟩)
  rw [session_setOpen, sessionIs]

theorem establishImages_concurs
    {session : Session}
    {gateway gateway' : Gateway}
    (together : SameOver session gateway gateway')
    (inStep : InStep likeness start start' left right)
    (name : String)
    (images : List Page)
    (first : BlockNumber) :
    (establishImages name images first :
        StorageM (Gateway × Traced MemoryStorage) Unit).Concur (establishImages name images first)
      Eq (Beside (SameOver session) (InStep likeness start start')) (gateway, left)
      (gateway', right) := by
  refine concur_bind (concur_onSecond together (requirePageSized_concurs inStep)) ?_
  rintro _ _ ⟨_, _⟩ ⟨_, _⟩ _ _ ⟨together, inStep⟩
  refine concur_bind (reopen_concurs together inStep name) ?_
  rintro relation _ ⟨_, _⟩ ⟨_, _⟩ _ same ⟨together, inStep⟩
  rw [← same]
  refine concur_check_bind ⟨together, inStep⟩ fun _ _ => ?_
  refine concur_check_bind ⟨together, inStep⟩ fun _ _ => ?_
  refine concur_bind (concur_onSecond together (inStep.blockCount relation)) ?_
  rintro existing _ ⟨_, _⟩ ⟨_, _⟩ _ same ⟨together, inStep⟩
  rw [← same]
  exact concur_onSecond together (placeImages_concurs inStep relation existing _ images)

/-- A page that is handed over may be any page where the gateway's files are not looked at. -/
theorem addIndexPage_concurs
    {gateway : Gateway}
    (unseen :
      ∀ relation, gateway.session.Owns relation →
        ∀ block page other, likeness.Alike relation block page other)
    (inStep : InStep likeness start start' left right)
    (page other : Page)
    (offset depth : Nat) :
    (gateway.addIndexPage page offset depth : StorageM (Traced MemoryStorage) Unit).Concur
      (gateway.addIndexPage other offset depth) Eq (InStep likeness start start') left right := by
  unfold addIndexPage
  split
  · exact concur_throw inStep
  · refine concur_check_bind inStep fun block _ => ?_
    refine concur_check_bind inStep fun relation named => ?_
    exact inStep.write (unseen relation (owns_of_relationNamed named) block page other)

theorem addHeapPage_concurs
    {gateway : Gateway}
    (unseen :
      ∀ relation, gateway.session.Owns relation →
        ∀ block page other, likeness.Alike relation block page other)
    (inStep : InStep likeness start start' left right)
    (page other : Page)
    (block : BlockNumber) :
    (gateway.addHeapPage page block : StorageM (Traced MemoryStorage) Unit).Concur
      (gateway.addHeapPage other block) Eq (InStep likeness start start') left right := by
  refine concur_check_bind inStep fun relation named => ?_
  exact inStep.write (unseen relation (owns_of_relationNamed named) block page other)

end Gateway

/-! ## The heap -/

namespace Heap

/-- Whether a page can be copied depends on its header. -/
theorem stamped_same
    {page other : Page}
    (header : AgreesOn other page 0 headerSize)
    (block : BlockNumber) :
    SameOutcome (fun _ _ => True) (stamped page block) (stamped other block) := by
  unfold stamped isUnformatted
  rw [upper_congr header, verify_congr header]
  split
  · exact .accepted trivial
  · exact (SameOutcome.of_eq rfl).bind fun _ _ _ _ _ => .accepted trivial

variable
  {heap : RelationId}
  {target : PageTarget (Traced MemoryStorage)}
  (headers :
    ∀ block page other, likeness.Alike heap block page other → AgreesOn other page 0 headerSize)
  (takes :
    ∀ page other block left right, InStep likeness start start' left right →
      (target.addHeapPage page block).Concur (target.addHeapPage other block) Eq
        (InStep likeness start start') left right)

include headers takes inStep

theorem copyBlocks_concurs (blocks : List BlockNumber) :
    (copyBlocks heap target blocks).Concur (copyBlocks heap target blocks) Eq
      (InStep likeness start start') left right := by
  induction blocks generalizing left right with
  | nil => exact concur_pure rfl inStep
  | cons block rest inductionHypothesis =>
      refine concur_bind (inStep.read heap block) ?_
      intro page other _ _ _ alike inStep
      refine concur_lift_bind (stamped_same (headers block page other alike) block) inStep ?_
      intro image image' _ _ _
      refine concur_bind (takes image image' block _ _ inStep) ?_
      intro _ _ _ _ _ _ inStep
      exact inductionHypothesis inStep

theorem copy_concurs :
    (copy heap target).Concur (copy heap target) Eq (InStep likeness start start') left right := by
  refine concur_bind (inStep.blockCount heap) ?_
  intro count _ _ _ _ same inStep
  rw [← same]
  refine concur_bind (copyBlocks_concurs inStep headers takes _) ?_
  intro _ _ _ _ _ _ inStep
  exact concur_pure rfl inStep

end Heap

/-! ## The index -/

namespace Index

variable
  {index : RelationId}
  (outlines :
    ∀ block page other, likeness.Alike index block page other → SameOutline block page other)

include outlines

include inStep in
theorem measure_concurs :
    (measure index).Concur (measure index) Eq (InStep likeness start start') left right := by
  have calls : CallsConcur (InStep likeness start start') index none :=
    { reads := fun block _ _ inStep => (inStep.read index block).weaken (outlines block)
      hands := fun _ _ _ _ _ _ inStep => concur_pure rfl inStep }
  exact walk_concurs calls inStep

include inStep in
theorem relocate_concurs
    {target : PageTarget (Traced MemoryStorage)}
    (takes :
      ∀ page other offset depth left right, InStep likeness start start' left right →
        (target.addIndexPage page offset depth).Concur (target.addIndexPage other offset depth) Eq
          (InStep likeness start start') left right) :
    (relocate index target).Concur (relocate index target) Eq (InStep likeness start start') left
      right := by
  have calls : CallsConcur (InStep likeness start start') index (some target) :=
    { reads := fun block _ _ inStep => (inStep.read index block).weaken (outlines block)
      hands := takes }
  refine concur_bind (walk_concurs calls inStep) ?_
  exact fun _ _ _ _ _ _ inStep => concur_pure rfl inStep

end Index

/-! ## New files -/

include inStep

theorem addInitialPages_concurs (relation : RelationId) (count : Nat) :
    (addInitialPages relation count).Concur (addInitialPages relation count) Eq
      (InStep likeness start start') left right := by
  induction count generalizing left right with
  | zero => exact concur_pure rfl inStep
  | succ count inductionHypothesis =>
      refine concur_bind (inStep.extend relation) ?_
      intro block _ _ _ _ same inStep
      rw [← same]
      refine concur_bind (inStep.write (likeness.refl _ _ Page.plain)) ?_
      intro _ _ _ _ _ _ inStep
      exact inductionHypothesis inStep

theorem createFiles_concurs
    (method : Catalog.AccessMethod)
    (profile : Index.Profile)
    (names : FileNames) :
    (createFiles method profile names).Concur (createFiles method profile names) Eq
      (InStep likeness start start') left right := by
  refine concur_bind inStep.create ?_
  intro table _ _ _ _ sameTable inStep
  refine concur_bind inStep.create ?_
  intro index _ _ _ _ sameIndex inStep
  rw [← sameTable, ← sameIndex]
  refine concur_bind (addInitialPages_concurs inStep index method.initialPages) ?_
  intro _ _ _ _ _ _ inStep
  refine concur_check_bind inStep fun session _ => ?_
  refine concur_check_bind inStep fun layout _ => ?_
  exact concur_pure rfl inStep

theorem fillFiles_concurs (session : Session) (row : Catalog.Row) :
    ((fillFiles session row : StorageM (Gateway × Traced MemoryStorage) Unit).withFirst
        (.opened session)).Concur ((fillFiles session row).withFirst (.opened session))
      (fun filled filled' => Gateway.SameOver session filled.2 filled'.2)
      (InStep likeness start start') left right := by
  have opened : Gateway.SameOver session (.opened session) (.opened session) := ⟨rfl, rfl⟩
  have fills :
      (fillFiles session row : StorageM (Gateway × Traced MemoryStorage) Unit).Concur
        (fillFiles session row) Eq
        (Beside (Gateway.SameOver session) (InStep likeness start start')) (.opened session, left)
        (.opened session, right) := by
    refine concur_bind (Gateway.establishImages_concurs opened inStep _ _ 0) ?_
    rintro _ _ ⟨_, _⟩ ⟨_, _⟩ _ _ ⟨together, inStep⟩
    exact Gateway.establishImages_concurs together inStep _ _ 0
  exact (concur_withFirst fills).weaken fun _ _ same => same.2

end Steps

end ObliviousStorage

import ObliviousStorage.Handover.Recording
import ObliviousStorage.Proofs.Storage.Contents
import ObliviousStorage.Storage.Faulty
import ObliviousStorage.Storage.Memory
import ObliviousStorage.Storage.Traced

/-!
Contract: the laws of the stores in memory and of the stores wrapped around another
one.

Owns: what each of them holds, when it is sound, and how many relations it can still
create. A wrapper holds what the store inside it holds; a store that follows a plan of
failures is sound when the plan never fails a call.

Does not own: stores that keep their relations in files.
-/

namespace ObliviousStorage

open StorageM StorageView

/-! ## Memory -/

namespace MemoryStorage

instance : StorageView MemoryStorage where
  contents store relation :=
    (store.blocks? relation).map fun blocks => ⟨blocks.toList, Page.zero⟩
  Sound store := store.blockBytes = blockSize
  room store := blockNumberBound - 2 - store.relations.size

theorem contents_eq (store : MemoryStorage) (relation : RelationId) :
    contents store relation =
      (store.blocks? relation).map fun blocks => ⟨blocks.toList, Page.zero⟩ := rfl

theorem blocks_eq (store : MemoryStorage) (relation : RelationId) :
    store.blocks relation =
      match store.blocks? relation with
      | some blocks => .ok blocks
      | none => .error (.notFound relation) := rfl

theorem noRelation_toNat : noRelation.toNat = 0 := rfl

/-- Changing one relation's blocks changes nothing else. -/
theorem blocks?_changeBlocks
    {store : MemoryStorage}
    {relation : RelationId}
    {blocks : Array Page}
    (change : Array Page → Array Page)
    (present : store.blocks? relation = some blocks)
    (other : RelationId) :
    (store.changeBlocks relation change).blocks? other =
      if other = relation then some (change blocks) else store.blocks? other := by
  unfold blocks? changeBlocks at *
  by_cases isNone : relation = noRelation
  · simp [isNone] at present
  · rw [if_neg isNone] at present
    by_cases otherNone : other = noRelation
    · simp [otherNone, Ne.symm isNone]
    · have positive : relation.toNat ≠ 0 := fun zero =>
        isNone (UInt32.toNat_inj.mp (by rw [zero, noRelation_toNat]))
      have otherPositive : other.toNat ≠ 0 := fun zero =>
        otherNone (UInt32.toNat_inj.mp (by rw [zero, noRelation_toNat]))
      rw [if_neg otherNone, Array.getElem?_modify]
      by_cases same : other = relation
      · subst same
        simp [present]
      · have apart : relation.toNat - 1 ≠ other.toNat - 1 := by
          intro equal
          exact same (UInt32.toNat_inj.mp (by omega))
        simp [apart, same, otherNone]

theorem contents_changeBlocks
    {store : MemoryStorage}
    {relation : RelationId}
    {blocks : Array Page}
    {found : Relation}
    (change : Array Page → Array Page)
    (present : store.blocks? relation = some blocks)
    (changed : found = ⟨(change blocks).toList, Page.zero⟩) :
    contents (store.changeBlocks relation change) = (contents store).put relation found := by
  funext other
  rw [contents_eq, blocks?_changeBlocks change present, Contents.put, changed]
  by_cases same : other = relation <;> simp [same, contents_eq]

/-- Adding a relation changes none of the others. -/
theorem blocks?_addRelation
    {store : MemoryStorage}
    {relation : RelationId}
    (number : relation.toNat = store.relations.size + 1)
    (other : RelationId) :
    store.addRelation.blocks? other =
      if other = relation then some #[] else store.blocks? other := by
  have notNone : relation ≠ noRelation := by
    intro none
    rw [none, noRelation_toNat] at number
    omega
  unfold blocks? addRelation
  by_cases otherNone : other = noRelation
  · simp [otherNone, Ne.symm notNone]
  · have otherPositive : other.toNat ≠ 0 := fun zero =>
      otherNone (UInt32.toNat_inj.mp (by rw [zero, noRelation_toNat]))
    rw [if_neg otherNone, if_neg otherNone, Array.getElem?_push]
    by_cases same : other = relation
    · simp [same, number]
    · have apart : other.toNat - 1 ≠ store.relations.size := by
        intro equal
        exact same (UInt32.toNat_inj.mp (by omega))
      simp [apart, same]

theorem contents_addRelation
    {store : MemoryStorage}
    {relation : RelationId}
    (number : relation.toNat = store.relations.size + 1) :
    contents store relation = none ∧
      contents store.addRelation = (contents store).put relation .created := by
  constructor
  · by_cases isNone : relation = noRelation <;> simp [contents_eq, blocks?, isNone, number]
  · funext other
    rw [contents_eq, blocks?_addRelation number, Contents.put]
    by_cases same : other = relation <;> simp [same, contents_eq, Relation.created]

theorem count_eq (store : MemoryStorage) (relation : RelationId) :
    store.count relation = (contents store).count relation := by
  simp only [count, blocks_eq, Contents.count, contents_eq]
  cases store.blocks? relation with
  | none => rfl
  | some blocks => simp [bind, Except.bind]

theorem page_eq
    {store : MemoryStorage}
    (sound : store.blockBytes = blockSize)
    (relation : RelationId)
    (block : BlockNumber) :
    store.page relation block = (contents store).page relation block := by
  simp only [page, blocks_eq, Contents.page, contents_eq]
  cases store.blocks? relation with
  | none => rfl
  | some blocks =>
      simp only [bind, Except.bind, Option.map_some, Array.getElem?_toList]
      cases blocks[block.toNat]? with
      | none => rfl
      | some page => simp [require, sound, pure, Except.pure]

theorem page_eq_ok
    {store : MemoryStorage}
    {relation : RelationId}
    {block : BlockNumber}
    {found : Page}
    (read : store.page relation block = .ok found) :
    (contents store).page relation block = .ok found := by
  by_cases sound : store.blockBytes = blockSize
  · rw [← page_eq sound, read]
  · simp only [page, bind_eq_ok_iff] at read
    obtain ⟨blocks, -, later⟩ := read
    cases among : blocks[block.toNat]? with
    | none => simp [among] at later
    | some page => simp [among, require, sound, Functor.map, Except.map] at later

theorem checkWrite_eq_ok_iff
    {store : MemoryStorage}
    {relation : RelationId}
    {block : BlockNumber} :
    store.checkWrite relation block = .ok () ↔
      store.blockBytes = blockSize ∧
        ∃ blocks, store.blocks? relation = some blocks ∧ block.toNat < blocks.size := by
  simp only [checkWrite, bind_eq_ok_iff, require_eq_ok_iff, exists_const, blocks_eq]
  cases store.blocks? relation with
  | none => simp
  | some blocks => simp

theorem room_addRelation (store : MemoryStorage) : room store ≤ room store.addRelation + 1 := by
  simp only [room, addRelation, Array.size_push]
  omega

theorem room_changeBlocks
    (store : MemoryStorage)
    (relation : RelationId)
    (change : Array Page → Array Page) :
    room (store.changeBlocks relation change) = room store := by
  simp only [room, changeBlocks, Array.size_modify]

/-- No relation can be created if the identity it would get has no successor. -/
theorem room_of_last
    {store : MemoryStorage}
    (last : blockNumberBound ≤ store.relations.size + 1 + 1) :
    room store = 0 := by
  simp only [room]
  omega

instance : LawfulStorage MemoryStorage where
  blockBytes_of_sound sound := sound
  create_law store := by
    refine yields_get_bind (yields_lift_bind ?_ ?_)
    · intro following counted
      obtain ⟨fits, -⟩ := wordSum_eq_ok_iff.mp counted
      have number := UInt32.toNat_ofNat_of_lt' (Nat.lt_of_succ_lt fits)
      obtain ⟨fresh, added⟩ := contents_addRelation number
      exact yields_set_bind (yields_pure ⟨fresh, added, room_addRelation store, id⟩)
    · intro fault refused
      exact ⟨fun _ => room_of_last (wordSum_eq_error_iff.mp refused).1, .refl store⟩
  count_law store relation := by
    refine yields_get_bind (yields_lift ?_)
    rw [count_eq]
    cases (contents store).count relation with
    | ok number => exact ⟨rfl, .refl store⟩
    | error fault => exact ⟨fun _ => rfl, .refl store⟩
  read_law store relation block := by
    refine yields_get_bind (yields_lift ?_)
    cases read : store.page relation block with
    | ok page => exact ⟨page_eq_ok read, .refl store⟩
    | error fault => exact ⟨fun sound => by rw [← page_eq sound, read], .refl store⟩
  write_law store relation block page := by
    refine yields_get_bind (yields_lift_bind ?_ ?_)
    · intro _ checked
      obtain ⟨-, blocks, present, inside⟩ := checkWrite_eq_ok_iff.mp checked
      refine yields_set ⟨⟨blocks.toList, Page.zero⟩, ?_, by simpa using inside, ?_, ?_, id⟩
      · simp [contents_eq, present]
      · apply contents_changeBlocks _ present
        simp [Relation.overwritten]
      · exact Nat.le_of_eq (room_changeBlocks store relation _).symm
    · intro fault refused
      refine ⟨fun sound found present => ?_, .refl store⟩
      simp only [contents_eq, Option.map_eq_some_iff] at present
      obtain ⟨blocks, present, rfl⟩ := present
      rcases Nat.lt_or_ge block.toNat blocks.size with inside | outside
      · have checked : store.checkWrite relation block = .ok () :=
          checkWrite_eq_ok_iff.mpr ⟨sound, blocks, present, inside⟩
        rw [checked] at refused
        exact absurd refused (by simp)
      · simpa using outside
  extend_law store relation := by
    refine yields_get_bind (yields_lift_bind ?_ ?_)
    · intro block counted
      rw [count_eq] at counted
      obtain ⟨found, present, length⟩ := Contents.count_eq_ok_iff.mp counted
      have held := present
      simp only [contents_eq, Option.map_eq_some_iff] at present
      obtain ⟨blocks, present, rfl⟩ := present
      refine yields_set_bind (yields_pure ⟨_, held, length.symm, ?_, ?_, id⟩)
      · apply contents_changeBlocks _ present
        simp [Relation.extended]
      · exact Nat.le_of_eq (room_changeBlocks store relation _).symm
    · intro fault refused
      refine ⟨fun _ found present => ?_, .refl store⟩
      rw [count_eq] at refused
      simp only [Contents.count, present] at refused
      unfold toBlockNumber at refused
      split at refused
      · exact absurd refused (by simp)
      · next large => exact Nat.le_succ_of_le (Nat.le_of_not_lt large)

end MemoryStorage

/-! ## Stores around a store -/

section Wrapping

variable {ω σ α : Type}

/-- A call of a store passes on to a call of the store inside it, or is withheld, which
an intact store never does. -/
def PassesOn
    (inner : ω → σ)
    (Intact : ω → Prop)
    (outer : StorageM ω α)
    (action : StorageM σ α) : Prop :=
  ∀ store,
    (Intact store → Intact (outer.runOn store).2) ∧
      ((outer.runOn store).1 = (action.runOn (inner store)).1 ∧
          inner (outer.runOn store).2 = (action.runOn (inner store)).2 ∨
        ¬Intact store ∧ (∃ fault, (outer.runOn store).1 = .error fault) ∧
          inner (outer.runOn store).2 = inner store)

/-- What a call of the store inside leads to, the call from outside leads to as well. -/
theorem PassesOn.yields
    {inner : ω → σ}
    {Intact : ω → Prop}
    {outer : StorageM ω α}
    {action : StorageM σ α}
    {store : ω}
    {accepted : α → σ → Prop}
    {refused : Fault → σ → Prop}
    {accepted' : α → ω → Prop}
    {refused' : Fault → ω → Prop}
    (passes : PassesOn inner Intact outer action)
    (inside : action.Yields (inner store) (either accepted refused))
    (onAccepted :
      ∀ value left, (Intact store → Intact left) → accepted value (inner left) →
        accepted' value left)
    (onRefused :
      ∀ fault left, (Intact store → Intact left) → refused fault (inner left) →
        refused' fault left)
    (onWithheld :
      ∀ fault left, ¬Intact store → inner left = inner store → refused' fault left) :
    outer.Yields store (either accepted' refused') := by
  obtain ⟨intact, passed | ⟨broken, ⟨fault, withheld⟩, same⟩⟩ := passes store
  · obtain ⟨sameOutcome, sameState⟩ := passed
    unfold Yields at inside ⊢
    rw [← sameOutcome, ← sameState] at inside
    cases outcome : (outer.runOn store).1 with
    | ok value =>
        rw [outcome] at inside
        exact onAccepted value _ intact inside
    | error fault =>
        rw [outcome] at inside
        exact onRefused fault _ intact inside
  · unfold Yields
    rw [withheld]
    exact onWithheld fault _ broken same

/-- A wrapper holds what the store inside it holds. -/
abbrev StorageView.wrapping
    [StorageView σ]
    (inner : ω → σ)
    (Intact : ω → Prop) : StorageView ω where
  contents store := contents (inner store)
  Sound store := Intact store ∧ Sound (inner store)
  room store := room (inner store)
  Follows before after := (Intact before → Intact after) ∧ Follows (inner before) (inner after)
  follows_refl store := ⟨id, follows_refl (inner store)⟩
  follows_trans _ _ _ begins continues :=
    ⟨continues.1 ∘ begins.1, follows_trans _ _ _ begins.2 continues.2⟩
  sound_of_follows _ _ follows sound :=
    ⟨follows.1 sound.1, sound_of_follows _ _ follows.2 sound.2⟩

theorem Became.wrapped
    [StorageView σ]
    {inner : ω → σ}
    {Intact : ω → Prop}
    {before after : ω}
    {held : Contents}
    {spent : Nat}
    (intact : Intact before → Intact after)
    (became : Became (inner before) (inner after) held spent) :
    @Became ω (.wrapping inner Intact) before after held spent :=
  letI : StorageView ω := .wrapping inner Intact
  ⟨became.holds, became.keepsRoom, intact, became.follows⟩

theorem Became.withheld
    [StorageView σ]
    {inner : ω → σ}
    {Intact : ω → Prop}
    {before after : ω}
    (broken : ¬Intact before)
    (same : inner after = inner before) :
    @Became ω (.wrapping inner Intact) before after (contents (inner before)) 0 :=
  letI : StorageView ω := .wrapping inner Intact
  { holds := congrArg (fun store : σ => contents store) same
    keepsRoom := Nat.le_of_eq (congrArg (fun store : σ => room store) same).symm
    follows := ⟨fun intact => absurd intact broken, by rw [same]; exact follows_refl _⟩ }

/-- The laws of a store whose calls pass on to a store inside it. -/
abbrev LawfulStorage.wrapping
    [Storage ω]
    [Storage σ]
    [LawfulStorage σ]
    (inner : ω → σ)
    (Intact : ω → Prop)
    (blockBytes : ∀ store, Storage.blockBytes store = Storage.blockBytes (inner store))
    (create : PassesOn inner Intact Storage.create Storage.create)
    (blockCount :
      ∀ relation,
        PassesOn inner Intact (Storage.blockCount relation) (Storage.blockCount relation))
    (read :
      ∀ relation block,
        PassesOn inner Intact (Storage.read relation block) (Storage.read relation block))
    (write :
      ∀ relation block page,
        PassesOn inner Intact (Storage.write relation block page)
          (Storage.write relation block page))
    (extend :
      ∀ relation, PassesOn inner Intact (Storage.extend relation) (Storage.extend relation)) :
    LawfulStorage ω where
  toStorageView := .wrapping inner Intact
  blockBytes_of_sound sound := (blockBytes _).trans (LawfulStorage.blockBytes_of_sound sound.2)
  create_law store := by
    apply create.yields (LawfulStorage.create_law (inner store))
    · intro relation left intact holds
      rcases holds with ⟨fresh, became⟩
      exact ⟨fresh, became.wrapped intact⟩
    · intro fault left intact holds
      rcases holds with ⟨reason, became⟩
      exact ⟨fun sound => reason sound.2, became.wrapped intact⟩
    · intro fault left broken same
      exact ⟨fun sound => absurd sound.1 broken, .withheld broken same⟩
  count_law store relation := by
    apply (blockCount relation).yields (LawfulStorage.count_law (inner store) relation)
    · intro number left intact holds
      rcases holds with ⟨counted, became⟩
      exact ⟨counted, became.wrapped intact⟩
    · intro fault left intact holds
      rcases holds with ⟨reason, became⟩
      exact ⟨fun sound => reason sound.2, became.wrapped intact⟩
    · intro fault left broken same
      exact ⟨fun sound => absurd sound.1 broken, .withheld broken same⟩
  read_law store relation block := by
    refine (read relation block).yields
      (LawfulStorage.read_law (inner store) relation block) ?_ ?_ ?_
    · intro page left intact holds
      rcases holds with ⟨found, became⟩
      exact ⟨found, became.wrapped intact⟩
    · intro fault left intact holds
      rcases holds with ⟨reason, became⟩
      exact ⟨fun sound => reason sound.2, became.wrapped intact⟩
    · intro fault left broken same
      exact ⟨fun sound => absurd sound.1 broken, .withheld broken same⟩
  write_law store relation block page := by
    refine (write relation block page).yields
      (LawfulStorage.write_law (inner store) relation block page) ?_ ?_ ?_
    · intro _ left intact holds
      rcases holds with ⟨found, present, inside, became⟩
      exact ⟨found, present, inside, became.wrapped intact⟩
    · intro fault left intact holds
      rcases holds with ⟨reason, became⟩
      exact ⟨fun sound => reason sound.2, became.wrapped intact⟩
    · intro fault left broken same
      exact ⟨fun sound => absurd sound.1 broken, .withheld broken same⟩
  extend_law store relation := by
    apply (extend relation).yields (LawfulStorage.extend_law (inner store) relation)
    · intro block left intact holds
      rcases holds with ⟨found, present, number, became⟩
      exact ⟨found, present, number, became.wrapped intact⟩
    · intro fault left intact holds
      rcases holds with ⟨reason, became⟩
      exact ⟨fun sound => reason sound.2, became.wrapped intact⟩
    · intro fault left broken same
      exact ⟨fun sound => absurd sound.1 broken, .withheld broken same⟩

end Wrapping

variable {σ α : Type}

theorem Traced.passesOn_untraced (action : StorageM σ α) :
    PassesOn Traced.inner (fun _ => True) (untraced action) action :=
  fun _ => ⟨id, .inl ⟨rfl, rfl⟩⟩

theorem Traced.passesOn_record (transfer : Transfer) (action : StorageM σ α) :
    PassesOn Traced.inner (fun _ => True) (do record transfer; untraced action) action :=
  fun _ => ⟨id, .inl ⟨rfl, rfl⟩⟩

instance [Storage σ] [LawfulStorage σ] : LawfulStorage (Traced σ) :=
  .wrapping Traced.inner (fun _ => True) (fun _ => rfl)
    (Traced.passesOn_untraced _)
    (fun _ => Traced.passesOn_untraced _)
    (fun _ _ => Traced.passesOn_record _ _)
    (fun _ _ _ => Traced.passesOn_record _ _)
    (fun _ => Traced.passesOn_untraced _)

theorem Traced.sound_fresh [Storage σ] [LawfulStorage σ] {store : σ} (sound : Sound store) :
    Sound (Traced.fresh store) :=
  ⟨trivial, sound⟩

theorem Recording.passesOn_onInner (action : StorageM σ α) :
    PassesOn Recording.inner (fun _ => True) (onInner action) action :=
  fun _ => ⟨id, .inl ⟨rfl, rfl⟩⟩

instance [Storage σ] [LawfulStorage σ] : LawfulStorage (Recording σ) :=
  .wrapping Recording.inner (fun _ => True) (fun _ => rfl)
    (Recording.passesOn_onInner _)
    (fun _ => Recording.passesOn_onInner _)
    (fun _ _ => Recording.passesOn_onInner _)
    (fun _ _ _ => Recording.passesOn_onInner _)
    (fun _ => Recording.passesOn_onInner _)

namespace Faulty

/-- No call is planned to fail. -/
def Unfailing (store : Faulty σ) : Prop :=
  ∀ call ordinal failed, store.plan call ordinal failed = none

theorem passesOn_bypass (action : StorageM σ α) :
    PassesOn Faulty.inner Unfailing (bypass action) action :=
  fun _ => ⟨id, .inl ⟨rfl, rfl⟩⟩

theorem passesOn_guarded (call : StoreCall) (action : StorageM σ α) :
    PassesOn Faulty.inner Unfailing (guarded call action) action := by
  intro store
  cases planned : store.plan call (store.calls.count call) store.failed with
  | some fault =>
      have ran :
          (guarded call action).runOn store =
            (.error fault,
              ⟨store.inner, store.plan, store.calls.add call, store.failed + 1⟩) := by
        simp [guarded, planned]
      refine ⟨fun unfailing => ?_, .inr ⟨fun unfailing => ?_, ⟨fault, ?_⟩, ?_⟩⟩
      · exact absurd (unfailing _ _ _) (by rw [planned]; simp)
      · exact absurd (unfailing _ _ _) (by rw [planned]; simp)
      · rw [ran]
      · rw [ran]
  | none =>
      have ran :
          (guarded call action).runOn store =
            ((action.runOn store.inner).1,
              ⟨(action.runOn store.inner).2, store.plan, store.calls.add call,
                store.failed⟩) := by
        simp [guarded, planned]
      refine ⟨fun unfailing => ?_, .inl ⟨?_, ?_⟩⟩
      · rw [ran]
        exact unfailing
      · rw [ran]
      · rw [ran]

instance [Storage σ] [LawfulStorage σ] : LawfulStorage (Faulty σ) :=
  .wrapping Faulty.inner Unfailing (fun _ => rfl)
    (passesOn_guarded _ _)
    (fun _ => passesOn_bypass _)
    (fun _ _ => passesOn_guarded _ _)
    (fun _ _ _ => passesOn_guarded _ _)
    (fun _ => passesOn_guarded _ _)

end Faulty

end ObliviousStorage

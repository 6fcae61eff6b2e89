import ObliviousStorage.Proofs.Storage.Failures
import ObliviousStorage.Proofs.Storage.Files

/-!
Contract: which faults a store of pages reports of a relation that it has.

Owns: the faults that say that a request makes no sense; `CandidStorage`, the stores that count
blocks without changing anything and report none of these faults when they extend or overwrite a
relation that they have, unless the fault was imposed on the call; `StaysReady`, the actions that
can rely on this for all of their calls; and that the stores in memory, in files, and around such
stores are candid.

Does not own: whether a call succeeds.
-/

namespace ObliviousStorage

open StorageM StorageView

/-- The fault says that the request makes no sense, or names something that is not there. -/
def Fault.Rejects : Fault → Prop
  | .sizeMismatch .. => True
  | .unknownTarget _ => True
  | .invalidConfiguration _ => True
  | .corruptInput _ => True
  | .notFound _ => True
  | _ => False

theorem not_rejects_of_toBlockNumber
    {count : Nat}
    {fault : Fault}
    (refused : toBlockNumber count = .error fault) :
    ¬fault.Rejects := by
  unfold toBlockNumber at refused
  split at refused
  · exact absurd refused (by simp)
  · rw [← Except.error.inj refused]
    exact id

theorem not_rejects_of_wordSum
    {left right : Nat}
    {fault : Fault}
    (large : wordSum left right = .error fault) :
    ¬fault.Rejects := by
  rw [(wordSum_eq_error_iff.mp large).2]
  exact id

/-- Counting blocks is refused for a relation that is not there, or one with too many blocks. -/
theorem Contents.count_eq_error
    {held : Contents}
    {relation : RelationId}
    {fault : Fault}
    (refused : held.count relation = .error fault) :
    held relation = none ∧ fault = .notFound relation ∨
      held relation ≠ none ∧ ¬fault.Rejects := by
  unfold Contents.count at refused
  cases present : held relation with
  | none =>
      rw [present] at refused
      exact Or.inl ⟨rfl, (Except.error.inj refused).symm⟩
  | some found =>
      rw [present] at refused
      exact Or.inr ⟨by simp, not_rejects_of_toBlockNumber refused⟩

section

variable {σ : Type} [Storage σ]

/-- A store of pages that has the relation. -/
structure Ready [StorageView σ] (relation : RelationId) (state : σ) : Prop where
  pageSized : Storage.blockBytes state = blockSize
  present : contents state relation ≠ none

theorem Ready.not_rejects_of_count
    [StorageView σ]
    {relation : RelationId}
    {state : σ}
    {fault : Fault}
    (ready : Ready relation state)
    (refused : (contents state).count relation = .error fault) :
    ¬fault.Rejects := by
  rcases Contents.count_eq_error refused with ⟨none, -⟩ | ⟨-, full⟩
  · exact absurd none ready.present
  · exact full

/-- A store that is candid about why it refuses a call. -/
class CandidStorage (σ : Type) [Storage σ] [StorageView σ] where
  /-- The faults that calls can be made to fail with, whatever the store holds. -/
  Imposed : σ → Fault → Prop
  count_candid :
    ∀ (state : σ) (relation : RelationId),
      (Storage.blockCount relation : StorageM σ BlockNumber).Yields state fun outcome left =>
        left = state ∧
          ∀ fault, outcome = .error fault → fault = .notFound relation ∨ ¬fault.Rejects
  extend_candid :
    ∀ (state : σ) (relation : RelationId),
      (Storage.extend relation : StorageM σ BlockNumber).Yields state
        (either
          (fun _ left =>
            Storage.blockBytes left = Storage.blockBytes state ∧ Imposed left = Imposed state)
          fun fault _ => Ready relation state → fault.Rejects → Imposed state fault)
  write_candid :
    ∀ (state : σ) (relation : RelationId) (block : BlockNumber) (page : Page),
      (Storage.write relation block page : StorageM σ Unit).Yields state
        (either
          (fun _ left =>
            Storage.blockBytes left = Storage.blockBytes state ∧ Imposed left = Imposed state)
          fun fault _ => Ready relation state → fault.Rejects → Imposed state fault)

end

open CandidStorage (Imposed)

/-! ## Actions on a relation that is there -/

section Staying

variable {σ α β : Type} [Storage σ] [LawfulStorage σ] [CandidStorage σ]

/-- On a store of pages that has the relation, the action either leaves one or is refused. If it
is refused because it makes no sense, then the fault was imposed. -/
def StaysReady (relation : RelationId) (action : StorageM σ α) : Prop :=
  ∀ state : σ, Ready relation state →
    action.Yields state
      (either (fun _ left => Ready relation left ∧ Imposed left = Imposed state)
        fun fault _ => fault.Rejects → Imposed state fault)

namespace StaysReady

variable {relation : RelationId}

theorem ofPure (value : α) : StaysReady relation (pure value : StorageM σ α) :=
  fun _ ready => yields_pure ⟨ready, rfl⟩

theorem bind
    {first : StorageM σ α}
    {next : α → StorageM σ β}
    (begins : StaysReady relation first)
    (continues : ∀ value, StaysReady relation (next value)) :
    StaysReady relation (first >>= next) := by
  intro state ready
  apply yields_bind (begins state ready)
  · intro value between holds
    rcases holds with ⟨readyBetween, same⟩
    rw [← same]
    exact continues value between readyBetween
  · exact fun _ _ holds => holds

theorem ofExtend (relation : RelationId) :
    StaysReady relation (Storage.extend relation : StorageM σ BlockNumber) := by
  intro state ready
  apply ((LawfulStorage.extend_law state relation).and
    (CandidStorage.extend_candid state relation)).weaken
  intro outcome left holds
  rcases holds with ⟨law, candid⟩
  cases outcome with
  | ok block =>
      obtain ⟨found, -, -, became⟩ := law
      refine ⟨⟨candid.1.trans ready.pageSized, ?_⟩, candid.2⟩
      rw [became.holds, Contents.put_same]
      exact Option.some_ne_none _
  | error fault => exact candid ready

theorem ofWrite (relation : RelationId) (block : BlockNumber) (page : Page) :
    StaysReady relation (Storage.write relation block page : StorageM σ Unit) := by
  intro state ready
  apply ((LawfulStorage.write_law state relation block page).and
    (CandidStorage.write_candid state relation block page)).weaken
  intro outcome left holds
  rcases holds with ⟨law, candid⟩
  cases outcome with
  | ok done =>
      obtain ⟨found, -, -, became⟩ := law
      refine ⟨⟨candid.1.trans ready.pageSized, ?_⟩, candid.2⟩
      rw [became.holds, Contents.put_same]
      exact Option.some_ne_none _
  | error fault => exact candid ready

end StaysReady

end Staying

/-! ## Stores that are candid -/

instance : CandidStorage MemoryStorage where
  Imposed _ _ := False
  count_candid store relation := by
    refine yields_get_bind (yields_lift ⟨rfl, fun fault refused => ?_⟩)
    rw [MemoryStorage.count_eq] at refused
    exact (Contents.count_eq_error refused).imp And.right And.right
  extend_candid store relation := by
    refine yields_get_bind (yields_lift_bind ?_ ?_)
    · exact fun _ _ => yields_set_bind (yields_pure ⟨rfl, rfl⟩)
    · intro fault refused ready
      rw [MemoryStorage.count_eq] at refused
      exact ready.not_rejects_of_count refused
  write_candid store relation block page := by
    refine yields_get_bind (yields_lift_bind ?_ ?_)
    · exact fun _ _ => yields_set ⟨rfl, rfl⟩
    · intro fault refused ready
      rcases bind_eq_error_iff.mp refused with otherSize | ⟨_, -, refused⟩
      · exact absurd ready.pageSized (require_eq_error_iff.mp otherSize).1
      · rcases bind_eq_error_iff.mp refused with missing | ⟨_, -, outside⟩
        · have present := ready.present
          rw [MemoryStorage.contents_eq] at present
          rw [MemoryStorage.blocks_eq] at missing
          cases found : store.blocks? relation with
          | none => simp [found] at present
          | some blocks => simp [found] at missing
        · rw [(require_eq_error_iff.mp outside).2]
          exact id

theorem FileStorage.absent_of_error
    {store : FileStorage}
    {relation : RelationId}
    {fault : Fault}
    (missing : store.contents relation = .error fault) :
    StorageView.contents store relation = none := by
  rw [FileStorage.contents] at missing
  cases found : store.directory.contents? (relationFile relation) with
  | none => simp [StorageView.contents, found]
  | some file => simp [found] at missing

instance : CandidStorage FileStorage where
  Imposed _ _ := False
  count_candid store relation := by
    refine yields_get_bind (yields_lift ⟨rfl, fun fault refused => ?_⟩)
    rw [FileStorage.count_eq] at refused
    exact (Contents.count_eq_error refused).imp And.right And.right
  extend_candid store relation := by
    refine yields_get_bind (yields_lift_bind ?_ ?_)
    · intro _ _
      refine yields_lift_bind ?_ fun _ full _ => not_rejects_of_wordSum full
      intro _ _
      refine yields_lift_bind ?_ ?_
      · exact fun _ _ => yields_set_bind (yields_pure ⟨rfl, rfl⟩)
      · exact fun _ missing ready => absurd (FileStorage.absent_of_error missing) ready.present
    · intro fault refused ready
      rw [FileStorage.count_eq] at refused
      exact ready.not_rejects_of_count refused
  write_candid store relation block page := by
    refine yields_get_bind (yields_lift_bind ?_ ?_)
    · intro _ _
      refine yields_lift_bind ?_ ?_
      · exact fun _ _ => yields_set ⟨rfl, rfl⟩
      · exact fun _ missing ready => absurd (FileStorage.absent_of_error missing) ready.present
    · intro fault refused ready
      rcases bind_eq_error_iff.mp refused with uncounted | ⟨_, -, outside⟩
      · rw [FileStorage.count_eq] at uncounted
        exact ready.not_rejects_of_count uncounted
      · rw [(require_eq_error_iff.mp outside).2]
        exact id

section Wrapped

variable {σ : Type} [Storage σ] [LawfulStorage σ] [CandidStorage σ]

instance : CandidStorage (Traced σ) where
  Imposed store := Imposed store.inner
  count_candid store relation := by
    obtain ⟨same, reason⟩ := CandidStorage.count_candid store.inner relation
    exact ⟨congrArg (fun inner : σ => (⟨inner, store.trace⟩ : Traced σ)) same, reason⟩
  extend_candid store relation := by
    apply (Traced.passesOn_untraced _).yields (CandidStorage.extend_candid store.inner relation)
    · exact fun _ _ _ holds => holds
    · exact fun _ _ _ holds ready => holds ⟨ready.pageSized, ready.present⟩
    · exact fun _ _ broken => absurd trivial broken
  write_candid store relation block page := by
    apply (Traced.passesOn_record _ _).yields
      (CandidStorage.write_candid store.inner relation block page)
    · exact fun _ _ _ holds => holds
    · exact fun _ _ _ holds ready => holds ⟨ready.pageSized, ready.present⟩
    · exact fun _ _ broken => absurd trivial broken

/-- A store that follows a plan imposes the faults of the plan and of the store underneath. -/
def Faulty.Imposes (store : Faulty σ) (fault : Fault) : Prop :=
  store.plan.Injects fault ∨ Imposed store.inner fault

theorem Faulty.guarded_candid
    {α : Type}
    {call : StoreCall}
    {action : StorageM σ α}
    {relation : RelationId}
    {store : Faulty σ}
    (inside :
      action.Yields store.inner
        (either
          (fun _ left =>
            Storage.blockBytes left = Storage.blockBytes store.inner ∧
              Imposed left = Imposed store.inner)
          fun fault _ =>
            Ready relation store.inner → fault.Rejects → Imposed store.inner fault)) :
    (guarded call action).Yields store
      (either
        (fun _ left =>
          Storage.blockBytes left = Storage.blockBytes store ∧ left.Imposes = store.Imposes)
        fun fault _ => Ready relation store → fault.Rejects → store.Imposes fault) := by
  apply (FailsByPlan.ofGuarded call action store).weaken
  intro outcome left holds
  rcases holds with ⟨samePlan, passed | ⟨fault, rfl, injected⟩⟩
  · have candid := inside.runOn passed.symm
    cases outcome with
    | ok value =>
        refine ⟨candid.1, funext fun fault => ?_⟩
        rw [Imposes, Imposes, samePlan, candid.2]
    | error fault =>
        exact fun ready rejects => Or.inr (candid ⟨ready.pageSized, ready.present⟩ rejects)
  · exact fun _ _ => Or.inl injected

instance : CandidStorage (Faulty σ) where
  Imposed := Faulty.Imposes
  count_candid store relation := by
    obtain ⟨same, reason⟩ := CandidStorage.count_candid store.inner relation
    exact
      ⟨congrArg (fun inner : σ => (⟨inner, store.plan, store.calls, store.failed⟩ : Faulty σ)) same,
        reason⟩
  extend_candid store relation :=
    Faulty.guarded_candid (CandidStorage.extend_candid store.inner relation)
  write_candid store relation block page :=
    Faulty.guarded_candid (CandidStorage.write_candid store.inner relation block page)

end Wrapped

end ObliviousStorage

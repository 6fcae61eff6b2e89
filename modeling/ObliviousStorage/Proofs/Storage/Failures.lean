import ObliviousStorage.Proofs.Storage.Outcomes
import ObliviousStorage.Storage.Faulty

/-!
Contract: actions on a store that follows a plan of failures, next to the same actions on
the store underneath.

Owns: `FailsOrPasses`, that a failure of a call is never swallowed, and that without one
the plan cannot be noticed; `FailsByPlan`, that no other fault is reported than one of the
plan or one of the store underneath; that the calls of the store have these properties and
that sequences keep them.

Does not own: which calls the plan makes fail.
-/

namespace ObliviousStorage

/-- The plan makes some call fail with this fault. -/
def FaultPlan.Injects (plan : FaultPlan) (fault : Fault) : Prop :=
  ∃ call ordinal failed, plan call ordinal failed = some fault

namespace Faulty

open StorageM

variable {σ α β : Type}

/-- Over a store that follows a plan, `outer` does what `action` does on the store
underneath, unless a call was made to fail; then it is refused. -/
def FailsOrPasses
    (σ : Type)
    {α : Type}
    (outer : StorageM (Faulty σ) α)
    (action : StorageM σ α) : Prop :=
  ∀ store : Faulty σ,
    outer.Yields store fun outcome left =>
      left.failed = store.failed ∧ (outcome, left.inner) = action.runOn store.inner ∨
        store.failed < left.failed ∧ ∃ fault, outcome = .error fault

namespace FailsOrPasses

theorem ofPure (value : α) : FailsOrPasses σ (pure value) (pure value) :=
  fun _ => yields_pure (Or.inl ⟨rfl, rfl⟩)

theorem ofThrow (fault : Fault) :
    FailsOrPasses σ (throw fault : StorageM (Faulty σ) α) (throw fault) :=
  fun _ => yields_throw (Or.inl ⟨rfl, rfl⟩)

theorem ofLift (outcome : Except Fault α) :
    FailsOrPasses σ (liftM outcome) (liftM outcome) :=
  fun _ => yields_lift (Or.inl ⟨rfl, rfl⟩)

theorem bind
    {outer : StorageM (Faulty σ) α}
    {action : StorageM σ α}
    {outerNext : α → StorageM (Faulty σ) β}
    {next : α → StorageM σ β}
    (begins : FailsOrPasses σ outer action)
    (continues : ∀ value, FailsOrPasses σ (outerNext value) (next value)) :
    FailsOrPasses σ (outer >>= outerNext) (action >>= next) := by
  intro store
  apply yields_bind (begins store)
  · intro value between holds
    rcases holds with ⟨unfailed, passed⟩ | ⟨-, fault, refused⟩
    · have ran : (action >>= next).runOn store.inner = (next value).runOn between.inner := by
        rw [runOn_bind, ← passed]
      rw [ran, ← unfailed]
      exact continues value between
    · exact absurd refused (by simp)
  · intro fault between holds
    rcases holds with ⟨unfailed, passed⟩ | ⟨failed, -⟩
    · refine Or.inl ⟨unfailed, ?_⟩
      rw [runOn_bind, ← passed]
    · exact Or.inr ⟨failed, fault, rfl⟩

theorem ofBypass (action : StorageM σ α) : FailsOrPasses σ (bypass action) action :=
  fun _ => Or.inl ⟨rfl, rfl⟩

theorem ofGuarded (call : StoreCall) (action : StorageM σ α) :
    FailsOrPasses σ (guarded call action) action := by
  intro store
  cases planned : store.plan call (store.calls.count call) store.failed <;>
    simp [Yields, guarded, planned]

end FailsOrPasses

/-! ## Whose fault it is -/

/-- Over a store that follows a plan, `outer` does what `action` does on the store
underneath, unless it is refused with a fault of the plan. -/
def FailsByPlan
    (σ : Type)
    {α : Type}
    (outer : StorageM (Faulty σ) α)
    (action : StorageM σ α) : Prop :=
  ∀ store : Faulty σ,
    outer.Yields store fun outcome left =>
      left.plan = store.plan ∧
        ((outcome, left.inner) = action.runOn store.inner ∨
          ∃ fault, outcome = .error fault ∧ store.plan.Injects fault)

namespace FailsByPlan

theorem ofPure (value : α) : FailsByPlan σ (pure value) (pure value) :=
  fun _ => yields_pure ⟨rfl, Or.inl rfl⟩

theorem bind
    {outer : StorageM (Faulty σ) α}
    {action : StorageM σ α}
    {outerNext : α → StorageM (Faulty σ) β}
    {next : α → StorageM σ β}
    (begins : FailsByPlan σ outer action)
    (continues : ∀ value, FailsByPlan σ (outerNext value) (next value)) :
    FailsByPlan σ (outer >>= outerNext) (action >>= next) := by
  intro store
  apply yields_bind (begins store)
  · intro value between holds
    rcases holds with ⟨samePlan, passed | ⟨fault, refused, -⟩⟩
    · have ran : (action >>= next).runOn store.inner = (next value).runOn between.inner := by
        rw [runOn_bind, ← passed]
      rw [ran, ← samePlan]
      exact continues value between
    · exact absurd refused (by simp)
  · intro fault between holds
    rcases holds with ⟨samePlan, passed | ⟨other, refused, injected⟩⟩
    · exact ⟨samePlan, Or.inl (by rw [runOn_bind, ← passed])⟩
    · obtain rfl := Except.error.inj refused
      exact ⟨samePlan, Or.inr ⟨fault, rfl, injected⟩⟩

theorem ofGuarded (call : StoreCall) (action : StorageM σ α) :
    FailsByPlan σ (guarded call action) action := by
  intro store
  cases planned : store.plan call (store.calls.count call) store.failed with
  | none => simp [Yields, guarded, planned]
  | some fault =>
      have injected : store.plan.Injects fault := ⟨call, _, _, planned⟩
      simp [Yields, guarded, planned, injected]

end FailsByPlan

end Faulty

end ObliviousStorage

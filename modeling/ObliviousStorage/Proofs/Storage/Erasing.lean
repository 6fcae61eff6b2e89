import ObliviousStorage.Handover.Target
import ObliviousStorage.Proofs.Storage.Outcomes
import ObliviousStorage.Storage.Traced

/-!
Contract: actions on a store that is wrapped around another one, next to the same actions on the
store inside.

Owns: `Projects`, that an action cannot notice what is around the store inside, with one rule for
each way to build an action; `Erases`, the same for a store that remembers its transfers; and
`aside`, by which a target of the store underneath takes pages without a trace.

Does not own: what is kept around a store.
-/

namespace ObliviousStorage

namespace StorageM

variable
  {ω σ α β : Type}
  {inside : ω → σ}

/-- Over a state that holds another one, `outer` does what `action` does on the one inside. -/
def Projects (inside : ω → σ) (outer : StorageM ω α) (action : StorageM σ α) : Prop :=
  ∀ state,
    (outer.runOn state).1 = (action.runOn (inside state)).1 ∧
      inside (outer.runOn state).2 = (action.runOn (inside state)).2

namespace Projects

theorem ofPure (value : α) : Projects inside (pure value) (pure value) :=
  fun _ => ⟨rfl, rfl⟩

theorem bind
    {outer : StorageM ω α}
    {action : StorageM σ α}
    {outerNext : α → StorageM ω β}
    {next : α → StorageM σ β}
    (begins : Projects inside outer action)
    (continues : ∀ value, Projects inside (outerNext value) (next value)) :
    Projects inside (outer >>= outerNext) (action >>= next) := by
  intro state
  obtain ⟨sameOutcome, sameState⟩ := begins state
  rw [runOn_bind, runOn_bind]
  cases ran : outer.runOn state with
  | mk outcome left =>
      cases ranInside : action.runOn (inside state) with
      | mk within below =>
          rw [ran, ranInside] at sameOutcome sameState
          simp only at sameOutcome sameState
          subst sameOutcome sameState
          cases outcome with
          | ok value => exact continues value left
          | error fault => exact ⟨rfl, rfl⟩

/-- One check in front of two actions. -/
theorem check
    {outcome : Except Fault α}
    {outerNext : α → StorageM ω β}
    {next : α → StorageM σ β}
    (continues : ∀ value, outcome = .ok value → Projects inside (outerNext value) (next value)) :
    Projects inside (liftM outcome >>= outerNext) (liftM outcome >>= next) := by
  intro state
  rw [runOn_bind, runOn_bind, runOn_lift, runOn_lift]
  cases outcome with
  | ok value => exact continues value rfl state
  | error fault => exact ⟨rfl, rfl⟩

end Projects

end StorageM

namespace Traced

open StorageM

variable {σ α β : Type}

/-- A target that takes pages without its transfers being remembered. -/
def aside (target : PageTarget σ) : PageTarget (Traced σ) where
  addIndexPage page offset depth := untraced (target.addIndexPage page offset depth)
  addHeapPage page block := untraced (target.addHeapPage page block)

/-- Over a store that remembers its transfers, `outer` does what `action` does on the store
underneath. -/
def Erases (outer : StorageM (Traced σ) α) (action : StorageM σ α) : Prop :=
  ∀ store : Traced σ,
    (outer.runOn store).1 = (action.runOn store.inner).1 ∧
      (outer.runOn store).2.inner = (action.runOn store.inner).2

namespace Erases

theorem ofPure (value : α) : Erases (pure value : StorageM (Traced σ) α) (pure value) :=
  fun _ => ⟨rfl, rfl⟩

theorem ofThrow (fault : Fault) :
    Erases (throw fault : StorageM (Traced σ) α) (throw fault) :=
  fun _ => ⟨rfl, rfl⟩

theorem ofUntraced (action : StorageM σ α) : Erases (untraced action) action :=
  fun _ => ⟨rfl, rfl⟩

theorem ofRead [Storage σ] (relation : RelationId) (block : BlockNumber) :
    Erases (Storage.read relation block : StorageM (Traced σ) Page)
      (Storage.read relation block) :=
  fun _ => ⟨rfl, rfl⟩

theorem bind
    {outer : StorageM (Traced σ) α}
    {action : StorageM σ α}
    {outerNext : α → StorageM (Traced σ) β}
    {next : α → StorageM σ β}
    (begins : Erases outer action)
    (continues : ∀ value, Erases (outerNext value) (next value)) :
    Erases (outer >>= outerNext) (action >>= next) :=
  Projects.bind begins continues

theorem check
    {outcome : Except Fault α}
    {outerNext : α → StorageM (Traced σ) β}
    {next : α → StorageM σ β}
    (continues : ∀ value, outcome = .ok value → Erases (outerNext value) (next value)) :
    Erases (liftM outcome >>= outerNext) (liftM outcome >>= next) :=
  Projects.check continues

end Erases

end Traced

end ObliviousStorage

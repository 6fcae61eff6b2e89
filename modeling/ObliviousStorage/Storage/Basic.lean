import ObliviousStorage.Page.Image

/-!
Contract: what every block store offers.

Owns: actions on a store, which return a value or a fault and leave the store
behind in either case; the operations of a block store as a class over the type of
its state; and the lifting of actions to a state that holds a store next to
something else.

Does not own: any particular store. In particular a fault does not by itself undo
what an action did before it.
-/

namespace ObliviousStorage

/-- Actions on a state of type `σ` that may be refused. The state that an action
leaves behind survives its refusal. -/
abbrev StorageM (σ : Type) := ExceptT Fault (StateM σ)

/-- The outcome of an action from a given state, and the state it leaves behind. -/
def StorageM.runOn {σ α : Type} (action : StorageM σ α) (state : σ) : Except Fault α × σ :=
  (ExceptT.run action).run state

def StorageM.ofOutcome {σ α : Type} (outcome : σ → Except Fault α × σ) : StorageM σ α :=
  ExceptT.mk outcome

/-- An action on the second half of a pair, as an action on the pair. -/
def StorageM.onSecond {τ σ α : Type} (action : StorageM σ α) : StorageM (τ × σ) α :=
  StorageM.ofOutcome fun (first, second) =>
    let (outcome, changed) := action.runOn second
    (outcome, (first, changed))

/-- An action on a pair, with the first half given and returned. -/
def StorageM.withFirst {τ σ α : Type} (first : τ) (action : StorageM (τ × σ) α) :
    StorageM σ (α × τ) :=
  StorageM.ofOutcome fun second =>
    let (outcome, (changedFirst, changedSecond)) := action.runOn (first, second)
    (outcome.map fun value => (value, changedFirst), changedSecond)

/-- Relations of blocks, each block a page. -/
class Storage (σ : Type) where
  /-- The size in bytes of the store's blocks. -/
  blockBytes : σ → Nat
  /-- Creates an empty relation and returns its identity. -/
  create : StorageM σ RelationId
  blockCount : RelationId → StorageM σ BlockNumber
  read : RelationId → BlockNumber → StorageM σ Page
  /-- Overwrites a block, which must exist. -/
  write : RelationId → BlockNumber → Page → StorageM σ Unit
  /-- Adds a zero-filled block to the end of a relation and returns its number. -/
  extend : RelationId → StorageM σ BlockNumber

/-- A count as a block number, if it is small enough to be one. -/
def toBlockNumber (count : Nat) : Except Fault BlockNumber :=
  if count < blockNumberBound then
    .ok (UInt32.ofNat count)
  else
    .error .integerConversion

def blockRange (count : BlockNumber) : List BlockNumber :=
  (List.range count.toNat).map UInt32.ofNat

/-! ## How outcomes compose -/

namespace StorageM

variable {σ τ α β : Type}

@[simp] theorem runOn_pure (value : α) (state : σ) :
    (pure value : StorageM σ α).runOn state = (.ok value, state) := rfl

@[simp] theorem runOn_throw (fault : Fault) (state : σ) :
    (throw fault : StorageM σ α).runOn state = (.error fault, state) := rfl

@[simp] theorem runOn_ofOutcome (outcome : σ → Except Fault α × σ) (state : σ) :
    (StorageM.ofOutcome outcome).runOn state = outcome state := rfl

theorem runOn_bind (action : StorageM σ α) (next : α → StorageM σ β) (state : σ) :
    (action >>= next).runOn state =
      match action.runOn state with
      | (.ok value, changed) => (next value).runOn changed
      | (.error fault, changed) => (.error fault, changed) := by
  simp only [runOn, ExceptT.run_bind, StateT.run_bind]
  cases outcome : (ExceptT.run action).run state with
  | mk result changed => cases result <;> rfl

@[simp] theorem runOn_lift (outcome : Except Fault α) (state : σ) :
    (liftM outcome : StorageM σ α).runOn state = (outcome, state) := rfl

theorem runOn_onSecond (action : StorageM σ α) (first : τ) (second : σ) :
    (action.onSecond : StorageM (τ × σ) α).runOn (first, second) =
      ((action.runOn second).1, (first, (action.runOn second).2)) := rfl

theorem runOn_withFirst (first : τ) (action : StorageM (τ × σ) α) (second : σ) :
    (action.withFirst first : StorageM σ (α × τ)).runOn second =
      ((action.runOn (first, second)).1.map fun value => (value, (action.runOn (first, second)).2.1),
        (action.runOn (first, second)).2.2) := rfl

end StorageM

end ObliviousStorage

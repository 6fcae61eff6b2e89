import ObliviousStorage.Storage.Basic

/-!
Contract: a block store some of whose calls fail.

Owns: the plan that decides which calls fail, the tally it decides by, and the rule
that a failing call does not reach the store underneath. Every schedule of failures
of a run is such a plan, since the kind of a call and its ordinal among the calls
of that kind identify it.

Does not own: the blocks. Counting blocks never fails this way.
-/

namespace ObliviousStorage

/-- The kinds of call that can be made to fail. -/
inductive StoreCall where
  | create
  | allocate
  | read
  | write
deriving DecidableEq, Repr

structure CallTally where
  creates : Nat
  allocates : Nat
  reads : Nat
  writes : Nat
deriving DecidableEq, Repr

namespace CallTally

def zero : CallTally := ⟨0, 0, 0, 0⟩

def count (tally : CallTally) : StoreCall → Nat
  | .create => tally.creates
  | .allocate => tally.allocates
  | .read => tally.reads
  | .write => tally.writes

def add (tally : CallTally) : StoreCall → CallTally
  | .create => { tally with creates := tally.creates + 1 }
  | .allocate => { tally with allocates := tally.allocates + 1 }
  | .read => { tally with reads := tally.reads + 1 }
  | .write => { tally with writes := tally.writes + 1 }

end CallTally

/-- Which calls fail, and how: decided by the kind of the call, the number of calls
of that kind before it, and the number of calls that failed before it. -/
abbrev FaultPlan := StoreCall → (ordinal : Nat) → (failed : Nat) → Option Fault

def FaultPlan.none : FaultPlan := fun _ _ _ => Option.none

/-- How many calls of each kind go through before every later one fails, and after
how many failures the store recovers for good. What is not given is unlimited. -/
structure FaultBudget where
  creates : Option Nat
  allocates : Option Nat
  reads : Option Nat
  writes : Option Nat
  heal : Option Nat
deriving DecidableEq, Repr

namespace FaultBudget

def limit (budget : FaultBudget) : StoreCall → Option Nat
  | .create => budget.creates
  | .allocate => budget.allocates
  | .read => budget.reads
  | .write => budget.writes

def plan (budget : FaultBudget) : FaultPlan := fun call ordinal failed =>
  match budget.limit call with
  | none => none
  | some limit =>
      let healed := budget.heal.any fun enough => enough ≤ failed
      if limit ≤ ordinal ∧ healed = false then some .allocationFailure else none

end FaultBudget

/-- A store, the plan of its failures, and what has happened so far. -/
structure Faulty (σ : Type) where
  inner : σ
  plan : FaultPlan
  calls : CallTally
  failed : Nat

namespace Faulty

variable {σ α : Type}

/-- A store about to follow a plan. -/
def start (plan : FaultPlan) (inner : σ) : Faulty σ := ⟨inner, plan, .zero, 0⟩

/-- A store that never fails on its own account. -/
def sound (inner : σ) : Faulty σ := start .none inner

/-- The store with its plan replaced, to be followed from its beginning. -/
def replan (plan : FaultPlan) (store : Faulty σ) : Faulty σ := start plan store.inner

/-- An action on the store underneath that the plan does not touch. -/
def bypass (action : StorageM σ α) : StorageM (Faulty σ) α :=
  StorageM.ofOutcome fun ⟨inner, plan, calls, failed⟩ =>
    let (outcome, changed) := action.runOn inner
    (outcome, ⟨changed, plan, calls, failed⟩)

/-- A call that the plan may make fail. -/
def guarded (call : StoreCall) (action : StorageM σ α) : StorageM (Faulty σ) α :=
  StorageM.ofOutcome fun ⟨inner, plan, calls, failed⟩ =>
    match plan call (calls.count call) failed with
    | some fault => (.error fault, ⟨inner, plan, calls.add call, failed + 1⟩)
    | none =>
        let (outcome, changed) := action.runOn inner
        (outcome, ⟨changed, plan, calls.add call, failed⟩)

instance [Storage σ] : Storage (Faulty σ) where
  blockBytes store := Storage.blockBytes store.inner
  create := guarded .create Storage.create
  blockCount relation := bypass (Storage.blockCount relation)
  read relation block := guarded .read (Storage.read relation block)
  write relation block page := guarded .write (Storage.write relation block page)
  extend relation := guarded .allocate (Storage.extend relation)

end Faulty

end ObliviousStorage

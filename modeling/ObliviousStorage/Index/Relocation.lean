import ObliviousStorage.Handover.Target
import ObliviousStorage.Index.Metapage
import ObliviousStorage.Index.Search
import ObliviousStorage.Index.Walk

/-!
Contract: measuring an index, relocating its pages into level order, and looking
keys up among the relocated pages.

Owns: the walk as an action on a block store, and the lookup of a key among
relocated pages, whose links are positions within levels.

Measuring and relocating are the same walk; only a relocation has a place to hand
its pages to.

Does not own: what becomes of a page that was handed over.
-/

namespace ObliviousStorage.Index

variable {σ : Type} [Storage σ]

/-- What a walk is for: it relocates if it has somewhere to hand pages to. -/
def walkMode (target : Option (PageTarget σ)) : WalkMode :=
  if target.isSome then .relocate else .measure

/-- Hands a visited page over, if there is a target. -/
def handOver (target : Option (PageTarget σ)) (page : Page) (offset depth : Nat) :
    StorageM σ Unit :=
  match target with
  | none => return ()
  | some target => target.addIndexPage page offset depth

/-- Visits the pages of a queue and all pages below them. -/
def walkFrom
    (index : RelationId)
    (target : Option (PageTarget σ))
    (rootLevel : Nat)
    (tally : LevelTally) :
    (queue : List Pending) → StorageM σ Profile
  | [] => return tally.profile
  | pending :: rest => do
      let page ← Storage.read index pending.block
      match _visited : tally.visit (walkMode target) rootLevel pending page with
      | .error fault => throw fault
      | .ok visit => do
          handOver target visit.page tally.offset pending.depth
          let advanced ← tally.advance pending visit
          walkFrom index target rootLevel advanced (rest ++ visit.children)
termination_by queue => queueWeight rootLevel queue
decreasing_by exact queueWeight_visit_lt rest _visited

/-- Walks over a whole index and returns its shape. -/
def walk (index : RelationId) (target : Option (PageTarget σ)) : StorageM σ Profile := do
  let first ← Storage.read index metapageBlock
  let metapage ← Metapage.read first
  walkFrom index target metapage.level.toNat .start [.ofRoot metapage.root]

/-- Measures an index without changing anything. -/
def measure (index : RelationId) : StorageM σ Profile := walk index none

/-- Relocates the pages of an index into level order and hands them over. -/
def relocate (index : RelationId) (target : PageTarget σ) : StorageM σ Unit := do
  let _ ← walk index (some target)
  return ()

/-- The page of a relation that has this position in a layout. -/
def fetchPlaced (layout : Layout) (relation : RelationId) (offset : BlockNumber)
    (depth : Nat) : StorageM σ Page := do
  let block ← layout.blockAt depth offset.toNat
  Storage.read relation block

def lookupPlaced (layout : Layout) (relation : RelationId) (key : Int64) :
    StorageM σ (Option RecordId) := do
  let root ← fetchPlaced layout relation 0 0
  descend (fetchPlaced layout relation) root key

end ObliviousStorage.Index

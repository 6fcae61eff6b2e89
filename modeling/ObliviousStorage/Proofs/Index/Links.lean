import ObliviousStorage.Proofs.Index.Numbering

/-!
Contract: the tree that the links of an index span, told without a walk over it.

Owns: the blocks that the data slots of a page link to, from left to right; the blocks
that links lead to from the root; and that a visit finds what its page links to.

Does not own: which blocks a walk visits, and in which order.
-/

namespace ObliviousStorage.Index

/-! ## Links of a page -/

/-- The blocks that a page links to, from left to right. A leaf links to none, whatever
its slots hold. -/
def liveLinks (page : Page) : Except Fault (List BlockNumber) := do
  let trailer ← Trailer.read page
  if trailer.isLeaf then
    return []
  else
    (trailer.dataSlots page).mapM fun slot => do
      let entry ← Entry.read page slot
      return entry.block

/-- The blocks that some pages link to, page by page. -/
def levelLinks (pages : List Page) : Except Fault (List BlockNumber) := do
  let links ← pages.mapM liveLinks
  return links.flatten

theorem mapM_eq_ok_iff
    {α β : Type}
    {step : α → Except Fault β}
    {items : List α}
    {results : List β} :
    items.mapM step = .ok results ↔
      List.Forall₂ (fun item result => step item = .ok result) items results := by
  induction items generalizing results with
  | nil => simp [pure, Except.pure, eq_comm]
  | cons item rest inductionHypothesis =>
      simp only [List.mapM_cons, bind_eq_ok_iff, inductionHypothesis, pure, Except.pure,
        Except.ok.injEq, List.forall₂_cons_left_iff]
      constructor
      · intro holds
        rcases holds with ⟨result, first, results, others, rfl⟩
        exact ⟨result, results, first, others, rfl⟩
      · intro holds
        rcases holds with ⟨result, results, first, others, rfl⟩
        exact ⟨result, first, results, others, rfl⟩

/-- Pages that are read one by one link to what each of them links to. -/
theorem levelLinks_map
    {α : Type}
    {shown : α → Page}
    {links : α → List BlockNumber}
    {items : List α}
    (live : ∀ item ∈ items, liveLinks (shown item) = .ok (links item)) :
    levelLinks (items.map shown) = .ok (items.flatMap links) := by
  have each : (items.map shown).mapM liveLinks = .ok (items.map links) := by
    rw [mapM_eq_ok_iff, List.forall₂_map_left_iff, List.forall₂_map_right_iff, List.forall₂_same]
    exact live
  rw [levelLinks, each, List.flatMap_def]
  rfl

theorem liveLinks_of_leaf
    {page : Page}
    {trailer : Trailer}
    (read : Trailer.read page = .ok trailer)
    (leaf : trailer.isLeaf = true) :
    liveLinks page = .ok [] := by
  simp only [liveLinks, read, bind, Except.bind, leaf, ↓reduceIte]
  rfl

theorem liveLinks_of_inner
    {page : Page}
    {trailer : Trailer}
    {links : List BlockNumber}
    (read : Trailer.read page = .ok trailer)
    (inner : trailer.isLeaf = false)
    (entries :
      List.Forall₂
        (fun slot block => ∃ entry, Entry.read page slot = .ok entry ∧ entry.block = block)
        (trailer.dataSlots page) links) :
    liveLinks page = .ok links := by
  have each :
      ((trailer.dataSlots page).mapM fun slot => do
        let entry ← Entry.read page slot
        return entry.block) = .ok links := by
    rw [mapM_eq_ok_iff]
    refine entries.imp ?_
    rintro slot block ⟨entry, found, rfl⟩
    exact bind_eq_ok_iff.mpr ⟨entry, found, rfl⟩
  simpa only [liveLinks, read, bind, Except.bind, inner, Bool.false_eq_true, ↓reduceIte] using each

/-- The children that a measuring visit finds are what the page links to. -/
theorem liveLinks_of_visit
    {tally : LevelTally}
    {rootLevel : Nat}
    {pending : Pending}
    {page : Page}
    {visit : Visit}
    (measured : tally.visit .measure rootLevel pending page = .ok visit) :
    liveLinks page = .ok (visit.children.map Pending.block) := by
  obtain ⟨read, -⟩ := LevelTally.visit_eq_ok_iff.mp measured
  cases role : visit.trailer.isLeaf with
  | true =>
      rcases LevelTally.visit_shape measured with ⟨-, noChildren, -⟩ | ⟨inner, -⟩
      · rw [noChildren, liveLinks_of_leaf read role, List.map_nil]
      · rw [role] at inner
        exact absurd inner (by simp)
  | false =>
      refine liveLinks_of_inner read role ?_
      rw [List.forall₂_map_right_iff]
      refine (LevelTally.visit_links measured role).imp ?_
      rintro slot child ⟨entry, found, rfl⟩
      exact ⟨entry, found, rfl⟩

/-! ## Blocks of a tree -/

/-- The blocks that links lead to from the root that the metapage names. -/
inductive Reachable (fetch : BlockNumber → Except Fault Page) : BlockNumber → Prop
  | root
      {first : Page}
      {metapage : Metapage}
      (found : fetch metapageBlock = .ok first)
      (opens : Metapage.read first = .ok metapage) :
      Reachable fetch metapage.root
  | child
      {parent block : BlockNumber}
      {page : Page}
      {links : List BlockNumber}
      (reached : Reachable fetch parent)
      (found : fetch parent = .ok page)
      (live : liveLinks page = .ok links)
      (among : block ∈ links) :
      Reachable fetch block

namespace Reachable

variable {fetch : BlockNumber → Except Fault Page}

theorem of_root
    {first : Page}
    {metapage : Metapage}
    (found : fetch metapageBlock = .ok first)
    (opens : Metapage.read first = .ok metapage) :
    ∀ pending ∈ [Pending.ofRoot metapage.root], Reachable fetch pending.block := by
  intro pending member
  rw [List.mem_singleton.mp member]
  exact .root found opens

/-- If links lead to all pages that wait, then also to those that wait after the first of
them was visited. -/
theorem of_visited
    {pending : Pending}
    {rest children : List Pending}
    {page : Page}
    (waiting : ∀ next ∈ pending :: rest, Reachable fetch next.block)
    (found : fetch pending.block = .ok page)
    (live : liveLinks page = .ok (children.map Pending.block)) :
    ∀ next ∈ rest ++ children, Reachable fetch next.block := by
  intro next member
  rcases List.mem_append.mp member with before | among
  · exact waiting next (List.mem_cons_of_mem _ before)
  · exact .child (waiting pending (List.mem_cons_self ..)) found live (List.mem_map_of_mem among)

end Reachable

end ObliviousStorage.Index

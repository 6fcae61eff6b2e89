import Mathlib.Logic.Relation
import ObliviousStorage.Proofs.Index.Links
import ObliviousStorage.Proofs.Index.Lookups
import ObliviousStorage.Proofs.Index.Reads
import ObliviousStorage.Proofs.Storage.Accepted

/-!
Contract: how many blocks a lookup reads, and the indexes on which it does not come to an end by
itself.

Owns: `Leads`, the step from the block of a page to the child that the page names for a key;
`Circles`, that these steps come back to a block; the bound on the reads of a lookup that does not
circle, and what becomes of one that does; and that no index which can be measured makes a lookup
circle.

A descent looks at no level and remembers no block. On a circle it has neither an answer nor a
reason to refuse: it reads on until the word that counts its depth cannot hold the next number, and
what it would do from there on is not told here.

Does not own: the answer of a lookup.
-/

namespace ObliviousStorage.Index

open StorageM StorageView

/-! ## Steps of a descent -/

section Steps

variable
  {page : Page}
  {key : Int64}

/-- The chosen child stands in one of the slots that were looked at, if it is not the one that
was given. -/
theorem chooseChild_entry
    {child chosen : BlockNumber}
    {slots : List Nat}
    (chooses : chooseChild page key child slots = .ok (.child chosen)) :
    chosen = child ∨
      ∃ slot ∈ slots, ∃ entry, Entry.read page slot = .ok entry ∧ entry.block = chosen := by
  induction slots generalizing child with
  | nil =>
      simp only [chooseChild, Except.ok.injEq, Route.child.injEq] at chooses
      exact Or.inl chooses.symm
  | cons slot rest inductionHypothesis =>
      obtain ⟨entry, read, continues⟩ := bind_eq_ok_iff.mp chooses
      split at continues
      · have same : child = chosen := by simpa [pure, Except.pure] using continues
        exact Or.inl same.symm
      · rcases inductionHypothesis continues with same | ⟨other, among, found⟩
        · exact Or.inr ⟨slot, List.mem_cons_self .., entry, read, same.symm⟩
        · exact Or.inr ⟨other, List.mem_cons_of_mem _ among, found⟩

/-- A page that names a child is an inner page with a data slot that links to the child. -/
theorem route_child
    {child : BlockNumber}
    (routed : route page key = .ok (.child child)) :
    ∃ trailer,
      Trailer.read page = .ok trailer ∧ trailer.isLeaf = false ∧
        ∃ slot ∈ trailer.dataSlots page,
          ∃ entry, Entry.read page slot = .ok entry ∧ entry.block = child := by
  obtain ⟨trailer, read, -⟩ := bind_eq_ok_iff.mp routed
  refine ⟨trailer, read, ?_⟩
  cases role : trailer.isLeaf with
  | true =>
      rw [route_of_leaf read role] at routed
      exact absurd routed (findKey_ne_child page key child _)
  | false =>
      rw [route_of_inner read role] at routed
      refine ⟨rfl, ?_⟩
      cases slots : trailer.dataSlots page with
      | nil =>
          rw [slots] at routed
          exact absurd routed (by simp)
      | cons first rest =>
          rw [slots] at routed
          obtain ⟨entry, found, chooses⟩ := bind_eq_ok_iff.mp routed
          rcases chooseChild_entry chooses with same | ⟨slot, among, holds⟩
          · exact ⟨first, List.mem_cons_self .., entry, found, same.symm⟩
          · exact ⟨slot, List.mem_cons_of_mem _ among, holds⟩

/-- A page names no child that it does not link to. -/
theorem mem_liveLinks_of_route
    {child : BlockNumber}
    {links : List BlockNumber}
    (live : liveLinks page = .ok links)
    (routed : route page key = .ok (.child child)) :
    child ∈ links := by
  obtain ⟨trailer, read, inner, slot, among, entry, found, rfl⟩ := route_child routed
  simp only [liveLinks, read, bind, Except.bind, inner, Bool.false_eq_true, ↓reduceIte] at live
  have each := mapM_eq_ok_iff.mp live
  obtain ⟨place, inside, rfl⟩ := List.mem_iff_getElem.mp among
  have atPlace := each.get inside (each.length_eq ▸ inside)
  simp only [List.get_eq_getElem, found] at atPlace
  rw [Except.ok.inj atPlace]
  exact List.getElem_mem _

/-- The item of a metapage is too short for an entry, so that a metapage names no child. -/
theorem Metapage.route_ne_child
    {metapage : Metapage}
    (opens : Metapage.read page = .ok metapage)
    (child : BlockNumber) :
    route page key ≠ .ok (.child child) := by
  intro routed
  obtain ⟨trailer, -, -, slot, among, entry, found, -⟩ := route_child routed
  simp only [Metapage.read, bind_eq_ok_iff, require_eq_ok_iff] at opens
  obtain ⟨-, -, -, ⟨-, single⟩, bytes, item, -, ⟨short, -⟩, -⟩ := opens
  simp only [Entry.read, bind_eq_ok_iff, require_eq_ok_iff] at found
  obtain ⟨others, same, -, long, -⟩ := found
  obtain rfl : slot = 1 := by
    simp only [Trailer.dataSlots, Trailer.firstDataSlot, single, List.mem_range'_1] at among
    split at among <;> omega
  obtain rfl := Except.ok.inj (item.symm.trans same)
  exact absurd (short.symm.trans long) (by decide)

/-- On its way to a key, a descent goes on from the page in one block to another block. -/
def Leads
    (fetch : BlockNumber → Except Fault Page)
    (key : Int64)
    (block child : BlockNumber) : Prop :=
  ∃ page, fetch block = .ok page ∧ route page key = .ok (.child child)

end Steps

/-! ## Circles -/

section Circles

variable
  {fetch : BlockNumber → Except Fault Page}
  {key : Int64}
  {block : BlockNumber}

/-- A descent from a block comes to a block that it comes back to. -/
def Circles (fetch : BlockNumber → Except Fault Page) (key : Int64) (block : BlockNumber) : Prop :=
  ∃ met,
    Relation.ReflTransGen (Leads fetch key) block met ∧
      Relation.TransGen (Leads fetch key) met met

/-- A descent that circles goes on, and it circles from the next block as well. -/
theorem Circles.child (circles : Circles fetch key block) :
    ∃ child, Leads fetch key block child ∧ Circles fetch key child := by
  obtain ⟨met, reaches, around⟩ := circles
  rcases Relation.ReflTransGen.cases_head reaches with rfl | ⟨child, leads, later⟩
  · obtain ⟨child, leads, back⟩ := Relation.TransGen.head'_iff.mp around
    exact ⟨child, leads, block, back, around⟩
  · exact ⟨child, leads, met, later, around⟩

/-- A descent that does not circle meets no block twice. -/
theorem nodup_of_isChain
    {rest : List BlockNumber}
    (straight : ¬Circles fetch key block)
    (chain : (block :: rest).IsChain (Leads fetch key)) :
    (block :: rest).Nodup := by
  have further : (block :: rest).Pairwise (Relation.TransGen (Leads fetch key)) :=
    List.isChain_iff_pairwise.mp (chain.imp fun _ _ => Relation.TransGen.single)
  refine further.imp_of_mem fun {one other} member _ leads same => straight ?_
  subst same
  refine ⟨one, ?_, leads⟩
  rcases List.mem_cons.mp member with rfl | among
  · exact .refl
  · exact (List.rel_of_pairwise_cons further among).to_reflTransGen

/-- Every block that a descent meets but the last leads on. -/
theorem leads_of_mem_dropLast
    {blocks : List BlockNumber}
    (chain : blocks.IsChain (Leads fetch key))
    (member : block ∈ blocks.dropLast) :
    ∃ child, Leads fetch key block child := by
  induction chain with
  | nil => exact absurd member (by simp)
  | singleton => exact absurd member (by simp)
  | @cons_cons first second rest leads later inductionHypothesis =>
      rw [List.dropLast_cons_of_ne_nil (List.cons_ne_nil _ _)] at member
      rcases List.mem_cons.mp member with rfl | among
      · exact ⟨second, leads⟩
      · exact inductionHypothesis among

/-- The lookup of a key comes to an inner page again below itself. -/
def LookupCircles (fetch : BlockNumber → Except Fault Page) (key : Int64) : Prop :=
  ∃ first metapage,
    fetch metapageBlock = .ok first ∧ Metapage.read first = .ok metapage ∧
      Circles fetch key metapage.root

end Circles

/-! ## Measured indexes -/

section Measured

variable
  {held : Contents}
  {index : RelationId}
  {placements : List Placement}
  {profile : Profile}
  {key : Int64}

/-- From a page of a measured index a descent goes on to a page one level below. -/
theorem WholeTrail.leads
    (whole : WholeTrail (Held held index) .measure placements profile)
    {placement : Placement}
    (member : placement ∈ placements)
    {child : BlockNumber}
    (leads : Leads (held.page index) key placement.pending.block child) :
    ∃ follower ∈ placements,
      follower.pending.block = child ∧
        follower.pending.depth = placement.pending.depth + 1 := by
  obtain ⟨page, found, routed⟩ := leads
  obtain ⟨fetched, rootLevel, visits⟩ := whole.visit_of_mem member
  obtain rfl := held_functional held index _ _ _ fetched found
  have linked := mem_liveLinks_of_route (liveLinks_of_visit visits) routed
  obtain ⟨pending, among, rfl⟩ := List.mem_map.mp linked
  obtain ⟨place, atPlace⟩ := List.getElem?_of_mem among
  obtain ⟨follower, visited, same, -⟩ := whole.child member atPlace
  exact ⟨follower, visited, congrArg _ same, same ▸ whole.child_depth member among⟩

theorem WholeTrail.leads_far
    (whole : WholeTrail (Held held index) .measure placements profile)
    {placement : Placement}
    (member : placement ∈ placements)
    {below : BlockNumber}
    (leads : Relation.TransGen (Leads (held.page index) key) placement.pending.block below) :
    ∃ follower ∈ placements,
      follower.pending.block = below ∧
        placement.pending.depth < follower.pending.depth := by
  induction leads with
  | single leads =>
      obtain ⟨follower, visited, same, depth⟩ := whole.leads member leads
      exact ⟨follower, visited, same, by omega⟩
  | tail _ leads inductionHypothesis =>
      obtain ⟨between, met, rfl, deeper⟩ := inductionHypothesis
      obtain ⟨follower, visited, same, depth⟩ := whole.leads met leads
      exact ⟨follower, visited, same, by omega⟩

/-- No lookup circles in an index that can be measured: the levels that its pages name tell
their depths. -/
theorem WholeTrail.not_lookupCircles
    (whole : WholeTrail (Held held index) .measure placements profile)
    (key : Int64) :
    ¬LookupCircles (held.page index) key := by
  rintro ⟨first, metapage, found, opens, met, reaches, around⟩
  have functional := held_functional held index
  obtain ⟨first', metapage', root, fetched, opens', atRoot, pending, -⟩ := whole.root
  obtain rfl := functional _ _ _ fetched found
  obtain rfl := Except.ok.inj (opens'.symm.trans opens)
  have rootMember := List.mem_of_getElem? atRoot
  have rootBlock : root.pending.block = metapage'.root := by rw [pending]; rfl
  obtain ⟨placement, member, rfl⟩ :
      ∃ placement ∈ placements, placement.pending.block = met := by
    rcases Relation.reflTransGen_iff_eq_or_transGen.mp reaches with same | leads
    · exact ⟨root, rootMember, rootBlock.trans same.symm⟩
    · rw [← rootBlock] at leads
      obtain ⟨follower, visited, same, -⟩ := whole.leads_far rootMember leads
      exact ⟨follower, visited, same⟩
  obtain ⟨again, visited, same, deeper⟩ := whole.leads_far member around
  obtain ⟨-, -, trail⟩ := whole
  have depths := (trail.same_of_block functional visited member same).2
  omega

end Measured

/-! ## Runs -/

section Runs

variable
  {σ : Type}
  [Storage σ]
  {index : RelationId}
  {held : Contents}
  {key : Int64}

/-- A descent does the same where its reads are remembered. -/
theorem descendFrom_erases (remaining depth : Nat) (page : Page) :
    Traced.Erases
      (descendFrom (fun child _ => (Storage.read index child : StorageM (Traced σ) Page)) key
        remaining depth page)
      (descendFrom (fun child _ => (Storage.read index child : StorageM σ Page)) key
        remaining depth page) := by
  induction remaining generalizing depth page with
  | zero =>
      rw [descendFrom.eq_def, descendFrom.eq_def]
      refine .check fun answer _ => ?_
      cases answer with
      | found record => exact .ofPure _
      | absent => exact .ofPure _
      | child block => exact .ofThrow _
  | succ remaining inductionHypothesis =>
      rw [descendFrom.eq_def, descendFrom.eq_def]
      refine .check fun answer _ => ?_
      cases answer with
      | found record => exact .ofPure _
      | absent => exact .ofPure _
      | child block =>
          exact (Traced.Erases.ofRead index block).bind fun next => inductionHypothesis _ next

theorem lookup_erases (index : RelationId) (key : Int64) :
    Traced.Erases (lookup index key) (lookup index key : StorageM σ (Option RecordId)) := by
  refine (Traced.Erases.ofRead index metapageBlock).bind fun first => .check fun metapage _ => ?_
  exact (Traced.Erases.ofRead index metapage.root).bind fun root => descendFrom_erases _ _ root

variable [LawfulStorage σ]

/-- Whatever it ends with, a descent reads the blocks that the pages lead it to. -/
theorem descendFrom_chain
    {state : Traced σ}
    {block : BlockNumber}
    {page : Page}
    (same : contents state.inner index = held index)
    (fetched : Held held index block page)
    (remaining depth : Nat) :
    (descendFrom (fun child _ => (Storage.read index child : StorageM (Traced σ) Page)) key
      remaining depth page).Yields state fun _ left =>
        ∃ rest,
          (block :: rest).IsChain (Leads (held.page index) key) ∧
            left.trace.toList = state.trace.toList ++ rest.map (.read index) := by
  have stays :
      ∀ (block : BlockNumber) (state : Traced σ),
        ∃ rest,
          (block :: rest).IsChain (Leads (held.page index) key) ∧
            state.trace.toList = state.trace.toList ++ rest.map (.read index) :=
    fun block state => ⟨[], .singleton _, (List.append_nil _).symm⟩
  induction remaining generalizing state block page depth with
  | zero =>
      by_cases goesOn : ∃ child, route page key = .ok (.child child)
      · obtain ⟨child, routed⟩ := goesOn
        rw [Yields, descendFrom_exhausted routed]
        exact stays block state
      · rw [Yields, descendFrom_settled rfl fun child routed => goesOn ⟨child, routed⟩]
        exact stays block state
  | succ remaining inductionHypothesis =>
      by_cases goesOn : ∃ child, route page key = .ok (.child child)
      · obtain ⟨child, routed⟩ := goesOn
        have leads : Leads (held.page index) key block child := ⟨page, fetched, routed⟩
        refine yields_descendFrom_child routed ?_
        refine yields_bind (read_remembered same child) ?_ ?_
        · rintro next between ⟨found, sameBetween, traced⟩
          refine (inductionHypothesis sameBetween (found next rfl) _).weaken ?_
          rintro outcome left ⟨rest, chain, later⟩
          refine ⟨child :: rest, .cons_cons leads chain, ?_⟩
          rw [later, traced, List.append_assoc]
          rfl
        · rintro fault left ⟨-, -, traced⟩
          exact ⟨[child], .cons_cons leads (.singleton _), traced⟩
      · rw [Yields, descendFrom_settled rfl fun child routed => goesOn ⟨child, routed⟩]
        exact stays block state

/-- Reading a page that is there adds one read to the trace. -/
theorem read_counted
    {state : Traced σ}
    {block : BlockNumber}
    {page : Page}
    (sound : Sound state)
    (holds : contents state = held)
    (found : held.page index block = .ok page) :
    (Storage.read index block : StorageM (Traced σ) Page).Yields state fun outcome left =>
      outcome = .ok page ∧
        Sound left ∧ contents left = held ∧ left.trace.size = state.trace.size + 1 := by
  apply ((read_of_page sound holds found).and (read_traced state index block)).weaken
  rintro outcome left ⟨⟨result, leftSound, leftHolds⟩, traced⟩
  exact ⟨result, leftSound, leftHolds, by rw [traced, Array.size_push]⟩

/-- A descent that circles reads on until its depth cannot be counted any further. -/
theorem descendFrom_circling
    {state : Traced σ}
    {block : BlockNumber}
    {page : Page}
    (sound : Sound state)
    (holds : contents state = held)
    (circles : Circles (held.page index) key block)
    (fetched : held.page index block = .ok page)
    (remaining depth : Nat) :
    (descendFrom (fun child _ => (Storage.read index child : StorageM (Traced σ) Page)) key
      remaining depth page).Yields state fun outcome left =>
        outcome = .error .overflow ∧ left.trace.size = state.trace.size + remaining := by
  induction remaining generalizing state block page depth with
  | zero =>
      obtain ⟨child, ⟨same, found, routed⟩, -⟩ := circles.child
      obtain rfl := Except.ok.inj (fetched.symm.trans found)
      rw [Yields, descendFrom_exhausted routed]
      exact ⟨rfl, rfl⟩
  | succ remaining inductionHypothesis =>
      obtain ⟨child, ⟨same, found, routed⟩, circlesToo⟩ := circles.child
      obtain rfl := Except.ok.inj (fetched.symm.trans found)
      -- The child circles as well, so that it leads on and is there to be read.
      obtain ⟨-, ⟨next, foundNext, -⟩, -⟩ := circlesToo.child
      refine yields_descendFrom_child routed ?_
      refine yields_bind_value (read_counted sound holds foundNext) ?_
      rintro between ⟨soundBetween, holdsBetween, counted⟩
      refine (inductionHypothesis soundBetween holdsBetween circlesToo foundNext _).weaken ?_
      rintro outcome left ⟨ends, reads⟩
      exact ⟨ends, by omega⟩

/-- A lookup reads the metapage and, if that names a root, the blocks of a descent from there. -/
theorem lookup_chain (index : RelationId) (key : Int64) (source : σ) :
    (lookup index key).Yields (Traced.fresh source) fun _ left =>
      left.trace.toList = [.read index metapageBlock] ∨
        ∃ first metapage rest,
          Held (contents source) index metapageBlock first ∧
            Metapage.read first = .ok metapage ∧
              (metapage.root :: rest).IsChain (Leads ((contents source).page index) key) ∧
                left.trace.toList =
                  (metapageBlock :: metapage.root :: rest).map (.read index) := by
  refine yields_bind (read_remembered (Eq.refl (contents source index)) metapageBlock) ?_ ?_
  · rintro first between ⟨fetched, same, traced⟩
    refine yields_lift_bind (fun metapage opens => ?_) fun fault _ => Or.inl traced
    refine yields_bind (read_remembered same metapage.root) ?_ ?_
    · rintro root atRoot ⟨fetchedRoot, sameRoot, tracedRoot⟩
      refine (descendFrom_chain sameRoot (fetchedRoot root rfl) deepest 0).weaken ?_
      rintro outcome left ⟨rest, chain, later⟩
      refine Or.inr ⟨first, metapage, rest, fetched first rfl, opens, chain, ?_⟩
      rw [later, tracedRoot, traced]
      rfl
    · rintro fault left ⟨-, -, tracedRoot⟩
      refine Or.inr ⟨first, metapage, [], fetched first rfl, opens, .singleton _, ?_⟩
      rw [tracedRoot, traced]
      rfl
  · rintro fault left ⟨-, -, traced⟩
    exact Or.inl traced

theorem lookup_circling
    (index : RelationId)
    {source : σ}
    (sound : Sound source)
    (circles : LookupCircles ((contents source).page index) key) :
    (lookup index key).Yields (Traced.fresh source) fun outcome left =>
      outcome = .error .overflow ∧ left.trace.size = deepest + 2 := by
  obtain ⟨first, metapage, found, opens, circlesRoot⟩ := circles
  obtain ⟨-, ⟨root, foundRoot, -⟩, -⟩ := circlesRoot.child
  refine yields_bind_value (read_counted (Traced.sound_fresh sound) rfl found) ?_
  rintro opened ⟨soundOpened, holdsOpened, one⟩
  refine yields_lift_bind_value opens ?_
  refine yields_bind_value (read_counted soundOpened holdsOpened foundRoot) ?_
  rintro atRoot ⟨soundRoot, holdsRoot, two⟩
  refine (descendFrom_circling soundRoot holdsRoot circlesRoot foundRoot deepest 0).weaken ?_
  rintro outcome left ⟨ends, reads⟩
  have empty : (Traced.fresh source).trace.size = 0 := rfl
  exact ⟨ends, by omega⟩

/-- The metapage and a descent from its root, if that does not circle. -/
theorem thrifty_of_isChain
    {first : Page}
    {metapage : Metapage}
    {rest : List BlockNumber}
    {trace : Array Transfer}
    (fetched : Held held index metapageBlock first)
    (opens : Metapage.read first = .ok metapage)
    (straight : ¬Circles (held.page index) key metapage.root)
    (chain : (metapage.root :: rest).IsChain (Leads (held.page index) key))
    (reads : trace.toList = (metapageBlock :: metapage.root :: rest).map (.read index)) :
    Thrifty index (blockTotal held index) trace := by
  refine thrifty_of_blocks fetched opens
    ((nodup_of_isChain straight chain).sublist (List.dropLast_sublist _)) ?_ reads
  intro block member
  obtain ⟨child, page, found, routed⟩ := leads_of_mem_dropLast chain member
  exact ⟨page, found, fun other opensToo => Metapage.route_ne_child opensToo child routed⟩

theorem lookup_thrifty
    {source : σ}
    (straight : ¬LookupCircles ((contents source).page index) key) :
    (lookup index key).Yields (Traced.fresh source) fun _ left =>
      Thrifty index (blockTotal (contents source) index) left.trace := by
  refine (lookup_chain index key source).weaken ?_
  rintro outcome left (traced | ⟨first, metapage, rest, fetched, opens, chain, reads⟩)
  · exact thrifty_of_single _ traced
  · exact thrifty_of_isChain fetched opens
      (fun circles => straight ⟨first, metapage, fetched, opens, circles⟩) chain reads

/-- A lookup whose descent comes back to no block reads no block twice, but possibly the one that
is read last, and so at most one block more than there are. On a sound store any other lookup finds
no end: it goes round its circle, with more reads than any relation has blocks that can be told from
no block, and breaks off only where its depth cannot be counted any further. An index that can be
measured is never among those. -/
theorem lookup_reads (index : RelationId) (key : Int64) (source : σ) :
    ((lookup index key).runOn (Traced.fresh source)).1 = ((lookup index key).runOn source).1 ∧
      (¬LookupCircles ((contents source).page index) key →
        Thrifty index (blockTotal (contents source) index)
          ((lookup index key).runOn (Traced.fresh source)).2.trace) ∧
      (Sound source → LookupCircles ((contents source).page index) key →
        ((lookup index key).runOn source).1 = .error .overflow ∧
          ((lookup index key).runOn (Traced.fresh source)).2.trace.size = deepest + 2) ∧
      ∀ profile, ((measure index).runOn source).1 = .ok profile →
        ¬LookupCircles ((contents source).page index) key := by
  have same := (lookup_erases index key (Traced.fresh source)).1
  refine ⟨same, lookup_thrifty, fun sound circles => ?_, fun profile measured => ?_⟩
  · obtain ⟨ends, reads⟩ := lookup_circling index sound circles
    exact ⟨same.symm.trans ends, reads⟩
  · obtain ⟨⟨placements, whole⟩, -⟩ :=
      (measure_yields index source).runOn (runOn_eq_of_outcome measured)
    exact whole.not_lookupCircles key

end Runs

/-- On the store whose root links to itself, every lookup circles. -/
theorem lookupCircles_selfLinkedStore (key : Int64) :
    LookupCircles ((contents selfLinkedStore).page 1) key := by
  have built : BuiltOf selfLinkedRoot rootTrailer [⟨7, 1, 0⟩] :=
    (pageOf_builtOf rootTrailer _ (by decide)).2
  have slots : rootTrailer.dataSlots selfLinkedRoot = [1] := by
    rw [Trailer.dataSlots, built.slotCount]
    rfl
  have routed : route selfLinkedRoot key = .ok (.child 1) := by
    rw [route_of_inner built.read LinkedLeaves.isInner_rootTrailer, slots]
    exact bind_eq_ok_iff.mpr ⟨_, built.entry rfl, rfl⟩
  have present :
      contents selfLinkedStore 1 = some ⟨[Metapage.page ⟨1, 1⟩, selfLinkedRoot], Page.zero⟩ := rfl
  have leads : Leads ((contents selfLinkedStore).page 1) key 1 1 :=
    ⟨selfLinkedRoot, Contents.page_of_some present rfl, routed⟩
  exact
    ⟨_, ⟨1, 1⟩, Contents.page_of_some present rfl, Metapage.read_page _, 1, .refl, .single leads⟩

/-- A lookup in an index of three pages, and one on the root that links to itself. -/
theorem lookup_reads_linked :
    ((measure 1).runOn linkedStore).1 = .ok ⟨[2], 0⟩ ∧
      Thrifty 1 4 ((lookup 1 7).runOn (Traced.fresh linkedStore)).2.trace ∧
        ((lookup 1 7).runOn selfLinkedStore).1 = .error .overflow := by
  obtain ⟨-, thrifty, -, measured⟩ := lookup_reads 1 7 linkedStore
  obtain ⟨-, -, circling, -⟩ := lookup_reads 1 7 selfLinkedStore
  exact
    ⟨measure_linkedStore, thrifty (measured _ measure_linkedStore),
      (circling rfl (lookupCircles_selfLinkedStore 7)).1⟩

/-- Two blocks are read more often than three times. -/
theorem not_lookup_thrifty_selfLinked :
    blockTotal (contents selfLinkedStore) 1 = 2 ∧
      ¬((lookup 1 7).runOn (Traced.fresh selfLinkedStore)).2.trace.size ≤
        blockTotal (contents selfLinkedStore) 1 + 1 := by
  have total : blockTotal (contents selfLinkedStore) 1 = 2 := rfl
  have sound : Sound selfLinkedStore := rfl
  refine ⟨total, fun bounded => ?_⟩
  have reads := (lookup_circling 1 sound (lookupCircles_selfLinkedStore 7)).2
  rw [reads, total] at bounded
  exact absurd bounded (by decide)

end ObliviousStorage.Index

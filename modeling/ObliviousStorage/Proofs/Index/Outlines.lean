import ObliviousStorage.Proofs.Index.Rewriting
import ObliviousStorage.Proofs.Storage.Concurring

/-!
Contract: what a walk over an index sees of its pages.

Owns: `SameOutline`, pages that agree in the header, the slot directory, the trailer, the
metapage's item and the links of inner pages; and that two walks of the same kind over indexes
of such pages take the same course and end with the same shape or the same fault, also where
pages are malformed or items overlap.

Keys, the records that leaves point to, and free space are no part of an outline. So no walk
lets on what they are.

Does not own: where pages are read from, or where changed pages go.
-/

namespace ObliviousStorage.Index

open LittleEndian Page StorageM

/-! ## Outlines -/

/-- The page is an inner one: neither a leaf nor the metapage. -/
def IsInner (page : Page) : Prop :=
  ∃ trailer,
    Trailer.read page = .ok trailer ∧ trailer.isLeaf = false ∧ trailer.isMeta = false

/-- Two pages in one block of an index that differ at most in their keys, in the records that
leaves point to and in free space. -/
structure SameOutline (block : BlockNumber) (page other : Page) : Prop where
  header : AgreesOn other page 0 headerSize
  directory : page.WellFormed → AgreesOn other page headerSize page.lower
  trailer : AgreesOn other page page.special blockSize
  metapage :
    block = metapageBlock →
      ∀ trailer, Trailer.read page = .ok trailer → trailer.isMeta = true →
        other.item 1 = page.item 1
  links :
    IsInner page → ∀ slot position, LinkByte page slot position →
      other.byte position = page.byte position

theorem SameOutline.refl (block : BlockNumber) (page : Page) : SameOutline block page page where
  header := agreesOn_refl page _ _
  directory _ := agreesOn_refl page _ _
  trailer := agreesOn_refl page _ _
  metapage _ _ _ _ := rfl
  links _ _ _ _ := rfl

theorem Trailer.read_congr
    {left right : Page}
    (header : AgreesOn left right 0 headerSize)
    (behind : AgreesOn left right right.special blockSize) :
    Trailer.read left = Trailer.read right := by
  have place : left.trailerStart = right.trailerStart := by
    rw [trailerStart, trailerStart, special_congr header]
  have width : left.trailerSize = right.trailerSize := by
    rw [trailerSize, trailerSize, place]
  have bytes : left.trailer = right.trailer := by
    rw [Page.trailer, Page.trailer, place, width]
    refine slice_congr ?_
    intro position above below
    simp only [trailerSize, trailerStart] at above below
    exact behind position (by omega) (by omega)
  rw [Trailer.read, Trailer.read, verify_congr header, width, bytes]

/-! ## Links -/

/-- Writing over the link of a slot leaves all slots as they are. -/
theorem slot_write_link
    {page : Page}
    {slot : Nat}
    {found : Slot}
    (among : page.slot slot = .ok found)
    (bytes : List UInt8)
    (another : Nat) :
    (page.write (found.start + Entry.blockPosition) bytes).slot another = page.slot another := by
  obtain ⟨wellFormed, -, -, -, above, -⟩ := slot_eq_ok_iff.mp among
  refine slot_of_agreesOn_upper wellFormed (agreesOn_write page (Or.inl ?_)) another
  omega

/-- Two pages whose slots describe the same items and keep the same links. -/
structure SameLinks (page other : Page) : Prop where
  slots : ∀ slot, other.slot slot = page.slot slot
  links :
    ∀ slot position, LinkByte page slot position → other.byte position = page.byte position

namespace SameLinks

variable
  {page other : Page}
  {pending : Pending}

/-- A slot yields the same link on both pages, or the same fault. -/
theorem read_same (same : SameLinks page other) (slot : Nat) :
    SameOutcome (fun entry entry' => entry.block = entry'.block) (Entry.read page slot)
      (Entry.read other slot) := by
  have sameSlot := same.slots slot
  cases among : page.slot slot with
  | error fault =>
      rw [Entry.read_of_slot_error among, Entry.read_of_slot_error (sameSlot.trans among)]
      exact .refused fault
  | ok found =>
      rw [Entry.read_of_slot among, Entry.read_of_slot (sameSlot.trans among)]
      by_cases width : found.length = Entry.size
      · have word :
            other.word 4 (found.start + Entry.blockPosition) =
              page.word 4 (found.start + Entry.blockPosition) :=
          word_congr fun position low high =>
            same.links slot position ⟨found, among, width, low, high⟩
        rw [if_pos width, if_pos width, Entry.ofBytes_slice, Entry.ofBytes_slice, word]
        exact .accepted rfl
      · rw [if_neg width, if_neg width]
        exact .refused _

/-- The same bytes written over the link of a slot leave the same links, also where items
overlap. -/
theorem redirected
    {slot : Nat}
    {found : Slot}
    (same : SameLinks page other)
    (among : page.slot slot = .ok found)
    (bytes : List UInt8) :
    SameLinks (page.write (found.start + Entry.blockPosition) bytes)
      (other.write (found.start + Entry.blockPosition) bytes) := by
  have keptHere := slot_write_link among bytes
  have keptThere := slot_write_link ((same.slots slot).trans among) bytes
  refine ⟨fun another => by rw [keptThere, keptHere, same.slots], ?_⟩
  intro another position link
  rw [linkByte_congr (keptHere another)] at link
  rw [byte_write, byte_write, same.links another position link]

theorem redirect_same (same : SameLinks page other) (slot : Nat) (child : BlockNumber) :
    SameOutcome SameLinks (redirect page slot child) (redirect other slot child) := by
  have sameSlot := same.slots slot
  cases among : page.slot slot with
  | error fault =>
      simp only [redirect, among, sameSlot, bind, Except.bind]
      exact .refused fault
  | ok found =>
      by_cases width : found.length = Entry.size
      · rw [redirect_of_read among width, redirect_of_read (sameSlot.trans among) width]
        exact .accepted (same.redirected among _)
      · simp only [redirect, among, sameSlot, bind, Except.bind, require, if_neg width]
        exact .refused _

theorem relink_same
    (same : SameLinks page other)
    (mode : WalkMode)
    (slot position : Nat) :
    SameOutcome SameLinks (mode.relink page slot position) (mode.relink other slot position) := by
  cases mode with
  | measure => exact .accepted same
  | relocate => exact same.redirect_same slot _

/-- The same children are collected from both pages. -/
theorem adopt_same
    (same : SameLinks page other)
    (mode : WalkMode)
    (slots : List Nat)
    (nextChild : Nat) :
    SameOutcome (fun adopted adopted' => adopted.1 = adopted'.1)
      (pending.adopt mode slots nextChild page) (pending.adopt mode slots nextChild other) := by
  induction slots generalizing nextChild page other with
  | nil => exact .accepted rfl
  | cons slot rest inductionHypothesis =>
      refine (same.read_same slot).bind fun entry entry' _ _ sameBlock => ?_
      refine (same.relink_same mode slot nextChild).bind fun linked linked' _ _ sameLinked => ?_
      refine (SameOutcome.of_eq rfl).bind fun following _ _ _ sameFollowing => ?_
      subst sameFollowing
      refine (inductionHypothesis sameLinked following).bind
        fun adopted adopted' _ _ sameChildren => ?_
      exact .accepted (by rw [sameBlock, sameChildren])

end SameLinks

/-! ## Visits -/

/-- Two visits that found the same. The pages may differ. -/
structure Visit.Same (one other : Visit) : Prop where
  trailer : one.trailer = other.trailer
  live : one.live = other.live
  children : one.children = other.children

namespace SameOutline

variable
  {block : BlockNumber}
  {page other : Page}
  (outline : SameOutline block page other)

include outline

theorem trailer_same : Trailer.read other = Trailer.read page :=
  Trailer.read_congr outline.header outline.trailer

theorem dataSlots_same (trailer : Trailer) : trailer.dataSlots other = trailer.dataSlots page := by
  rw [Trailer.dataSlots, Trailer.dataSlots, slotCount_congr outline.header]

/-- Inner pages of one outline keep the same links. -/
theorem sameLinks (inner : IsInner page) : SameLinks page other where
  slots slot := by
    obtain ⟨trailer, read, -⟩ := inner
    have wellFormed := (Trailer.read_eq_ok_iff.mp read).1
    refine slot_congr wellFormed ?_ slot
    intro position _ below
    rcases Nat.lt_or_ge position headerSize with early | late
    · exact outline.header position (Nat.zero_le _) early
    · exact outline.directory wellFormed position late below
  links := outline.links inner

/-- The metapage says the same. -/
theorem metapage_same (first : block = metapageBlock) :
    Metapage.read other = Metapage.read page := by
  rw [Metapage.read, Metapage.read, outline.trailer_same]
  cases read : Trailer.read page with
  | error fault => rfl
  | ok trailer =>
      simp only [bind, Except.bind, slotCount_congr outline.header]
      cases role : trailer.isMeta with
      | false => simp [require]
      | true => rw [outline.metapage first trailer read role]

theorem children_same
    {trailer : Trailer}
    (read : Trailer.read page = .ok trailer)
    (ordinary : trailer.isMeta = false)
    (pending : Pending)
    (mode : WalkMode)
    (nextChild : Nat) :
    SameOutcome (fun collected collected' => collected.1 = collected'.1)
      (pending.children mode trailer nextChild page)
      (pending.children mode trailer nextChild other) := by
  unfold Pending.children
  cases role : trailer.isLeaf with
  | true => exact .accepted rfl
  | false =>
      simp only [Bool.false_eq_true, ↓reduceIte, outline.dataSlots_same]
      exact (outline.sameLinks ⟨trailer, read, role, ordinary⟩).adopt_same mode _ nextChild

/-- A visit can replace the trailer of any page that it got this far with. -/
theorem stamp_same
    {pending : Pending}
    {trailer : Trailer}
    {mode : WalkMode}
    {nextChild : Nat}
    {collected collected' : List Pending × Page}
    (read : Trailer.read page = .ok trailer)
    (collects : pending.children mode trailer nextChild page = .ok collected)
    (collects' : pending.children mode trailer nextChild other = .ok collected')
    (placed : Trailer) :
    SameOutcome (fun _ _ => True) (mode.stamp collected.2 placed)
      (mode.stamp collected'.2 placed) := by
  cases mode with
  | measure => exact .accepted trivial
  | relocate =>
      have linked := trailer_of_children read collects
      have linked' := trailer_of_children (outline.trailer_same.trans read) collects'
      obtain ⟨stamped, stamps⟩ := Trailer.exists_write_of_read placed linked
      obtain ⟨stamped', stamps'⟩ := Trailer.exists_write_of_read placed linked'
      rw [WalkMode.stamp, WalkMode.stamp, stamps, stamps']
      exact .accepted trivial

/-- Visiting two pages of one outline finds the same, or is refused with the same fault. -/
theorem visit_same
    (tally : LevelTally)
    (mode : WalkMode)
    (rootLevel : Nat)
    (pending : Pending) :
    SameOutcome Visit.Same (tally.visit mode rootLevel pending page)
      (tally.visit mode rootLevel pending other) := by
  refine (SameOutcome.of_eq outline.trailer_same.symm).bind fun trailer _ read _ same => ?_
  subst same
  refine (SameOutcome.of_eq rfl).bind fun _ _ placed _ _ => ?_
  refine (SameOutcome.of_eq rfl).bind fun _ _ _ _ _ => ?_
  have ordinary : trailer.isMeta = false := by
    obtain ⟨_, role, -⟩ := bind_eq_ok_iff.mp placed
    exact (require_eq_ok_iff.mp role).2
  have sameChildren := outline.children_same read ordinary pending mode tally.nextChild
  refine sameChildren.bind fun collected collected' collects collects' sameCollected => ?_
  refine (outline.stamp_same read collects collects' _).bind fun stamped stamped' _ _ _ => ?_
  exact .accepted ⟨rfl, by rw [outline.dataSlots_same], sameCollected⟩

end SameOutline

/-- Where a walk is after a visit depends on nothing else that the visit found. -/
theorem Visit.Same.advance_same
    {one other : Visit}
    (same : one.Same other)
    (tally : LevelTally)
    (pending : Pending) :
    tally.advance pending one = tally.advance pending other := by
  simp only [LevelTally.advance, LevelTally.countBelow, same.trailer, same.live, same.children]

/-! ## Walks -/

section Walk

variable
  {σ : Type}
  [Storage σ]
  {Related : σ → σ → Prop}
  {index : RelationId}
  {target : Option (PageTarget σ)}

/-- Two states from which the calls of a walk concur: reading yields pages of one outline, and
handing over takes any two pages alike. -/
structure CallsConcur
    (Related : σ → σ → Prop)
    (index : RelationId)
    (target : Option (PageTarget σ)) : Prop where
  reads :
    ∀ block left right, Related left right →
      (Storage.read index block : StorageM σ Page).Concur (Storage.read index block)
        (SameOutline block) Related left right
  hands :
    ∀ page other offset depth left right, Related left right →
      (handOver target page offset depth).Concur (handOver target other offset depth) Eq Related
        left right

theorem walkFrom_cons
    (rootLevel : Nat)
    (tally : LevelTally)
    (pending : Pending)
    (rest : List Pending) :
    walkFrom index target rootLevel tally (pending :: rest) = (do
      let page ← Storage.read index pending.block
      let visit ← liftM (tally.visit (walkMode target) rootLevel pending page)
      handOver target visit.page tally.offset pending.depth
      let advanced ← liftM (tally.advance pending visit)
      walkFrom index target rootLevel advanced (rest ++ visit.children)) := by
  rw [walkFrom]
  congr 1
  funext page
  split
  · next fault refused => rw [refused]; rfl
  · next visit visits => rw [visits]; rfl

theorem walkFrom_concurs
    {rootLevel : Nat}
    {left right : σ}
    (calls : CallsConcur Related index target)
    (tally : LevelTally)
    (queue : List Pending)
    (related : Related left right) :
    (walkFrom index target rootLevel tally queue).Concur
      (walkFrom index target rootLevel tally queue) Eq Related left right := by
  induction tally, queue using walkFrom.induct target rootLevel generalizing left right with
  | case1 tally =>
      rw [walkFrom]
      exact concur_pure rfl related
  | case2 tally pending rest inductionHypothesis =>
      rw [walkFrom_cons]
      refine concur_bind (calls.reads pending.block left right related) ?_
      intro page other between between' _ outline related
      refine concur_lift_bind (outline.visit_same tally (walkMode target) rootLevel pending)
        related ?_
      intro visit visit' visits _ same
      refine concur_bind (calls.hands visit.page visit'.page tally.offset pending.depth _ _ related)
        ?_
      intro _ _ handed handed' _ _ related
      refine concur_lift_bind (.of_eq (same.advance_same tally pending)) related ?_
      intro advanced _ advances _ sameAdvanced
      rw [← sameAdvanced, ← same.children]
      exact inductionHypothesis page visit visits advanced related

/-- A walk over a whole index. -/
theorem walk_concurs
    {left right : σ}
    (calls : CallsConcur Related index target)
    (related : Related left right) :
    (walk index target).Concur (walk index target) Eq Related left right := by
  refine concur_bind (calls.reads metapageBlock left right related) ?_
  intro first first' between between' _ outline related
  refine concur_lift_bind (.of_eq (outline.metapage_same rfl).symm) related ?_
  intro metapage _ _ _ same
  rw [← same]
  exact walkFrom_concurs calls .start _ related

end Walk

end ObliviousStorage.Index

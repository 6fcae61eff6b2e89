import ObliviousStorage.Proofs.Index.HandingOver
import ObliviousStorage.Proofs.Opening.Copying
import ObliviousStorage.Proofs.Page.Tags

/-!
Contract: a heap that is copied into a target which may refuse pages.

Owns: what a copied page keeps of the page in the heap; that the copies are handed over block by
block from the first one on; and how a copy ends: behind the last block, in front of the first one
that is neither unformatted nor well formed, or with the first refusal.

Does not own: what a target does with the pages, as long as it leaves the heap as it is.
-/

namespace ObliviousStorage.Heap

open Gateway Page StorageM StorageView

/-! ## Copies of pages -/

/-- A page as it is copied for a block. It is the same page if it was never formatted, else one
that holds the number of the block where the tag is and the same bytes in all other places; so
nothing that is read from it, apart from the tag, is read differently. -/
structure CopyOf (page : Page) (block : BlockNumber) (image : Page) : Prop where
  untouched : page.isUnformatted = true → image = page
  tag : page.isUnformatted = false → image.slice 8 4 = LittleEndian.encode 4 block.toNat
  elsewhere : AgreeBesidesTag image page
  isUnformatted : image.isUnformatted = page.isUnformatted
  wellFormed : image.WellFormed ↔ page.WellFormed
  slotCount : image.slotCount = page.slotCount
  slots : ∀ number, image.slot number = page.slot number
  items : ∀ number, image.item number = page.item number
  trailer : image.trailer = page.trailer
  isDummy : image.isDummy = page.isDummy

section Stamps

variable {page image : Page} {block : BlockNumber}

theorem copyOf_stamped (stamps : stamped page block = .ok image) : CopyOf page block image := by
  rcases stamped_eq_ok_iff.mp stamps with ⟨unformatted, rfl⟩ | ⟨formatted, wellFormed, rfl⟩
  · exact
      { untouched := fun _ => rfl
        tag := fun formatted => absurd (unformatted.symm.trans formatted) (by decide)
        elsewhere := agreeBesidesTag_refl image
        isUnformatted := rfl
        wellFormed := Iff.rfl
        slotCount := rfl
        slots := fun _ => rfl
        items := fun _ => rfl
        trailer := rfl
        isDummy := rfl }
  · have agree := agreeBesidesTag_setTag page block
    exact
      { untouched := fun unformatted => absurd (unformatted.symm.trans formatted) (by decide)
        tag := fun _ => slice_setTag page block
        elsewhere := agree
        isUnformatted := agree.isUnformatted
        wellFormed := agree.wellFormed
        slotCount := agree.slotCount
        slots := agree.slot
        items := agree.item
        trailer := agree.trailer wellFormed
        isDummy := agree.isDummy wellFormed }

theorem acceptable_of_stamped (stamps : stamped page block = .ok image) : Acceptable page := by
  rcases stamped_eq_ok_iff.mp stamps with ⟨unformatted, -⟩ | ⟨-, wellFormed, -⟩
  · exact .inl unformatted
  · exact .inr wellFormed

/-- A page that cannot be copied is refused for the pointers in its header. -/
theorem not_acceptable_of_stamped
    {fault : Fault}
    (refused : stamped page block = .error fault) :
    ¬Acceptable page ∧
      fault = .corruptPage (.pointers page.lower page.upper page.special) := by
  unfold stamped at refused
  split at refused
  · cases refused
  · next formatted =>
      rcases bind_eq_error_iff.mp refused with malformed | ⟨-, -, never⟩
      · unfold Page.verify at malformed
        split at malformed
        · cases malformed
        · next pointers =>
            refine ⟨?_, (Except.error.inj malformed).symm⟩
            intro acceptable
            exact acceptable.elim formatted pointers
      · cases never

end Stamps

/-! ## Runs -/

variable {σ : Type} [Storage σ] [LawfulStorage σ]

variable {heap : RelationId}

/-- A target that leaves the pages of a heap as they are, whether it takes a page or not, and a
sound store sound. -/
structure SparesHeap (target : PageTarget σ) (heap : RelationId) : Prop where
  contents :
    ∀ state page block,
      (target.addHeapPage page block).Yields state fun _ left =>
        contents left heap = contents state heap
  sound :
    ∀ state page block,
      (target.addHeapPage page block).Yields state fun _ left => Sound state → Sound left

omit [Storage σ] [LawfulStorage σ] in
/-- A copy of the block in this place was handed over. -/
def Hands (held : Contents) (heap : RelationId) (place : Nat) (handing : Handing σ) : Prop :=
  ∃ page block image,
    block.toNat = place ∧ Index.Held held heap block page ∧ Acceptable page ∧
      CopyOf page block image ∧ handing.handed = .heapPage image block

/-- The blocks from the first on, as many as there are handings, were handed over. -/
def InOrder (held : Contents) (heap : RelationId) (handings : List (Handing σ)) : Prop :=
  ∀ place handing, handings[place]? = some handing → Hands held heap place handing

/-- They were taken, too. -/
structure CopiedTo (held : Contents) (heap : RelationId) (handings : List (Handing σ)) : Prop where
  inOrder : InOrder held heap handings
  accepted : ∀ handing ∈ handings, handing.returned.1 = .ok ()

/-- How the copying of so many blocks ends. -/
inductive CopyEnds (source : σ) (heap : RelationId) (count : BlockNumber) :
    Except Fault BlockNumber → Logged σ → Prop where
  /-- All blocks were taken. -/
  | whole
      {left : Logged σ}
      (all : left.handings.length = count.toNat)
      (taken : CopiedTo (contents source) heap left.handings) :
      CopyEnds source heap count (.ok count) left
  /-- The next block cannot be copied. -/
  | damaged
      {left : Logged σ}
      {block : BlockNumber}
      {page : Page}
      (taken : CopiedTo (contents source) heap left.handings)
      (next : block.toNat = left.handings.length)
      (here : Index.Held (contents source) heap block page)
      (unacceptable : ¬Acceptable page) :
      CopyEnds source heap count
        (.error (.corruptPage (.pointers page.lower page.upper page.special))) left
  /-- The copy of the next block was refused. -/
  | refused
      {left : Logged σ}
      {earlier : List (Handing σ)}
      {handed : Handed}
      {fault : Fault}
      (taken : CopiedTo (contents source) heap earlier)
      (last : left.handings = earlier ++ [⟨handed, (.error fault, left.inner)⟩])
      (next : Hands (contents source) heap earlier.length ⟨handed, (.error fault, left.inner)⟩) :
      CopyEnds source heap count (.error fault) left
  /-- The store failed, although it was asked for nothing that it does not have. -/
  | failed
      {left : Logged σ}
      {fault : Fault}
      (taken : CopiedTo (contents source) heap left.handings)
      (unsound : ¬Sound source) :
      CopyEnds source heap count (.error fault) left

omit [Storage σ] [LawfulStorage σ] in
theorem InOrder.concat
    {held : Contents}
    {handings : List (Handing σ)}
    {handing : Handing σ}
    (inOrder : InOrder held heap handings)
    (next : Hands held heap handings.length handing) :
    InOrder held heap (handings ++ [handing]) := by
  intro place other among
  rcases Nat.lt_trichotomy place handings.length with before | here | beyond
  · rw [List.getElem?_append_left before] at among
    exact inOrder place other among
  · rw [here, List.getElem?_concat_length] at among
    rw [here, ← Option.some.inj among]
    exact next
  · rw [List.getElem?_eq_none (List.length_append ▸ beyond)] at among
    cases among

omit [Storage σ] [LawfulStorage σ] in
theorem CopiedTo.concat
    {held : Contents}
    {handings : List (Handing σ)}
    {handed : Handed}
    {left : σ}
    (taken : CopiedTo held heap handings)
    (next : Hands held heap handings.length ⟨handed, (.ok (), left)⟩) :
    CopiedTo held heap (handings ++ [⟨handed, (.ok (), left)⟩]) where
  inOrder := taken.inOrder.concat next
  accepted handing among := by
    rcases List.mem_append.mp among with earlier | last
    · exact taken.accepted handing earlier
    · rw [List.mem_singleton.mp last]

/-- Where a copy stands between two blocks. -/
structure Copying (source : σ) (heap : RelationId) (state : Logged σ) : Prop where
  same : contents state.inner heap = contents source heap
  sound : Sound source → Sound state.inner
  taken : CopiedTo (contents source) heap state.handings

theorem Copying.start (source : σ) (heap : RelationId) :
    Copying source heap (Logged.start source) where
  same := rfl
  sound := id
  taken :=
    { inOrder := fun _ _ among => absurd among (by simp [Logged.start])
      accepted := fun _ among => absurd among List.not_mem_nil }

/-- A call that changes no contents leaves a copy where it stands. -/
theorem Copying.became
    {source : σ}
    {heap : RelationId}
    {state left : Logged σ}
    (copying : Copying source heap state)
    (became : Became state.inner left.inner (contents state.inner) 0)
    (kept : left.handings = state.handings) :
    Copying source heap left where
  same := (congrFun became.holds heap).trans copying.same
  sound sound := became.keepsSound (copying.sound sound)
  taken := kept ▸ copying.taken

section Runs

variable
  {source : σ}
  {heap : RelationId}
  {target : PageTarget σ}
  {count : BlockNumber}
  {state : Logged σ}

omit [Storage σ] [LawfulStorage σ] in
/-- An action of the store inside does the same with a log around it. -/
theorem Logged.yields_onInner
    {α : Type}
    {action : StorageM σ α}
    {after : Except Fault α → σ → Prop}
    (yields : action.Yields state.inner after) :
    (Logged.onInner action).Yields state fun outcome left =>
      after outcome left.inner ∧ left.handings = state.handings :=
  ⟨yields, rfl⟩

/-- Reading a block that is there leaves a copy where it stands. -/
theorem read_copying
    {block : BlockNumber}
    {page : Page}
    (copying : Copying source heap state)
    (here : Index.Held (contents source) heap block page) :
    (Storage.read heap block : StorageM (Logged σ) Page).Yields state
      (either
        (fun found left =>
          found = page ∧ Copying source heap left ∧ left.handings = state.handings)
        fun _ left =>
          ¬Sound source ∧ Copying source heap left ∧ left.handings = state.handings) := by
  have present : (contents state.inner).page heap block = .ok page := by
    rw [Contents.page_congr copying.same]
    exact here
  have reads := Logged.yields_onInner (read_known (Eq.refl (contents state.inner)) present)
  apply reads.weaken
  intro outcome left holds
  cases outcome with
  | ok found =>
      obtain ⟨⟨same, became⟩, kept⟩ := holds
      exact ⟨same, copying.became became kept, kept⟩
  | error fault =>
      obtain ⟨⟨became, unsound⟩, kept⟩ := holds
      exact ⟨fun sound => unsound (copying.sound sound), copying.became became kept, kept⟩

/-- Handing a copy over. -/
theorem addHeapPage_copying
    (spares : SparesHeap target heap)
    (copying : Copying source heap state)
    (page : Page)
    (block : BlockNumber) :
    ((Logged.through target).addHeapPage page block).Yields state fun outcome left =>
      contents left.inner heap = contents source heap ∧ (Sound source → Sound left.inner) ∧
        left.handings = state.handings ++ [⟨.heapPage page block, (outcome, left.inner)⟩] := by
  have kept := spares.contents state.inner page block
  have sound := spares.sound state.inner page block
  exact ⟨kept.trans copying.same, fun sane => sound (copying.sound sane), rfl⟩

/-- Copying the blocks behind those that were copied. -/
theorem copyBlocks_ends
    {found : Relation}
    (spares : SparesHeap target heap)
    (present : contents source heap = some found)
    (counted : count.toNat = found.pages.length)
    (more : Nat)
    (whole : state.handings.length + more = found.pages.length)
    (copying : Copying source heap state) :
    (copyBlocks heap (Logged.through target)
        ((List.range' state.handings.length more).map UInt32.ofNat)).Yields state
      fun outcome left =>
        contents left.inner heap = contents source heap ∧
          CopyEnds source heap count (outcome.map fun _ => count) left := by
  induction more generalizing state with
  | zero =>
      exact yields_pure ⟨copying.same, .whole (by omega) copying.taken⟩
  | succ more inductionHypothesis =>
      have inside : state.handings.length < found.pages.length := by omega
      have number :
          (UInt32.ofNat state.handings.length).toNat = state.handings.length :=
        UInt32.toNat_ofNat_of_lt' (Nat.lt_trans inside (counted ▸ count.toNat_lt))
      have here :
          Index.Held (contents source) heap (UInt32.ofNat state.handings.length)
            found.pages[state.handings.length] :=
        Contents.page_of_some present (by rw [number, List.getElem?_eq_getElem inside])
      rw [List.range'_succ, List.map_cons, copyBlocks]
      refine yields_bind (read_copying copying here) ?_ ?_
      · rintro page between ⟨rfl, copies, kept⟩
        refine yields_lift_bind ?_ ?_
        · intro image stamps
          have hands {outcome : Except Fault Unit} {left : σ} :
              Hands (contents source) heap between.handings.length
                ⟨.heapPage image (UInt32.ofNat state.handings.length), (outcome, left)⟩ :=
            ⟨_, _, image, by rw [number, kept], here, acceptable_of_stamped stamps,
              copyOf_stamped stamps, rfl⟩
          refine yields_bind (addHeapPage_copying spares copies image _) ?_ ?_
          · rintro _ left ⟨same, sound, handings⟩
            have reached : Copying source heap left :=
              ⟨same, sound, by rw [handings]; exact copies.taken.concat hands⟩
            have length : left.handings.length = state.handings.length + 1 := by
              rw [handings, kept, List.length_append, List.length_singleton]
            rw [← length]
            exact inductionHypothesis (by omega) reached
          · rintro fault left ⟨same, sound, handings⟩
            exact ⟨same, .refused copies.taken handings hands⟩
        · intro fault refused
          obtain ⟨unacceptable, rfl⟩ := not_acceptable_of_stamped refused
          exact ⟨copies.same, .damaged copies.taken (by rw [number, kept]) here unacceptable⟩
      · rintro fault left ⟨unsound, copies, -⟩
        exact ⟨copies.same, .failed copies.taken unsound⟩

/-- A copy with a log hands over the blocks of a heap that can be counted. -/
theorem copy_ends
    (spares : SparesHeap target heap)
    (counted : (contents source).count heap = .ok count) :
    (copy heap (Logged.through target)).Yields (Logged.start source) fun outcome left =>
      contents left.inner heap = contents source heap ∧
        CopyEnds source heap count outcome left := by
  obtain ⟨found, present, length⟩ := Contents.count_eq_ok_iff.mp counted
  have start := Copying.start source heap
  refine yields_bind (Logged.yields_onInner (LawfulStorage.count_law source heap)) ?_ ?_
  · rintro number between ⟨⟨same, became⟩, kept⟩
    obtain rfl := Except.ok.inj (counted.symm.trans same)
    have copies := start.became became kept
    have none : between.handings.length = 0 := by
      rw [kept]
      rfl
    have range :
        blockRange count =
          (List.range' between.handings.length count.toNat).map UInt32.ofNat := by
      rw [none, blockRange, List.range_eq_range']
    rw [range]
    have ends := copyBlocks_ends spares present length.symm count.toNat (by omega) copies
    refine yields_bind ends ?_ ?_
    · exact fun _ left holds => yields_pure holds
    · exact fun _ left holds => holds
  · rintro fault left ⟨⟨reason, became⟩, kept⟩
    have copies := start.became became kept
    refine ⟨copies.same, .failed copies.taken fun sound => ?_⟩
    exact absurd (counted.symm.trans (reason sound)) (by simp)

/-- A heap that cannot be counted is not copied. -/
theorem copy_of_uncounted
    {fault : Fault}
    (uncounted : (contents source).count heap = .error fault) :
    (copy heap (Logged.through target)).Yields (Logged.start source) fun outcome left =>
      contents left.inner heap = contents source heap ∧ left.handings = [] ∧
        (Sound source → outcome = .error fault) := by
  refine yields_bind (Logged.yields_onInner (LawfulStorage.count_law source heap)) ?_ ?_
  · rintro number between ⟨⟨counted, -⟩, -⟩
    exact absurd (uncounted.symm.trans counted) (by simp)
  · rintro other left ⟨⟨reason, became⟩, kept⟩
    refine ⟨congrFun became.holds heap, kept, fun sound => ?_⟩
    rw [Except.error.inj (uncounted.symm.trans (reason sound))]

/-! ## The copy -/

omit [LawfulStorage σ] in
/-- Copying does the same with a log as without one. -/
theorem copy_logged :
    Projects Logged.inner (copy heap (Logged.through target)) (copy heap target) := by
  have blocks :
      ∀ numbers,
        Projects Logged.inner (copyBlocks heap (Logged.through target) numbers)
          (copyBlocks heap target numbers) := by
    intro numbers
    induction numbers with
    | nil => exact .ofPure ()
    | cons block rest inductionHypothesis =>
        refine Projects.bind (fun _ => ⟨rfl, rfl⟩) fun page => ?_
        refine Projects.check fun image _ => ?_
        exact Projects.bind (fun _ => ⟨rfl, rfl⟩) fun _ => inductionHypothesis
  refine Projects.bind (fun _ => ⟨rfl, rfl⟩) fun count => ?_
  exact (blocks _).bind fun _ => .ofPure count

/-- What a copy has handed over, however it ended. -/
theorem CopyEnds.inOrder
    {outcome : Except Fault BlockNumber}
    {left : Logged σ}
    (ends : CopyEnds source heap count outcome left) :
    InOrder (contents source) heap left.handings := by
  cases ends with
  | whole all taken => exact taken.inOrder
  | damaged taken next here unacceptable => exact taken.inOrder
  | refused taken last next =>
      rw [last]
      exact taken.inOrder.concat next
  | failed taken unsound => exact taken.inOrder

/-- A sound store is copied as a whole exactly if all pages can be copied and none is refused. -/
theorem CopyEnds.whole_iff
    {outcome : Except Fault BlockNumber}
    {left : Logged σ}
    (sound : Sound source)
    (counted : (contents source).count heap = .ok count)
    (ends : CopyEnds source heap count outcome left) :
    outcome = .ok count ↔
      (∀ block page, Index.Held (contents source) heap block page → Acceptable page) ∧
        ∀ handing ∈ left.handings, handing.returned.1 = .ok () := by
  cases ends with
  | whole all taken =>
      refine iff_of_true rfl ⟨?_, taken.accepted⟩
      intro block page here
      obtain ⟨found, present, length⟩ := Contents.count_eq_ok_iff.mp counted
      obtain ⟨other, among, stands⟩ := Contents.page_eq_ok_iff.mp here
      obtain rfl := Option.some.inj (present.symm.trans among)
      have inside : block.toNat < left.handings.length := by
        rw [all, ← length]
        exact (List.getElem?_eq_some_iff.mp stands).1
      obtain ⟨copied, number, -, same, held, acceptable, -⟩ :=
        taken.inOrder block.toNat _ (List.getElem?_eq_getElem inside)
      rw [UInt32.toNat_inj.mp same] at held
      rwa [Index.held_functional _ _ _ _ _ here held]
  | damaged taken next here unacceptable =>
      refine iff_of_false (by simp) ?_
      intro all
      exact unacceptable (all.1 _ _ here)
  | refused taken last next =>
      refine iff_of_false (by simp) ?_
      intro all
      have accepted := all.2 _ (last ▸ List.mem_append_right _ List.mem_cons_self)
      cases accepted
  | failed taken unsound => exact absurd sound unsound

end Runs

/-- Copying a heap hands over its blocks from the first on, each as it stands in the heap but for
the stamp, and leaves the heap as it is. It succeeds, with the number of blocks, exactly if every
page is unformatted or well formed and the target refuses none; otherwise it stops in front of the
first page that is neither, or with the first refusal. -/
theorem copy_hands_over
    {target : PageTarget σ}
    (spares : SparesHeap target heap)
    (source : σ) :
    let plain := (copy heap target).runOn source
    let logged := (copy heap (Logged.through target)).runOn (.start source)
    (logged.1 = plain.1 ∧ logged.2.inner = plain.2) ∧
      contents plain.2 heap = contents source heap ∧
        InOrder (contents source) heap logged.2.handings ∧
          (∀ count,
            (contents source).count heap = .ok count →
              CopyEnds source heap count plain.1 logged.2 ∧
                (Sound source →
                  (plain.1 = .ok count ↔
                    (∀ block page,
                      Index.Held (contents source) heap block page → Acceptable page) ∧
                      ∀ handing ∈ logged.2.handings, handing.returned.1 = .ok ()))) ∧
            ∀ fault,
              (contents source).count heap = .error fault →
                logged.2.handings = [] ∧ (Sound source → plain.1 = .error fault) := by
  intro plain logged
  have same : logged.1 = plain.1 ∧ logged.2.inner = plain.2 := copy_logged (.start source)
  rw [← same.1, ← same.2]
  refine ⟨⟨rfl, rfl⟩, ?_⟩
  cases counted : (contents source).count heap with
  | ok count =>
      obtain ⟨kept, ends⟩ := copy_ends spares counted
      refine ⟨kept, ends.inOrder, ?_, ?_⟩
      · rintro other ⟨⟩
        exact ⟨ends, fun sound => ends.whole_iff sound counted⟩
      · rintro fault ⟨⟩
  | error fault =>
      obtain ⟨kept, none, reason⟩ := copy_of_uncounted counted
      refine ⟨kept, ?_, ?_, ?_⟩
      · intro place handing among
        rw [none] at among
        cases among
      · rintro count ⟨⟩
      · rintro other ⟨⟩
        exact ⟨none, reason⟩

theorem sparesHeap_recording (heap : RelationId) :
    SparesHeap (Recording.target : PageTarget (Recording σ)) heap where
  contents := by
    rintro ⟨inner, handed, limit⟩ page block
    simp only [Yields, Recording.target, Recording.keep, runOn_ofOutcome]
    split <;> rfl
  sound := by
    rintro ⟨inner, handed, limit⟩ page block
    simp only [Yields, Recording.target, Recording.keep, runOn_ofOutcome]
    split <;> exact id

/-- A heap of a page without rows and one that was never formatted, in front of a target that takes
one page and no other. -/
def twoPageSource : Recording MemoryStorage :=
  .start (some 1) ⟨blockSize, #[#[Page.plain, Page.zero]]⟩

theorem copy_hands_over_limited :
    SparesHeap (Recording.target : PageTarget (Recording MemoryStorage)) 1 ∧
      (contents twoPageSource).count 1 = .ok 2 ∧
        CopyEnds twoPageSource 1 2 ((copy 1 Recording.target).runOn twoPageSource).1
          ((copy 1 (Logged.through Recording.target)).runOn (.start twoPageSource)).2 := by
  have spares : SparesHeap (Recording.target : PageTarget (Recording MemoryStorage)) 1 :=
    sparesHeap_recording 1
  have counted : (contents twoPageSource).count 1 = .ok 2 := rfl
  obtain ⟨-, -, -, ends, -⟩ := copy_hands_over spares twoPageSource
  exact ⟨spares, counted, (ends 2 counted).1⟩

end ObliviousStorage.Heap

import ObliviousStorage.Proofs.Index.Overlapping
import ObliviousStorage.Proofs.Index.Rewriting

/-!
Contract: measuring an index next to relocating it, as runs of a store.

Owns: `Accepting`, the targets that take every index page and leave the index alone;
`watching`, which lets the pages be seen that another target takes; and that a relocation
into such a target succeeds exactly when measuring does, with the same reads and as many
pages on every level as were measured, and is refused with the same fault otherwise.

Indexes with a page on which two links share a byte are left out: there a relocation
reads a link that it has changed, as the last theorem shows.

Does not own: what becomes of the pages.
-/

namespace ObliviousStorage

open StorageM StorageView

/-! ## Targets -/

/-- A page that was handed over for this level. -/
def Handed.isOn (depth : Nat) : Handed → Bool
  | .indexPage _ _ level => level = depth
  | .heapPage .. => false

namespace Index

/-- A target that takes every index page and leaves the index as it was, from every state
in which it is ready. -/
structure Accepting
    {σ : Type}
    [Storage σ]
    [LawfulStorage σ]
    (index : RelationId)
    (target : PageTarget σ)
    (Ready : σ → Prop) : Prop where
  sound : ∀ state, Ready state → Sound state
  reads :
    ∀ state block, Ready state →
      (Storage.read index block : StorageM σ Page).Yields state fun _ left => Ready left
  takes :
    ∀ state page offset depth, Ready state →
      (target.addIndexPage page offset depth).Yields state fun outcome left =>
        outcome = .ok () ∧ Ready left ∧ contents left index = contents state index

/-- A target that passes pages on to another one and keeps a copy of each, over a store
that remembers its transfers. Those of the other target are not among them. -/
def watching {σ : Type} (target : PageTarget σ) : PageTarget (Recording (Traced σ)) where
  addIndexPage page offset depth := do
    Recording.onInner (Traced.untraced (target.addIndexPage page offset depth))
    Recording.keep (.indexPage page offset depth)
  addHeapPage page block := do
    Recording.onInner (Traced.untraced (target.addHeapPage page block))
    Recording.keep (.heapPage page block)

section Runs

variable {σ : Type} [Storage σ] [LawfulStorage σ] {index : RelationId}

omit [LawfulStorage σ] in
/-- A remembered read does what the read does, and is remembered. -/
theorem yields_read_traced
    {block : BlockNumber}
    {state : Traced σ}
    {after : Except Fault Page → Traced σ → Prop}
    (yields :
      (Storage.read index block : StorageM σ Page).Yields state.inner fun outcome left =>
        after outcome ⟨left, state.trace.push (.read index block)⟩) :
    (Storage.read index block : StorageM (Traced σ) Page).Yields state after := yields

omit [LawfulStorage σ] in
/-- So does one below a store that keeps pages. -/
theorem yields_read_watched
    {block : BlockNumber}
    {state : Recording (Traced σ)}
    {after : Except Fault Page → Recording (Traced σ) → Prop}
    (yields :
      (Storage.read index block : StorageM σ Page).Yields state.inner.inner fun outcome left =>
        after outcome { state with inner := ⟨left, state.inner.trace.push (.read index block)⟩ }) :
    (Storage.read index block : StorageM (Recording (Traced σ)) Page).Yields state after := yields

omit [Storage σ] [LawfulStorage σ] in
/-- Handing a page to a target that is watched does what the target does with it, and
keeps the page if the target took it. -/
theorem yields_addIndexPage_watching
    {target : PageTarget σ}
    {page : Page}
    {offset depth : Nat}
    {state : Recording (Traced σ)}
    {Taken : σ → Prop}
    (unlimited : state.limit = none)
    (yields :
      (target.addIndexPage page offset depth).Yields state.inner.inner fun outcome left =>
        outcome = .ok () ∧ Taken left) :
    ((watching target).addIndexPage page offset depth).Yields state fun outcome left =>
      outcome = .ok () ∧ Taken left.inner.inner ∧ left.inner.trace = state.inner.trace ∧
        left.handed = state.handed.push (.indexPage page offset depth) ∧ left.limit = none := by
  have passes :
      (Recording.onInner (Traced.untraced (target.addIndexPage page offset depth))).Yields state
        fun outcome left =>
          outcome = .ok () ∧ Taken left.inner.inner ∧ left.inner.trace = state.inner.trace ∧
            left.handed = state.handed ∧ left.limit = none :=
    ⟨yields.1, yields.2, rfl, rfl, unlimited⟩
  apply yields_bind passes
  · intro _ between holds
    rcases holds with ⟨-, taken, trace, handed, noLimit⟩
    apply (keep_yields noLimit _).weaken
    rintro outcome left ⟨rfl, rfl⟩
    exact ⟨rfl, taken, trace, by rw [handed], noLimit⟩
  · intro fault between holds
    exact absurd holds.1 (by simp)

/-- A target that only keeps the pages takes every one, as long as it has no limit. -/
theorem accepting_recording :
    Accepting index Recording.target fun state : Recording σ =>
      Sound state ∧ state.limit = none where
  sound _ ready := ready.1
  reads state block ready := by
    have reads := read_of_sound ready.1 (Eq.refl (contents state index)) block
    have unlimited :
        (Storage.read index block : StorageM (Recording σ) Page).Yields state fun _ left =>
          left.limit = none := ready.2
    exact (reads.and unlimited).weaken fun _ _ holds => ⟨holds.1.2.1, holds.2⟩
  takes state page offset depth ready := by
    apply (keep_yields ready.2 _).weaken
    rintro outcome left ⟨rfl, rfl⟩
    exact ⟨rfl, ready, rfl⟩

/-! ## Measuring -/

theorem attended_traced (index : RelationId) (source : σ) :
    Attended index none ((contents source).page index)
      fun blocks _ (state : Traced σ) =>
        (Sound state.inner ∧ contents state.inner = contents source) ∧
          state.trace.toList = blocks.map (Transfer.read index) where
  reads blocks heads state block here := by
    apply yields_read_traced
    apply ((attended_measure index source).reads blocks heads state.inner block here.1).weaken
    intro outcome left holds
    exact ⟨holds.1, holds.2, by simp [here.2]⟩
  hands blocks heads state placement here := yields_pure ⟨rfl, here⟩

/-! ## Relocating -/

section Relocating

variable
  {target : PageTarget σ}
  {Ready : σ → Prop}
  {source : σ}

theorem attended_relocate (accepting : Accepting index target Ready) :
    Attended index (some target) ((contents source).page index)
      fun _ _ (state : σ) => Ready state ∧ contents state index = contents source index where
  reads blocks heads state block here := by
    have reads := read_of_sound (accepting.sound state here.1) here.2 block
    apply (reads.and (accepting.reads state block here.1)).weaken
    intro outcome left holds
    rcases holds with ⟨⟨result, -, same⟩, ready⟩
    exact ⟨result, ready, (congrFun same index).trans here.2⟩
  hands blocks heads state placement here := by
    apply (accepting.takes state _ _ _ here.1).weaken
    intro outcome left holds
    exact ⟨holds.1, holds.2.1, holds.2.2.trans here.2⟩

theorem attended_watching (accepting : Accepting index target Ready) :
    Attended index (some (watching target)) ((contents source).page index)
      fun blocks heads (state : Recording (Traced σ)) =>
        (Ready state.inner.inner ∧ contents state.inner.inner index = contents source index) ∧
          state.inner.trace.toList = blocks.map (Transfer.read index) ∧
            state.handed.toList = heads.map Placement.handed ∧ state.limit = none where
  reads blocks heads state block here := by
    obtain ⟨ready, traced, handed, unlimited⟩ := here
    apply yields_read_watched
    apply ((attended_relocate accepting).reads blocks heads _ block ready).weaken
    intro outcome left holds
    exact ⟨holds.1, holds.2, by simp [traced], handed, unlimited⟩
  hands blocks heads state placement here := by
    obtain ⟨ready, traced, handed, unlimited⟩ := here
    have takes := (attended_relocate accepting).hands blocks heads _ placement ready
    apply (yields_addIndexPage_watching unlimited takes).weaken
    intro outcome left holds
    rcases holds with ⟨taken, here, sameTrace, kept, noLimit⟩
    refine ⟨taken, here, by rw [sameTrace, traced], ?_, noLimit⟩
    simp [kept, handed, Placement.handed]

omit [LawfulStorage σ] in
/-- What a relocation does follows the course that the pages settle. -/
theorem relocate_course
    {fetch : BlockNumber → Except Fault Page}
    {At : List BlockNumber → List Placement → σ → Prop}
    (attended : Attended index (some target) fetch At)
    (state : σ)
    (here : At [] [] state) :
    (relocate index target).Yields state fun outcome left =>
      ∃ blocks placements ended,
        WholeCourse fetch .relocate blocks placements ended ∧
          outcome = ended.map (fun _ => ()) ∧ At blocks placements left := by
  unfold relocate
  apply yields_bind (walk_course attended state here)
  · intro profile left holds
    rcases holds with ⟨blocks, placements, course, here⟩
    exact yields_pure ⟨blocks, placements, .ok profile, course, rfl, here⟩
  · intro fault left holds
    rcases holds with ⟨blocks, placements, course, here⟩
    exact ⟨blocks, placements, .error fault, course, rfl, here⟩

end Relocating

end Runs

theorem countP_handed (placements : List Placement) (depth : Nat) :
    (placements.map Placement.handed).countP (Handed.isOn depth) =
      (onLevel depth placements).length := by
  rw [List.countP_map, onLevel, List.countP_eq_length_filter]
  rfl

/-- Relocating an index agrees with measuring it, for a target that takes every page and
leaves the index alone, whatever the pages hold as long as no two links of an inner page
share a byte. -/
theorem relocate_agrees
    {σ : Type}
    [Storage σ]
    [LawfulStorage σ]
    {index : RelationId}
    {target : PageTarget σ}
    {Ready : σ → Prop}
    {source : σ}
    (accepting : Accepting index target Ready)
    (ready : Ready source)
    (apart :
      ∀ block page,
        Reachable ((contents source).page index) block →
          (contents source).page index block = .ok page → LinksApart page) :
    ((relocate index target).runOn source).1 =
        ((measure index).runOn source).1.map (fun _ => ()) ∧
      let measured := (measure index).runOn (Traced.fresh source)
      let watched :=
        (relocate index (watching target)).runOn (Recording.start none (Traced.fresh source))
      measured.1 = ((measure index).runOn source).1 ∧
        watched.1 = ((relocate index target).runOn source).1 ∧
          watched.2.inner.trace = measured.2.trace ∧
            ∀ profile, measured.1 = .ok profile →
              ∀ depth,
                watched.2.handed.toList.countP (Handed.isOn depth) = profile.pagesOn depth := by
  have sound := accepting.sound source ready
  obtain ⟨blocks, placements, course⟩ := measure_course sound
  obtain ⟨moved, relocated⟩ := course.relocate apart
  obtain ⟨_, _, tracedCourse, -, trace⟩ :=
    walk_course (attended_traced index source) (Traced.fresh source) ⟨⟨sound, rfl⟩, rfl⟩
  obtain ⟨_, _, _, plainCourse, plain, -⟩ :=
    relocate_course (attended_relocate accepting) source ⟨ready, rfl⟩
  obtain ⟨_, _, _, watchedCourse, watches, -, watchedTrace, handed, -⟩ :=
    relocate_course (attended_watching accepting) (Recording.start none (Traced.fresh source))
      ⟨⟨ready, rfl⟩, rfl, rfl, rfl⟩
  obtain ⟨rfl, rfl, sameMeasure⟩ := course.unique tracedCourse
  obtain ⟨-, -, rfl⟩ := relocated.unique plainCourse
  obtain ⟨rfl, rfl, rfl⟩ := relocated.unique watchedCourse
  refine ⟨plain, sameMeasure.symm, watches.trans plain.symm, ?_, fun profile measured depth => ?_⟩
  · exact Array.toList_inj.mp (watchedTrace.trans trace.symm)
  · rw [sameMeasure.trans measured] at relocated
    rw [handed, countP_handed]
    exact relocated.trail.length_onLevel depth

/-- A root above two leaves that link to each other, relocated into a target that keeps
the pages. -/
theorem relocate_agrees_linked :
    Accepting 1 Recording.target
        (fun state : Recording MemoryStorage => Sound state ∧ state.limit = none) ∧
      ((relocate 1 Recording.target).runOn (Recording.start none linkedStore)).1 = .ok () := by
  have apart :
      ∀ block page,
        Reachable ((contents (Recording.start none linkedStore)).page 1) block →
          (contents (Recording.start none linkedStore)).page 1 block = .ok page →
            LinksApart page := by
    intro block page _ among
    obtain ⟨found, present, place⟩ := Contents.page_eq_ok_iff.mp among
    obtain rfl := Option.some.inj (present.symm.trans (contents_twoLevelStore _ _))
    exact
      linksApart_of_itemsApart (itemsApart_twoLevelIndex _ _ _ _ page (List.mem_of_getElem? place))
  obtain ⟨placements, whole⟩ := wholeTrail_linkedStore
  have sound : Sound (Recording.start none linkedStore) := ⟨trivial, rfl⟩
  obtain ⟨same, -⟩ := relocate_agrees accepting_recording ⟨sound, rfl⟩ apart
  exact ⟨accepting_recording, same.trans (congrArg _ (measure_of_whole sound whole))⟩

/-- Links that overlap make the difference: an index that can be measured, and that no
relocation gets to the end of. -/
theorem measured_not_relocated :
    Accepting 1 Recording.target
        (fun state : Recording MemoryStorage => Sound state ∧ state.limit = none) ∧
      ((measure 1).runOn (Recording.start none overlappingStore)).1 = .ok ⟨[2], 0⟩ ∧
        ((relocate 1 Recording.target).runOn (Recording.start none overlappingStore)).1 ≠
          .ok () := by
  have sound : Sound (Recording.start none overlappingStore) := ⟨trivial, rfl⟩
  obtain ⟨placements, whole⟩ := linkedLeaves_overlappingStore.wholeTrail
  refine ⟨accepting_recording, measure_of_whole sound whole, fun relocates => ?_⟩
  obtain ⟨_, relocated, ended, course, outcome, -⟩ :=
    relocate_course (attended_relocate accepting_recording)
      (Recording.start none overlappingStore) ⟨⟨sound, rfl⟩, rfl⟩
  rw [relocates] at outcome
  cases ended with
  | error fault => simp [Except.map] at outcome
  | ok profile => exact not_wholeTrail_overlappingStore relocated profile course.trail

end Index

end ObliviousStorage

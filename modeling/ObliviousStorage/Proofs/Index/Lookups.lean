import ObliviousStorage.Proofs.Index.Descents
import ObliviousStorage.Proofs.Index.TwoLevels

/-!
Contract: looking a key up in an index and looking it up among its relocated pages.

Owns: that the two lookups come to the same outcome for every key, faults included, and
read corresponding pages in the same order. The index may have any shape that
measuring accepts; the records that leaves point to are not looked at.

Does not own: how the relocated pages came to their blocks.
-/

namespace ObliviousStorage.Index

open StorageM StorageView

/-! ## Reading what is there -/

section Reading

variable {σ : Type} [Storage σ] [LawfulStorage σ]

/-- Reading a block of a store that refuses nothing else. -/
theorem read_of_page
    {state : σ}
    {held : Contents}
    {relation : RelationId}
    {block : BlockNumber}
    {page : Page}
    (sound : Sound state)
    (holds : contents state = held)
    (found : held.page relation block = .ok page) :
    (Storage.read relation block : StorageM σ Page).Yields state fun outcome left =>
      outcome = .ok page ∧ Sound left ∧ contents left = held := by
  subst holds
  apply (LawfulStorage.read_law state relation block).weaken
  intro outcome left reads
  cases outcome with
  | error fault => exact absurd (found.symm.trans (reads.1 sound)) (by simp)
  | ok other =>
      rcases reads with ⟨result, became⟩
      rw [found] at result
      exact ⟨by rw [Except.ok.inj result], became.keepsSound sound, became.holds⟩

omit [LawfulStorage σ] in
theorem read_traced (state : Traced σ) (relation : RelationId) (block : BlockNumber) :
    (Storage.read relation block : StorageM (Traced σ) Page).Yields state fun _ left =>
      left.trace = state.trace.push (.read relation block) := rfl

/-- A sound store that holds these relations, and a trace of reads that began with
`before` and went on with one read for each of these placements. -/
def ReadSoFar
    (held : Contents)
    (before : List Transfer)
    (transfer : Placement → Transfer)
    (heads : List Placement)
    (state : Traced σ) : Prop :=
  Sound state ∧ contents state = held ∧ state.trace.toList = before ++ heads.map transfer

/-- Reading the block that stands for a page yields what the relation holds there, and
`At` tells for which pages this was done when a state was reached. -/
def ReadsAs
    (held : Contents)
    (relation : RelationId)
    (blockOf : Placement → BlockNumber)
    (At : List Placement → σ → Prop) : Prop :=
  ∀ heads state placement page, At heads state →
    held.page relation (blockOf placement) = .ok page →
      (Storage.read relation (blockOf placement) : StorageM σ Page).Yields state fun outcome left =>
        outcome = .ok page ∧ At (heads ++ [placement]) left

/-- A sound store that holds these relations reads them, whatever was read before. -/
theorem readsAs_holding
    (σ : Type)
    [Storage σ]
    [LawfulStorage σ]
    (held : Contents)
    (relation : RelationId)
    (blockOf : Placement → BlockNumber) :
    ReadsAs held relation blockOf fun _ (state : σ) => Sound state ∧ contents state = held := by
  rintro _ state placement page ⟨sound, holds⟩ found
  exact read_of_page sound holds found

theorem readsAs_readSoFar
    (σ : Type)
    [Storage σ]
    [LawfulStorage σ]
    (held : Contents)
    (before : List Transfer)
    (relation : RelationId)
    (blockOf : Placement → BlockNumber) :
    ReadsAs held relation blockOf
      fun heads (state : Traced σ) =>
        ReadSoFar held before (fun placement => .read relation (blockOf placement)) heads state := by
  rintro heads state placement page ⟨sound, holds, trace⟩ found
  apply ((read_of_page sound holds found).and (read_traced state relation _)).weaken
  intro outcome left holds
  rcases holds with ⟨⟨result, leftSound, leftHolds⟩, leftTrace⟩
  refine ⟨result, leftSound, leftHolds, ?_⟩
  rw [leftTrace, Array.toList_push, trace, List.map_append, List.map_singleton, List.append_assoc]

end Reading

/-! ## Lookups through a trail -/

/-- The block that a layout gives to the place of a page. -/
def Layout.blockOf (layout : Layout) (placement : Placement) : BlockNumber :=
  UInt32.ofNat (layout.base placement.pending.depth + placement.tally.offset)

section Lookups

variable
  {σ τ : Type}
  [Storage σ]
  [Storage τ]
  {held : Contents}
  {index file : RelationId}
  {layout : Layout}
  {placements : List Placement}
  {profile : Profile}
  {Start : σ → Prop}
  {At : List Placement → σ → Prop}
  {AtPlaced : List Placement → τ → Prop}

/-- The lookup in an index and the lookup among its relocated pages visit the same
places and come to the same outcome. -/
theorem lookup_agree
    (whole : WholeTrail (Held held index) .relocate placements profile)
    (small : profile.counts.sum < blockNumberBound)
    (faithful : ∀ placement ∈ placements, ∃ rootLevel, placement.Faithful rootLevel)
    (opens :
      ∀ first state, Held held index metapageBlock first → Start state →
        (Storage.read index metapageBlock : StorageM σ Page).Yields state fun outcome left =>
          outcome = .ok first ∧ At [] left)
    (fetches :
      Fetches placements (fun placement => placement.pending.block) Placement.page
        (fun child _ => (Storage.read index child : StorageM σ Page)) At)
    (fetchesPlaced :
      Fetches placements Placement.position (fun placement => placement.visit.page)
        (fetchPlaced layout file : BlockNumber → Nat → StorageM τ Page) AtPlaced)
    (key : Int64) :
    ∃ path outcome,
      path ⊆ placements ∧
        (∀ state, Start state →
          (lookup index key).Yields state fun result left => result = outcome ∧ At path left) ∧
          ∀ state, AtPlaced [] state →
            (lookupPlaced layout file key).Yields state fun result left =>
              result = outcome ∧ AtPlaced path left := by
  obtain ⟨first, metapage, root, fetched, reads, atRoot, pending, offset⟩ := whole.root
  have member := List.mem_of_getElem? atRoot
  have depth : root.pending.depth = 0 := by rw [pending]; rfl
  have block : root.pending.block = metapage.root := by rw [pending]; rfl
  have position : root.position = 0 := by rw [Placement.position, offset]; rfl
  obtain ⟨path, outcome, within, original, relocated⟩ :=
    descendFrom_agree whole small faithful fetches fetchesPlaced key deepest member
  refine ⟨root :: path, outcome, List.cons_subset.mpr ⟨member, within⟩, ?_, ?_⟩
  · intro state start
    apply yields_bind (opens first state fetched start)
    · intro page afterFirst holds
      rcases holds with ⟨same, here⟩
      obtain rfl := Except.ok.inj same
      apply yields_lift_bind
      · intro found opened
        obtain rfl := Except.ok.inj (reads.symm.trans opened)
        have fetchesRoot :
            (Storage.read index root.pending.block : StorageM σ Page).Yields afterFirst
              fun outcome left => outcome = .ok root.page ∧ At [root] left :=
          fetches [] afterFirst root member here
        rw [block] at fetchesRoot
        apply yields_bind fetchesRoot
        · intro page afterRoot holds
          rcases holds with ⟨same, here⟩
          obtain rfl := Except.ok.inj same
          have descends := original _ afterRoot here
          rwa [depth] at descends
        · intro fault left refused
          rcases refused with ⟨failed, -⟩
          exact absurd failed (by simp)
      · intro fault refused
        exact absurd (reads.symm.trans refused) (by simp)
    · intro fault left refused
      rcases refused with ⟨failed, -⟩
      exact absurd failed (by simp)
  · intro state here
    have fetchesRoot := fetchesPlaced [] state root member here
    rw [position, depth] at fetchesRoot
    apply yields_bind fetchesRoot
    · intro page afterRoot holds
      rcases holds with ⟨same, here⟩
      obtain rfl := Except.ok.inj same
      have descends := relocated _ afterRoot here
      rwa [depth] at descends
    · intro fault left refused
      rcases refused with ⟨failed, -⟩
      exact absurd failed (by simp)

end Lookups

/-- The block and the page at the place of every page on a trail, once the images fill
the first blocks of a relation. -/
theorem placed_page
    {Fetched : BlockNumber → Page → Prop}
    {held : Contents}
    {file : RelationId}
    {room : Relation}
    {layout : Layout}
    {placements : List Placement}
    {profile : Profile}
    (whole : WholeTrail Fetched .relocate placements profile)
    (laidOut : layout.counts = profile.counts)
    (filled :
      held file = some (room.overlaid (placements.map fun placement => placement.visit.page)))
    {placement : Placement}
    (member : placement ∈ placements) :
    layout.blockAt placement.pending.depth placement.tally.offset =
        .ok (layout.blockOf placement) ∧
      held.page file (layout.blockOf placement) = .ok placement.visit.page := by
  obtain ⟨number, inside, among⟩ := List.mem_iff_getElem.mp member
  have inOrder := whole.inOrder (List.getElem?_eq_some_iff.mpr ⟨inside, among⟩)
  rw [← laidOut] at inOrder
  have block : layout.blockOf placement = UInt32.ofNat number := by
    rw [Layout.blockOf, Layout.base_eq_sum, inOrder.number]
  refine ⟨by rw [block, Layout.blockAt_of_inOrder inOrder], ?_⟩
  refine Contents.page_of_some filled (Relation.getElem?_overlaid ?_)
  have bound : number < 4294967296 := Nat.lt_trans inOrder.number_lt layout.sum_lt
  rw [block, UInt32.toNat_ofNat_of_lt' bound, List.getElem?_map, List.getElem?_eq_getElem inside,
    among]
  rfl

section Fetching

variable
  {σ : Type}
  [Storage σ]
  {held : Contents}
  {index file : RelationId}
  {placements : List Placement}
  {profile : Profile}
  {At : List Placement → σ → Prop}

/-- The pages of an index as `Fetches` wants them: each in its own block. -/
theorem fetches_original
    (whole : WholeTrail (Held held index) .relocate placements profile)
    (reads : ReadsAs held index (fun placement => placement.pending.block) At) :
    Fetches placements (fun placement => placement.pending.block) Placement.page
      (fun child _ => (Storage.read index child : StorageM σ Page)) At :=
  fun heads state placement member here =>
    reads heads state placement placement.page here (whole.visit_of_mem member).1

/-- Their images as `Fetches` wants them: each at its place in the layout. -/
theorem fetches_placed
    {Fetched : BlockNumber → Page → Prop}
    {room : Relation}
    {layout : Layout}
    (whole : WholeTrail Fetched .relocate placements profile)
    (laidOut : layout.counts = profile.counts)
    (filled :
      held file = some (room.overlaid (placements.map fun placement => placement.visit.page)))
    (reads : ReadsAs held file layout.blockOf At) :
    Fetches placements Placement.position (fun placement => placement.visit.page)
      (fetchPlaced layout file : BlockNumber → Nat → StorageM σ Page) At := by
  intro heads state placement member here
  obtain ⟨block, page⟩ := placed_page whole laidOut filled member
  have inside : placement.tally.offset < 4294967296 := by
    obtain ⟨number, bound, among⟩ := List.mem_iff_getElem.mp member
    have inOrder := whole.inOrder (List.getElem?_eq_some_iff.mpr ⟨bound, among⟩)
    have small := layout.sum_lt
    rw [laidOut] at small
    have least := inOrder.number_lt
    have place := inOrder.number
    simp only [blockNumberBound] at small
    omega
  have position : placement.position.toNat = placement.tally.offset :=
    UInt32.toNat_ofNat_of_lt' inside
  apply yields_lift_bind
  · intro found given
    rw [position, block] at given
    obtain rfl := Except.ok.inj given
    exact reads heads state placement _ here page
  · intro fault refused
    rw [position, block] at refused
    exact absurd refused (by simp)

end Fetching

/-- Once the images of an index fill the first blocks of a file, looking a key up in
either comes to the same outcome. -/
theorem lookupPlaced_eq
    {σ τ : Type}
    [Storage σ]
    [LawfulStorage σ]
    [Storage τ]
    [LawfulStorage τ]
    {source : σ}
    {mirror : τ}
    {index file : RelationId}
    {room : Relation}
    {layout : Layout}
    {placements : List Placement}
    {profile : Profile}
    (sound : Sound source)
    (mirrorSound : Sound mirror)
    (whole : WholeTrail (Held (contents source) index) .relocate placements profile)
    (faithful : ∀ placement ∈ placements, ∃ rootLevel, placement.Faithful rootLevel)
    (laidOut : layout.counts = profile.counts)
    (filled :
      contents mirror file =
        some (room.overlaid (placements.map fun placement => placement.visit.page)))
    (key : Int64) :
    ((lookupPlaced layout file key).runOn mirror).1 = ((lookup index key).runOn source).1 := by
  have opens :
      ∀ first (state : σ), Held (contents source) index metapageBlock first → state = source →
        (Storage.read index metapageBlock : StorageM σ Page).Yields state fun outcome left =>
          outcome = .ok first ∧ Sound left ∧ contents left = contents source := by
    rintro first _ fetched rfl
    exact read_of_page sound rfl fetched
  obtain ⟨path, outcome, -, original, relocated⟩ :=
    lookup_agree whole (laidOut ▸ layout.sum_lt) faithful opens
      (fetches_original whole (readsAs_holding σ _ _ _))
      (fetches_placed whole laidOut filled (readsAs_holding τ _ _ _)) key
  exact (relocated mirror ⟨mirrorSound, rfl⟩).1.trans (original source rfl).1.symm

/-- Relocation preserves search. Take an index that can be measured and on whose inner
pages no items overlap, and write the pages that a relocation hands over to the blocks
that the layout of the measured shape gives them. Then a lookup among the written pages
ends for every key as the lookup in the index does, and the pages that it reads are the
images, in the same order, of those that the lookup in the index reads after the
metapage. -/
theorem lookup_relocated
    {σ τ : Type}
    [Storage σ]
    [LawfulStorage σ]
    [Storage τ]
    [LawfulStorage τ]
    {source left : σ}
    {index : RelationId}
    {found : Relation}
    {profile : Profile}
    (sound : Sound source)
    (present : contents source index = some found)
    (few : found.pages.length < blockNumberBound)
    (measured : (measure index).runOn source = (.ok profile, left))
    (apart : InnerItemsApart (contents source) index)
    {mirror : τ}
    {file : RelationId}
    {room : Relation}
    (mirrorSound : Sound mirror)
    (prepared : contents mirror file = some room)
    (roomy : profile.size ≤ room.pages.length) :
    ∃ layout placements recorded placed,
      Layout.ofProfile profile = .ok layout ∧
        WholeTrail (Held (contents source) index) .relocate placements profile ∧
        (relocate index Recording.target).runOn (Recording.start none source) =
          (.ok (), recorded) ∧
        recorded.handed.toList = placements.map Placement.handed ∧
        (placeHanded layout file recorded.handed.toList).runOn mirror = (.ok (), placed) ∧
        ∀ key, ∃ path : List Placement,
          ((lookupPlaced layout file key).runOn (Traced.fresh placed)).1 =
              ((lookup index key).runOn (Traced.fresh source)).1 ∧
            ((lookup index key).runOn (Traced.fresh source)).2.trace.toList =
              .read index metapageBlock ::
                path.map (fun placement => .read index placement.pending.block) ∧
            ((lookupPlaced layout file key).runOn (Traced.fresh placed)).2.trace.toList =
              path.map (fun placement => .read file (layout.blockOf placement)) ∧
            ∀ placement ∈ path,
              placement ∈ placements ∧
                layout.blockAt placement.pending.depth placement.tally.offset =
                  .ok (layout.blockOf placement) ∧
                (contents source).page index placement.pending.block = .ok placement.page ∧
                (contents placed).page file (layout.blockOf placement) =
                  .ok placement.visit.page := by
  obtain ⟨⟨visited, whole⟩, -⟩ := (measure_yields index source).runOn measured
  have small := Nat.lt_of_le_of_lt (whole.size_le present few) few
  obtain ⟨placements, moved, faithful⟩ := whole.relocate (apart _ _ whole)
  obtain ⟨layout, made, laidOut⟩ :=
    Layout.exists_ofProfile (Nat.lt_of_le_of_lt whole.levels_le small) small
  cases relocates : (relocate index Recording.target).runOn (Recording.start none source) with
  | mk outcome recorded =>
  obtain ⟨rfl, handed⟩ := (relocate_recording sound moved).runOn relocates
  have fits : ([] : List Page).length + placements.length ≤ room.pages.length := by
    rw [← moved.size_eq, List.length_nil, Nat.zero_add, ← Profile.size_eq_sum]
    exact roomy
  have startHolds : contents mirror = (contents mirror).put file (room.overlaid []) := by
    rw [Relation.overlaid_nil, Contents.put_of_some prepared]
  have places :=
    placeHanded_yields layout mirrorSound startHolds fits fun number placement among =>
      by simpa [laidOut] using moved.inOrder among
  rw [← handed] at places
  cases placing : (placeHanded layout file recorded.handed.toList).runOn mirror with
  | mk outcome placed =>
  obtain ⟨rfl, placedSound, placedHolds⟩ := places.runOn placing
  have filled :
      contents placed file =
        some (room.overlaid (placements.map fun placement => placement.visit.page)) := by
    rw [placedHolds, Contents.put_same]
    rfl
  refine ⟨layout, placements, recorded, placed, made, moved, rfl, handed, placing,
    fun key => ?_⟩
  have opens :
      ∀ first (state : Traced σ), Held (contents source) index metapageBlock first →
        state = Traced.fresh source →
          (Storage.read index metapageBlock : StorageM (Traced σ) Page).Yields state
            fun outcome left =>
              outcome = .ok first ∧
                ReadSoFar (contents source) [.read index metapageBlock]
                  (fun placement => .read index placement.pending.block) [] left := by
    rintro first _ fetched rfl
    apply ((read_of_page (Traced.sound_fresh sound) rfl fetched).and (read_traced _ _ _)).weaken
    intro outcome left holds
    rcases holds with ⟨⟨result, leftSound, leftHolds⟩, leftTrace⟩
    exact ⟨result, leftSound, leftHolds, by rw [leftTrace]; rfl⟩
  obtain ⟨path, outcome, within, original, relocated⟩ :=
    lookup_agree moved small faithful opens
      (fetches_original moved (readsAs_readSoFar σ _ [.read index metapageBlock] _ _))
      (fetches_placed moved laidOut filled (readsAs_readSoFar τ _ [] _ _)) key
  obtain ⟨result, -, -, trace⟩ := original _ rfl
  obtain ⟨placedResult, -, -, placedTrace⟩ :=
    relocated (Traced.fresh placed) ⟨Traced.sound_fresh placedSound, rfl, rfl⟩
  refine ⟨path, placedResult.trans result.symm, trace, placedTrace, fun placement member => ?_⟩
  obtain ⟨block, page⟩ := placed_page moved laidOut filled (within member)
  exact ⟨within member, block, (moved.visit_of_mem (within member)).1, page⟩

/-- A root above two leaves that link to each other, relocated into a relation of three blocks. -/
theorem lookup_relocated_linked :
    ((measure 1).runOn linkedStore).1 = .ok ⟨[2], 0⟩ ∧
      InnerItemsApart (contents linkedStore) 1 ∧
      ∃ layout recorded placed,
        Layout.ofProfile ⟨[2], 0⟩ = .ok layout ∧
          (relocate 1 Recording.target).runOn (Recording.start none linkedStore) =
            (.ok (), recorded) ∧
          (placeHanded layout 1 recorded.handed.toList).runOn
              (⟨blockSize, #[#[Page.zero, Page.zero, Page.zero]]⟩ : MemoryStorage) =
            (.ok (), placed) ∧
          ∀ key, ∃ path : List Placement,
            ((lookupPlaced layout 1 key).runOn (Traced.fresh placed)).1 =
                ((lookup 1 key).runOn (Traced.fresh linkedStore)).1 ∧
              ((lookup 1 key).runOn (Traced.fresh linkedStore)).2.trace.toList =
                .read 1 metapageBlock ::
                  path.map (fun placement => .read 1 placement.pending.block) ∧
              ((lookupPlaced layout 1 key).runOn (Traced.fresh placed)).2.trace.toList =
                path.map (fun placement => .read 1 (layout.blockOf placement)) := by
  have sound : Sound linkedStore := rfl
  have apart := innerItemsApart_linkedStore
  have mirrorSound :
      Sound (⟨blockSize, #[#[Page.zero, Page.zero, Page.zero]]⟩ : MemoryStorage) := rfl
  have prepared :
      contents (⟨blockSize, #[#[Page.zero, Page.zero, Page.zero]]⟩ : MemoryStorage) 1 =
        some ⟨[Page.zero, Page.zero, Page.zero], Page.zero⟩ := rfl
  obtain ⟨layout, _, recorded, placed, made, -, relocates, -, places, agrees⟩ :=
    lookup_relocated sound contents_linkedStore (by decide : 4 < blockNumberBound)
      (runOn_eq_of_outcome measure_linkedStore) apart mirrorSound prepared
      (by decide : Profile.size ⟨[2], 0⟩ ≤ 3)
  refine
    ⟨measure_linkedStore, apart, layout, recorded, placed, made, relocates, places, fun key => ?_⟩
  obtain ⟨path, same, trace, placedTrace, -⟩ := agrees key
  exact ⟨path, same, trace, placedTrace⟩

end ObliviousStorage.Index

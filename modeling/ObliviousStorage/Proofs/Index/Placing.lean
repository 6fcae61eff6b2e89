import ObliviousStorage.Handover.Recording
import ObliviousStorage.Proofs.Index.Numbering
import ObliviousStorage.Proofs.Storage.Filling
import ObliviousStorage.Proofs.Storage.Lawful

/-!
Contract: the pages that a relocation hands over, and writing them to the blocks that a
layout gives them.

Owns: `InnerItemsApart`, the indexes whose inner pages can be relocated; what a
recording target has been handed when a relocation succeeds; `placeHanded`, which
writes handed pages to their blocks; and the contents that it leaves.

Does not own: looking keys up among the written pages.
-/

namespace ObliviousStorage.Index

open StorageM StorageView

/-- No two items overlap on any inner page of the index. -/
def InnerItemsApart (held : Contents) (index : RelationId) : Prop :=
  ∀ placements profile,
    WholeTrail (Held held index) .measure placements profile →
      ∀ placement ∈ placements,
        placement.visit.trailer.isLeaf = false → placement.page.ItemsApart

/-- An index has no overlapping items if no formatted page of its relation has. -/
theorem innerItemsApart_of_pages
    {held : Contents}
    {index : RelationId}
    {found : Relation}
    (present : held index = some found)
    (apart :
      ∀ page ∈ found.pages, ∀ trailer,
        Trailer.read page = .ok trailer → trailer.isLeaf = false → page.ItemsApart) :
    InnerItemsApart held index := by
  intro placements profile whole placement member inner
  obtain ⟨fetched, rootLevel, visits⟩ := whole.visit_of_mem member
  obtain ⟨same, at_, among⟩ := Contents.page_eq_ok_iff.mp fetched
  obtain rfl := Option.some.inj (present.symm.trans at_)
  obtain ⟨read, -⟩ := LevelTally.visit_eq_ok_iff.mp visits
  exact apart _ (List.mem_of_getElem? among) _ read inner

/-- What a relocation hands over for a visited page. -/
def Placement.handed (placement : Placement) : Handed :=
  .indexPage placement.visit.page placement.tally.offset placement.pending.depth

/-- A target without a limit keeps every page. -/
theorem keep_yields
    {σ : Type}
    {state : Recording σ}
    (unlimited : state.limit = none)
    (page : Handed) :
    (Recording.keep page : StorageM (Recording σ) Unit).Yields state fun outcome left =>
      outcome = .ok () ∧ left = { state with handed := state.handed.push page } := by
  obtain ⟨inner, handed, limit⟩ := state
  have noLimit : limit = none := unlimited
  subst noLimit
  exact ⟨rfl, rfl⟩

section Relocating

variable {σ : Type} [Storage σ] [LawfulStorage σ]

theorem recording_calls (index : RelationId) (source : σ) :
    WalkCalls index (some Recording.target) (Held (contents source) index) (fun _ => True)
      (fun heads left =>
        Became (Recording.start none source) left (contents source) 0 ∧ left.limit = none ∧
          left.handed.toList = heads.map Placement.handed)
      (fun _ => True) (Sound source) where
  functional := held_functional (contents source) index
  reads heads between block here := by
    obtain ⟨became, unlimited, handed⟩ := here
    have kept :
        (Storage.read index block : StorageM (Recording σ) Page).Yields between
          fun _ left => left.limit = between.limit ∧ left.handed = between.handed := ⟨rfl, rfl⟩
    apply ((read_yields (congrFun became.holds index) block).and kept).weaken
    intro outcome left reads
    rcases reads with ⟨result, sameLimit, sameHanded⟩
    cases outcome with
    | error fault =>
        obtain ⟨-, reason⟩ := result
        exact ⟨trivial, fun sound => reason (became.keepsSound ⟨trivial, sound⟩)⟩
    | ok page =>
        obtain ⟨found, later⟩ := result
        rw [became.holds] at later
        exact ⟨found, became.trans later, sameLimit.trans unlimited, by rw [sameHanded, handed]⟩
  hands heads between placement here := by
    obtain ⟨became, unlimited, handed⟩ := here
    apply (keep_yields unlimited placement.handed).weaken
    intro outcome left holds
    rcases holds with ⟨rfl, rfl⟩
    refine ⟨trivial, ⟨became.holds, became.keepsRoom, became.follows⟩, unlimited, ?_⟩
    simp [handed]
  stops _ _ _ := trivial

/-- Relocating an index that can be measured hands over, in level order, the image of
every page that the measuring walk visits. -/
theorem relocate_recording
    {index : RelationId}
    {source : σ}
    {placements : List Placement}
    {profile : Profile}
    (sound : Sound source)
    (whole : WholeTrail (Held (contents source) index) .relocate placements profile) :
    (relocate index Recording.target).Yields (Recording.start none source) fun outcome left =>
      outcome = .ok () ∧ left.handed.toList = placements.map Placement.handed := by
  have walked := walk_yields (recording_calls index source) (Recording.start none source)
    ⟨.refl _, rfl, rfl⟩
  apply yields_bind walked
  · intro another left holds
    rcases holds with ⟨others, trail, -, -, -, handed⟩
    obtain ⟨rfl, -⟩ := whole.unique (held_functional (contents source) index) trail
    exact ⟨rfl, handed⟩
  · intro fault left refused
    rcases refused with ⟨-, reason⟩
    obtain ⟨placement, -, unfit⟩ := reason sound _ _ whole
    exact absurd trivial unfit

end Relocating

/-! ## Writing handed pages -/

/-- Writes the index pages among the pages handed over, each to the block that the layout
gives to its place. -/
def placeHanded {σ : Type} [Storage σ] (layout : Layout) (file : RelationId) :
    (handed : List Handed) → StorageM σ Unit
  | [] => return ()
  | .indexPage page offset depth :: rest => do
      let block ← layout.blockAt depth offset
      Storage.write file block page
      placeHanded layout file rest
  | .heapPage .. :: rest => placeHanded layout file rest

variable {σ : Type} [Storage σ] [LawfulStorage σ]

/-- Pages handed over in level order fill the first blocks of a relation in order. -/
theorem placeHanded_yields
    (layout : Layout)
    {file : RelationId}
    {held : Contents}
    {room : Relation}
    {images : List Page}
    {placements : List Placement}
    {state : σ}
    (sound : Sound state)
    (holds : contents state = held.put file (room.overlaid images))
    (roomy : images.length + placements.length ≤ room.pages.length)
    (inOrder :
      ∀ (index : Nat) (placement : Placement), placements[index]? = some placement →
        placement.InOrder layout.counts (images.length + index)) :
    (placeHanded layout file (placements.map Placement.handed)).Yields state
      fun outcome left =>
        outcome = .ok () ∧ Sound left ∧
          contents left =
            held.put file
              (room.overlaid (images ++ placements.map fun placement => placement.visit.page)) := by
  induction placements generalizing images state with
  | nil => exact yields_pure ⟨rfl, sound, by simpa using holds⟩
  | cons placement rest inductionHypothesis =>
      have first := inOrder 0 placement rfl
      rw [Nat.add_zero] at first
      have number : (UInt32.ofNat images.length).toNat = images.length := by
        have bound := layout.sum_lt
        exact UInt32.toNat_ofNat_of_lt' (Nat.lt_trans first.number_lt bound)
      have placed := Layout.blockAt_of_inOrder first
      rw [List.length_cons] at roomy
      simp only [List.map_cons, Placement.handed, placeHanded]
      apply yields_lift_bind
      · intro block given
        obtain rfl := Except.ok.inj (placed.symm.trans given)
        refine yields_bind
          (write_overlaid placement.visit.page holds (by omega) number) ?_ ?_
        · intro _ between holds
          rcases holds with ⟨-, became⟩
          refine (inductionHypothesis (became.keepsSound sound) became.holds ?_ ?_).weaken ?_
          · rw [List.length_append, List.length_singleton]
            omega
          · intro index next among
            have later := inOrder (index + 1) next (by simpa using among)
            rwa [List.length_append, List.length_singleton, Nat.add_assoc, Nat.add_comm 1]
          · intro outcome left holds
            rcases holds with ⟨done, leftSound, leftHolds⟩
            exact ⟨done, leftSound, by simpa using leftHolds⟩
        · intro fault between holds
          rcases holds with ⟨-, reason⟩
          have full := reason sound
          omega
      · intro fault refused
        rw [placed] at refused
        exact absurd refused (by simp)

end ObliviousStorage.Index

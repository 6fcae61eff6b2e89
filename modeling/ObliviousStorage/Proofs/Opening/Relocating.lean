import ObliviousStorage.Proofs.Index.Layouts
import ObliviousStorage.Proofs.Index.Lookups
import ObliviousStorage.Proofs.Opening.Creating

/-!
Contract: relocating an index into the index file of a session.

Owns: `Layout.placedOver`, the index file after pages were put to the blocks that a
layout gives them; that this leaves the blocks behind the layout alone, and fills the
first blocks in order when the pages arrive in level order; and that a relocation through
a session does this, or stops at a page without a place.

Does not own: which pages the index visits.
-/

namespace ObliviousStorage

open StorageM StorageView

namespace Index.Layout

/-- The layout has a place for the page. -/
def Fits (layout : Layout) (placement : Placement) : Prop :=
  placement.tally.offset < layout.counts.getD placement.pending.depth 0

def numberOf (layout : Layout) (placement : Placement) : Nat :=
  layout.base placement.pending.depth + placement.tally.offset

theorem numberOf_eq (layout : Layout) (placement : Placement) :
    layout.numberOf placement =
      (layout.counts.take placement.pending.depth).sum + placement.tally.offset := by
  rw [numberOf, base_eq_sum]

/-- A relation with pages put to the blocks that the layout gives them. -/
def placedOver (layout : Layout) (file : Relation) (placements : List Placement) : Relation :=
  placements.foldl
    (fun file placement => file.overwritten (layout.numberOf placement) placement.visit.page) file

section PlacedOver

variable {layout : Layout} {file : Relation} {placements : List Placement}

theorem placedOver_snoc (placement : Placement) :
    layout.placedOver file (placements ++ [placement]) =
      (layout.placedOver file placements).overwritten (layout.numberOf placement)
        placement.visit.page := by
  simp [placedOver]

theorem Fits.numberOf_lt
    {placement : Placement}
    (fits : layout.Fits placement) :
    layout.numberOf placement < layout.counts.sum := by
  rw [numberOf_eq]
  exact number_lt_sum fits

/-- A page that fits has a block, and no other page has one. -/
theorem blockAt_eq_ok_iff
    {placement : Placement}
    {block : BlockNumber} :
    layout.blockAt placement.pending.depth placement.tally.offset = .ok block ↔
      layout.Fits placement ∧ block.toNat = layout.numberOf placement := by
  rw [numberOf_eq]
  exact blockAt_place_iff

@[simp] theorem length_placedOver :
    (layout.placedOver file placements).pages.length = file.pages.length := by
  induction placements generalizing file with
  | nil => rfl
  | cons placement rest inductionHypothesis =>
      exact inductionHypothesis.trans List.length_set

/-- The blocks behind those of the layout stay as they were. -/
theorem getElem?_placedOver
    (fit : ∀ placement ∈ placements, layout.Fits placement)
    {block : Nat}
    (beyond : layout.counts.sum ≤ block) :
    (layout.placedOver file placements).pages[block]? = file.pages[block]? := by
  induction placements generalizing file with
  | nil => rfl
  | cons placement rest inductionHypothesis =>
      have first := (fit placement (by simp)).numberOf_lt
      apply (inductionHypothesis fun other member => fit other (by simp [member])).trans
      have different : layout.numberOf placement ≠ block := by omega
      exact List.getElem?_set_ne different

/-- Pages in level order go to consecutive blocks. -/
theorem placedOver_overlaid
    {images : List Page}
    (inOrder :
      ∀ (index : Nat) (placement : Placement), placements[index]? = some placement →
        placement.InOrder layout.counts (images.length + index))
    (roomy : images.length + placements.length ≤ file.pages.length) :
    layout.placedOver (file.overlaid images) placements =
      file.overlaid (images ++ placements.map fun placement => placement.visit.page) := by
  induction placements generalizing images with
  | nil => simp [placedOver]
  | cons placement rest inductionHypothesis =>
      have first := (inOrder 0 placement rfl).number
      rw [Nat.add_zero] at first
      rw [List.length_cons] at roomy
      have number : layout.numberOf placement = images.length :=
        (layout.numberOf_eq placement).trans first
      have placed :
          layout.placedOver (file.overlaid images) (placement :: rest) =
            layout.placedOver (file.overlaid (images ++ [placement.visit.page])) rest := by
        rw [← Relation.overlaid_snoc _ (by omega), ← number]
        rfl
      rw [placed, inductionHypothesis, List.append_assoc, List.map_cons, List.singleton_append]
      · intro index next among
        have later := inOrder (index + 1) next (by simpa using among)
        rwa [List.length_append, List.length_singleton, Nat.add_assoc, Nat.add_comm 1]
      · rw [List.length_append, List.length_singleton]
        omega

end PlacedOver

end Index.Layout

/-! ## Relocating through a session -/

variable {σ : Type} [Storage σ] [LawfulStorage σ]

section Relocating

variable
  {held : Contents}
  {session : Session}
  {layout : Index.Layout}
  {index : RelationId}
  {found table file : Relation}
  {state : σ}

/-- An index page goes to the block that the layout gives to its place. -/
theorem addIndexPage_yields
    (laidOut : session.layout = some layout)
    (roomy : layout.counts.sum ≤ file.pages.length)
    (holds : contents state = held.withFiles session table file)
    (placement : Index.Placement) :
    ((Gateway.opened session).addIndexPage placement.visit.page placement.tally.offset
        placement.pending.depth).Yields state
      (either
        (fun _ left =>
          layout.Fits placement ∧
            Became state left
              (held.withFiles session table
                (file.overwritten (layout.numberOf placement) placement.visit.page)) 0)
        fun _ left =>
          FilesTouched held session state left ∧ (Sound state → ¬layout.Fits placement)) := by
  have same := Became.refl state
  rw [holds] at same
  have named :
      (Gateway.opened session).relationNamed session.indexFile = .ok session.indexRelation := by
    simp [Gateway.relationNamed, Gateway.roleNamed, Session.roleOf, Gateway.isOpen, Gateway.opened,
      Session.relation, session.names_ne.symm, require, bind, Except.bind, pure, Except.pure]
  rw [Gateway.addIndexPage, Gateway.session_opened, laidOut, named]
  apply yields_lift_bind
  · intro block given
    obtain ⟨fits, number⟩ := Index.Layout.blockAt_eq_ok_iff.mp given
    have inside := fits.numberOf_lt
    have present : contents state session.indexRelation = some file := by
      rw [holds, Contents.withFiles_index]
    apply yields_lift_bind
    · intro relation result
      obtain rfl := Except.ok.inj result
      refine (LawfulStorage.write_law state session.indexRelation block placement.visit.page).mono
        ?_ ?_
      · intro _ left holds
        rcases holds with ⟨other, among, -, became⟩
        obtain rfl := Option.some.inj (present.symm.trans among)
        rw [holds, Contents.put_withFiles_index, number] at became
        exact ⟨fits, became⟩
      · intro fault left refused
        rcases refused with ⟨reason, became⟩
        rw [holds] at became
        refine ⟨⟨_, _, became⟩, fun sound => ?_⟩
        have full := reason sound _ present
        omega
    · intro fault refused
      exact absurd refused (by simp)
  · intro fault refused
    refine ⟨⟨_, _, same⟩, fun _ fits => ?_⟩
    have number : (UInt32.ofNat (layout.numberOf placement)).toNat = layout.numberOf placement :=
      UInt32.toNat_ofNat_of_lt' (Nat.lt_trans fits.numberOf_lt layout.sum_lt)
    have given := Index.Layout.blockAt_eq_ok_iff.mpr ⟨fits, number⟩
    exact absurd (given.symm.trans refused) (by simp)

theorem relocation_calls
    (new : session.NewTo held)
    (laidOut : session.layout = some layout)
    (present : held index = some found)
    (roomy : layout.counts.sum ≤ file.pages.length)
    (table : Relation)
    (state : σ) :
    Index.WalkCalls index (some (Gateway.opened session).target) (Index.Held held index) layout.Fits
      (fun heads left =>
        Became state left (held.withFiles session table (layout.placedOver file heads)) 0)
      (FilesTouched held session state) (Sound state) where
  functional := Index.held_functional held index
  reads heads between block here := by
    have same : contents between index = held index := by
      rw [here.holds, Contents.withFiles_of_some new present, present]
    apply (Index.read_yields same block).mono
    · intro page left holds
      rcases holds with ⟨fetched, became⟩
      rw [here.holds] at became
      exact ⟨fetched, here.trans became⟩
    · intro fault left refused
      rcases refused with ⟨became, reason⟩
      rw [here.holds] at became
      exact ⟨⟨_, _, here.trans became⟩, fun sound => reason (here.keepsSound sound)⟩
  hands heads between placement here := by
    have roomyHere :
        layout.counts.sum ≤ (layout.placedOver file heads).pages.length := by
      simpa
    apply (addIndexPage_yields laidOut roomyHere here.holds placement).mono
    · intro _ left holds
      rcases holds with ⟨fits, became⟩
      rw [← Index.Layout.placedOver_snoc] at became
      exact ⟨fits, here.trans became⟩
    · intro fault left refused
      rcases refused with ⟨⟨_, _, became⟩, reason⟩
      exact ⟨⟨_, _, here.trans became⟩, fun sound => reason (here.keepsSound sound)⟩
  stops heads between here := ⟨_, _, here⟩

/-- Relocating an index puts its pages into the index file. A sound store refuses it only
if the index has no trail or some page of it no place. -/
theorem relocate_yields
    (new : session.NewTo held)
    (laidOut : session.layout = some layout)
    (present : held index = some found)
    (roomy : layout.counts.sum ≤ file.pages.length)
    (holds : contents state = held.withFiles session table file) :
    (Index.relocate index (Gateway.opened session).target).Yields state
      (either
        (fun _ left =>
          ∃ placements profile,
            Index.WholeTrail (Index.Held held index) .relocate placements profile ∧
              (∀ placement ∈ placements, layout.Fits placement) ∧
                Became state left (held.withFiles session table (layout.placedOver file placements))
                  0)
        fun _ left =>
          FilesTouched held session state left ∧
            (Sound state →
              ∀ placements profile,
                Index.WholeTrail (Index.Held held index) .relocate placements profile →
                  ∃ placement ∈ placements, ¬layout.Fits placement)) := by
  have start :
      Became state state (held.withFiles session table (layout.placedOver file [])) 0 := by
    have same := Became.refl state
    rwa [holds] at same
  have walked :=
    Index.walk_yields (relocation_calls new laidOut present roomy table state) state start
  apply yields_bind walked
  · intro profile left holds
    rcases holds with ⟨placements, whole, fit, became⟩
    exact yields_pure ⟨placements, profile, whole, fit, became⟩
  · intro fault left refused
    exact refused

end Relocating

end ObliviousStorage

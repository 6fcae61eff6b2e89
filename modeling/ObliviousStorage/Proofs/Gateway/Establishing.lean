import ObliviousStorage.Gateway.Requests
import ObliviousStorage.Page.Records
import ObliviousStorage.Proofs.Page.Frames
import ObliviousStorage.Proofs.Storage.Filling

/-!
Contract: what establishing a file leaves in the relation behind it.

Owns: writing images to a relation from its first block on, over the blocks that are
there and behind them; the request that does so for the file it names; and that dummy
pages are among the images that the request takes.

Does not own: the images. A request that is refused has changed at most the relation
behind the file.
-/

namespace ObliviousStorage

open StorageM StorageView

namespace Relation

/-- Images that reach past the last block replace all of them. -/
theorem overlaid_of_le
    {relation : Relation}
    {images : List Page}
    (covered : relation.pages.length ≤ images.length) :
    relation.overlaid images = ⟨images, relation.blank⟩ := by
  rw [overlaid, List.drop_eq_nil_of_le covered, List.append_nil]

end Relation

namespace Gateway

section Placing

variable {σ : Type} [Storage σ] [LawfulStorage σ]

/-- At most one relation was changed. -/
def Touched (relation : RelationId) (held : Contents) (state left : σ) : Prop :=
  ∃ changed, Became state left (held.put relation changed) 0

variable
  {held : Contents}
  {relation : RelationId}
  {room : Relation}
  {done : List Page}
  {existing : BlockNumber}
  {state : σ}

/-- Extending a relation to the block behind its last one adds one block. -/
theorem extendTo_next_yields
    {block : BlockNumber}
    (present : contents state relation = some ⟨done, Page.zero⟩)
    (behind : block.toNat = done.length)
    (limit : Nat) :
    (extendTo relation block (limit + 1) : StorageM σ Unit).Yields state
      (either
        (fun _ left =>
          Became state left
            ((contents state).put relation ⟨done ++ [Page.zero], Page.zero⟩) 0)
        fun _ left =>
          Became state left (contents state) 0 ∧
            (Sound state → blockNumberBound ≤ done.length + 1)) := by
  apply yields_bind (LawfulStorage.extend_law state relation)
  · intro added between holds
    rcases holds with ⟨found, among, place, became⟩
    obtain rfl := Option.some.inj (present.symm.trans among)
    have last : ¬added < block := by
      rw [UInt32.lt_iff_toNat_lt, behind, place]
      exact Nat.lt_irrefl _
    rw [if_neg last]
    exact yields_pure became
  · intro fault between holds
    rcases holds with ⟨reason, became⟩
    exact ⟨became, fun sound => reason sound _ present⟩

/-- Placing the image behind those that were placed adds a block if there is none. -/
theorem placeImage_yields
    (image : Page)
    (holds : contents state = held.put relation (room.overlaid done))
    (blank : room.blank = Page.zero)
    (count : existing.toNat = room.pages.length)
    (small : done.length < blockNumberBound) :
    (do
        ensureBlock relation existing (UInt32.ofNat done.length)
        Storage.write relation (UInt32.ofNat done.length) image : StorageM σ Unit).Yields state
      (either
        (fun _ left => Became state left (held.put relation (room.overlaid (done ++ [image]))) 0)
        fun _ left =>
          Touched relation held state left ∧
            (Sound state → blockNumberBound ≤ done.length + 1)) := by
  have number : (UInt32.ofNat done.length).toNat = done.length := UInt32.toNat_ofNat_of_lt' small
  rcases Nat.lt_or_ge done.length room.pages.length with inside | outside
  · have within : ¬existing ≤ UInt32.ofNat done.length := by
      rw [UInt32.le_iff_toNat_le, number, count]
      omega
    rw [ensureBlock, if_neg within]
    apply (write_overlaid image holds (Nat.le_of_lt inside) number).mono
    · intro _ left holds
      rcases holds with ⟨-, became⟩
      exact became
    · intro fault left refused
      rcases refused with ⟨became, reason⟩
      rw [holds] at became
      refine ⟨⟨_, became⟩, fun sound => ?_⟩
      have full := reason sound
      omega
  · have behind : existing ≤ UInt32.ofNat done.length := by
      rw [UInt32.le_iff_toNat_le, number, count]
      exact outside
    have present : contents state relation = some ⟨done, Page.zero⟩ := by
      rw [holds, Contents.put_same, Relation.overlaid_of_le outside, blank]
    rw [ensureBlock, if_pos behind]
    apply yields_bind (extendTo_next_yields present number _)
    · intro _ between became
      have extended :
          contents between relation = some ⟨done ++ [Page.zero], Page.zero⟩ := by
        rw [became.holds, Contents.put_same]
      rw [holds, Contents.put_put] at became
      apply (LawfulStorage.write_law between relation _ image).mono
      · intro _ left holds
        rcases holds with ⟨found, among, -, written⟩
        obtain rfl := Option.some.inj (extended.symm.trans among)
        rw [became.holds, Contents.put_put, number, Relation.overwritten,
          List.set_append_right _ _ (Nat.le_refl _), Nat.sub_self, List.set_cons_zero] at written
        have covered : room.pages.length ≤ (done ++ [image]).length := by
          rw [List.length_append]
          omega
        rw [Relation.overlaid_of_le covered, blank]
        exact became.trans written
      · intro fault left refused
        rcases refused with ⟨reason, written⟩
        rw [became.holds] at written
        refine ⟨⟨_, became.trans written⟩, fun sound => ?_⟩
        have full := reason (became.keepsSound sound) _ extended
        rw [number, List.length_append, List.length_singleton] at full
        omega
    · intro fault between holds
      rcases holds with ⟨became, reason⟩
      rw [holds] at became
      exact ⟨⟨_, became⟩, reason⟩

/-- Placing images fills the relation from its first block on. -/
theorem placeImages_yields
    (images : List Page)
    (holds : contents state = held.put relation (room.overlaid done))
    (blank : room.blank = Page.zero)
    (count : existing.toNat = room.pages.length)
    (small : done.length + images.length < blockNumberBound) :
    (placeImages relation existing done.length images : StorageM σ Unit).Yields state
      (either
        (fun _ left => Became state left (held.put relation (room.overlaid (done ++ images))) 0)
        fun _ left => Touched relation held state left ∧ ¬Sound state) := by
  induction images generalizing done state with
  | nil =>
      have same := Became.refl state
      rw [holds] at same
      exact yields_pure (by rwa [List.append_nil])
  | cons image rest inductionHypothesis =>
      rw [List.length_cons] at small
      have assoc :
          (placeImages relation existing done.length (image :: rest) : StorageM σ Unit) =
            (do
              ensureBlock relation existing (UInt32.ofNat done.length)
              Storage.write relation (UInt32.ofNat done.length) image) >>= fun _ =>
                placeImages relation existing (done.length + 1) rest := by
        simp [placeImages]
      rw [assoc]
      apply yields_bind (placeImage_yields image holds blank count (by omega))
      · intro _ between became
        have length : (done ++ [image]).length = done.length + 1 := by simp
        have later := inductionHypothesis became.holds (by rw [length]; omega)
        rw [length] at later
        apply later.mono
        · intro _ left next
          rw [List.append_assoc, List.singleton_append] at next
          exact became.trans next
        · intro fault left refused
          rcases refused with ⟨⟨changed, next⟩, unsound⟩
          exact ⟨⟨changed, became.trans next⟩, fun sound => unsound (became.keepsSound sound)⟩
      · intro fault left refused
        rcases refused with ⟨touched, reason⟩
        refine ⟨touched, fun sound => ?_⟩
        have full := reason sound
        omega

theorem requirePageSized_yields (state : σ) :
    (requirePageSized : StorageM σ Unit).Yields state
      (either (fun _ left => left = state) fun _ left => left = state ∧ ¬Sound state) := by
  refine yields_get_bind (yields_lift ?_)
  by_cases pageSized : Storage.blockBytes state = blockSize
  · rw [require, if_pos pageSized]
    rfl
  · rw [require, if_neg pageSized]
    exact ⟨rfl, fun sound => pageSized (LawfulStorage.blockBytes_of_sound sound)⟩

end Placing

/-! ## Images that are taken -/

/-- What the request asks of an image. -/
def Acceptable (image : Page) : Prop := image.isUnformatted = true ∨ image.WellFormed

theorem wellFormed_forRecords (block : BlockNumber) : (Page.forRecords block).WellFormed := by
  have inside : blockSize - Page.aligned Page.identitySize ≤ blockSize := Nat.sub_le _ _
  obtain ⟨lower, upper, special⟩ := Page.pointers_formatted inside
  have formatted :
      (Page.formatted (blockSize - Page.aligned Page.identitySize)).WellFormed := by
    rw [Page.WellFormed, lower, upper, special]
    decide
  -- The identity is kept behind the header.
  have header :
      Page.AgreesOn (Page.forRecords block)
        (Page.formatted (blockSize - Page.aligned Page.identitySize)) 0 Page.headerSize :=
    Page.agreesOn_write _ (Or.inl (by decide))
  exact (Page.wellFormed_congr header).mpr formatted

theorem acceptable_forRecords (block : BlockNumber) : Acceptable (Page.forRecords block) :=
  Or.inr (wellFormed_forRecords block)

theorem acceptable_of_mem_dummies
    {count : Nat}
    {image : Page}
    (member : image ∈ Page.dummies count) :
    Acceptable image := by
  rw [List.eq_of_mem_replicate member]
  exact acceptable_forRecords dummyIdentity

/-! ## Requests -/

theorem requireWellFormed_eq_ok
    {images : List Page}
    (acceptable : ∀ image ∈ images, Acceptable image)
    (block : Nat) :
    requireWellFormed block images = .ok () := by
  induction images generalizing block with
  | nil => rfl
  | cons image rest inductionHypothesis =>
      have first : image.isUnformatted = true ∨ image.WellFormed := acceptable image (by simp)
      rw [requireWellFormed, require, if_pos first]
      exact inductionHypothesis (fun other member => acceptable other (by simp [member])) _

/-- Opening a file changes nothing but whether it is open. -/
theorem reopen_yields
    {σ : Type}
    {gateway : Gateway}
    {state : σ}
    {name : String}
    {role : FileRole}
    (named : gateway.session.roleOf name = some role) :
    (reopen name : StorageM (Gateway × σ) RelationId).Yields (gateway, state)
      fun outcome left =>
        outcome = .ok (gateway.session.relation role) ∧
          left = (gateway.setOpen role true, state) := by
  refine yields_get_bind (yields_lift_bind ?_ ?_)
  · intro found result
    rw [roleNamed, named] at result
    obtain rfl := Except.ok.inj result
    exact ⟨rfl, rfl⟩
  · intro fault refused
    rw [roleNamed, named] at refused
    exact absurd refused (by simp)

variable {σ : Type} [Storage σ] [LawfulStorage σ]

/-- Establishing a file from its first block on fills the relation behind it. A sound
store does not refuse it. -/
theorem establishImages_yields
    {gateway : Gateway}
    {state : σ}
    {name : String}
    {role : FileRole}
    {room : Relation}
    {images : List Page}
    (named : gateway.session.roleOf name = some role)
    (present : contents state (gateway.session.relation role) = some room)
    (blank : room.blank = Page.zero)
    (acceptable : ∀ image ∈ images, Acceptable image)
    (roomy : room.pages.length < blockNumberBound)
    (small : images.length < blockNumberBound) :
    (establishImages name images 0 : StorageM (Gateway × σ) Unit).Yields (gateway, state)
      (either
        (fun _ left =>
          left.1 = gateway.setOpen role true ∧
            Became state left.2
              ((contents state).put (gateway.session.relation role) (room.overlaid images)) 0)
        fun _ left =>
          Touched (gateway.session.relation role) (contents state) state left.2 ∧
            ¬Sound state) := by
  have untouched :
      ∀ left : σ, Became state left (contents state) 0 →
        Touched (gateway.session.relation role) (contents state) state left := by
    intro left became
    exact ⟨room, by rwa [Contents.put_of_some present]⟩
  apply yields_onSecond_bind (requirePageSized_yields state)
  · intro _ between same
    subst between
    apply yields_bind (reopen_yields named)
    · intro relation _ holds
      rcases holds with ⟨result, rfl⟩
      obtain rfl := Except.ok.inj result
      apply yields_lift_bind
      · intro _ _
        apply yields_lift_bind
        · intro _ _
          refine yields_onSecond_bind
            (LawfulStorage.count_law _ (gateway.session.relation role)) ?_ ?_
          · intro existing between holds
            rcases holds with ⟨counted, became⟩
            obtain ⟨found, among, length⟩ := Contents.count_eq_ok_iff.mp counted
            obtain rfl := Option.some.inj (present.symm.trans among)
            have holds :
                contents between =
                  (contents state).put (gateway.session.relation role) (room.overlaid []) := by
              rw [became.holds, Relation.overlaid_nil, Contents.put_of_some present]
            have fits : ([] : List Page).length + images.length < blockNumberBound := by
              rwa [List.length_nil, Nat.zero_add]
            have places := placeImages_yields images holds blank length.symm fits
            refine yields_onSecond (places.weaken fun outcome left placed => ?_)
            cases outcome with
            | ok done => exact ⟨rfl, became.trans placed⟩
            | error fault =>
                obtain ⟨⟨changed, later⟩, unsound⟩ := placed
                exact
                  ⟨⟨changed, became.trans later⟩, fun sound => unsound (became.keepsSound sound)⟩
          · intro fault between holds
            rcases holds with ⟨reason, became⟩
            refine ⟨untouched _ became, fun sound => ?_⟩
            have counted : (contents state).count (gateway.session.relation role) =
                .ok (UInt32.ofNat room.pages.length) :=
              Contents.count_eq_ok_iff.mpr
                ⟨room, present, (UInt32.toNat_ofNat_of_lt' roomy).symm⟩
            exact absurd (counted.symm.trans (reason sound)) (by simp)
        · intro fault refused
          exact absurd ((requireWellFormed_eq_ok acceptable _).symm.trans refused) (by simp)
      · intro fault refused
        have fits : (0 : BlockNumber).toNat + images.length < blockNumberBound := by
          rw [UInt32.toNat_zero, Nat.zero_add]
          exact small
        rw [require, if_pos fits] at refused
        exact absurd refused (by simp)
    · intro fault _ holds
      rcases holds with ⟨result, -⟩
      exact absurd result (by simp)
  · intro fault between holds
    rcases holds with ⟨same, unsound⟩
    subst between
    exact ⟨untouched _ (.refl _), unsound⟩

end Gateway

end ObliviousStorage

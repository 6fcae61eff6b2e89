import ObliviousStorage.Proofs.Opening.Creating

/-!
Contract: copying a heap into the table file of a session.

Owns: `Heap.stampedFrom`, the pages of a heap as they are copied; and that a copy fills
the first blocks of the table file with them, or stops at a page that cannot be copied.

Does not own: the index file, which a copy leaves alone.
-/

namespace ObliviousStorage

open StorageM StorageView

namespace Heap

/-- The pages of a heap from `block` on, each stamped with the number of its block. -/
def stampedFrom : (block : Nat) → (pages : List Page) → Except Fault (List Page)
  | _, [] => .ok []
  | block, page :: rest => do
      let first ← stamped page (UInt32.ofNat block)
      let others ← stampedFrom (block + 1) rest
      return first :: others

theorem stampedFrom_cons_eq_ok_iff
    {block : Nat}
    {page : Page}
    {rest images : List Page} :
    stampedFrom block (page :: rest) = .ok images ↔
      ∃ first others,
        stamped page (UInt32.ofNat block) = .ok first ∧
          stampedFrom (block + 1) rest = .ok others ∧ images = first :: others := by
  simp only [stampedFrom, bind_eq_ok_iff, pure, Except.pure, Except.ok.injEq]
  constructor
  · intro holds
    rcases holds with ⟨first, stamps, others, continues, same⟩
    exact ⟨first, others, stamps, continues, same.symm⟩
  · intro holds
    rcases holds with ⟨first, others, stamps, continues, same⟩
    exact ⟨first, stamps, others, continues, same.symm⟩

/-- A page is copied as it is if it was never formatted, and stamped if it is well
formed. -/
theorem stamped_eq_ok_iff
    {page image : Page}
    {block : BlockNumber} :
    stamped page block = .ok image ↔
      page.isUnformatted = true ∧ image = page ∨
        page.isUnformatted = false ∧ page.WellFormed ∧ image = page.setTag block := by
  unfold stamped
  cases unformatted : page.isUnformatted with
  | true => simp [eq_comm]
  | false =>
      simp only [Bool.false_eq_true, ↓reduceIte, bind_eq_ok_iff, pure, Except.pure,
        Except.ok.injEq, false_and, true_and, false_or]
      constructor
      · intro holds
        rcases holds with ⟨_, verified, same⟩
        exact ⟨(Page.verify_eq_ok_iff page).mp verified, same.symm⟩
      · intro holds
        rcases holds with ⟨wellFormed, same⟩
        exact ⟨(), (Page.verify_eq_ok_iff page).mpr wellFormed, same.symm⟩

theorem length_stampedFrom
    {block : Nat}
    {pages images : List Page}
    (stamps : stampedFrom block pages = .ok images) :
    images.length = pages.length := by
  induction pages generalizing block images with
  | nil =>
      obtain rfl := Except.ok.inj stamps
      rfl
  | cons page rest inductionHypothesis =>
      obtain ⟨first, others, -, continues, rfl⟩ := stampedFrom_cons_eq_ok_iff.mp stamps
      rw [List.length_cons, List.length_cons, inductionHypothesis continues]

/-- Every page is copied with the stamp of its own block. -/
theorem getElem?_stampedFrom
    {block : Nat}
    {pages images : List Page}
    (stamps : stampedFrom block pages = .ok images)
    {index : Nat}
    {page : Page}
    (among : pages[index]? = some page) :
    ∃ image,
      images[index]? = some image ∧ stamped page (UInt32.ofNat (block + index)) = .ok image := by
  induction pages generalizing block images index with
  | nil => simp at among
  | cons head rest inductionHypothesis =>
      obtain ⟨first, others, stampsHead, continues, rfl⟩ := stampedFrom_cons_eq_ok_iff.mp stamps
      cases index with
      | zero =>
          obtain rfl : head = page := by simpa using among
          exact ⟨first, rfl, stampsHead⟩
      | succ index =>
          obtain ⟨image, found, stampsPage⟩ := inductionHypothesis continues (by simpa using among)
          refine ⟨image, by simpa using found, ?_⟩
          rwa [Nat.add_assoc, Nat.add_comm 1] at stampsPage

/-- A heap can be copied if each of its pages was never formatted or is well formed. -/
theorem exists_stampedFrom
    {pages : List Page}
    (acceptable : ∀ page ∈ pages, Gateway.Acceptable page)
    (block : Nat) :
    ∃ images, stampedFrom block pages = .ok images := by
  induction pages generalizing block with
  | nil => exact ⟨[], rfl⟩
  | cons page rest inductionHypothesis =>
      obtain ⟨others, continues⟩ :=
        inductionHypothesis (fun other member => acceptable other (by simp [member])) (block + 1)
      have stamps : ∃ first, stamped page (UInt32.ofNat block) = .ok first := by
        rcases acceptable page (by simp) with unformatted | wellFormed
        · exact ⟨page, stamped_eq_ok_iff.mpr (Or.inl ⟨unformatted, rfl⟩)⟩
        · cases unformatted : page.isUnformatted with
          | true => exact ⟨page, stamped_eq_ok_iff.mpr (Or.inl ⟨unformatted, rfl⟩)⟩
          | false => exact ⟨_, stamped_eq_ok_iff.mpr (Or.inr ⟨unformatted, wellFormed, rfl⟩)⟩
      obtain ⟨first, stampsPage⟩ := stamps
      exact ⟨first :: others, stampedFrom_cons_eq_ok_iff.mpr
        ⟨first, others, stampsPage, continues, rfl⟩⟩

end Heap

variable {σ : Type} [Storage σ] [LawfulStorage σ]

section Copying

variable
  {held : Contents}
  {session : Session}
  {heap : RelationId}
  {found room index : Relation}
  {images : List Page}
  {state : σ}

/-- A heap page goes to its block of the table file. -/
theorem addHeapPage_yields
    (new : session.NewTo held)
    (holds : contents state = held.withFiles session (room.overlaid images) index)
    (inside : images.length < room.pages.length)
    (small : room.pages.length < blockNumberBound)
    (page : Page) :
    ((Gateway.opened session).addHeapPage page (UInt32.ofNat images.length)).Yields state
      (either
        (fun _ left =>
          Became state left (held.withFiles session (room.overlaid (images ++ [page])) index) 0)
        fun _ left => FilesTouched held session state left ∧ ¬Sound state) := by
  have number : (UInt32.ofNat images.length).toNat = images.length :=
    UInt32.toNat_ofNat_of_lt' (Nat.lt_trans inside small)
  have byTable :
      contents state =
        (held.put session.indexRelation index).put session.tableRelation
          (room.overlaid images) := by
    rw [holds, Contents.withFiles, Contents.put_comm _ _ _ new.distinct]
  have named :
      (Gateway.opened session).relationNamed session.tableFile = .ok session.tableRelation := by
    simp [Gateway.relationNamed, Gateway.roleNamed, Session.roleOf, Gateway.isOpen, Gateway.opened,
      Session.relation, require, bind, Except.bind, pure, Except.pure]
  apply yields_lift_bind
  · intro relation result
    obtain rfl := Except.ok.inj (named.symm.trans result)
    apply (write_overlaid page byTable (Nat.le_of_lt inside) number).mono
    · intro _ left holds
      rcases holds with ⟨-, became⟩
      rwa [← Contents.put_comm _ _ _ new.distinct] at became
    · intro fault left refused
      rcases refused with ⟨became, reason⟩
      rw [holds] at became
      refine ⟨⟨_, _, became⟩, fun sound => ?_⟩
      have full := reason sound
      omega
  · intro fault refused
    exact absurd (named.symm.trans refused) (by simp)

/-- Copying the blocks behind those that were copied. -/
theorem copyBlocks_yields
    (new : session.NewTo held)
    (present : held heap = some found)
    (roomy : found.pages.length ≤ room.pages.length)
    (small : room.pages.length < blockNumberBound)
    (count : Nat)
    (whole : images.length + count = found.pages.length)
    (holds : contents state = held.withFiles session (room.overlaid images) index) :
    (Heap.copyBlocks heap (Gateway.opened session).target
        ((List.range' images.length count).map UInt32.ofNat)).Yields state
      (either
        (fun _ left =>
          ∃ more,
            Heap.stampedFrom images.length (found.pages.drop images.length) = .ok more ∧
              Became state left
                (held.withFiles session (room.overlaid (images ++ more)) index) 0)
        fun _ left =>
          FilesTouched held session state left ∧
            (Sound state →
              ∀ more,
                Heap.stampedFrom images.length (found.pages.drop images.length) ≠ .ok more)) := by
  induction count generalizing images state with
  | zero =>
      have same := Became.refl state
      rw [holds] at same
      have none : found.pages.drop images.length = [] :=
        List.drop_eq_nil_of_le (Nat.le_of_eq whole.symm)
      exact yields_pure ⟨[], by rw [none]; rfl, by rwa [List.append_nil]⟩
  | succ count inductionHypothesis =>
      have inside : images.length < found.pages.length := by omega
      have number : (UInt32.ofNat images.length).toNat = images.length :=
        UInt32.toNat_ofNat_of_lt' (Nat.lt_trans (Nat.lt_of_lt_of_le inside roomy) small)
      have fromHere :
          found.pages.drop images.length =
            found.pages[images.length] :: found.pages.drop (images.length + 1) :=
        List.drop_eq_getElem_cons inside
      have pageHere :
          (held.withFiles session (room.overlaid images) index).page heap
              (UInt32.ofNat images.length) =
            .ok found.pages[images.length] :=
        Contents.page_of_some (Contents.withFiles_of_some new present)
          (by rw [number, List.getElem?_eq_getElem inside])
      rw [List.range'_succ, List.map_cons, Heap.copyBlocks, fromHere]
      apply yields_bind (read_known holds pageHere)
      · rintro page afterRead ⟨rfl, read⟩
        apply yields_lift_bind
        · intro image stamps
          refine yields_bind
            (addHeapPage_yields new read.holds (by omega) small image) ?_ ?_
          · intro _ afterWrite written
            have reached := read.trans written
            have length : (images ++ [image]).length = images.length + 1 := by simp
            have later := inductionHypothesis (by rw [length]; omega) reached.holds
            rw [length] at later
            apply later.mono
            · intro _ left holds
              rcases holds with ⟨more, continues, became⟩
              refine ⟨image :: more,
                Heap.stampedFrom_cons_eq_ok_iff.mpr ⟨image, more, stamps, continues, rfl⟩, ?_⟩
              rw [List.append_assoc, List.singleton_append] at became
              exact reached.trans became
            · intro fault left refused
              rcases refused with ⟨⟨_, _, became⟩, reason⟩
              refine ⟨⟨_, _, reached.trans became⟩, fun sound others all => ?_⟩
              obtain ⟨_, more, -, continues, -⟩ := Heap.stampedFrom_cons_eq_ok_iff.mp all
              exact reason (reached.keepsSound sound) more continues
          · intro fault left refused
            rcases refused with ⟨⟨_, _, became⟩, unsound⟩
            exact
              ⟨⟨_, _, read.trans became⟩, fun sound => absurd (read.keepsSound sound) unsound⟩
        · intro fault refused
          refine ⟨⟨_, _, read⟩, fun _ others all => ?_⟩
          obtain ⟨first, _, stamps, -⟩ := Heap.stampedFrom_cons_eq_ok_iff.mp all
          exact absurd (refused.symm.trans stamps) (by simp)
      · intro fault left refused
        rcases refused with ⟨read, unsound⟩
        exact ⟨⟨_, _, read⟩, fun sound => absurd sound unsound⟩

/-- Copying a heap fills the first blocks of the table file with its stamped pages. A
sound store refuses it only if some page cannot be stamped. -/
theorem copy_yields
    (new : session.NewTo held)
    (present : held heap = some found)
    (roomy : found.pages.length ≤ room.pages.length)
    (small : room.pages.length < blockNumberBound)
    (holds : contents state = held.withFiles session room index) :
    (Heap.copy heap (Gateway.opened session).target).Yields state
      (either
        (fun _ left =>
          ∃ images,
            Heap.stampedFrom 0 found.pages = .ok images ∧
              Became state left (held.withFiles session (room.overlaid images) index) 0)
        fun _ left =>
          FilesTouched held session state left ∧
            (Sound state → ∀ images, Heap.stampedFrom 0 found.pages ≠ .ok images)) := by
  have presentHere : contents state heap = some found := by
    rw [holds, Contents.withFiles_of_some new present]
  apply yields_bind (LawfulStorage.count_law state heap)
  · intro count between holds
    rcases holds with ⟨counted, became⟩
    obtain ⟨other, among, length⟩ := Contents.count_eq_ok_iff.mp counted
    obtain rfl := Option.some.inj (presentHere.symm.trans among)
    rw [holds, ← room.overlaid_nil] at became
    have copies := copyBlocks_yields new present roomy small count.toNat
      (by rw [List.length_nil, Nat.zero_add, length]) became.holds
    have range : blockRange count = (List.range' 0 count.toNat).map UInt32.ofNat := by
      rw [blockRange, List.range_eq_range']
    rw [range]
    apply yields_bind copies
    · intro _ left holds
      rcases holds with ⟨images, stamps, later⟩
      exact yields_pure ⟨images, stamps, became.trans later⟩
    · intro fault left refused
      rcases refused with ⟨⟨_, _, later⟩, reason⟩
      exact
        ⟨⟨_, _, became.trans later⟩, fun sound => reason (became.keepsSound sound)⟩
  · intro fault left refused
    rcases refused with ⟨reason, became⟩
    rw [holds] at became
    refine ⟨⟨_, _, became⟩, fun sound => ?_⟩
    have counted : (contents state).count heap = .ok (UInt32.ofNat found.pages.length) :=
      Contents.count_eq_ok_iff.mpr
        ⟨found, presentHere, (UInt32.toNat_ofNat_of_lt' (Nat.lt_of_le_of_lt roomy small)).symm⟩
    exact absurd (counted.symm.trans (reason sound)) (by simp)

end Copying

end ObliviousStorage

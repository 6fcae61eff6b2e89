import ObliviousStorage.Gateway.Requests
import ObliviousStorage.Proofs.Gateway.Journals
import ObliviousStorage.Proofs.Page.Buffers
import ObliviousStorage.Proofs.Storage.Accepted
import ObliviousStorage.Proofs.Storage.Precise

/-!
Contract: the transfers of requests in terms of the journal of a file.

Owns: for writing blocks in order and reading blocks in order on a store that refuses nothing
without reason: the outcome, and the file that is left; for adding blocks up to one that is needed
and placing images from a block on: the file that is left, also if the store refuses a call
halfway, and that a store which refuses nothing without reason does not.

Does not own: the checks that a request has to pass first.
-/

namespace ObliviousStorage

open StorageM StorageView

variable
  {σ : Type}
  [Storage σ]
  [LawfulStorage σ]
  {state : σ}
  {relation : RelationId}
  {journal : Journal}

theorem write_inside
    {block : BlockNumber}
    (sound : Sound state)
    (present : contents state relation = some journal.relation)
    (has : block.toNat < journal.length)
    (page : Page) :
    (Storage.write relation block page : StorageM σ Unit).Yields state fun outcome left =>
      outcome = .ok () ∧ Sound left ∧
        contents left =
          (contents state).put relation (journal.record block.toNat page has).relation := by
  rw [Journal.relation_record]
  exact write_of_sound sound rfl present (by rwa [Journal.length_relation]) page

theorem write_outside
    [PreciseStorage σ]
    {block : BlockNumber}
    (sound : Sound state)
    (present : contents state relation = some journal.relation)
    (lacks : journal.length ≤ block.toNat)
    (page : Page) :
    (Storage.write relation block page : StorageM σ Unit).Yields state fun outcome left =>
      outcome = .error (.blockOutOfBounds relation block) ∧ Sound left ∧
        contents left = contents state := by
  apply ((LawfulStorage.write_law state relation block page).and
    (PreciseStorage.write_reported state relation block page)).weaken
  rintro outcome left ⟨written, reported⟩
  cases outcome with
  | ok done =>
      obtain ⟨found, among, inside, -⟩ := written
      obtain rfl := Option.some.inj (present.symm.trans among)
      rw [Journal.length_relation] at inside
      exact absurd inside (Nat.not_lt_of_le lacks)
  | error fault =>
      have reason := reported sound
      rw [Journal.page_eq present, Journal.outcome_cons_of_lacks lacks] at reason
      rw [← Except.error.inj reason]
      exact ⟨rfl, written.2.keepsSound sound, written.2.holds⟩

theorem writeImages_transfers
    [PreciseStorage σ]
    {blocks : List BlockNumber}
    {images : List Page}
    (sound : Sound state)
    (present : contents state relation = some journal.relation)
    (together : blocks.length = images.length) :
    (Gateway.writeImages relation blocks images : StorageM σ Unit).Yields state
      fun outcome left =>
        outcome = journal.outcome relation blocks () ∧ Sound left ∧
          contents left =
            (contents state).put relation (journal.transfer (deposits blocks images)).relation := by
  induction blocks generalizing images journal state with
  | nil =>
      exact yields_pure ⟨rfl, sound, (Contents.put_of_some present).symm⟩
  | cons block blocks inductionHypothesis =>
      cases images with
      | nil => exact absurd together (by simp)
      | cons image images =>
          rcases Nat.lt_or_ge block.toNat journal.length with has | lacks
          · refine yields_bind_value (write_inside sound present has image) ?_
            rintro between ⟨soundBetween, holds⟩
            have presentBetween :
                contents between relation =
                  some (journal.record block.toNat image has).relation := by
              rw [holds, Contents.put_same]
            apply (inductionHypothesis soundBetween presentBetween (by simpa using together)).weaken
            rintro outcome left ⟨result, soundLeft, later⟩
            refine ⟨?_, soundLeft, ?_⟩
            · rw [result, Journal.outcome_cons_of_has has]
              rfl
            · rw [later, holds, Contents.put_put, deposits_cons, Journal.transfer_cons_of_has has]
          · apply yields_bind_stop
            apply (write_outside sound present lacks image).weaken
            rintro outcome left ⟨result, soundLeft, same⟩
            refine ⟨result, (Journal.outcome_cons_of_lacks lacks).symm, soundLeft, ?_⟩
            rw [same, deposits_cons, Journal.transfer_cons_of_lacks lacks,
              Contents.put_of_some present]

/-- Reading blocks in order puts their images at consecutive places of the buffer. -/
theorem copyBlocks_copies
    {blocks : List BlockNumber}
    {place : Nat}
    {buffer : Buffer}
    (sound : Sound state)
    (present : contents state relation = some journal.relation)
    (fits : (place + blocks.length) * blockSize ≤ buffer.size) :
    (Gateway.copyBlocks relation place blocks : StorageM (Buffer × σ) Unit).Yields (buffer, state)
      fun outcome left =>
        outcome = journal.outcome relation blocks () ∧ Sound left.2 ∧
          contents left.2 = contents state ∧ left.1.size = buffer.size ∧
            (∀ earlier, earlier < place →
              Page.atPosition left.1 (earlier * blockSize) =
                Page.atPosition buffer (earlier * blockSize)) ∧
              (outcome = .ok () → ∀ index block, blocks[index]? = some block →
                Page.atPosition left.1 ((place + index) * blockSize) =
                  journal.block block.toNat) := by
  induction blocks generalizing place buffer state with
  | nil =>
      exact yields_pure ⟨rfl, sound, rfl, rfl, fun _ _ => rfl, fun _ _ _ among => by simp at among⟩
  | cons block blocks inductionHypothesis =>
      rw [List.length_cons] at fits
      have reads := read_answers sound relation block
      rw [Journal.page_eq present] at reads
      rcases Nat.lt_or_ge block.toNat journal.length with has | lacks
      · rw [Journal.outcome_cons_of_has has, Journal.outcome_nil] at reads
        refine yields_onSecond_bind reads ?_ fun _ _ holds => absurd holds.1 (by simp)
        rintro page between ⟨same, soundBetween, holds⟩
        obtain rfl := Except.ok.inj same
        have presentBetween : contents between relation = some journal.relation := by
          rw [holds, present]
        have here : place * blockSize + blockSize ≤ buffer.size :=
          Page.block_fits (Nat.lt_add_of_pos_right (Nat.succ_pos _)) fits
        have later :
            (place + 1 + blocks.length) * blockSize ≤
              (Buffer.replaced buffer (place * blockSize)
                (journal.block block.toNat).toBuffer).size := by
          rw [Buffer.size_replaced, Nat.add_right_comm, Nat.add_assoc]
          exact fits
        refine yields_modify_bind
          ((inductionHypothesis soundBetween presentBetween later).weaken ?_)
        rintro outcome left ⟨result, soundLeft, unchanged, size, before, images⟩
        refine ⟨?_, soundLeft, unchanged.trans holds, ?_, ?_, ?_⟩
        · rw [result, Journal.outcome_cons_of_has has]
        · rw [size, Buffer.size_replaced]
        · intro earlier isEarlier
          rw [before earlier (by omega),
            Page.atBlock_replaced_of_ne _ _ (Nat.ne_of_lt isEarlier)]
        · intro done index other among
          cases index with
          | zero =>
              obtain rfl : block = other := by simpa using among
              rw [Nat.add_zero, before place (Nat.lt_succ_self _),
                Page.atPosition_replaced _ here]
          | succ index =>
              rw [← Nat.succ_add_eq_add_succ]
              exact images done index other (by simpa using among)
      · rw [Journal.outcome_cons_of_lacks lacks] at reads
        refine yields_onSecond_bind reads (fun _ _ holds => absurd holds.1 (by simp)) ?_
        rintro fault between ⟨same, soundBetween, holds⟩
        refine ⟨?_, soundBetween, holds, rfl, fun _ _ => rfl, fun done => absurd done (by simp)⟩
        rw [Journal.outcome_cons_of_lacks lacks, Except.error.inj same]

/-- Adding blocks up to one that the file lacks adds all of them, or those before the first one that
the store refuses to add. -/
theorem extendTo_extends
    {block : BlockNumber}
    {limit : Nat}
    (present : contents state relation = some journal.relation)
    (lacks : journal.length ≤ block.toNat)
    (enough : block.toNat < journal.length + limit) :
    (Gateway.extendTo relation block limit : StorageM σ Unit).Yields state
      (either
        (fun _ left =>
          Became state left
            ((contents state).put relation (journal.growTo (block.toNat + 1)).relation) 0)
        fun _ left =>
          (Sound state → blockNumberBound ≤ block.toNat + 1) ∧
            ∃ length, journal.length ≤ length ∧ length ≤ block.toNat ∧
              Became state left
                ((contents state).put relation (journal.growTo length).relation) 0) := by
  induction limit generalizing journal state with
  | zero => exact absurd enough (Nat.not_lt_of_le lacks)
  | succ limit inductionHypothesis =>
      apply yields_bind (LawfulStorage.extend_law state relation)
      · intro added between holds
        rcases holds with ⟨found, among, number, became⟩
        obtain rfl := Option.some.inj (present.symm.trans among)
        rw [Journal.length_relation] at number
        rw [← Journal.relation_growTo_succ] at became
        have length : (journal.growTo (journal.length + 1)).length = journal.length + 1 :=
          Nat.max_eq_right (Nat.le_succ _)
        split
        · next more =>
            rw [UInt32.lt_iff_toNat_lt, number] at more
            have presentBetween :
                contents between relation =
                  some (journal.growTo (journal.length + 1)).relation := by
              rw [became.holds, Contents.put_same]
            apply (inductionHypothesis presentBetween (by omega) (by omega)).mono
            · intro _ left later
              rw [became.holds, Contents.put_put, Journal.growTo_growTo _ (by omega)] at later
              exact became.trans later
            · intro fault left holds
              rcases holds with ⟨reason, reached, above, below, later⟩
              rw [length] at above
              rw [became.holds, Contents.put_put, Journal.growTo_growTo _ above] at later
              exact
                ⟨fun sound => reason (became.keepsSound sound), reached, by omega, below,
                  became.trans later⟩
        · next reached =>
            rw [UInt32.lt_iff_toNat_lt, number] at reached
            have same : block.toNat = journal.length := by omega
            exact yields_pure (by rwa [same])
      · intro fault between holds
        rcases holds with ⟨reason, became⟩
        refine ⟨fun sound => ?_, journal.length, Nat.le_refl _, lacks, ?_⟩
        · have full := reason sound _ present
          rw [Journal.length_relation] at full
          omega
        · rwa [Journal.growTo_of_le _ (Nat.le_refl _), Contents.put_of_some present]

/-- Making sure of a block adds what the file lacks up to it. The file has all the blocks
that it had when they were counted, and none behind this one if there was none then. -/
theorem ensureBlock_extends
    {existing block : BlockNumber}
    (present : contents state relation = some journal.relation)
    (counted : existing.toNat ≤ journal.length)
    (filled : journal.length ≤ max existing.toNat block.toNat) :
    (Gateway.ensureBlock relation existing block : StorageM σ Unit).Yields state
      (either
        (fun _ left =>
          Became state left
            ((contents state).put relation (journal.growTo (block.toNat + 1)).relation) 0)
        fun _ left =>
          (Sound state → blockNumberBound ≤ block.toNat + 1) ∧
            ∃ length, journal.length ≤ length ∧ length ≤ block.toNat ∧
              Became state left
                ((contents state).put relation (journal.growTo length).relation) 0) := by
  rw [Gateway.ensureBlock]
  split
  · next behind =>
      rw [UInt32.le_iff_toNat_le] at behind
      exact extendTo_extends present (by omega) (by omega)
  · next within =>
      rw [UInt32.le_iff_toNat_le] at within
      have same := Became.refl state
      refine yields_pure ?_
      rwa [either_ok, Journal.growTo_of_le _ (by omega), Contents.put_of_some present]

/-- Placing images places all of them, or those before the first one that the store refuses to
make room for or to write. -/
theorem placeImages_extends
    {images : List Page}
    {existing : BlockNumber}
    {number : Nat}
    (present : contents state relation = some journal.relation)
    (counted : existing.toNat ≤ journal.length)
    (filled : journal.length ≤ max existing.toNat number)
    (small : number + images.length < blockNumberBound) :
    (Gateway.placeImages relation existing number images : StorageM σ Unit).Yields state
      (either
        (fun _ left =>
          Became state left
            ((contents state).put relation (journal.place number images).relation) 0)
        fun _ left =>
          ¬Sound state ∧
            ∃ placed length, placed < images.length ∧ length ≤ number + placed + 1 ∧
              Became state left
                ((contents state).put relation
                  ((journal.place number (images.take placed)).growTo length).relation) 0) := by
  induction images generalizing number journal state with
  | nil =>
      have same := Became.refl state
      refine yields_pure ?_
      rwa [either_ok, Journal.place, Contents.put_of_some present]
  | cons image rest inductionHypothesis =>
      rw [List.length_cons] at small
      have block : (UInt32.ofNat number).toNat = number :=
        UInt32.toNat_ofNat_of_lt' (show number < blockNumberBound by omega)
      have filledHere : journal.length ≤ max existing.toNat (UInt32.ofNat number).toNat := by
        rwa [block]
      apply yields_bind (ensureBlock_extends present counted filledHere)
      · intro _ between became
        rw [either_ok, block] at became
        have presentBetween :
            contents between relation = some (journal.growTo (number + 1)).relation := by
          rw [became.holds, Contents.put_same]
        have has : number < (journal.growTo (number + 1)).length := Nat.le_max_right ..
        apply yields_bind (LawfulStorage.write_law between relation (UInt32.ofNat number) image)
        · intro _ written holds
          rcases holds with ⟨found, among, -, later⟩
          obtain rfl := Option.some.inj (presentBetween.symm.trans among)
          rw [block, ← Journal.relation_record _ image has, became.holds, Contents.put_put] at later
          have presentWritten :
              contents written relation =
                some ((journal.growTo (number + 1)).record number image has).relation := by
            rw [later.holds, Contents.put_same]
          -- The blocks were counted once, before the first image. The file may have grown since,
          -- but not past the block of the image before this one.
          have countedLater : existing.toNat ≤ max journal.length (number + 1) := by omega
          have filledLater : max journal.length (number + 1) ≤ max existing.toNat (number + 1) := by
            omega
          have soFar := became.trans later
          apply (inductionHypothesis presentWritten countedLater filledLater (by omega)).mono
          · intro _ left next
            rw [soFar.holds, Contents.put_put] at next
            exact soFar.trans next
          · intro fault left next
            rcases next with ⟨unsound, placed, length, inside, reached, next⟩
            rw [soFar.holds, Contents.put_put] at next
            refine
              ⟨fun sound => unsound (soFar.keepsSound sound), placed + 1, length,
                Nat.succ_lt_succ inside, by omega, soFar.trans next⟩
        · intro fault left holds
          rcases holds with ⟨reason, later⟩
          rw [became.holds] at later
          refine
            ⟨fun sound => ?_, 0, number + 1, Nat.succ_pos _, Nat.le_refl _, became.trans later⟩
          have lacks := reason (became.keepsSound sound) _ presentBetween
          rw [block, Journal.length_relation] at lacks
          exact absurd has (Nat.not_lt_of_le lacks)
      · intro fault left holds
        rcases holds with ⟨reason, length, -, below, became⟩
        rw [block] at reason below
        refine ⟨fun sound => ?_, 0, length, Nat.succ_pos _, by omega, became⟩
        have full := reason sound
        omega

/-- A sound store gets all images. -/
theorem placeImages_places
    {images : List Page}
    {existing : BlockNumber}
    {number : Nat}
    (sound : Sound state)
    (present : contents state relation = some journal.relation)
    (counted : existing.toNat ≤ journal.length)
    (filled : journal.length ≤ max existing.toNat number)
    (small : number + images.length < blockNumberBound) :
    (Gateway.placeImages relation existing number images : StorageM σ Unit).Yields state
      fun outcome left =>
        outcome = .ok () ∧ Sound left ∧
          contents left = (contents state).put relation (journal.place number images).relation := by
  apply (placeImages_extends present counted filled small).weaken
  intro outcome left holds
  cases outcome with
  | ok done => exact ⟨rfl, holds.keepsSound sound, holds.holds⟩
  | error fault => exact absurd sound holds.1

end ObliviousStorage

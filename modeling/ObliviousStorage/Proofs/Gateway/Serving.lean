import Mathlib.Logic.Function.Basic
import ObliviousStorage.Proofs.Gateway.Confinement
import ObliviousStorage.Proofs.Gateway.Establishing
import ObliviousStorage.Proofs.Gateway.Transfers

/-!
Contract: what a request is answered, as if the two files of a session were two arrays of blocks.

Owns: the checks of requests as values; `Request.reply`, which says for any request what its
outcome is, which files are open after it, and how it changes the journals of the two files; and
that a store which refuses nothing without reason serves every request like this.

Does not own: runs of requests.
-/

namespace ObliviousStorage

open StorageM StorageView

/-! ## Requests on two arrays -/

namespace Gateway

/-- The open file that a request names. -/
def openRole (gateway : Gateway) (name : String) : Except Fault FileRole := do
  let role ← gateway.roleNamed name
  require (gateway.isOpen role) (.unknownTarget name)
  return role

/-- The file whose blocks are to be read or written, if the request passes its checks. -/
def grant (gateway : Gateway) (name : String) (blocks length : Nat) : Except Fault FileRole := do
  requireLength blocks length
  gateway.openRole name

/-- The file that is to be established, if the request passes the checks before the file is
opened. -/
def nominate
    (gateway : Gateway)
    (name : String)
    (count requestedBlockSize length : Nat) : Except Fault FileRole := do
  require (requestedBlockSize = blockSize) (.sizeMismatch blockSize requestedBlockSize)
  requireLength count length
  gateway.roleNamed name

/-- The checks of the images for a file of so many blocks. -/
def acceptImages (start : BlockNumber) (images : List Page) (length : Nat) : Except Fault Unit := do
  require (start.toNat + images.length < blockNumberBound)
    (.invalidConfiguration (.rangeOverflow images.length start.toNat))
  requireWellFormed start.toNat images
  let _ ← toBlockNumber length

end Gateway

/-- What comes of a request: its outcome, which files are open, and the two files. -/
structure Reply where
  outcome : Except Fault (List Page)
  gateway : Gateway
  journals : FileRole → Journal

/-- What a request is answered if the files are two arrays of blocks. -/
def Request.reply (gateway : Gateway) (journals : FileRole → Journal) : Request → Reply
  | .establish name buffer count requestedBlockSize start =>
      match gateway.nominate name count.toNat requestedBlockSize buffer.size with
      | .error fault => ⟨.error fault, gateway, journals⟩
      | .ok role =>
          match Gateway.acceptImages start (Page.allOf buffer) (journals role).length with
          | .error fault => ⟨.error fault, gateway.setOpen role true, journals⟩
          | .ok () =>
              ⟨.ok [], gateway.setOpen role true,
                Function.update journals role
                  ((journals role).place start.toNat (Page.allOf buffer))⟩
  | .write name blocks buffer =>
      match gateway.grant name blocks.length buffer.size with
      | .error fault => ⟨.error fault, gateway, journals⟩
      | .ok role =>
          ⟨(journals role).outcome (gateway.session.relation role) blocks [], gateway,
            Function.update journals role
              ((journals role).transfer (deposits blocks (Page.allOf buffer)))⟩
  | .read name blocks buffer =>
      match gateway.grant name blocks.length buffer.size with
      | .error fault => ⟨.error fault, gateway, journals⟩
      | .ok role =>
          ⟨(journals role).outcome (gateway.session.relation role) blocks
              (blocks.map fun block => (journals role).block block.toNat),
            gateway, journals⟩
  | .close name =>
      match gateway.close name with
      | .error fault => ⟨.error fault, gateway, journals⟩
      | .ok closed => ⟨.ok [], closed, journals⟩
  | .closeAll => ⟨.ok [], gateway.allClosed, journals⟩

/-- The files of a session are these. -/
def Session.Holds (session : Session) (journals : FileRole → Journal) (held : Contents) : Prop :=
  ∀ role, held (session.relation role) = some (journals role).relation

section Serving

variable
  {σ : Type}
  [Storage σ]
  [LawfulStorage σ]
  {gateway : Gateway}
  {journals : FileRole → Journal}
  {state : σ}

theorem Session.Holds.update
    {session : Session}
    {held : Contents}
    (holds : session.Holds journals held)
    (distinct : session.tableRelation ≠ session.indexRelation)
    (role : FileRole)
    (journal : Journal) :
    session.Holds (Function.update journals role journal)
      (held.put (session.relation role) journal.relation) := by
  intro other
  by_cases same : other = role
  · subst same
    rw [Function.update_self, Contents.put_same]
  · have apart : session.relation other ≠ session.relation role := by
      cases role with
      | table =>
          cases other with
          | table => exact absurd rfl same
          | index => exact distinct.symm
      | index =>
          cases other with
          | table => exact distinct
          | index => exact absurd rfl same
    rw [Function.update_of_ne same, Contents.put_other _ _ apart, holds other]

namespace Gateway

theorem relationNamed_eq (gateway : Gateway) (name : String) :
    gateway.relationNamed name = (gateway.openRole name).map gateway.session.relation := by
  rw [relationNamed, openRole]
  cases gateway.roleNamed name with
  | error fault => rfl
  | ok role =>
      simp only [require, bind, Except.bind]
      by_cases isOpen : gateway.isOpen role = true
      · simp [isOpen, pure, Except.pure, Except.map]
      · simp [isOpen, Except.map]

theorem authorize_grants
    (sound : Sound state)
    (name : String)
    (blocks length : Nat) :
    (gateway.authorize name blocks length : StorageM σ RelationId).Yields state
      fun outcome left =>
        outcome = (gateway.grant name blocks length).map gateway.session.relation ∧
          left = state := by
  apply yields_bind (requirePageSized_yields state)
  · rintro _ _ rfl
    rw [grant]
    cases requireLength blocks length with
    | error fault => exact ⟨rfl, rfl⟩
    | ok done =>
        rw [relationNamed_eq]
        exact yields_lift ⟨rfl, rfl⟩
  · exact fun _ _ refused => absurd sound refused.2

theorem authorize_of_granted
    {name : String}
    {blocks length : Nat}
    {role : FileRole}
    (sound : Sound state)
    (granted : gateway.grant name blocks length = .ok role) :
    (gateway.authorize name blocks length : StorageM σ RelationId).Yields state
      fun outcome left => outcome = .ok (gateway.session.relation role) ∧ left = state := by
  apply (authorize_grants sound name blocks length).weaken
  rintro outcome left ⟨result, same⟩
  exact ⟨by rw [result, granted]; rfl, same⟩

theorem authorize_of_refused
    {name : String}
    {blocks length : Nat}
    {fault : Fault}
    (sound : Sound state)
    (refused : gateway.grant name blocks length = .error fault) :
    (gateway.authorize name blocks length : StorageM σ RelationId).Yields state
      fun outcome left => outcome = .error fault ∧ left = state := by
  apply (authorize_grants sound name blocks length).weaken
  rintro outcome left ⟨result, same⟩
  exact ⟨by rw [result, refused]; rfl, same⟩

/-- A sound store has the block size that requests ask for. -/
theorem yields_pageSized_bind
    {τ α : Type}
    {next : Unit → StorageM (τ × σ) α}
    {beside : τ}
    {after : Except Fault α → τ × σ → Prop}
    (sound : Sound state)
    (continues : (next ()).Yields (beside, state) after) :
    ((requirePageSized : StorageM σ Unit).onSecond >>= next).Yields (beside, state) after := by
  refine yields_onSecond_bind (requirePageSized_yields state) ?_ ?_
  · rintro _ _ rfl
    exact continues
  · exact fun _ _ refused => absurd sound refused.2

theorem roleOf_of_named
    {name : String}
    {role : FileRole}
    (named : gateway.roleNamed name = .ok role) :
    gateway.session.roleOf name = some role := by
  rw [roleNamed] at named
  cases found : gateway.session.roleOf name with
  | none => simp [found] at named
  | some other => simpa [found] using named

theorem acceptImages_eq_ok
    {start : BlockNumber}
    {images : List Page}
    {length : Nat}
    (fits : start.toNat + images.length < blockNumberBound)
    (acceptable : ∀ image ∈ images, Acceptable image)
    (few : length < blockNumberBound) :
    acceptImages start images length = .ok () := by
  rw [acceptImages, require, if_pos fits, requireWellFormed_eq_ok acceptable, toBlockNumber,
    if_pos few]
  rfl

/-- Establishing a file that passes its checks fills it. -/
theorem establishImages_places
    {name : String}
    {role : FileRole}
    {start : BlockNumber}
    {images : List Page}
    {journal : Journal}
    (sound : Sound state)
    (present : contents state (gateway.session.relation role) = some journal.relation)
    (named : gateway.roleNamed name = .ok role)
    (accepted : acceptImages start images journal.length = .ok ()) :
    (establishImages name images start : StorageM (Gateway × σ) Unit).Yields (gateway, state)
      fun outcome left =>
        outcome = .ok () ∧ left.1 = gateway.setOpen role true ∧ Sound left.2 ∧
          contents left.2 =
            (contents state).put (gateway.session.relation role)
              (journal.place start.toNat images).relation := by
  obtain ⟨_, ranged, accepted⟩ := bind_eq_ok_iff.mp accepted
  obtain ⟨_, wellFormed, accepted⟩ := bind_eq_ok_iff.mp accepted
  obtain ⟨count, counted, -⟩ := bind_eq_ok_iff.mp accepted
  have length := Contents.toBlockNumber_eq_ok_iff.mp counted
  have counts := count_answers sound (gateway.session.relation role)
  rw [Journal.count_eq present, counted] at counts
  apply yields_pageSized_bind sound
  refine yields_bind_value (reopen_yields (roleOf_of_named named)) ?_
  rintro _ rfl
  apply yields_lift_bind_value ranged
  apply yields_lift_bind_value wellFormed
  refine yields_onSecond_bind counts ?_ fun _ _ holds => absurd holds.1 (by simp)
  rintro existing between ⟨same, soundBetween, holds⟩
  obtain rfl := Except.ok.inj same
  have presentBetween :
      contents between (gateway.session.relation role) = some journal.relation := by
    rw [holds, present]
  have places :=
    placeImages_places soundBetween presentBetween (Nat.le_of_eq length)
      (show journal.length ≤ max existing.toNat start.toNat by omega)
      (require_eq_ok_iff.mp ranged)
  refine yields_onSecond (places.weaken ?_)
  rintro outcome left ⟨result, soundLeft, later⟩
  exact ⟨result, rfl, soundLeft, by rw [later, holds]⟩

/-- Establishing a file that does not pass its checks opens it and does nothing else. -/
theorem establishImages_refuses
    {name : String}
    {role : FileRole}
    {start : BlockNumber}
    {images : List Page}
    {journal : Journal}
    {fault : Fault}
    (sound : Sound state)
    (present : contents state (gateway.session.relation role) = some journal.relation)
    (named : gateway.roleNamed name = .ok role)
    (refused : acceptImages start images journal.length = .error fault) :
    (establishImages name images start : StorageM (Gateway × σ) Unit).Yields (gateway, state)
      fun outcome left =>
        outcome = .error fault ∧ left.1 = gateway.setOpen role true ∧ Sound left.2 ∧
          contents left.2 = contents state := by
  have counts := count_answers sound (gateway.session.relation role)
  rw [Journal.count_eq present] at counts
  apply yields_pageSized_bind sound
  refine yields_bind_value (reopen_yields (roleOf_of_named named)) ?_
  rintro _ rfl
  rcases bind_eq_error_iff.mp refused with outOfRange | ⟨_, ranged, refused⟩
  · exact yields_lift_bind_stop outOfRange ⟨rfl, rfl, sound, rfl⟩
  · apply yields_lift_bind_value ranged
    rcases bind_eq_error_iff.mp refused with malformed | ⟨_, wellFormed, refused⟩
    · exact yields_lift_bind_stop malformed ⟨rfl, rfl, sound, rfl⟩
    · apply yields_lift_bind_value wellFormed
      rcases bind_eq_error_iff.mp refused with uncountable | ⟨_, -, refused⟩
      · rw [uncountable] at counts
        refine yields_onSecond_bind counts (fun _ _ holds => absurd holds.1 (by simp)) ?_
        rintro other between ⟨same, soundBetween, holds⟩
        obtain rfl := Except.error.inj same
        exact ⟨rfl, rfl, soundBetween, holds⟩
      · exact absurd refused (by simp [pure, Except.pure])

/-- Writing to a file that the request may work on. -/
theorem write_transfers
    [PreciseStorage σ]
    {name : String}
    {blocks : List BlockNumber}
    {buffer : Buffer}
    {role : FileRole}
    {journal : Journal}
    (sound : Sound state)
    (present : contents state (gateway.session.relation role) = some journal.relation)
    (granted : gateway.grant name blocks.length buffer.size = .ok role) :
    (gateway.write name blocks buffer : StorageM σ Unit).Yields state fun outcome left =>
      outcome = journal.outcome (gateway.session.relation role) blocks () ∧ Sound left ∧
        contents left =
          (contents state).put (gateway.session.relation role)
            (journal.transfer (deposits blocks (Page.allOf buffer))).relation := by
  obtain ⟨_, sized, -⟩ := bind_eq_ok_iff.mp granted
  have together : blocks.length = (Page.allOf buffer).length := by
    rw [Page.length_allOf, require_eq_ok_iff.mp sized, Nat.mul_div_cancel _ (by decide)]
  refine yields_bind_value (authorize_of_granted sound granted) ?_
  rintro _ rfl
  exact writeImages_transfers sound present together

/-- Reading from a file that the request may work on. -/
theorem read_copies
    {name : String}
    {blocks : List BlockNumber}
    {buffer : Buffer}
    {role : FileRole}
    {journal : Journal}
    (sound : Sound state)
    (present : contents state (gateway.session.relation role) = some journal.relation)
    (granted : gateway.grant name blocks.length buffer.size = .ok role) :
    (gateway.read name blocks : StorageM (Buffer × σ) Unit).Yields (buffer, state)
      fun outcome left =>
        outcome = journal.outcome (gateway.session.relation role) blocks () ∧ Sound left.2 ∧
          contents left.2 = contents state ∧
            (outcome = .ok () →
              Page.allOf left.1 = blocks.map fun block => journal.block block.toNat) := by
  obtain ⟨_, sized, -⟩ := bind_eq_ok_iff.mp granted
  have size : buffer.size = blocks.length * blockSize := require_eq_ok_iff.mp sized
  refine yields_get_bind ?_
  refine yields_onSecond_bind (authorize_of_granted sound granted) ?_
    fun _ _ holds => absurd holds.1 (by simp)
  rintro relation _ ⟨same, rfl⟩
  obtain rfl := Except.ok.inj same
  have fits : (0 + blocks.length) * blockSize ≤ buffer.size := by
    rw [Nat.zero_add]
    exact Nat.le_of_eq size.symm
  apply (copyBlocks_copies sound present fits).weaken
  rintro outcome left ⟨result, soundLeft, unchanged, filledSize, -, images⟩
  refine ⟨result, soundLeft, unchanged, fun done => ?_⟩
  apply List.ext_getElem
  · rw [Page.length_allOf, filledSize, size, Nat.mul_div_cancel _ (by decide), List.length_map]
  · intro index _ bound
    have among : index < blocks.length := by simpa using bound
    have image := images done index _ (List.getElem?_eq_getElem among)
    rw [Nat.zero_add] at image
    rw [Page.getElem_allOf, List.getElem_map, image]

end Gateway

/-! ## Serving requests -/

/-- A request was served as it is answered if the files are two arrays of blocks. -/
structure Serves
    (session : Session)
    (reply : Reply)
    (outcome : Except Fault (List Page))
    (left : Gateway × σ) : Prop where
  outcome : outcome = reply.outcome
  gateway : left.1 = reply.gateway
  sound : Sound left.2
  holds : session.Holds reply.journals (contents left.2)

theorem establish_serves
    (sound : Sound state)
    (distinct : gateway.session.tableRelation ≠ gateway.session.indexRelation)
    (holds : gateway.session.Holds journals (contents state))
    (name : String)
    (buffer : Buffer)
    (count : BlockNumber)
    (requestedBlockSize : Nat)
    (start : BlockNumber) :
    (Request.establish name buffer count requestedBlockSize start).action.Yields (gateway, state)
      (Serves gateway.session
        ((Request.establish name buffer count requestedBlockSize start).reply gateway
          journals)) := by
  cases nomination : gateway.nominate name count.toNat requestedBlockSize buffer.size with
  | error fault =>
      simp only [Request.reply, nomination]
      apply yields_bind_stop
      rcases bind_eq_error_iff.mp nomination with wrongSize | ⟨_, sized, nomination⟩
      · exact yields_lift_bind_stop wrongSize ⟨rfl, rfl, rfl, sound, holds⟩
      · apply yields_lift_bind_value sized
        apply Gateway.yields_pageSized_bind sound
        rcases bind_eq_error_iff.mp nomination with wrongLength | ⟨_, fits, unknown⟩
        · exact yields_lift_bind_stop wrongLength ⟨rfl, rfl, rfl, sound, holds⟩
        · apply yields_lift_bind_value fits
          apply Gateway.yields_pageSized_bind sound
          apply yields_bind_stop
          exact yields_get_bind (yields_lift_bind_stop unknown ⟨rfl, rfl, rfl, rfl, sound, holds⟩)
  | ok role =>
      obtain ⟨_, sized, nominated⟩ := bind_eq_ok_iff.mp nomination
      obtain ⟨_, fits, named⟩ := bind_eq_ok_iff.mp nominated
      have reaches :
          ∀ {after : Except Fault Unit → Gateway × σ → Prop},
            (Gateway.establishImages name (Page.allOf buffer) start).Yields (gateway, state)
                after →
              (Gateway.establish name buffer count requestedBlockSize start).Yields
                (gateway, state) after := by
        intro after establishes
        apply yields_lift_bind_value sized
        apply Gateway.yields_pageSized_bind sound
        exact yields_lift_bind_value fits establishes
      simp only [Request.reply, nomination]
      cases acceptance :
          Gateway.acceptImages start (Page.allOf buffer) (journals role).length with
      | error fault =>
          have refuses :=
            reaches (Gateway.establishImages_refuses sound (holds role) named acceptance)
          apply yields_bind_stop
          apply refuses.weaken
          rintro outcome left ⟨result, opened, soundLeft, unchanged⟩
          exact ⟨result, rfl, opened, soundLeft, unchanged ▸ holds⟩
      | ok done =>
          have places :=
            reaches (Gateway.establishImages_places sound (holds role) named acceptance)
          refine yields_bind_value places ?_
          rintro left ⟨opened, soundLeft, placed⟩
          exact yields_pure ⟨rfl, opened, soundLeft, placed ▸ holds.update distinct role _⟩

theorem write_serves
    [PreciseStorage σ]
    (sound : Sound state)
    (distinct : gateway.session.tableRelation ≠ gateway.session.indexRelation)
    (holds : gateway.session.Holds journals (contents state))
    (name : String)
    (blocks : List BlockNumber)
    (buffer : Buffer) :
    (Request.write name blocks buffer).action.Yields (gateway, state)
      (Serves gateway.session ((Request.write name blocks buffer).reply gateway journals)) := by
  refine yields_get_bind ?_
  cases granting : gateway.grant name blocks.length buffer.size with
  | error fault =>
      simp only [Request.reply, granting]
      have refuses :
          (gateway.write name blocks buffer : StorageM σ Unit).Yields state
            fun outcome left => outcome = .error fault ∧ left = state :=
        yields_bind_stop ((Gateway.authorize_of_refused sound granting).weaken
          fun _ _ refused => ⟨refused.1, rfl, refused.2⟩)
      refine yields_onSecond_bind refuses (fun _ _ refused => absurd refused.1 (by simp)) ?_
      rintro other _ ⟨same, rfl⟩
      exact ⟨by rw [Except.error.inj same], rfl, sound, holds⟩
  | ok role =>
      simp only [Request.reply, granting]
      have updated :=
        holds.update distinct role
          ((journals role).transfer (deposits blocks (Page.allOf buffer)))
      have writes := Gateway.write_transfers sound (holds role) granting
      refine yields_onSecond_bind writes ?_ ?_
      · rintro _ left ⟨result, soundLeft, later⟩
        exact
          yields_pure
            ⟨(Journal.outcome_of_ok result.symm _).symm, rfl, soundLeft, later ▸ updated⟩
      · rintro fault left ⟨result, soundLeft, later⟩
        exact ⟨(Journal.outcome_of_error result.symm _).symm, rfl, soundLeft, later ▸ updated⟩

theorem read_serves
    (sound : Sound state)
    (holds : gateway.session.Holds journals (contents state))
    (name : String)
    (blocks : List BlockNumber)
    (buffer : Buffer) :
    (Request.read name blocks buffer).action.Yields (gateway, state)
      (Serves gateway.session ((Request.read name blocks buffer).reply gateway journals)) := by
  refine yields_get_bind ?_
  cases granting : gateway.grant name blocks.length buffer.size with
  | error fault =>
      simp only [Request.reply, granting]
      have refuses :
          ((gateway.read name blocks : StorageM (Buffer × σ) Unit).withFirst buffer).Yields state
            fun outcome left => outcome = .error fault ∧ left = state := by
        apply yields_withFirst_map
        refine yields_get_bind ?_
        refine yields_onSecond_bind (Gateway.authorize_of_refused sound granting)
          (fun _ _ refused => absurd refused.1 (by simp)) ?_
        rintro other _ ⟨same, rfl⟩
        exact ⟨by rw [Except.error.inj same]; rfl, rfl⟩
      refine yields_onSecond_bind refuses (fun _ _ refused => absurd refused.1 (by simp)) ?_
      rintro other _ ⟨same, rfl⟩
      exact ⟨by rw [Except.error.inj same], rfl, sound, holds⟩
  | ok role =>
      simp only [Request.reply, granting]
      have reads :
          ((gateway.read name blocks : StorageM (Buffer × σ) Unit).withFirst buffer).Yields state
            fun outcome left =>
              Sound left ∧ contents left = contents state ∧
                ∃ filled,
                  outcome =
                      ((journals role).outcome (gateway.session.relation role) blocks ()).map
                        (fun done => (done, filled)) ∧
                    ((journals role).outcome (gateway.session.relation role) blocks () = .ok () →
                      Page.allOf filled =
                        blocks.map fun block => (journals role).block block.toNat) := by
        apply yields_withFirst_map
        apply (Gateway.read_copies sound (holds role) granting).weaken
        rintro outcome left ⟨rfl, soundLeft, unchanged, images⟩
        exact ⟨soundLeft, unchanged, left.1, rfl, images⟩
      refine yields_onSecond_bind reads ?_ ?_
      · rintro ⟨done, filled⟩ left ⟨soundLeft, unchanged, other, result, images⟩
        cases answered :
            (journals role).outcome (gateway.session.relation role) blocks () with
        | error fault => simp [answered, Except.map] at result
        | ok done =>
            obtain rfl : filled = other := by
              simpa [answered, Except.map] using congrArg (Except.map Prod.snd) result
            refine yields_pure ⟨?_, rfl, soundLeft, unchanged ▸ holds⟩
            rw [Journal.outcome_of_ok answered, images answered]
      · rintro fault left ⟨soundLeft, unchanged, other, result, -⟩
        refine ⟨?_, rfl, soundLeft, unchanged ▸ holds⟩
        cases answered :
            (journals role).outcome (gateway.session.relation role) blocks () with
        | ok done => simp [answered, Except.map] at result
        | error reason =>
            rw [Journal.outcome_of_error answered]
            simpa [answered, Except.map] using result

end Serving

end ObliviousStorage

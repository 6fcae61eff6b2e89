import ObliviousStorage.Proofs.Gateway.Screening
import ObliviousStorage.Proofs.Storage.Candid

/-!
Contract: what a request to establish a file leaves behind if it is rejected.

Owns: at which point a request is refused (before the file is opened or after that), and that
nothing else follows from a rejection: the store is exactly as it was, and the file that the
request names is open unless the request was rejected before its name was recognised; and that
reads and writes of a closed file are refused.

Does not own: what is left behind when the store fails a call.
-/

namespace ObliviousStorage

open StorageM StorageView
open CandidStorage (Imposed)

/-- The fault concerns the block size, the buffer or the name of a request. -/
def Fault.PrecedesOpening : Fault → Prop
  | .sizeMismatch .. => True
  | .unknownTarget _ => True
  | _ => False

namespace Gateway

section Opening

variable {gateway : Gateway} {role : FileRole}

/-- Opening a file makes a difference exactly if the file is closed. -/
theorem setOpen_eq_self_iff : gateway.setOpen role true = gateway ↔ gateway.isOpen role = true := by
  cases gateway
  cases role <;> simp [setOpen, isOpen, eq_comm]

end Opening

/-! ## Closed files -/

section Closed

variable {σ : Type} [Storage σ]

/-- Reads and writes of the file with buffers of the right size are refused because it is not
open, and they change nothing. -/
structure Unanswered (gateway : Gateway) (store : σ) (name : String) : Prop where
  read :
    ∀ (blocks : List BlockNumber) (buffer : Buffer), buffer.size = blocks.length * blockSize →
      (gateway.read name blocks : StorageM (Buffer × σ) Unit).runOn (buffer, store) =
        (.error (.unknownTarget name), (buffer, store))
  write :
    ∀ (blocks : List BlockNumber) (buffer : Buffer), buffer.size = blocks.length * blockSize →
      (gateway.write name blocks buffer : StorageM σ Unit).runOn store =
        (.error (.unknownTarget name), store)

variable
  {gateway : Gateway}
  {store : σ}
  {name : String}
  {role : FileRole}

theorem authorize_of_closed
    {blocks length : Nat}
    (pageSized : Storage.blockBytes store = blockSize)
    (named : gateway.session.roleOf name = some role)
    (closed : gateway.isOpen role = false)
    (complete : length = blocks * blockSize) :
    (gateway.authorize name blocks length : StorageM σ RelationId).Yields store
      fun outcome left => outcome = .error (.unknownTarget name) ∧ left = store := by
  have sized : requireLength blocks length = .ok () := require_eq_ok_iff.mpr complete
  have refused : gateway.relationNamed name = .error (.unknownTarget name) := by
    simp [relationNamed, roleNamed, named, closed, require, bind, Except.bind]
  refine yields_bind_value (requirePageSized_of_pageSized pageSized) ?_
  rintro _ rfl
  exact yields_lift_bind_value sized (yields_lift ⟨refused, rfl⟩)

theorem unanswered_of_closed
    (pageSized : Storage.blockBytes store = blockSize)
    (named : gateway.session.roleOf name = some role)
    (closed : gateway.isOpen role = false) :
    gateway.Unanswered store name where
  read := by
    intro blocks buffer complete
    have refuses :
        (gateway.read name blocks : StorageM (Buffer × σ) Unit).Yields (buffer, store)
          fun outcome left => outcome = .error (.unknownTarget name) ∧ left = (buffer, store) := by
      refine yields_get_bind ?_
      refine yields_onSecond_bind (authorize_of_closed pageSized named closed complete)
        (fun _ _ refused => absurd refused.1 (by simp)) ?_
      rintro fault _ ⟨same, rfl⟩
      exact ⟨by rw [Except.error.inj same], rfl⟩
    exact Prod.ext refuses.1 refuses.2
  write := by
    intro blocks buffer complete
    have refuses :
        (gateway.write name blocks buffer : StorageM σ Unit).Yields store
          fun outcome left => outcome = .error (.unknownTarget name) ∧ left = store :=
      yields_bind_stop ((authorize_of_closed pageSized named closed complete).weaken
        fun _ _ refused => ⟨refused.1, rfl, refused.2⟩)
    exact Prod.ext refuses.1 refuses.2

end Closed

/-! ## Rejected requests -/

theorem requireWellFormed_refused
    {block : Nat}
    {images : List Page}
    {fault : Fault}
    (refused : requireWellFormed block images = .error fault) :
    ¬fault.PrecedesOpening := by
  induction images generalizing block with
  | nil => exact absurd refused (by simp [requireWellFormed])
  | cons image rest inductionHypothesis =>
      rcases bind_eq_error_iff.mp refused with unfit | ⟨_, -, later⟩
      · rw [(require_eq_error_iff.mp unfit).2]
        exact id
      · exact inductionHypothesis later

/-- A request names a file, or it is refused for its block size, its buffer or its name and
changes nothing. -/
theorem nominates_or_refused
    {σ : Type}
    [Storage σ]
    (gateway : Gateway)
    (store : σ)
    (name : String)
    (buffer : Buffer)
    (count : BlockNumber)
    (requestedBlockSize : Nat)
    (start : BlockNumber) :
    (∃ role, gateway.Nominates store name buffer count requestedBlockSize role) ∨
      (establish name buffer count requestedBlockSize start : StorageM (Gateway × σ) Unit).Yields
        (gateway, store) fun outcome left =>
          left = (gateway, store) ∧ ∃ fault, outcome = .error fault ∧ fault.PrecedesOpening := by
  by_cases requested : requestedBlockSize = blockSize
  case neg =>
    right
    exact yields_lift_bind_stop (require_eq_error_iff.mpr ⟨requested, rfl⟩) ⟨rfl, _, rfl, trivial⟩
  have requestedOk :
      require (requestedBlockSize = blockSize) (.sizeMismatch blockSize requestedBlockSize) =
        .ok () :=
    require_eq_ok_iff.mpr requested
  by_cases pageSized : Storage.blockBytes store = blockSize
  case neg =>
    have refuses :
        (requirePageSized : StorageM σ Unit).Yields store fun outcome left =>
          outcome = .error (.sizeMismatch blockSize (Storage.blockBytes store)) ∧ left = store :=
      yields_get_bind (yields_lift ⟨require_eq_error_iff.mpr ⟨pageSized, rfl⟩, rfl⟩)
    right
    apply yields_lift_bind_value requestedOk
    apply yields_onSecond_bind refuses
    · exact fun _ _ accepted => absurd accepted.1 (by simp)
    · intro fault between refused
      rcases refused with ⟨same, rfl⟩
      refine ⟨rfl, fault, rfl, ?_⟩
      rw [Except.error.inj same]
      trivial
  by_cases complete : buffer.size = count.toNat * blockSize
  case neg =>
    right
    apply yields_lift_bind_value requestedOk
    apply yields_bind_of_pageSized pageSized
    exact yields_lift_bind_stop (require_eq_error_iff.mpr ⟨complete, rfl⟩) ⟨rfl, _, rfl, trivial⟩
  have completeOk : requireLength count.toNat buffer.size = .ok () :=
    require_eq_ok_iff.mpr complete
  cases named : gateway.session.roleOf name with
  | some role => exact Or.inl ⟨role, requested, pageSized, complete, named⟩
  | none =>
      have unknown : gateway.roleNamed name = .error (.unknownTarget name) := by
        rw [roleNamed, named]
      right
      apply yields_lift_bind_value requestedOk
      apply yields_bind_of_pageSized pageSized
      apply yields_lift_bind_value completeOk
      apply yields_bind_of_pageSized pageSized
      apply yields_bind_stop
      exact yields_get_bind (yields_lift_bind_stop unknown ⟨rfl, rfl, _, rfl, trivial⟩)

section Rejecting

variable {σ : Type} [Storage σ] [LawfulStorage σ] [CandidStorage σ]

theorem extendTo_staysReady (relation : RelationId) (block : BlockNumber) (limit : Nat) :
    StaysReady relation (extendTo relation block limit : StorageM σ Unit) := by
  induction limit with
  | zero => exact .ofPure ()
  | succ limit inductionHypothesis =>
      refine .bind (.ofExtend relation) fun added => ?_
      split
      · exact inductionHypothesis
      · exact .ofPure ()

theorem ensureBlock_staysReady (relation : RelationId) (existing block : BlockNumber) :
    StaysReady relation (ensureBlock relation existing block : StorageM σ Unit) := by
  unfold ensureBlock
  split
  · exact extendTo_staysReady relation block _
  · exact .ofPure ()

theorem placeImages_staysReady
    (relation : RelationId)
    (existing : BlockNumber)
    (block : Nat)
    (images : List Page) :
    StaysReady relation (placeImages relation existing block images : StorageM σ Unit) := by
  induction images generalizing block with
  | nil => exact .ofPure ()
  | cons image rest inductionHypothesis =>
      refine .bind (ensureBlock_staysReady relation existing _) fun _ => ?_
      exact .bind (.ofWrite relation _ image) fun _ => inductionHypothesis (block + 1)

/-- Writing images is rejected only if there is no relation to write them to, and before any block
is written or added. -/
theorem fill_rejected
    {store : σ}
    (pageSized : Storage.blockBytes store = blockSize)
    (relation : RelationId)
    (start : BlockNumber)
    (images : List Page) :
    (fill relation start images : StorageM σ Unit).Yields store
      (either (fun _ _ => True) fun fault left =>
        fault.Rejects → ¬Imposed store fault → ¬fault.PrecedesOpening ∧ left = store) := by
  apply yields_bind ((LawfulStorage.count_law store relation).and
    (CandidStorage.count_candid store relation))
  · intro existing between holds
    rcases holds with ⟨⟨counted, -⟩, rfl, -⟩
    obtain ⟨found, present, -⟩ := Contents.count_eq_ok_iff.mp counted
    have ready : Ready relation between := ⟨pageSized, by simp [present]⟩
    apply (placeImages_staysReady relation existing start.toNat images between ready).mono
    · exact fun _ _ _ => trivial
    · exact fun _ _ imposed rejects own => absurd (imposed rejects) own
  · intro fault between holds rejects _
    rcases holds with ⟨-, same, reason⟩
    rcases reason fault rfl with rfl | other
    · exact ⟨id, same⟩
    · exact absurd rejects other

/-- How a request is refused: before it opens the file that it names, or after that. -/
inductive Refused (gateway : Gateway) (store : σ) (name : String) (fault : Fault) :
    Gateway × σ → Prop where
  | early (precedes : fault.PrecedesOpening) : Refused gateway store name fault (gateway, store)
  | late
      {role : FileRole}
      {left : σ}
      (named : gateway.session.roleOf name = some role)
      (rejected :
        fault.Rejects → ¬Imposed store fault → ¬fault.PrecedesOpening ∧ left = store) :
      Refused gateway store name fault (gateway.setOpen role true, left)

theorem establish_refused
    (gateway : Gateway)
    (store : σ)
    (name : String)
    (buffer : Buffer)
    (count : BlockNumber)
    (requestedBlockSize : Nat)
    (start : BlockNumber) :
    (establish name buffer count requestedBlockSize start : StorageM (Gateway × σ) Unit).Yields
      (gateway, store)
      (either (fun _ _ => True) fun fault after => Refused gateway store name fault after) := by
  rcases nominates_or_refused gateway store name buffer count requestedBlockSize start with
    ⟨role, nominates⟩ | refuses
  · apply establish_yields_of_nominates nominates
    · exact fun _ => .late nominates.named fun _ _ => ⟨id, rfl⟩
    · intro _ fault malformed
      exact .late nominates.named fun _ _ => ⟨requireWellFormed_refused malformed, rfl⟩
    · intro _ _
      apply (fill_rejected nominates.pageSized (gateway.session.relation role) start
        (Page.allOf buffer)).weaken
      intro outcome left holds
      cases outcome with
      | ok done => trivial
      | error fault => exact .late nominates.named holds
  · apply refuses.weaken
    intro outcome left holds
    rcases holds with ⟨rfl, fault, rfl, precedes⟩
    exact .early precedes

/-- A rejected request to establish a file, whatever was asked before it, leaves the store exactly
as it was. It leaves the gateway as it was too if it was rejected before its name was recognised,
or if the file was open; otherwise the file that it names is open after it. Files that are closed
after it do not answer reads and writes. -/
theorem establish_rejected
    {gateway after : Gateway}
    {store left : σ}
    {name : String}
    {buffer : Buffer}
    {count : BlockNumber}
    {requestedBlockSize : Nat}
    {start : BlockNumber}
    {fault : Fault}
    (refused :
      (establish name buffer count requestedBlockSize start : StorageM (Gateway × σ) Unit).runOn
          (gateway, store) =
        (.error fault, (after, left)))
    (rejects : fault.Rejects)
    (own : ¬Imposed store fault) :
    left = store ∧
      (after = gateway ↔
        fault.PrecedesOpening ∨
          ∀ role, gateway.session.roleOf name = some role → gateway.isOpen role = true) ∧
        (after ≠ gateway →
          ∃ role, gateway.session.roleOf name = some role ∧ gateway.isOpen role = false ∧
            after = gateway.setOpen role true) ∧
          (Storage.blockBytes store = blockSize →
            ∀ other role, gateway.session.roleOf other = some role →
              after.isOpen role = false → after.Unanswered left other) := by
  have how : Refused gateway store name fault (after, left) :=
    (establish_refused gateway store name buffer count requestedBlockSize start).runOn refused
  cases how with
  | early precedes =>
      refine ⟨rfl, ⟨fun _ => Or.inl precedes, fun _ => rfl⟩, fun changed => absurd rfl changed, ?_⟩
      exact fun pageSized other role named closed => unanswered_of_closed pageSized named closed
  | @late role _ named rejected =>
      obtain ⟨behind, rfl⟩ := rejected rejects own
      refine ⟨rfl, ?_, ?_, ?_⟩
      · rw [setOpen_eq_self_iff]
        constructor
        · intro isOpen
          refine Or.inr fun other found => ?_
          obtain rfl := Option.some.inj (named.symm.trans found)
          exact isOpen
        · intro reason
          rcases reason with precedes | isOpen
          · exact absurd precedes behind
          · exact isOpen role named
      · intro changed
        refine ⟨role, named, ?_, rfl⟩
        exact Bool.eq_false_iff.mpr fun isOpen => changed (setOpen_eq_self_iff.mpr isOpen)
      · intro pageSized other otherRole found closed
        rw [← gateway.session_setOpen role true] at found
        exact unanswered_of_closed pageSized found closed

end Rejecting

/-! ## A closed file -/

/-- The gateway of two small files after the first of them was closed. -/
def tableClosed : Gateway := ⟨pairSession, false, true⟩

theorem establish_crossed :
    (establish "t" crossedBuffer 2 blockSize 4 : StorageM (Gateway × MemoryStorage) Unit).runOn
        (tableClosed, pairStore) =
      (.error (.corruptInput 5), (Gateway.opened pairSession, pairStore)) := by
  have there : (Page.allOf crossedBuffer)[1]? = some crossedPage := by
    rw [allOf_crossedBuffer]
    rfl
  have earlier : ∀ other ∈ (Page.allOf crossedBuffer).take 1, Acceptable other := by
    rw [allOf_crossedBuffer]
    intro other member
    rw [List.mem_singleton.mp member]
    exact acceptable_forRecords dummyIdentity
  exact
    establish_refuses_image (admits_crossedBuffer false true) there not_acceptable_crossedPage
      earlier

theorem establish_rejected_crossed :
    (establish "t" crossedBuffer 2 blockSize 4 : StorageM (Gateway × MemoryStorage) Unit).runOn
          (tableClosed, pairStore) =
        (.error (.corruptInput 5), (Gateway.opened pairSession, pairStore)) ∧
      (Fault.corruptInput 5).Rejects ∧
        ¬Imposed pairStore (.corruptInput 5) ∧
          pairStore = pairStore ∧
            (Gateway.opened pairSession = tableClosed ↔
              (Fault.corruptInput 5).PrecedesOpening ∨
                ∀ role, tableClosed.session.roleOf "t" = some role →
                  tableClosed.isOpen role = true) ∧
              (Gateway.opened pairSession ≠ tableClosed →
                ∃ role, tableClosed.session.roleOf "t" = some role ∧
                  tableClosed.isOpen role = false ∧
                    Gateway.opened pairSession = tableClosed.setOpen role true) ∧
                (Storage.blockBytes pairStore = blockSize →
                  ∀ other role, tableClosed.session.roleOf other = some role →
                    (Gateway.opened pairSession).isOpen role = false →
                      (Gateway.opened pairSession).Unanswered pairStore other) := by
  have own : ¬Imposed pairStore (.corruptInput 5) := id
  exact
    ⟨establish_crossed, trivial, own, establish_rejected establish_crossed trivial own⟩

/-- A request that is rejected for its range leaves a file open that was closed, and a read of
it that was refused before is answered after that. -/
theorem not_rejected_unchanged :
    tableClosed.Unanswered pairStore "t" ∧
      (establish "t" Page.dummy.toBuffer 1 blockSize 4294967295 :
            StorageM (Gateway × MemoryStorage) Unit).runOn (tableClosed, pairStore) =
          (.error (.invalidConfiguration (.rangeOverflow 1 4294967295)),
            (Gateway.opened pairSession, pairStore)) ∧
        ((Gateway.opened pairSession).read "t" [] : StorageM (Buffer × MemoryStorage) Unit).runOn
            (#[], pairStore) =
          (.ok (), (#[], pairStore)) := by
  have nominates :
      tableClosed.Nominates pairStore "t" Page.dummy.toBuffer 1 blockSize .table :=
    ⟨rfl, rfl, by rw [Page.size_toBuffer]; rfl, rfl⟩
  have closed : tableClosed.isOpen .table = false := rfl
  exact
    ⟨unanswered_of_closed nominates.pageSized nominates.named closed,
      establish_refuses_range nominates (by decide), rfl⟩

end Gateway

end ObliviousStorage

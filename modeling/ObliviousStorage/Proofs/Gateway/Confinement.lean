import ObliviousStorage.Gateway.Records
import ObliviousStorage.Proofs.Storage.Footprints

/-!
Contract: the requests of a session as data, and which relations they can change.

Owns: `Request`, a request with its arguments, so that runs of requests can be spoken of; and
that every request, every page handed over and every operation on records changes at most the
two relations of the session, whatever state the gateway is in and whatever comes of it.

Does not own: what is written there.
-/

namespace ObliviousStorage

open StorageM StorageView

/-- The relations behind the files of a session. -/
def Session.Owns (session : Session) (relation : RelationId) : Prop :=
  ∃ role, relation = session.relation role

namespace Gateway

theorem session_setOpen (gateway : Gateway) (role : FileRole) (isOpen : Bool) :
    (gateway.setOpen role isOpen).session = gateway.session := by
  cases role <;> rfl

/-- Opening a file finds one of the relations of the session and leaves the store alone. -/
theorem reopen_owned {σ : Type} (gateway : Gateway) (name : String) (state : σ) :
    (reopen name : StorageM (Gateway × σ) RelationId).Yields (gateway, state)
      (either
        (fun relation left => gateway.session.Owns relation ∧ left.2 = state)
        fun _ left => left.2 = state) := by
  refine yields_get_bind (yields_lift_bind ?_ fun _ _ => rfl)
  exact fun role _ => ⟨⟨role, rfl⟩, rfl⟩

variable {σ : Type} [Storage σ] [LawfulStorage σ]

section Confinement

variable {Allowed : RelationId → Prop}

theorem requirePageSized_confined :
    Confined Allowed (fun _ => True) (requirePageSized : StorageM σ Unit) := by
  intro state
  refine yields_get_bind (yields_lift ?_)
  cases require (Storage.blockBytes state = blockSize)
      (.sizeMismatch blockSize (Storage.blockBytes state)) with
  | ok done => exact ⟨trivial, .refl state⟩
  | error fault => exact .refl state

theorem extendTo_confined
    {relation : RelationId}
    (allowed : Allowed relation)
    (block : BlockNumber)
    (limit : Nat) :
    Confined Allowed (fun _ => True) (extendTo relation block limit : StorageM σ Unit) := by
  induction limit with
  | zero => exact .ofPure trivial
  | succ limit inductionHypothesis =>
      refine .bind (.ofExtend allowed) fun added _ => ?_
      split
      · exact inductionHypothesis
      · exact .ofPure trivial

theorem placeImages_confined
    {relation : RelationId}
    (allowed : Allowed relation)
    (existing : BlockNumber)
    (block : Nat)
    (images : List Page) :
    Confined Allowed (fun _ => True)
      (placeImages relation existing block images : StorageM σ Unit) := by
  induction images generalizing block with
  | nil => exact .ofPure trivial
  | cons image rest inductionHypothesis =>
      have ensures :
          Confined Allowed (fun _ => True)
            (ensureBlock relation existing (UInt32.ofNat block) : StorageM σ Unit) := by
        rw [ensureBlock]
        split
        · exact extendTo_confined allowed _ _
        · exact .ofPure trivial
      exact .bind ensures fun _ _ =>
        .bind (.ofWrite allowed _ _) fun _ _ => inductionHypothesis _

theorem writeImages_confined
    {relation : RelationId}
    (allowed : Allowed relation)
    (blocks : List BlockNumber)
    (images : List Page) :
    Confined Allowed (fun _ => True) (writeImages relation blocks images : StorageM σ Unit) := by
  induction blocks generalizing images with
  | nil => exact .ofPure trivial
  | cons block blocks inductionHypothesis =>
      cases images with
      | nil => exact .ofPure trivial
      | cons image images =>
          exact .bind (.ofWrite allowed _ _) fun _ _ => inductionHypothesis images

end Confinement

variable (gateway : Gateway)

/-- A file that a request may work on is one of the session's. -/
theorem owns_of_relationNamed
    {gateway : Gateway}
    {name : String}
    {relation : RelationId}
    (named : gateway.relationNamed name = .ok relation) :
    gateway.session.Owns relation := by
  obtain ⟨role, -, named⟩ := bind_eq_ok_iff.mp named
  obtain ⟨_, -, returned⟩ := bind_eq_ok_iff.mp named
  exact ⟨role, (Except.ok.inj returned).symm⟩

theorem relationNamed_confined (name : String) :
    Confined gateway.session.Owns gateway.session.Owns
      (liftM (gateway.relationNamed name) : StorageM σ RelationId) :=
  .ofLift fun _ => owns_of_relationNamed

theorem authorize_confined (name : String) (blocks length : Nat) :
    Confined gateway.session.Owns gateway.session.Owns
      (gateway.authorize name blocks length : StorageM σ RelationId) :=
  .bind requirePageSized_confined fun _ _ =>
    .bind (.ofLift fun _ _ => trivial) fun _ _ => gateway.relationNamed_confined name

theorem write_confined (name : String) (blocks : List BlockNumber) (buffer : Buffer) :
    Confined gateway.session.Owns (fun _ => True)
      (gateway.write name blocks buffer : StorageM σ Unit) :=
  .bind (gateway.authorize_confined name _ _) fun _ owned => writeImages_confined owned _ _

theorem addIndexPage_confined (page : Page) (offset depth : Nat) :
    Confined gateway.session.Owns (fun _ => True)
      (gateway.addIndexPage page offset depth : StorageM σ Unit) := by
  rw [addIndexPage]
  split
  · exact .ofThrow _
  · exact .bind (.ofLift fun _ _ => trivial) fun _ _ =>
      .bind (gateway.relationNamed_confined _) fun _ owned => .ofWrite owned _ _

theorem addHeapPage_confined (page : Page) (block : BlockNumber) :
    Confined gateway.session.Owns (fun _ => True)
      (gateway.addHeapPage page block : StorageM σ Unit) :=
  .bind (gateway.relationNamed_confined _) fun _ owned => .ofWrite owned _ _

theorem fetch_confined (active : ActiveBlock) :
    Confined gateway.session.Owns (fun found => gateway.session.Owns found.1)
      (active.fetch gateway : StorageM σ (RelationId × Page)) :=
  .bind (gateway.authorize_confined _ _ _) fun _ owned =>
    .bind (.ofRead _ _) fun _ _ => .ofPure owned

theorem append_confined (active : ActiveBlock) (record : List UInt8) :
    Confined gateway.session.Owns (fun _ => True)
      (active.append gateway record : StorageM σ Nat) := by
  refine .bind (gateway.fetch_confined active) ?_
  rintro ⟨relation, page⟩ owned
  dsimp only
  generalize (active.pageToFill page).append record = appended
  refine .bind (.ofLift fun _ _ => trivial) ?_
  rintro ⟨slot, filled⟩ -
  exact .bind (.ofWrite owned _ _) fun _ _ => .ofPure trivial

/-! ## Requests next to a state of their own -/

theorem establishImages_keeps
    (name : String)
    (images : List Page)
    (start : BlockNumber)
    (state : σ) :
    (establishImages name images start : StorageM (Gateway × σ) Unit).Yields (gateway, state)
      fun _ left => Keeps gateway.session.Owns state left.2 := by
  refine yields_onSecond_bind (requirePageSized_confined.keeps state) ?_ fun _ _ kept => kept
  intro _ sized keptSized
  apply yields_bind (gateway.reopen_owned name sized)
  · rintro relation ⟨_, _⟩ ⟨owned, rfl⟩
    apply yields_lift_bind
    · intro _ _
      apply yields_lift_bind
      · intro _ _
        have counts : Confined gateway.session.Owns _
            (Storage.blockCount relation : StorageM σ BlockNumber) :=
          .ofCount relation
        refine yields_onSecond_bind (counts.keeps _) ?_ ?_
        · intro existing counted keptCounted
          have placed :=
            (placeImages_confined owned existing start.toNat images).keeps counted
          exact yields_onSecond
            (placed.weaken fun _ _ kept => (keptSized.trans keptCounted).trans kept)
        · exact fun _ _ kept => keptSized.trans kept
      · exact fun _ _ => keptSized
    · exact fun _ _ => keptSized
  · rintro fault ⟨_, _⟩ rfl
    exact keptSized

theorem establish_keeps
    (name : String)
    (buffer : Buffer)
    (count : BlockNumber)
    (requestedBlockSize : Nat)
    (start : BlockNumber)
    (state : σ) :
    (establish name buffer count requestedBlockSize start : StorageM (Gateway × σ) Unit).Yields
      (gateway, state) fun _ left => Keeps gateway.session.Owns state left.2 := by
  refine yields_lift_bind ?_ fun _ _ => .refl state
  intro _ _
  refine yields_onSecond_bind (requirePageSized_confined.keeps state) ?_ fun _ _ kept => kept
  intro _ sized keptSized
  refine yields_lift_bind ?_ fun _ _ => keptSized
  intro _ _
  exact (gateway.establishImages_keeps name _ start sized).weaken
    fun _ _ kept => keptSized.trans kept

theorem copyBlocks_keeps
    {Allowed : RelationId → Prop}
    (relation : RelationId)
    (place : Nat)
    (blocks : List BlockNumber)
    (buffer : Buffer)
    (state : σ) :
    (copyBlocks relation place blocks : StorageM (Buffer × σ) Unit).Yields (buffer, state)
      fun _ left => Keeps Allowed state left.2 := by
  induction blocks generalizing place buffer state with
  | nil => exact yields_pure (.refl state)
  | cons block rest inductionHypothesis =>
      have reads : Confined Allowed _ (Storage.read relation block : StorageM σ Page) :=
        .ofRead relation block
      refine yields_onSecond_bind (reads.keeps state) ?_ fun _ _ kept => kept
      intro page between kept
      exact (inductionHypothesis (place + 1) _ between).weaken fun _ _ later => kept.trans later

theorem read_keeps
    (name : String)
    (blocks : List BlockNumber)
    (buffer : Buffer)
    (state : σ) :
    (gateway.read name blocks : StorageM (Buffer × σ) Unit).Yields (buffer, state)
      fun _ left => Keeps gateway.session.Owns state left.2 := by
  refine yields_get_bind ?_
  refine yields_onSecond_bind ((gateway.authorize_confined name _ _).keeps state) ?_
    fun _ _ kept => kept
  intro relation between kept
  exact (copyBlocks_keeps relation 0 blocks buffer between).weaken
    fun _ _ later => kept.trans later

theorem scan_keeps (active : ActiveBlock) (scan : Scan) (state : σ) :
    (active.scan gateway : StorageM (Scan × σ) Bool).Yields (scan, state)
      fun _ left => Keeps gateway.session.Owns state left.2 := by
  refine yields_onSecond_bind ((gateway.fetch_confined active).keeps state) ?_
    fun _ _ kept => kept
  rintro ⟨_, page⟩ between kept
  by_cases dummy : page.isDummy
  · simp only [dummy, if_true]
    exact yields_pure kept
  · simp only [dummy]
    refine yields_lift_bind (fun _ _ => ?_) fun _ _ => kept
    by_cases empty : page.slotCount = 0
    · simp only [empty, if_true]
      exact yields_pure kept
    · simp only [empty, if_false]
      refine yields_modify_bind (yields_lift_bind (fun _ _ => ?_) fun _ _ => kept)
      exact yields_modify_bind (yields_pure kept)

end Gateway

/-! ## Any request -/

/-- A request with its arguments. -/
inductive Request where
  | establish
      (name : String)
      (buffer : Buffer)
      (count : BlockNumber)
      (requestedBlockSize : Nat)
      (start : BlockNumber)
  | write (name : String) (blocks : List BlockNumber) (buffer : Buffer)
  | read (name : String) (blocks : List BlockNumber) (buffer : Buffer)
  | close (name : String)
  | closeAll

namespace Request

variable {σ : Type} [Storage σ]

/-- Serves a request. The answer is the images that were read. -/
def action : Request → StorageM (Gateway × σ) (List Page)
  | .establish name buffer count requestedBlockSize start => do
      Gateway.establish name buffer count requestedBlockSize start
      return []
  | .write name blocks buffer => do
      let (gateway, _) ← get
      (gateway.write name blocks buffer : StorageM σ Unit).onSecond
      return []
  | .read name blocks buffer => do
      let (gateway, _) ← get
      let ((), filled) ←
        ((gateway.read name blocks : StorageM (Buffer × σ) Unit).withFirst buffer).onSecond
      return Page.allOf filled
  | .close name => do
      let (gateway, store) ← get
      let closed ← gateway.close name
      set (closed, store)
      return []
  | .closeAll => do
      modify fun (gateway, store) => (gateway.allClosed, store)
      return []

/-- No request changes a relation that is not the session's. -/
theorem action_keeps
    [LawfulStorage σ]
    (request : Request)
    (gateway : Gateway)
    (state : σ) :
    (request.action : StorageM (Gateway × σ) (List Page)).Yields (gateway, state)
      fun _ left => Keeps gateway.session.Owns state left.2 := by
  cases request with
  | establish name buffer count requestedBlockSize start =>
      exact yields_bind (gateway.establish_keeps name buffer count requestedBlockSize start state)
        (fun _ _ kept => yields_pure kept) fun _ _ kept => kept
  | write name blocks buffer =>
      refine yields_get_bind ?_
      exact yields_onSecond_bind ((gateway.write_confined name blocks buffer).keeps state)
        (fun _ _ kept => yields_pure kept) fun _ _ kept => kept
  | read name blocks buffer =>
      have reads :
          ((gateway.read name blocks : StorageM (Buffer × σ) Unit).withFirst buffer).Yields state
            fun _ left => Keeps gateway.session.Owns state left :=
        gateway.read_keeps name blocks buffer state
      refine yields_get_bind ?_
      exact yields_onSecond_bind reads (fun _ _ kept => yields_pure kept) fun _ _ kept => kept
  | close name =>
      refine yields_get_bind (yields_lift_bind (fun closed _ => ?_) fun _ _ => .refl state)
      exact yields_set_bind (yields_pure (.refl state))
  | closeAll => exact yields_modify_bind (yields_pure (.refl state))

end Request

end ObliviousStorage

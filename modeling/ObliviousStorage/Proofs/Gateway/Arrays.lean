import Mathlib.Data.List.Forall2
import ObliviousStorage.Proofs.Gateway.Serving
import ObliviousStorage.Proofs.Storage.Files

/-!
Contract: runs of requests on the two files of a session, which behave as two independent
arrays of blocks.

Owns: in which ways a request can change the journals of the two files; `Exchange`, a request
with its outcome and the states around it, and what it means that an exchange agrees with the
journals before and after it; and that every run of requests agrees with the journals that begin
with what the two files hold.

Does not own: stores that fail by a plan.
-/

namespace ObliviousStorage

open StorageM StorageView

/-! ## What a request can change -/

namespace Gateway

variable {gateway : Gateway} {name : String} {role : FileRole} {length : Nat}

theorem roleOf_of_granted
    {blocks : Nat}
    (granted : gateway.grant name blocks length = .ok role) :
    gateway.session.roleOf name = some role := by
  obtain ⟨_, -, opened⟩ := bind_eq_ok_iff.mp granted
  obtain ⟨other, named, opened⟩ := bind_eq_ok_iff.mp opened
  obtain ⟨_, -, returned⟩ := bind_eq_ok_iff.mp opened
  exact roleOf_of_named (Except.ok.inj returned ▸ named)

theorem roleOf_of_nominated
    {count requestedBlockSize : Nat}
    (nominated : gateway.nominate name count requestedBlockSize length = .ok role) :
    gateway.session.roleOf name = some role := by
  obtain ⟨_, -, nominated⟩ := bind_eq_ok_iff.mp nominated
  obtain ⟨_, -, named⟩ := bind_eq_ok_iff.mp nominated
  exact roleOf_of_named named

theorem session_of_closed
    {closed : Gateway}
    (closes : gateway.close name = .ok closed) :
    closed.session = gateway.session := by
  obtain ⟨role, -, returned⟩ := bind_eq_ok_iff.mp closes
  rw [← Except.ok.inj returned, session_setOpen]

end Gateway

namespace Request

/-- The file that a request names. -/
def file : Request → Option String
  | .establish name .. => some name
  | .write name .. => some name
  | .read name .. => some name
  | .close name => some name
  | .closeAll => none

/-- The request establishes a file. -/
def Establishes : Request → Prop
  | .establish .. => True
  | _ => False

/-- The request writes to blocks that are there. -/
def Overwrites : Request → Prop
  | .write .. => True
  | _ => False

/-- The ways in which a request changes the files: not at all, by placing the images of an
accepted file, or by writing to an open one. -/
inductive Changes (gateway : Gateway) (journals : FileRole → Journal) : Request → Reply → Prop where
  | nothing
      {request : Request}
      {reply : Reply}
      (same : reply.journals = journals) :
      Changes gateway journals request reply
  | places
      {name : String}
      {buffer : Buffer}
      {count : BlockNumber}
      {requestedBlockSize : Nat}
      {start : BlockNumber}
      {role : FileRole}
      (named : gateway.session.roleOf name = some role) :
      Changes gateway journals (.establish name buffer count requestedBlockSize start)
        ⟨.ok [], gateway.setOpen role true,
          Function.update journals role ((journals role).place start.toNat (Page.allOf buffer))⟩
  | writes
      {name : String}
      {blocks : List BlockNumber}
      {buffer : Buffer}
      {role : FileRole}
      (named : gateway.session.roleOf name = some role) :
      Changes gateway journals (.write name blocks buffer)
        ⟨(journals role).outcome (gateway.session.relation role) blocks [], gateway,
          Function.update journals role
            ((journals role).transfer (deposits blocks (Page.allOf buffer)))⟩

section Replies

variable (gateway : Gateway) (journals : FileRole → Journal) (request : Request)

theorem reply_changes : Changes gateway journals request (request.reply gateway journals) := by
  cases request with
  | establish name buffer count requestedBlockSize start =>
      rw [reply]
      split
      · exact .nothing rfl
      · next role nominated =>
          split
          · exact .nothing rfl
          · exact .places (Gateway.roleOf_of_nominated nominated)
  | write name blocks buffer =>
      rw [reply]
      split
      · exact .nothing rfl
      · next role granted => exact .writes (Gateway.roleOf_of_granted granted)
  | read name blocks buffer =>
      rw [reply]
      split <;> exact .nothing rfl
  | close name =>
      rw [reply]
      split <;> exact .nothing rfl
  | closeAll => exact .nothing rfl

theorem session_reply : (request.reply gateway journals).gateway.session = gateway.session := by
  cases request with
  | establish name buffer count requestedBlockSize start =>
      rw [reply]
      split
      · rfl
      · split <;> exact gateway.session_setOpen _ _
  | write name blocks buffer =>
      rw [reply]
      split <;> rfl
  | read name blocks buffer =>
      rw [reply]
      split <;> rfl
  | close name =>
      rw [reply]
      split
      · rfl
      · next closed closes => exact Gateway.session_of_closed closes
  | closeAll => rfl

end Replies

namespace Changes

variable
  {gateway : Gateway}
  {journals : FileRole → Journal}
  {request : Request}
  {reply : Reply}
  (changes : Changes gateway journals request reply)

include changes

theorem first (role : FileRole) : (reply.journals role).first = (journals role).first := by
  cases changes with
  | nothing same => rw [same]
  | @places _ _ _ _ _ placed _ =>
      by_cases same : role = placed
      · subst same
        simp [Journal.first_place]
      · simp [same]
  | @writes _ _ _ written _ =>
      by_cases same : role = written
      · subst same
        simp [Journal.first_transfer]
      · simp [same]

/-- A file that the request does not name is not changed. -/
theorem elsewhere
    {role : FileRole}
    (other : ∀ name, request.file = some name → gateway.session.roleOf name ≠ some role) :
    reply.journals role = journals role := by
  cases changes with
  | nothing same => rw [same]
  | @places name _ _ _ _ placed named =>
      have apart : role ≠ placed := by
        rintro rfl
        exact other name rfl named
      simp [apart]
  | @writes name _ _ written named =>
      have apart : role ≠ written := by
        rintro rfl
        exact other name rfl named
      simp [apart]

/-- Only establishing a file changes how many blocks there are. -/
theorem length (only : ¬request.Establishes) (role : FileRole) :
    (reply.journals role).length = (journals role).length := by
  cases changes with
  | nothing same => rw [same]
  | places named => exact absurd trivial only
  | @writes _ _ _ written _ =>
      by_cases same : role = written
      · subst same
        simp [Journal.length_transfer]
      · simp [same]

theorem idle (placesNothing : ¬request.Establishes) (writesNothing : ¬request.Overwrites) :
    reply.journals = journals := by
  cases changes with
  | nothing same => exact same
  | places named => exact absurd trivial placesNothing
  | writes named => exact absurd trivial writesNothing

/-- A request that is refused for another reason than a block that is not there has changed
nothing. -/
theorem rejected
    {fault : Fault}
    (refused : reply.outcome = .error fault)
    (other : ∀ relation block, fault ≠ .blockOutOfBounds relation block) :
    reply.journals = journals := by
  cases changes with
  | nothing same => exact same
  | places named => exact absurd refused (by simp)
  | writes named =>
      obtain ⟨block, outOfBounds⟩ := Journal.outOfBounds_of_error refused
      exact absurd outOfBounds (other _ _)

end Changes

section Transferring

variable
  {gateway : Gateway}
  {journals : FileRole → Journal}
  {name : String}
  {blocks : List BlockNumber}
  {buffer : Buffer}
  {role : FileRole}

/-- What a request to read is answered is what the blocks got last. -/
theorem reply_read
    {images : List Page}
    (answered : ((read name blocks buffer).reply gateway journals).outcome = .ok images) :
    ∃ role, gateway.session.roleOf name = some role ∧
      List.Forall₂ (fun block image => (journals role).Shows block.toNat image) blocks images := by
  rw [reply] at answered
  split at answered
  · exact absurd answered (by simp)
  · next role granted =>
      have returned := Journal.outcome_of_ok answered (blocks.map fun block =>
        (journals role).block block.toNat)
      obtain rfl := Except.ok.inj (returned.symm.trans answered)
      refine ⟨role, Gateway.roleOf_of_granted granted, ?_⟩
      rw [List.forall₂_map_right_iff, List.forall₂_same]
      exact fun block _ => (journals role).shows_block block.toNat

theorem reply_establish
    {count start : BlockNumber}
    {requestedBlockSize : Nat}
    (nominated : gateway.nominate name count.toNat requestedBlockSize buffer.size = .ok role)
    (accepted :
      Gateway.acceptImages start (Page.allOf buffer) (journals role).length = .ok ()) :
    (establish name buffer count requestedBlockSize start).reply gateway journals =
      ⟨.ok [], gateway.setOpen role true,
        Function.update journals role
          ((journals role).place start.toNat (Page.allOf buffer))⟩ := by
  rw [reply, nominated]
  dsimp only
  rw [accepted]

theorem reply_established
    {count : BlockNumber}
    {requestedBlockSize : Nat}
    {start : BlockNumber}
    {images : List Page}
    (answered :
      ((establish name buffer count requestedBlockSize start).reply gateway journals).outcome =
        .ok images) :
    ∃ role, gateway.session.roleOf name = some role ∧
      ((establish name buffer count requestedBlockSize start).reply gateway journals).journals
          role =
        (journals role).place start.toNat (Page.allOf buffer) := by
  rw [reply] at answered ⊢
  split at answered
  · exact absurd answered (by simp)
  · next role nominated =>
      split at answered
      · exact absurd answered (by simp)
      · next accepted =>
          exact ⟨role, Gateway.roleOf_of_nominated nominated, Function.update_self ..⟩

theorem reply_write
    (journals : FileRole → Journal)
    (granted : gateway.grant name blocks.length buffer.size = .ok role) :
    ((write name blocks buffer).reply gateway journals).outcome =
        (journals role).outcome (gateway.session.relation role) blocks [] ∧
      ((write name blocks buffer).reply gateway journals).journals role =
        (journals role).transfer (deposits blocks (Page.allOf buffer)) := by
  rw [reply, granted]
  exact ⟨rfl, Function.update_self ..⟩

end Transferring

end Request

/-! ## Runs -/

/-- A request, what came of it, and the states before and after it. -/
structure Exchange (σ : Type) where
  request : Request
  before : Gateway × σ
  outcome : Except Fault (List Page)
  after : Gateway × σ

/-- An exchange does what its request does on two independent arrays of blocks. The journals
of the two files before it lead to those after it. -/
structure Exchange.Agrees
    {σ : Type}
    [StorageView σ]
    (session : Session)
    (exchange : Exchange σ)
    (journals next : FileRole → Journal) : Prop where
  sameSession : exchange.after.1.session = session
  held : session.Holds journals (contents exchange.before.2)
  holds : session.Holds next (contents exchange.after.2)
  replied :
    exchange.request.reply exchange.before.1 journals =
      ⟨exchange.outcome, exchange.after.1, next⟩
  first : ∀ role, (next role).first = (journals role).first
  /-- What is read is what the blocks got last, in the order of the request. -/
  reads :
    ∀ {name blocks buffer images}, exchange.request = .read name blocks buffer →
      exchange.outcome = .ok images →
        ∃ role, session.roleOf name = some role ∧
          List.Forall₂ (fun block image => (journals role).Shows block.toNat image) blocks images
  /-- No relation is changed but the one behind the file that the request names. -/
  elsewhere :
    ∀ relation,
      (∀ name role, exchange.request.file = some name → session.roleOf name = some role →
        relation ≠ session.relation role) →
      contents exchange.after.2 relation = contents exchange.before.2 relation
  lengths :
    ¬exchange.request.Establishes → ∀ relation,
      (contents exchange.after.2 relation).map (fun found => found.pages.length) =
        (contents exchange.before.2 relation).map fun found => found.pages.length
  /-- An established file gets all images, from the block on that was asked for. -/
  established :
    ∀ {name buffer count requestedBlockSize start images},
      exchange.request = .establish name buffer count requestedBlockSize start →
      exchange.outcome = .ok images →
        ∃ role, session.roleOf name = some role ∧
          (next role).entries =
            (placements start.toNat (Page.allOf buffer)).reverse ++ (journals role).entries ∧
          (Page.allOf buffer ≠ [] →
            (next role).length =
              max (journals role).length (start.toNat + (Page.allOf buffer).length))
  /-- A file whose blocks are written to gets all images if it has all the blocks. -/
  written :
    ∀ {name blocks buffer role}, exchange.request = .write name blocks buffer →
      exchange.before.1.grant name blocks.length buffer.size = .ok role →
      (∀ block ∈ blocks, block.toNat < (journals role).length) →
        exchange.outcome = .ok [] ∧
          (next role).entries =
            (deposits blocks (Page.allOf buffer)).reverse ++ (journals role).entries
  /-- Otherwise it gets the images before the first block that it lacks. -/
  stopped :
    ∀ {name blocks buffer role position block}, exchange.request = .write name blocks buffer →
      exchange.before.1.grant name blocks.length buffer.size = .ok role →
      blocks[position]? = some block →
      (∀ earlier ∈ blocks.take position, earlier.toNat < (journals role).length) →
      (journals role).length ≤ block.toNat →
        exchange.outcome = .error (.blockOutOfBounds (session.relation role) block) ∧
          (next role).entries =
            (deposits (blocks.take position) ((Page.allOf buffer).take position)).reverse ++
              (journals role).entries
  /-- A request that is refused for any other reason transfers nothing. -/
  rejected :
    ∀ {fault}, exchange.outcome = .error fault →
      (∀ relation block, fault ≠ .blockOutOfBounds relation block) →
        next = journals ∧ contents exchange.after.2 = contents exchange.before.2
  idle : ¬exchange.request.Establishes → ¬exchange.request.Overwrites → next = journals

/-- A run agrees with the journals that it begins with: each of its exchanges does. -/
inductive Agree
    {σ : Type}
    [StorageView σ]
    (session : Session) : (FileRole → Journal) → List (Exchange σ) → Prop where
  | nil {journals : FileRole → Journal} : Agree session journals []
  | cons
      {journals next : FileRole → Journal}
      {exchange : Exchange σ}
      {rest : List (Exchange σ)}
      (agrees : exchange.Agrees session journals next)
      (later : Agree session next rest) :
      Agree session journals (exchange :: rest)

section Running

variable {σ : Type} [Storage σ]

def Request.exchange (request : Request) (state : Gateway × σ) : Exchange σ where
  request := request
  before := state
  outcome := (request.action.runOn state).1
  after := (request.action.runOn state).2

/-- The exchanges of requests that are made one after the other. -/
def exchanges : List Request → Gateway × σ → List (Exchange σ)
  | [], _ => []
  | request :: rest, state =>
      request.exchange state :: exchanges rest (request.exchange state).after

variable
  [LawfulStorage σ]
  {gateway : Gateway}
  {journals : FileRole → Journal}
  {state : σ}

/-- What a request leaves of a relation whose journal, if it has one, stays the same. -/
theorem Serves.same_relation
    {reply : Reply}
    {outcome : Except Fault (List Page)}
    {left : Gateway × σ}
    (serves : Serves gateway.session reply outcome left)
    (keeps : Keeps gateway.session.Owns state left.2)
    (holds : gateway.session.Holds journals (contents state))
    {relation : RelationId}
    (same :
      ∀ role, relation = gateway.session.relation role → reply.journals role = journals role) :
    contents left.2 relation = contents state relation := by
  by_cases owned : gateway.session.Owns relation
  · obtain ⟨role, rfl⟩ := owned
    rw [serves.holds role, holds role, same role rfl]
  · exact keeps.same relation owned

theorem Serves.same_length
    {reply : Reply}
    {outcome : Except Fault (List Page)}
    {left : Gateway × σ}
    (serves : Serves gateway.session reply outcome left)
    (keeps : Keeps gateway.session.Owns state left.2)
    (holds : gateway.session.Holds journals (contents state))
    (same : ∀ role, (reply.journals role).length = (journals role).length)
    (relation : RelationId) :
    (contents left.2 relation).map (fun found => found.pages.length) =
      (contents state relation).map fun found => found.pages.length := by
  by_cases owned : gateway.session.Owns relation
  · obtain ⟨role, rfl⟩ := owned
    rw [serves.holds role, holds role]
    simp [same role]
  · rw [keeps.same relation owned]

variable [PreciseStorage σ]

/-- Every request is served as on two arrays of blocks. -/
theorem Request.action_serves
    (sound : Sound state)
    (distinct : gateway.session.tableRelation ≠ gateway.session.indexRelation)
    (holds : gateway.session.Holds journals (contents state))
    (request : Request) :
    request.action.Yields (gateway, state)
      (Serves gateway.session (request.reply gateway journals)) := by
  cases request with
  | establish name buffer count requestedBlockSize start =>
      exact establish_serves sound distinct holds name buffer count requestedBlockSize start
  | write name blocks buffer => exact write_serves sound distinct holds name blocks buffer
  | read name blocks buffer => exact read_serves sound holds name blocks buffer
  | close name =>
      refine yields_get_bind ?_
      cases closes : gateway.close name with
      | error fault =>
          simp only [reply, closes]
          exact yields_lift_bind_stop rfl ⟨rfl, rfl, sound, holds⟩
      | ok closed =>
          simp only [reply, closes]
          refine yields_lift_bind_value rfl (yields_set_bind (yields_pure ?_))
          exact ⟨rfl, rfl, sound, holds⟩
  | closeAll => exact yields_modify_bind (yields_pure ⟨rfl, rfl, sound, holds⟩)

theorem Request.exchange_serves
    (sound : Sound state)
    (distinct : gateway.session.tableRelation ≠ gateway.session.indexRelation)
    (holds : gateway.session.Holds journals (contents state))
    (request : Request) :
    Serves gateway.session (request.reply gateway journals)
      (request.exchange (gateway, state)).outcome (request.exchange (gateway, state)).after :=
  request.action_serves sound distinct holds

/-- What one exchange does to the journals. -/
theorem Request.exchange_agrees
    (sound : Sound state)
    (distinct : gateway.session.tableRelation ≠ gateway.session.indexRelation)
    (holds : gateway.session.Holds journals (contents state))
    (request : Request) :
    (request.exchange (gateway, state)).Agrees gateway.session journals
      (request.reply gateway journals).journals := by
  have serves := request.exchange_serves sound distinct holds
  have keeps :
      Keeps gateway.session.Owns state (request.exchange (gateway, state)).after.2 :=
    request.action_keeps gateway state
  have changes := request.reply_changes gateway journals
  exact {
    sameSession := by rw [serves.gateway, request.session_reply]
    held := holds
    holds := serves.holds
    replied := by
      rw [serves.outcome, serves.gateway]
      rfl
    first := changes.first
    reads := by
      intro name blocks buffer images isRead answered
      change request = _ at isRead
      subst isRead
      exact Request.reply_read (serves.outcome ▸ answered)
    elsewhere := by
      intro relation other
      apply serves.same_relation keeps holds
      intro role behind
      exact changes.elsewhere fun name named found => other name role named found behind
    lengths := fun only => serves.same_length keeps holds (changes.length only)
    established := by
      intro name buffer count requestedBlockSize start images isEstablish answered
      change request = _ at isEstablish
      subst isEstablish
      obtain ⟨role, named, placed⟩ := Request.reply_established (serves.outcome ▸ answered)
      refine ⟨role, named, ?_, fun nonempty => ?_⟩
      · rw [placed, Journal.entries_place]
      · rw [placed, Journal.length_place_of_ne_nil _ nonempty]
    written := by
      intro name blocks buffer role isWrite granted has
      change request = _ at isWrite
      change gateway.grant _ _ _ = _ at granted
      subst isWrite
      obtain ⟨answered, transferred⟩ := Request.reply_write journals granted
      rw [serves.outcome, answered, transferred]
      exact ⟨Journal.outcome_of_has has, Journal.entries_deposits_of_has has _⟩
    stopped := by
      intro name blocks buffer role position block isWrite granted there has lacks
      change request = _ at isWrite
      change gateway.grant _ _ _ = _ at granted
      subst isWrite
      obtain ⟨answered, transferred⟩ := Request.reply_write journals granted
      rw [serves.outcome, answered, transferred]
      exact
        ⟨Journal.outcome_of_lacks there has lacks,
          Journal.entries_deposits_of_lacks there has lacks⟩
    rejected := by
      intro fault refused other
      have same := changes.rejected (serves.outcome ▸ refused) other
      exact
        ⟨same, funext fun relation =>
          serves.same_relation keeps holds fun role _ => congrFun same role⟩
    idle := changes.idle }

/-- A run of requests agrees with the journals of the files that it begins with. -/
theorem agree_of_holds
    (sound : Sound state)
    (distinct : gateway.session.tableRelation ≠ gateway.session.indexRelation)
    (holds : gateway.session.Holds journals (contents state))
    (requests : List Request) :
    Agree gateway.session journals (exchanges requests (gateway, state)) := by
  induction requests generalizing gateway journals state with
  | nil => exact .nil
  | cons request rest inductionHypothesis =>
      have agrees := request.exchange_agrees sound distinct holds
      have serves := request.exchange_serves sound distinct holds
      have distinctLater :
          (request.exchange (gateway, state)).after.1.session.tableRelation ≠
            (request.exchange (gateway, state)).after.1.session.indexRelation := by
        rwa [agrees.sameSession]
      have holdsLater :
          (request.exchange (gateway, state)).after.1.session.Holds
            (request.reply gateway journals).journals
            (contents (request.exchange (gateway, state)).after.2) := by
        rw [agrees.sameSession]
        exact agrees.holds
      have later := inductionHypothesis serves.sound distinctLater holdsLater
      rw [agrees.sameSession] at later
      exact .cons agrees later

/-- Every run of requests on the two files of a session does what it would do on two
independent arrays of blocks, which hold at first what the files hold. -/
theorem requests_agree
    {files : FileRole → Relation}
    (sound : Sound state)
    (distinct : gateway.session.tableRelation ≠ gateway.session.indexRelation)
    (present : ∀ role, contents state (gateway.session.relation role) = some (files role))
    (requests : List Request) :
    Agree gateway.session (fun role => .start (files role)) (exchanges requests (gateway, state)) :=
  agree_of_holds sound distinct
    (fun role => (present role).trans (congrArg some (Journal.relation_start _).symm)) requests

end Running

/-! ## Two small files -/

/-- A session whose table file is the first relation and whose index file is the second. -/
def pairSession : Session where
  tableFile := "t"
  indexFile := "i"
  tableRelation := 1
  indexRelation := 2
  layout := none
  names_ne := by decide

def pairRequests : List Request :=
  [.establish "t" Page.zero.toBuffer 1 blockSize 1,
    .write "t" [0, 0, 9] (Buffer.zeros (3 * blockSize)),
    .close "i",
    .read "t" [1, 0, 1] (Buffer.zeros (3 * blockSize)),
    .read "i" [0] (Buffer.zeros blockSize)]

/-- A store in memory with two empty relations. -/
def pairStore : MemoryStorage := ⟨blockSize, #[#[], #[]]⟩

theorem requests_agree_pair :
    Sound pairStore ∧
      Agree pairSession (fun _ => .start .created)
        (exchanges pairRequests (Gateway.opened pairSession, pairStore)) := by
  have sound : Sound pairStore := rfl
  have distinct :
      (Gateway.opened pairSession).session.tableRelation ≠
        (Gateway.opened pairSession).session.indexRelation := by
    decide
  have present :
      ∀ role, contents pairStore ((Gateway.opened pairSession).session.relation role) =
        some Relation.created := by
    intro role
    cases role <;> rfl
  exact ⟨sound, requests_agree sound distinct present pairRequests⟩

/-- A directory in which the file of the first relation is one byte long, and that of the second
is empty. -/
def partDirectory : Directory := ⟨[("1", #[7]), ("2", #[])]⟩

def partFiles : FileRole → Buffer
  | .table => #[7]
  | .index => #[]

def partJournals : FileRole → Journal := fun role => .start (fileRelation (partFiles role))

/-- The journals of the two files after one image was placed behind their first block. -/
def bridgedJournals : FileRole → Journal :=
  Function.update partJournals .table ((partJournals .table).place 1 [Page.dummy])

theorem partDirectory_sound : Sound (FileStorage.openAt partDirectory) := by
  intro relation contents present
  obtain ⟨file, found, rfl⟩ := Option.map_eq_some_iff.mp present
  have few : file.2.size ≤ 1 := by
    rcases List.mem_cons.mp (List.mem_of_find?_eq_some found) with rfl | member
    · decide
    · rw [List.mem_singleton.mp member]
      decide
  exact Nat.lt_of_le_of_lt (Nat.div_le_self _ _) (Nat.lt_of_le_of_lt few (by decide))

theorem partDirectory_holds :
    pairSession.Holds partJournals (contents (FileStorage.openAt partDirectory)) := by
  intro role
  rw [partJournals, Journal.relation_start]
  cases role <;> rfl

theorem reply_establish_bridged :
    (Request.establish "t" Page.dummy.toBuffer 1 blockSize 1).reply (Gateway.opened pairSession)
        partJournals =
      ⟨.ok [], (Gateway.opened pairSession).setOpen .table true, bridgedJournals⟩ := by
  have nominated :
      (Gateway.opened pairSession).nominate "t" (1 : BlockNumber).toNat blockSize
        Page.dummy.toBuffer.size = .ok .table := by
    rw [Page.size_toBuffer]
    decide
  have accepted :
      Gateway.acceptImages 1 (Page.allOf Page.dummy.toBuffer) (partJournals .table).length =
        .ok () := by
    rw [Page.allOf_toBuffer]
    refine Gateway.acceptImages_eq_ok (by decide) ?_ (by decide)
    exact fun image member => List.mem_singleton.mp member ▸ Gateway.acceptable_forRecords _
  have replied := Request.reply_establish nominated accepted
  rw [Page.allOf_toBuffer] at replied
  exact replied

theorem block_bridged : (bridgedJournals .table).block 0 = Page.atPosition #[7] 0 := by
  have entries : (bridgedJournals .table).entries = [(1, Page.dummy)] := by
    rw [bridgedJournals, Function.update_self, Journal.entries_place]
    rfl
  have first : (bridgedJournals .table).first = fileRelation #[7] := by
    rw [bridgedJournals, Function.update_self, Journal.first_place]
    rfl
  have none : List.lookup 0 [(1, Page.dummy)] = none := rfl
  have whole : (#[7] : Buffer).size / blockSize = 0 := by decide
  have pages : (fileRelation #[7]).pages = [] :=
    List.eq_nil_of_length_eq_zero ((length_fileRelation _).trans whole)
  rw [Journal.block, entries, first, none, Option.getD_none, Relation.initial, pages,
    List.getD_nil, List.length_nil, if_pos rfl, fileRelation, whole, Nat.zero_mul]

theorem reply_read_bridged :
    ((Request.read "t" [0] (Buffer.zeros blockSize)).reply (Gateway.opened pairSession)
        bridgedJournals).outcome = .ok [Page.atPosition #[7] 0] := by
  have granted :
      (Gateway.opened pairSession).grant "t" 1 (Buffer.zeros blockSize).size = .ok .table := by
    rw [Buffer.zeros, Array.size_replicate]
    decide
  have has : ∀ block ∈ [(0 : BlockNumber)], block.toNat < (bridgedJournals .table).length := by
    intro block member
    rw [bridgedJournals, Function.update_self, Journal.length_place_of_ne_nil _ (by simp),
      List.mem_singleton.mp member]
    exact Nat.lt_of_lt_of_le (Nat.zero_lt_succ 1) (Nat.le_max_right ..)
  simp only [Request.reply, List.length_singleton, granted]
  rw [Journal.outcome_of_has has, List.map_singleton, UInt32.toNat_zero, block_bridged]

/-- The block that bridges the gap before an established image is not zero-filled if the file
began with a part of a block. -/
theorem not_bridged_zero :
    (exchanges
          [.establish "t" Page.dummy.toBuffer 1 blockSize 1,
            .read "t" [0] (Buffer.zeros blockSize)]
          (Gateway.opened pairSession, FileStorage.openAt partDirectory)).map
        Exchange.outcome = [.ok [], .ok [Page.atPosition #[7] 0]] ∧
      Page.atPosition #[7] 0 ≠ Page.zero := by
  constructor
  · have distinct :
        (Gateway.opened pairSession).session.tableRelation ≠
          (Gateway.opened pairSession).session.indexRelation := by
      decide
    have established :=
      (Request.establish "t" Page.dummy.toBuffer 1 blockSize 1).exchange_serves
        partDirectory_sound distinct partDirectory_holds
    rw [reply_establish_bridged] at established
    rw [exchanges, exchanges, exchanges, List.map_cons, List.map_singleton, established.outcome]
    generalize (Request.exchange _ (_, FileStorage.openAt partDirectory)).after = left
      at established ⊢
    obtain ⟨gateway, store⟩ := left
    obtain rfl : gateway = Gateway.opened pairSession := established.gateway
    have read :=
      (Request.read "t" [0] (Buffer.zeros blockSize)).exchange_serves established.sound distinct
        established.holds
    rw [read.outcome, reply_read_bridged]
  · intro same
    have first := congrArg (fun page : Page => page.byte 0) same
    simp only [Page.byte_zero, Page.byte_atPosition _ _ (show 0 < blockSize by decide)] at first
    exact absurd first (by decide)

end ObliviousStorage

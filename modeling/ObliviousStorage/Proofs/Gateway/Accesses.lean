import ObliviousStorage.Proofs.Gateway.Arrays
import ObliviousStorage.Proofs.Storage.Lengths

/-!
Contract: which blocks a gateway asks its store for.

Owns: `Access`, the requests that read, write and close files, and runs of them; `accounts`,
which transfers each access asks for and how it ends, as a function of what is open, of the
names, block numbers and buffer lengths of the accesses and of how long the two files are; and
that over a store in memory that records transfers every run asks for these and ends like this.

What blocks hold and which images are written enters no account, so two runs that agree on the
rest cannot be told apart by their transfers and faults.

Does not own: establishing a file, which looks at its images.
-/

namespace ObliviousStorage

open StorageM StorageView

/-! ## What an access asks for -/

/-- A request that reads, writes or closes a file, with its arguments. -/
inductive Access where
  | write (name : String) (blocks : List BlockNumber) (buffer : Buffer)
  | read (name : String) (blocks : List BlockNumber) (buffer : Buffer)
  | close (name : String)
  | closeAll

def Access.request : Access → Request
  | .write name blocks buffer => .write name blocks buffer
  | .read name blocks buffer => .read name blocks buffer
  | .close name => .close name
  | .closeAll => .closeAll

/-- The transfers that an access asks for, and how it ends. -/
structure Account where
  transfers : List Transfer
  verdict : Except Fault Unit

/-- The blocks of a list, cut behind the first one that a relation of this length lacks. -/
def askedFor (length : Nat) (blocks : List BlockNumber) : List BlockNumber :=
  blocks.take (blocks.findIdx (fun block => length ≤ block.toNat) + 1)

/-- Blocks of a relation, asked for in order until one is not there. -/
def Account.ofBlocks
    (transfer : RelationId → BlockNumber → Transfer)
    (relation : RelationId)
    (length : Nat)
    (blocks : List BlockNumber) : Account where
  transfers := (askedFor length blocks).map (transfer relation)
  verdict :=
    match blocks.find? fun block => length ≤ block.toNat with
    | some block => .error (.blockOutOfBounds relation block)
    | none => .ok ()

/-- The file whose blocks are to be read or written, if the store and the request pass the
checks. -/
def Gateway.permit
    (gateway : Gateway)
    (blockBytes : Nat)
    (name : String)
    (blocks length : Nat) : Except Fault FileRole := do
  require (blockBytes = blockSize) (.sizeMismatch blockSize blockBytes)
  gateway.grant name blocks length

namespace Access

/-- The blocks of the file that is named, if the access is admitted. -/
def transferAccount
    (gateway : Gateway)
    (blockBytes : Nat)
    (lengths : FileRole → Nat)
    (transfer : RelationId → BlockNumber → Transfer)
    (name : String)
    (blocks : List BlockNumber)
    (length : Nat) : Account :=
  match gateway.permit blockBytes name blocks.length length with
  | .error fault => ⟨[], .error fault⟩
  | .ok role => .ofBlocks transfer (gateway.session.relation role) (lengths role) blocks

/-- What comes of an access on a store with blocks of this size, if the two files have these
lengths. -/
def account (gateway : Gateway) (blockBytes : Nat) (lengths : FileRole → Nat) : Access → Account
  | .write name blocks buffer =>
      transferAccount gateway blockBytes lengths .write name blocks buffer.size
  | .read name blocks buffer =>
      transferAccount gateway blockBytes lengths .read name blocks buffer.size
  | .close name => ⟨[], (gateway.close name).map fun _ => ()⟩
  | .closeAll => ⟨[], .ok ()⟩

/-- Which files are open after an access. -/
def leaves (gateway : Gateway) : Access → Gateway
  | .close name =>
      match gateway.close name with
      | .ok closed => closed
      | .error _ => gateway
  | .closeAll => gateway.allClosed
  | .write .. | .read .. => gateway

end Access

/-- What comes of accesses that are made one after the other. -/
def accounts (blockBytes : Nat) (lengths : FileRole → Nat) : Gateway → List Access → List Account
  | _, [] => []
  | gateway, access :: rest =>
      access.account gateway blockBytes lengths ::
        accounts blockBytes lengths (access.leaves gateway) rest

/-! ## Transfers that are accounted for -/

/-- The transfers and the end of an action are those of an account, and no size has changed. -/
structure Accounted
    (before : Traced MemoryStorage)
    (account : Account)
    (outcome : Except Fault Unit)
    (after : Traced MemoryStorage) : Prop where
  verdict : outcome = account.verdict
  trace : after.trace.toList = before.trace.toList ++ account.transfers
  blockBytes : after.inner.blockBytes = before.inner.blockBytes
  lengths : ∀ relation, after.inner.length? relation = before.inner.length? relation

section Transferring

variable
  {store : Traced MemoryStorage}
  {relation : RelationId}
  {length : Nat}
  {block : BlockNumber}
  {blocks : List BlockNumber}

theorem Account.ofBlocks_cons_of_has
    (transfer : RelationId → BlockNumber → Transfer)
    (has : block.toNat < length) :
    Account.ofBlocks transfer relation length (block :: blocks) =
      ⟨transfer relation block :: (Account.ofBlocks transfer relation length blocks).transfers,
        (Account.ofBlocks transfer relation length blocks).verdict⟩ := by
  simp [Account.ofBlocks, askedFor, Nat.not_le_of_lt has, List.findIdx_cons]

theorem Account.ofBlocks_cons_of_lacks
    (transfer : RelationId → BlockNumber → Transfer)
    (lacks : length ≤ block.toNat) :
    Account.ofBlocks transfer relation length (block :: blocks) =
      ⟨[transfer relation block], .error (.blockOutOfBounds relation block)⟩ := by
  simp [Account.ofBlocks, askedFor, lacks, List.findIdx_cons]

namespace Accounted

variable
  {transfer : RelationId → BlockNumber → Transfer}
  {before between after : Traced MemoryStorage}
  {outcome : Except Fault Unit}

theorem refused (store : Traced MemoryStorage) (fault : Fault) :
    Accounted store ⟨[], .error fault⟩ (.error fault) store :=
  ⟨rfl, (List.append_nil _).symm, rfl, fun _ => rfl⟩

theorem done (store : Traced MemoryStorage) : Accounted store ⟨[], .ok ()⟩ (.ok ()) store :=
  ⟨rfl, (List.append_nil _).symm, rfl, fun _ => rfl⟩

/-- After a block that is there come the others. -/
theorem next
    (first : Accounted before (.ofBlocks transfer relation length [block]) (.ok ()) between)
    (others : Accounted between (.ofBlocks transfer relation length blocks) outcome after) :
    Accounted before (.ofBlocks transfer relation length (block :: blocks)) outcome after := by
  rcases Nat.lt_or_ge block.toNat length with has | lacks
  · have trace := first.trace
    rw [Account.ofBlocks_cons_of_has transfer has] at trace ⊢
    refine ⟨others.verdict, ?_, others.blockBytes.trans first.blockBytes, ?_⟩
    · rw [others.trace, trace, List.append_assoc]
      rfl
    · exact fun relation => (others.lengths relation).trans (first.lengths relation)
  · have verdict := first.verdict
    rw [Account.ofBlocks_cons_of_lacks transfer lacks] at verdict
    exact absurd verdict (by simp)

/-- A block that is not there is the last one asked for. -/
theorem stop
    {fault : Fault}
    (first : Accounted before (.ofBlocks transfer relation length [block]) (.error fault) after) :
    Accounted before (.ofBlocks transfer relation length (block :: blocks)) (.error fault)
      after := by
  rcases Nat.lt_or_ge block.toNat length with has | lacks
  · have verdict := first.verdict
    rw [Account.ofBlocks_cons_of_has transfer has] at verdict
    exact absurd verdict (by simp [Account.ofBlocks])
  · rw [Account.ofBlocks_cons_of_lacks transfer lacks] at first ⊢
    exact first

end Accounted

/-- One read is accounted for like a list of one block. -/
theorem read_accounted
    (sized : store.inner.blockBytes = blockSize)
    (long : store.inner.length? relation = some length)
    (block : BlockNumber) :
    (Storage.read relation block : StorageM (Traced MemoryStorage) Page).Yields store
      fun outcome left =>
        Accounted store (.ofBlocks .read relation length [block]) (outcome.map fun _ => ())
          left := by
  have ran :
      (Storage.read relation block : StorageM (Traced MemoryStorage) Page).runOn store =
        (store.inner.page relation block,
          ⟨store.inner, store.trace.push (.read relation block)⟩) := rfl
  apply yields_of_runOn ran
  rcases Nat.lt_or_ge block.toNat length with has | lacks
  · obtain ⟨page, found⟩ := MemoryStorage.page_of_has sized long has
    rw [Account.ofBlocks_cons_of_has .read has, found]
    exact ⟨rfl, Array.toList_push, rfl, fun _ => rfl⟩
  · rw [Account.ofBlocks_cons_of_lacks .read lacks, MemoryStorage.page_of_lacks long lacks]
    exact ⟨rfl, Array.toList_push, rfl, fun _ => rfl⟩

theorem write_accounted
    (sized : store.inner.blockBytes = blockSize)
    (long : store.inner.length? relation = some length)
    (block : BlockNumber)
    (page : Page) :
    (Storage.write relation block page : StorageM (Traced MemoryStorage) Unit).Yields store
      fun outcome left =>
        Accounted store (.ofBlocks .write relation length [block]) outcome left := by
  have inner :
      (Storage.write relation block page : StorageM MemoryStorage Unit).Yields store.inner
        fun outcome left =>
          Accounted store (.ofBlocks .write relation length [block]) outcome
            ⟨left, store.trace.push (.write relation block)⟩ := by
    refine yields_get_bind ?_
    rcases Nat.lt_or_ge block.toNat length with has | lacks
    · rw [Account.ofBlocks_cons_of_has .write has]
      apply yields_lift_bind_value (MemoryStorage.checkWrite_of_has sized long has)
      exact yields_set
        ⟨rfl, Array.toList_push, rfl, MemoryStorage.length?_overwritten long block.toNat page⟩
    · rw [Account.ofBlocks_cons_of_lacks .write lacks]
      apply yields_lift_bind_stop (MemoryStorage.checkWrite_of_lacks sized long lacks)
      exact ⟨rfl, Array.toList_push, rfl, fun _ => rfl⟩
  exact inner

/-- Reading blocks in order asks for them up to the first one that is not there. -/
theorem copyBlocks_accounted
    (sized : store.inner.blockBytes = blockSize)
    (long : store.inner.length? relation = some length)
    (blocks : List BlockNumber)
    (place : Nat)
    (buffer : Buffer) :
    (Gateway.copyBlocks relation place blocks :
        StorageM (Buffer × Traced MemoryStorage) Unit).Yields (buffer, store)
      fun outcome left =>
        Accounted store (.ofBlocks .read relation length blocks) outcome left.2 := by
  induction blocks generalizing store place buffer with
  | nil => exact yields_pure (.done store)
  | cons block rest inductionHypothesis =>
      apply yields_onSecond_bind (read_accounted sized long block)
      · intro page between first
        apply yields_modify_bind
        have stillSized := first.blockBytes.trans sized
        have stillLong := (first.lengths relation).trans long
        exact (inductionHypothesis stillSized stillLong _ _).weaken fun _ _ => first.next
      · exact fun fault between first => first.stop

/-- Writing images to blocks in order asks for these up to the first one that is not there. -/
theorem writeImages_accounted
    (sized : store.inner.blockBytes = blockSize)
    (long : store.inner.length? relation = some length)
    {blocks : List BlockNumber}
    {images : List Page}
    (together : blocks.length = images.length) :
    (Gateway.writeImages relation blocks images :
        StorageM (Traced MemoryStorage) Unit).Yields store
      fun outcome left =>
        Accounted store (.ofBlocks .write relation length blocks) outcome left := by
  induction blocks generalizing store images with
  | nil => exact yields_pure (.done store)
  | cons block rest inductionHypothesis =>
      cases images with
      | nil => exact absurd together (by simp)
      | cons image images =>
          apply yields_bind (write_accounted sized long block image)
          · intro _ between first
            have stillSized := first.blockBytes.trans sized
            have stillLong := (first.lengths relation).trans long
            have later := inductionHypothesis stillSized stillLong (Nat.succ.inj together)
            exact later.weaken fun _ _ => first.next
          · exact fun fault between first => first.stop

end Transferring

/-! ## Accesses that are accounted for -/

/-- The two relations of a session exist and have these lengths. -/
def Session.HasLengths
    (session : Session)
    (lengths : FileRole → Nat)
    (store : MemoryStorage) : Prop :=
  ∀ role, store.length? (session.relation role) = some (lengths role)

section Serving

variable
  {gateway : Gateway}
  {lengths : FileRole → Nat}
  {store : Traced MemoryStorage}

theorem Gateway.authorize_admits
    (gateway : Gateway)
    (store : Traced MemoryStorage)
    (name : String)
    (blocks length : Nat) :
    (gateway.authorize name blocks length : StorageM (Traced MemoryStorage) RelationId).Yields
      store fun outcome left =>
        outcome =
            (gateway.permit store.inner.blockBytes name blocks length).map
              gateway.session.relation ∧
          left = store := by
  have sizes :
      (requirePageSized : StorageM (Traced MemoryStorage) Unit).Yields store fun outcome left =>
        outcome =
            require (store.inner.blockBytes = blockSize)
              (.sizeMismatch blockSize store.inner.blockBytes) ∧
          left = store :=
    yields_get_bind (yields_lift ⟨rfl, rfl⟩)
  rw [permit]
  cases checked :
      require (store.inner.blockBytes = blockSize)
        (.sizeMismatch blockSize store.inner.blockBytes) with
  | error fault =>
      rw [checked] at sizes
      apply yields_bind_stop
      exact sizes.weaken fun _ _ refused => ⟨refused.1, rfl, refused.2⟩
  | ok done =>
      rw [checked] at sizes
      refine yields_bind_value sizes fun between same => ?_
      rw [same]
      show (do requireLength blocks length; gateway.relationNamed name :
        StorageM (Traced MemoryStorage) RelationId).Yields _ _
      cases measured : requireLength blocks length with
      | error fault => exact yields_lift_bind_stop rfl ⟨by simp [grant, measured]; rfl, rfl⟩
      | ok done =>
          rw [relationNamed_eq]
          exact yields_lift ⟨by simp [grant, measured]; rfl, rfl⟩

/-- A transfer is admitted, and then asks for the blocks that are listed. -/
theorem Access.write_accounted
    (exist : gateway.session.HasLengths lengths store.inner)
    (name : String)
    (blocks : List BlockNumber)
    (buffer : Buffer) :
    (gateway.write name blocks buffer : StorageM (Traced MemoryStorage) Unit).Yields store
      fun outcome left =>
        Accounted store
          (transferAccount gateway store.inner.blockBytes lengths .write name blocks buffer.size)
          outcome left := by
  have admits := gateway.authorize_admits store name blocks.length buffer.size
  rw [transferAccount]
  cases admitted : gateway.permit store.inner.blockBytes name blocks.length buffer.size with
  | error fault =>
      rw [admitted] at admits
      apply yields_bind_stop
      exact admits.weaken fun _ _ refused => ⟨refused.1, refused.2 ▸ .refused store fault⟩
  | ok role =>
      rw [admitted] at admits
      obtain ⟨_, sized, granted⟩ := bind_eq_ok_iff.mp admitted
      obtain ⟨_, measured, -⟩ := bind_eq_ok_iff.mp granted
      have together : blocks.length = (Page.allOf buffer).length := by
        rw [Page.length_allOf, require_eq_ok_iff.mp measured, Nat.mul_div_cancel _ (by decide)]
      refine yields_bind_value admits fun between same => ?_
      rw [same]
      exact writeImages_accounted (require_eq_ok_iff.mp sized) (exist role) together

theorem Access.read_accounted
    (exist : gateway.session.HasLengths lengths store.inner)
    (name : String)
    (blocks : List BlockNumber)
    (buffer : Buffer) :
    (gateway.read name blocks : StorageM (Buffer × Traced MemoryStorage) Unit).Yields
      (buffer, store) fun outcome left =>
        Accounted store
          (transferAccount gateway store.inner.blockBytes lengths .read name blocks buffer.size)
          outcome left.2 := by
  have admits := gateway.authorize_admits store name blocks.length buffer.size
  rw [transferAccount]
  refine yields_get_bind ?_
  cases admitted : gateway.permit store.inner.blockBytes name blocks.length buffer.size with
  | error fault =>
      rw [admitted] at admits
      refine yields_onSecond_bind admits (fun _ _ holds => absurd holds.1 (by simp [Except.map])) ?_
      intro other left refused
      have reason : other = fault := Except.error.inj refused.1
      rw [reason, refused.2]
      exact .refused store fault
  | ok role =>
      rw [admitted] at admits
      obtain ⟨_, sized, -⟩ := bind_eq_ok_iff.mp admitted
      refine yields_onSecond_bind admits ?_ fun _ _ holds => absurd holds.1 (by simp [Except.map])
      intro relation between holds
      rcases holds with ⟨result, same⟩
      rw [same, Except.ok.inj result]
      exact copyBlocks_accounted (require_eq_ok_iff.mp sized) (exist role) blocks 0 buffer

/-- An access asks for the transfers of its account, ends like it and leaves open what it
leaves. -/
theorem Access.request_accounted
    (exist : gateway.session.HasLengths lengths store.inner)
    (access : Access) :
    access.request.action.Yields (gateway, store) fun outcome left =>
      left.1 = access.leaves gateway ∧
        Accounted store (access.account gateway store.inner.blockBytes lengths)
          (outcome.map fun _ => ()) left.2 := by
  cases access with
  | write name blocks buffer =>
      refine yields_get_bind ?_
      have writes := write_accounted exist name blocks buffer
      refine yields_onSecond_bind writes ?_ ?_
      · exact fun _ left told => yields_pure ⟨rfl, told⟩
      · exact fun _ left told => ⟨rfl, told⟩
  | read name blocks buffer =>
      refine yields_get_bind ?_
      have reads :
          ((gateway.read name blocks : StorageM (Buffer × Traced MemoryStorage) Unit).withFirst
            buffer).Yields store fun outcome left =>
              Accounted store
                (transferAccount gateway store.inner.blockBytes lengths .read name blocks
                  buffer.size)
                (outcome.map fun _ => ()) left := by
        apply yields_withFirst_map
        apply (read_accounted exist name blocks buffer).weaken
        intro outcome left told
        cases outcome <;> exact told
      refine yields_onSecond_bind reads ?_ ?_
      · exact fun _ left told => yields_pure ⟨rfl, told⟩
      · exact fun _ left told => ⟨rfl, told⟩
  | close name =>
      refine yields_get_bind ?_
      rw [account, leaves]
      cases closes : gateway.close name with
      | error fault => exact yields_lift_bind_stop closes ⟨rfl, .refused store fault⟩
      | ok closed =>
          exact yields_lift_bind_value closes (yields_set_bind (yields_pure ⟨rfl, .done store⟩))
  | closeAll => exact yields_modify_bind (yields_pure ⟨rfl, .done store⟩)

end Serving

/-! ## Runs of accesses -/

/-- The state after requests that are made one after the other. -/
def afterRequests {σ : Type} [Storage σ] : List Request → Gateway × σ → Gateway × σ
  | [], state => state
  | request :: rest, state => afterRequests rest (request.exchange state).after

/-- How the requests of a run end, one after the other. -/
def verdicts {σ : Type} (run : List (Exchange σ)) : List (Except Fault Unit) :=
  run.map fun exchange => exchange.outcome.map fun _ => ()

/-- Two accesses that differ at most in the bytes of their buffers. -/
inductive Access.Alike : Access → Access → Prop where
  | write
      {name : String}
      {blocks : List BlockNumber}
      {one other : Buffer}
      (sizes : one.size = other.size) :
      Alike (.write name blocks one) (.write name blocks other)
  | read
      {name : String}
      {blocks : List BlockNumber}
      {one other : Buffer}
      (sizes : one.size = other.size) :
      Alike (.read name blocks one) (.read name blocks other)
  | close {name : String} : Alike (.close name) (.close name)
  | closeAll : Alike .closeAll .closeAll

section Running

variable
  {blockBytes : Nat}
  {lengths : FileRole → Nat}

theorem Access.Alike.account_eq
    {one other : Access}
    (alike : one.Alike other)
    (gateway : Gateway) :
    one.account gateway blockBytes lengths = other.account gateway blockBytes lengths := by
  cases alike with
  | write sizes => simp only [account, sizes]
  | read sizes => simp only [account, sizes]
  | close => rfl
  | closeAll => rfl

theorem Access.Alike.leaves_eq
    {one other : Access}
    (alike : one.Alike other)
    (gateway : Gateway) :
    one.leaves gateway = other.leaves gateway := by
  cases alike <;> rfl

/-- The accounts of a run do not depend on what its buffers hold. -/
theorem accounts_congr
    {accesses others : List Access}
    (alike : List.Forall₂ Access.Alike accesses others)
    (gateway : Gateway) :
    accounts blockBytes lengths gateway accesses = accounts blockBytes lengths gateway others := by
  induction alike generalizing gateway with
  | nil => rfl
  | cons first rest inductionHypothesis =>
      rw [accounts, accounts, first.account_eq, first.leaves_eq, inductionHypothesis]

variable {gateway : Gateway} {store : Traced MemoryStorage}

theorem Accounted.hasLengths
    {session : Session}
    {account : Account}
    {outcome : Except Fault Unit}
    {after : Traced MemoryStorage}
    (accounted : Accounted store account outcome after)
    (exist : session.HasLengths lengths store.inner) :
    session.HasLengths lengths after.inner :=
  fun role => (accounted.lengths _).trans (exist role)

theorem Access.session_leaves (access : Access) (gateway : Gateway) :
    (access.leaves gateway).session = gateway.session := by
  cases access with
  | write name blocks buffer => rfl
  | read name blocks buffer => rfl
  | close name =>
      rw [leaves]
      split
      · next closed closes => exact Gateway.session_of_closed closes
      · rfl
  | closeAll => rfl

/-- A run asks for the transfers of its accounts and ends like them. -/
theorem run_accounted
    (exist : gateway.session.HasLengths lengths store.inner)
    (accesses : List Access) :
    (afterRequests (accesses.map Access.request) (gateway, store)).2.trace.toList =
        store.trace.toList ++
          (accounts store.inner.blockBytes lengths gateway accesses).flatMap Account.transfers ∧
      verdicts (exchanges (accesses.map Access.request) (gateway, store)) =
        (accounts store.inner.blockBytes lengths gateway accesses).map Account.verdict := by
  induction accesses generalizing gateway store with
  | nil => exact ⟨(List.append_nil _).symm, rfl⟩
  | cons access rest inductionHypothesis =>
      have told :
          (access.request.exchange (gateway, store)).after.1 = access.leaves gateway ∧
            Accounted store (access.account gateway store.inner.blockBytes lengths)
              ((access.request.exchange (gateway, store)).outcome.map fun _ => ())
              (access.request.exchange (gateway, store)).after.2 :=
        Access.request_accounted exist access
      rcases told with ⟨opens, accounted⟩
      have state :
          (access.request.exchange (gateway, store)).after =
            (access.leaves gateway, (access.request.exchange (gateway, store)).after.2) := by
        rw [← opens]
      have stillExist := accounted.hasLengths exist
      rw [← access.session_leaves gateway] at stillExist
      have later := inductionHypothesis stillExist
      rw [accounted.blockBytes] at later
      rw [List.map_cons, afterRequests, exchanges, verdicts, List.map_cons, ← verdicts, accounts,
        List.flatMap_cons, List.map_cons, state, later.1, later.2, accounted.trace,
        accounted.verdict, List.append_assoc]
      exact ⟨rfl, rfl⟩

/-- A run of reads, writes and closings asks the store for the blocks that are requested, in
their order and with repetitions: nothing for what is refused for the store, the buffer, the
name or because the file is closed, and nothing behind a block that is not there. So what blocks
and buffers hold shows neither in the transfers nor in the faults: any other run of the same
gateway, with the same names, block numbers and buffer lengths, on any other store with blocks
of that size in which the two files are as long, makes the same transfers and ends its requests
alike. -/
theorem transfers_of_accesses
    (exist : gateway.session.HasLengths lengths store.inner)
    (accesses : List Access) :
    (afterRequests (accesses.map Access.request) (gateway, store)).2.trace.toList =
        store.trace.toList ++
          (accounts store.inner.blockBytes lengths gateway accesses).flatMap Account.transfers ∧
      verdicts (exchanges (accesses.map Access.request) (gateway, store)) =
        (accounts store.inner.blockBytes lengths gateway accesses).map Account.verdict ∧
      ∀ (other : Traced MemoryStorage) (others : List Access),
        gateway.session.HasLengths lengths other.inner →
        other.inner.blockBytes = store.inner.blockBytes →
        List.Forall₂ Access.Alike accesses others →
          (∃ transfers,
            (afterRequests (accesses.map Access.request) (gateway, store)).2.trace.toList =
                store.trace.toList ++ transfers ∧
              (afterRequests (others.map Access.request) (gateway, other)).2.trace.toList =
                other.trace.toList ++ transfers) ∧
            verdicts (exchanges (accesses.map Access.request) (gateway, store)) =
              verdicts (exchanges (others.map Access.request) (gateway, other)) := by
  have told := run_accounted exist accesses
  refine ⟨told.1, told.2, ?_⟩
  intro other others existThere sameBytes alike
  have toldThere := run_accounted existThere others
  rw [sameBytes, ← accounts_congr alike] at toldThere
  exact ⟨⟨_, told.1, toldThere.1⟩, told.2.trans toldThere.2.symm⟩

/-- A list with a repeated block and a block that is not there, then a closed file. -/
theorem transfers_of_accesses_cut :
    let gateway := Gateway.opened ⟨"t", "i", 1, 2, none, by decide⟩
    let store : Traced MemoryStorage :=
      .fresh ⟨blockSize, #[#[Page.plain, Page.zero], #[Page.zero]]⟩
    let accesses : List Access :=
      [.read "t" [1, 1, 5, 0] (Array.replicate (4 * blockSize) 0), .closeAll,
        .read "i" [0] (Array.replicate blockSize 0)]
    (afterRequests (accesses.map Access.request) (gateway, store)).2.trace.toList =
        [.read 1 1, .read 1 1, .read 1 5] ∧
      verdicts (exchanges (accesses.map Access.request) (gateway, store)) =
        [.error (.blockOutOfBounds 1 5), .ok (), .error (.unknownTarget "i")] := by
  intro gateway store accesses
  have exist :
      gateway.session.HasLengths (fun role => if role = .table then 2 else 1) store.inner := by
    intro role
    cases role <;> rfl
  have told := transfers_of_accesses exist accesses
  have accounted :
      accounts store.inner.blockBytes (fun role => if role = .table then 2 else 1) gateway
          accesses =
        [⟨[.read 1 1, .read 1 1, .read 1 5], .error (.blockOutOfBounds 1 5)⟩, ⟨[], .ok ()⟩,
          ⟨[], .error (.unknownTarget "i")⟩] := by
    simp only [accounts, accesses, Access.account, Access.transferAccount, Array.size_replicate]
    rfl
  rw [told.1, told.2.1, accounted]
  exact ⟨rfl, rfl⟩

end Running

end ObliviousStorage

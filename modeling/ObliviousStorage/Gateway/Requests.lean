import ObliviousStorage.Bytes.Buffer
import ObliviousStorage.Gateway.Session
import ObliviousStorage.Handover.Target
import ObliviousStorage.Page.Header

/-!
Contract: the requests by which a trusted module works on the two oblivious files.

Owns: which files are open, the checks that a request has to pass, and the transfers
of each request, one block at a time in the order given.

A request is checked for its block size, its buffer, its name and its range, in this
order, before any block is transferred. Establishing a file reopens it as soon as its
name is recognised, also if the request is refused after that.

Does not own: what the images mean. Only establishing a file looks at them, and only
to refuse those that are formatted but not well formed.
-/

namespace ObliviousStorage

/-- A session and which of its files are open. -/
structure Gateway where
  session : Session
  tableOpen : Bool
  indexOpen : Bool

namespace Gateway

def opened (session : Session) : Gateway := ⟨session, true, true⟩

def isOpen (gateway : Gateway) : FileRole → Bool
  | .table => gateway.tableOpen
  | .index => gateway.indexOpen

/-- The gateway with a file opened or closed. -/
def setOpen (gateway : Gateway) (role : FileRole) (isOpen : Bool) : Gateway :=
  match role with
  | .table => { gateway with tableOpen := isOpen }
  | .index => { gateway with indexOpen := isOpen }

def allClosed (gateway : Gateway) : Gateway :=
  { gateway with tableOpen := false, indexOpen := false }

/-- The file that a request names. -/
def roleNamed (gateway : Gateway) (name : String) : Except Fault FileRole :=
  match gateway.session.roleOf name with
  | some role => .ok role
  | none => .error (.unknownTarget name)

/-- The relation behind an open file. -/
def relationNamed (gateway : Gateway) (name : String) : Except Fault RelationId := do
  let role ← gateway.roleNamed name
  require (gateway.isOpen role) (.unknownTarget name)
  return gateway.session.relation role

/-- The gateway with a file closed; closing a closed file changes nothing. -/
def close (gateway : Gateway) (name : String) : Except Fault Gateway := do
  let role ← gateway.roleNamed name
  return gateway.setOpen role false

/-- Refuses a buffer that does not hold exactly `blocks` blocks. -/
def requireLength (blocks length : Nat) : Except Fault Unit :=
  require (length = blocks * blockSize) (.sizeMismatch (blocks * blockSize) length)

/-- Refuses the first image, if any, that is formatted but not well formed; `block` is
the block that the first of the images is meant for. -/
def requireWellFormed : (block : Nat) → (images : List Page) → Except Fault Unit
  | _, [] => .ok ()
  | block, image :: rest => do
      require (image.isUnformatted ∨ image.WellFormed) (.corruptInput (UInt32.ofNat block))
      requireWellFormed (block + 1) rest

variable {σ : Type} [Storage σ]

/-- Refuses a store whose blocks do not have the size of a page. -/
def requirePageSized : StorageM σ Unit := do
  let store ← get
  require (Storage.blockBytes store = blockSize)
    (.sizeMismatch blockSize (Storage.blockBytes store))

/-! ## Establishing a file -/

/-- Adds zero-filled blocks to a relation until it has `block`, at most `limit` of
them. Each call adds one block, so a limit above the block's number is never
reached. -/
def extendTo (relation : RelationId) (block : BlockNumber) : (limit : Nat) → StorageM σ Unit
  | 0 => return ()
  | limit + 1 => do
      let added ← Storage.extend relation
      if added < block then
        extendTo relation block limit
      else
        return ()

/-- Makes sure that a relation which had `existing` blocks has `block`. -/
def ensureBlock (relation : RelationId) (existing block : BlockNumber) : StorageM σ Unit :=
  if existing ≤ block then
    extendTo relation block (block.toNat + 1)
  else
    return ()

/-- Writes images to consecutive blocks from `block` on. Blocks from `existing` on are
added before they are written. -/
def placeImages (relation : RelationId) (existing : BlockNumber) :
    (block : Nat) → (images : List Page) → StorageM σ Unit
  | _, [] => return ()
  | block, image :: rest => do
      ensureBlock relation existing (UInt32.ofNat block)
      Storage.write relation (UInt32.ofNat block) image
      placeImages relation existing (block + 1) rest

/-- Opens a file and returns the relation behind it. -/
def reopen (name : String) : StorageM (Gateway × σ) RelationId := do
  let (gateway, _) ← get
  let role ← gateway.roleNamed name
  modify fun (gateway, store) => (gateway.setOpen role true, store)
  return gateway.session.relation role

/-- Writes images to a file from block `start` on and extends it as far as needed.
Reopens a closed file. Nothing is written unless every formatted image is well
formed. -/
def establishImages (name : String) (images : List Page) (start : BlockNumber) :
    StorageM (Gateway × σ) Unit := do
  (requirePageSized : StorageM σ Unit).onSecond
  let relation ← reopen name
  require (start.toNat + images.length < blockNumberBound)
    (.invalidConfiguration (.rangeOverflow images.length start.toNat))
  requireWellFormed start.toNat images
  let existing ← (Storage.blockCount relation : StorageM σ BlockNumber).onSecond
  (placeImages relation existing start.toNat images : StorageM σ Unit).onSecond

/-- Writes the images in a buffer, which must hold `count` blocks, to a file. -/
def establish
    (name : String)
    (buffer : Buffer)
    (count : BlockNumber)
    (requestedBlockSize : Nat)
    (start : BlockNumber) :
    StorageM (Gateway × σ) Unit := do
  require (requestedBlockSize = blockSize) (.sizeMismatch blockSize requestedBlockSize)
  (requirePageSized : StorageM σ Unit).onSecond
  requireLength count.toNat buffer.size
  establishImages name (Page.allOf buffer) start

/-! ## Reading and writing -/

/-- The relation that a request for this many blocks may work on. -/
def authorize (gateway : Gateway) (name : String) (blocks length : Nat) :
    StorageM σ RelationId := do
  requirePageSized
  requireLength blocks length
  gateway.relationNamed name

/-- Copies blocks to consecutive places of a buffer, `place` being the first. -/
def copyBlocks (relation : RelationId) :
    (place : Nat) → (blocks : List BlockNumber) → StorageM (Buffer × σ) Unit
  | _, [] => return ()
  | place, block :: rest => do
      let page ← (Storage.read relation block : StorageM σ Page).onSecond
      modify fun (buffer, store) =>
        (Buffer.replaced buffer (place * blockSize) page.toBuffer, store)
      copyBlocks relation (place + 1) rest

/-- Copies the blocks of a file into a buffer, in the order given. What was copied
before a fault stays in the buffer. -/
def read (gateway : Gateway) (name : String) (blocks : List BlockNumber) :
    StorageM (Buffer × σ) Unit := do
  let (buffer, _) ← get
  let relation ←
    (gateway.authorize name blocks.length buffer.size : StorageM σ RelationId).onSecond
  copyBlocks relation 0 blocks

/-- Writes images to the blocks given, in order. -/
def writeImages (relation : RelationId) :
    (blocks : List BlockNumber) → (images : List Page) → StorageM σ Unit
  | block :: blocks, image :: images => do
      Storage.write relation block image
      writeImages relation blocks images
  | _, _ => return ()

/-- Overwrites the blocks of a file with the images in a buffer, in the order given,
without looking at the images. -/
def write
    (gateway : Gateway)
    (name : String)
    (blocks : List BlockNumber)
    (buffer : Buffer) :
    StorageM σ Unit := do
  let relation ← gateway.authorize name blocks.length buffer.size
  writeImages relation blocks (Page.allOf buffer)

/-! ## Pages that are handed over -/

/-- Stores an index page at its place in the session's layout. -/
def addIndexPage (gateway : Gateway) (page : Page) (offset depth : Nat) : StorageM σ Unit := do
  match gateway.session.layout with
  | none => throw (.invalidConfiguration .noLayout)
  | some layout => do
      let block ← layout.blockAt depth offset
      let relation ← gateway.relationNamed gateway.session.indexFile
      Storage.write relation block page

/-- Stores a heap page at its block of the table file. -/
def addHeapPage (gateway : Gateway) (page : Page) (block : BlockNumber) : StorageM σ Unit := do
  let relation ← gateway.relationNamed gateway.session.tableFile
  Storage.write relation block page

/-- The target that stores pages in the session's files. -/
def target (gateway : Gateway) : PageTarget σ where
  addIndexPage := gateway.addIndexPage
  addHeapPage := gateway.addHeapPage

end Gateway

end ObliviousStorage

import ObliviousStorage.Page.Slots

/-!
Contract: pages that hold records of an oblivious table.

Owns: the logical block number such a page keeps in its trailer, and the test for
a page that holds no real record yet.

Does not own: the records themselves, or where on disk the page lives.
-/

namespace ObliviousStorage.Page

/-- Bytes a logical block number takes in the trailer. -/
abbrev identitySize : Nat := 4

/-- Whether the trailer is one that holds a logical block number. -/
def carriesIdentity (page : Page) : Bool :=
  !page.isUnformatted && identitySize ≤ page.trailerSize && page.trailerSize < 2 * alignment

def identity? (page : Page) : Option BlockNumber :=
  if page.carriesIdentity then
    some (UInt32.ofNat (page.word identitySize page.trailerStart))
  else
    none

/-- The logical block number of a page for records. -/
def identity (page : Page) : Except Fault BlockNumber :=
  match page.identity? with
  | some block => .ok block
  | none => .error (.corruptPage .noIdentity)

/-- The page with its logical block number replaced. -/
def setIdentity (page : Page) (block : BlockNumber) : Except Fault Page :=
  if page.carriesIdentity then
    .ok (page.setWord identitySize page.trailerStart block.toNat)
  else
    .error (.corruptPage .noIdentity)

/-- Whether the page holds no real record yet: it was never formatted, or its
logical block number is the dummy one. -/
def isDummy (page : Page) : Bool :=
  page.isUnformatted || page.identity? = some dummyIdentity

/-- An empty page for the records of logical block `block`. -/
def forRecords (block : BlockNumber) : Page :=
  let start := blockSize - aligned identitySize
  (formatted start).setWord identitySize start block.toNat

/-- The page that fills an oblivious file wherever no real record is kept. -/
def dummy : Page := forRecords dummyIdentity

def dummies (count : Nat) : List Page := List.replicate count dummy

end ObliviousStorage.Page

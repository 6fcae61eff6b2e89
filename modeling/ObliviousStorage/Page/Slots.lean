import ObliviousStorage.Page.Header

/-!
Contract: the slots of a page and the items they describe.

Owns: looking up a slot, reading and overwriting its item, and adding an item at
the end of the slot directory. A slot is only followed on a well-formed page and
only when it describes bytes of the item area, so no item reaches into the header,
the slot directory or the trailer.

Does not own: what the items encode.
-/

namespace ObliviousStorage.Page

open LittleEndian

/-- Where an item lives: the position of its first byte and its length. -/
structure Slot where
  start : Nat
  length : Nat
deriving DecidableEq, Repr

/-- Where the descriptor of a slot is kept; slots count from one. -/
def slotPosition (number : Nat) : Nat := headerSize + (number - 1) * slotSize

def slot (page : Page) (number : Nat) : Except Fault Slot := do
  page.verify
  require (1 ≤ number ∧ number ≤ page.slotCount)
    (.corruptPage (.slotOutside number page.slotCount))
  let descriptor ← page.region (slotPosition number) slotSize
  let found : Slot := ⟨field descriptor 2 0, field descriptor 2 2⟩
  require (page.upper ≤ found.start ∧ found.start + found.length ≤ page.special)
    (.corruptPage (.itemOutside number))
  return found

def item (page : Page) (number : Nat) : Except Fault (List UInt8) := do
  let found ← page.slot number
  page.region found.start found.length

/-- The page with the first bytes of a slot's item replaced; what does not fit in
the item is left out. -/
def setItem (page : Page) (number : Nat) (bytes : List UInt8) : Except Fault Page := do
  let found ← page.slot number
  page.overwrite found.start (bytes.take found.length)

/-- Adds an item behind the last slot: its descriptor goes to the end of the slot
directory and its body, aligned, below the bodies that are there. Returns the new
slot's number with the page. -/
def append (page : Page) (body : List UInt8) : Except Fault (Nat × Page) := do
  page.verify
  let lower := page.lower + slotSize
  let room := aligned body.length
  require (lower + room ≤ page.upper)
    (.corruptPage (.itemDoesNotFit body.length lower (page.upper - room : Int)))
  let upper := page.upper - room
  let described ← page.overwrite page.lower (encode 2 upper ++ encode 2 body.length)
  let filled ← described.overwrite upper body
  let grown := (filled.setWord 2 0 lower).setWord 2 2 upper
  grown.verify
  return (page.slotCount + 1, grown)

def appendAll (page : Page) : (bodies : List (List UInt8)) → Except Fault Page
  | [] => .ok page
  | body :: rest => do
      let (_, grown) ← page.append body
      grown.appendAll rest

end ObliviousStorage.Page

import ObliviousStorage.Identity
import ObliviousStorage.Text.Quoted

/-!
Contract: every way in which an operation of this library can be refused.

Owns: the causes, grouped by what is wrong (a page, a parameter or catalog row, a
request, the store itself), and the one wording of each; and sums of words, which are
exact or break off.

Does not own: which operation raises which cause; the modules that raise them
say when. No operation recovers from a fault of another.
-/

namespace ObliviousStorage

/-- What is wrong with the contents of a page. -/
inductive Damage where
  /-- The header's pointers do not delimit the regions of a page. -/
  | pointers (lower upper special : Nat)
  /-- The slot directory has no such slot. -/
  | slotOutside (slot slots : Nat)
  /-- A slot describes bytes outside the item area. -/
  | itemOutside (slot : Nat)
  /-- A new item would make the slot directory and the item area meet. -/
  | itemDoesNotFit (length lower : Nat) (upper : Int)
  /-- The page carries no logical identity. -/
  | noIdentity
  /-- A run of bytes does not lie inside the region it is read from or written to. -/
  | fieldOutside (position : Nat)
  /-- The trailer of an index page has the wrong size. -/
  | trailerSize (size : Nat)
  /-- An index entry has the wrong size. -/
  | entrySize (slot size : Nat)
  /-- The page is not marked as a metapage, or does not hold exactly one item. -/
  | notMetapage
  /-- The metapage's item is not what a metapage holds. -/
  | metapageMagic
  /-- A catalog row has the wrong size. -/
  | rowSize (size : Nat)
  /-- A page's right link names another block than the next one of its level. -/
  | rightLink (block linked follower : BlockNumber)
  /-- A page's left link does not name the page before it on its level. -/
  | leftLink (block linked expected : BlockNumber)
  /-- A page's role flags contradict the place it was reached at. -/
  | unexpectedFlags (block : BlockNumber) (slot : Nat) (parent : Option BlockNumber) (flags : Nat)
  /-- A page's level contradicts the depth it was reached at. -/
  | unexpectedLevel (block : BlockNumber) (depth : Nat) (level : BlockNumber)
  /-- The last page of a level links to a further one. -/
  | unclosedLevel (block : BlockNumber) (depth : Nat) (linked : BlockNumber)
  /-- A position in level order that the layout does not have. -/
  | outsideLayout (level offset : Nat)
deriving DecidableEq, Repr

/-- What is wrong with a parameter or a catalog row. -/
inductive Misconfiguration where
  | trailerTooLarge (size : Nat)
  | capacities (leaf internal most : Nat)
  | unsortedEntries
  | layoutTooLarge (pages : Nat)
  | rowWithoutTable
  | duplicateRow (table : RelationId)
  | noSources (table : RelationId)
  | blockCounts (table : RelationId) (tableBlocks indexBlocks : Int)
  | unknownMethod (table : RelationId)
  | sharedName (name : String)
  | rangeOverflow (count start : Nat)
  | noLayout
  | names (table index : String)
  | filesNotRecorded (table : RelationId)
  | indexTooLarge (index : RelationId) (needed : Nat) (table : RelationId) (declared : Nat)
  | heapTooLarge (heap : RelationId) (blocks : Nat) (table : RelationId) (declared : Nat)
deriving DecidableEq, Repr

/-- Why an operation was refused. -/
inductive Fault where
  /-- Neither a catalog row nor a relation has this identity. -/
  | notFound (identity : RelationId)
  | invalidConfiguration (cause : Misconfiguration)
  /-- A request names a file that the session does not serve. -/
  | unknownTarget (name : String)
  /-- A block size or the length of a buffer is not what it has to be. -/
  | sizeMismatch (expected actual : Nat)
  /-- The image supplied for this block is formatted but not well formed. -/
  | corruptInput (block : BlockNumber)
  | corruptPage (damage : Damage)
  | allocationFailure
  | blockOutOfBounds (relation : RelationId) (block : BlockNumber)
  /-- The file of a new relation exists already. -/
  | fileExists
  /-- A number does not fit the width it has to be stored in. -/
  | integerConversion
  /-- A sum does not fit the word it is kept in. The operation breaks off at that sum:
  nothing is said of what it would have gone on to do. -/
  | overflow
deriving DecidableEq, Repr

/-- An optional block number, as messages show it. -/
def shownParent : Option BlockNumber → String
  | none => "None"
  | some block => s!"Some({block})"

/-- A word of flag bits, as messages show it. -/
def shownFlags (flags : Nat) : String :=
  "0x" ++ String.ofList (Nat.toDigits 16 flags)

def Damage.message : Damage → String
  | .pointers lower upper special =>
      s!"corrupted page pointers: lower = {lower}, upper = {upper}, special = {special}"
  | .slotOutside slot slots => s!"slot {slot} is outside 1..={slots}"
  | .itemOutside slot => s!"slot {slot} points outside the item area"
  | .itemDoesNotFit length lower upper =>
      s!"item of {length} bytes does not fit: lower = {lower}, upper = {upper}"
  | .noIdentity => "page has no oblivious special space"
  | .fieldOutside position => s!"field at byte {position} lies outside its region"
  | .trailerSize size => s!"b-tree special space is {size} bytes"
  | .entrySize slot size => s!"index tuple at slot {slot} is {size} bytes"
  | .notMetapage => "not a b-tree metapage"
  | .metapageMagic => "bad b-tree metapage magic"
  | .rowSize size => s!"status row is {size} bytes"
  | .rightLink block linked follower =>
      s!"block {block} links to {linked} but block {follower} follows it"
  | .leftLink block linked expected =>
      s!"block {block} has left sibling {linked} instead of {expected}"
  | .unexpectedFlags block slot parent flags =>
      let shown := shownParent parent
      let bits := shownFlags flags
      s!"block {block} (child {slot} of {shown}) has unexpected flags {bits}"
  | .unexpectedLevel block depth level =>
      s!"block {block} sits at depth {depth} but claims level {level}"
  | .unclosedLevel block depth linked =>
      s!"block {block} closes level {depth} but links right to {linked}"
  | .outsideLayout level offset =>
      s!"canonical position ({level}, {offset}) lies outside the index layout"

def Misconfiguration.message : Misconfiguration → String
  | .trailerTooLarge size => s!"special space of {size} bytes does not fit in a page"
  | .capacities leaf internal most =>
      s!"b-tree capacities ({leaf}, {internal}) outside 1..={most}"
  | .unsortedEntries => "index entries are not sorted"
  | .layoutTooLarge pages => s!"{pages} index pages do not fit in a block number"
  | .rowWithoutTable => "status row without a table"
  | .duplicateRow table => s!"table {table} already has a status row"
  | .noSources table => s!"table {table} has no mirror table or mirror index"
  | .blockCounts table tableBlocks indexBlocks =>
      s!"table {table} declares {tableBlocks} table blocks and {indexBlocks} index blocks"
  | .unknownMethod table => s!"table {table} has no known index access method"
  | .sharedName name =>
      let shown := Text.quoted name
      s!"table and index mirrors share the name {shown}"
  | .rangeOverflow count start =>
      s!"{count} blocks from {start} overflow the block number space"
  | .noLayout => "session has no index layout"
  | .names table index =>
      let shownTable := Text.quoted table
      let shownIndex := Text.quoted index
      s!"mirror names {shownTable} and {shownIndex} must be distinct and non-empty"
  | .filesNotRecorded table =>
      s!"table {table} is initialized but its mirror files are not recorded"
  | .indexTooLarge index needed table declared =>
      s!"index {index} needs {needed} blocks but table {table} declares {declared}"
  | .heapTooLarge heap blocks table declared =>
      s!"heap {heap} has {blocks} blocks but table {table} declares {declared}"

def Fault.message : Fault → String
  | .notFound identity => s!"no status record for table {identity}"
  | .invalidConfiguration cause =>
      let detail := cause.message
      s!"invalid configuration: {detail}"
  | .unknownTarget name =>
      let shown := Text.quoted name
      s!"request names unknown file {shown}"
  | .sizeMismatch expected actual =>
      s!"block size mismatch: expected {expected} bytes, found {actual}"
  | .corruptInput block => s!"supplied page for block {block} is malformed"
  | .corruptPage damage =>
      let detail := damage.message
      s!"corrupted page: {detail}"
  | .allocationFailure => "allocation failure"
  | .blockOutOfBounds relation block =>
      s!"block {block} is out of bounds for relation {relation}"
  | .fileExists => "i/o error: File exists (os error 17)"
  | .integerConversion => "arithmetic error encountered"
  | .overflow => "attempt to add with overflow"

/-! ## Outcomes -/

/-- Goes on only if the condition holds. -/
def require (condition : Prop) [Decidable condition] (fault : Fault) : Except Fault Unit :=
  if condition then .ok () else .error fault

theorem require_eq_ok_iff
    {condition : Prop}
    [Decidable condition]
    {fault : Fault}
    {done : Unit} :
    require condition fault = .ok done ↔ condition := by
  unfold require
  split <;> simp_all

theorem require_eq_error_iff
    {condition : Prop}
    [Decidable condition]
    {fault reported : Fault} :
    require condition fault = .error reported ↔ ¬condition ∧ reported = fault := by
  unfold require
  split <;> simp_all [eq_comm]

/-- The sum of two numbers, which a word of 32 bits has to hold. -/
def wordSum (left right : Nat) : Except Fault Nat :=
  if left + right < blockNumberBound then .ok (left + right) else .error .overflow

theorem wordSum_eq_ok_iff {left right sum : Nat} :
    wordSum left right = .ok sum ↔ left + right < blockNumberBound ∧ sum = left + right := by
  unfold wordSum
  split
  · next fits => simp [fits, eq_comm]
  · next large => simp [large]

theorem wordSum_eq_error_iff {left right : Nat} {fault : Fault} :
    wordSum left right = .error fault ↔ blockNumberBound ≤ left + right ∧ fault = .overflow := by
  unfold wordSum
  split
  · next fits => simp [Nat.not_le.mpr fits]
  · next large => simp [Nat.not_lt.mp large, eq_comm]

/-- A sequence succeeds exactly if its first part does and then the rest. -/
theorem bind_eq_ok_iff
    {α β : Type}
    {first : Except Fault α}
    {next : α → Except Fault β}
    {result : β} :
    (first >>= next) = .ok result ↔
      ∃ value, first = .ok value ∧ next value = .ok result := by
  cases first <;> simp [bind, Except.bind]

/-- A sequence is refused exactly if its first part is, or else the rest. -/
theorem bind_eq_error_iff
    {α β : Type}
    {first : Except Fault α}
    {next : α → Except Fault β}
    {fault : Fault} :
    (first >>= next) = .error fault ↔
      first = .error fault ∨ ∃ value, first = .ok value ∧ next value = .error fault := by
  cases first <;> simp [bind, Except.bind]

end ObliviousStorage

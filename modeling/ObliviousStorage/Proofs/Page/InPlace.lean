import Mathlib.Data.List.GetD
import ObliviousStorage.Proofs.Page.Appending
import ObliviousStorage.Proofs.Storage.Accepted

/-!
Contract: adding an item to an image in place.

Owns: `add`, the writes by which an item comes onto a page, each on the image that the one
before it left, and the checks between them; and that an addition ends like `append` does and
leaves the page that `append` returns. An addition that is refused has written nothing, since
no check behind the first write can fail.

Does not own: how many items a page takes.
-/

namespace ObliviousStorage.Page

open LittleEndian StorageM

/-! ## Writing in place -/

/-- A number as a word of two bytes, if it is small enough. -/
def toWord (number : Nat) : Except Fault Nat :=
  if number < wordBound 2 then .ok number else .error .integerConversion

/-- Writes bytes to a position of the image, which has to have all of them. -/
def put (start : Nat) (bytes : List UInt8) : StorageM Page Unit := do
  let page ← get
  let changed ← page.overwrite start bytes
  set changed

/-- Writes every word of the header. -/
def putHeader (lower upper special flags : Nat) (tag : BlockNumber) : StorageM Page Unit := do
  put 0 (encode 2 lower)
  put 2 (encode 2 upper)
  put 4 (encode 2 special)
  put 6 (encode 2 flags)
  put 8 (encode 4 tag.toNat)

/-- Adds an item behind the last slot and returns the new slot's number. Its descriptor is
written first, then its body, then the header, which is checked once more. -/
def add (body : List UInt8) : StorageM Page Nat := do
  let page ← get
  page.verify
  let lower := page.lower + slotSize
  let room := aligned body.length
  require (lower + room ≤ page.upper)
    (.corruptPage (.itemDoesNotFit body.length lower (page.upper - room : Int)))
  let start ← toWord (page.upper - room)
  put page.lower (encode 2 start)
  let length ← toWord body.length
  put (page.lower + 2) (encode 2 length)
  put start body
  let newLower ← toWord lower
  let newUpper ← toWord (page.upper - room)
  putHeader newLower newUpper page.special page.flags page.tag
  let grown ← get
  grown.verify
  return page.slotCount + 1

/-! ## Single writes -/

theorem toWord_of_lt {number : Nat} (small : number < wordBound 2) :
    toWord number = .ok number :=
  if_pos small

theorem put_yields
    (page : Page)
    {start : Nat}
    {bytes : List UInt8}
    (inside : start + bytes.length ≤ blockSize) :
    (put start bytes).Yields page fun outcome left =>
      outcome = .ok () ∧ left = page.write start bytes :=
  yields_get_bind (yields_lift_bind_value (if_pos inside) (yields_set ⟨rfl, rfl⟩))

theorem putWord_yields
    (page : Page)
    {width position : Nat}
    (value : Nat)
    (inside : position + width ≤ blockSize) :
    (put position (encode width value)).Yields page fun outcome left =>
      outcome = .ok () ∧ left = page.setWord width position value :=
  put_yields page (by rwa [length_encode])

/-- Bytes behind other ones are written behind them. -/
theorem write_append (page : Page) (start : Nat) (first rest : List UInt8) :
    page.write start (first ++ rest) =
      (page.write start first).write (start + first.length) rest := by
  induction first generalizing page start with
  | nil => rfl
  | cons value others inductionHypothesis =>
      rw [List.cons_append, write, inductionHypothesis, write, List.length_cons, Nat.add_assoc,
        Nat.add_comm 1]

/-- Bytes that are there already are written without a trace. -/
theorem write_slice (page : Page) (start length : Nat) :
    page.write start (page.slice start length) = page := by
  apply ext_byte
  intro position inside
  rw [byte_write, length_slice]
  split
  · next covered =>
      have within : position - start < (page.slice start length).length := by
        rw [length_slice]
        omega
      rw [List.getD_eq_getElem _ _ within, getElem_slice, Nat.add_sub_cancel' covered.1]
  · rfl

theorem setWord_word (page : Page) (width position : Nat) :
    page.setWord width position (page.word width position) = page := by
  have bytes : encode width (page.word width position) = page.slice position width := by
    have readBack := encode_decode (page.slice position width)
    rwa [length_slice] at readBack
  rw [setWord, bytes, write_slice]

theorem toNat_tag (page : Page) : page.tag.toNat = page.word 4 8 :=
  UInt32.toNat_ofNat_of_lt' (page.word_lt 4 8)

theorem putHeader_yields (page : Page) (lower upper special flags : Nat) (tag : BlockNumber) :
    (putHeader lower upper special flags tag).Yields page fun outcome left =>
      outcome = .ok () ∧
        left =
          ((((page.setWord 2 0 lower).setWord 2 2 upper).setWord 2 4 special).setWord 2 6
            flags).setTag tag := by
  refine yields_bind_value (putWord_yields page lower (by decide)) ?_
  rintro _ rfl
  refine yields_bind_value (putWord_yields _ upper (by decide)) ?_
  rintro _ rfl
  refine yields_bind_value (putWord_yields _ special (by decide)) ?_
  rintro _ rfl
  refine yields_bind_value (putWord_yields _ flags (by decide)) ?_
  rintro _ rfl
  exact putWord_yields _ tag.toNat (by decide)

/-! ## A whole addition -/

namespace Appended

variable {page grown : Page} {body : List UInt8}

theorem flags (appended : Appended page grown body) (wellFormed : page.WellFormed) :
    grown.flags = page.flags := by
  have header := wellFormed.1
  simp only [headerSize] at header
  exact word_congr (appended.directory.mono (by omega) (by omega))

theorem tag (appended : Appended page grown body) (wellFormed : page.WellFormed) :
    grown.tag = page.tag := by
  have header := wellFormed.1
  simp only [headerSize] at header
  rw [Page.tag, Page.tag, word_congr (appended.directory.mono (by omega) (by omega))]

theorem trailer
    (appended : Appended page grown body)
    (wellFormed : page.WellFormed) :
    grown.trailer = page.trailer := by
  have special := appended.special wellFormed
  obtain ⟨-, -, items, inside, -⟩ := wellFormed
  rw [Page.trailer, Page.trailer, trailerSize, trailerSize, trailerStart, trailerStart, special,
    Nat.min_eq_left inside]
  exact slice_congr (appended.bodies.mono items (by omega))

/-- The header words behind the two pointers are there already. -/
theorem header_rewritten
    (appended : Appended page grown body)
    (wellFormed : page.WellFormed) :
    ((grown.setWord 2 4 page.special).setWord 2 6 page.flags).setTag page.tag = grown := by
  have special : grown.setWord 2 4 page.special = grown := by
    rw [← appended.special wellFormed]
    exact grown.setWord_word 2 4
  have flags : grown.setWord 2 6 page.flags = grown := by
    rw [← appended.flags wellFormed]
    exact grown.setWord_word 2 6
  have tag : grown.setTag page.tag = grown := by
    rw [← appended.tag wellFormed, setTag, toNat_tag]
    exact grown.setWord_word 4 8
  rw [special, flags, tag]

end Appended

section Adding

variable {page : Page} {body : List UInt8}

theorem append_of_malformed (malformed : ¬page.WellFormed) :
    page.append body =
      .error (.corruptPage (.pointers page.lower page.upper page.special)) := by
  have refused :
      page.verify = .error (.corruptPage (.pointers page.lower page.upper page.special)) :=
    if_neg malformed
  rw [append, refused]
  rfl

theorem append_of_full
    (wellFormed : page.WellFormed)
    (full : ¬page.lower + slotSize + aligned body.length ≤ page.upper) :
    page.append body =
      .error
        (.corruptPage
          (.itemDoesNotFit body.length (page.lower + slotSize)
            (page.upper - aligned body.length : Int))) := by
  have verified := (verify_eq_ok_iff page).mpr wellFormed
  simp only [append, verified, bind, Except.bind, require, full, ↓reduceIte]

/-- The writes of an item that fits make the page that it is appended to. -/
theorem add_of_fits
    (wellFormed : page.WellFormed)
    (fits : page.lower + slotSize + aligned body.length ≤ page.upper) :
    (add body).Yields page fun outcome left =>
      outcome = .ok (page.slotCount + 1) ∧ left = page.grownBy body := by
  have appended := appended_grownBy wellFormed fits
  have grownVerified :=
    (verify_eq_ok_iff _).mpr (appended.wellFormed wellFormed fits)
  have padded := le_aligned body.length
  have bounds := wellFormed
  obtain ⟨-, -, items, inside, -⟩ := bounds
  simp only [slotSize, blockSize] at fits inside
  have small : ∀ {number : Nat}, number ≤ 8192 → toWord number = .ok number := fun bound =>
    toWord_of_lt (Nat.lt_of_le_of_lt bound (by decide))
  refine yields_get_bind ?_
  apply yields_lift_bind_value ((verify_eq_ok_iff page).mpr wellFormed)
  apply yields_lift_bind_value (if_pos fits)
  apply yields_lift_bind_value (small (by omega))
  refine yields_bind_value (putWord_yields page _ (by simp only [blockSize]; omega)) ?_
  rintro _ rfl
  apply yields_lift_bind_value (small (by omega))
  refine yields_bind_value (putWord_yields _ _ (by simp only [blockSize]; omega)) ?_
  rintro _ rfl
  refine yields_bind_value (put_yields _ (by simp only [blockSize]; omega)) ?_
  rintro _ rfl
  apply yields_lift_bind_value (small (by simp only [slotSize]; omega))
  apply yields_lift_bind_value (small (by omega))
  refine yields_bind_value (putHeader_yields _ _ _ _ _ _) ?_
  rintro left same
  -- The two words of the descriptor are written one behind the other.
  have descriptor :
      (page.setWord 2 page.lower (page.upper - aligned body.length)).setWord 2 (page.lower + 2)
          body.length =
        page.write page.lower
          (encode 2 (page.upper - aligned body.length) ++ encode 2 body.length) := by
    rw [write_append, length_encode]
    rfl
  have grown : left = page.grownBy body := by
    rw [same, descriptor]
    exact appended.header_rewritten wellFormed
  subst grown
  refine yields_get_bind ?_
  apply yields_lift_bind_value grownVerified
  exact yields_pure ⟨rfl, rfl⟩

theorem add_of_malformed (malformed : ¬page.WellFormed) :
    (add body).Yields page fun outcome left =>
      outcome = .error (.corruptPage (.pointers page.lower page.upper page.special)) ∧
        left = page :=
  yields_get_bind (yields_lift_bind_stop (if_neg malformed) ⟨rfl, rfl⟩)

theorem add_of_full
    (wellFormed : page.WellFormed)
    (full : ¬page.lower + slotSize + aligned body.length ≤ page.upper) :
    (add body).Yields page fun outcome left =>
      outcome =
          .error
            (.corruptPage
              (.itemDoesNotFit body.length (page.lower + slotSize)
                (page.upper - aligned body.length : Int))) ∧
        left = page := by
  refine yields_get_bind ?_
  apply yields_lift_bind_value ((verify_eq_ok_iff page).mpr wellFormed)
  exact yields_lift_bind_stop (if_neg full) ⟨rfl, rfl⟩

/-- Adding an item in place ends like appending it, and leaves the page that has the item, or
else the page as it was. -/
theorem runOn_add (page : Page) (body : List UInt8) :
    (add body).runOn page =
      match page.append body with
      | .ok (slot, grown) => (.ok slot, grown)
      | .error fault => (.error fault, page) := by
  by_cases wellFormed : page.WellFormed
  · by_cases fits : page.lower + slotSize + aligned body.length ≤ page.upper
    · rw [append_eq wellFormed fits]
      exact Prod.ext_iff.mpr (add_of_fits wellFormed fits)
    · rw [append_of_full wellFormed fits]
      exact Prod.ext_iff.mpr (add_of_full wellFormed fits)
  · rw [append_of_malformed wellFormed]
    exact Prod.ext_iff.mpr (add_of_malformed wellFormed)

end Adding

end ObliviousStorage.Page

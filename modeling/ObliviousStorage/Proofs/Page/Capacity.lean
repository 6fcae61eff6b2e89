import Mathlib.Algebra.GroupWithZero.Nat
import Mathlib.Data.List.Induction
import ObliviousStorage.Proofs.Page.InPlace

/-!
Contract: pages to which items are added one after the other.

Owns: what one addition leads to on any image; `Stocked`, a page that holds a list of items and
nothing else; which items such a page takes; and runs of additions. An image keeps what could be
read on it, whatever is added, and an empty page takes exactly the items that fit into the bytes
between its header and its trailer, each with its descriptor and padded to the alignment.

Does not own: what items encode.
-/

namespace ObliviousStorage.Page

open StorageM

/-! ## What an addition keeps -/

/-- What could be read on a page can be read on a later one, whose trailer, flags and tag are
the same. -/
structure Keeps (page later : Page) : Prop where
  items : ∀ number body, page.item number = .ok body → later.item number = .ok body
  trailer : later.trailer = page.trailer
  flags : later.flags = page.flags
  tag : later.tag = page.tag

theorem Keeps.refl (page : Page) : Keeps page page :=
  ⟨fun _ _ found => found, rfl, rfl, rfl⟩

theorem Keeps.trans
    {first second third : Page}
    (begins : Keeps first second)
    (continues : Keeps second third) :
    Keeps first third where
  items number body found := continues.items number body (begins.items number body found)
  trailer := continues.trailer.trans begins.trailer
  flags := continues.flags.trans begins.flags
  tag := continues.tag.trans begins.tag

theorem Appended.keeps
    {page grown : Page}
    {body : List UInt8}
    (appended : Appended page grown body)
    (wellFormed : page.WellFormed)
    (fits : page.lower + slotSize + aligned body.length ≤ page.upper) :
    Keeps page grown where
  items number item found := by
    obtain ⟨slot, among, -⟩ := item_eq_ok_iff.mp found
    rw [appended.item_of_slot wellFormed fits among, found]
  trailer := appended.trailer wellFormed
  flags := appended.flags wellFormed
  tag := appended.tag wellFormed

/-- One addition: its item, the image before it, its outcome and the image after it. -/
structure Addition where
  body : List UInt8
  before : Page
  outcome : Except Fault Nat
  after : Page

namespace Addition

/-- The addition of an item to an image. -/
def of (page : Page) (body : List UInt8) : Addition :=
  ⟨body, page, ((add body).runOn page).1, ((add body).runOn page).2⟩

/-- An addition succeeds exactly if the image is well formed and has room for the descriptor
and the padded body. Then the item is read back behind the others, and these stay; otherwise
no byte has changed. -/
structure Lawful (addition : Addition) : Prop where
  appended :
    addition.before.append addition.body =
      addition.outcome.map fun slot => (slot, addition.after)
  succeeds_iff :
    (∃ slot, addition.outcome = .ok slot) ↔
      addition.before.WellFormed ∧
        slotSize + aligned addition.body.length ≤ addition.before.upper - addition.before.lower
  accepted :
    ∀ slot, addition.outcome = .ok slot →
      slot = addition.before.slotCount + 1 ∧ addition.after.WellFormed ∧
        addition.after.item slot = .ok addition.body
  keeps : Keeps addition.before addition.after
  refused : ∀ fault, addition.outcome = .error fault → addition.after = addition.before

end Addition

theorem lawful_addition (page : Page) (body : List UInt8) : (Addition.of page body).Lawful := by
  by_cases succeeds :
      page.WellFormed ∧ page.lower + slotSize + aligned body.length ≤ page.upper
  · obtain ⟨wellFormed, fits⟩ := succeeds
    have appended := appended_grownBy wellFormed fits
    have ran : (add body).runOn page = (.ok (page.slotCount + 1), page.grownBy body) := by
      rw [runOn_add, append_eq wellFormed fits]
    have grown : Addition.of page body =
        ⟨body, page, .ok (page.slotCount + 1), page.grownBy body⟩ := by
      rw [Addition.of, ran]
    rw [grown]
    exact
      { appended := append_eq wellFormed fits
        succeeds_iff := iff_of_true ⟨_, rfl⟩ ⟨wellFormed, by simp only; omega⟩
        accepted := by
          intro slot same
          obtain rfl := Except.ok.inj same
          exact ⟨rfl, appended.wellFormed wellFormed fits, appended.item wellFormed fits⟩
        keeps := appended.keeps wellFormed fits
        refused := fun _ refused => absurd refused (by simp) }
  · have refuses : ∃ fault, page.append body = .error fault := by
      by_cases wellFormed : page.WellFormed
      · exact ⟨_, append_of_full wellFormed fun fits => succeeds ⟨wellFormed, fits⟩⟩
      · exact ⟨_, append_of_malformed wellFormed⟩
    obtain ⟨fault, refused⟩ := refuses
    have ran : (add body).runOn page = (.error fault, page) := by rw [runOn_add, refused]
    have same : Addition.of page body = ⟨body, page, .error fault, page⟩ := by
      rw [Addition.of, ran]
    rw [same]
    exact
      { appended := refused
        succeeds_iff := by
          refine iff_of_false (by simp) fun holds => succeeds ⟨holds.1, ?_⟩
          obtain ⟨⟨-, directory, -⟩, room⟩ := holds
          simp only at directory room
          omega
        accepted := fun _ accepted => absurd accepted (by simp)
        keeps := Keeps.refl page
        refused := fun _ _ => rfl }

/-! ## Pages that hold nothing but a list of items -/

/-- The bytes that an item takes on a page: its descriptor and its padded body. -/
def footprint (body : List UInt8) : Nat := slotSize + aligned body.length

def occupied (bodies : List (List UInt8)) : Nat := (bodies.map footprint).sum

/-- The bytes that padded bodies take without their descriptors. -/
def padded (bodies : List (List UInt8)) : Nat :=
  (bodies.map fun body => aligned body.length).sum

/-- The items among these that a page with so many free bytes takes, one after the other. -/
def taken (capacity : Nat) (bodies : List (List UInt8)) : List (List UInt8) :=
  bodies.foldl
    (fun held body =>
      if occupied held + footprint body ≤ capacity then held ++ [body] else held) []

/-- A page whose trailer starts at `stop` and that holds these items, in the order of their
slots, and no others. -/
structure Stocked (page : Page) (stop : Nat) (held : List (List UInt8)) : Prop where
  wellFormed : page.WellFormed
  special : page.special = stop
  slotCount : page.slotCount = held.length
  upper : page.upper + padded held = stop
  items : ∀ index body, held[index]? = some body → page.item (index + 1) = .ok body
  alignedSlots : ∀ number found, page.slot number = .ok found → found.start % alignment = 0

theorem aligned_mod (length : Nat) : aligned length % alignment = 0 := by
  simp [aligned]

theorem padded_append (held : List (List UInt8)) (body : List UInt8) :
    padded (held ++ [body]) = padded held + aligned body.length := by
  simp [padded]

theorem padded_mod (held : List (List UInt8)) : padded held % alignment = 0 := by
  induction held with
  | nil => rfl
  | cons body rest inductionHypothesis =>
      rw [padded, List.map_cons, List.sum_cons, Nat.add_mod, aligned_mod, ← padded,
        inductionHypothesis, Nat.zero_add, Nat.zero_mod]

theorem occupied_eq (held : List (List UInt8)) :
    occupied held = held.length * slotSize + padded held := by
  induction held with
  | nil => rfl
  | cons body rest inductionHypothesis =>
      simp only [occupied, padded, List.map_cons, List.sum_cons, List.length_cons, footprint,
        Nat.succ_mul] at *
      omega

theorem taken_append (capacity : Nat) (bodies : List (List UInt8)) (body : List UInt8) :
    taken capacity (bodies ++ [body]) =
      if occupied (taken capacity bodies) + footprint body ≤ capacity then
        taken capacity bodies ++ [body]
      else
        taken capacity bodies := by
  rw [taken, List.foldl_append]
  rfl

/-- A page without slots whose item area is empty holds nothing. -/
theorem stocked_of_pointers
    {page : Page}
    {stop : Nat}
    (lower : page.lower = headerSize)
    (upper : page.upper = stop)
    (special : page.special = stop)
    (header : headerSize ≤ stop)
    (inside : stop ≤ blockSize) :
    Stocked page stop [] := by
  have none : page.slotCount = 0 := by
    rw [slotCount, lower, Nat.sub_self, Nat.zero_div]
  exact
    { wellFormed := by
        rw [WellFormed, lower, upper, special]
        exact ⟨Nat.le_refl _, header, Nat.le_refl _, inside, rfl⟩
      special := special
      slotCount := none
      upper := by rw [padded, List.map_nil, List.sum_nil, Nat.add_zero, upper]
      items := by simp
      alignedSlots := by
        intro number found among
        obtain ⟨-, first, last, -⟩ := slot_eq_ok_iff.mp among
        omega }

theorem stocked_formatted
    {stop : Nat}
    (header : headerSize ≤ stop)
    (inside : stop ≤ blockSize) :
    Stocked (formatted stop) stop [] := by
  obtain ⟨lower, upper, special⟩ := pointers_formatted inside
  exact stocked_of_pointers lower upper special header inside

namespace Stocked

variable {page : Page} {stop : Nat} {held : List (List UInt8)} {body : List UInt8}

/-- An item fits on the page if it fits with the others between header and trailer. -/
theorem fits_iff (stocked : Stocked page stop held) :
    page.lower + slotSize + aligned body.length ≤ page.upper ↔
      occupied held + footprint body ≤ stop - headerSize := by
  have lower := stocked.wellFormed.lower_eq
  have upper := stocked.upper
  have directory := stocked.wellFormed.2.1
  rw [stocked.slotCount] at lower
  rw [occupied_eq, footprint]
  simp only [headerSize, slotSize] at *
  omega

/-- An item that fits comes behind the others. -/
theorem append
    (stocked : Stocked page stop held)
    (whole : stop % alignment = 0)
    (fits : occupied held + footprint body ≤ stop - headerSize) :
    page.append body = .ok (held.length + 1, page.grownBy body) ∧
      Stocked (page.grownBy body) stop (held ++ [body]) := by
  have wellFormed := stocked.wellFormed
  have enough := stocked.fits_iff.mpr fits
  have appended := appended_grownBy wellFormed enough
  have count := stocked.slotCount
  have before := stocked.upper
  have room := aligned_mod body.length
  refine ⟨by rw [append_eq wellFormed enough, count], ?_⟩
  exact
    { wellFormed := appended.wellFormed wellFormed enough
      special := (appended.special wellFormed).trans stocked.special
      slotCount := by rw [appended.slotCount wellFormed, count, List.length_append,
        List.length_singleton]
      upper := by
        rw [appended.upper, padded_append]
        omega
      items := by
        intro index other among
        rcases Nat.lt_or_ge index held.length with earlier | last
        · rw [List.getElem?_append_left earlier] at among
          exact (appended.keeps wellFormed enough).items _ _ (stocked.items index other among)
        · rw [List.getElem?_append_right last] at among
          obtain ⟨inside, rfl⟩ := List.getElem?_eq_some_iff.mp among
          rw [List.length_singleton] at inside
          have newest : index + 1 = page.slotCount + 1 := by omega
          rw [newest, List.getElem_singleton]
          exact appended.item wellFormed enough
      alignedSlots := by
        intro number found among
        obtain ⟨-, first, last, -⟩ := slot_eq_ok_iff.mp among
        rw [appended.slotCount wellFormed] at last
        rcases Nat.lt_succ_iff_lt_or_eq.mp (Nat.lt_succ_of_le last) with earlier | newest
        · obtain ⟨slot, there, -⟩ :=
            item_eq_ok_iff.mp
              (stocked.items (number - 1) _ (List.getElem?_eq_getElem (by omega)))
          rw [Nat.sub_add_cancel first] at there
          have same := (appended.slot wellFormed enough there).symm.trans among
          rw [← Except.ok.inj same]
          exact stocked.alignedSlots number slot there
        · rw [newest, appended.newSlot wellFormed enough] at among
          rw [← Except.ok.inj among]
          -- Padded bodies fill all from here to the trailer.
          have others := padded_mod held
          simp only [alignment] at *
          omega }

/-- One more addition changes a stocked page only if the item fits. -/
theorem addition
    (stocked : Stocked page stop held)
    (whole : stop % alignment = 0)
    (body : List UInt8) :
    ((∃ slot, (Addition.of page body).outcome = .ok slot) ↔
        occupied held + footprint body ≤ stop - headerSize) ∧
      Stocked (Addition.of page body).after stop
        (if occupied held + footprint body ≤ stop - headerSize then held ++ [body] else held) := by
  have wellFormed := stocked.wellFormed
  by_cases fits : occupied held + footprint body ≤ stop - headerSize
  · obtain ⟨appends, grown⟩ := stocked.append whole fits
    have ran : (add body).runOn page = (.ok (held.length + 1), page.grownBy body) := by
      rw [runOn_add, appends]
    rw [Addition.of, ran, if_pos fits]
    exact ⟨iff_of_true ⟨_, rfl⟩ fits, grown⟩
  · have refuses := append_of_full wellFormed fun enough => fits (stocked.fits_iff.mp enough)
    have ran : ∃ fault, (add body).runOn page = (.error fault, page) :=
      ⟨_, by rw [runOn_add, refuses]⟩
    obtain ⟨fault, ran⟩ := ran
    rw [Addition.of, ran, if_neg fits]
    exact ⟨iff_of_false (by simp) fits, stocked⟩

end Stocked

/-! ## Runs of additions -/

/-- The additions of items to an image, one after the other. -/
def additions : (bodies : List (List UInt8)) → (page : Page) → List Addition
  | [], _ => []
  | body :: rest, page => Addition.of page body :: additions rest (Addition.of page body).after

def afterAdditions (bodies : List (List UInt8)) (page : Page) : Page :=
  bodies.foldl (fun image body => (Addition.of image body).after) page

theorem lawful_of_mem
    {bodies : List (List UInt8)}
    {page : Page}
    {addition : Addition}
    (member : addition ∈ additions bodies page) :
    addition.Lawful := by
  induction bodies generalizing page with
  | nil => exact absurd member (by simp [additions])
  | cons body rest inductionHypothesis =>
      rcases List.mem_cons.mp member with rfl | later
      · exact lawful_addition page body
      · exact inductionHypothesis later

theorem afterAdditions_keeps (bodies : List (List UInt8)) (page : Page) :
    Keeps page (afterAdditions bodies page) := by
  induction bodies generalizing page with
  | nil => exact Keeps.refl page
  | cons body rest inductionHypothesis =>
      exact (lawful_addition page body).keeps.trans (inductionHypothesis _)

/-- A page that held nothing holds the items that it took. -/
theorem Stocked.afterAdditions
    {page : Page}
    {stop : Nat}
    (stocked : Stocked page stop [])
    (whole : stop % alignment = 0)
    (bodies : List (List UInt8)) :
    Stocked (afterAdditions bodies page) stop (taken (stop - headerSize) bodies) := by
  induction bodies using List.reverseRecOn with
  | nil => exact stocked
  | append_singleton bodies body inductionHypothesis =>
      rw [Page.afterAdditions, List.foldl_append, taken_append]
      exact (inductionHypothesis.addition whole body).2

/-- Whatever a run of additions is given, each of them succeeds exactly if the image then is well
formed and has room, and reads and keeps what it should; and what could be read on the image at
first can be read at the end. On a page that was empty before the run, all items start at multiples
of the alignment, and an addition succeeds exactly if the items on the page and the new one fit
between header and trailer. -/
theorem additions_lawful (page : Page) (bodies : List (List UInt8)) :
    (∀ addition ∈ additions bodies page, addition.Lawful) ∧
      Keeps page (afterAdditions bodies page) ∧
        ∀ reserved, empty reserved = .ok page →
          Stocked (afterAdditions bodies page) (blockSize - aligned reserved)
              (taken (blockSize - headerSize - aligned reserved) bodies) ∧
            ∀ body,
              (∃ slot, (Addition.of (afterAdditions bodies page) body).outcome = .ok slot) ↔
                occupied (taken (blockSize - headerSize - aligned reserved) bodies) +
                    footprint body ≤
                  blockSize - headerSize - aligned reserved := by
  refine ⟨fun _ member => lawful_of_mem member, afterAdditions_keeps bodies page, ?_⟩
  intro reserved formats
  rw [empty] at formats
  split at formats
  · exact absurd formats (by simp)
  · next small =>
      obtain rfl := Except.ok.inj formats
      have whole : (blockSize - aligned reserved) % alignment = 0 := by
        have multiple := aligned_mod reserved
        simp only [alignment, blockSize, headerSize] at *
        omega
      have header : headerSize ≤ blockSize - aligned reserved := by
        simp only [blockSize, headerSize] at *
        omega
      have stocked := (stocked_formatted header (Nat.sub_le _ _)).afterAdditions whole bodies
      rw [Nat.sub_right_comm] at stocked
      refine ⟨stocked, fun body => ?_⟩
      rw [(stocked.addition whole body).1, Nat.sub_right_comm]

/-- A page with a trailer of four bytes takes a short item and an empty one, and between them
refuses one that is larger than the page. -/
theorem additions_lawful_refusing :
    empty 4 = .ok (formatted 8184) ∧
      Stocked (afterAdditions [[1, 2, 3], List.replicate 9000 0, []] (formatted 8184)) 8184
        [[1, 2, 3], []] := by
  have formats : empty 4 = .ok (formatted 8184) := rfl
  refine ⟨formats, ?_⟩
  have lawful :=
    ((additions_lawful (formatted 8184) [[1, 2, 3], List.replicate 9000 0, []]).2.2 4 formats).1
  have took :
      ∀ large : List UInt8, large.length = 9000 →
        taken 8168 [[1, 2, 3], large, []] = [[1, 2, 3], []] := by
    intro large length
    simp [taken, occupied, footprint, aligned, slotSize, alignment, length]
  rwa [show blockSize - aligned 4 = 8184 from rfl,
    show blockSize - headerSize - aligned 4 = 8168 from rfl,
    took _ List.length_replicate] at lawful

end ObliviousStorage.Page

import ObliviousStorage.Proofs.Index.Courses

/-!
Contract: a relocating visit next to a measuring one, byte by byte.

Owns: the bytes in which a slot keeps its link; that a relocating visit changes nothing
but these bytes and the trailer; `LinksApart`, the pages on which no two links share a
byte; and that on such a page the two visits find the same, or are refused with the same
fault.

A relocating visit replaces each link right after it was read, so on other pages it may
read a link that it has already changed.

Does not own: which pages a walk visits.
-/

namespace ObliviousStorage.Index

open LittleEndian Page

/-! ## Links as bytes -/

/-- The byte belongs to the link that a slot keeps. -/
def LinkByte (page : Page) (slot position : Nat) : Prop :=
  ∃ found,
    page.slot slot = .ok found ∧ found.length = Entry.size ∧
      found.start + Entry.blockPosition ≤ position ∧
        position < found.start + Entry.blockPosition + 4

/-- No byte belongs to the links of two of these slots. -/
def SlotsApart (page : Page) (slots : List Nat) : Prop :=
  slots.Pairwise fun first second =>
    ∀ position, LinkByte page first position → ¬LinkByte page second position

/-- No byte of an inner page belongs to two of the links in its data slots. -/
def LinksApart (page : Page) : Prop :=
  ∀ trailer,
    Trailer.read page = .ok trailer → trailer.isLeaf = false →
      SlotsApart page (trailer.dataSlots page)

theorem linkByte_congr
    {left right : Page}
    {slot : Nat}
    (same : left.slot slot = right.slot slot)
    (position : Nat) :
    LinkByte left slot position ↔ LinkByte right slot position := by
  simp only [LinkByte, same]

/-- Links lie in the item area. -/
theorem LinkByte.inside
    {page : Page}
    {slot position : Nat}
    (link : LinkByte page slot position) :
    page.upper ≤ position ∧ position < page.special := by
  obtain ⟨found, among, width, low, high⟩ := link
  obtain ⟨-, -, -, -, above, below⟩ := slot_eq_ok_iff.mp among
  simp only [Entry.size, Entry.blockPosition] at width low high
  omega

/-- Where no two items share a byte, no two links do. -/
theorem linksApart_of_itemsApart
    {page : Page}
    (apart : page.ItemsApart) :
    LinksApart page := by
  intro trailer read inner
  refine (dataSlots_nodup trailer page).imp ?_
  rintro first second different position ⟨one, atFirst, oneWidth, oneLow, oneHigh⟩
    ⟨other, atSecond, otherWidth, otherLow, otherHigh⟩
  simp only [Entry.size, Entry.blockPosition] at oneWidth oneLow oneHigh otherWidth otherLow otherHigh
  exact different
    (apart first second one other position atFirst atSecond (by omega) (by omega) (by omega)
      (by omega))

/-! ## Reading a link -/

/-- What reading an entry yields, once its slot is found. -/
theorem Entry.read_of_slot
    {page : Page}
    {slot : Nat}
    {found : Slot}
    (among : page.slot slot = .ok found) :
    Entry.read page slot =
      if found.length = Entry.size then
        .ok (Entry.ofBytes (page.slice found.start Entry.size))
      else
        .error (.corruptPage (.entrySize slot found.length)) := by
  by_cases width : found.length = Entry.size
  · rw [if_pos width]
    exact Entry.read_eq_ok_iff.mpr ⟨found, among, width, rfl⟩
  · have item := item_eq_ok_iff.mpr ⟨found, among, rfl⟩
    simp only [Entry.read, item, bind, Except.bind, require, length_slice, width, ↓reduceIte]

theorem Entry.read_of_slot_error
    {page : Page}
    {slot : Nat}
    {fault : Fault}
    (missing : page.slot slot = .error fault) :
    Entry.read page slot = .error fault := by
  simp only [Entry.read, Page.item, missing, bind, Except.bind]

/-- A slot yields the same link, or the same fault, on pages that agree below the item
area and where the link is kept. -/
theorem Entry.read_block_congr
    {current page : Page}
    {slot : Nat}
    (wellFormed : page.WellFormed)
    (directory : AgreesOn current page 0 page.upper)
    (link : ∀ position, LinkByte page slot position → current.byte position = page.byte position) :
    (Entry.read current slot).map Entry.block = (Entry.read page slot).map Entry.block := by
  have sameSlot := slot_of_agreesOn_upper wellFormed directory slot
  cases among : page.slot slot with
  | error fault =>
      rw [Entry.read_of_slot_error among, Entry.read_of_slot_error (sameSlot.trans among)]
  | ok found =>
      rw [Entry.read_of_slot among, Entry.read_of_slot (sameSlot.trans among)]
      by_cases width : found.length = Entry.size
      · have word :
            current.word 4 (found.start + Entry.blockPosition) =
              page.word 4 (found.start + Entry.blockPosition) :=
          word_congr fun position low high => link position ⟨found, among, width, low, high⟩
        rw [if_pos width, if_pos width, Entry.ofBytes_slice, Entry.ofBytes_slice, word]
        simp only [Except.map]
      · rw [if_neg width, if_neg width]

/-! ## Replacing links -/

/-- Redirecting a readable entry changes nothing but its link. -/
theorem redirect_elsewhere
    {page : Page}
    {slot : Nat}
    {entry : Entry}
    (child : BlockNumber)
    (read : Entry.read page slot = .ok entry) :
    ∃ changed,
      redirect page slot child = .ok changed ∧
        ∀ position, ¬LinkByte page slot position → changed.byte position = page.byte position := by
  obtain ⟨found, among, width, -⟩ := Entry.read_eq_ok_iff.mp read
  refine ⟨_, redirect_of_read among width, fun position missed => ?_⟩
  have outside :
      ¬(found.start + Entry.blockPosition ≤ position ∧
        position < found.start + Entry.blockPosition + (encode 4 child.toNat).length ∧
          position < blockSize) := by
    intro holds
    rcases holds with ⟨low, high, -⟩
    rw [length_encode] at high
    exact missed ⟨found, among, width, low, high⟩
  rw [byte_write, if_neg outside]

/-- Pages that agree outside links agree below the item area. -/
theorem agreesOn_upper_of_elsewhere
    {changed page : Page}
    (slots : List Nat)
    (elsewhere :
      ∀ position, (∀ slot ∈ slots, ¬LinkByte page slot position) →
        changed.byte position = page.byte position) :
    AgreesOn changed page 0 page.upper := by
  intro position _ below
  refine elsewhere position fun slot _ link => ?_
  have inside := link.inside
  omega

theorem agreesOn_special_of_elsewhere
    {changed page : Page}
    (slots : List Nat)
    (elsewhere :
      ∀ position, (∀ slot ∈ slots, ¬LinkByte page slot position) →
        changed.byte position = page.byte position) :
    AgreesOn changed page page.special blockSize := by
  intro position above _
  refine elsewhere position fun slot _ link => ?_
  have inside := link.inside
  omega

/-- Collecting children while relocating changes nothing but the links that were read. -/
theorem adopt_elsewhere
    {pending : Pending}
    {slots : List Nat}
    {position : Nat}
    {page adopted : Page}
    {children : List Pending}
    (adopts : pending.adopt .relocate slots position page = .ok (children, adopted)) :
    ∀ byte, (∀ slot ∈ slots, ¬LinkByte page slot byte) →
      adopted.byte byte = page.byte byte := by
  induction slots generalizing position page children with
  | nil =>
      simp only [Pending.adopt, Except.ok.injEq, Prod.mk.injEq] at adopts
      intro byte _
      rw [adopts.2]
  | cons slot rest inductionHypothesis =>
      simp only [Pending.adopt, WalkMode.relink, bind_eq_ok_iff] at adopts
      obtain ⟨entry, read, linked, redirects, _, -, ⟨others, changed⟩, later, result⟩ := adopts
      simp only [pure, Except.pure, Except.ok.injEq, Prod.mk.injEq] at result
      obtain ⟨-, rfl⟩ := result
      obtain ⟨found, among, -⟩ := Entry.read_eq_ok_iff.mp read
      have wellFormed := (slot_eq_ok_iff.mp among).1
      obtain ⟨same, succeeds, first⟩ := redirect_elsewhere (UInt32.ofNat position) read
      obtain rfl := Except.ok.inj (redirects.symm.trans succeeds)
      have directory : AgreesOn linked page 0 page.upper :=
        agreesOn_upper_of_elsewhere [slot] fun byte missed =>
          first byte (missed slot (List.mem_singleton_self slot))
      intro byte missed
      have behind : ∀ other ∈ rest, ¬LinkByte linked other byte := by
        intro other member link
        rw [linkByte_congr (slot_of_agreesOn_upper wellFormed directory other)] at link
        exact missed other (List.mem_cons_of_mem _ member) link
      rw [inductionHypothesis later byte behind]
      exact first byte (missed slot (List.mem_cons_self ..))

/-- Collecting children while relocating finds what a measuring visit finds, on a page
that still holds the links in the slots ahead. -/
theorem adopt_modes
    {pending : Pending}
    {slots : List Nat}
    {position : Nat}
    {page current : Page}
    (wellFormed : page.WellFormed)
    (directory : AgreesOn current page 0 page.upper)
    (ahead :
      ∀ slot ∈ slots, ∀ byte, LinkByte page slot byte → current.byte byte = page.byte byte)
    (apart : SlotsApart page slots) :
    (pending.adopt .relocate slots position current).map Prod.fst =
      (pending.adopt .measure slots position page).map Prod.fst := by
  induction slots generalizing position current with
  | nil => rfl
  | cons slot rest inductionHypothesis =>
      obtain ⟨firstApart, restApart⟩ := List.pairwise_cons.mp apart
      have sameBlock :=
        Entry.read_block_congr wellFormed directory (ahead slot (List.mem_cons_self ..))
      cases read : Entry.read page slot with
      | error fault =>
          cases now : Entry.read current slot with
          | ok entry => simp [read, now, Except.map] at sameBlock
          | error other =>
              have sameFault : other = fault := by simpa [read, now, Except.map] using sameBlock
              simp only [Pending.adopt, read, now, sameFault, bind, Except.bind]
      | ok entry =>
          cases now : Entry.read current slot with
          | error other => simp [read, now, Except.map] at sameBlock
          | ok same =>
              have block : same.block = entry.block := by
                simpa [read, now, Except.map] using sameBlock
              obtain ⟨linked, redirects, elsewhere⟩ :=
                redirect_elsewhere (UInt32.ofNat position) now
              have sameLink :=
                linkByte_congr (slot_of_agreesOn_upper wellFormed directory slot)
              have linkedDirectory : AgreesOn linked page 0 page.upper := by
                intro byte low high
                have missed : ¬LinkByte current slot byte := by
                  rw [sameLink]
                  intro link
                  have inside := link.inside
                  omega
                exact (elsewhere byte missed).trans (directory byte low high)
              -- The link that was replaced shares no byte with those ahead.
              have linkedAhead :
                  ∀ other ∈ rest, ∀ byte, LinkByte page other byte →
                    linked.byte byte = page.byte byte := by
                intro other member byte link
                have missed : ¬LinkByte current slot byte := by
                  rw [sameLink]
                  exact fun first => firstApart other member byte first link
                exact (elsewhere byte missed).trans
                  (ahead other (List.mem_cons_of_mem _ member) byte link)
              simp only [Pending.adopt, WalkMode.relink, read, now, redirects, block, bind,
                Except.bind, pure, Except.pure]
              cases wordSum position 1 with
              | error fault => rfl
              | ok following =>
                  have later :
                      (pending.adopt .relocate rest following linked).map Prod.fst =
                        (pending.adopt .measure rest following page).map Prod.fst :=
                    inductionHypothesis linkedDirectory linkedAhead restApart
                  cases measured : pending.adopt .measure rest following page <;>
                    cases relocated : pending.adopt .relocate rest following linked <;>
                      simp_all [Except.map]

/-! ## Visits -/

theorem children_modes
    {page : Page}
    {trailer : Trailer}
    (pending : Pending)
    (position : Nat)
    (read : Trailer.read page = .ok trailer)
    (apart : LinksApart page) :
    (pending.children .relocate trailer position page).map Prod.fst =
      (pending.children .measure trailer position page).map Prod.fst := by
  unfold Pending.children
  cases role : trailer.isLeaf with
  | true => rfl
  | false =>
      simp only [Bool.false_eq_true, ↓reduceIte]
      exact adopt_modes (Trailer.read_eq_ok_iff.mp read).1 (agreesOn_refl page _ _)
        (fun _ _ _ _ => rfl) (apart trailer read role)

/-- What a relocating visit makes of a page, outside its links, before it replaces the
trailer. A leaf keeps its links too. -/
theorem children_elsewhere
    {pending : Pending}
    {page linked : Page}
    {trailer : Trailer}
    {position : Nat}
    {children : List Pending}
    (collects : pending.children .relocate trailer position page = .ok (children, linked)) :
    ∀ byte,
      (trailer.isLeaf = false → ∀ slot ∈ trailer.dataSlots page, ¬LinkByte page slot byte) →
        linked.byte byte = page.byte byte := by
  intro byte missed
  unfold Pending.children at collects
  cases role : trailer.isLeaf with
  | true =>
      simp only [role, ↓reduceIte, Except.ok.injEq, Prod.mk.injEq] at collects
      rw [collects.2]
  | false =>
      simp only [role, Bool.false_eq_true, ↓reduceIte] at collects
      exact adopt_elsewhere collects byte (missed role)

theorem trailer_of_children
    {pending : Pending}
    {page linked : Page}
    {trailer : Trailer}
    {position : Nat}
    {children : List Pending}
    (read : Trailer.read page = .ok trailer)
    (collects : pending.children .relocate trailer position page = .ok (children, linked)) :
    Trailer.read linked = .ok trailer := by
  have elsewhere :
      ∀ byte, (∀ slot ∈ trailer.dataSlots page, ¬LinkByte page slot byte) →
        linked.byte byte = page.byte byte :=
    fun byte missed => children_elsewhere collects byte fun _ => missed
  exact Trailer.read_of_agreesOn (agreesOn_upper_of_elsewhere _ elsewhere)
    (agreesOn_special_of_elsewhere _ elsewhere) read

/-- A visit that measures and one that relocates find the same on a page whose links
share no byte, or are refused with the same fault. -/
theorem LevelTally.visit_modes
    {tally : LevelTally}
    {rootLevel : Nat}
    {pending : Pending}
    {page : Page}
    (apart : LinksApart page) :
    (∀ fault,
        tally.visit .measure rootLevel pending page = .error fault →
          tally.visit .relocate rootLevel pending page = .error fault) ∧
      ∀ visit,
        tally.visit .measure rootLevel pending page = .ok visit →
          ∃ image,
            tally.visit .relocate rootLevel pending page = .ok { visit with page := image } := by
  unfold LevelTally.visit
  cases read : Trailer.read page with
  | error fault => simp [bind, Except.bind]
  | ok trailer =>
      cases place : pending.checkPlace rootLevel trailer with
      | error fault => simp [place, bind, Except.bind]
      | ok _ =>
          cases siblings : tally.checkSiblings pending.block trailer with
          | error fault => simp [place, siblings, bind, Except.bind]
          | ok _ =>
              have same := children_modes pending tally.nextChild read apart
              cases measured : pending.children .measure trailer tally.nextChild page with
              | error fault =>
                  cases moved : pending.children .relocate trailer tally.nextChild page with
                  | ok found => simp [measured, moved, Except.map] at same
                  | error other =>
                      have sameFault : other = fault := by
                        simpa [measured, moved, Except.map] using same
                      simp [place, siblings, measured, moved, sameFault, bind, Except.bind]
              | ok kept =>
                  cases moved : pending.children .relocate trailer tally.nextChild page with
                  | error other => simp [measured, moved, Except.map] at same
                  | ok found =>
                      have sameChildren : found.1 = kept.1 := by
                        simpa [measured, moved, Except.map] using same
                      obtain ⟨image, stamps⟩ := Trailer.exists_write_of_read
                        (trailer.placed pending.parent.isNone tally.offset pending.depth)
                        (trailer_of_children read moved)
                      simp [place, siblings, measured, moved, WalkMode.stamp, stamps, sameChildren,
                        bind, Except.bind, pure, Except.pure]

/-! ## Images -/

namespace Trailer

theorem getD_append_congr
    {front one other : List UInt8}
    {place : Nat}
    (early : place < front.length) :
    (front ++ one).getD place 0 = (front ++ other).getD place 0 := by
  rw [List.getD_append _ _ _ _ early, List.getD_append _ _ _ _ early]

theorem getD_append_congr_right
    {one other left right : List UInt8}
    {place width : Nat}
    (oneLength : one.length = width)
    (otherLength : other.length = width)
    (behind : width ≤ place)
    (same : left.getD (place - width) 0 = right.getD (place - width) 0) :
    (one ++ left).getD place 0 = (other ++ right).getD place 0 := by
  rw [List.getD_append_right _ _ _ _ (oneLength ▸ behind),
    List.getD_append_right _ _ _ _ (otherLength ▸ behind), oneLength, otherLength, same]

/-- The first bytes of a trailer tell the siblings, then the level and the role. -/
theorem getD_toBytes_congr
    {one other : Trailer}
    {place : Nat}
    (level : one.level = other.level)
    (flags : one.flags = other.flags)
    (siblings : one.previous = other.previous ∧ one.next = other.next ∨ 8 ≤ place)
    (early : place < 14) :
    one.toBytes.getD place 0 = other.toBytes.getD place 0 := by
  have parts :
      ∀ trailer : Trailer,
        trailer.toBytes =
          (encode 4 trailer.previous.toNat ++ encode 4 trailer.next.toNat) ++
            ((encode 4 trailer.level.toNat ++ encode 2 trailer.flags.toNat) ++
              (encode 2 0 ++ encode 4 trailer.placedOffset.toNat ++
                encode 4 trailer.placedDepth.toNat)) := by
    intro trailer
    simp only [toBytes, List.append_assoc]
  rw [parts one, parts other, ← level, ← flags]
  by_cases behind : 8 ≤ place
  · have short :
        place - 8 < (encode 4 one.level.toNat ++ encode 2 one.flags.toNat).length := by
      simp only [List.length_append, length_encode]
      omega
    exact getD_append_congr_right (by simp) (by simp) behind (getD_append_congr short)
  · obtain ⟨previous, next⟩ := siblings.resolve_right behind
    have short :
        place < (encode 4 one.previous.toNat ++ encode 4 one.next.toNat).length := by
      simp only [List.length_append, length_encode]
      omega
    rw [← previous, ← next]
    exact getD_append_congr short

/-- A trailer is written back as it was read, up to the bytes that carry nothing. -/
theorem getD_toBytes_ofBytes
    {bytes : List UInt8}
    {place : Nat}
    (whole : bytes.length = size)
    (early : place < 14) :
    (ofBytes bytes).toBytes.getD place 0 = bytes.getD place 0 := by
  have written :
      ∀ width position, position + width ≤ size →
        encode width (field bytes width position) = (bytes.drop position).take width :=
    fun width position inside => encode_field (whole ▸ inside)
  have previous : field bytes 4 0 < 4294967296 := field_lt (by rw [whole]; decide)
  have next : field bytes 4 4 < 4294967296 := field_lt (by rw [whole]; decide)
  have level : field bytes 4 8 < 4294967296 := field_lt (by rw [whole]; decide)
  have flags : field bytes 2 12 < 65536 := field_lt (by rw [whole]; decide)
  have split :
      (ofBytes bytes).toBytes =
        bytes.take 14 ++ (encode 2 0 ++ encode 4 (ofBytes bytes).placedOffset.toNat ++
          encode 4 (ofBytes bytes).placedDepth.toNat) := by
    simp only [toBytes, ofBytes, UInt32.toNat_ofNat_of_lt' previous,
      UInt32.toNat_ofNat_of_lt' next, UInt32.toNat_ofNat_of_lt' level,
      UInt16.toNat_ofNat_of_lt' flags, written 4 0 (by decide), written 4 4 (by decide),
      written 4 8 (by decide), written 2 12 (by decide), List.drop_zero, ← List.take_add,
      List.append_assoc]
  have short : place < (bytes.take 14).length := by
    rw [List.length_take, whole]
    simp only [size]
    omega
  rw [split, List.getD_append _ _ _ _ short, List.getD_eq_getElem _ _ short, List.getElem_take,
    List.getD_eq_getElem]

end Trailer

/-- A relocating visit changes nothing but the links of an inner page, the place that the
trailer tells, and below the root the links to siblings. Two bytes of the trailer that
carry nothing are cleared. -/
theorem LevelTally.visit_elsewhere
    {tally : LevelTally}
    {rootLevel : Nat}
    {pending : Pending}
    {page : Page}
    {visit : Visit}
    {position : Nat}
    (relocates : tally.visit .relocate rootLevel pending page = .ok visit)
    (missed :
      visit.trailer.isLeaf = false →
        ∀ slot ∈ visit.trailer.dataSlots page, ¬LinkByte page slot position)
    (early : position < blockSize - Trailer.size + 14)
    (siblings :
      pending.parent.isNone = true ∨ position < blockSize - Trailer.size ∨
        blockSize - Trailer.size + 8 ≤ position) :
    visit.page.byte position = page.byte position := by
  obtain ⟨read, -, -, -, linked, collects, stamps⟩ := LevelTally.visit_eq_ok_iff.mp relocates
  have linkedRead := trailer_of_children read collects
  simp only [WalkMode.stamp] at stamps
  rw [Trailer.write_of_read linkedRead] at stamps
  rw [← Except.ok.inj stamps, byte_write, Trailer.length_toBytes]
  by_cases body : position < blockSize - Trailer.size
  · rw [if_neg (by omega)]
    exact children_elsewhere collects position missed
  · obtain ⟨wellFormed, start, trailer⟩ := Trailer.read_eq_ok_iff.mp read
    have place : page.trailerStart = blockSize - Trailer.size := by
      simp only [trailerStart, start, Trailer.size, blockSize]
      omega
    have width : page.trailerSize = Trailer.size := by
      simp only [trailerSize, place, Trailer.size, blockSize]
    have whole : page.trailer.length = Trailer.size := by
      rw [Page.trailer, length_slice, width]
    have byte :
        page.trailer.getD (position - (blockSize - Trailer.size)) 0 = page.byte position := by
      have short : position - (blockSize - Trailer.size) < page.trailer.length := by
        rw [whole]
        simp only [Trailer.size, blockSize] at *
        omega
      have same : page.trailerStart + (position - (blockSize - Trailer.size)) = position := by
        omega
      rw [List.getD_eq_getElem _ _ short]
      simp only [Page.trailer, getElem_slice, same]
    have inside : position < blockSize := by
      simp only [Trailer.size, blockSize] at *
      omega
    rw [if_pos (by omega), ← byte, ← Trailer.getD_toBytes_ofBytes whole (by omega), ← trailer]
    refine Trailer.getD_toBytes_congr rfl rfl ?_ (by omega)
    rcases siblings with root | before | behind
    · simp [Trailer.placed, root]
    · omega
    · exact Or.inr (by omega)

/-! ## Courses -/

/-- Where no two links of a page share a byte, a walk that relocates takes the course of
one that measures. -/
theorem Course.relocate
    {fetch : BlockNumber → Except Fault Page}
    {rootLevel : Nat}
    {tally : LevelTally}
    {queue : List Pending}
    {blocks : List BlockNumber}
    {placements : List Placement}
    {outcome : Except Fault LevelTally}
    (apart : ∀ block page, Reachable fetch block → fetch block = .ok page → LinksApart page)
    (course : Course fetch .measure rootLevel tally queue blocks placements outcome)
    (waiting : ∀ pending ∈ queue, Reachable fetch pending.block) :
    ∃ relocated, Course fetch .relocate rootLevel tally queue blocks relocated outcome := by
  induction course with
  | ended tally => exact ⟨[], .ended tally⟩
  | unread missing => exact ⟨[], .unread missing⟩
  | @rejected tally pending rest page fault found rejects =>
      have linksApart := apart _ _ (waiting pending (List.mem_cons_self ..)) found
      exact ⟨[], .rejected found ((LevelTally.visit_modes linksApart).1 fault rejects)⟩
  | @unclosed tally pending rest page visit fault found visits stops =>
      have linksApart := apart _ _ (waiting pending (List.mem_cons_self ..)) found
      obtain ⟨image, relocates⟩ := (LevelTally.visit_modes linksApart).2 visit visits
      exact ⟨_, .unclosed found relocates stops⟩
  | @visited tally advanced pending rest page visit blocks later outcome found visits advances
      continues inductionHypothesis =>
      have linksApart := apart _ _ (waiting pending (List.mem_cons_self ..)) found
      obtain ⟨image, relocates⟩ := (LevelTally.visit_modes linksApart).2 visit visits
      obtain ⟨relocated, later⟩ :=
        inductionHypothesis (Reachable.of_visited waiting found (liveLinks_of_visit visits))
      exact ⟨_, .visited found relocates advances later⟩

theorem WholeCourse.relocate
    {fetch : BlockNumber → Except Fault Page}
    {blocks : List BlockNumber}
    {placements : List Placement}
    {outcome : Except Fault Profile}
    (apart : ∀ block page, Reachable fetch block → fetch block = .ok page → LinksApart page)
    (course : WholeCourse fetch .measure blocks placements outcome) :
    ∃ relocated, WholeCourse fetch .relocate blocks relocated outcome := by
  cases course with
  | unread missing => exact ⟨[], .unread missing⟩
  | rejected found rejects => exact ⟨[], .rejected found rejects⟩
  | walked found opens course =>
      obtain ⟨relocated, moved⟩ := course.relocate apart (.of_root found opens)
      exact ⟨relocated, .walked found opens moved⟩

end ObliviousStorage.Index

import ObliviousStorage.Page.Records
import ObliviousStorage.Proofs.Page.Capacity

/-!
Contract: pages that hold the records of one logical block.

Owns: `HoldsRecords`; the page that a block's first record is added to; and what adding one more
record to such a page leads to. The logical block number lies in the trailer, which additions
keep.

Does not own: where such a page is kept.
-/

namespace ObliviousStorage.Page

/-- Where the trailer of a page for records starts. -/
abbrev recordsEnd : Nat := blockSize - aligned identitySize

/-- The page of this logical block, which holds these records, in the order of their slots, and
no others. -/
structure HoldsRecords (page : Page) (block : BlockNumber) (held : List (List UInt8)) : Prop where
  stocked : Stocked page recordsEnd held
  identity : page.identity = .ok block

/-- Whether one more record fits on the page. -/
def RecordFits (held : List (List UInt8)) (record : List UInt8) : Prop :=
  occupied held + footprint record ≤ recordsEnd - headerSize

instance (held : List (List UInt8)) (record : List UInt8) : Decidable (RecordFits held record) := by
  unfold RecordFits
  infer_instance

/-- How a record is refused that does not fit behind these. -/
def refusal (held : List (List UInt8)) (record : List UInt8) : Fault :=
  .corruptPage
    (.itemDoesNotFit record.length (headerSize + held.length * slotSize + slotSize)
      ((recordsEnd - padded held : Nat) - aligned record.length : Int))

section

variable
  {page : Page}
  {block : BlockNumber}
  {held : List (List UInt8)}
  {record : List UInt8}

/-- A page with the trailer of a page for records carries a logical block number there. -/
theorem Stocked.identity (stocked : Stocked page recordsEnd held) :
    page.identity = .ok (UInt32.ofNat (page.word identitySize recordsEnd)) := by
  have start : page.trailerStart = recordsEnd := by
    rw [trailerStart, stocked.special]
    rfl
  have carries : page.carriesIdentity = true := by
    rw [carriesIdentity, stocked.wellFormed.isUnformatted, trailerSize, start]
    rfl
  rw [Page.identity, identity?, if_pos carries, start]

theorem holdsRecords_forRecords (block : BlockNumber) :
    HoldsRecords (forRecords block) block [] := by
  have inside : recordsEnd ≤ blockSize := by decide
  obtain ⟨lower, upper, special⟩ := pointers_formatted inside
  -- The identity is kept behind the header.
  have header : AgreesOn (forRecords block) (formatted recordsEnd) 0 headerSize :=
    agreesOn_write _ (Or.inl (by decide))
  have stocked : Stocked (forRecords block) recordsEnd [] :=
    stocked_of_pointers ((lower_congr header).trans lower) ((upper_congr header).trans upper)
      ((special_congr header).trans special) (by decide) inside
  refine ⟨stocked, ?_⟩
  have written : (forRecords block).word identitySize recordsEnd = block.toNat := by
    have small : block.toNat < LittleEndian.wordBound identitySize := block.toNat_lt
    have readBack : (forRecords block).word identitySize recordsEnd = _ :=
      (formatted recordsEnd).word_setWord block.toNat (by decide)
    rwa [Nat.mod_eq_of_lt small] at readBack
  rw [stocked.identity, written, UInt32.ofNat_toNat]

namespace HoldsRecords

/-- A record that fits comes behind the others. -/
theorem append
    (holds : HoldsRecords page block held)
    (fits : RecordFits held record) :
    page.append record = .ok (held.length + 1, page.grownBy record) ∧
      HoldsRecords (page.grownBy record) block (held ++ [record]) := by
  obtain ⟨appends, stocked⟩ := holds.stocked.append (by decide) fits
  refine ⟨appends, stocked, ?_⟩
  have enough := holds.stocked.fits_iff.mpr fits
  have before : page.upper ≤ recordsEnd := by
    have upper := holds.stocked.upper
    omega
  have trailer :
      (page.grownBy record).word identitySize recordsEnd = page.word identitySize recordsEnd :=
    word_congr
      ((appended_grownBy holds.stocked.wellFormed enough).bodies.mono before (by decide))
  rw [stocked.identity, trailer, ← holds.stocked.identity, holds.identity]

/-- A record that does not fit is refused. -/
theorem refuses
    (holds : HoldsRecords page block held)
    (full : ¬RecordFits held record) :
    page.append record = .error (refusal held record) := by
  have wellFormed := holds.stocked.wellFormed
  have upper : page.upper = recordsEnd - padded held := by
    have before := holds.stocked.upper
    omega
  rw [append_of_full wellFormed fun enough => full (holds.stocked.fits_iff.mp enough), refusal,
    wellFormed.lower_eq, holds.stocked.slotCount, upper]

/-- The page of a block is a dummy one only if the block's number is the dummy one. -/
theorem isDummy (holds : HoldsRecords page block held) :
    page.isDummy = decide (block = dummyIdentity) := by
  have identity := holds.identity
  rw [Page.identity] at identity
  rw [Page.isDummy, holds.stocked.wellFormed.isUnformatted, Bool.false_or]
  cases carried : page.identity? with
  | none =>
      rw [carried] at identity
      exact absurd identity (by simp)
  | some other =>
      rw [carried] at identity
      obtain rfl := Except.ok.inj identity
      simp

/-- The record in the last slot is the one that was added last. -/
theorem last
    (holds : HoldsRecords page block held)
    (inserted : held ≠ []) :
    page.item page.slotCount = .ok (held.getLast inserted) := by
  have some := List.length_pos_iff.mpr inserted
  rw [holds.stocked.slotCount, ← Nat.sub_add_cancel some]
  apply holds.stocked.items
  rw [List.getLast_eq_getElem, List.getElem?_eq_getElem]

end HoldsRecords

end

end ObliviousStorage.Page

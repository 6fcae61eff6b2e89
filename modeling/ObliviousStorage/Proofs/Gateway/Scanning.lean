import Mathlib.Data.List.DropRight
import ObliviousStorage.Proofs.Gateway.RecordRuns

/-!
Contract: what a scan shows after calls of which some fail.

Owns: `LastSlotAstray`, the pages whose last slot leads out of the item area; what a call
finds on the page of its block; that a call which produces no record leaves the scan as it was,
unless it gets such a page; and what a run of calls shows, each on a store of its own.

On such a page the record is given up before the next one is found to be missing, while the
place stays that of the record given up.

Does not own: how a page comes to be in a block.
-/

namespace ObliviousStorage

open StorageM StorageView Page

/-! ## Pages -/

namespace Page

/-- The page holds records, but its last slot describes bytes outside of the item area. -/
def LastSlotAstray (page : Page) : Prop :=
  page.isDummy = false ∧ page.WellFormed ∧ page.slotCount ≠ 0 ∧
    ¬(page.upper ≤ (page.described page.slotCount).start ∧
      (page.described page.slotCount).start + (page.described page.slotCount).length ≤
        page.special)

instance (page : Page) : Decidable page.LastSlotAstray := by
  unfold LastSlotAstray
  infer_instance

/-- The last slot of a page leads astray, or it has an item. -/
theorem item_last
    {page : Page}
    (real : page.isDummy = false)
    (wellFormed : page.WellFormed)
    (slots : page.slotCount ≠ 0) :
    if page.LastSlotAstray then
      page.item page.slotCount = .error (.corruptPage (.itemOutside page.slotCount))
    else
      ∃ record, page.item page.slotCount = .ok record := by
  have first : 1 ≤ page.slotCount := Nat.one_le_iff_ne_zero.mpr slots
  have described := slot_of_wellFormed wellFormed first (Nat.le_refl _)
  split
  · next astray =>
      rw [if_neg astray.2.2.2] at described
      simp only [item, described, bind, Except.bind]
  · next sound =>
      have inside :
          page.upper ≤ (page.described page.slotCount).start ∧
            (page.described page.slotCount).start + (page.described page.slotCount).length ≤
              page.special := by
        by_contra outside
        exact sound ⟨real, wellFormed, slots, outside⟩
      rw [if_pos inside] at described
      exact ⟨_, item_eq_ok_iff.mpr ⟨_, described, rfl⟩⟩

end Page

/-! ## One call -/

/-- A call that is to produce the last record of a block, with the store as the call finds it:
between two calls, anything may happen to the store. -/
structure ScanCall (σ : Type) where
  gateway : Gateway
  active : ActiveBlock
  store : σ

namespace ScanCall

variable {σ : Type} [Storage σ]

/-- How the call ends, and the scan that it leaves. -/
def answer (call : ScanCall σ) (before : Scan) : Except Fault Bool × Scan :=
  let (outcome, left) :=
    (call.active.scan call.gateway : StorageM (Scan × σ) Bool).runOn (before, call.store)
  (outcome, left.1)

/-- The page that the call gets. -/
def page (call : ScanCall σ) : Except Fault Page :=
  ((call.active.fetch call.gateway : StorageM σ (RelationId × Page)).runOn call.store).1.map Prod.snd

/-- What is found on a page that was read from a block: its last record with the place of that,
unless it has none. -/
def lastOn (block : BlockNumber) (page : Page) : Except Fault (Option Scan) :=
  if page.isDummy then
    .ok none
  else do
    page.verify
    if page.slotCount = 0 then
      return none
    let record ← page.item page.slotCount
    return some ⟨record, some ⟨block, UInt16.ofNat page.slotCount⟩⟩

def finds (call : ScanCall σ) : Except Fault (Option Scan) :=
  call.page.bind (lastOn call.active.block)

/-- The record that the call produces, and its place. -/
def produced (call : ScanCall σ) : Option Scan := call.finds.toOption.join

/-- Whether the call gets a page whose last slot leads astray. -/
def strays (call : ScanCall σ) : Bool :=
  match call.page with
  | .ok page => decide page.LastSlotAstray
  | .error _ => false

/-- What the call makes of the scan before it. -/
def leaves (call : ScanCall σ) (before : Scan) : Scan :=
  match call.produced with
  | some scan => scan
  | none => if call.strays then { before with record := [] } else before

theorem lastOn_of_dummy
    (block : BlockNumber)
    {page : Page}
    (dummy : page.isDummy = true) :
    lastOn block page = .ok none := by
  rw [lastOn, if_pos dummy]

theorem lastOn_of_error
    (block : BlockNumber)
    {page : Page}
    {fault : Fault}
    (real : page.isDummy = false)
    (malformed : page.verify = .error fault) :
    lastOn block page = .error fault := by
  simp [lastOn, real, malformed, bind, Except.bind]

theorem lastOn_of_item
    (block : BlockNumber)
    {page : Page}
    (real : page.isDummy = false)
    (verified : page.verify = .ok ())
    (slots : page.slotCount ≠ 0) :
    lastOn block page =
      (page.item page.slotCount).map fun record =>
        some ⟨record, some ⟨block, UInt16.ofNat page.slotCount⟩⟩ := by
  simp only [lastOn, real, verified, slots, Bool.false_eq_true, ↓reduceIte]
  rfl

theorem lastOn_of_empty
    (block : BlockNumber)
    {page : Page}
    (real : page.isDummy = false)
    (verified : page.verify = .ok ())
    (empty : page.slotCount = 0) :
    lastOn block page = .ok none := by
  simp only [lastOn, real, verified, empty, Bool.false_eq_true, ↓reduceIte]
  rfl

theorem lastOn_of_astray
    (block : BlockNumber)
    {page : Page}
    (astray : page.LastSlotAstray) :
    lastOn block page = .error (.corruptPage (.itemOutside page.slotCount)) := by
  have ⟨real, wellFormed, slots, _⟩ := astray
  have last := item_last real wellFormed slots
  rw [if_pos astray] at last
  rw [lastOn_of_item block real ((verify_eq_ok_iff page).mpr wellFormed) slots, last, Except.map]

/-- A call ends as what it finds says, and leaves what it is said to leave. -/
theorem answer_eq (call : ScanCall σ) (before : Scan) :
    call.answer before = (call.finds.map Option.isSome, call.leaves before) := by
  have scans :
      (call.active.scan call.gateway : StorageM (Scan × σ) Bool).Yields (before, call.store)
        fun outcome left =>
          outcome = call.finds.map Option.isSome ∧ left.1 = call.leaves before := by
    have fetches :
        (call.active.fetch call.gateway : StorageM σ (RelationId × Page)).Yields call.store
          fun outcome _ => call.page = outcome.map Prod.snd := rfl
    refine yields_onSecond_bind fetches ?_ ?_
    · intro fetched between got
      obtain ⟨relation, page⟩ := fetched
      have finds : call.finds = lastOn call.active.block page := by
        rw [ScanCall.finds, got]
        rfl
      have strays : call.strays = decide page.LastSlotAstray := by
        rw [ScanCall.strays, got]
        rfl
      cases dummy : page.isDummy with
      | true =>
          have notAstray : ¬page.LastSlotAstray := by simp [LastSlotAstray, dummy]
          simp only [dummy, ↓reduceIte]
          refine yields_pure ?_
          simp [leaves, produced, finds, lastOn_of_dummy _ dummy, strays, notAstray, Except.map,
            Except.toOption]
      | false =>
          simp only [dummy, Bool.false_eq_true, ↓reduceIte]
          refine yields_lift_bind (fun done verified => ?_) fun fault malformed => ?_
          · have wellFormed := (verify_eq_ok_iff page).mp verified
            by_cases empty : page.slotCount = 0
            · have notAstray : ¬page.LastSlotAstray := by simp [LastSlotAstray, empty]
              simp only [empty, ↓reduceIte]
              refine yields_pure ?_
              simp [leaves, produced, finds, lastOn_of_empty _ dummy verified empty, strays,
                notAstray, Except.map, Except.toOption]
            · have last := item_last dummy wellFormed empty
              have found := lastOn_of_item call.active.block dummy verified empty
              simp only [empty, ↓reduceIte]
              -- From here on the record is given up, whatever the last slot holds.
              refine yields_modify_bind (yields_lift_bind (fun record holds => ?_) ?_)
              · refine yields_modify_bind (yields_pure ?_)
                simp [leaves, produced, finds, found, holds, Except.map, Except.toOption]
              · intro fault missing
                have astray : page.LastSlotAstray := by
                  by_contra sound
                  rw [if_neg sound] at last
                  obtain ⟨record, holds⟩ := last
                  exact absurd (missing.symm.trans holds) (by simp)
                simp [leaves, produced, finds, found, missing, strays, astray, Except.map,
                  Except.toOption]
          · have notAstray : ¬page.LastSlotAstray := by
              intro astray
              rw [(verify_eq_ok_iff page).mpr astray.2.1] at malformed
              exact absurd malformed (by simp)
            simp [leaves, produced, finds, lastOn_of_error _ dummy malformed, strays, notAstray,
              Except.map, Except.toOption]
    · intro fault between failed
      have finds : call.finds = .error fault := by
        rw [ScanCall.finds, failed]
        rfl
      have strays : call.strays = false := by
        rw [ScanCall.strays, failed]
        rfl
      simp [leaves, produced, finds, strays, Except.map, Except.toOption]
  exact Prod.ext scans.1 scans.2

/-- How a call ends and what it makes of the scan before it. -/
structure Answered
    (call : ScanCall σ)
    (before : Scan)
    (outcome : Except Fault Bool)
    (after : Scan) : Prop where
  produced : outcome = .ok true ↔ call.produced = some after
  /-- A call that produces no record keeps the scan, but if the last slot leads astray the record
  is lost. -/
  kept : outcome ≠ .ok true → (after = before ↔ (call.strays = true → before.record = []))
  cleared :
    call.strays = true →
      (∃ slot, outcome = .error (.corruptPage (.itemOutside slot))) ∧
        after = { before with record := [] }

theorem finds_of_strays
    {call : ScanCall σ}
    (strays : call.strays = true) :
    ∃ slot, call.finds = .error (.corruptPage (.itemOutside slot)) := by
  unfold ScanCall.strays at strays
  cases got : call.page with
  | error fault => simp [got] at strays
  | ok page =>
      rw [got] at strays
      refine ⟨page.slotCount, ?_⟩
      rw [finds, got]
      exact lastOn_of_astray _ (of_decide_eq_true strays)

theorem answered (call : ScanCall σ) (before : Scan) :
    call.Answered before (call.answer before).1 (call.answer before).2 := by
  rw [answer_eq]
  cases found : call.finds with
  | ok last =>
      have steady : call.strays = false := by
        by_contra strays
        obtain ⟨slot, fails⟩ := finds_of_strays ((Bool.not_eq_false _).mp strays)
        exact absurd (found.symm.trans fails) (by simp)
      have produced : call.produced = last := by rw [ScanCall.produced, found]; rfl
      cases last with
      | none =>
          constructor <;> simp [leaves, produced, steady, Except.map]
      | some scan =>
          constructor <;> simp [leaves, produced, steady, Except.map]
  | error fault =>
      have produced : call.produced = none := by rw [ScanCall.produced, found]; rfl
      cases strays : call.strays with
      | false => constructor <;> simp [leaves, produced, strays, Except.map]
      | true =>
          obtain ⟨slot, fails⟩ := finds_of_strays strays
          obtain rfl := Except.error.inj (found.symm.trans fails)
          cases before
          constructor <;> simp [leaves, produced, strays, Except.map, eq_comm]

end ScanCall

/-! ## Runs of calls -/

section Runs

variable {σ : Type} [Storage σ]

/-- The scan after calls, each on the store that it finds. -/
def afterScans (before : Scan) (calls : List (ScanCall σ)) : Scan :=
  calls.foldl (fun scan call => (call.answer scan).2) before

/-- The record that calls produced last, with its place. -/
def lastProduced (before : Scan) (calls : List (ScanCall σ)) : Scan :=
  (calls.filterMap ScanCall.produced).getLastD before

/-- The calls behind the last one that produced a record. -/
def sinceProduced (calls : List (ScanCall σ)) : List (ScanCall σ) :=
  calls.rtakeWhile fun call => call.produced.isNone

theorem lastProduced_append (before : Scan) (calls : List (ScanCall σ)) (call : ScanCall σ) :
    lastProduced before (calls ++ [call]) = call.produced.getD (lastProduced before calls) := by
  unfold lastProduced
  rw [List.filterMap_append]
  cases produced : call.produced with
  | none => simp [produced]
  | some scan => simp [produced]

theorem sinceProduced_append (calls : List (ScanCall σ)) (call : ScanCall σ) :
    sinceProduced (calls ++ [call]) =
      if call.produced.isNone then sinceProduced calls ++ [call] else [] :=
  List.rtakeWhile_concat ..

/-- A scan shows what was produced last, without its record if a later call got a page whose last
slot leads astray. -/
theorem afterScans_eq (before : Scan) (calls : List (ScanCall σ)) :
    afterScans before calls =
      if (sinceProduced calls).any ScanCall.strays then
        { lastProduced before calls with record := [] }
      else
        lastProduced before calls := by
  induction calls using List.reverseRecOn with
  | nil => rfl
  | append_singleton calls call inductionHypothesis =>
      have step : afterScans before (calls ++ [call]) = call.leaves (afterScans before calls) := by
        rw [afterScans, List.foldl_append, List.foldl_cons, List.foldl_nil, call.answer_eq]
        rfl
      rw [step, lastProduced_append, sinceProduced_append, ScanCall.leaves]
      cases call.produced with
      | some scan => rfl
      | none =>
          rw [inductionHypothesis]
          cases lost : (sinceProduced calls).any ScanCall.strays <;>
            cases strays : call.strays <;> simp [lost, strays]

/-- After every run of calls, whatever the stores hold and however the calls end, a scan shows the
record that was produced last with its place; but the record is missing if a call behind it got a
page whose last slot leads astray. A further call that produces no record keeps the scan, unless it
gets such a page and there is a record to lose. -/
theorem scans_show_latest
    (before : Scan)
    (calls : List (ScanCall σ)) :
    (afterScans before calls =
      if (sinceProduced calls).any ScanCall.strays then
        { lastProduced before calls with record := [] }
      else
        lastProduced before calls) ∧
      ∀ call : ScanCall σ,
        call.Answered (afterScans before calls) (call.answer (afterScans before calls)).1
          (call.answer (afterScans before calls)).2 :=
  ⟨afterScans_eq before calls, fun call => call.answered _⟩

end Runs

/-! ## A block whose slot describes nothing -/

/-- A page without a trailer whose only descriptor is blank. -/
def blankSlotPage : Page := (Page.formatted blockSize).setWord 2 0 20

/-- A page with one record, and one whose only descriptor is blank. -/
def blankSlotStore : MemoryStorage :=
  ⟨blockSize, #[#[(Page.forRecords 0).grownBy [170], blankSlotPage], #[]]⟩

def scanOf (block : BlockNumber) : ScanCall MemoryStorage :=
  ⟨twoFiles, ⟨"table", block⟩, blankSlotStore⟩

theorem slotCount_blankSlotPage : blankSlotPage.slotCount = 1 := by
  have lower : blankSlotPage.lower = 20 :=
    (Page.formatted blockSize).word_setWord 20 (by decide)
  rw [Page.slotCount, lower]
  decide

theorem lastSlotAstray_blankSlotPage : blankSlotPage.LastSlotAstray := by
  have pointers := pointers_formatted (Nat.le_refl blockSize)
  have slots := slotCount_blankSlotPage
  have lower : blankSlotPage.lower = 20 :=
    (Page.formatted blockSize).word_setWord 20 (by decide)
  have upper : blankSlotPage.upper = blockSize :=
    ((Page.formatted blockSize).word_setWord_of_disjoint 20 (by decide)).trans pointers.2.1
  have special : blankSlotPage.special = blockSize :=
    ((Page.formatted blockSize).word_setWord_of_disjoint 20 (by decide)).trans pointers.2.2
  have wellFormed : blankSlotPage.WellFormed := by
    rw [Page.WellFormed, lower, upper, special]
    decide
  have blank : (blankSlotPage.described 1).start = 0 := by
    have position : slotPosition 1 = 16 := rfl
    rw [Page.described, position, blankSlotPage, formatted]
    iterate 4 rw [word_setWord_of_disjoint _ _ (by decide)]
    exact word_zero 2 16
  have real : blankSlotPage.isDummy = false := by
    have small : blankSlotPage.carriesIdentity = false := by
      rw [carriesIdentity, wellFormed.isUnformatted, trailerSize, trailerStart, special]
      decide
    rw [isDummy, wellFormed.isUnformatted, identity?, if_neg (by simp [small])]
    rfl
  refine ⟨real, wellFormed, by rw [slots]; decide, ?_⟩
  intro inside
  have start := inside.1
  rw [slots, blank, upper] at start
  exact absurd start (by decide)

theorem page_scanOf
    {block : BlockNumber}
    {page : Page}
    (stored : (contents blankSlotStore).page 1 block = .ok page) :
    (scanOf block).page = .ok page := by
  have sound : Sound blankSlotStore := rfl
  have named : twoFiles.relationNamed (scanOf block).active.file = .ok 1 := rfl
  have fetched := ((scanOf block).active.fetch_yields sound named stored).1
  exact congrArg (Except.map Prod.snd) fetched

theorem finds_scanOf_zero : (scanOf 0).finds = .ok (some ⟨[170], some ⟨0, 1⟩⟩) := by
  have fits : RecordFits [] [170] := by decide
  have holds := ((holdsRecords_forRecords 0).append fits).2
  have slots : ((Page.forRecords 0).grownBy [170]).slotCount = 1 := holds.stocked.slotCount
  have real : ((Page.forRecords 0).grownBy [170]).isDummy = false := by
    rw [holds.isDummy]
    decide
  have firstPage :
      (contents blankSlotStore).page 1 0 = .ok ((Page.forRecords 0).grownBy [170]) := rfl
  have found :=
    ScanCall.lastOn_of_item 0 real ((verify_eq_ok_iff _).mpr holds.stocked.wellFormed)
      (by rw [slots]; decide)
  rw [holds.last (by simp), slots] at found
  have block : (scanOf 0).active.block = 0 := rfl
  rw [ScanCall.finds, page_scanOf firstPage, Except.bind, block, found]
  rfl

theorem finds_scanOf_one :
    (scanOf 1).strays = true ∧ (scanOf 1).finds = .error (.corruptPage (.itemOutside 1)) := by
  have secondPage : (contents blankSlotStore).page 1 1 = .ok blankSlotPage := rfl
  rw [ScanCall.strays, ScanCall.finds, page_scanOf secondPage]
  refine ⟨decide_eq_true lastSlotAstray_blankSlotPage, ?_⟩
  rw [Except.bind, ScanCall.lastOn_of_astray _ lastSlotAstray_blankSlotPage,
    slotCount_blankSlotPage]

theorem produced_scanOf :
    (scanOf 0).produced = some ⟨[170], some ⟨0, 1⟩⟩ ∧ (scanOf 1).produced = none := by
  rw [ScanCall.produced, ScanCall.produced, finds_scanOf_zero, finds_scanOf_one.2]
  exact ⟨rfl, rfl⟩

/-- A record was produced, and the next call fails and keeps its place only. -/
theorem scans_show_latest_blank :
    lastProduced .start [scanOf 0] = ⟨[170], some ⟨0, 1⟩⟩ ∧
      afterScans .start [scanOf 0, scanOf 1] = ⟨[], some ⟨0, 1⟩⟩ ∧
        (scanOf 1).Answered (afterScans .start [scanOf 0])
          ((scanOf 1).answer (afterScans .start [scanOf 0])).1
          ((scanOf 1).answer (afterScans .start [scanOf 0])).2 := by
  have ⟨produced, lost⟩ := produced_scanOf
  have last : lastProduced .start [scanOf 0] = ⟨[170], some ⟨0, 1⟩⟩ := by
    simp [lastProduced, produced]
  have lastToo : lastProduced .start [scanOf 0, scanOf 1] = ⟨[170], some ⟨0, 1⟩⟩ := by
    simp [lastProduced, produced, lost]
  have since : (sinceProduced [scanOf 0, scanOf 1]).any ScanCall.strays = true := by
    have steps := sinceProduced_append [scanOf 0] (scanOf 1)
    rw [lost, Option.isNone_none, if_pos rfl, List.cons_append, List.nil_append] at steps
    rw [steps, List.any_append]
    simp [finds_scanOf_one.1]
  have shows := (scans_show_latest .start [scanOf 0, scanOf 1]).1
  rw [since, lastToo] at shows
  exact ⟨last, shows, (scans_show_latest .start [scanOf 0]).2 (scanOf 1)⟩

/-- A call that fails leaves another scan than the one before it: the place is that of the record
produced before, the record is not. -/
theorem not_scan_unchanged :
    (scanOf 0).answer .start = (.ok true, ⟨[170], some ⟨0, 1⟩⟩) ∧
      (scanOf 1).answer ⟨[170], some ⟨0, 1⟩⟩ =
        (.error (.corruptPage (.itemOutside 1)), ⟨[], some ⟨0, 1⟩⟩) := by
  have ⟨produced, lost⟩ := produced_scanOf
  have ⟨strays, fails⟩ := finds_scanOf_one
  rw [ScanCall.answer_eq, ScanCall.answer_eq, finds_scanOf_zero, fails, ScanCall.leaves,
    ScanCall.leaves, produced, lost, strays]
  exact ⟨rfl, rfl⟩

end ObliviousStorage

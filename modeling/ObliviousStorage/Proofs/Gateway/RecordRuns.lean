import Mathlib.Logic.Function.Basic
import ObliviousStorage.Gateway.Records
import ObliviousStorage.Proofs.Gateway.Establishing
import ObliviousStorage.Proofs.Page.RecordPages
import ObliviousStorage.Proofs.Storage.Accepted
import ObliviousStorage.Proofs.Storage.Lawful

/-!
Contract: runs of calls that add records to active blocks and read the last ones back.

Owns: `RecordCall.Answers`, what each call is answered when its block holds certain records;
`RecordsHeld`, what a store then holds; that every call keeps the records of all blocks but the
record that it adds; and what a run of calls leaves.

Does not own: blocks that hold something else at first than a dummy page.
-/

namespace ObliviousStorage

open StorageM StorageView Page

/-! ## Calls -/

inductive RecordCall where
  | insert (active : ActiveBlock) (record : List UInt8)
  | next (active : ActiveBlock) (scan : Scan)

/-- How a call ended, for `next` together with the scan that it left. -/
inductive RecordAnswer where
  | inserted (outcome : Except Fault Nat)
  | produced (outcome : Except Fault Bool) (scan : Scan)

namespace RecordCall

def active : RecordCall → ActiveBlock
  | .insert active _ => active
  | .next active _ => active

/-- The answer to a call, and the store behind it. -/
def answerOn {σ : Type} [Storage σ] (gateway : Gateway) :
    RecordCall → (store : σ) → RecordAnswer × σ
  | .insert active record, store =>
      let (outcome, left) := (active.append gateway record : StorageM σ Nat).runOn store
      (.inserted outcome, left)
  | .next active scan, store =>
      let (outcome, left) := (active.scan gateway : StorageM (Scan × σ) Bool).runOn (scan, store)
      (.produced outcome left.1, left.2)

/-- The record that a call is to add to this active block. -/
def brings (active : ActiveBlock) : RecordCall → Option (List UInt8)
  | .insert other record => if other = active then some record else none
  | .next _ _ => none

/-- Whether a call adds a record to its block, if that holds these. -/
def Adds (held : List (List UInt8)) : RecordCall → Prop
  | .insert _ record => RecordFits held record
  | .next _ _ => False

/-- What a call is answered if its block holds these records. -/
inductive Answers (held : List (List UInt8)) : RecordCall → RecordAnswer → Prop where
  | added {active : ActiveBlock} {record : List UInt8} :
      RecordFits held record →
        Answers held (.insert active record) (.inserted (.ok (held.length + 1)))
  | refused {active : ActiveBlock} {record : List UInt8} :
      ¬RecordFits held record →
        Answers held (.insert active record) (.inserted (.error (refusal held record)))
  | nothing {active : ActiveBlock} {scan : Scan} :
      held = [] → Answers held (.next active scan) (.produced (.ok false) scan)
  | last {active : ActiveBlock} {scan : Scan} {slot : UInt16} (inserted : held ≠ []) :
      slot.toNat = held.length →
        Answers held (.next active scan)
          (.produced (.ok true) ⟨held.getLast inserted, some ⟨active.block, slot⟩⟩)

end RecordCall

def afterRecordCalls {σ : Type} [Storage σ] (gateway : Gateway) (calls : List RecordCall)
    (store : σ) : σ :=
  calls.foldl (fun left call => (call.answerOn gateway left).2) store

/-- The records of an active block after calls: those of its records that fitted behind the ones
before them. -/
def recordsOf (calls : List RecordCall) (active : ActiveBlock) : List (List UInt8) :=
  taken (recordsEnd - headerSize) (calls.filterMap (RecordCall.brings active))

/-! ## What the store holds -/

/-- An active block without a record: its file is open and has the block, and the page there is
a dummy one. -/
def ActiveBlock.Fresh (gateway : Gateway) (held : Contents) (active : ActiveBlock) : Prop :=
  ∃ relation count page,
    gateway.relationNamed active.file = .ok relation ∧
      held.count relation = .ok count ∧ active.block < count ∧
        held.page relation active.block = .ok page ∧ page.isDummy = true

/-- The blocks of a store are as they were before, but those of the active blocks to which
records were added: these hold their records and no others. -/
structure RecordsHeld
    (gateway : Gateway)
    (Among : ActiveBlock → Prop)
    (before now : Contents)
    (held : ActiveBlock → List (List UInt8)) : Prop where
  records :
    ∀ active relation,
      Among active → gateway.relationNamed active.file = .ok relation → held active ≠ [] →
        ∃ page,
          now.page relation active.block = .ok page ∧
            page.HoldsRecords active.block (held active)
  others :
    ∀ relation block,
      (∀ active,
        Among active → gateway.relationNamed active.file = .ok relation →
          active.block = block → held active = []) →
        now.page relation block = before.page relation block
  counts : ∀ relation, now.count relation = before.count relation

/-! ## Blocks and files -/

namespace Contents

variable
  {held : Contents}
  {relation : RelationId}
  {found : Relation}
  {block : BlockNumber}

theorem page_overwritten
    (inside : block.toNat < found.pages.length)
    (page : Page) :
    (held.put relation (found.overwritten block.toNat page)).page relation block = .ok page :=
  page_of_some (put_same ..) (by simp [Relation.overwritten, inside])

theorem page_overwritten_of_ne
    (present : held relation = some found)
    (page : Page)
    {otherRelation : RelationId}
    {other : BlockNumber}
    (apart : otherRelation = relation → other ≠ block) :
    (held.put relation (found.overwritten block.toNat page)).page otherRelation other =
      held.page otherRelation other := by
  by_cases same : otherRelation = relation
  · subst same
    have numbers : block.toNat ≠ other.toNat := fun equal =>
      apart rfl (UInt32.toNat_inj.mp equal).symm
    simp only [Contents.page, put_same, present, Relation.overwritten, List.getElem?_set_ne numbers]
  · exact page_congr (put_other held _ same) other

theorem count_overwritten
    (present : held relation = some found)
    (block : Nat)
    (page : Page)
    (other : RelationId) :
    (held.put relation (found.overwritten block page)).count other = held.count other := by
  by_cases same : other = relation
  · subst same
    simp only [count, put_same, present, Relation.overwritten, List.length_set]
  · simp only [count, put_other held _ same]

end Contents

/-- Different open files have different relations. -/
theorem Gateway.file_of_relation
    {gateway : Gateway}
    {first second : String}
    {relation : RelationId}
    (distinct : gateway.session.tableRelation ≠ gateway.session.indexRelation)
    (named : gateway.relationNamed first = .ok relation)
    (alsoNamed : gateway.relationNamed second = .ok relation) :
    first = second := by
  have names :
      ∀ name, gateway.relationNamed name = .ok relation →
        name = gateway.session.tableFile ∧ relation = gateway.session.tableRelation ∨
          name = gateway.session.indexFile ∧ relation = gateway.session.indexRelation := by
    intro name named
    simp only [relationNamed, bind_eq_ok_iff, roleNamed, Session.roleOf] at named
    obtain ⟨role, found, -, -, same⟩ := named
    obtain rfl := Except.ok.inj same
    split at found
    · next known =>
        split at known
        · next table =>
            obtain rfl := Except.ok.inj found
            obtain rfl := Option.some.inj known
            exact .inl ⟨table, rfl⟩
        · split at known
          · next index =>
              obtain rfl := Except.ok.inj found
              obtain rfl := Option.some.inj known
              exact .inr ⟨index, rfl⟩
          · exact absurd known (by simp)
    · exact absurd found (by simp)
  rcases names first named with ⟨same, role⟩ | ⟨same, role⟩ <;>
    rcases names second alsoNamed with ⟨sameToo, roleToo⟩ | ⟨sameToo, roleToo⟩
  · rw [same, sameToo]
  · exact absurd (role.symm.trans roleToo) distinct
  · exact absurd (roleToo.symm.trans role) distinct
  · rw [same, sameToo]

section Calls

variable
  {σ : Type}
  [Storage σ]
  [LawfulStorage σ]
  {gateway : Gateway}
  {state : σ}
  {active : ActiveBlock}
  {relation : RelationId}
  {page : Page}
  {held : List (List UInt8)}
  {record : List UInt8}

theorem ActiveBlock.fetch_yields
    (sound : Sound state)
    (named : gateway.relationNamed active.file = .ok relation)
    (stored : (contents state).page relation active.block = .ok page) :
    (active.fetch gateway : StorageM σ (RelationId × Page)).Yields state fun outcome left =>
      outcome = .ok (relation, page) ∧ Sound left ∧ contents left = contents state := by
  have sized : Gateway.requireLength 1 blockSize = .ok () :=
    require_eq_ok_iff.mpr (Nat.one_mul _).symm
  have authorizes :
      (gateway.authorize active.file 1 blockSize : StorageM σ RelationId).Yields state
        fun outcome left => outcome = .ok relation ∧ left = state := by
    apply yields_bind (Gateway.requirePageSized_yields state)
    · rintro _ _ rfl
      exact yields_lift_bind_value sized (yields_lift ⟨named, rfl⟩)
    · exact fun _ _ refused => absurd sound refused.2
  have reads := read_answers sound relation active.block
  rw [stored] at reads
  refine yields_bind_value authorizes ?_
  rintro _ rfl
  refine yields_bind_value reads ?_
  exact fun left holds => yields_pure ⟨rfl, holds⟩

/-- A record that fits is written to the block, behind those that are there. -/
theorem ActiveBlock.append_of_fits
    (sound : Sound state)
    (named : gateway.relationNamed active.file = .ok relation)
    (stored : (contents state).page relation active.block = .ok page)
    (holds : (active.pageToFill page).HoldsRecords active.block held)
    (fits : RecordFits held record) :
    (active.append gateway record : StorageM σ Nat).Yields state fun outcome left =>
      outcome = .ok (held.length + 1) ∧ Sound left ∧
        ∃ found grown,
          contents state relation = some found ∧ active.block.toNat < found.pages.length ∧
            grown.HoldsRecords active.block (held ++ [record]) ∧
              contents left =
                (contents state).put relation (found.overwritten active.block.toNat grown) := by
  obtain ⟨appends, grown⟩ := holds.append fits
  obtain ⟨found, present, among⟩ := Contents.page_eq_ok_iff.mp stored
  have inside := (List.getElem?_eq_some_iff.mp among).1
  refine yields_bind_value (active.fetch_yields sound named stored) ?_
  rintro between ⟨soundBetween, same⟩
  apply yields_lift_bind_value appends
  refine yields_bind_value (write_of_sound soundBetween same present inside _) ?_
  rintro left ⟨soundLeft, written⟩
  exact yields_pure ⟨rfl, soundLeft, found, _, present, inside, grown, written⟩

theorem ActiveBlock.append_of_full
    (sound : Sound state)
    (named : gateway.relationNamed active.file = .ok relation)
    (stored : (contents state).page relation active.block = .ok page)
    (holds : (active.pageToFill page).HoldsRecords active.block held)
    (full : ¬RecordFits held record) :
    (active.append gateway record : StorageM σ Nat).Yields state fun outcome left =>
      outcome = .error (refusal held record) ∧ Sound left ∧ contents left = contents state := by
  refine yields_bind_value (active.fetch_yields sound named stored) ?_
  rintro between ⟨soundBetween, same⟩
  exact yields_lift_bind_stop (holds.refuses full) ⟨rfl, soundBetween, same⟩

theorem ActiveBlock.scan_of_dummy
    (sound : Sound state)
    (named : gateway.relationNamed active.file = .ok relation)
    (stored : (contents state).page relation active.block = .ok page)
    (dummy : page.isDummy = true)
    (scan : Scan) :
    (active.scan gateway : StorageM (Scan × σ) Bool).Yields (scan, state) fun outcome left =>
      outcome = .ok false ∧ left.1 = scan ∧ Sound left.2 ∧
        contents left.2 = contents state := by
  refine yields_onSecond_bind (active.fetch_yields sound named stored) ?_
    fun _ _ holds => absurd holds.1 (by simp)
  rintro ⟨_, _⟩ between ⟨same, soundBetween, unchanged⟩
  obtain ⟨rfl, rfl⟩ := Prod.mk.inj (Except.ok.inj same)
  simp only [dummy, ↓reduceIte]
  exact yields_pure ⟨rfl, rfl, soundBetween, unchanged⟩

theorem ActiveBlock.scan_of_records
    (sound : Sound state)
    (named : gateway.relationNamed active.file = .ok relation)
    (stored : (contents state).page relation active.block = .ok page)
    (real : page.isDummy = false)
    (holds : page.HoldsRecords active.block held)
    (inserted : held ≠ [])
    (scan : Scan) :
    (active.scan gateway : StorageM (Scan × σ) Bool).Yields (scan, state) fun outcome left =>
      outcome = .ok true ∧
        left.1 = ⟨held.getLast inserted, some ⟨active.block, UInt16.ofNat held.length⟩⟩ ∧
          Sound left.2 ∧ contents left.2 = contents state := by
  have verified := (verify_eq_ok_iff page).mpr holds.stocked.wellFormed
  have slots : page.slotCount ≠ 0 := by
    rw [holds.stocked.slotCount]
    exact Nat.ne_of_gt (List.length_pos_iff.mpr inserted)
  refine yields_onSecond_bind (active.fetch_yields sound named stored) ?_
    fun _ _ holds => absurd holds.1 (by simp)
  rintro ⟨_, _⟩ between ⟨same, soundBetween, unchanged⟩
  obtain ⟨rfl, rfl⟩ := Prod.mk.inj (Except.ok.inj same)
  simp only [real, Bool.false_eq_true, ↓reduceIte, slots]
  apply yields_lift_bind_value verified
  refine yields_modify_bind ?_
  apply yields_lift_bind_value (holds.last inserted)
  refine yields_modify_bind (yields_pure ⟨rfl, ?_, soundBetween, unchanged⟩)
  rw [holds.stocked.slotCount]

end Calls

/-! ## One call -/

namespace RecordsHeld

variable
  {gateway : Gateway}
  {Among : ActiveBlock → Prop}
  {before now : Contents}
  {held : ActiveBlock → List (List UInt8)}
  {active : ActiveBlock}

theorem start (gateway : Gateway) (Among : ActiveBlock → Prop) (before : Contents) :
    RecordsHeld gateway Among before before fun _ => [] where
  records _ _ _ _ inserted := absurd rfl inserted
  others _ _ _ := rfl
  counts _ := rfl

/-- The page of an active block is still a dummy one if the block has no record. -/
theorem stored
    (holds : RecordsHeld gateway Among before now held)
    (distinct : gateway.session.tableRelation ≠ gateway.session.indexRelation)
    (among : Among active)
    (fresh : active.Fresh gateway before) :
    ∃ relation page,
      gateway.relationNamed active.file = .ok relation ∧
        now.page relation active.block = .ok page ∧
          (active.pageToFill page).HoldsRecords active.block (held active) ∧
            (held active = [] ∧ page.isDummy = true ∨
              held active ≠ [] ∧ page.isDummy = false ∧
                page.HoldsRecords active.block (held active)) := by
  obtain ⟨relation, count, page, named, -, inside, present, dummy⟩ := fresh
  by_cases none : held active = []
  · have unchanged : now.page relation active.block = before.page relation active.block := by
      apply holds.others
      intro other alsoAmong alsoNamed sameBlock
      have sameFile := Gateway.file_of_relation distinct alsoNamed named
      have same : other = active := by
        cases other
        cases active
        simp_all
      rw [same, none]
    refine ⟨relation, page, named, unchanged.trans present, ?_, .inl ⟨none, dummy⟩⟩
    rw [ActiveBlock.pageToFill, if_pos dummy, none]
    exact holdsRecords_forRecords active.block
  · obtain ⟨filled, stored, records⟩ := holds.records active relation among named none
    have real : active.block ≠ dummyIdentity := by
      intro same
      have most := count.toNat_lt
      have least := UInt32.lt_iff_toNat_lt.mp inside
      rw [same] at least
      exact absurd least (Nat.not_lt.mpr (Nat.le_of_lt_succ most))
    have notDummy : filled.isDummy = false := by
      rw [records.isDummy, decide_eq_false real]
    refine ⟨relation, filled, named, stored, ?_, .inr ⟨none, notDummy, records⟩⟩
    rw [ActiveBlock.pageToFill, notDummy]
    exact records

/-- A block whose page was replaced by one that holds one record more. -/
theorem grow
    {relation : RelationId}
    {found : Relation}
    {grown : Page}
    {records : List (List UInt8)}
    (holds : RecordsHeld gateway Among before now held)
    (distinct : gateway.session.tableRelation ≠ gateway.session.indexRelation)
    (among : Among active)
    (named : gateway.relationNamed active.file = .ok relation)
    (present : now relation = some found)
    (inside : active.block.toNat < found.pages.length)
    (grows : grown.HoldsRecords active.block records)
    (some : records ≠ []) :
    RecordsHeld gateway Among before
      (now.put relation (found.overwritten active.block.toNat grown))
      (Function.update held active records) where
  records other otherRelation alsoAmong alsoNamed inserted := by
    by_cases same : other = active
    · subst same
      obtain rfl := Except.ok.inj (named.symm.trans alsoNamed)
      rw [Function.update_self]
      exact ⟨grown, Contents.page_overwritten inside grown, grows⟩
    · rw [Function.update_of_ne same] at inserted ⊢
      obtain ⟨page, stored, records⟩ :=
        holds.records other otherRelation alsoAmong alsoNamed inserted
      refine ⟨page, ?_, records⟩
      rw [Contents.page_overwritten_of_ne present grown, stored]
      rintro rfl sameBlock
      apply same
      have sameFile := Gateway.file_of_relation distinct alsoNamed named
      cases other
      cases active
      simp_all
  others otherRelation block empty := by
    have apart : otherRelation = relation → block ≠ active.block := by
      rintro rfl rfl
      have none := empty active among named rfl
      rw [Function.update_self] at none
      exact some none
    rw [Contents.page_overwritten_of_ne present grown apart]
    apply holds.others
    intro other alsoAmong alsoNamed sameBlock
    have none := empty other alsoAmong alsoNamed sameBlock
    by_cases same : other = active
    · subst same
      rw [Function.update_self] at none
      exact absurd none some
    · rwa [Function.update_of_ne same] at none
  counts other := by rw [Contents.count_overwritten present, holds.counts]

end RecordsHeld

namespace RecordCall

/-- The records of all active blocks after one more call. -/
def heldAfter (held : ActiveBlock → List (List UInt8)) :
    RecordCall → ActiveBlock → List (List UInt8)
  | .insert active record =>
      if RecordFits (held active) record then
        Function.update held active (held active ++ [record])
      else
        held
  | .next _ _ => held

theorem recordsOf_append (calls : List RecordCall) (call : RecordCall) :
    recordsOf (calls ++ [call]) = call.heldAfter (recordsOf calls) := by
  funext active
  rw [recordsOf, List.filterMap_append]
  cases call with
  | next other scan =>
      have brings : (RecordCall.next other scan).brings active = none := rfl
      rw [List.filterMap_cons_none brings, List.filterMap_nil, List.append_nil]
      rfl
  | insert other record =>
      by_cases same : other = active
      · subst same
        have brings : (RecordCall.insert other record).brings other = some record := if_pos rfl
        rw [List.filterMap_cons_some brings, List.filterMap_nil, taken_append, heldAfter]
        -- What fits behind those that were taken is what fits behind the block's records.
        by_cases fits : RecordFits (recordsOf calls other) record
        · rw [if_pos fits, Function.update_self]
          exact if_pos fits
        · rw [if_neg fits]
          exact if_neg fits
      · have brings : (RecordCall.insert other record).brings active = none := if_neg same
        rw [List.filterMap_cons_none brings, List.filterMap_nil, List.append_nil, heldAfter]
        split
        · rw [Function.update_of_ne (Ne.symm same)]
          rfl
        · rfl

/-- What a call does to a sound store whose active blocks hold these records. -/
structure Served
    {σ : Type}
    [Storage σ]
    [LawfulStorage σ]
    (gateway : Gateway)
    (held : List (List UInt8))
    (call : RecordCall)
    (state : σ) : Prop where
  answers : call.Answers held (call.answerOn gateway state).1
  sound : Sound (call.answerOn gateway state).2
  /-- Nothing changes unless a record is added. -/
  unchanged : ¬call.Adds held → contents (call.answerOn gateway state).2 = contents state

variable
  {σ : Type}
  [Storage σ]
  [LawfulStorage σ]
  {gateway : Gateway}
  {Among : ActiveBlock → Prop}
  {before : Contents}
  {held : ActiveBlock → List (List UInt8)}
  {state : σ}

/-- A call is served, and leaves the records that were there and the one it adds. -/
theorem step
    (call : RecordCall)
    (sound : Sound state)
    (distinct : gateway.session.tableRelation ≠ gateway.session.indexRelation)
    (fresh : ∀ active, Among active → active.Fresh gateway before)
    (holds : RecordsHeld gateway Among before (contents state) held)
    (among : Among call.active) :
    Served gateway (held call.active) call state ∧
      RecordsHeld gateway Among before (contents (call.answerOn gateway state).2)
        (call.heldAfter held) := by
  obtain ⟨relation, page, named, stored, fillable, kind⟩ :=
    holds.stored distinct among (fresh _ among)
  cases call with
  | insert active record =>
      by_cases fits : RecordFits (held active) record
      · obtain ⟨outcome, soundLeft, found, grown, present, inside, grows, written⟩ :=
          active.append_of_fits sound named stored fillable fits
        have answer :
            ((RecordCall.insert active record).answerOn gateway state).1 =
              .inserted (.ok ((held active).length + 1)) :=
          congrArg RecordAnswer.inserted outcome
        refine ⟨⟨answer ▸ .added fits, soundLeft, fun refused => absurd fits refused⟩, ?_⟩
        rw [heldAfter, if_pos fits]
        exact written ▸
          holds.grow distinct among named present inside grows (List.concat_ne_nil _ _)
      · obtain ⟨outcome, soundLeft, same⟩ :=
          active.append_of_full sound named stored fillable fits
        have answer :
            ((RecordCall.insert active record).answerOn gateway state).1 =
              .inserted (.error (refusal (held active) record)) :=
          congrArg RecordAnswer.inserted outcome
        refine ⟨⟨answer ▸ .refused fits, soundLeft, fun _ => same⟩, ?_⟩
        rw [heldAfter, if_neg fits]
        exact same.symm ▸ holds
  | next active scan =>
      rcases kind with ⟨none, dummy⟩ | ⟨inserted, real, records⟩
      · obtain ⟨outcome, left, soundLeft, same⟩ :=
          active.scan_of_dummy sound named stored dummy scan
        have answer :
            ((RecordCall.next active scan).answerOn gateway state).1 =
              .produced (.ok false) scan :=
          congrArg₂ RecordAnswer.produced outcome left
        exact ⟨⟨answer ▸ .nothing none, soundLeft, fun _ => same⟩, same.symm ▸ holds⟩
      · obtain ⟨outcome, left, soundLeft, same⟩ :=
          active.scan_of_records sound named stored real records inserted scan
        have small : (held active).length < 65535 :=
          records.stocked.slotCount ▸ page.slotCount_lt
        have slot : (UInt16.ofNat (held active).length).toNat = (held active).length :=
          UInt16.toNat_ofNat_of_lt' (Nat.lt_succ_of_lt small)
        have answer :
            ((RecordCall.next active scan).answerOn gateway state).1 =
              .produced (.ok true)
                ⟨(held active).getLast inserted,
                  some ⟨active.block, UInt16.ofNat (held active).length⟩⟩ :=
          congrArg₂ RecordAnswer.produced outcome left
        exact ⟨⟨answer ▸ .last inserted slot, soundLeft, fun _ => same⟩, same.symm ▸ holds⟩

end RecordCall

/-! ## Runs of calls -/

/-- In every run of calls on active blocks that had no record at first, each call is answered by
the records that were added to its block before. A record is refused exactly if it does not fit
behind them, and then, as after a scan, every block of the store is as it was. After the run,
the blocks that records were added to hold these and no others, in the order in which they were
added; all other blocks are as they were, so that one without a record is still a dummy one. -/
theorem records_served
    {σ : Type}
    [Storage σ]
    [LawfulStorage σ]
    {gateway : Gateway}
    {Among : ActiveBlock → Prop}
    {state : σ}
    (sound : Sound state)
    (distinct : gateway.session.tableRelation ≠ gateway.session.indexRelation)
    (fresh : ∀ active, Among active → active.Fresh gateway (contents state))
    (calls : List RecordCall)
    (about : ∀ call ∈ calls, Among call.active) :
    RecordsHeld gateway Among (contents state)
        (contents (afterRecordCalls gateway calls state)) (recordsOf calls) ∧
      ∀ call : RecordCall, Among call.active →
        call.Served gateway (recordsOf calls call.active)
          (afterRecordCalls gateway calls state) := by
  have run :
      Sound (afterRecordCalls gateway calls state) ∧
        RecordsHeld gateway Among (contents state)
          (contents (afterRecordCalls gateway calls state)) (recordsOf calls) := by
    induction calls using List.reverseRecOn with
    | nil => exact ⟨sound, .start gateway Among (contents state)⟩
    | append_singleton calls call inductionHypothesis =>
        obtain ⟨soundNow, holds⟩ :=
          inductionHypothesis fun earlier member => about earlier (List.mem_append_left _ member)
        have among := about call (List.mem_append_right _ (List.mem_singleton_self call))
        obtain ⟨served, later⟩ := call.step soundNow distinct fresh holds among
        rw [afterRecordCalls, List.foldl_append, RecordCall.recordsOf_append]
        exact ⟨served.sound, later⟩
  exact ⟨run.2, fun call among => (call.step run.1 distinct fresh run.2 among).1⟩

/-! ## Two files of dummy pages -/

def twoFiles : Gateway := .opened ⟨"table", "index", 1, 2, none, by decide⟩

def dummyStore : MemoryStorage := ⟨blockSize, #[#[Page.dummy, Page.dummy], #[Page.dummy]]⟩

/-- Two records for a block of the table file and, between them, one for a block of the index file
that may be too large, and a scan of that block. -/
def mixedCalls (large : List UInt8) : List RecordCall :=
  [.insert ⟨"table", 1⟩ [1, 2], .insert ⟨"index", 0⟩ large, .next ⟨"index", 0⟩ .start,
    .insert ⟨"table", 1⟩ []]

theorem recordsOf_mixedCalls
    {large : List UInt8}
    (tooLarge : large.length = 9000) :
    recordsOf (mixedCalls large) ⟨"table", 1⟩ = [[1, 2], []] ∧
      recordsOf (mixedCalls large) ⟨"index", 0⟩ = [] := by
  have brought :
      (mixedCalls large).filterMap (RecordCall.brings ⟨"table", 1⟩) = [[1, 2], []] ∧
        (mixedCalls large).filterMap (RecordCall.brings ⟨"index", 0⟩) = [large] := by
    constructor <;> rfl
  have refused : ¬footprint large ≤ recordsEnd - headerSize := by
    rw [footprint, tooLarge]
    decide
  rw [recordsOf, recordsOf, brought.1, brought.2]
  refine ⟨rfl, ?_⟩
  rw [taken, List.foldl_cons, List.foldl_nil, if_neg]
  rwa [occupied, List.map_nil, List.sum_nil, Nat.zero_add]

/-- A block that was given two records holds them, and one whose only record was refused is still
a dummy one. -/
theorem records_served_mixed :
    let left := afterRecordCalls twoFiles (mixedCalls (List.replicate 9000 7)) dummyStore
    (∃ page, (contents left).page 1 1 = .ok page ∧ page.HoldsRecords 1 [[1, 2], []]) ∧
      (contents left).page 2 0 = .ok Page.dummy ∧
        (RecordCall.next ⟨"table", 1⟩ .start).Answers [[1, 2], []]
          ((RecordCall.next ⟨"table", 1⟩ .start).answerOn twoFiles left).1 := by
  have tooLarge : (List.replicate 9000 (7 : UInt8)).length = 9000 := List.length_replicate
  generalize List.replicate 9000 (7 : UInt8) = large at tooLarge ⊢
  intro left
  have sound : Sound dummyStore := rfl
  have dummy : Page.dummy.isDummy = true := by
    rw [Page.dummy, (holdsRecords_forRecords dummyIdentity).isDummy, decide_eq_true rfl]
  have fresh :
      ∀ active : ActiveBlock, active = ⟨"table", 1⟩ ∨ active = ⟨"index", 0⟩ →
        active.Fresh twoFiles (contents dummyStore) := by
    rintro active (rfl | rfl)
    · exact ⟨1, 2, Page.dummy, rfl, rfl, by decide, rfl, dummy⟩
    · exact ⟨2, 1, Page.dummy, rfl, rfl, by decide, rfl, dummy⟩
  have about :
      ∀ call ∈ mixedCalls large,
        call.active = ⟨"table", 1⟩ ∨ call.active = ⟨"index", 0⟩ := by
    intro call member
    simp only [mixedCalls, List.mem_cons, List.not_mem_nil, or_false] at member
    rcases member with rfl | rfl | rfl | rfl
    · exact .inl rfl
    · exact .inr rfl
    · exact .inr rfl
    · exact .inl rfl
  obtain ⟨held, served⟩ :=
    records_served sound (by decide) fresh (mixedCalls large) about
  obtain ⟨table, index⟩ := recordsOf_mixedCalls tooLarge
  refine ⟨?_, ?_, ?_⟩
  · have records := held.records ⟨"table", 1⟩ 1 (.inl rfl) rfl
    rw [table] at records
    exact records (by simp)
  · refine (held.others 2 0 ?_).trans rfl
    rintro active (rfl | rfl) named sameBlock
    · exact absurd named (by decide)
    · exact index
  · have serves := served (RecordCall.next ⟨"table", 1⟩ .start) (.inl rfl)
    rw [RecordCall.active, table] at serves
    exact serves.answers

end ObliviousStorage

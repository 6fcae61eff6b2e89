import ObliviousStorage.Gateway.Opening
import ObliviousStorage.Proofs.Gateway.Establishing
import ObliviousStorage.Proofs.Index.Numbering

/-!
Contract: the steps by which the files of a table come into being, up to the dummy pages
that fill them.

Owns: when a table fits the sizes that its row declares; `Contents.withFiles`, what a
store holds besides two files that it did not have before; and what creating the files
and filling them leave.

Each step leaves all relations that were there as they were, also when it is refused.
A sound store refuses none that makes sense, as long as it has identities left.

Does not own: the pages of the heap and of the index.
-/

namespace ObliviousStorage

open StorageM StorageView

/-! ## Two new files -/

/-- The files of a session are not among these relations, nor are they the same. -/
structure Session.NewTo (session : Session) (held : Contents) : Prop where
  table : held session.tableRelation = none
  index : held session.indexRelation = none
  distinct : session.tableRelation ≠ session.indexRelation

/-- A session over files of these names, with this layout of the index file. -/
structure Session.Serves (session : Session) (names : FileNames) (layout : Index.Layout) :
    Prop where
  tableFile : session.tableFile = names.tableFile
  indexFile : session.indexFile = names.indexFile
  layout : session.layout = some layout

namespace Contents

/-- The contents with the two files of a session among them. -/
def withFiles (held : Contents) (session : Session) (table index : Relation) : Contents :=
  (held.put session.tableRelation table).put session.indexRelation index

section WithFiles

variable {held : Contents} {session : Session} {table index : Relation}

@[simp] theorem withFiles_index :
    held.withFiles session table index session.indexRelation = some index := by
  simp [withFiles]

theorem withFiles_table (new : session.NewTo held) :
    held.withFiles session table index session.tableRelation = some table := by
  rw [withFiles, put_other _ _ new.distinct, put_same]

theorem put_withFiles_index (changed : Relation) :
    (held.withFiles session table index).put session.indexRelation changed =
      held.withFiles session table changed := by
  simp [withFiles]

theorem put_withFiles_table (new : session.NewTo held) (changed : Relation) :
    (held.withFiles session table index).put session.tableRelation changed =
      held.withFiles session changed index := by
  rw [withFiles, put_comm _ _ _ new.distinct.symm, put_put, withFiles]

/-- Relations that were there stay as they were. -/
theorem withFiles_of_some
    {relation : RelationId}
    {found : Relation}
    (new : session.NewTo held)
    (present : held relation = some found) :
    held.withFiles session table index relation = some found := by
  have notTable : relation ≠ session.tableRelation := by
    rintro rfl
    exact absurd (new.table.symm.trans present) (by simp)
  have notIndex : relation ≠ session.indexRelation := by
    rintro rfl
    exact absurd (new.index.symm.trans present) (by simp)
  rw [withFiles, put_other _ _ notIndex, put_other _ _ notTable, present]

end WithFiles

end Contents

variable {σ : Type} [Storage σ] [LawfulStorage σ]

/-- A state that followed another one and still holds what that one held. -/
structure Spared (before after : σ) (spent : Nat) : Prop where
  became : Became before after (contents after) spent
  keeps :
    ∀ relation found, contents before relation = some found →
      contents after relation = some found

namespace Spared

theorem of_became
    {before after : σ}
    {held : Contents}
    {spent : Nat}
    (became : Became before after held spent)
    (keeps : ∀ relation found, contents before relation = some found → held relation = some found) :
    Spared before after spent where
  became := by
    have same := became
    rwa [← became.holds] at same
  keeps relation found present := by
    rw [became.holds]
    exact keeps relation found present

theorem trans
    {first second third : σ}
    {spent more : Nat}
    (begins : Spared first second spent)
    (continues : Spared second third more) :
    Spared first third (spent + more) where
  became := begins.became.trans continues.became
  keeps relation found present :=
    continues.keeps relation found (begins.keeps relation found present)

theorem weaken
    {before after : σ}
    {spent most : Nat}
    (spared : Spared before after spent)
    (bound : spent ≤ most) :
    Spared before after most where
  became := spared.became.weaken bound
  keeps := spared.keeps

end Spared

/-- What two new files hold does not matter to the relations that were there. -/
theorem spared_withFiles
    {state left : σ}
    {held : Contents}
    {session : Session}
    {table index : Relation}
    {spent : Nat}
    (same : contents state = held)
    (new : session.NewTo held)
    (became : Became state left (held.withFiles session table index) spent) :
    Spared state left spent :=
  .of_became became fun _ _ present => Contents.withFiles_of_some new (same ▸ present)

/-- At most the two files of a session were changed. -/
def FilesTouched (held : Contents) (session : Session) (state left : σ) : Prop :=
  ∃ table index, Became state left (held.withFiles session table index) 0

/-! ## Measuring -/

/-- The index and the heap of a row fit the sizes that it declares; the index has this
shape. -/
structure Fitting (held : Contents) (row : Catalog.Row) (profile : Index.Profile) : Prop where
  measured : ∃ placements, Index.WholeTrail (Index.Held held row.index) .measure placements profile
  indexFits : profile.size ≤ declaredBlocks row.indexBlocks
  heapFits :
    ∃ heap, held row.heap = some heap ∧ heap.pages.length ≤ declaredBlocks row.tableBlocks

theorem Fitting.unique
    {held : Contents}
    {row : Catalog.Row}
    {profile another : Index.Profile}
    (one : Fitting held row profile)
    (other : Fitting held row another) :
    profile = another := by
  obtain ⟨placements, whole⟩ := one.measured
  obtain ⟨others, second⟩ := other.measured
  exact (whole.unique (Index.held_functional held row.index) second).2

/-- An index that was measured is there. -/
theorem Fitting.index_present
    {held : Contents}
    {row : Catalog.Row}
    {profile : Index.Profile}
    (fitting : Fitting held row profile) :
    ∃ index, held row.index = some index := by
  obtain ⟨placements, fetched, -⟩ := fitting.measured
  obtain ⟨index, present, -⟩ := Contents.page_eq_ok_iff.mp fetched
  exact ⟨index, present⟩

/-- No row declares more blocks than there are block numbers. -/
theorem declaredBlocks_lt (count : Int32) : declaredBlocks count < blockNumberBound := by
  have bound := count.toInt_lt
  simp only [declaredBlocks, blockNumberBound]
  omega

/-- The pages of an index that fits have numbers. -/
theorem Fitting.pages_lt
    {held : Contents}
    {row : Catalog.Row}
    {profile : Index.Profile}
    (fitting : Fitting held row profile) :
    profile.counts.sum < blockNumberBound :=
  profile.size_eq_sum ▸
    Nat.lt_of_le_of_lt fitting.indexFits (declaredBlocks_lt row.indexBlocks)

/-- So have its levels, none of which is empty. -/
theorem Fitting.levels_lt
    {held : Contents}
    {row : Catalog.Row}
    {profile : Index.Profile}
    (fitting : Fitting held row profile) :
    profile.counts.length < blockNumberBound := by
  obtain ⟨placements, whole⟩ := fitting.measured
  exact Nat.lt_of_le_of_lt whole.levels_le fitting.pages_lt

/-- Measuring changes nothing. It is refused only if the table does not fit. -/
theorem measureFitting_yields (row : Catalog.Row) (state : σ) :
    (measureFitting row).Yields state
      (either
        (fun profile left =>
          Fitting (contents state) row profile ∧ Became state left (contents state) 0)
        fun _ left =>
          Became state left (contents state) 0 ∧
            (Sound state → ∀ profile, ¬Fitting (contents state) row profile)) := by
  apply yields_bind (Index.measure_yields row.index state)
  · intro profile between holds
    rcases holds with ⟨measured, became⟩
    have same :
        ∀ another, Fitting (contents state) row another → another = profile := by
      intro another holds
      rcases holds with ⟨⟨placements, whole⟩, -, -⟩
      obtain ⟨others, trail⟩ := measured
      exact (whole.unique (Index.held_functional _ _) trail).2
    apply yields_lift_bind
    · intro _ indexChecked
      have indexFits := require_eq_ok_iff.mp indexChecked
      apply yields_bind (LawfulStorage.count_law between row.heap)
      · intro count left holds
        rcases holds with ⟨counted, later⟩
        rw [became.holds] at counted later
        obtain ⟨heap, present, length⟩ := Contents.count_eq_ok_iff.mp counted
        apply yields_lift_bind
        · intro _ heapChecked
          have heapFits := require_eq_ok_iff.mp heapChecked
          exact yields_pure
            ⟨⟨measured, indexFits, heap, present, length ▸ heapFits⟩, became.trans later⟩
        · intro fault refused
          refine ⟨became.trans later, fun _ another fitting => ?_⟩
          obtain ⟨other, among, heapFits⟩ := fitting.heapFits
          obtain rfl := Option.some.inj (present.symm.trans among)
          rw [length] at heapFits
          rw [require, if_pos heapFits] at refused
          exact absurd refused (by simp)
      · intro fault left refused
        rcases refused with ⟨reason, later⟩
        rw [became.holds] at reason later
        refine ⟨became.trans later, fun sound another fitting => ?_⟩
        obtain ⟨heap, present, heapFits⟩ := fitting.heapFits
        have few := Nat.lt_of_le_of_lt heapFits (declaredBlocks_lt row.tableBlocks)
        have counted : (contents state).count row.heap = .ok (UInt32.ofNat heap.pages.length) :=
          Contents.count_eq_ok_iff.mpr ⟨heap, present, (UInt32.toNat_ofNat_of_lt' few).symm⟩
        exact absurd (counted.symm.trans (reason (became.keepsSound sound))) (by simp)
    · intro fault refused
      refine ⟨became, fun _ another fitting => ?_⟩
      have indexFits := fitting.indexFits
      rw [same another fitting] at indexFits
      rw [require, if_pos indexFits] at refused
      exact absurd refused (by simp)
  · intro fault left refused
    rcases refused with ⟨became, reason⟩
    refine ⟨became, fun sound profile fitting => ?_⟩
    obtain ⟨placements, whole⟩ := fitting.measured
    exact reason sound placements profile whole

/-! ## Creating the files -/

/-- The index file as the creation of an index of this kind leaves it. -/
def initialFile (method : Catalog.AccessMethod) : Relation :=
  ⟨List.replicate method.initialPages Page.plain, Page.zero⟩

/-- Adding initial pages adds them behind those that were added, or stops on the way. -/
theorem addInitialPages_yields
    {held : Contents}
    {relation : RelationId}
    {state : σ}
    (done count : Nat)
    (few : done + count < blockNumberBound)
    (holds :
      contents state = held.put relation ⟨List.replicate done Page.plain, Page.zero⟩) :
    (addInitialPages relation count).Yields state
      (either
        (fun _ left =>
          Became state left
            (held.put relation ⟨List.replicate (done + count) Page.plain, Page.zero⟩) 0)
        fun _ left => Gateway.Touched relation held state left ∧ ¬Sound state) := by
  induction count generalizing done state with
  | zero =>
      have same := Became.refl state
      rw [holds] at same
      exact yields_pure same
  | succ count inductionHypothesis =>
      have present :
          contents state relation = some ⟨List.replicate done Page.plain, Page.zero⟩ := by
        rw [holds, Contents.put_same]
      apply yields_bind (LawfulStorage.extend_law state relation)
      · intro block between holds
        rcases holds with ⟨found, among, number, became⟩
        obtain rfl := Option.some.inj (present.symm.trans among)
        rw [holds, Contents.put_put] at became
        rw [List.length_replicate] at number
        have extended :
            contents between relation =
              some ⟨List.replicate done Page.plain ++ [Page.zero], Page.zero⟩ := by
          rw [became.holds, Contents.put_same]
          rfl
        apply yields_bind (LawfulStorage.write_law between relation block Page.plain)
        · intro _ afterWrite holds
          rcases holds with ⟨found, among, -, written⟩
          obtain rfl := Option.some.inj (extended.symm.trans among)
          have grown :
              (List.replicate done Page.plain ++ [Page.zero]).set block.toNat Page.plain =
                List.replicate (done + 1) Page.plain := by
            rw [number, List.set_append_right _ _ (by simp), List.length_replicate, Nat.sub_self,
              List.set_cons_zero, List.replicate_succ']
          rw [became.holds, Contents.put_put, Relation.overwritten, grown] at written
          have reached := became.trans written
          apply (inductionHypothesis (done + 1) (by omega) written.holds).mono
          · intro _ left later
            rw [Nat.add_assoc, Nat.add_comm 1] at later
            exact reached.trans later
          · intro fault left refused
            rcases refused with ⟨⟨changed, later⟩, unsound⟩
            exact ⟨⟨changed, reached.trans later⟩, fun sound => unsound (reached.keepsSound sound)⟩
        · intro fault left refused
          rcases refused with ⟨reason, written⟩
          rw [became.holds] at written
          refine ⟨⟨_, became.trans written⟩, fun sound => ?_⟩
          have full := reason (became.keepsSound sound) _ extended
          rw [List.length_append, List.length_replicate, List.length_singleton, number] at full
          omega
      · intro fault left refused
        rcases refused with ⟨reason, became⟩
        rw [holds] at became
        refine ⟨⟨_, became⟩, fun sound => ?_⟩
        have full := reason sound _ present
        rw [List.length_replicate] at full
        omega

/-- Creating the files adds two new relations, the second with the initial pages of an
index. It is refused for equal names, for too many pages, and if there are no identities
left. -/
theorem createFiles_yields
    (method : Catalog.AccessMethod)
    (profile : Index.Profile)
    (names : FileNames)
    (state : σ)
    (levels : profile.counts.length < blockNumberBound) :
    (createFiles method profile names).Yields state
      (either
        (fun session left =>
          (∃ layout : Index.Layout,
              layout.counts = profile.counts ∧ session.Serves names layout) ∧
            session.NewTo (contents state) ∧
            Became state left
              ((contents state).withFiles session .created (initialFile method)) 2)
        fun _ left =>
          Spared state left 2 ∧
            (Sound state → 2 ≤ room state →
              names.tableFile = names.indexFile ∨
                blockNumberBound ≤ profile.counts.sum)) := by
  have kept :
      ∀ {held : Contents} {relation : RelationId} (added : Relation),
        held relation = none →
          ∀ other found, held other = some found → held.put relation added other = some found := by
    intro held relation added fresh other found present
    rw [Contents.put_other, present]
    rintro rfl
    exact absurd (fresh.symm.trans present) (by simp)
  apply yields_bind (LawfulStorage.create_law state)
  · intro table afterTable holds
    rcases holds with ⟨freshTable, becameTable⟩
    have sparedTable : Spared state afterTable 1 := .of_became becameTable (kept _ freshTable)
    apply yields_bind (LawfulStorage.create_law afterTable)
    · intro index afterIndex holds
      rcases holds with ⟨freshIndex, becameIndex⟩
      have sparedIndex : Spared state afterIndex 2 :=
        sparedTable.trans (.of_became becameIndex (kept _ freshIndex))
      rw [becameTable.holds] at freshIndex becameIndex
      have distinct : index ≠ table := by
        rintro rfl
        simp at freshIndex
      rw [Contents.put_other _ _ distinct] at freshIndex
      have became := becameTable.trans becameIndex
      have few : 0 + method.initialPages < blockNumberBound := by cases method <;> decide
      apply yields_bind (addInitialPages_yields 0 method.initialPages few became.holds)
      · intro _ left later
        rw [Nat.zero_add] at later
        have becameLeft := became.trans later
        have spared : Spared state left 2 := by
          refine .of_became becameLeft fun other found present => ?_
          refine kept _ ?_ other found (kept _ freshTable other found present)
          rw [Contents.put_other _ _ distinct, freshIndex]
        by_cases sameName : names.tableFile = names.indexFile
        · apply yields_lift_bind
          · intro session made
            rw [Session.create, dif_pos sameName] at made
            exact absurd made (by simp)
          · intro fault refused
            exact ⟨spared, fun _ _ => Or.inl sameName⟩
        · apply yields_lift_bind
          · intro session made
            rw [Session.create, dif_neg sameName] at made
            obtain rfl := Except.ok.inj made
            apply yields_lift_bind
            · intro layout made
              have laidOut := (Index.Layout.ofProfile_eq_ok_iff_of_few levels).mp made
              exact yields_pure
                ⟨⟨layout, laidOut, rfl, rfl, rfl⟩, ⟨freshTable, freshIndex, distinct.symm⟩,
                  becameLeft⟩
            · intro fault refused
              refine ⟨spared, fun _ _ => Or.inr ?_⟩
              by_contra small
              obtain ⟨layout, made, -⟩ :=
                Index.Layout.exists_ofProfile levels (Nat.lt_of_not_le small)
              exact absurd (made.symm.trans refused) (by simp)
          · intro fault refused
            rw [Session.create, dif_neg sameName] at refused
            exact absurd refused (by simp)
      · intro fault left refused
        rcases refused with ⟨⟨changed, later⟩, unsound⟩
        refine ⟨?_, fun sound _ => absurd (became.keepsSound sound) unsound⟩
        refine .of_became (became.trans later) fun other found present => ?_
        refine kept _ ?_ other found (kept _ freshTable other found present)
        rw [Contents.put_other _ _ distinct, freshIndex]
    · intro fault left refused
      rcases refused with ⟨reason, later⟩
      refine ⟨sparedTable.trans ((Spared.of_became later fun _ _ => id).weaken (Nat.zero_le 1)),
        fun sound identities => ?_⟩
      have none := reason (becameTable.keepsSound sound)
      have least := becameTable.keepsRoom
      omega
  · intro fault left refused
    rcases refused with ⟨reason, became⟩
    refine ⟨(Spared.of_became became fun _ _ => id).weaken (Nat.zero_le 2),
      fun sound identities => ?_⟩
    have none := reason sound
    omega

/-! ## Filling the files -/

@[simp] theorem Gateway.session_opened (session : Session) :
    (Gateway.opened session).session = session := rfl

/-- The table file before the heap is copied. -/
def emptyTableFile (row : Catalog.Row) : Relation :=
  Relation.created.overlaid (Page.dummies (declaredBlocks row.tableBlocks))

/-- The index file before the index is relocated. -/
def emptyIndexFile (row : Catalog.Row) (method : Catalog.AccessMethod) : Relation :=
  (initialFile method).overlaid (Page.dummies (declaredBlocks row.indexBlocks))

/-- Filling both files puts dummy pages into them up to their declared sizes. A sound
store does not refuse it. -/
theorem fillFiles_yields
    {held : Contents}
    {session : Session}
    {method : Catalog.AccessMethod}
    {state : σ}
    (row : Catalog.Row)
    (new : session.NewTo held)
    (holds : contents state = held.withFiles session .created (initialFile method)) :
    (fillFiles session row).Yields (Gateway.opened session, state)
      (either
        (fun _ left =>
          left.1 = Gateway.opened session ∧
            Became state left.2
              (held.withFiles session (emptyTableFile row) (emptyIndexFile row method)) 0)
        fun _ left => FilesTouched held session state left.2 ∧ ¬Sound state) := by
  have tableNamed : session.roleOf session.tableFile = some .table := by simp [Session.roleOf]
  have indexNamed : session.roleOf session.indexFile = some .index := by
    simp [Session.roleOf, session.names_ne.symm]
  have tablePresent : contents state session.tableRelation = some .created := by
    rw [holds, Contents.withFiles_table new]
  have small : ∀ count, (Page.dummies (declaredBlocks count)).length < blockNumberBound := by
    intro count
    rw [Page.dummies, List.length_replicate]
    exact declaredBlocks_lt count
  refine yields_bind
    (Gateway.establishImages_yields tableNamed tablePresent rfl
      (fun _ => Gateway.acceptable_of_mem_dummies) (by decide) (small row.tableBlocks)) ?_ ?_
  · rintro _ ⟨gateway, between⟩ ⟨same, became⟩
    obtain rfl : gateway = Gateway.opened session := same
    have becameTable :
        Became state between
          (held.withFiles session (emptyTableFile row) (initialFile method)) 0 := by
      rwa [holds, Gateway.session_opened, Session.relation,
        Contents.put_withFiles_table new] at became
    have indexPresent : contents between session.indexRelation = some (initialFile method) := by
      rw [becameTable.holds, Contents.withFiles_index]
    have few : (initialFile method).pages.length < blockNumberBound := by
      cases method <;> decide
    refine (Gateway.establishImages_yields indexNamed indexPresent rfl
      (fun _ => Gateway.acceptable_of_mem_dummies) few (small row.indexBlocks)).mono ?_ ?_
    · intro _ left holds
      rcases holds with ⟨sameGateway, later⟩
      rw [becameTable.holds, Gateway.session_opened, Session.relation,
        Contents.put_withFiles_index] at later
      exact ⟨sameGateway, becameTable.trans later⟩
    · intro fault left refused
      rcases refused with ⟨⟨changed, later⟩, unsound⟩
      rw [becameTable.holds, Gateway.session_opened, Session.relation,
        Contents.put_withFiles_index] at later
      exact
        ⟨⟨_, _, becameTable.trans later⟩, fun sound => unsound (becameTable.keepsSound sound)⟩
  · intro fault left refused
    rcases refused with ⟨⟨changed, became⟩, unsound⟩
    rw [holds, Gateway.session_opened, Session.relation,
      Contents.put_withFiles_table new] at became
    exact ⟨⟨_, _, became⟩, unsound⟩

end ObliviousStorage

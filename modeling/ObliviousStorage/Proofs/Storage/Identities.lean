import ObliviousStorage.Proofs.Storage.Interchangeable

/-!
Contract: the identities that a store gives to the relations it keeps in files.

Owns: which identities the names in a directory spell; that an open store is ahead of all of them,
through every call and every reopening; and that for this reason a creation always succeeds,
with an identity that nothing there has spelled and no call has returned, and leaves every file
that was there before.

The largest identity has no successor, so a creation that would return it breaks off. A directory
that spells it is left out.

Does not own: a directory that others change.
-/

namespace ObliviousStorage

open StorageM

/-- A name in the directory spells the identity, in one way or another. -/
def Directory.Spells (directory : Directory) (identity : RelationId) : Prop :=
  ∃ name, (directory.contents? name).isSome ∧ relationNamed name = some identity

/-- The identity that has no successor. -/
def lastIdentity : RelationId := 4294967295

theorem toNat_succ_of_lt_last
    {identity : RelationId}
    (below : identity < lastIdentity) :
    (identity + 1).toNat = identity.toNat + 1 := by
  have small : identity.toNat < 4294967295 := below
  rw [UInt32.toNat_add]
  exact Nat.mod_eq_of_lt (Nat.succ_lt_succ small)

theorem lt_last_iff {identity : RelationId} :
    identity < lastIdentity ↔ identity.toNat + 1 < blockNumberBound :=
  Nat.succ_lt_succ_iff.symm

namespace FileStorage

/-- The identity given out next lies above all that names in the directory spell. -/
def Ahead (store : FileStorage) : Prop :=
  ∀ identity, store.directory.Spells identity → identity < store.next

theorem mem_spelled {directory : Directory} {identity : RelationId} :
    identity ∈ directory.files.filterMap (fun file => relationNamed file.1) ↔
      directory.Spells identity := by
  rw [List.mem_filterMap]
  constructor
  · intro found
    obtain ⟨file, among, names⟩ := found
    exact ⟨file.1, Directory.isSome_contents?_iff.mpr ⟨file, among, rfl⟩, names⟩
  · intro spells
    obtain ⟨name, present, names⟩ := spells
    obtain ⟨file, among, rfl⟩ := Directory.isSome_contents?_iff.mp present
    exact ⟨file, among, names⟩

theorem foldl_max_lt_iff {identities : List RelationId} {first bound : RelationId} :
    identities.foldl max first < bound ↔
      first < bound ∧ ∀ identity ∈ identities, identity < bound := by
  rw [UInt32.lt_iff_toNat_lt, toNat_foldl_max]
  simp only [UInt32.lt_iff_toNat_lt]
  generalize first.toNat = value
  induction identities generalizing value with
  | nil => simp
  | cons identity rest inductionHypothesis =>
      rw [List.map_cons, List.foldl_cons, inductionHypothesis, Nat.max_lt, and_assoc,
        List.forall_mem_cons]

theorem highest_lt_iff {directory : Directory} {bound : RelationId} :
    highest directory < bound ↔
      noRelation < bound ∧ ∀ identity, directory.Spells identity → identity < bound := by
  unfold highest
  simp only [foldl_max_lt_iff, mem_spelled]

/-- A store that is opened in a directory is ahead of what is spelled there. -/
theorem ahead_openAt
    {directory : Directory}
    (small : ∀ identity, directory.Spells identity → identity < lastIdentity) :
    (openAt directory).Ahead := by
  have below : highest directory < lastIdentity := highest_lt_iff.mpr ⟨by decide, small⟩
  have above : highest directory < highest directory + 1 := by
    rw [UInt32.lt_iff_toNat_lt, toNat_succ_of_lt_last below]
    exact Nat.lt_succ_self _
  exact (highest_lt_iff.mp above).2

/-- What the calls of a run, with these answers, leave of a store. -/
structure Advanced
    (before : FileStorage)
    (answers : List (Except Fault StoreReply))
    (after : FileStorage) : Prop where
  ahead : after.Ahead
  kept :
    ∀ name, (before.directory.contents? name).isSome → (after.directory.contents? name).isSome
  returned :
    ∀ identity, .ok (.relation identity) ∈ answers →
      (after.directory.contents? (relationFile identity)).isSome

namespace Advanced

theorem append
    {first second third : FileStorage}
    {answers more : List (Except Fault StoreReply)}
    (begins : Advanced first answers second)
    (continues : Advanced second more third) :
    Advanced first (answers ++ more) third where
  ahead := continues.ahead
  kept name there := continues.kept name (begins.kept name there)
  returned identity among := by
    rcases List.mem_append.mp among with early | late
    · exact continues.kept _ (begins.returned identity early)
    · exact continues.returned identity late

/-- The identities that were returned lie below the next one, since their files are there. -/
theorem returned_lt_next
    {before after : FileStorage}
    {answers : List (Except Fault StoreReply)}
    (advanced : Advanced before answers after)
    {identity : RelationId}
    (among : .ok (.relation identity) ∈ answers) :
    identity < after.next :=
  advanced.ahead identity
    ⟨_, advanced.returned identity among, relationNamed_relationFile identity⟩

end Advanced

section Steps

variable {store : FileStorage} (ahead : store.Ahead)

include ahead

/-- A store that is ahead of its directory finds no file for the next relation there. -/
theorem Ahead.fresh : store.directory.contents? (relationFile store.next) = none := by
  rw [← Option.not_isSome_iff_eq_none]
  intro there
  have below := ahead store.next ⟨_, there, relationNamed_relationFile store.next⟩
  exact UInt32.lt_irrefl _ below

theorem create_advanced (below : store.next < lastIdentity) :
    Advanced store [.ok (.relation store.next)]
      { store.putContents store.next #[] with next := store.next + 1 } := by
  have above : store.next < store.next + 1 := by
    rw [UInt32.lt_iff_toNat_lt, toNat_succ_of_lt_last below]
    exact Nat.lt_succ_self _
  constructor
  · intro identity spells
    obtain ⟨name, there, names⟩ := spells
    simp only [putContents, Directory.contents?_put] at there
    split at there
    · next here =>
        rw [← here, relationNamed_relationFile] at names
        rw [← Option.some.inj names]
        exact above
    · exact UInt32.lt_trans (ahead identity ⟨name, there, names⟩) above
  · intro name there
    simp only [putContents, Directory.contents?_put]
    split
    · rfl
    · exact there
  · intro identity among
    obtain rfl : identity = store.next := by simpa using among
    simp [putContents, Directory.contents?_put]

/-- Writing the file of a relation that is there adds no name. -/
theorem putContents_advanced
    {relation : RelationId}
    (there : (store.directory.contents? (relationFile relation)).isSome)
    (contents : Buffer) :
    Advanced store [] (store.putContents relation contents) := by
  have same :
      ∀ name, ((store.putContents relation contents).directory.contents? name).isSome =
        (store.directory.contents? name).isSome := by
    intro name
    rw [putContents, Directory.contents?_put]
    split
    · next here => rw [← here, there, Option.isSome_some]
    · rfl
  constructor
  · intro identity spells
    obtain ⟨name, present, names⟩ := spells
    exact ahead identity ⟨name, same name ▸ present, names⟩
  · intro name present
    rw [same]
    exact present
  · intro identity among
    exact absurd among List.not_mem_nil

/-- What a call leaves of a store that is ahead of its directory. -/
theorem action_advanced (request : StoreRequest) :
    request.action.Yields store fun outcome left => Advanced store [outcome] left := by
  -- A call that returns no identity leaves the names that were there.
  have silently :
      ∀ {outcome left}, (∀ identity, outcome ≠ .ok (.relation identity)) →
        Advanced store [] left → Advanced store [outcome] left := by
    intro outcome left silent unchanged
    refine ⟨unchanged.ahead, unchanged.kept, fun identity among => ?_⟩
    exact absurd (List.mem_singleton.mp among).symm (silent identity)
  have still : Advanced store [] store :=
    ⟨ahead, fun _ there => there, fun _ among => absurd among List.not_mem_nil⟩
  by_cases created : request = .create
  · subst created
    rcases Nat.lt_or_ge (store.next.toNat + 1) blockNumberBound with more | last
    · refine yields_map ((create_answers ahead.fresh more).weaken ?_)
      rintro outcome left ⟨rfl, rfl⟩
      exact create_advanced ahead (lt_last_iff.mpr more)
    · refine yields_map ((create_breaks ahead.fresh last).weaken ?_)
      rintro outcome left ⟨rfl, rfl⟩
      exact silently (by simp [Except.map]) still
  · apply (action_leaves created store).weaken
    rintro outcome left ⟨silent, rfl | ⟨relation, contents, there, rfl⟩⟩
    · exact silently silent still
    · exact silently silent (putContents_advanced ahead there contents)

/-- Opened anew, the store is ahead of its directory as before. -/
theorem Ahead.reopened : store.reopened.Ahead := by
  apply ahead_openAt
  intro identity spells
  have below := UInt32.lt_iff_toNat_lt.mp (ahead identity spells)
  have last : store.next.toNat < 4294967296 := store.next.toNat_lt
  exact UInt32.lt_iff_toNat_lt.mpr (Nat.lt_of_lt_of_le below (Nat.le_of_lt_succ last))

end Steps

/-- A run of calls and reopenings. -/
theorem serve_advanced {store : FileStorage} (ahead : store.Ahead) (turns : List Turn) :
    Advanced store (serve reopened turns store).1 (serve reopened turns store).2 := by
  induction turns generalizing store with
  | nil => exact ⟨ahead, fun _ there => there, fun _ among => absurd among List.not_mem_nil⟩
  | cons turn later inductionHypothesis =>
      cases turn with
      | reopen =>
          have after := inductionHypothesis ahead.reopened
          exact ⟨after.ahead, after.kept, after.returned⟩
      | call request =>
          have here := action_advanced ahead request
          exact here.append (inductionHypothesis here.ahead)

end FileStorage

/-! ## Creations -/

/-- What a creation that returns this identity makes of a store, where the calls before it had
these answers. -/
structure CreatedUnused
    (answers : List (Except Fault StoreReply))
    (before : FileStorage)
    (identity : RelationId)
    (after : FileStorage) : Prop where
  unspelled : ∀ other, before.directory.Spells other → other < identity
  unreturned : ∀ other, .ok (.relation other) ∈ answers → other < identity
  created : after.directory.contents? (relationFile identity) = some #[]
  kept :
    ∀ name contents, before.directory.contents? name = some contents →
      after.directory.contents? name = some contents

/-- Identities are never used twice, whatever names a directory has and wherever the store is
opened anew in between: after every run of calls, a creation succeeds as long as its identity has a
successor; this identity is above all that the names there spell and above all that were returned
before, and no file that was there is changed. -/
theorem create_never_reuses
    {directory : Directory}
    (named : ¬directory.Spells lastIdentity)
    (earlier : List Turn)
    (below :
      (serve FileStorage.reopened earlier (FileStorage.openAt directory)).2.next < lastIdentity) :
    let (answers, before) := serve FileStorage.reopened earlier (FileStorage.openAt directory)
    StoreRequest.create.action.Yields before fun outcome after =>
      ∃ identity, outcome = .ok (.relation identity) ∧
        CreatedUnused answers before identity after := by
  have start : (FileStorage.openAt directory).Ahead := by
    apply FileStorage.ahead_openAt
    intro identity spells
    have other : identity ≠ lastIdentity := fun same => named (same ▸ spells)
    have last : identity ≤ lastIdentity := Nat.le_of_lt_succ identity.toNat_lt
    exact UInt32.lt_of_le_of_ne last other
  have advanced := FileStorage.serve_advanced start earlier
  have fresh := advanced.ahead.fresh
  refine yields_map ((FileStorage.create_answers fresh (lt_last_iff.mp below)).weaken ?_)
  rintro outcome after ⟨rfl, rfl⟩
  refine ⟨_, rfl, advanced.ahead, fun _ among => advanced.returned_lt_next among, ?_, ?_⟩
  · simp [FileStorage.putContents, Directory.contents?_put]
  · intro name contents present
    simp only [FileStorage.putContents, Directory.contents?_put]
    split
    · next here =>
        rw [← here, fresh] at present
        cases present
    · exact present

/-- Two of the names spell an identity, neither of them as the store itself would. -/
def lenientDirectory : Directory := ⟨[("+5", #[]), ("007", #[]), ("x", #[])]⟩

/-- A relation is created, another one has no file to be extended, and the store is left. -/
def lenientTurns : List Turn := [.call .create, .call (.extend 7), .reopen]

/-- The first creation goes behind the larger identity that is spelled, and one after the store was
opened anew goes behind the first. -/
theorem create_never_reuses_lenient :
    let (answers, before) :=
      serve FileStorage.reopened lenientTurns (FileStorage.openAt lenientDirectory)
    answers = [.ok (.relation 8), .error (.notFound 7)] ∧
      StoreRequest.create.action.Yields before fun outcome after =>
        outcome = .ok (.relation 9) ∧ CreatedUnused answers before 9 after := by
  have named : ¬lenientDirectory.Spells lastIdentity := by
    rw [← FileStorage.mem_spelled]
    decide
  obtain ⟨identity, returned, created⟩ :=
    create_never_reuses named lenientTurns (by decide)
  obtain rfl : 9 = identity := by
    injection returned with reply
    injection reply
  exact ⟨rfl, returned, created⟩

end ObliviousStorage

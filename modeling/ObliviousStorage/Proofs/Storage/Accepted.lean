import ObliviousStorage.Proofs.Storage.Contents

/-!
Contract: calls that a sound store cannot refuse.

Owns: for each call, what it returns and leaves when it makes sense and the store refuses
nothing else; and the rules by which a sequence is run when the outcome of its first part is
known.

Does not own: stores that fail by a plan.
-/

namespace ObliviousStorage

open StorageM StorageView

/-- A sequence whose first part returns a known value goes on with that value. -/
theorem StorageM.yields_bind_value
    {σ α β : Type}
    {first : StorageM σ α}
    {next : α → StorageM σ β}
    {state : σ}
    {value : α}
    {middle : σ → Prop}
    {after : Except Fault β → σ → Prop}
    (begins : first.Yields state fun outcome between => outcome = .ok value ∧ middle between)
    (continues : ∀ between, middle between → (next value).Yields between after) :
    (first >>= next).Yields state after := by
  apply yields_bind begins
  · rintro found between ⟨same, holds⟩
    obtain rfl := Except.ok.inj same
    exact continues between holds
  · rintro fault between ⟨same, -⟩
    exact absurd same (by simp)

/-- A sequence whose first part is refused stops there. -/
theorem StorageM.yields_bind_stop
    {σ α β : Type}
    {first : StorageM σ α}
    {next : α → StorageM σ β}
    {state : σ}
    {fault : Fault}
    {after : Except Fault β → σ → Prop}
    (stops :
      first.Yields state fun outcome between =>
        outcome = .error fault ∧ after (.error fault) between) :
    (first >>= next).Yields state after := by
  apply yields_bind stops
  · rintro value between ⟨same, -⟩
    exact absurd same (by simp)
  · rintro other between ⟨same, holds⟩
    rwa [Except.error.inj same]

theorem StorageM.yields_of_runOn
    {σ α : Type}
    {action : StorageM σ α}
    {state left : σ}
    {outcome : Except Fault α}
    {after : Except Fault α → σ → Prop}
    (ran : action.runOn state = (outcome, left))
    (holds : after outcome left) :
    action.Yields state after := by
  rw [Yields, ran]
  exact holds

/-- A lifted value is the value to go on with. -/
theorem StorageM.yields_lift_bind_value
    {σ α β : Type}
    {outcome : Except Fault α}
    {value : α}
    {next : α → StorageM σ β}
    {state : σ}
    {after : Except Fault β → σ → Prop}
    (accepted : outcome = .ok value)
    (continues : (next value).Yields state after) :
    ((liftM outcome : StorageM σ α) >>= next).Yields state after :=
  yields_bind_value (yields_lift ⟨accepted, rfl⟩) fun _ same => same ▸ continues

/-- A lifted refusal is where a sequence stops. -/
theorem StorageM.yields_lift_bind_stop
    {σ α β : Type}
    {outcome : Except Fault α}
    {fault : Fault}
    {next : α → StorageM σ β}
    {state : σ}
    {after : Except Fault β → σ → Prop}
    (refused : outcome = .error fault)
    (stops : after (.error fault) state) :
    ((liftM outcome : StorageM σ α) >>= next).Yields state after :=
  yields_bind_stop (yields_lift ⟨refused, stops⟩)

variable
  {σ : Type}
  [Storage σ]
  [LawfulStorage σ]
  {state : σ}
  {held : Contents}
  {relation : RelationId}
  {found : Relation}

/-- A sound store with an identity to give creates an empty relation. -/
theorem create_of_sound
    (sound : Sound state)
    (roomy : 0 < room state) :
    (Storage.create : StorageM σ RelationId).Yields state fun outcome left =>
      ∃ relation,
        outcome = .ok relation ∧ contents state relation = none ∧ Sound left ∧
          contents left = (contents state).put relation .created := by
  apply (LawfulStorage.create_law state).weaken
  intro outcome left created
  cases outcome with
  | error fault => exact absurd (created.1 sound) (Nat.ne_of_gt roomy)
  | ok relation => exact ⟨relation, rfl, created.1, created.2.keepsSound sound, created.2.holds⟩

/-- A sound store answers how many blocks a relation has, and keeps everything as it was. -/
theorem count_answers
    (sound : Sound state)
    (relation : RelationId) :
    (Storage.blockCount relation : StorageM σ BlockNumber).Yields state fun outcome left =>
      outcome = (contents state).count relation ∧ Sound left ∧ contents left = contents state := by
  apply (LawfulStorage.count_law state relation).weaken
  intro outcome left counted
  cases outcome with
  | ok number => exact ⟨counted.1.symm, counted.2.keepsSound sound, counted.2.holds⟩
  | error fault => exact ⟨(counted.1 sound).symm, counted.2.keepsSound sound, counted.2.holds⟩

theorem count_of_sound
    (sound : Sound state)
    (present : contents state relation = some found)
    (few : found.pages.length < blockNumberBound) :
    ((Storage.blockCount relation : StorageM σ BlockNumber).runOn state).1 =
      .ok (UInt32.ofNat found.pages.length) := by
  rw [(count_answers sound relation).1]
  exact Contents.count_eq_ok_iff.mpr ⟨found, present, (UInt32.toNat_ofNat_of_lt' few).symm⟩

/-- A sound store answers what a block holds, and keeps everything as it was. -/
theorem read_answers
    (sound : Sound state)
    (relation : RelationId)
    (block : BlockNumber) :
    (Storage.read relation block : StorageM σ Page).Yields state fun outcome left =>
      outcome = (contents state).page relation block ∧ Sound left ∧
        contents left = contents state := by
  apply (LawfulStorage.read_law state relation block).weaken
  intro outcome left read
  cases outcome with
  | ok page => exact ⟨read.1.symm, read.2.keepsSound sound, read.2.holds⟩
  | error fault => exact ⟨(read.1 sound).symm, read.2.keepsSound sound, read.2.holds⟩

theorem extend_of_sound
    (sound : Sound state)
    (holds : contents state = held)
    (present : held relation = some found)
    (few : found.pages.length + 1 < blockNumberBound) :
    (Storage.extend relation : StorageM σ BlockNumber).Yields state fun outcome left =>
      outcome = .ok (UInt32.ofNat found.pages.length) ∧ Sound left ∧
        contents left = held.put relation found.extended := by
  subst holds
  apply (LawfulStorage.extend_law state relation).weaken
  intro outcome left extended
  cases outcome with
  | error fault => exact absurd (extended.1 sound found present) (Nat.not_le_of_lt few)
  | ok block =>
      obtain ⟨other, among, place, became⟩ := extended
      obtain rfl := Option.some.inj (present.symm.trans among)
      refine ⟨?_, became.keepsSound sound, became.holds⟩
      rw [← place, UInt32.ofNat_toNat]

theorem write_of_sound
    {block : BlockNumber}
    (sound : Sound state)
    (holds : contents state = held)
    (present : held relation = some found)
    (inside : block.toNat < found.pages.length)
    (page : Page) :
    (Storage.write relation block page : StorageM σ Unit).Yields state fun outcome left =>
      outcome = .ok () ∧ Sound left ∧
        contents left = held.put relation (found.overwritten block.toNat page) := by
  apply (write_known holds present inside page).weaken
  intro outcome left written
  cases outcome with
  | error fault => exact absurd sound written.2
  | ok value => exact ⟨rfl, written.keepsSound sound, written.holds⟩

end ObliviousStorage

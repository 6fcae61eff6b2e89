import ObliviousStorage.Proofs.Storage.Lawful

/-!
Contract: what the laws of a store leave open about creating relations and refusing writes.

Owns: `PreciseStorage`, the stores that do not give a new relation the identity that stands
for none and that refuse a write for the reason for which they would refuse to read the block;
and that the stores in memory and the stores wrapped around another one are of this kind.

Does not own: the laws themselves.
-/

namespace ObliviousStorage

open StorageM StorageView

/-- A store that is precise about identities and about refused writes. -/
class PreciseStorage (σ : Type) [Storage σ] [LawfulStorage σ] : Prop where
  create_named :
    ∀ state : σ,
      (Storage.create : StorageM σ RelationId).Yields state
        (either (fun relation _ => 0 < room state → relation ≠ noRelation) fun _ _ => True)
  write_reported :
    ∀ (state : σ) (relation : RelationId) (block : BlockNumber) (page : Page),
      (Storage.write relation block page : StorageM σ Unit).Yields state
        (either (fun _ _ => True) fun fault _ =>
          Sound state → (contents state).page relation block = .error fault)

namespace MemoryStorage

theorem page_of_checkWrite
    {store : MemoryStorage}
    {relation : RelationId}
    {block : BlockNumber}
    {fault : Fault}
    (sound : store.blockBytes = blockSize)
    (refused : store.checkWrite relation block = .error fault) :
    (contents store).page relation block = .error fault := by
  simp only [checkWrite, require, sound, if_true, blocks_eq, bind, Except.bind] at refused
  simp only [Contents.page, contents_eq]
  cases present : store.blocks? relation with
  | none => simpa [present] using refused
  | some blocks =>
      rw [present] at refused
      rcases Nat.lt_or_ge block.toNat blocks.size with inside | outside
      · simp [inside] at refused
      · have fault_eq : Fault.blockOutOfBounds relation block = fault := by
          simpa [Nat.not_lt_of_le outside] using refused
        simp [outside, fault_eq]

instance : PreciseStorage MemoryStorage where
  create_named store := by
    refine yields_get_bind (yields_lift_bind ?_ fun _ _ => trivial)
    intro following counted
    refine yields_set_bind (yields_pure fun _ none => ?_)
    have fits := Nat.lt_of_succ_lt (wordSum_eq_ok_iff.mp counted).1
    have number := UInt32.toNat_ofNat_of_lt' fits
    rw [none, noRelation_toNat] at number
    omega
  write_reported store relation block page := by
    refine yields_get_bind (yields_lift_bind (fun _ _ => yields_set trivial) ?_)
    exact fun fault refused sound => page_of_checkWrite sound refused

end MemoryStorage

/-- A store whose calls pass on to a precise store is precise. -/
theorem PreciseStorage.of_passesOn
    {ω σ : Type}
    [Storage ω]
    [LawfulStorage ω]
    [Storage σ]
    [LawfulStorage σ]
    [PreciseStorage σ]
    (inner : ω → σ)
    (Intact : ω → Prop)
    (sameContents : ∀ store, contents store = contents (inner store))
    (sameRoom : ∀ store, room store = room (inner store))
    (sound : ∀ store, Sound store → Intact store ∧ Sound (inner store))
    (create : PassesOn inner Intact Storage.create Storage.create)
    (write :
      ∀ relation block page,
        PassesOn inner Intact (Storage.write relation block page)
          (Storage.write relation block page)) :
    PreciseStorage ω where
  create_named store := by
    apply create.yields (create_named (inner store))
    · intro relation _ _ named
      rwa [sameRoom]
    · exact fun _ _ _ _ => trivial
    · exact fun _ _ _ _ => trivial
  write_reported store relation block page := by
    apply (write relation block page).yields (write_reported (inner store) relation block page)
    · exact fun _ _ _ _ => trivial
    · intro fault _ _ reported isSound
      rw [sameContents]
      exact reported (sound store isSound).2
    · exact fun _ _ broken _ isSound => absurd (sound store isSound).1 broken

section Wrapped

variable {σ : Type} [Storage σ] [LawfulStorage σ] [PreciseStorage σ]

instance : PreciseStorage (Traced σ) :=
  .of_passesOn Traced.inner (fun _ => True) (fun _ => rfl) (fun _ => rfl) (fun _ => id)
    (Traced.passesOn_untraced _) fun _ _ _ => Traced.passesOn_record _ _

instance : PreciseStorage (Recording σ) :=
  .of_passesOn Recording.inner (fun _ => True) (fun _ => rfl) (fun _ => rfl) (fun _ => id)
    (Recording.passesOn_onInner _) fun _ _ _ => Recording.passesOn_onInner _

instance : PreciseStorage (Faulty σ) :=
  .of_passesOn Faulty.inner Faulty.Unfailing (fun _ => rfl) (fun _ => rfl) (fun _ => id)
    (Faulty.passesOn_guarded _ _) fun _ _ _ => Faulty.passesOn_guarded _ _

end Wrapped

end ObliviousStorage

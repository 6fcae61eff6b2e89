import ObliviousStorage.Proofs.Storage.Outcomes

/-!
Contract: what a block store holds, and the laws that tie its calls to it.

Owns: the contents of a store as a map from relations to pages; `LawfulStorage`, the
laws of the five calls in terms of contents; and the form in which later proofs use
each law.

A call that is refused changes nothing. A call that succeeds does what its name says,
on any state. A state may besides be `Sound`: then a call is refused only if it makes
no sense, or if there is no identity left for a new relation. A store that follows a
plan of failures has the laws and is sound only when the plan is empty.

Does not own: how a particular store keeps its pages.
-/

namespace ObliviousStorage

/-- The pages of a relation, and the page that the next extension will add. -/
structure Relation where
  pages : List Page
  blank : Page

/-- What a store holds: the relations that exist. -/
abbrev Contents := RelationId → Option Relation

namespace Relation

/-- A relation that was just created. -/
def created : Relation := ⟨[], Page.zero⟩

/-- The relation with one more block. -/
def extended (relation : Relation) : Relation := ⟨relation.pages ++ [relation.blank], Page.zero⟩

theorem length_extended (relation : Relation) :
    relation.extended.pages.length = relation.pages.length + 1 := by
  simp [extended]

/-- With so many more blocks, the relation may have more blocks than there are numbers. -/
def FullFor (relation : Relation) (more : Nat) : Prop :=
  blockNumberBound ≤ relation.pages.length + more

def overwritten (relation : Relation) (block : Nat) (page : Page) : Relation :=
  { relation with pages := relation.pages.set block page }

/-- The relation with these images in its first blocks. -/
def overlaid (relation : Relation) (images : List Page) : Relation :=
  { relation with pages := images ++ relation.pages.drop images.length }

@[simp] theorem overlaid_nil (relation : Relation) : relation.overlaid [] = relation := rfl

theorem length_overlaid
    {relation : Relation}
    {images : List Page}
    (fits : images.length ≤ relation.pages.length) :
    (relation.overlaid images).pages.length = relation.pages.length := by
  simp only [overlaid, List.length_append, List.length_drop]
  omega

/-- One more image goes to the block behind those that are there. -/
theorem overlaid_snoc
    {relation : Relation}
    {images : List Page}
    (page : Page)
    (fits : images.length < relation.pages.length) :
    (relation.overlaid images).overwritten images.length page =
      relation.overlaid (images ++ [page]) := by
  have behind :
      relation.pages.drop images.length =
        relation.pages[images.length] :: relation.pages.drop (images.length + 1) :=
    List.drop_eq_getElem_cons fits
  simp only [overlaid, overwritten]
  rw [List.set_append_right _ _ (Nat.le_refl _), Nat.sub_self, behind, List.set_cons_zero,
    List.length_append, List.length_singleton, List.append_assoc, List.singleton_append]

theorem getElem?_overlaid
    {relation : Relation}
    {images : List Page}
    {block : Nat}
    {page : Page}
    (among : images[block]? = some page) :
    (relation.overlaid images).pages[block]? = some page := by
  rw [overlaid, List.getElem?_append_left (List.getElem?_eq_some_iff.mp among).1, among]

end Relation

namespace Contents

/-- The contents with one relation replaced. -/
def put (held : Contents) (relation : RelationId) (placed : Relation) : Contents :=
  fun other => if other = relation then some placed else held other

/-- What reading a block yields. -/
def page (held : Contents) (relation : RelationId) (block : BlockNumber) : Except Fault Page :=
  match held relation with
  | none => .error (.notFound relation)
  | some found =>
      match found.pages[block.toNat]? with
      | none => .error (.blockOutOfBounds relation block)
      | some page => .ok page

/-- What counting the blocks of a relation yields. -/
def count (held : Contents) (relation : RelationId) : Except Fault BlockNumber :=
  match held relation with
  | none => .error (.notFound relation)
  | some found => toBlockNumber found.pages.length

@[simp] theorem put_same (held : Contents) (relation : RelationId) (placed : Relation) :
    held.put relation placed relation = some placed := by
  simp [put]

theorem put_other
    (held : Contents)
    {relation other : RelationId}
    (placed : Relation)
    (different : other ≠ relation) :
    held.put relation placed other = held other := by
  simp [put, different]

theorem put_of_some
    {held : Contents}
    {relation : RelationId}
    {found : Relation}
    (present : held relation = some found) :
    held.put relation found = held := by
  funext other
  by_cases same : other = relation
  · rw [same, put_same, present]
  · rw [put_other held found same]

@[simp] theorem put_put (held : Contents) (relation : RelationId) (first second : Relation) :
    (held.put relation first).put relation second = held.put relation second := by
  funext other
  by_cases same : other = relation <;> simp [put, same]

theorem put_comm
    (held : Contents)
    {first second : RelationId}
    (one other : Relation)
    (different : first ≠ second) :
    (held.put first one).put second other = (held.put second other).put first one := by
  funext relation
  by_cases same : relation = first
  · subst same
    simp [put, different]
  · simp [put, same]

theorem page_of_some
    {held : Contents}
    {relation : RelationId}
    {found : Relation}
    {block : BlockNumber}
    {page : Page}
    (present : held relation = some found)
    (among : found.pages[block.toNat]? = some page) :
    held.page relation block = .ok page := by
  simp [Contents.page, present, among]

theorem page_eq_ok_iff
    {held : Contents}
    {relation : RelationId}
    {block : BlockNumber}
    {page : Page} :
    held.page relation block = .ok page ↔
      ∃ found, held relation = some found ∧ found.pages[block.toNat]? = some page := by
  unfold Contents.page
  cases present : held relation with
  | none => simp
  | some found => cases among : found.pages[block.toNat]? <;> simp [among]

theorem page_congr
    {held other : Contents}
    {relation : RelationId}
    (same : held relation = other relation)
    (block : BlockNumber) :
    held.page relation block = other.page relation block := by
  simp [Contents.page, same]

theorem toBlockNumber_eq_ok_iff
    {count : Nat}
    {number : BlockNumber} :
    toBlockNumber count = .ok number ↔ number.toNat = count := by
  unfold toBlockNumber
  constructor
  · intro converted
    split at converted
    · next fits =>
        have same : UInt32.ofNat count = number := by simpa using converted
        rw [← same, UInt32.toNat_ofNat_of_lt' fits]
    · exact absurd converted (by simp)
  · intro same
    have fits : count < blockNumberBound := same ▸ number.toNat_lt
    rw [if_pos fits, ← same, UInt32.ofNat_toNat]

theorem count_eq_ok_iff
    {held : Contents}
    {relation : RelationId}
    {number : BlockNumber} :
    held.count relation = .ok number ↔
      ∃ found, held relation = some found ∧ found.pages.length = number.toNat := by
  unfold Contents.count
  cases held relation with
  | none => simp
  | some found =>
      constructor
      · intro counted
        exact ⟨found, rfl, (toBlockNumber_eq_ok_iff.mp counted).symm⟩
      · intro holds
        rcases holds with ⟨other, same, length⟩
        have equal : found = other := by simpa using same
        exact toBlockNumber_eq_ok_iff.mpr (equal ▸ length.symm)

end Contents

/-! ## The laws of a store -/

/-- What later proofs see of the state of a store. -/
class StorageView (σ : Type) where
  contents : σ → Contents
  /-- The store refuses only calls that make no sense. -/
  Sound : σ → Prop
  /-- For how many more relations there are identities. -/
  room : σ → Nat
  /-- What calls keep of a state, whether they succeed or not; at least its soundness. -/
  Follows : σ → σ → Prop := fun before after => Sound before → Sound after
  follows_refl : ∀ state, Follows state state := by exact fun _ => id
  follows_trans :
    ∀ first second third, Follows first second → Follows second third → Follows first third := by
      exact fun _ _ _ begins continues sound => continues (begins sound)
  sound_of_follows : ∀ before after, Follows before after → Sound before → Sound after := by
    exact fun _ _ => id

open StorageView

/-- A state that followed another one, with new contents and at most `spent`
identities fewer to give. -/
structure Became {σ : Type} [StorageView σ] (before after : σ) (held : Contents) (spent : Nat) :
    Prop where
  holds : contents after = held
  keepsRoom : room before ≤ room after + spent
  follows : Follows before after

/-- The calls of a store tied to what it holds. -/
class LawfulStorage (σ : Type) [Storage σ] extends StorageView σ where
  blockBytes_of_sound : ∀ {state : σ}, Sound state → Storage.blockBytes state = blockSize
  create_law :
    ∀ state : σ,
      (Storage.create : StorageM σ RelationId).Yields state
        (StorageM.either
          (fun relation left =>
            contents state relation = none ∧
              Became state left ((contents state).put relation .created) 1)
          fun _ left =>
            (Sound state → room state = 0) ∧ Became state left (contents state) 0)
  count_law :
    ∀ (state : σ) (relation : RelationId),
      (Storage.blockCount relation : StorageM σ BlockNumber).Yields state
        (StorageM.either
          (fun number left =>
            (contents state).count relation = .ok number ∧
              Became state left (contents state) 0)
          fun fault left =>
            (Sound state → (contents state).count relation = .error fault) ∧
              Became state left (contents state) 0)
  read_law :
    ∀ (state : σ) (relation : RelationId) (block : BlockNumber),
      (Storage.read relation block : StorageM σ Page).Yields state
        (StorageM.either
          (fun page left =>
            (contents state).page relation block = .ok page ∧
              Became state left (contents state) 0)
          fun fault left =>
            (Sound state → (contents state).page relation block = .error fault) ∧
              Became state left (contents state) 0)
  write_law :
    ∀ (state : σ) (relation : RelationId) (block : BlockNumber) (page : Page),
      (Storage.write relation block page : StorageM σ Unit).Yields state
        (StorageM.either
          (fun _ left =>
            ∃ found,
              contents state relation = some found ∧ block.toNat < found.pages.length ∧
                Became state left
                  ((contents state).put relation (found.overwritten block.toNat page)) 0)
          fun _ left =>
            (Sound state →
              ∀ found, contents state relation = some found →
                found.pages.length ≤ block.toNat) ∧
              Became state left (contents state) 0)
  extend_law :
    ∀ (state : σ) (relation : RelationId),
      (Storage.extend relation : StorageM σ BlockNumber).Yields state
        (StorageM.either
          (fun block left =>
            ∃ found,
              contents state relation = some found ∧ block.toNat = found.pages.length ∧
                Became state left ((contents state).put relation found.extended) 0)
          fun _ left =>
            (Sound state →
              ∀ found, contents state relation = some found →
                blockNumberBound ≤ found.pages.length + 1) ∧
              Became state left (contents state) 0)

namespace Became

variable {σ : Type} [StorageView σ]

theorem keepsSound
    {before after : σ}
    {held : Contents}
    {spent : Nat}
    (became : Became before after held spent) :
    Sound before → Sound after :=
  sound_of_follows _ _ became.follows

theorem refl (state : σ) : Became state state (contents state) 0 :=
  ⟨rfl, Nat.le_refl _, follows_refl _⟩

theorem trans
    {first second third : σ}
    {between held : Contents}
    {spent more : Nat}
    (begins : Became first second between spent)
    (continues : Became second third held more) :
    Became first third held (spent + more) where
  holds := continues.holds
  keepsRoom := by
    have earlier := begins.keepsRoom
    have later := continues.keepsRoom
    omega
  follows := follows_trans _ _ _ begins.follows continues.follows

theorem weaken
    {before after : σ}
    {held : Contents}
    {spent most : Nat}
    (became : Became before after held spent)
    (bound : spent ≤ most) :
    Became before after held most where
  holds := became.holds
  keepsRoom := by
    have room := became.keepsRoom
    omega
  follows := became.follows

end Became

/-! ## Calls that change nothing -/

section Looking

variable {σ : Type} [Storage σ] [LawfulStorage σ]

theorem read_keeps (relation : RelationId) (block : BlockNumber) (state : σ) :
    (Storage.read relation block : StorageM σ Page).Yields state
      fun _ left => contents left = contents state := by
  apply (LawfulStorage.read_law state relation block).weaken
  intro outcome left holds
  cases outcome with
  | error fault => exact holds.2.holds
  | ok page => exact holds.2.holds

theorem count_keeps (relation : RelationId) (state : σ) :
    (Storage.blockCount relation : StorageM σ BlockNumber).Yields state
      fun _ left => contents left = contents state := by
  apply (LawfulStorage.count_law state relation).weaken
  intro outcome left holds
  cases outcome with
  | error fault => exact holds.2.holds
  | ok count => exact holds.2.holds

end Looking

/-! ## Calls on blocks that are there -/

section Known

variable
  {σ : Type}
  [Storage σ]
  [LawfulStorage σ]
  {state : σ}
  {held : Contents}
  {relation : RelationId}
  {block : BlockNumber}

/-- A sound store yields the page of a block that it has. -/
theorem read_known
    {page : Page}
    (holds : contents state = held)
    (present : held.page relation block = .ok page) :
    (Storage.read relation block : StorageM σ Page).Yields state
      (StorageM.either
        (fun found left => found = page ∧ Became state left held 0)
        fun _ left => Became state left held 0 ∧ ¬Sound state) := by
  subst holds
  apply (LawfulStorage.read_law state relation block).mono
  · intro found left yields
    rcases yields with ⟨reads, became⟩
    exact ⟨Except.ok.inj (reads.symm.trans present), became⟩
  · intro fault left refused
    rcases refused with ⟨reason, became⟩
    exact ⟨became, fun sound => absurd (present.symm.trans (reason sound)) (by simp)⟩

/-- A sound store overwrites a block that it has. -/
theorem write_known
    {found : Relation}
    (holds : contents state = held)
    (present : held relation = some found)
    (inside : block.toNat < found.pages.length)
    (page : Page) :
    (Storage.write relation block page : StorageM σ Unit).Yields state
      (StorageM.either
        (fun _ left =>
          Became state left (held.put relation (found.overwritten block.toNat page)) 0)
        fun _ left => Became state left held 0 ∧ ¬Sound state) := by
  subst holds
  apply (LawfulStorage.write_law state relation block page).mono
  · intro _ left written
    rcases written with ⟨other, among, -, became⟩
    obtain rfl := Option.some.inj (present.symm.trans among)
    exact became
  · intro fault left refused
    rcases refused with ⟨reason, became⟩
    exact ⟨became, fun sound => absurd (reason sound found present) (Nat.not_le_of_lt inside)⟩

end Known

end ObliviousStorage

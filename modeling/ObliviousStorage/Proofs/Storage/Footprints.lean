import ObliviousStorage.Proofs.Storage.Lawful

/-!
Contract: which relations an action changes, and which blocks it transfers.

Owns: `Confined`, that an action changes no relation but some, whether it succeeds or is
refused; `OnlyReads`, that it transfers no blocks but by reading those of one relation; and
the rules by which sequences of calls have these properties.

Does not own: what an action does to the relations that it may change.
-/

namespace ObliviousStorage

open StorageM StorageView

/-! ## Changes -/

section Changes

variable
  {σ α β : Type}
  [Storage σ]
  [LawfulStorage σ]
  {Allowed : RelationId → Prop}

/-- All relations but these are as they were. -/
structure Keeps (Allowed : RelationId → Prop) (before after : σ) : Prop where
  follows : Follows before after
  same : ∀ relation, ¬Allowed relation → contents after relation = contents before relation

namespace Keeps

theorem refl (state : σ) : Keeps Allowed state state := ⟨follows_refl _, fun _ _ => rfl⟩

theorem trans
    {first second third : σ}
    (begins : Keeps Allowed first second)
    (continues : Keeps Allowed second third) :
    Keeps Allowed first third where
  follows := follows_trans _ _ _ begins.follows continues.follows
  same relation other := (continues.same relation other).trans (begins.same relation other)

theorem of_unchanged
    {before after : σ}
    {spent : Nat}
    (became : Became before after (contents before) spent) :
    Keeps Allowed before after :=
  ⟨became.follows, fun _ _ => congrFun became.holds _⟩

theorem of_put
    {before after : σ}
    {relation : RelationId}
    {placed : Relation}
    {spent : Nat}
    (allowed : Allowed relation)
    (became : Became before after ((contents before).put relation placed) spent) :
    Keeps Allowed before after where
  follows := became.follows
  same other notAllowed := by
    rw [became.holds, Contents.put_other]
    rintro rfl
    exact notAllowed allowed

end Keeps

/-- The action changes no relation but these, whatever comes of it, and returns such
values. -/
def Confined
    (Allowed : RelationId → Prop)
    (Returned : α → Prop)
    (action : StorageM σ α) : Prop :=
  ∀ state,
    action.Yields state
      (either
        (fun value left => Returned value ∧ Keeps Allowed state left)
        fun _ left => Keeps Allowed state left)

namespace Confined

variable
  {Returned : α → Prop}
  {Results : β → Prop}

theorem keeps
    {action : StorageM σ α}
    (confined : Confined Allowed Returned action)
    (state : σ) :
    action.Yields state fun _ left => Keeps Allowed state left := by
  apply (confined state).weaken
  intro outcome left holds
  cases outcome with
  | ok value => exact holds.2
  | error fault => exact holds

theorem ofPure
    {value : α}
    (returned : Returned value) :
    Confined Allowed Returned (pure value : StorageM σ α) :=
  fun state => yields_pure ⟨returned, .refl state⟩

theorem ofThrow (fault : Fault) :
    Confined Allowed Returned (throw fault : StorageM σ α) :=
  fun state => yields_throw (.refl state)

theorem ofLift
    {outcome : Except Fault α}
    (returned : ∀ value, outcome = .ok value → Returned value) :
    Confined Allowed Returned (liftM outcome : StorageM σ α) := by
  intro state
  refine yields_lift ?_
  cases outcome with
  | ok value => exact ⟨returned value rfl, .refl state⟩
  | error fault => exact .refl state

theorem bind
    {action : StorageM σ α}
    {next : α → StorageM σ β}
    (begins : Confined Allowed Returned action)
    (continues : ∀ value, Returned value → Confined Allowed Results (next value)) :
    Confined Allowed Results (action >>= next) := by
  intro state
  apply yields_bind (begins state)
  · rintro value between ⟨returned, kept⟩
    exact (continues value returned between).mono
      (fun _ _ later => ⟨later.1, kept.trans later.2⟩) fun _ _ later => kept.trans later
  · exact fun _ _ kept => kept

theorem ofRead (relation : RelationId) (block : BlockNumber) :
    Confined Allowed (fun _ => True) (Storage.read relation block : StorageM σ Page) :=
  fun state => (LawfulStorage.read_law state relation block).mono
    (fun _ _ holds => ⟨trivial, .of_unchanged holds.2⟩) fun _ _ refused => .of_unchanged refused.2

theorem ofCount (relation : RelationId) :
    Confined Allowed (fun _ => True) (Storage.blockCount relation : StorageM σ BlockNumber) :=
  fun state => (LawfulStorage.count_law state relation).mono
    (fun _ _ holds => ⟨trivial, .of_unchanged holds.2⟩) fun _ _ refused => .of_unchanged refused.2

theorem ofWrite
    {relation : RelationId}
    (allowed : Allowed relation)
    (block : BlockNumber)
    (page : Page) :
    Confined Allowed (fun _ => True) (Storage.write relation block page : StorageM σ Unit) := by
  refine fun state => (LawfulStorage.write_law state relation block page).mono ?_ ?_
  · rintro _ left ⟨found, -, -, became⟩
    exact ⟨trivial, .of_put allowed became⟩
  · exact fun _ _ refused => .of_unchanged refused.2

theorem ofExtend
    {relation : RelationId}
    (allowed : Allowed relation) :
    Confined Allowed (fun _ => True) (Storage.extend relation : StorageM σ BlockNumber) := by
  refine fun state => (LawfulStorage.extend_law state relation).mono ?_ ?_
  · rintro block left ⟨found, -, -, became⟩
    exact ⟨trivial, .of_put allowed became⟩
  · exact fun _ _ refused => .of_unchanged refused.2

end Confined

end Changes

/-! ## Transfers -/

section Transfers

variable
  {σ α β : Type}
  {relation : RelationId}

/-- The action transfers no blocks but by reading those of one relation. -/
def OnlyReads (relation : RelationId) (action : StorageM (Traced σ) α) : Prop :=
  ∀ state,
    action.Yields state fun _ left =>
      ∃ blocks : List BlockNumber,
        left.trace.toList = state.trace.toList ++ blocks.map (Transfer.read relation)

namespace OnlyReads

theorem ofPure (value : α) : OnlyReads relation (pure value : StorageM (Traced σ) α) :=
  fun _ => yields_pure ⟨[], by simp⟩

theorem ofThrow (fault : Fault) : OnlyReads relation (throw fault : StorageM (Traced σ) α) :=
  fun _ => yields_throw ⟨[], by simp⟩

theorem ofLift (outcome : Except Fault α) :
    OnlyReads relation (liftM outcome : StorageM (Traced σ) α) :=
  fun _ => yields_lift ⟨[], by simp⟩

theorem ofUntraced (action : StorageM σ α) :
    OnlyReads relation (Traced.untraced action : StorageM (Traced σ) α) :=
  fun _ => ⟨[], by simp [Traced.untraced]⟩

theorem ofRead [Storage σ] (block : BlockNumber) :
    OnlyReads relation (Storage.read relation block : StorageM (Traced σ) Page) :=
  fun _ => ⟨[block], Array.toList_push ..⟩

theorem bind
    {action : StorageM (Traced σ) α}
    {next : α → StorageM (Traced σ) β}
    (begins : OnlyReads relation action)
    (continues : ∀ value, OnlyReads relation (next value)) :
    OnlyReads relation (action >>= next) := by
  intro state
  apply yields_bind (begins state)
  · rintro value between ⟨first, reads⟩
    apply (continues value between).weaken
    rintro _ left ⟨more, readsMore⟩
    refine ⟨first ++ more, ?_⟩
    rw [readsMore, reads, List.map_append, List.append_assoc]
  · exact fun _ _ reads => reads

end OnlyReads

end Transfers

end ObliviousStorage

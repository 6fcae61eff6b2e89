import ObliviousStorage.Storage.Basic

/-!
Contract: what two actions lead to that run side by side, each on a state of its own.

Owns: `SameOutcome`, two outcomes that cannot be told apart but by what was returned;
`StorageM.Concur`, which states that two actions have the same outcome and leave states that
are related; and the rules by which this passes through sequences, lifted outcomes and pairs
of states.

A refusal is the same as another one only if the fault is the same.

Does not own: which states are related.
-/

namespace ObliviousStorage

/-- Both are accepted with values that are the same for the purpose, or both are refused with
one fault. -/
inductive SameOutcome {α : Type} (Same : α → α → Prop) : Except Fault α → Except Fault α → Prop
  | accepted {one other : α} (same : Same one other) : SameOutcome Same (.ok one) (.ok other)
  | refused (fault : Fault) : SameOutcome Same (.error fault) (.error fault)

namespace SameOutcome

variable
  {α β : Type}
  {Same : α → α → Prop}
  {one other : Except Fault α}

theorem of_eq (same : one = other) : SameOutcome Eq one other := by
  subst same
  cases one with
  | ok value => exact .accepted rfl
  | error fault => exact .refused fault

theorem eq (same : SameOutcome Eq one other) : one = other := by
  cases same with
  | accepted equal => rw [equal]
  | refused fault => rfl

theorem weaken
    {Weaker : α → α → Prop}
    (same : SameOutcome Same one other)
    (implies : ∀ value value', Same value value' → Weaker value value') :
    SameOutcome Weaker one other := by
  cases same with
  | accepted equal => exact .accepted (implies _ _ equal)
  | refused fault => exact .refused fault

theorem bind
    {After : β → β → Prop}
    {next next' : α → Except Fault β}
    (same : SameOutcome Same one other)
    (continues :
      ∀ value value',
        one = .ok value → other = .ok value' → Same value value' →
          SameOutcome After (next value) (next' value')) :
    SameOutcome After (one >>= next) (other >>= next') := by
  cases same with
  | accepted equal => exact continues _ _ rfl rfl equal
  | refused fault => exact .refused fault

end SameOutcome

/-- Two pairs whose halves are related one by one. -/
def Beside
    {τ σ : Type}
    (First : τ → τ → Prop)
    (Second : σ → σ → Prop)
    (left right : τ × σ) : Prop :=
  First left.1 right.1 ∧ Second left.2 right.2

namespace StorageM

variable
  {σ τ α β : Type}
  {Related : σ → σ → Prop}
  {Same : α → α → Prop}
  {After : β → β → Prop}
  {left right : σ}

/-- Two actions have the same outcome from these states and leave states that are related. -/
def Concur
    (one other : StorageM σ α)
    (Same : α → α → Prop)
    (Related : σ → σ → Prop)
    (left right : σ) : Prop :=
  SameOutcome Same (one.runOn left).1 (other.runOn right).1 ∧
    Related (one.runOn left).2 (other.runOn right).2

theorem Concur.weaken
    {one other : StorageM σ α}
    {Weaker : α → α → Prop}
    (concur : one.Concur other Same Related left right)
    (implies : ∀ value value', Same value value' → Weaker value value') :
    one.Concur other Weaker Related left right :=
  ⟨concur.1.weaken implies, concur.2⟩

theorem concur_pure
    {one other : α}
    (same : Same one other)
    (related : Related left right) :
    (pure one : StorageM σ α).Concur (pure other) Same Related left right :=
  ⟨.accepted same, related⟩

theorem concur_throw
    {fault : Fault}
    (related : Related left right) :
    (throw fault : StorageM σ α).Concur (throw fault) Same Related left right :=
  ⟨.refused fault, related⟩

theorem concur_lift
    {one other : Except Fault α}
    (same : SameOutcome Same one other)
    (related : Related left right) :
    (liftM one : StorageM σ α).Concur (liftM other) Same Related left right :=
  ⟨same, related⟩

theorem concur_set
    {new new' : σ}
    (related : Related new new') :
    (set new : StorageM σ PUnit).Concur (set new') Eq Related left right :=
  ⟨.accepted rfl, related⟩

theorem concur_get_bind
    {next next' : σ → StorageM σ β}
    (continues : (next left).Concur (next' right) After Related left right) :
    (get >>= next : StorageM σ β).Concur (get >>= next') After Related left right := continues

theorem concur_modify_bind
    {change change' : σ → σ}
    {next next' : PUnit → StorageM σ β}
    (continues :
      (next ⟨⟩).Concur (next' ⟨⟩) After Related (change left) (change' right)) :
    (modify change >>= next : StorageM σ β).Concur (modify change' >>= next') After Related left
      right := continues

/-- Sequences concur if their first parts do and so does what follows equal values. -/
theorem concur_bind
    {first first' : StorageM σ α}
    {next next' : α → StorageM σ β}
    (begins : first.Concur first' Same Related left right)
    (continues :
      ∀ value value' between between',
        first.runOn left = (.ok value, between) → Same value value' → Related between between' →
          (next value).Concur (next' value') After Related between between') :
    (first >>= next).Concur (first' >>= next') After Related left right := by
  rcases begins with ⟨same, related⟩
  unfold Concur
  rw [runOn_bind, runOn_bind]
  cases ran : first.runOn left with
  | mk outcome between =>
      cases ran' : first'.runOn right with
      | mk outcome' between' =>
          rw [ran, ran'] at same related
          cases same with
          | accepted equal => exact continues _ _ _ _ ran equal related
          | refused fault => exact ⟨.refused fault, related⟩

theorem concur_lift_bind
    {one other : Except Fault α}
    {next next' : α → StorageM σ β}
    (same : SameOutcome Same one other)
    (related : Related left right)
    (continues :
      ∀ value value',
        one = .ok value → other = .ok value' → Same value value' →
          (next value).Concur (next' value') After Related left right) :
    ((liftM one : StorageM σ α) >>= next).Concur (liftM other >>= next') After Related left
      right := by
  cases same with
  | accepted equal => exact continues _ _ rfl rfl equal
  | refused fault => exact ⟨.refused fault, related⟩

/-- One check in front of two actions. -/
theorem concur_check_bind
    {check : Except Fault α}
    {next next' : α → StorageM σ β}
    (related : Related left right)
    (continues :
      ∀ value, check = .ok value → (next value).Concur (next' value) After Related left right) :
    ((liftM check : StorageM σ α) >>= next).Concur (liftM check >>= next') After Related left
      right := by
  refine concur_lift_bind (.of_eq rfl) related fun value value' checked _ same => ?_
  subst same
  exact continues value checked

theorem concur_onSecond
    {action action' : StorageM σ α}
    {First : τ → τ → Prop}
    {first first' : τ}
    (beside : First first first')
    (concur : action.Concur action' Same Related left right) :
    (action.onSecond : StorageM (τ × σ) α).Concur action'.onSecond Same (Beside First Related)
      (first, left) (first', right) :=
  ⟨concur.1, beside, concur.2⟩

theorem concur_withFirst
    {action action' : StorageM (τ × σ) α}
    {First : τ → τ → Prop}
    {first first' : τ}
    (concur : action.Concur action' Same (Beside First Related) (first, left) (first', right)) :
    (action.withFirst first).Concur (action'.withFirst first')
      (fun value value' => Same value.1 value'.1 ∧ First value.2 value'.2) Related left right := by
  rcases concur with ⟨same, beside, related⟩
  refine ⟨?_, related⟩
  rw [runOn_withFirst, runOn_withFirst]
  dsimp only
  generalize (action.runOn (first, left)).1 = outcome at same
  generalize (action'.runOn (first', right)).1 = outcome' at same
  cases same with
  | accepted equal => exact .accepted ⟨equal, beside⟩
  | refused fault => exact .refused fault

end StorageM

end ObliviousStorage

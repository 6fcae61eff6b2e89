import ObliviousStorage.Storage.Basic

/-!
Contract: what an action on a store leads to, whether it succeeds or is refused.

Owns: `StorageM.Yields`, which states one property of the outcome of an action and
of the state it leaves behind, and the rules by which such properties pass through
sequences, lifted outcomes and pairs of states.

A property of the outcome covers both cases, since the state survives a refusal:
an action that stops halfway still has to say what it left.

Does not own: what any particular store does.
-/

namespace ObliviousStorage.StorageM

variable {σ τ α β : Type}

/-- What `action` leads to from `state` satisfies `after`. -/
def Yields
    (action : StorageM σ α)
    (state : σ)
    (after : Except Fault α → σ → Prop) : Prop :=
  after (action.runOn state).1 (action.runOn state).2

/-- The property of an outcome that has one part for success and one for refusal. -/
def either
    (accepted : α → σ → Prop)
    (refused : Fault → σ → Prop) : Except Fault α → σ → Prop
  | .ok value, left => accepted value left
  | .error fault, left => refused fault left

@[simp] theorem either_ok
    (accepted : α → σ → Prop)
    (refused : Fault → σ → Prop)
    (value : α)
    (left : σ) :
    either accepted refused (.ok value) left = accepted value left := rfl

@[simp] theorem either_error
    (accepted : α → σ → Prop)
    (refused : Fault → σ → Prop)
    (fault : Fault)
    (left : σ) :
    either accepted refused (.error fault : Except Fault α) left = refused fault left := rfl

theorem Yields.runOn
    {action : StorageM σ α}
    {state left : σ}
    {after : Except Fault α → σ → Prop}
    {outcome : Except Fault α}
    (yields : action.Yields state after)
    (ran : action.runOn state = (outcome, left)) :
    after outcome left := by
  unfold Yields at yields
  rwa [ran] at yields

theorem Yields.weaken
    {action : StorageM σ α}
    {state : σ}
    {after weaker : Except Fault α → σ → Prop}
    (yields : action.Yields state after)
    (implies : ∀ outcome left, after outcome left → weaker outcome left) :
    action.Yields state weaker :=
  implies _ _ yields

theorem Yields.and
    {action : StorageM σ α}
    {state : σ}
    {one other : Except Fault α → σ → Prop}
    (first : action.Yields state one)
    (second : action.Yields state other) :
    action.Yields state fun outcome left => one outcome left ∧ other outcome left :=
  ⟨first, second⟩

/-- Weakens both parts of a property. -/
theorem Yields.mono
    {action : StorageM σ α}
    {state : σ}
    {accepted accepted' : α → σ → Prop}
    {refused refused' : Fault → σ → Prop}
    (yields : action.Yields state (either accepted refused))
    (onAccepted : ∀ value left, accepted value left → accepted' value left)
    (onRefused : ∀ fault left, refused fault left → refused' fault left) :
    action.Yields state (either accepted' refused') := by
  refine yields.weaken fun outcome left holds => ?_
  cases outcome with
  | ok value => exact onAccepted value left holds
  | error fault => exact onRefused fault left holds

theorem yields_pure
    {value : α}
    {state : σ}
    {after : Except Fault α → σ → Prop}
    (holds : after (.ok value) state) :
    (pure value : StorageM σ α).Yields state after := holds

theorem yields_throw
    {fault : Fault}
    {state : σ}
    {after : Except Fault α → σ → Prop}
    (holds : after (.error fault) state) :
    (throw fault : StorageM σ α).Yields state after := holds

theorem yields_lift
    {outcome : Except Fault α}
    {state : σ}
    {after : Except Fault α → σ → Prop}
    (holds : after outcome state) :
    (liftM outcome : StorageM σ α).Yields state after := holds

theorem yields_set
    {state new : σ}
    {after : Except Fault PUnit → σ → Prop}
    (holds : after (.ok ⟨⟩) new) :
    (set new : StorageM σ PUnit).Yields state after := holds

theorem yields_get_bind
    {next : σ → StorageM σ β}
    {state : σ}
    {after : Except Fault β → σ → Prop}
    (continues : (next state).Yields state after) :
    (get >>= next : StorageM σ β).Yields state after := continues

theorem yields_set_bind
    {next : PUnit → StorageM σ β}
    {state new : σ}
    {after : Except Fault β → σ → Prop}
    (continues : (next ⟨⟩).Yields new after) :
    (set new >>= next : StorageM σ β).Yields state after := continues

theorem yields_modify_bind
    {change : σ → σ}
    {next : PUnit → StorageM σ β}
    {state : σ}
    {after : Except Fault β → σ → Prop}
    (continues : (next ⟨⟩).Yields (change state) after) :
    (modify change >>= next : StorageM σ β).Yields state after := continues

/-- A sequence leads where its second part does, or stops where its first part was
refused. -/
theorem yields_bind
    {first : StorageM σ α}
    {next : α → StorageM σ β}
    {state : σ}
    {middle : Except Fault α → σ → Prop}
    {after : Except Fault β → σ → Prop}
    (begins : first.Yields state middle)
    (continues : ∀ value between, middle (.ok value) between → (next value).Yields between after)
    (stops : ∀ fault between, middle (.error fault) between → after (.error fault) between) :
    (first >>= next).Yields state after := by
  unfold Yields at begins ⊢
  rw [runOn_bind]
  cases ran : first.runOn state with
  | mk outcome between =>
      rw [ran] at begins
      cases outcome with
      | ok value => exact continues value between begins
      | error fault => exact stops fault between begins

theorem runOn_eq_of_outcome
    {action : StorageM σ α}
    {state : σ}
    {outcome : Except Fault α}
    (result : (action.runOn state).1 = outcome) :
    action.runOn state = (outcome, (action.runOn state).2) := by
  rw [← result]

/-- A sequence that succeeded went through its first part. -/
theorem runOn_bind_eq_ok
    {first : StorageM σ α}
    {next : α → StorageM σ β}
    {state left : σ}
    {result : β}
    (ran : (first >>= next).runOn state = (.ok result, left)) :
    ∃ value between,
      first.runOn state = (.ok value, between) ∧
        (next value).runOn between = (.ok result, left) := by
  rw [runOn_bind] at ran
  split at ran
  · next value between begins => exact ⟨value, between, begins, ran⟩
  · exact absurd ran (by simp)

/-- A lifted outcome goes on with its value or stops with its fault. -/
theorem yields_lift_bind
    {outcome : Except Fault α}
    {next : α → StorageM σ β}
    {state : σ}
    {after : Except Fault β → σ → Prop}
    (continues : ∀ value, outcome = .ok value → (next value).Yields state after)
    (stops : ∀ fault, outcome = .error fault → after (.error fault) state) :
    ((liftM outcome : StorageM σ α) >>= next).Yields state after := by
  have begins :
      (liftM outcome : StorageM σ α).Yields state fun result between =>
        result = outcome ∧ between = state :=
    yields_lift ⟨rfl, rfl⟩
  apply yields_bind begins
  · intro value between holds
    rcases holds with ⟨same, rfl⟩
    exact continues value same.symm
  · intro fault between holds
    rcases holds with ⟨same, rfl⟩
    exact stops fault same.symm

theorem yields_onSecond
    {action : StorageM σ α}
    {first : τ}
    {second : σ}
    {after : Except Fault α → τ × σ → Prop}
    (yields : action.Yields second fun outcome left => after outcome (first, left)) :
    (action.onSecond : StorageM (τ × σ) α).Yields (first, second) after := yields

/-- A sequence that begins with an action on the second half of a pair. -/
theorem yields_onSecond_bind
    {action : StorageM σ α}
    {next : α → StorageM (τ × σ) β}
    {first : τ}
    {second : σ}
    {middle : Except Fault α → σ → Prop}
    {after : Except Fault β → τ × σ → Prop}
    (begins : action.Yields second middle)
    (continues :
      ∀ value between, middle (.ok value) between → (next value).Yields (first, between) after)
    (stops :
      ∀ fault between, middle (.error fault) between → after (.error fault) (first, between)) :
    (action.onSecond >>= next).Yields (first, second) after := by
  have both :
      (action.onSecond : StorageM (τ × σ) α).Yields (first, second) fun outcome left =>
        left.1 = first ∧ middle outcome left.2 :=
    yields_onSecond (begins.weaken fun _ _ holds => ⟨rfl, holds⟩)
  apply yields_bind both
  · rintro value ⟨_, between⟩ ⟨rfl, holds⟩
    exact continues value between holds
  · rintro fault ⟨_, between⟩ ⟨rfl, holds⟩
    exact stops fault between holds

/-- Two actions on the second half of a pair are one action on it. -/
theorem yields_onSecond_onSecond
    {action : StorageM σ α}
    {next : α → StorageM σ β}
    {first : τ}
    {second : σ}
    {after : Except Fault β → τ × σ → Prop}
    (yields : (action >>= next).Yields second fun outcome left => after outcome (first, left)) :
    (action.onSecond >>= fun value => (next value).onSecond : StorageM (τ × σ) β).Yields
      (first, second) after := by
  unfold Yields at yields ⊢
  rw [runOn_bind] at yields ⊢
  rw [runOn_onSecond]
  cases ran : action.runOn second with
  | mk outcome between =>
      rw [ran] at yields
      cases outcome with
      | ok value => exact yields
      | error fault => exact yields

theorem yields_withFirst_map
    {action : StorageM (τ × σ) α}
    {first : τ}
    {second : σ}
    {after : Except Fault (α × τ) → σ → Prop}
    (yields : action.Yields (first, second) fun outcome left =>
      after (outcome.map fun value => (value, left.1)) left.2) :
    (action.withFirst first).Yields second after := yields

theorem yields_withFirst
    {action : StorageM (τ × σ) α}
    {first : τ}
    {second : σ}
    {accepted : α × τ → σ → Prop}
    {refused : Fault → σ → Prop}
    (yields : action.Yields (first, second)
      (either (fun value left => accepted (value, left.1) left.2)
        fun fault left => refused fault left.2)) :
    (action.withFirst first).Yields second (either accepted refused) := by
  unfold Yields at yields ⊢
  rw [runOn_withFirst]
  cases ran : (action.runOn (first, second)).1 with
  | ok value => simpa [ran, Except.map] using yields
  | error fault => simpa [ran, Except.map] using yields

end ObliviousStorage.StorageM

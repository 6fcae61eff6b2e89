import ObliviousStorage.Index.Builder

/-!
Contract: sorted keys cut into groups.

Owns: which items a group has, that ascending entries stand in the order of their keys at
any distance, and `Covers`, which tells the one place of a row of lowest keys below which a
key has to be sought. A place that covers a key among the groups, and one that covers it
within that group, give the place that covers it among all items.

Does not own: the pages that the groups are put on.
-/

namespace ObliviousStorage.Index

/-! ## Groups -/

section Groups

variable
  {α : Type}
  {size : Nat}

/-- Group `index` has the items from `size * index` on, at most `size` of them. -/
theorem getElem?_groupsOf (positive : 0 < size) (items : List α) (index : Nat) :
    (groupsOf size items)[index]? =
      if size * index < items.length then some ((items.drop (size * index)).take size)
      else none := by
  fun_induction groupsOf size items generalizing index with
  | case1 => simp
  | case2 first rest inductionHypothesis =>
      obtain ⟨least, rfl⟩ : ∃ least, size = least + 1 := ⟨size - 1, by omega⟩
      cases index with
      | zero => simp
      | succ index =>
          have further : (least + 1) * (index + 1) = least + (least + 1) * index + 1 := by
            rw [Nat.mul_succ]
            omega
          rw [List.getElem?_cons_succ, inductionHypothesis, further, List.drop_succ_cons,
            List.length_cons, List.length_drop, List.drop_drop, Nat.add_sub_cancel]
          have inside :
              (least + 1) * index < rest.length - least ↔
                least + (least + 1) * index + 1 < rest.length + 1 := by omega
          simp only [inside]

/-- The groups are as many as it takes, the last one being possibly shorter. -/
theorem length_groupsOf (positive : 0 < size) (items : List α) :
    (groupsOf size items).length = (items.length + size - 1) / size := by
  have least : ∀ index, (groupsOf size items)[index]? = none ↔ items.length ≤ size * index := by
    intro index
    rw [getElem?_groupsOf positive]
    split
    · next inside => simp [inside]
    · next outside => simpa using outside
  refine Nat.le_antisymm ?_ ?_
  · rw [← List.getElem?_eq_none_iff, least]
    have exact := Nat.div_add_mod (items.length + size - 1) size
    have short := Nat.mod_lt (items.length + size - 1) positive
    omega
  · have whole := (least (groupsOf size items).length).mp (List.getElem?_eq_none (Nat.le_refl _))
    rw [Nat.div_le_iff_le_mul_add_pred positive]
    omega

theorem group_eq_of_getElem?_groupsOf
    (positive : 0 < size)
    {items group : List α}
    {index : Nat}
    (among : (groupsOf size items)[index]? = some group) :
    size * index < items.length ∧ group = (items.drop (size * index)).take size := by
  rw [getElem?_groupsOf positive] at among
  split at among
  · next inside => exact ⟨inside, (Option.some.inj among).symm⟩
  · exact absurd among (by simp)

/-- The items of a group are among all items in the same order. -/
theorem getElem?_group
    (positive : 0 < size)
    {items group : List α}
    {index : Nat}
    (among : (groupsOf size items)[index]? = some group)
    (place : Nat) :
    group[place]? = if place < size then items[size * index + place]? else none := by
  rw [(group_eq_of_getElem?_groupsOf positive among).2, List.getElem?_take, List.getElem?_drop]

theorem ne_nil_of_mem_groupsOf
    (positive : 0 < size)
    {items group : List α}
    (member : group ∈ groupsOf size items) :
    group ≠ [] := by
  obtain ⟨index, among⟩ := List.mem_iff_getElem?.mp member
  obtain ⟨inside, rfl⟩ := group_eq_of_getElem?_groupsOf positive among
  rw [← List.length_pos_iff, List.length_take, List.length_drop]
  omega

theorem sublist_of_mem_groupsOf
    (positive : 0 < size)
    {items group : List α}
    (member : group ∈ groupsOf size items) :
    group.Sublist items := by
  obtain ⟨index, among⟩ := List.mem_iff_getElem?.mp member
  rw [(group_eq_of_getElem?_groupsOf positive among).2]
  exact (List.take_sublist ..).trans (List.drop_sublist ..)

theorem length_le_of_mem_groupsOf
    (positive : 0 < size)
    {items group : List α}
    (member : group ∈ groupsOf size items) :
    group.length ≤ size := by
  obtain ⟨index, among⟩ := List.mem_iff_getElem?.mp member
  rw [(group_eq_of_getElem?_groupsOf positive among).2]
  exact List.length_take_le ..

end Groups

/-! ## Ascending keys -/

theorem keysAscend_iff_pairwise {entries : List Entry} :
    keysAscend entries = true ↔ (entries.map Entry.key).Pairwise (· ≤ ·) := by
  fun_induction keysAscend entries with
  | case1 => simp
  | case2 entry => simp
  | case3 first second rest inductionHypothesis =>
      rw [Bool.and_eq_true, decide_eq_true_eq, inductionHypothesis]
      refine Iff.trans ?_ List.pairwise_cons.symm
      constructor
      · rintro ⟨least, sorted⟩
        refine ⟨fun other member => ?_, sorted⟩
        rcases List.mem_cons.mp member with rfl | later
        · exact least
        · exact Int64.le_trans least ((List.pairwise_cons.mp sorted).1 other later)
      · rintro ⟨least, sorted⟩
        exact ⟨least _ (List.mem_cons_self ..), sorted⟩

/-- Ascending keys ascend over any distance. -/
theorem le_of_ascending
    {keys : List Int64}
    (ascending : keys.Pairwise (· ≤ ·))
    {earlier later : Nat}
    (inOrder : earlier ≤ later)
    {low high : Int64}
    (first : keys[earlier]? = some low)
    (second : keys[later]? = some high) :
    low ≤ high := by
  obtain ⟨firstInside, rfl⟩ := List.getElem?_eq_some_iff.mp first
  obtain ⟨secondInside, rfl⟩ := List.getElem?_eq_some_iff.mp second
  rcases Nat.lt_or_eq_of_le inOrder with before | rfl
  · exact List.pairwise_iff_getElem.mp ascending earlier later firstInside secondInside before
  · exact Int64.le_refl _

namespace Builder

/-- The lowest keys of groups are every so many of the keys. -/
theorem getElem?_lowestKeys
    {size : Nat}
    (positive : 0 < size)
    (entries : List Entry)
    (index : Nat) :
    ((groupsOf size entries).map lowestKey)[index]? =
      (entries.map Entry.key)[size * index]? := by
  rw [List.getElem?_map, getElem?_groupsOf positive, List.getElem?_map]
  split
  · next inside =>
      obtain ⟨least, rfl⟩ : ∃ least, size = least + 1 := ⟨size - 1, by omega⟩
      rw [List.getElem?_eq_getElem inside, List.drop_eq_getElem_cons inside]
      rfl
  · next outside => rw [List.getElem?_eq_none (by omega)]; rfl

theorem ascending_lowestKeys
    {size : Nat}
    (positive : 0 < size)
    {entries : List Entry}
    (ascending : (entries.map Entry.key).Pairwise (· ≤ ·)) :
    ((groupsOf size entries).map lowestKey).Pairwise (· ≤ ·) := by
  refine List.pairwise_iff_getElem.mpr fun earlier later firstInside secondInside before => ?_
  have first := List.getElem?_eq_getElem firstInside
  have second := List.getElem?_eq_getElem secondInside
  rw [getElem?_lowestKeys positive] at first second
  exact le_of_ascending ascending (Nat.mul_le_mul_left size (Nat.le_of_lt before)) first second

end Builder

/-! ## Where a key is sought -/

/-- Place `index` of a row of lowest keys covers a key: it is the last whose lowest key does
not lie beyond it. The first place covers whatever is below the second one. -/
structure Covers (lows : List Int64) (key : Int64) (index : Nat) : Prop where
  inside : index < lows.length
  reached : index ≠ 0 → ∀ low, lows[index]? = some low → low ≤ key
  beyond : ∀ later low, index < later → lows[later]? = some low → key < low

namespace Covers

variable
  {lows keys : List Int64}
  {key : Int64}
  {index place size : Nat}

theorem of_singleton (low key : Int64) : Covers [low] key 0 where
  inside := Nat.one_pos
  reached first := absurd rfl first
  beyond later low behind among := by
    rw [List.getElem?_eq_none (Nat.succ_le_of_lt behind)] at among
    exact absurd among (by simp)

/-- Only one place covers a key. -/
theorem unique
    {other : Nat}
    (first : Covers lows key index)
    (second : Covers lows key other) :
    index = other := by
  have notBefore :
      ∀ {left right : Nat}, Covers lows key left → Covers lows key right → ¬left < right := by
    intro left right one another before
    have among := List.getElem?_eq_getElem another.inside
    have low := another.reached (Nat.ne_zero_of_lt before) _ among
    exact Int64.not_le.mpr (one.beyond right _ before among) low
  exact Nat.le_antisymm (Nat.le_of_not_lt (notBefore second first))
    (Nat.le_of_not_lt (notBefore first second))

/-- The group that covers a key, and the place within it that does, give the place among
all keys. -/
theorem within
    {group : List Int64}
    (ascending : keys.Pairwise (· ≤ ·))
    (sampled : ∀ number, lows[number]? = keys[size * number]?)
    (outer : Covers lows key index)
    (part : ∀ number, group[number]? = if number < size then keys[size * index + number]? else none)
    (inner : Covers group key place) :
    Covers keys key (size * index + place) := by
  have here := List.getElem?_eq_getElem inner.inside
  have short : place < size := by
    rcases Nat.lt_or_ge place size with short | long
    · exact short
    · rw [part, if_neg (Nat.not_lt_of_le long)] at here
      exact absurd here (by simp)
  rw [part, if_pos short] at here
  refine ⟨(List.getElem?_eq_some_iff.mp here).1, ?_, ?_⟩
  · intro notFirst low among
    rcases Nat.eq_zero_or_pos place with rfl | later
    · have notZero : index ≠ 0 := by
        rintro rfl
        exact notFirst (Nat.mul_zero size)
      exact outer.reached notZero low (by rw [sampled]; exact among)
    · refine inner.reached (Nat.ne_of_gt later) low ?_
      rw [part, if_pos short]
      exact among
  · intro later low behind among
    rcases Nat.lt_or_ge later (size * index + size) with near | far
    · obtain ⟨number, rfl⟩ := Nat.exists_eq_add_of_le (Nat.le_trans (Nat.le_add_right _ _)
        (Nat.le_of_lt behind))
      refine inner.beyond number low (by omega) ?_
      rw [part, if_pos (by omega)]
      exact among
    · have inside : size * (index + 1) < keys.length := by
        rw [Nat.mul_succ]
        exact Nat.lt_of_le_of_lt far (List.getElem?_eq_some_iff.mp among).1
      have next := List.getElem?_eq_getElem inside
      have beyond := outer.beyond (index + 1) _ (Nat.lt_succ_self _) ((sampled _).trans next)
      exact Int64.lt_of_lt_of_le beyond
        (le_of_ascending ascending (by rw [Nat.mul_succ]; exact far) next among)

end Covers

end ObliviousStorage.Index
